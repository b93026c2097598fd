/-
Pools hold what they record.

The books of the chain (`bookOf`) list, for every pool, what its account holds, what its
record says, and the shares counted and issued.  Every operation that succeeds is harmless
for them (`Safe`), unless it contains a swap for an exact amount in whose power underflows:
such a swap pays out all of an asset, and the record keeps the old amount.
-/
import MaanyDex.Gamm.KeeperEffects
import MaanyDex.Gamm.Messages

namespace MaanyDex.Gamm

open Custody
open Run (bind_ok bind2_ok bind3_ok map_ok)

/-! ### The books -/

/-- The books of the pools. -/
def bookOf (s : State) : Book ℕ Denom where
  opened := { id | (s.pools.lookup id).isSome }
  held id d := s.bank.balance (.pool id) d
  recorded id d := (s.pools.lookup id).elim 0 fun p => p.view.liquidity d
  shares id := (s.pools.lookup id).elim 0 fun p => p.view.totalShares.amount
  issued id := s.bank.supply (getPoolShareDenom id)

/-- Stored pools are well formed and have old ids. -/
structure Valid (s : State) : Prop where
  wf : ∀ id p, s.pools.lookup id = some p → p.Wf
  lt : ∀ id p, s.pools.lookup id = some p → id < s.nextPoolId

/-- A pool object that agrees with the stored pool in all that the keeper sees. -/
structure Loaded (s : State) (id : ℕ) (p : Pool) : Prop where
  stored : ∃ q, s.pools.lookup id = some q ∧ q.view = p.view
  wf : p.Wf

variable {env : Env} {ctx : Ctx} {s s₁ s' : State} {id : ℕ} {p p' : Pool} {n : ℤ}
  {tokenIn tokenOut : Coin} {coins : Coins} {delta : Denom → ℤ} {user : Address}

lemma Valid.getPoolAndPoke_ok (hv : Valid s) (h : getPoolAndPoke env ctx s id = .ok p) :
    Loaded s id p := by
  unfold getPoolAndPoke at h
  split at h
  · cases h
  · rename_i q hq
    obtain ⟨hview, hwf⟩ := Pool.poke_ok (hv.wf id q hq) h
    exact ⟨⟨q, hq, hview.symm⟩, hwf⟩

lemma Loaded.id_eq (hl : Loaded s id p) : p.view.id = id := by
  obtain ⟨q, hq, hview⟩ := hl.stored
  rw [← hview]
  exact PoolStore.id_eq hq

lemma Loaded.id_eq_of_moved (hl : Loaded s id p) (hm : Moved delta n p.view p'.view) :
    p'.view.id = id :=
  hm.id.trans hl.id_eq

/-- The state after an operation on one pool: the pool is written, and the bank changes
by `f` and `g`. -/
structure Writes (p' : Pool) (f : Address → Denom → ℤ) (g : Denom → ℤ) (s s' : State) : Prop where
  pools : s'.pools = (setPool s p').pools
  nextPoolId : s'.nextPoolId = s.nextPoolId
  flows : Flows f g s.bank s'.bank

section Writes

variable {f : Address → Denom → ℤ} {g : Denom → ℤ}

lemma Writes.lookup (h : Writes p' f g s s') (hid : p'.view.id = id) (j : ℕ) :
    s'.pools.lookup j = if j = id then some p' else s.pools.lookup j := by
  rw [h.pools, ← hid]
  by_cases hj : j = p'.view.id
  · rw [hj, if_pos rfl]
    exact PoolStore.lookup_set_self _ _
  · rw [if_neg hj]
    exact PoolStore.lookup_set_of_ne hj

/-- An operation on a loaded pool keeps the state valid. -/
lemma Writes.valid (h : Writes p' f g s s') (hv : Valid s) (hl : Loaded s id p)
    (hm : Moved delta n p.view p'.view) (hwf : p'.Wf) : Valid s' ∧ Loaded s' id p' := by
  have hlookup := h.lookup (hl.id_eq_of_moved hm)
  obtain ⟨q, hq, -⟩ := hl.stored
  refine ⟨⟨fun j r hr => ?_, fun j r hr => ?_⟩, ⟨⟨p', by rw [hlookup, if_pos rfl], rfl⟩, hwf⟩⟩
  all_goals rw [hlookup] at hr
  all_goals split at hr
  · cases hr
    exact hwf
  · exact hv.wf j r hr
  · rw [h.nextPoolId, ‹j = id›]
    exact hv.lt id q hq
  · rw [h.nextPoolId]
    exact hv.lt j r hr

/-- **An operation on a loaded pool settles**: the account of the pool gets at least what
the record says, and as many shares are issued as are counted. -/
lemma Writes.settles (h : Writes p' f g s s') (hl : Loaded s id p)
    (hm : Moved delta n p.view p'.view)
    (hself : ∀ d, delta d ≤ f (.pool id) d) (helse : ∀ j, j ≠ id → ∀ d, 0 ≤ f (.pool j) d)
    (hshares : ∀ j, g (getPoolShareDenom j) = if j = id then n else 0) :
    Settles id (f (.pool id)) delta (fun _ => 0) n (bookOf s) (bookOf s') := by
  have hlookup := h.lookup (hl.id_eq_of_moved hm)
  obtain ⟨q, hq, hview⟩ := hl.stored
  have hlookup_self : s'.pools.lookup id = some p' := by rw [hlookup, if_pos rfl]
  have hlookup_ne : ∀ j, j ≠ id → s'.pools.lookup j = s.pools.lookup j := fun j hj => by
    rw [hlookup, if_neg hj]
  exact {
    opened := fun j hj => by
      show (s'.pools.lookup j).isSome ↔ (s.pools.lookup j).isSome
      rw [hlookup_ne j hj]
    held := fun j hj d => by
      show (s.bank.balance (.pool j) d : ℤ) ≤ s'.bank.balance (.pool j) d
      have := helse j hj d
      rw [h.flows.balance]
      omega
    recorded := fun j hj d => by
      show (s'.pools.lookup j).elim _ _ = (s.pools.lookup j).elim _ _
      rw [hlookup_ne j hj]
    shares := fun j hj => by
      show (s'.pools.lookup j).elim _ _ = (s.pools.lookup j).elim _ _
      rw [hlookup_ne j hj]
    issued := fun j hj => by
      show (s'.bank.supply _ : ℤ) = s.bank.supply _
      rw [h.flows.supply, hshares, if_neg hj, add_zero]
    mem := by
      show (s.pools.lookup id).isSome
      rw [hq]
      rfl
    mem' := by
      show (s'.pools.lookup id).isSome
      rw [hlookup_self]
      rfl
    joined_le := hself
    held_self := fun d => by
      show (s.bank.balance (.pool id) d : ℤ) + f (.pool id) d - 0 ≤ s'.bank.balance (.pool id) d
      rw [h.flows.balance, sub_zero]
    recorded_self := fun d => by
      show (s'.pools.lookup id).elim _ _ = (s.pools.lookup id).elim _ _ + delta d - 0
      rw [hlookup_self, hq, sub_zero, Option.elim_some, Option.elim_some, hm.liquidity, hview]
    shares_self := by
      show (s'.pools.lookup id).elim _ _ = (s.pools.lookup id).elim _ _ + n
      rw [hlookup_self, hq, Option.elim_some, Option.elim_some, hm.totalShares, hview]
    issued_self := by
      show (s'.bank.supply _ : ℤ) = s.bank.supply _ + n
      rw [h.flows.supply, hshares, if_pos rfl] }

end Writes

/-! ### The three kinds of operations -/

lemma net_shares (hid : p.view.id = id) (n : ℤ) (j : ℕ) :
    net [shares p n] (getPoolShareDenom j) = if j = id then n else 0 := by
  rw [net_cons, net_nil, add_zero]
  show (if getPoolShareDenom p.view.id = getPoolShareDenom j then n else 0) = _
  simp only [getPoolShareDenom_inj, hid, eq_comm]

section Settling

variable (hu : ∀ j, user ≠ .pool j)

include hu

lemma Traded.settles (h : Traded env user p' tokenIn tokenOut s s')
    (hv : Valid s) (hl : Loaded s id p)
    (hm : Moved (fun d => net [tokenIn] d - net [tokenOut] d) 0 p.view p'.view) (hwf : p'.Wf) :
    (Valid s' ∧ Loaded s' id p') ∧ Keeps (bookOf s) (bookOf s') := by
  have haddr : p'.view.address = .pool id := by rw [p'.view_address, hl.id_eq_of_moved hm]
  have hw : Writes p' _ _ s s' := ⟨by rw [h.state], by rw [h.state]; rfl, h.flows⟩
  refine ⟨hw.valid hv hl hm hwf, (hw.settles hl hm ?_ ?_ ?_).keeps⟩
  · intro d
    rw [haddr, transferred_dst (hu id).symm, transferred_src (hu id).symm, sub_eq_add_neg]
  · intro j hj d
    have hne : Address.pool j ≠ .pool id := fun e => hj (Address.pool.inj e)
    rw [haddr, transferred_other (hu j).symm hne, transferred_other hne (hu j).symm, add_zero]
  · intro j
    rw [ite_self]

lemma Joined.settles {joined : Denom → ℤ} (h : Joined env user p' n coins s s')
    (hv : Valid s) (hl : Loaded s id p)
    (hm : Moved joined n p.view p'.view) (hle : ∀ d, joined d ≤ net coins d) (hwf : p'.Wf) :
    (Valid s' ∧ Loaded s' id p') ∧ Keeps (bookOf s) (bookOf s') := by
  have haddr : p'.view.address = .pool id := by rw [p'.view_address, hl.id_eq_of_moved hm]
  have hw : Writes p' _ _ s s' := ⟨by rw [h.state], by rw [h.state]; rfl, h.flows⟩
  refine ⟨hw.valid hv hl hm hwf, (hw.settles hl hm ?_ ?_ ?_).keeps⟩
  · intro d
    rw [haddr, transferred_dst (hu id).symm, if_neg (hu id).symm, add_zero]
    exact hle d
  · intro j hj d
    have hne : Address.pool j ≠ .pool id := fun e => hj (Address.pool.inj e)
    rw [haddr, transferred_other (hu j).symm hne, if_neg (hu j).symm, add_zero]
  · exact net_shares (hl.id_eq_of_moved hm) n

lemma Exited.settles (h : Exited env user p' n coins s s')
    (hv : Valid s) (hl : Loaded s id p) (hm : Moved (fun d => -net coins d) (-n) p.view p'.view)
    (hwf : p'.Wf) : (Valid s' ∧ Loaded s' id p') ∧ Keeps (bookOf s) (bookOf s') := by
  have haddr : p'.view.address = .pool id := by rw [p'.view_address, hl.id_eq_of_moved hm]
  have hw : Writes p' _ _ s s' := ⟨by rw [h.state], by rw [h.state]; rfl, h.flows⟩
  refine ⟨hw.valid hv hl hm hwf, (hw.settles hl hm ?_ ?_ ?_).keeps⟩
  · intro d
    rw [haddr, transferred_src (hu id).symm, if_neg (hu id).symm, sub_zero]
  · intro j hj d
    have hne : Address.pool j ≠ .pool id := fun e => hj (Address.pool.inj e)
    rw [haddr, transferred_other hne (hu j).symm, if_neg (hu j).symm, sub_zero]
  · intro j
    rw [net_shares (hl.id_eq_of_moved hm) n]
    split <;> simp

end Settling

/-- Payments that take nothing from pools and issue no shares are harmless. -/
lemma donates {f : Address → Denom → ℤ} (hs : s' = { s with bank := s'.bank })
    (hf : Flows f (fun _ => 0) s.bank s'.bank) (hpool : ∀ j d, 0 ≤ f (.pool j) d) :
    Keeps (bookOf s) (bookOf s') := by
  have hpools : s'.pools = s.pools := by rw [hs]
  refine Donates.keeps ⟨?_, fun j d => ?_, ?_, ?_, ?_⟩
  · simp only [bookOf, hpools]
  · show (s.bank.balance (.pool j) d : ℤ) ≤ s'.bank.balance (.pool j) d
    have := hpool j d
    rw [hf.balance]
    omega
  · simp only [bookOf, hpools]
  · simp only [bookOf, hpools]
  · funext j
    show (s'.bank.supply _ : ℤ) = s.bank.supply _
    rw [hf.supply, add_zero]

lemma Valid.withBank (hv : Valid s) (hs : s' = { s with bank := s'.bank }) : Valid s' := by
  rw [hs]
  exact ⟨hv.wf, hv.lt⟩

lemma Loaded.withBank (hl : Loaded s id p) (hs : s' = { s with bank := s'.bank }) :
    Loaded s' id p := by
  rw [hs]
  exact ⟨hl.stored, hl.wf⟩

/-! ### Operations are safe -/

/-- No swap for an exact amount in, in the history, computed a power that is not
positive. -/
def NoUnderflow (env : Env) (s : State) : Prop :=
  ∀ call ∈ s.swaps, ¬call.pool.Underflows env call.tokenIn call.tokenOutDenom call.spreadFactor

instance (env : Env) (s : State) : Decidable (NoUnderflow env s) :=
  inferInstanceAs (Decidable (∀ call ∈ s.swaps, _))

/-- Unless a swap underflows, valid states become valid states and the books change in a
harmless way. -/
structure Safe (env : Env) (s s' : State) : Prop where
  history : s.swaps ⊆ s'.swaps
  keeps : NoUnderflow env s' → Valid s → Valid s' ∧ Keeps (bookOf s) (bookOf s')

lemma Safe.refl (s : State) : Safe env s s := ⟨fun _ h => h, fun _ hv => ⟨hv, Keeps.refl _⟩⟩

lemma Safe.trans (h : Safe env s s₁) (h' : Safe env s₁ s') : Safe env s s' where
  history _ hc := h'.history (h.history hc)
  keeps hno hv := by
    obtain ⟨hv₁, hk₁⟩ := h.keeps (fun call hc => hno call (h'.history hc)) hv
    obtain ⟨hv', hk'⟩ := h'.keeps hno hv₁
    exact ⟨hv', hk₁.trans hk'⟩

lemma Safe.of_settles (hs : s'.swaps = s.swaps)
    (h : Valid s → ∃ id p', (Valid s' ∧ Loaded s' id p') ∧ Keeps (bookOf s) (bookOf s')) :
    Safe env s s' where
  history _ hc := hs ▸ hc
  keeps _ hv := by
    obtain ⟨_, _, ⟨hv', -⟩, hkeeps⟩ := h hv
    exact ⟨hv', hkeeps⟩

section Operations

variable {poolId : ℕ} {shareOutAmount : ℤ} (hu : ∀ j, user ≠ .pool j)

include hu

lemma joinPoolNoSwap_safe {tokenInMaxs : Coins}
    (h : joinPoolNoSwap env ctx s user poolId shareOutAmount tokenInMaxs = .ok (coins, n, s')) :
    Safe env s s' := by
  obtain ⟨p, needed, _, hp, -, -, h⟩ := bind3_ok h
  obtain ⟨⟨sharesOut, p'⟩, hjoin, h⟩ := bind_ok h
  obtain ⟨s₁, happly, h⟩ := bind_ok h
  cases h
  have hjoined := applyJoinPoolStateChange_ok happly
  refine Safe.of_settles (by rw [hjoined.state]; rfl) fun hv => ?_
  have hl := hv.getPoolAndPoke_ok hp
  obtain ⟨joined, hle, hm, hwf⟩ := Pool.joinPoolNoSwap_ok hl.wf hjoin
  exact ⟨_, _, hjoined.settles hu hv hl hm hle hwf⟩

lemma joinSwapExactAmountIn_safe {tokensIn : Coins} {shareOutMinAmount : ℤ}
    (h : joinSwapExactAmountIn env ctx s user poolId tokensIn shareOutMinAmount = .ok (n, s')) :
    Safe env s s' := by
  obtain ⟨p, ⟨sharesOut, p'⟩, hp, hjoin, h⟩ := bind2_ok h
  obtain ⟨_, _, s₁, -, -, happly, h⟩ := bind3_ok h
  cases h
  have hjoined := applyJoinPoolStateChange_ok happly
  refine Safe.of_settles (by rw [hjoined.state]; rfl) fun hv => ?_
  have hl := hv.getPoolAndPoke_ok hp
  have hnonneg : ∀ c ∈ tokensIn, 0 ≤ c.amount := fun c hc => (isValid_pos hjoined.valid c hc).le
  obtain ⟨joined, hle, hm, hwf⟩ := Pool.joinPool_ok hl.wf hnonneg hjoin
  exact ⟨_, _, hjoined.settles hu hv hl hm hle hwf⟩

variable {tokenInMaxAmount : ℤ}

lemma joinSwapShareAmountOut_safe {tokenInDenom : Denom}
    (h : joinSwapShareAmountOut env ctx s user poolId tokenInDenom shareOutAmount tokenInMaxAmount
      = .ok (n, s')) : Safe env s s' := by
  obtain ⟨p, hp, h⟩ := bind_ok h
  cases p with
  | stableswap p => cases h
  | balancer p =>
    obtain ⟨_, _, _, -, -, -, h⟩ := bind3_ok h
    obtain ⟨tokenIn, p', s₁, hcoins, hjoin, happly, h⟩ := bind3_ok h
    cases h
    have hjoined := applyJoinPoolStateChange_ok happly
    refine Safe.of_settles (by rw [hjoined.state]; rfl) fun hv => ?_
    have hl := hv.getPoolAndPoke_ok hp
    have hnonneg : ∀ c ∈ tokenIn, 0 ≤ c.amount := fun c hc =>
      ((newCoins_ok hcoins).2.1 c hc).le
    obtain ⟨hm, hwf⟩ := Balancer.increaseLiquidity_ok hl.wf hnonneg hjoin
    exact ⟨_, _, hjoined.settles (p := .balancer p) hu hv hl hm (fun _ => le_rfl) hwf⟩

variable {shareInAmount : ℤ}

lemma exitPool_safe {tokenOutMins : Coins}
    (h : exitPool env ctx s user poolId shareInAmount tokenOutMins = .ok (coins, s')) :
    Safe env s s' := by
  obtain ⟨p, _, _, hp, -, -, h⟩ := bind3_ok h
  obtain ⟨⟨exitCoins, p'⟩, hexit, h⟩ := bind_ok h
  obtain ⟨_, s₁, -, happly, h⟩ := bind2_ok h
  cases h
  have hexited := applyExitPoolStateChange_ok happly
  refine Safe.of_settles (by rw [hexited.state]; rfl) fun hv => ?_
  have hl := hv.getPoolAndPoke_ok hp
  obtain ⟨hm, hwf⟩ := Pool.exitPool_ok hl.wf hexit
  exact ⟨_, _, hexited.settles hu hv hl hm hwf⟩

lemma exitSwapExactAmountOut_safe {shareInMaxAmount : ℤ}
    (h : exitSwapExactAmountOut env ctx s user poolId tokenOut shareInMaxAmount = .ok (n, s')) :
    Safe env s s' := by
  obtain ⟨p, hp, h⟩ := bind_ok h
  cases p with
  | stableswap p => cases h
  | balancer p =>
    obtain ⟨⟨shareInAmount, p'⟩, hexit, h⟩ := bind_ok h
    obtain ⟨s₁, happly, h⟩ := bind_ok h
    cases h
    have hexited := applyExitPoolStateChange_ok happly
    refine Safe.of_settles (by rw [hexited.state]; rfl) fun hv => ?_
    have hl := hv.getPoolAndPoke_ok hp
    obtain ⟨hm, hwf⟩ := Balancer.exitSwapExactAmountOut_ok hl.wf hexit
    exact ⟨_, _, hexited.settles (p := .balancer p) hu hv hl hm hwf⟩

/-! ### Swaps -/

variable {denom : Denom} {tokenOutMinAmount : ℤ} {spreadFactor : Dec}

/-- A swap for an exact amount in on a loaded pool. -/
lemma swapExactAmountIn_safe
    (h : swapExactAmountIn env s user p tokenIn denom tokenOutMinAmount spreadFactor
      = .ok (n, p', s')) :
    s.swaps ⊆ s'.swaps ∧ ∀ id, NoUnderflow env s' → Valid s → Loaded s id p →
      (Valid s' ∧ Loaded s' id p') ∧ Keeps (bookOf s) (bookOf s') := by
  obtain ⟨c, -, -, hne, hswap, htraded⟩ := swapExactAmountIn_ok h
  have hswaps : s'.swaps = s.swaps ++ [⟨p, tokenIn, denom, spreadFactor⟩] := by
    rw [htraded.state]
    rfl
  refine ⟨fun call hc => by rw [hswaps]; exact List.mem_append_left _ hc, fun id hno hv hl => ?_⟩
  have hcall := hno ⟨p, tokenIn, denom, spreadFactor⟩ (by rw [hswaps]; simp)
  have hpos : 0 < tokenIn.amount := isValid_pos htraded.validIn tokenIn (by simp)
  obtain ⟨hm, hwf⟩ := Pool.swapOutAmtGivenIn_ok hl.wf hne hpos.le hcall hswap
  have hsettled := htraded.settles hu ⟨hv.wf, hv.lt⟩ ⟨hl.stored, hl.wf⟩ hm hwf
  exact hsettled

lemma swapExactAmountOut_safe
    (h : swapExactAmountOut env ctx s user p denom tokenInMaxAmount tokenOut spreadFactor
      = .ok (n, p', s')) (hl : Valid s → Loaded s id p) : Safe env s s' := by
  obtain ⟨c, -, -, -, hne, ⟨stored, liquidity, hstored, hliquidity, hlt⟩, hswap, htraded⟩ :=
    swapExactAmountOut_ok h
  refine Safe.of_settles (by rw [htraded.state]; rfl) fun hv => ?_
  have hl := hl hv
  -- the pool that is read again for the check is the one at hand
  have hl' := hv.getPoolAndPoke_ok hstored
  obtain ⟨q, hq, hview⟩ := hl.stored
  obtain ⟨q', hq', hview'⟩ := hl'.stored
  rw [hl.id_eq, hq] at hq'
  cases hq'
  obtain ⟨hnet, hnodup, -⟩ := Pool.getTotalPoolLiquidity_ok hl'.wf hliquidity
  rw [amountOf_eq_net hnodup, hnet, ← hview', hview] at hlt
  obtain ⟨hm, hwf⟩ := Pool.swapInAmtGivenOut_ok hl.wf hne hlt hswap
  exact ⟨_, _, htraded.settles hu hv hl hm hwf⟩

variable {acc acc' : ℤ × Pool × State}

/-- One round of the loop of `ExitSwapShareAmountIn`. -/
lemma swapExited_safe {coin : Coin}
    (h : swapExited env user denom spreadFactor acc coin = .ok acc') :
    acc.2.2.swaps ⊆ acc'.2.2.swaps ∧ ∀ id, NoUnderflow env acc'.2.2 → Valid acc.2.2 →
      Loaded acc.2.2 id acc.2.1 → (Valid acc'.2.2 ∧ Loaded acc'.2.2 id acc'.2.1)
        ∧ Keeps (bookOf acc.2.2) (bookOf acc'.2.2) := by
  unfold swapExited at h
  split at h
  · cases h
    exact ⟨fun _ hc => hc, fun _ _ hv hl => ⟨⟨hv, hl⟩, Keeps.refl _⟩⟩
  · obtain ⟨⟨swapOut, p', s'⟩, hswap, h⟩ := bind_ok h
    obtain ⟨_, -, h⟩ := bind_ok h
    cases h
    exact swapExactAmountIn_safe hu hswap

lemma swapAllExited_safe
    (h : coins.foldlM (swapExited env user denom spreadFactor) acc = .ok acc') :
    acc.2.2.swaps ⊆ acc'.2.2.swaps ∧ ∀ id, NoUnderflow env acc'.2.2 → Valid acc.2.2 →
      Loaded acc.2.2 id acc.2.1 → Valid acc'.2.2 ∧ Keeps (bookOf acc.2.2) (bookOf acc'.2.2) := by
  induction coins generalizing acc with
  | nil =>
    cases h
    exact ⟨fun _ hc => hc, fun _ _ hv _ => ⟨hv, Keeps.refl _⟩⟩
  | cons coin coins ih =>
    rw [List.foldlM_cons] at h
    obtain ⟨acc₁, hround, h⟩ := bind_ok h
    obtain ⟨hsub₁, hsafe₁⟩ := swapExited_safe hu hround
    obtain ⟨hsub', hsafe'⟩ := ih h
    refine ⟨fun _ hc => hsub' (hsub₁ hc), fun id hno hv hl => ?_⟩
    obtain ⟨⟨hv₁, hl₁⟩, hk₁⟩ := hsafe₁ id (fun call hc => hno call (hsub' hc)) hv hl
    obtain ⟨hv', hk'⟩ := hsafe' id hno hv₁ hl₁
    exact ⟨hv', hk₁.trans hk'⟩

lemma exitSwapShareAmountIn_safe
    (h : exitSwapShareAmountIn env ctx s user poolId denom shareInAmount tokenOutMinAmount
      = .ok (n, s')) : Safe env s s' := by
  obtain ⟨⟨exitCoins, s₁⟩, hexit, h⟩ := bind_ok h
  obtain ⟨p, exited, ⟨_, p', s₂⟩, hp, -, hloop, h⟩ := bind3_ok h
  obtain ⟨_, -, h⟩ := bind_ok h
  cases h
  obtain ⟨hsub, hsafe⟩ := swapAllExited_safe hu hloop
  refine (exitPool_safe hu hexit).trans ⟨hsub, fun hno hv => ?_⟩
  exact hsafe poolId hno hv (hv.getPoolAndPoke_ok hp)

/-! ### Routes -/

variable {after fee : Coin}

lemma chargeTakerFee_keeps {exactIn : Bool}
    (h : chargeTakerFee env ctx s tokenIn denom user exactIn = .ok (after, fee, s')) :
    Keeps (bookOf s) (bookOf s') := by
  obtain ⟨hs, hflows⟩ := chargeTakerFee_ok h
  refine donates hs hflows fun j d => ?_
  have hne : Address.pool j ≠ .moduleAccount takerFeeModuleName := Address.noConfusion
  rw [transferred_other (hu j).symm hne]

lemma swapHopIn_safe
    (h : swapHopIn env ctx s user poolId tokenIn denom tokenOutMinAmount = .ok (n, fee, s')) :
    Safe env s s' := by
  obtain ⟨p, ⟨after, fee', s₁⟩, hp, hfee, h⟩ := bind2_ok h
  obtain ⟨⟨n', p', s₂⟩, hswap, h⟩ := bind_ok h
  cases h
  obtain ⟨hs₁, -⟩ := chargeTakerFee_ok hfee
  obtain ⟨hsub, hsafe⟩ := swapExactAmountIn_safe hu hswap
  refine ⟨by rw [hs₁] at hsub; exact hsub, fun hno hv => ?_⟩
  have hl := hv.getPoolAndPoke_ok (getPoolModuleAndPool_ok hp)
  obtain ⟨⟨hv', -⟩, hkeeps⟩ := hsafe poolId hno (hv.withBank hs₁) (hl.withBank hs₁)
  exact ⟨hv', (chargeTakerFee_keeps hu hfee).trans hkeeps⟩

variable {fees : Coins}

lemma routeIn_safe {out : ℤ} {route : List SwapAmountInRoute}
    (h : routeIn env ctx user tokenOutMinAmount route s tokenIn out fees = .ok (n, s')) :
    Safe env s s' := by
  induction route generalizing s tokenIn out fees with
  | nil =>
    cases h
    exact Safe.refl _
  | cons step rest ih =>
    obtain ⟨⟨out₁, fee, s₁⟩, hhop, h⟩ := bind_ok h
    obtain ⟨_, _, -, -, h⟩ := bind2_ok h
    exact (swapHopIn_safe hu hhop).trans (ih h)

lemma swapHopOut_safe {step : SwapAmountOutRoute} {limit : ℤ}
    (h : swapHopOut env ctx s user step limit tokenOut = .ok (after, fee, s')) : Safe env s s' := by
  obtain ⟨p, ⟨n', p', s₁⟩, hp, hswap, h⟩ := bind2_ok h
  obtain ⟨tokenIn, -, h⟩ := bind_ok h
  obtain ⟨hs', -⟩ := chargeTakerFee_ok h
  have hsafe := swapExactAmountOut_safe hu hswap fun hv =>
    hv.getPoolAndPoke_ok (getPoolModuleAndPool_ok hp)
  refine hsafe.trans ⟨by rw [hs']; exact fun _ hc => hc, fun _ hv => ?_⟩
  exact ⟨hv.withBank hs', chargeTakerFee_keeps hu h⟩

lemma routeOut_safe {route : List SwapAmountOutRoute} {limits ins : List ℤ}
    (h : routeOut env ctx user tokenOut route limits s fees = .ok (ins, s')) : Safe env s s' := by
  induction route generalizing s limits fees ins with
  | nil =>
    cases h
    exact Safe.refl _
  | cons step rest ih =>
    cases limits with
    | nil => cases h
    | cons limit limits =>
      obtain ⟨out, ⟨after, fee, s₁⟩, -, hhop, h⟩ := bind2_ok h
      obtain ⟨_, ⟨ins', s₂⟩, -, hrest, h⟩ := bind2_ok h
      cases h
      exact (swapHopOut_safe hu hhop).trans (ih hrest)

end Operations

/-! ### Creating pools -/

/-- **A new pool is covered**: the creator pays what the pool records, and all shares
counted are issued. -/
lemma Founded.opens {msg : CreatePoolMsg} (h : Founded env msg p s s')
    (hu : ∀ j, msg.poolCreator ≠ .pool j) (hv : Valid s) :
    Valid s' ∧ Keeps (bookOf s) (bookOf s') := by
  have hfresh : s.pools.lookup s.nextPoolId = none := by
    rcases hq : s.pools.lookup s.nextPoolId with - | q
    · rfl
    · exact absurd (hv.lt _ q hq) (lt_irrefl _)
  have hid : p.view.id = s.nextPoolId := by rw [h.view]
  have hself : s'.pools.lookup s.nextPoolId = some p := by
    rw [h.pools, ← hid, PoolStore.lookup_set_self]
  have hne : ∀ j, j ≠ s.nextPoolId → s'.pools.lookup j = s.pools.lookup j := fun j hj => by
    rw [h.pools, PoolStore.lookup_set_of_ne (hid ▸ hj)]
  constructor
  · refine ⟨fun j q hq => ?_, fun j q hq => ?_⟩
    all_goals rcases eq_or_ne j s.nextPoolId with rfl | hj
    · rw [hself] at hq
      cases hq
      exact h.wf
    · exact hv.wf j q (hne j hj ▸ hq)
    · rw [h.nextPoolId]
      exact Nat.lt_succ_self _
    · rw [h.nextPoolId]
      exact Nat.lt_succ_of_lt (hv.lt j q (hne j hj ▸ hq))
  · refine Opens.keeps (i := s.nextPoolId) ⟨⟨fun j hj => ?_, fun j hj d => ?_, fun j hj d => ?_,
      fun j hj => ?_, fun j hj => ?_⟩, ?_, ?_, fun d => ?_, ?_⟩
    · show (s'.pools.lookup j).isSome ↔ (s.pools.lookup j).isSome
      rw [hne j hj]
    · show (s.bank.balance (.pool j) d : ℤ) ≤ s'.bank.balance (.pool j) d
      have haddr : Address.pool j ≠ .pool s.nextPoolId := fun e => hj (Address.pool.inj e)
      rw [h.flows.balance, if_neg (hu j).symm, transferred_other (hu j).symm haddr]
      omega
    · show (s'.pools.lookup j).elim _ _ = (s.pools.lookup j).elim _ _
      rw [hne j hj]
    · show (s'.pools.lookup j).elim _ _ = (s.pools.lookup j).elim _ _
      rw [hne j hj]
    · show (s'.bank.supply _ : ℤ) = s.bank.supply _
      rw [h.flows.supply, net_shares hid, if_neg hj, add_zero]
    · show ¬(s.pools.lookup _).isSome
      rw [hfresh]
      simp
    · show (s'.pools.lookup _).isSome
      rw [hself]
      rfl
    · show (s'.pools.lookup _).elim _ _ ≤ (s'.bank.balance (.pool s.nextPoolId) d : ℤ)
      have haddr : Address.pool s.nextPoolId ≠ msg.poolCreator := (hu _).symm
      rw [hself, Option.elim_some, h.view, h.flows.balance, if_neg haddr, transferred_dst haddr]
      show net msg.initialLiquidity d ≤ _
      omega
    · show (s'.pools.lookup _).elim _ _ = (s'.bank.supply _ : ℤ) - s.bank.supply _
      rw [hself, Option.elim_some, h.flows.supply, net_shares hid, if_pos rfl, h.view]
      show initPoolSharesSupply = _
      omega

/-! ### Runs -/

/-- **Every message is safe.** -/
lemma handle_safe {msg : Msg} (hu : ∀ j, msg.signer ≠ .pool j)
    (h : msg.handle env ctx s = .ok s') : Safe env s s' := by
  cases msg with
  | createPool msg =>
    obtain ⟨⟨id, s₁⟩, hcreate, rfl⟩ := map_ok h
    obtain ⟨p, hfounded⟩ := createPool_ok hcreate
    exact ⟨by rw [hfounded.swaps]; exact fun _ hc => hc, fun _ hv => hfounded.opens hu hv⟩
  | joinPool sender poolId shareOutAmount tokenInMaxs =>
    obtain ⟨⟨_, _, s₁⟩, hjoin, rfl⟩ := map_ok h
    exact joinPoolNoSwap_safe hu hjoin
  | joinSwapExternAmountIn sender poolId tokenIn shareOutMinAmount =>
    obtain ⟨⟨_, s₁⟩, hjoin, rfl⟩ := map_ok h
    exact joinSwapExactAmountIn_safe hu hjoin
  | joinSwapShareAmountOut sender poolId tokenInDenom shareOutAmount tokenInMaxAmount =>
    obtain ⟨⟨_, s₁⟩, hjoin, rfl⟩ := map_ok h
    exact joinSwapShareAmountOut_safe hu hjoin
  | exitPool sender poolId shareInAmount tokenOutMins =>
    obtain ⟨⟨_, s₁⟩, hexit, rfl⟩ := map_ok h
    exact exitPool_safe hu hexit
  | exitSwapExternAmountOut sender poolId tokenOut shareInMaxAmount =>
    obtain ⟨⟨_, s₁⟩, hexit, rfl⟩ := map_ok h
    exact exitSwapExactAmountOut_safe hu hexit
  | exitSwapShareAmountIn sender poolId tokenOutDenom shareInAmount tokenOutMinAmount =>
    obtain ⟨⟨_, s₁⟩, hexit, rfl⟩ := map_ok h
    exact exitSwapShareAmountIn_safe hu hexit
  | swapExactAmountIn sender routes tokenIn tokenOutMinAmount =>
    obtain ⟨⟨_, s₁⟩, hroute, rfl⟩ := map_ok h
    obtain ⟨_, -, hroute⟩ := bind_ok hroute
    exact routeIn_safe hu hroute
  | swapExactAmountOut sender routes tokenInMaxAmount tokenOut =>
    obtain ⟨⟨_, s₁⟩, hroute, rfl⟩ := map_ok h
    obtain ⟨_, _, ⟨_, s₂⟩, -, -, hloop, hroute⟩ := bind3_ok hroute
    cases hroute
    exact routeOut_safe hu hloop
  | send sender recipient amount =>
    obtain ⟨bank, hsend, h⟩ := bind_ok h
    cases h
    refine ⟨fun _ hc => hc, fun _ hv => ⟨hv.withBank rfl, ?_⟩⟩
    refine donates rfl (sendCoins_flows hsend) fun j d => ?_
    have hnonneg := net_nonneg (fun c hc => (isValid_pos (Bank.sendCoins_isValid hsend) c hc).le) d
    have hsender : Address.pool j ≠ sender := (hu j).symm
    rw [transferred, if_neg hsender, sub_zero]
    split
    · exact hnonneg
    · exact le_rfl

lemma deliverTx_safe {tx : Tx} (h : deliverTx env s tx = .ok s') : Safe env s s' := by
  obtain ⟨_, _, hsigner, -, h⟩ := bind2_ok h
  refine handle_safe (fun j hj => ?_) h
  have := ensure_ok hsigner
  rw [hj] at this
  cases this

lemma run_safe (txs : List Tx) : Safe env s (Run.run (deliverTx env) s txs) := by
  induction txs generalizing s with
  | nil => exact Safe.refl s
  | cons tx txs ih =>
    have hone : Safe env s (Run.exec (deliverTx env) s tx) :=
      Run.exec_invariant (Safe.refl s) fun s₁ h => deliverTx_safe h
    exact hone.trans ih

lemma Initial.valid (h : Initial s) : Valid s := by
  constructor
  all_goals
    intro id p hp
    rw [h.pools] at hp
    cases hp

lemma Initial.solvent (h : Initial s) : Solvent (bookOf s) := by
  have hnone : ∀ id, s.pools.lookup id = none := fun id => by rw [h.pools]; rfl
  refine ⟨fun id hid => ?_, fun id hid => ?_, fun id _ => ?_⟩
  · exact absurd hid (by simp [bookOf, hnone])
  · exact absurd hid (by simp [bookOf, hnone])
  · show (s.bank.supply (getPoolShareDenom id) : ℤ) = 0
    exact_mod_cast h.shares id

/-- **Pool solvency**: in every run without underflowing swaps, every pool account holds at
least what the pool records, and the shares that the pool counts are those in
circulation. -/
theorem run_solvent (h : Initial s) (txs : List Tx)
    (hno : NoUnderflow env (Run.run (deliverTx env) s txs)) :
    Solvent (bookOf (Run.run (deliverTx env) s txs)) :=
  (((run_safe txs).keeps hno h.valid).2).solvent h.solvent

/-- Alice holds `foo` and `bar`. -/
def fooBarState : State :=
  chainState [(alice, ⟨ascii "foo", 10 ^ 11⟩), (alice, ⟨ascii "bar", 10 ^ 6⟩)]

/-- A pool with one `foo`, of twice the weight of a million `bar`. -/
def lopsidedPool : Msg :=
  createBalancer [⟨⟨ascii "foo", 1⟩, 2⟩, ⟨⟨ascii "bar", 10 ^ 6⟩, 1⟩]

/-- Ten billion `foo` buy all of the `bar`, and the pool still records a million. -/
theorem underflow_breaks_solvency :
    Initial fooBarState ∧
      ¬Solvent (bookOf (chainRun fooBarState
        [lopsidedPool, swapFor ⟨ascii "foo", 10 ^ 10⟩ (ascii "bar")])) := by
  refine ⟨initial_chainState (by decide), fun h => ?_⟩
  have hopened : ((chainRun fooBarState
      [lopsidedPool, swapFor ⟨ascii "foo", 10 ^ 10⟩ (ascii "bar")]).pools.lookup 1).isSome := by
    decide +kernel
  exact absurd (h.covered 1 hopened (ascii "bar")) (by decide +kernel)

/-- Ten `foo` are no problem. -/
theorem run_solvent_of_small_swap :
    (chainRun fooBarState
        [lopsidedPool, swapFor ⟨ascii "foo", 10⟩ (ascii "bar")]).swaps.length = 1
      ∧ Solvent (bookOf (chainRun fooBarState
        [lopsidedPool, swapFor ⟨ascii "foo", 10⟩ (ascii "bar")])) :=
  ⟨by decide +kernel, run_solvent (initial_chainState (by decide)) _ (by decide +kernel)⟩

end MaanyDex.Gamm
