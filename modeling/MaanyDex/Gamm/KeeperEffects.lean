/-
What a successful operation of the keeper changes.

Every operation moves coins between one user and one pool, and
issues or destroys shares of that pool.  An operation is summarised by what it writes, that
is, one pool (`Traded`, `Joined`, `Exited`).
-/
import MaanyDex.Gamm.PoolManager
import MaanyDex.Lib.Custody

namespace MaanyDex.Gamm

open Run (bind_ok bind2_ok bind3_ok map_ok)

variable {env : Env} {ctx : Ctx}

namespace Pool

variable {p p' : Pool} {n : ℤ} {tokenIn tokenOut c : Coin} {coins : Coins} {denom : Denom}
  {spreadFactor : Dec}

variable {blockTime : ℤ}

lemma poke_ok (hp : p.Wf) (h : p.poke env blockTime = .ok p') : p'.view = p.view ∧ p'.Wf := by
  cases p with
  | balancer p =>
    obtain ⟨q, hq, rfl⟩ := map_ok h
    obtain ⟨hsame, hwf⟩ := Balancer.pokePool_ok hp hq
    refine ⟨?_, hwf⟩
    show q.view = p.view
    rw [Balancer.Pool.view, Balancer.Pool.view, q.address_eq, p.address_eq, hsame.id,
      hsame.totalShares, hsame.tokens]
  | stableswap p =>
    cases h
    exact ⟨rfl, hp⟩

lemma poke_id (h : p.poke env blockTime = .ok p') : p'.view.id = p.view.id := by
  cases p with
  | balancer p =>
    obtain ⟨q, hq, rfl⟩ := map_ok h
    exact Balancer.pokePool_id hq
  | stableswap p =>
    cases h
    rfl

lemma swapOutAmtGivenIn_ok (hp : p.Wf) (hne : tokenIn.denom ≠ denom) (hin : 0 ≤ tokenIn.amount)
    (hpower : ¬p.Underflows env tokenIn denom spreadFactor)
    (h : p.swapOutAmtGivenIn env [tokenIn] denom spreadFactor = .ok (c, p')) :
    Moved (fun d => net [tokenIn] d - net [c] d) 0 p.view p'.view ∧ p'.Wf := by
  cases p with
  | balancer p =>
    obtain ⟨⟨c', q⟩, hq, heq⟩ := map_ok h
    cases heq
    refine Balancer.swapOutAmtGivenIn_ok hp hne hin (fun power hpow => ?_) hq
    exact not_le.mp fun hle => hpower ⟨power, hpow, hle⟩
  | stableswap p =>
    obtain ⟨⟨c', q⟩, hq, heq⟩ := map_ok h
    cases heq
    obtain ⟨hmoved, hwf, -⟩ := Stableswap.swapOutAmtGivenIn_ok hq
    exact ⟨hmoved, hwf⟩

/-- A swap pays what the estimate says, and does not change who the pool is. -/
lemma swapOutAmtGivenIn_calc
    (h : p.swapOutAmtGivenIn env coins denom spreadFactor = .ok (c, p')) :
    p.calcOutAmtGivenIn env coins denom spreadFactor = .ok c ∧ p'.view.id = p.view.id := by
  cases p with
  | balancer p =>
    obtain ⟨⟨c', q⟩, hq, heq⟩ := map_ok h
    cases heq
    exact Balancer.swapOutAmtGivenIn_calc hq
  | stableswap p =>
    obtain ⟨⟨c', q⟩, hq, heq⟩ := map_ok h
    cases heq
    obtain ⟨hmoved, -, hcalc⟩ := Stableswap.swapOutAmtGivenIn_ok hq
    exact ⟨hcalc, hmoved.id⟩

lemma swapInAmtGivenOut_ok (hp : p.Wf) (hne : denom ≠ tokenOut.denom)
    (hout : tokenOut.amount < p.view.liquidity tokenOut.denom)
    (h : p.swapInAmtGivenOut env [tokenOut] denom spreadFactor = .ok (c, p')) :
    Moved (fun d => net [c] d - net [tokenOut] d) 0 p.view p'.view ∧ p'.Wf := by
  cases p with
  | balancer p =>
    obtain ⟨⟨c', q⟩, hq, heq⟩ := map_ok h
    cases heq
    exact Balancer.swapInAmtGivenOut_ok hp hne hout hq
  | stableswap p =>
    obtain ⟨⟨c', q⟩, hq, heq⟩ := map_ok h
    cases heq
    obtain ⟨hmoved, hwf, -⟩ := Stableswap.swapInAmtGivenOut_ok hq
    exact ⟨hmoved, hwf⟩

/-- A swap asks for what the estimate says, and does not change who the pool is. -/
lemma swapInAmtGivenOut_calc
    (h : p.swapInAmtGivenOut env coins denom spreadFactor = .ok (c, p')) :
    p.calcInAmtGivenOut env coins denom spreadFactor = .ok c ∧ p'.view.id = p.view.id := by
  cases p with
  | balancer p =>
    obtain ⟨⟨c', q⟩, hq, heq⟩ := map_ok h
    cases heq
    exact Balancer.swapInAmtGivenOut_calc hq
  | stableswap p =>
    obtain ⟨⟨c', q⟩, hq, heq⟩ := map_ok h
    cases heq
    obtain ⟨hmoved, -, hcalc⟩ := Stableswap.swapInAmtGivenOut_ok hq
    exact ⟨hcalc, hmoved.id⟩

lemma calcInAmtGivenOut_ok (h : p.calcInAmtGivenOut env coins denom spreadFactor = .ok c) :
    c.denom = denom ∧ 0 < c.amount := by
  cases p with
  | balancer p => exact Balancer.calcInAmtGivenOut_ok h
  | stableswap p => exact Stableswap.calcInAmtGivenOut_ok h

lemma joinPool_ok (hp : p.Wf) (hin : ∀ c ∈ coins, 0 ≤ c.amount)
    (h : p.joinPool env coins spreadFactor = .ok (n, p')) :
    ∃ joined, (∀ d, joined d ≤ net coins d) ∧ Moved joined n p.view p'.view ∧ p'.Wf := by
  cases p with
  | balancer p =>
    obtain ⟨⟨n', q⟩, hq, heq⟩ := map_ok h
    cases heq
    exact Balancer.joinPool_ok hp hin hq
  | stableswap p =>
    obtain ⟨⟨n', q⟩, hq, heq⟩ := map_ok h
    cases heq
    exact Stableswap.joinPool_ok hp hin hq

lemma joinPoolNoSwap_ok (hp : p.Wf) (h : p.joinPoolNoSwap env coins = .ok (n, p')) :
    ∃ joined, (∀ d, joined d ≤ net coins d) ∧ Moved joined n p.view p'.view ∧ p'.Wf := by
  cases p with
  | balancer p =>
    obtain ⟨⟨n', q⟩, hq, heq⟩ := map_ok h
    cases heq
    exact Balancer.joinPoolNoSwap_ok hp hq
  | stableswap p =>
    obtain ⟨⟨n', q⟩, hq, heq⟩ := map_ok h
    cases heq
    exact Stableswap.joinPoolNoSwap_ok hp hq

lemma exitPool_ok {exitFee : Dec} (hp : p.Wf) (h : p.exitPool env n exitFee = .ok (coins, p')) :
    Moved (fun d => -net coins d) (-n) p.view p'.view ∧ p'.Wf := by
  cases p with
  | balancer p =>
    obtain ⟨⟨coins', q⟩, hq, heq⟩ := map_ok h
    cases heq
    exact Balancer.exitPool_ok hp hq
  | stableswap p =>
    obtain ⟨⟨coins', q⟩, hq, heq⟩ := map_ok h
    cases heq
    exact Stableswap.exitPool_ok hq

lemma getTotalPoolLiquidity_ok (hp : p.Wf) (h : p.getTotalPoolLiquidity = .ok coins) :
    (∀ d, net coins d = p.view.liquidity d) ∧ (coins.map (·.denom)).Nodup
      ∧ ∀ c ∈ coins, 0 < c.amount := by
  cases p with
  | balancer p => exact Balancer.poolAssetsCoins_ok hp.amounts h
  | stableswap p =>
    cases h
    exact ⟨fun _ => rfl, hp.nodup, hp.amounts⟩

end Pool

/-! ### What an operation writes -/

variable {s s' : State} {p p' : Pool} {user sender : Address} {n : ℤ}
  {tokenIn tokenOut c : Coin} {coins : Coins} {denom : Denom} {spreadFactor : Dec}

/-- `sender` pays `tokenIn` to the pool and receives `tokenOut`, and the pool is written. -/
structure Traded (env : Env) (sender : Address) (p' : Pool) (tokenIn tokenOut : Coin)
    (s s' : State) : Prop where
  validIn : isValid env.toSdk [tokenIn] = true
  validOut : isValid env.toSdk [tokenOut] = true
  flows : Flows (fun a d => transferred sender p'.view.address [tokenIn] a d
    + transferred p'.view.address sender [tokenOut] a d) (fun _ => 0) s.bank s'.bank
  state : s' = { setPool s p' with bank := s'.bank }

lemma updatePoolForSwap_ok (h : updatePoolForSwap env s p' sender tokenIn tokenOut = .ok s') :
    Traded env sender p' tokenIn tokenOut s s' := by
  obtain ⟨b₁, b₂, hin, hout, h⟩ := bind2_ok h
  cases h
  exact {
    validIn := Bank.sendCoins_isValid hin
    validOut := Bank.sendCoins_isValid hout
    flows := ((sendCoins_flows hin).trans (sendCoins_flows hout)).congr (fun _ _ => rfl)
      fun _ => add_zero 0
    state := rfl }

def shares (p : Pool) (n : ℤ) : Coin := ⟨getPoolShareDenom p.view.id, n⟩

lemma mintPoolShareToAccount_ok (h : mintPoolShareToAccount env s p user n = .ok s') :
    s' = { s with bank := s'.bank } ∧
      Flows (fun a d => if a = user then net [shares p n] d else 0) (net [shares p n])
        s.bank s'.bank := by
  obtain ⟨coin, amt, hcoin, hamt, h⟩ := bind2_ok h
  obtain ⟨b₁, b₂, hmint, hsend, h⟩ := bind2_ok h
  cases h
  obtain ⟨rfl, -, -⟩ := newCoin_ok hcoin
  obtain ⟨hnet, hpos, -⟩ := newCoins_ok hamt
  have hminted := (Bank.mintCoins_ok hmint).sent (Bank.sendCoinsFromModuleToAccount_ok hsend).2
  refine ⟨rfl, (minted_flows (fun c hc => (hpos c hc).le) hminted).congr (fun a d => ?_) hnet⟩
  rw [hnet]
  rfl

lemma burnPoolShareFromAccount_ok (h : burnPoolShareFromAccount env s p user n = .ok s') :
    s' = { s with bank := s'.bank } ∧
      Flows (fun a d => -if a = user then net [shares p n] d else 0)
        (fun d => -net [shares p n] d) s.bank s'.bank := by
  obtain ⟨coin, b₁, b₂, hcoin, hsend, hburn, h⟩ := bind3_ok h
  cases h
  obtain ⟨rfl, -, hn⟩ := newCoin_ok hcoin
  refine ⟨rfl, burned_flows ?_ ((Bank.sendCoins_ok hsend).burned_after (Bank.burnCoins_ok hburn))⟩
  intro c hc
  rw [List.mem_singleton.mp hc]
  exact hn

/-- `user` pays `coins` to the pool and receives `n` shares, and the pool is written. -/
structure Joined (env : Env) (user : Address) (p' : Pool) (n : ℤ) (coins : Coins)
    (s s' : State) : Prop where
  valid : isValid env.toSdk coins = true
  flows : Flows (fun a d => transferred user p'.view.address coins a d
    + if a = user then net [shares p' n] d else 0) (net [shares p' n]) s.bank s'.bank
  state : s' = { setPool s p' with bank := s'.bank }

lemma applyJoinPoolStateChange_ok (h : applyJoinPoolStateChange env s p' user n coins = .ok s') :
    Joined env user p' n coins s s' := by
  obtain ⟨b₁, s₁, hsend, hmint, h⟩ := bind2_ok h
  cases h
  obtain ⟨hs₁, hflows⟩ := mintPoolShareToAccount_ok hmint
  refine ⟨Bank.sendCoins_isValid hsend, ?_, by rw [hs₁]; rfl⟩
  exact ((sendCoins_flows hsend).trans hflows).congr (fun _ _ => rfl) fun d => zero_add _

/-- `user` returns `n` shares and receives `coins` from the pool, and the pool is written. -/
structure Exited (env : Env) (user : Address) (p' : Pool) (n : ℤ) (coins : Coins)
    (s s' : State) : Prop where
  valid : isValid env.toSdk coins = true
  flows : Flows (fun a d => transferred p'.view.address user coins a d
    - if a = user then net [shares p' n] d else 0) (fun d => -net [shares p' n] d)
      s.bank s'.bank
  state : s' = { setPool s p' with bank := s'.bank }

lemma applyExitPoolStateChange_ok (h : applyExitPoolStateChange env s p' user n coins = .ok s') :
    Exited env user p' n coins s s' := by
  obtain ⟨b₁, s₁, hsend, hburn, h⟩ := bind2_ok h
  cases h
  obtain ⟨hs₁, hflows⟩ := burnPoolShareFromAccount_ok hburn
  refine ⟨Bank.sendCoins_isValid hsend, ?_, by rw [hs₁]; rfl⟩
  exact ((sendCoins_flows hsend).trans hflows).congr (fun a d => (sub_eq_add_neg _ _).symm)
    fun d => zero_add _

lemma getPoolModuleAndPool_ok {poolId : ℕ}
    (h : getPoolModuleAndPool env ctx s poolId = .ok p) :
    getPoolAndPoke env ctx s poolId = .ok p := by
  unfold getPoolModuleAndPool at h
  obtain ⟨_, -, h⟩ := bind_ok h
  split at h
  · cases h
  · exact h
  · exact h
  · cases h
  · cases h

/-! ### Swaps -/

lemma swapExactAmountIn_ok {tokenOutMinAmount : ℤ}
    (h : swapExactAmountIn env s sender p tokenIn denom tokenOutMinAmount spreadFactor
      = .ok (n, p', s')) :
    ∃ c, c.amount = n ∧ 0 < n ∧ tokenIn.denom ≠ denom
      ∧ p.swapOutAmtGivenIn env [tokenIn] denom spreadFactor = .ok (c, p')
      ∧ Traded env sender p' tokenIn c
          { s with swaps := s.swaps ++ [⟨p, tokenIn, denom, spreadFactor⟩] } s' := by
  obtain ⟨_, _, _, hne, -, -, h⟩ := bind3_ok h
  obtain ⟨⟨c, q⟩, hswap, h⟩ := bind_ok h
  obtain ⟨_, _, s₁, hpos, -, hupd, h⟩ := bind3_ok h
  cases h
  exact ⟨c, rfl, of_decide_eq_true (ensure_ok hpos), of_decide_eq_true (ensure_ok hne), hswap,
    updatePoolForSwap_ok hupd⟩

lemma swapExactAmountOut_ok {tokenInMaxAmount : ℤ}
    (h : swapExactAmountOut env ctx s sender p denom tokenInMaxAmount tokenOut spreadFactor
      = .ok (n, p', s')) :
    ∃ c, c.amount = n ∧ 0 < n ∧ n ≤ tokenInMaxAmount ∧ denom ≠ tokenOut.denom
      ∧ (∃ stored liquidity, getPoolAndPoke env ctx s p.view.id = .ok stored
          ∧ stored.getTotalPoolLiquidity = .ok liquidity
          ∧ tokenOut.amount < amountOfNoDenomValidation liquidity tokenOut.denom)
      ∧ p.swapInAmtGivenOut env [tokenOut] denom spreadFactor = .ok (c, p')
      ∧ Traded env sender p' c tokenOut s s' := by
  obtain ⟨_, stored, liquidity, hne, hstored, hliquidity, h⟩ := bind3_ok h
  obtain ⟨poolOutBal, _, ⟨c, q⟩, hbal, hlt, hswap, h⟩ := bind3_ok h
  obtain ⟨_, _, s₁, hpos, hmax, hupd, h⟩ := bind3_ok h
  cases h
  have hlt' : tokenOut.amount < poolOutBal := of_decide_eq_true (ensure_ok hlt)
  rw [amountOf_ok hbal] at hlt'
  exact ⟨c, rfl, of_decide_eq_true (ensure_ok hpos), of_decide_eq_true (ensure_ok hmax),
    of_decide_eq_true (ensure_ok hne), ⟨stored, liquidity, hstored, hliquidity, hlt'⟩, hswap,
    updatePoolForSwap_ok hupd⟩

/-! ### Taker fees -/

lemma chargeTakerFee_ok {tokenOutDenom : Denom} {exactIn : Bool} {after fee : Coin}
    (h : chargeTakerFee env ctx s tokenIn tokenOutDenom sender exactIn = .ok (after, fee, s')) :
    s' = { s with bank := s'.bank } ∧
      Flows (transferred sender (.moduleAccount takerFeeModuleName) [fee]) (fun _ => 0)
        s.bank s'.bank := by
  unfold chargeTakerFee at h
  split at h
  · cases h
    refine ⟨rfl, fun a d => ?_, fun d => (add_zero _).symm⟩
    simp [transferred]
  · obtain ⟨⟨after', fee'⟩, -, h⟩ := bind_ok h
    obtain ⟨coins, bank, hcoins, hbank, h⟩ := bind2_ok h
    cases h
    refine ⟨rfl, (sendCoins_flows hbank).congr (fun a d => ?_) fun _ => rfl⟩
    simp only [transferred, (newCoins_ok hcoins).1]

/-! ### Creating pools -/

variable {msg : CreatePoolMsg}

lemma CreatePoolMsg.createPool_ok {poolId : ℕ}
    (hvalid : isValid env.toSdk msg.initialLiquidity = true)
    (h : msg.createPool env ctx poolId = .ok p) :
    p.view = ⟨poolId, .pool poolId, ⟨getPoolShareDenom poolId, initPoolSharesSupply⟩,
      net msg.initialLiquidity⟩ ∧ p.Wf := by
  cases msg with
  | balancer user params assets governor =>
    obtain ⟨q, hq, rfl⟩ := map_ok h
    have hnew := Balancer.newBalancerPool_ok hq
    refine ⟨?_, hnew.wf⟩
    show q.view = _
    rw [Balancer.Pool.view, q.address_eq, hnew.id, hnew.totalShares]
    congr 1
    funext d
    exact (net_perm hnew.tokens d).trans (net_perm (List.perm_insertionSort _ _) d).symm
  | stableswap user params liquidity factors governor controller =>
    obtain ⟨q, hq, rfl⟩ := map_ok h
    obtain ⟨hview, hliquidity⟩ := Stableswap.newStableswapPool_ok hq
    refine ⟨hview, ⟨?_, ?_⟩⟩
    · rw [hliquidity]
      exact isValid_nodup hvalid
    · rw [hliquidity]
      exact isValid_pos hvalid

lemma recordTotalLiquidityIncrease_ok (h : recordTotalLiquidityIncrease s coins = .ok s') :
    s' = { s with denomLiquidity := s'.denomLiquidity }
      ∧ ∀ d, getDenomLiquidity s' d = getDenomLiquidity s d + net coins d := by
  unfold recordTotalLiquidityIncrease at h
  induction coins generalizing s with
  | nil =>
    cases h
    exact ⟨rfl, fun d => (add_zero _).symm⟩
  | cons coin coins ih =>
    rw [List.foldlM_cons] at h
    obtain ⟨s₁, hround, h⟩ := bind_ok h
    obtain ⟨amount, hamount, hround⟩ := bind_ok hround
    cases hround
    obtain ⟨hs', hrest⟩ := ih h
    refine ⟨hs', fun d => ?_⟩
    rw [hrest, net_cons, ← add_assoc]
    congr 1
    by_cases hd : coin.denom = d
    · subst hd
      rw [getDenomLiquidity, AList.lookup_insert, if_pos rfl, Option.getD_some,
        checkedInt_ok hamount]
    · rw [getDenomLiquidity, AList.lookup_insert_ne (Ne.symm hd), if_neg hd, add_zero]
      rfl

/-- The entries of the liquidity index can be read as coins. -/
def IndexReadable (env : Env) (s : State) : Prop :=
  ∀ d n, s.denomLiquidity.lookup d = some n → env.validDenom d = true ∧ 0 ≤ n ∧ n.natAbs < 2 ^ 256

lemma recordTotalLiquidityIncrease_readable
    (hcoins : ∀ c ∈ coins, env.validDenom c.denom = true ∧ 0 ≤ c.amount) (hs : IndexReadable env s)
    (h : recordTotalLiquidityIncrease s coins = .ok s') : IndexReadable env s' := by
  unfold recordTotalLiquidityIncrease at h
  induction coins generalizing s with
  | nil =>
    cases h
    exact hs
  | cons coin coins ih =>
    rw [List.foldlM_cons] at h
    obtain ⟨s₁, hround, h⟩ := bind_ok h
    obtain ⟨amount, hamount, hround⟩ := bind_ok hround
    cases hround
    refine ih (fun c hc => hcoins c (by simp [hc])) (fun d n hn => ?_) h
    obtain ⟨hvalid, hnonneg⟩ := hcoins coin (by simp)
    by_cases hd : d = coin.denom
    · subst hd
      rw [AList.lookup_insert] at hn
      cases hn
      have hold : 0 ≤ getDenomLiquidity s coin.denom := by
        rw [getDenomLiquidity]
        rcases hl : s.denomLiquidity.lookup coin.denom with - | m
        · exact le_rfl
        · exact (hs _ m hl).2.1
      exact ⟨hvalid, by rw [checkedInt_ok hamount]; omega, checkedInt_lt hamount⟩
    · rw [AList.lookup_insert_ne hd] at hn
      exact hs d n hn

/-- What creating a pool changes. -/
structure Founded (env : Env) (msg : CreatePoolMsg) (p : Pool) (s s' : State) : Prop where
  view : p.view = ⟨s.nextPoolId, .pool s.nextPoolId,
    ⟨getPoolShareDenom s.nextPoolId, initPoolSharesSupply⟩, net msg.initialLiquidity⟩
  wf : p.Wf
  flows : Flows (fun a d => (if a = msg.poolCreator then net [shares p initPoolSharesSupply] d
      else 0) + transferred msg.poolCreator (.pool s.nextPoolId) msg.initialLiquidity a d)
    (net [shares p initPoolSharesSupply]) s.bank s'.bank
  pools : s'.pools = s.pools.set p
  nextPoolId : s'.nextPoolId = s.nextPoolId + 1
  swaps : s'.swaps = s.swaps
  denomLiquidity : ∀ d, getDenomLiquidity s' d = getDenomLiquidity s d + p.view.liquidity d
  readable : IndexReadable env s → IndexReadable env s'

lemma createPool_ok {id : ℕ}
    (h : createPool env ctx s msg = .ok (id, s')) : ∃ p, Founded env msg p s s' := by
  obtain ⟨⟨p, s₁⟩, hzero, h⟩ := bind_ok h
  obtain ⟨bank, hsend, h⟩ := bind_ok h
  cases h
  obtain ⟨_, _, q, -, -, hq, hzero⟩ := bind3_ok hzero
  obtain ⟨_, s₂, _, -, hinit, -, hzero⟩ := bind3_ok hzero
  cases hzero
  obtain ⟨hview, hwf⟩ := CreatePoolMsg.createPool_ok (Bank.sendCoins_isValid hsend) hq
  obtain ⟨_, s₃, liquidity, -, hmint, hliquidity, hrec⟩ := bind3_ok hinit
  obtain ⟨hs₃, hflows⟩ := mintPoolShareToAccount_ok hmint
  obtain ⟨hs₁, hindex⟩ := recordTotalLiquidityIncrease_ok hrec
  obtain ⟨hnet, hnodup, hpos⟩ := Pool.getTotalPoolLiquidity_ok hwf hliquidity
  have hcoins : ∀ c ∈ liquidity, env.validDenom c.denom = true ∧ 0 ≤ c.amount := by
    intro c hc
    refine ⟨?_, (hpos c hc).le⟩
    -- what the pool records was sent, so its denomination is valid
    have hmem : c.denom ∈ msg.initialLiquidity.map (·.denom) := by
      by_contra hnot
      have hzero : net liquidity c.denom = net msg.initialLiquidity c.denom := by
        rw [hnet, hview]
      rw [net_eq_of_mem hnodup hc, net_eq_zero_of_notMem hnot] at hzero
      exact absurd hzero (hpos c hc).ne'
    obtain ⟨c', hc', hdenom⟩ := List.mem_map.mp hmem
    rw [← hdenom]
    exact isValid_denom (Bank.sendCoins_isValid hsend) c' hc'
  have hbank : s₁.bank = s₃.bank := by
    rw [hs₁]
    rfl
  refine ⟨p, hview, hwf, ?_, ?_, ?_, ?_, fun d => ?_, fun hs => ?_⟩
  · rw [hview] at hflows hsend
    rw [hbank] at hsend
    exact (hflows.trans (sendCoins_flows hsend)).congr (fun _ _ => rfl) fun _ => add_zero _
  · show s₁.pools = _
    rw [hs₁, hs₃]
    rfl
  · show s₁.nextPoolId = _
    rw [hs₁, hs₃]
    rfl
  · show s₁.swaps = _
    rw [hs₁, hs₃]
    rfl
  · show getDenomLiquidity s₁ d = _
    rw [hindex, hnet, hs₃]
    rfl
  · have hreadable : IndexReadable env (setPool s₃ p) := by
      rw [hs₃]
      exact hs
    have hreadable' := recordTotalLiquidityIncrease_readable hcoins hreadable hrec
    exact hreadable'

end MaanyDex.Gamm
