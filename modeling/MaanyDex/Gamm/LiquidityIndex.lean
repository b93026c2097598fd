/-
The index of total liquidity: `keeper/total_liquidity.go`.

`GetTotalLiquidity` reads a sum per denomination from the store.  Creating a pool adds the
record of the pool to it.  Joins, exits and swaps change records and leave the index as it
is, so it agrees with the pools in runs in which none of these succeeds.
-/
import MaanyDex.Gamm.Solvency

namespace MaanyDex.Gamm

open List

variable {env : Env} {s s' : State} {p : Pool}

/-- What all stored pools record of a denomination. -/
def recordedLiquidity (s : State) (d : Denom) : ℤ :=
  (s.pools.entries.entries.map fun e => e.2.view.liquidity d).sum

/-- The index agrees with the pools, and can be read. -/
structure Indexed (env : Env) (s : State) : Prop where
  valid : Valid s
  readable : IndexReadable env s
  sums : ∀ d, getDenomLiquidity s d = recordedLiquidity s d

/-- A message that changes the record of a pool. -/
def Msg.movesLiquidity : Msg → Bool
  | .createPool _ => false
  | .send .. => false
  | _ => true

/-! ### Reading the index -/

/-- Reading entries one after another, for denominations that were not read before. -/
lemma getTotalLiquidity_loop {l : List (Sigma fun _ : Denom => ℤ)} {acc : Coins}
    (hkeys : (acc.map (·.denom) ++ l.map (·.1)).Nodup)
    (hl : ∀ e ∈ l, env.validDenom e.1 = true ∧ 0 ≤ e.2 ∧ e.2.natAbs < 2 ^ 256)
    (hsorted : isSorted acc = true) (hacc : ∀ c ∈ acc, c.amount.natAbs < 2 ^ 256) :
    ∃ coins, l.foldlM (fun coins e => do
        let coin ← newCoin env.toSdk e.1 e.2
        coinsAdd coins [coin]) acc = .ok coins
      ∧ (coins.map (·.denom)).Nodup
      ∧ ∀ d, net coins d = net acc d + net (l.map fun e => ⟨e.1, e.2⟩) d := by
  induction l generalizing acc with
  | nil =>
    refine ⟨acc, rfl, ?_, fun d => by simp⟩
    simpa using hkeys
  | cons e l ih =>
    obtain ⟨hvalid, hnonneg, hbound⟩ := hl e (by simp)
    have hcoin : newCoin env.toSdk e.1 e.2 = .ok ⟨e.1, e.2⟩ := by
      rw [newCoin, if_neg (by simp [hvalid]), if_neg (by omega)]
    have hnodup : ((acc ++ [(⟨e.1, e.2⟩ : Coin)]).map (·.denom)).Nodup := by
      rw [map_append]
      exact hkeys.sublist ((List.Sublist.refl _).append (by simp))
    have hbounds : ∀ c ∈ acc ++ [⟨e.1, e.2⟩], c.amount.natAbs < 2 ^ 256 := by
      intro c hc
      rcases mem_append.mp hc with hc | hc
      · exact hacc c hc
      · rw [mem_singleton.mp hc]
        exact hbound
    obtain ⟨acc', hadd, hmem⟩ := coinsAdd_disjoint hsorted rfl hnodup hbounds
    obtain ⟨hnet, hnodup', -⟩ := coinsAdd_ok hadd
    -- the denominations read so far are those before and the one of `e`
    have hkeys' : (acc'.map (·.denom) ++ l.map (·.1)).Nodup := by
      rw [map_cons, nodup_append] at hkeys
      obtain ⟨-, hl', hdisj⟩ := hkeys
      rw [nodup_cons] at hl'
      refine nodup_append.mpr ⟨hnodup', hl'.2, ?_⟩
      intro d hd d' hd' heq
      subst heq
      obtain ⟨c, hc, rfl⟩ := mem_map.mp hd
      rcases mem_append.mp (hmem c hc) with hc' | hc'
      · exact hdisj c.denom (mem_map_of_mem hc') c.denom (mem_cons_of_mem _ hd') rfl
      · rw [mem_singleton.mp hc'] at hd'
        exact hl'.1 hd'
    obtain ⟨coins, hcoins, hout, hsum⟩ := ih hkeys' (fun e' he' => hl e' (by simp [he']))
      (coinsAdd_isSorted hadd) fun c hc => hbounds c (hmem c hc)
    refine ⟨coins, ?_, hout, fun d => ?_⟩
    · rw [foldlM_cons, hcoin]
      show (coinsAdd acc [⟨e.1, e.2⟩] >>= _) = _
      rw [hadd]
      exact hcoins
    · rw [hsum, hnet, map_cons, net_cons, net_cons, net_nil]
      ring

lemma net_entries_eq_lookup {l : AList fun _ : Denom => ℤ} (d : Denom) :
    net (l.entries.map fun e => ⟨e.1, e.2⟩) d = (l.lookup d).getD 0 := by
  have hnodup : ((l.entries.map fun e => (⟨e.1, e.2⟩ : Coin)).map (·.denom)).Nodup := by
    rw [map_map]
    exact l.nodupKeys
  rcases h : l.lookup d with - | n
  · apply net_eq_zero_of_notMem
    rw [map_map]
    exact AList.lookup_eq_none.mp h
  · have hmem : (⟨d, n⟩ : Sigma fun _ : Denom => ℤ) ∈ l.entries := AList.mem_lookup_iff.mp h
    exact net_eq_of_mem hnodup (mem_map_of_mem hmem)

/-- **The index can be read**: `GetTotalLiquidity` returns the amounts that it stores. -/
lemma getTotalLiquidity_ok (h : IndexReadable env s) :
    ∃ coins, getTotalLiquidity env s = .ok coins
      ∧ ∀ d, amountOfNoDenomValidation coins d = getDenomLiquidity s d := by
  have hperm := perm_insertionSort (fun e e' : Sigma fun _ : Denom => ℤ =>
    compare e.1 e'.1 ≠ .gt) s.denomLiquidity.entries
  have hkeys : (([] : Coins).map (·.denom) ++ (s.denomLiquidity.entries.insertionSort
      fun e e' => compare e.1 e'.1 ≠ .gt).map (·.1)).Nodup := by
    rw [map_nil, nil_append]
    exact (hperm.map _).nodup_iff.mpr s.denomLiquidity.nodupKeys
  obtain ⟨coins, hcoins, hnodup, hnet⟩ := getTotalLiquidity_loop hkeys
    (fun e he => h e.1 e.2 (AList.mem_lookup_iff.mpr (hperm.mem_iff.mp he))) rfl (by simp)
  refine ⟨coins, hcoins, fun d => ?_⟩
  rw [amountOf_eq_net hnodup, hnet, net_nil, zero_add, net_perm (hperm.map _),
    net_entries_eq_lookup]
  rfl

/-! ### Runs -/

lemma Initial.indexed (h : Initial s) : Indexed env s where
  valid := h.valid
  readable d n hn := by
    rw [h.denomLiquidity] at hn
    cases hn
  sums d := by
    rw [getDenomLiquidity, recordedLiquidity, h.denomLiquidity, h.pools]
    rfl

lemma Founded.indexed {msg : CreatePoolMsg} (h : Founded env msg p s s')
    (hu : ∀ j, msg.poolCreator ≠ .pool j) (hs : Indexed env s) : Indexed env s' where
  valid := (h.opens hu hs.valid).1
  readable := h.readable hs.readable
  sums d := by
    have hfresh : p.view.id ∉ s.pools.entries := by
      rw [h.view, ← AList.lookup_eq_none]
      rcases hq : s.pools.entries.lookup s.nextPoolId with - | q
      · rfl
      · exact absurd (hs.valid.lt _ q hq) (lt_irrefl _)
    have hentries : s'.pools.entries.entries = ⟨p.view.id, p⟩ :: s.pools.entries.entries := by
      rw [h.pools]
      exact AList.entries_insert_of_notMem hfresh
    rw [h.denomLiquidity, hs.sums, recordedLiquidity, recordedLiquidity, hentries, map_cons,
      sum_cons, add_comm]

lemma deliverTx_indexed {tx : Tx} (hs : Indexed env s)
    (hmoves : tx.msg.movesLiquidity = true → ∃ fault, deliverTx env s tx = .error fault)
    (h : deliverTx env s tx = .ok s') : Indexed env s' := by
  rcases tx with ⟨ctx, msg⟩
  have hnot : msg.movesLiquidity = false := by
    by_contra hmove
    obtain ⟨fault, hfault⟩ := hmoves (by simpa using hmove)
    rw [hfault] at h
    cases h
  obtain ⟨_, _, hsigner, -, h⟩ := Run.bind2_ok h
  cases msg with
  | createPool msg =>
    obtain ⟨⟨id, s₁⟩, hcreate, rfl⟩ := Run.map_ok h
    obtain ⟨p, hfounded⟩ := createPool_ok hcreate
    refine hfounded.indexed (fun j hj => ?_) hs
    have hkey := ensure_ok hsigner
    rw [show Msg.signer (.createPool msg) = .pool j from hj] at hkey
    cases hkey
  | send sender recipient amount =>
    obtain ⟨bank, -, h⟩ := Run.bind_ok h
    cases h
    exact ⟨hs.valid.withBank rfl, hs.readable, hs.sums⟩
  | _ => cases hnot

/-- **The index of total liquidity** agrees with the pools in every run in which no join,
exit or swap succeeds. -/
theorem totalLiquidity_along_runs (h : Initial s) (txs : List Tx)
    (hmoves : Run.Along (deliverTx env) (fun s tx => tx.msg.movesLiquidity = true →
      ∃ fault, deliverTx env s tx = .error fault) s txs) :
    ∃ coins, getTotalLiquidity env (Run.run (deliverTx env) s txs) = .ok coins
      ∧ ∀ d, amountOfNoDenomValidation coins d
        = recordedLiquidity (Run.run (deliverTx env) s txs) d := by
  have hindexed : Indexed env (Run.run (deliverTx env) s txs) :=
    Run.run_invariant h.indexed (fun s tx s' hs hC hstep => deliverTx_indexed hs hC hstep) hmoves
  obtain ⟨coins, hcoins, hamounts⟩ := getTotalLiquidity_ok hindexed.readable
  exact ⟨coins, hcoins, fun d => (hamounts d).trans (hindexed.sums d)⟩

/-- After a swap of ten `foo` the pool records eleven, and the index still says one. -/
theorem swap_not_indexed :
    Initial fooBarState ∧
      (getTotalLiquidity chainEnv (chainRun fooBarState
        [lopsidedPool, swapFor ⟨ascii "foo", 10⟩ (ascii "bar")])).toOption.map
          (amountOfNoDenomValidation · (ascii "foo")) = some 1 ∧
      recordedLiquidity (chainRun fooBarState
        [lopsidedPool, swapFor ⟨ascii "foo", 10⟩ (ascii "bar")]) (ascii "foo") = 11 :=
  ⟨initial_chainState (by decide), by decide +kernel, by decide +kernel⟩

/-- A new pool is indexed. -/
theorem totalLiquidity_of_pools :
    ∃ coins, getTotalLiquidity chainEnv (chainRun fooBarState [lopsidedPool]) = .ok coins
      ∧ ∀ d, amountOfNoDenomValidation coins d
        = recordedLiquidity (chainRun fooBarState [lopsidedPool]) d :=
  totalLiquidity_along_runs (initial_chainState (by decide)) _
    (Run.along_of_forall fun tx htx s hmove => by
      rw [map_singleton, mem_singleton] at htx
      subst htx
      cases hmove)

end MaanyDex.Gamm
