/-
When the end of a block burns and distributes the fees.

The recorded total keeps the denomination of the coins that were burned first.  If the native
denomination is changed after that, the next coins cannot be added to it, and `Coin.Add` panics
(`chain_halts`).  And a treasury that is the redistribution account itself gets everything
back.  `Safe` says exactly when neither happens.
-/
import MaanyDex.FeeBurner.Keeper

namespace MaanyDex.FeeBurner

open List Run Std.ExtTreeMap

variable {sdk : Sdk} {w w' : World} {m m' : Std.ExtTreeMap Denom ℕ} {c : Coin} {cs : Coins}

/-! ### The account -/

variable {d d' : Denom}

lemma getElem?_erase : (m.erase d)[d']? = if d = d' then none else m[d']? := by
  simp [Std.ExtTreeMap.getElem?_erase]

lemma getElem?_setBalance {n : ℕ} :
    (setBalance m d n)[d']? = if d = d' then (if n = 0 then none else some n) else m[d']? := by
  unfold setBalance
  split
  · rw [getElem?_erase]
  · simp [Std.ExtTreeMap.getElem?_insert]

/-- Every entry is positive and has a valid denomination. -/
def Entries (sdk : Sdk) (m : Std.ExtTreeMap Denom ℕ) : Prop :=
  ∀ (d : Denom) (n : ℕ), m[d]? = some n → 0 < n ∧ sdk.validDenom d = true

/-- The coins are whole entries of the account. -/
structure Whole (m : Std.ExtTreeMap Denom ℕ) (cs : Coins) : Prop where
  nodup : (cs.map (·.denom)).Nodup
  entry : ∀ c ∈ cs, m[c.denom]? = some c.amount.toNat

lemma subCoin_whole (h : m[c.denom]? = some c.amount.toNat) :
    subCoin m c = .ok (m.erase c.denom) := by
  have hget : m.getD c.denom 0 = c.amount.toNat := by
    rw [getD_eq_getD_getElem?, h]
    rfl
  simp [subCoin, hget, ensure, setBalance, bind, Except.bind]

lemma foldlM_subCoin (h : Whole m cs) :
    ∃ m', cs.foldlM subCoin m = .ok m'
      ∧ ∀ d : Denom, m'[d]? = if d ∈ cs.map (·.denom) then none else m[d]? := by
  induction cs generalizing m with
  | nil => exact ⟨m, rfl, fun d => rfl⟩
  | cons c cs ih =>
    obtain ⟨hnodup, hentry⟩ := h
    rw [map_cons, nodup_cons] at hnodup
    have hrest : Whole (m.erase c.denom) cs := by
      refine ⟨hnodup.2, fun c' hc' => ?_⟩
      have hne : c.denom ≠ c'.denom := fun heq => hnodup.1 (heq ▸ mem_map_of_mem hc')
      rw [getElem?_erase, if_neg hne]
      exact hentry c' (mem_cons_of_mem _ hc')
    obtain ⟨m', hm', hget⟩ := ih hrest
    refine ⟨m', ?_, fun d => ?_⟩
    · rw [foldlM_cons, subCoin_whole (hentry c mem_cons_self)]
      exact hm'
    · rw [hget, getElem?_erase, map_cons]
      by_cases hd : c.denom = d
      · simp [hd]
      · simp [hd, Ne.symm hd]

lemma Entries.foldl_addCoin (h : Entries sdk m)
    (hvalid : ∀ c ∈ cs, sdk.validDenom c.denom = true) : Entries sdk (cs.foldl addCoin m) := by
  induction cs generalizing m with
  | nil => exact h
  | cons c cs ih =>
    refine ih (fun d n hn => ?_) fun c' hc' => hvalid c' (mem_cons_of_mem _ hc')
    rw [addCoin, getElem?_setBalance] at hn
    split at hn
    · rename_i hd
      split at hn
      · cases hn
      · cases hn
        exact ⟨by omega, hd ▸ hvalid c mem_cons_self⟩
    · exact h d n hn

lemma foldl_addCoin_ne_empty (hne : cs ≠ []) (hpos : ∀ c ∈ cs, 0 < c.amount) :
    cs.foldl addCoin m ≠ ∅ := by
  -- the last coin is an entry
  obtain ⟨cs', c, rfl⟩ := (eq_nil_or_concat' cs).resolve_left hne
  have hc : 0 < c.amount := hpos c (by simp)
  intro hempty
  have hget : (addCoin (cs'.foldl addCoin m) c)[c.denom]? = none := by
    rw [foldl_append] at hempty
    rw [show addCoin (cs'.foldl addCoin m) c = ∅ from hempty]
    exact Std.ExtTreeMap.getElem?_empty
  rw [addCoin, getElem?_setBalance, if_pos rfl, if_neg (by omega)] at hget
  cases hget

/-! ### Sound states -/

/-- The entries of the account are in order, and the recorded total is the sum of what was
burned. -/
structure Sound (sdk : Sdk) (w : World) : Prop where
  native : w.params.neutronDenom ≠ []
  entries : Entries sdk w.balances
  amount : w.total.amount = (w.burned.map (·.amount)).sum
  denom : ∀ c ∈ w.burned, c.denom = w.total.denom
  unset : w.total.denom = [] → w.burned = []
  nonneg : 0 ≤ w.total.amount

lemma mem_getAllBalances (h : Sound sdk w) (hc : c ∈ getAllBalances w) :
    w.balances[c.denom]? = some c.amount.toNat ∧ 0 < c.amount ∧ sdk.validDenom c.denom = true := by
  obtain ⟨e, he, rfl⟩ := mem_map.mp hc
  have hget := mem_toList_iff_getElem?_eq_some.mp he
  obtain ⟨hpos, hvalid⟩ := h.entries _ _ hget
  exact ⟨hget, Int.natCast_pos.mpr hpos, hvalid⟩

lemma map_denom_getAllBalances (w : World) :
    (getAllBalances w).map (·.denom) = w.balances.keys := by
  rw [getAllBalances, List.map_map, ← Std.ExtTreeMap.map_fst_toList_eq_keys]
  rfl

lemma Sound.whole (h : Sound sdk w) : Whole w.balances (getAllBalances w) where
  nodup := by
    rw [map_denom_getAllBalances]
    exact nodup_keys
  entry c hc := (mem_getAllBalances h hc).1

/-- What is left when the native coins are burned. -/
def nativeBurned (w : World) (c : Coin) : World where
  params := w.params
  total := ⟨c.denom, w.total.amount + c.amount⟩
  balances := w.balances.erase c.denom
  burned := c :: w.burned

/-- The native coins can be added to the recorded total. -/
def Recordable (w : World) (c : Coin) : Prop :=
  (w.total.denom = [] ∨ w.total.denom = c.denom) ∧ w.total.amount + c.amount < 2 ^ 256

lemma recordBurnedFees_of (h : Sound sdk w) {m : Std.ExtTreeMap Denom ℕ}
    (hc : c.denom = w.params.neutronDenom) (hpos : 0 < c.amount)
    (hvalid : sdk.validDenom c.denom = true) (hrecordable : Recordable w c) :
    recordBurnedFees sdk { w with balances := m } c
      = .ok { w with
        total := ⟨c.denom, w.total.amount + c.amount⟩
        balances := m
        burned := c :: w.burned } := by
  have htotal : getTotalBurnedNeutronsAmount sdk { w with balances := m }
      = .ok ⟨c.denom, w.total.amount⟩ := by
    unfold getTotalBurnedNeutronsAmount
    split
    · rename_i hunset
      have hzero : w.total.amount = 0 := by
        rw [h.amount, h.unset hunset]
        rfl
      rw [hzero, newCoin, ← hc, hvalid]
      rfl
    · rename_i hset
      rw [← hrecordable.1.resolve_left hset]
  have hnonneg := h.nonneg
  have hlt := hrecordable.2
  have hsum : checkedInt (w.total.amount + c.amount) = .ok (w.total.amount + c.amount) := by
    rw [checkedInt, if_pos (by omega)]
  rw [recordBurnedFees, htotal]
  simp only [bind, Except.bind, coinAdd, ensure, decide_true, if_true, hsum]

lemma recordBurnedFees_ok (h : Sound sdk w)
    (hrecord : recordBurnedFees sdk w c = .ok w') : Recordable w c := by
  obtain ⟨total, sum, htotal, hsum, -⟩ := bind2_ok hrecord
  obtain ⟨_, n, hdenom, hn, -⟩ := bind2_ok hsum
  have hdenom : total.denom = c.denom := of_decide_eq_true (ensure_ok hdenom)
  have hlt := checkedInt_lt hn
  rw [checkedInt_ok hn] at hlt
  unfold getTotalBurnedNeutronsAmount at htotal
  split at htotal
  · rename_i hunset
    obtain ⟨rfl, -, -⟩ := newCoin_ok htotal
    have hzero : w.total.amount = 0 := by
      rw [h.amount, h.unset hunset]
      rfl
    exact ⟨Or.inl hunset, by rw [hzero]; simp only at hlt; omega⟩
  · cases htotal
    exact ⟨Or.inr hdenom, by omega⟩

/-- **The native coins are burned** exactly if they can be added to the recorded total. -/
lemma burnNative_eq (h : Sound sdk w) (hmem : c ∈ getAllBalances w)
    (hc : c.denom = w.params.neutronDenom) :
    (Recordable w c → burnNative sdk w c = .ok (nativeBurned w c))
      ∧ ∀ w', burnNative sdk w c = .ok w' → Recordable w c := by
  obtain ⟨hentry, hpos, hvalid⟩ := mem_getAllBalances h hmem
  have hburn : burnCoins w [c] = .ok { w with balances := w.balances.erase c.denom } := by
    simp only [burnCoins, foldlM_cons, foldlM_nil, subCoin_whole hentry, bind,
      Except.bind, pure, Except.pure]
  have hnative : burnNative sdk w c
      = recordBurnedFees sdk { w with balances := w.balances.erase c.denom } c := by
    rw [burnNative, hburn]
    rfl
  constructor
  · intro hrecordable
    rw [hnative, recordBurnedFees_of h hc hpos hvalid hrecordable]
    rfl
  · intro w' hw'
    rw [hnative] at hw'
    have hsound : Sound sdk { w with balances := w.balances.erase c.denom } := by
      refine ⟨h.native, fun d n hn => ?_, h.amount, h.denom, h.unset, h.nonneg⟩
      simp only [getElem?_erase] at hn
      split at hn
      · cases hn
      · exact h.entries d n hn
    obtain ⟨hdenom, hlt⟩ := recordBurnedFees_ok hsound hw'
    exact ⟨hdenom, hlt⟩

lemma Sound.nativeBurned (h : Sound sdk w) (hmem : c ∈ getAllBalances w)
    (hc : c.denom = w.params.neutronDenom) (hrecordable : Recordable w c) :
    Sound sdk (nativeBurned w c) where
  native := h.native
  entries d n hn := by
    simp only [FeeBurner.nativeBurned, getElem?_erase] at hn
    split at hn
    · cases hn
    · exact h.entries d n hn
  amount := by
    show w.total.amount + c.amount = ((c :: w.burned).map (·.amount)).sum
    rw [map_cons, sum_cons, h.amount, add_comm]
  denom c' hc' := by
    show c'.denom = c.denom
    rcases mem_cons.mp hc' with rfl | hc'
    · rfl
    · rcases hrecordable.1 with hunset | hsame
      · rw [h.unset hunset] at hc'
        cases hc'
      · rw [h.denom c' hc', hsame]
  unset hunset := absurd (hc.symm.trans hunset) h.native
  nonneg := by
    have hpos := (mem_getAllBalances h hmem).2.1
    have hnonneg := h.nonneg
    show 0 ≤ w.total.amount + c.amount
    omega

/-! ### The loop -/

variable {params : Params} {funds : Coins}

lemma foldlM_processBalance_of_notMem (hpos : ∀ c ∈ cs, 0 < c.amount)
    (hother : ∀ c ∈ cs, c.denom ≠ params.neutronDenom) :
    cs.foldlM (processBalance sdk params) (w, funds) = .ok (w, funds ++ cs) := by
  induction cs generalizing funds with
  | nil =>
    rw [append_nil]
    rfl
  | cons c cs ih =>
    have hc : c.amount ≠ 0 := (hpos c mem_cons_self).ne'
    have hround : processBalance sdk params (w, funds) c = .ok (w, funds ++ [c]) := by
      rw [processBalance, if_neg hc, if_neg (hother c mem_cons_self)]
    have hrest : cs.foldlM (processBalance sdk params) (w, funds ++ [c])
        = .ok (w, funds ++ [c] ++ cs) :=
      ih (fun c' hc' => hpos c' (mem_cons_of_mem _ hc'))
        fun c' hc' => hother c' (mem_cons_of_mem _ hc')
    rw [foldlM_cons, hround]
    show cs.foldlM (processBalance sdk params) (w, funds ++ [c]) = _
    rw [hrest, append_assoc]
    rfl

lemma foldlM_processBalance (hpos : ∀ c ∈ cs, 0 < c.amount) (hnodup : (cs.map (·.denom)).Nodup)
    (hmem : c ∈ cs) (hc : c.denom = params.neutronDenom) :
    cs.foldlM (processBalance sdk params) (w, funds)
      = (burnNative sdk w c).map (·, funds ++ cs.filter (·.denom ≠ params.neutronDenom)) := by
  induction cs generalizing funds with
  | nil => cases hmem
  | cons c' cs ih =>
    rw [map_cons, nodup_cons] at hnodup
    have hc' : c'.amount ≠ 0 := (hpos c' mem_cons_self).ne'
    have hpos' : ∀ c ∈ cs, 0 < c.amount := fun c hc => hpos c (mem_cons_of_mem _ hc)
    rw [foldlM_cons]
    rcases mem_cons.mp hmem with rfl | hmem
    · -- the others are not native
      have hother : ∀ c' ∈ cs, c'.denom ≠ params.neutronDenom := by
        intro c' hmem' heq
        exact hnodup.1 (hc.trans heq.symm ▸ mem_map_of_mem hmem')
      have hround : processBalance sdk params (w, funds) c
          = (burnNative sdk w c).map (·, funds) := by
        rw [processBalance, if_neg hc', if_pos hc]
      have hfilter : (c :: cs).filter (·.denom ≠ params.neutronDenom) = cs := by
        rw [filter_cons_of_neg (by simp [hc]), filter_eq_self]
        exact fun c' hmem' => decide_eq_true (hother c' hmem')
      rw [hround, hfilter]
      rcases burnNative sdk w c with e | w₁
      · rfl
      · exact foldlM_processBalance_of_notMem hpos' hother
    · have hne : c'.denom ≠ params.neutronDenom := by
        intro heq
        exact hnodup.1 (heq.trans hc.symm ▸ mem_map_of_mem hmem)
      have hround : processBalance sdk params (w, funds) c' = .ok (w, funds ++ [c']) := by
        rw [processBalance, if_neg hc', if_neg hne]
      rw [hround, filter_cons_of_pos (by simp [hne])]
      show cs.foldlM (processBalance sdk params) (w, funds ++ [c']) = _
      rw [ih hpos' hnodup.2 hmem, append_assoc]
      rfl

/-! ### The other coins -/

/-- The other coins leave the account, unless the account is the treasury. -/
lemma distribute_whole (sdk : Sdk) (params : Params) (hwhole : Whole w.balances funds)
    (hpos : ∀ c ∈ funds, 0 < c.amount)
    (hall : ∀ d : Denom, d ∈ w.balances → d ∈ funds.map (·.denom)) :
    ∃ m, distribute sdk params w funds = .ok { w with balances := m }
      ∧ (m = ∅ ↔ (sdk.accAddressFromBech32 params.treasuryAddress = some redistribution →
        funds = []))
      ∧ (Entries sdk w.balances → Entries sdk m) := by
  obtain ⟨m, hm, hget⟩ := foldlM_subCoin hwhole
  have hempty : m = ∅ := by
    refine ext_getElem? fun d => ?_
    rw [hget, Std.ExtTreeMap.getElem?_empty]
    split
    · rfl
    · rename_i hd
      exact Std.ExtTreeMap.getElem?_eq_none fun hmem => hd (hall d hmem)
  subst hempty
  have hnone : Entries sdk ∅ := by
    intro d n hn
    rw [Std.ExtTreeMap.getElem?_empty] at hn
    cases hn
  unfold distribute
  split
  · -- there are none
    rename_i hfunds
    subst hfunds
    exact ⟨w.balances, rfl, by simp [Except.ok.inj hm], id⟩
  · rename_i hfunds
    split
    · rename_i haddr
      refine ⟨∅, ?_, by simp [haddr], fun _ => hnone⟩
      rw [burnCoins, hm]
      rfl
    · rename_i addr haddr
      refine ⟨if addr = redistribution then funds.foldl addCoin ∅ else ∅, ?_, ?_, fun h => ?_⟩
      · rw [sendCoins, hm]
        rfl
      · rw [haddr, Option.some_inj]
        split
        · rename_i heq
          refine iff_of_false (foldl_addCoin_ne_empty hfunds hpos) fun himp => hfunds (himp heq)
        · rename_i hne
          exact iff_of_true rfl fun heq => absurd heq hne
      · split
        · refine hnone.foldl_addCoin fun c hc => ?_
          exact (h _ _ (hwhole.entry c hc)).2
        · exact hnone

/-! ### The end of a block -/

/-- The fees can be burned and distributed: native coins can be added to the recorded total, and
the account is not the treasury if there are others. -/
structure Safe (sdk : Sdk) (w : World) : Prop where
  recordable : ∀ n, w.balances[w.params.neutronDenom]? = some n →
    Recordable w ⟨w.params.neutronDenom, n⟩
  treasury : sdk.accAddressFromBech32 w.params.treasuryAddress = some redistribution →
    ∀ d ∈ w.balances, d = w.params.neutronDenom

lemma mem_balances_iff : d ∈ w.balances ↔ d ∈ (getAllBalances w).map (·.denom) := by
  rw [map_denom_getAllBalances, Std.ExtTreeMap.mem_keys]

lemma Whole.filter (h : Whole m cs) (p : Coin → Bool) : Whole m (cs.filter p) where
  nodup := h.nodup.sublist (filter_sublist.map _)
  entry c hc := h.entry c (mem_of_mem_filter hc)

lemma burnAndDistribute_of_mem (h : Sound sdk w) (hmem : c ∈ getAllBalances w)
    (hc : c.denom = w.params.neutronDenom) :
    (¬ Recordable w c → ∀ w', burnAndDistribute sdk w ≠ .ok w')
      ∧ (Recordable w c → ∃ m, burnAndDistribute sdk w
          = .ok { FeeBurner.nativeBurned w c with balances := m }
        ∧ (m = ∅ ↔ (sdk.accAddressFromBech32 w.params.treasuryAddress = some redistribution →
          ∀ d ∈ w.balances, d = w.params.neutronDenom))
        ∧ Entries sdk m) := by
  obtain ⟨hyes, hno⟩ := burnNative_eq h hmem hc
  have hpos : ∀ c ∈ getAllBalances w, 0 < c.amount := fun c hc => (mem_getAllBalances h hc).2.1
  have hloop : (getAllBalances w).foldlM (processBalance sdk w.params) (w, [])
      = (burnNative sdk w c).map (·, (getAllBalances w).filter (·.denom ≠ w.params.neutronDenom)) :=
    foldlM_processBalance hpos h.whole.nodup hmem hc
  constructor
  · intro hnot w' hw'
    obtain ⟨acc, hacc, -⟩ := bind_ok hw'
    rw [hloop] at hacc
    obtain ⟨w₁, hw₁, -⟩ := map_ok hacc
    exact hnot (hno w₁ hw₁)
  · intro hrecordable
    have hothers : ∀ c' ∈ (getAllBalances w).filter (·.denom ≠ w.params.neutronDenom),
        c' ∈ getAllBalances w ∧ c'.denom ≠ w.params.neutronDenom :=
      fun c' hc' => ⟨(mem_filter.mp hc').1, of_decide_eq_true (mem_filter.mp hc').2⟩
    have hwhole : Whole (nativeBurned w c).balances
        ((getAllBalances w).filter (·.denom ≠ w.params.neutronDenom)) := by
      refine ⟨(h.whole.filter _).nodup, fun c' hc' => ?_⟩
      show (w.balances.erase c.denom)[c'.denom]? = _
      rw [getElem?_erase, if_neg]
      · exact h.whole.entry c' (hothers c' hc').1
      · exact fun heq => (hothers c' hc').2 (heq.symm.trans hc)
    have hall : ∀ d : Denom, d ∈ (nativeBurned w c).balances →
        d ∈ ((getAllBalances w).filter (·.denom ≠ w.params.neutronDenom)).map (·.denom) := by
      intro d hd
      obtain ⟨hne, hd⟩ := mem_erase.mp hd
      obtain ⟨c', hc', rfl⟩ := mem_map.mp (mem_balances_iff.mp hd)
      refine mem_map_of_mem (mem_filter.mpr ⟨hc', decide_eq_true fun heq => hne ?_⟩)
      exact Std.LawfulEqCmp.compare_eq_iff_eq.mpr (hc.trans heq.symm)
    obtain ⟨m, hm, hempty, hentries⟩ := distribute_whole sdk w.params hwhole
      (fun c' hc' => hpos c' (hothers c' hc').1) hall
    refine ⟨m, ?_, hempty.trans ?_, hentries (h.nativeBurned hmem hc hrecordable).entries⟩
    · rw [burnAndDistribute, hloop, hyes hrecordable]
      exact hm
    · refine imp_congr_right fun _ => ?_
      rw [filter_eq_nil_iff]
      constructor
      · intro hnil d hd
        obtain ⟨c', hc', rfl⟩ := mem_map.mp (mem_balances_iff.mp hd)
        have hdenom := hnil c' hc'
        simpa using hdenom
      · intro hnative c' hc'
        have hdenom := hnative c'.denom (mem_balances_iff.mpr (mem_map_of_mem hc'))
        simpa using hdenom

lemma burnAndDistribute_of_notMem (h : Sound sdk w)
    (hother : ∀ c ∈ getAllBalances w, c.denom ≠ w.params.neutronDenom) :
    ∃ m, burnAndDistribute sdk w = .ok { w with balances := m }
      ∧ (m = ∅ ↔ (sdk.accAddressFromBech32 w.params.treasuryAddress = some redistribution →
        ∀ d ∈ w.balances, d = w.params.neutronDenom))
      ∧ Entries sdk m := by
  have hpos : ∀ c ∈ getAllBalances w, 0 < c.amount := fun c hc => (mem_getAllBalances h hc).2.1
  have hloop : (getAllBalances w).foldlM (processBalance sdk w.params) (w, [])
      = .ok (w, getAllBalances w) := foldlM_processBalance_of_notMem hpos hother
  obtain ⟨m, hm, hempty, hentries⟩ := distribute_whole sdk w.params h.whole hpos
    fun d hd => mem_balances_iff.mp hd
  refine ⟨m, ?_, hempty.trans (imp_congr_right fun _ => ?_), hentries h.entries⟩
  · rw [burnAndDistribute, hloop]
    exact hm
  · constructor
    · intro hnil d hd
      rw [mem_balances_iff, hnil] at hd
      cases hd
    · intro hnative
      refine eq_nil_iff_forall_not_mem.mpr fun c hc => hother c hc ?_
      exact hnative c.denom (mem_balances_iff.mpr (mem_map_of_mem hc))

/-- Either there are native coins, once, or there are none. -/
lemma native_cases (h : Sound sdk w) :
    (∃ c ∈ getAllBalances w, c.denom = w.params.neutronDenom
        ∧ ((∀ n, w.balances[w.params.neutronDenom]? = some n →
          Recordable w ⟨w.params.neutronDenom, n⟩) ↔ Recordable w c))
      ∨ (∀ c ∈ getAllBalances w, c.denom ≠ w.params.neutronDenom)
        ∧ w.balances[w.params.neutronDenom]? = none := by
  by_cases hmem : w.params.neutronDenom ∈ w.balances
  · obtain ⟨c, hc, hdenom⟩ := mem_map.mp (mem_balances_iff.mp hmem)
    obtain ⟨hentry, hpos, -⟩ := mem_getAllBalances h hc
    have hcoin : (⟨c.denom, (c.amount.toNat : ℤ)⟩ : Coin) = c := by
      rw [Int.toNat_of_nonneg hpos.le]
    refine .inl ⟨c, hc, hdenom, fun hall => ?_, fun hrecordable n hn => ?_⟩
    · have hnative := hall c.amount.toNat (hdenom ▸ hentry)
      rwa [← hdenom, hcoin] at hnative
    · rw [← hdenom, hentry] at hn
      cases hn
      rwa [← hdenom, hcoin]
  · refine .inr ⟨fun c hc heq => hmem ?_, Std.ExtTreeMap.getElem?_eq_none hmem⟩
    exact heq ▸ mem_balances_iff.mpr (mem_map_of_mem hc)

/-- **When the fees are burned and distributed**: the end of a block does not panic and leaves
the account empty exactly if this is safe. -/
lemma burnAndDistribute_iff (h : Sound sdk w) :
    (∃ w', burnAndDistribute sdk w = .ok w' ∧ w'.balances = ∅) ↔ Safe sdk w := by
  rcases native_cases h with ⟨c, hmem, hc, hrecordable⟩ | ⟨hother, hnone⟩
  · obtain ⟨hno, hyes⟩ := burnAndDistribute_of_mem h hmem hc
    constructor
    · rintro ⟨w', hw', hempty⟩
      have hrec : Recordable w c := by
        by_contra hnot
        exact hno hnot w' hw'
      obtain ⟨m, hm, hiff, -⟩ := hyes hrec
      rw [hm] at hw'
      cases hw'
      exact ⟨hrecordable.mpr hrec, hiff.mp hempty⟩
    · intro hsafe
      obtain ⟨m, hm, hiff, -⟩ := hyes (hrecordable.mp hsafe.recordable)
      exact ⟨_, hm, hiff.mpr hsafe.treasury⟩
  · obtain ⟨m, hm, hiff, -⟩ := burnAndDistribute_of_notMem h hother
    constructor
    · rintro ⟨w', hw', hempty⟩
      rw [hm] at hw'
      cases hw'
      refine ⟨fun n hn => ?_, hiff.mp hempty⟩
      rw [hnone] at hn
      cases hn
    · intro hsafe
      exact ⟨_, hm, hiff.mpr hsafe.treasury⟩

lemma Sound.endBlock (h : Sound sdk w) (he : burnAndDistribute sdk w = .ok w') : Sound sdk w' := by
  rcases native_cases h with ⟨c, hmem, hc, -⟩ | ⟨hother, -⟩
  · obtain ⟨hno, hyes⟩ := burnAndDistribute_of_mem h hmem hc
    have hrec : Recordable w c := by
      by_contra hnot
      exact hno hnot w' he
    obtain ⟨m, hm, -, hentries⟩ := hyes hrec
    rw [hm] at he
    cases he
    have hsound := h.nativeBurned hmem hc hrec
    exact ⟨hsound.native, hentries, hsound.amount, hsound.denom, hsound.unset, hsound.nonneg⟩
  · obtain ⟨m, hm, -, hentries⟩ := burnAndDistribute_of_notMem h hother
    rw [hm] at he
    cases he
    exact ⟨h.native, hentries, h.amount, h.denom, h.unset, h.nonneg⟩

/-! ### Runs -/

lemma validate_ok {params : Params} {u : Unit} (h : params.validate sdk = .ok u) :
    params.neutronDenom ≠ [] := by
  obtain ⟨_, hdenom, -⟩ := bind_ok h
  exact of_decide_eq_true (ensure_ok hdenom)

lemma Sound.step {e : Event} (h : Sound sdk w) (he : step sdk w e = .ok w') : Sound sdk w' := by
  cases e with
  | receive coins =>
    obtain ⟨_, hvalid, he⟩ := bind_ok he
    cases he
    refine ⟨h.native, ?_, h.amount, h.denom, h.unset, h.nonneg⟩
    exact h.entries.foldl_addCoin (isValid_denom (ensure_ok hvalid))
  | setParams params =>
    obtain ⟨_, hvalid, he⟩ := bind_ok he
    cases he
    exact ⟨validate_ok hvalid, h.entries, h.amount, h.denom, h.unset, h.nonneg⟩
  | endBlock => exact h.endBlock he

lemma Initial.sound (h : Initial sdk w) : Sound sdk w := by
  obtain ⟨hparams, htotal, hbalances, hburned⟩ := h
  refine ⟨validate_ok hparams, fun d n hn => ?_, ?_, fun c hc => ?_, fun _ => hburned, ?_⟩
  · rw [hbalances, Std.ExtTreeMap.getElem?_empty] at hn
    cases hn
  · rw [htotal, hburned]
    rfl
  · rw [hburned] at hc
    cases hc
  · rw [htotal]

/-- **Burning fees.**  In every run, the recorded total is the sum of the native coins that were
burned, all of them in its denomination; and the end of the next block does not panic and leaves
the redistribution account empty exactly if this is safe. -/
theorem fees_burned_iff_safe (sdk : Sdk) {w₀ : World} (h₀ : Initial sdk w₀) (es : List Event)
    {w : World} (hw : Run.run (step sdk) w₀ es = w) :
    (w.total.amount = (w.burned.map (·.amount)).sum ∧ ∀ c ∈ w.burned, c.denom = w.total.denom)
      ∧ ((∃ w', step sdk w .endBlock = .ok w' ∧ w'.balances = ∅) ↔ Safe sdk w) := by
  have hsound : Sound sdk w := by
    rw [← hw]
    refine run_invariant (C := fun _ _ => True) h₀.sound ?_ ?_
    · exact fun s e s' hI _ he => hI.step he
    · exact along_of_forall fun _ _ _ => trivial
  exact ⟨⟨hsound.amount, hsound.denom⟩, burnAndDistribute_iff hsound⟩

/-! ### A chain that halts -/

/-- One text is the address of the redistribution account. -/
def demoSdk : Sdk :=
  { chainSdk with
    accAddressFromBech32 := fun s =>
      if s = ascii "redistribution" then some redistribution else some (.account s) }

def demoWorld (treasuryAddress : String) : World where
  params := ⟨ascii "untrn", ascii treasuryAddress⟩
  total := ⟨[], 0⟩
  balances := ∅
  burned := []

/-- Fees are burned, and the native denomination is changed. -/
def renamed : List Event :=
  [.receive [⟨ascii "untrn", 5⟩], .endBlock, .setParams ⟨ascii "umaany", ascii "treasury"⟩,
    .receive [⟨ascii "umaany", 7⟩]]

def panics (r : Result World) : Bool :=
  match r with
  | .error (.panic _) => true
  | _ => false

/-- **The chain halts** at the end of the first block with fees in the new denomination.  And a
treasury that is the redistribution account keeps the account from being empty. -/
theorem chain_halts :
    panics (step demoSdk (Run.run (step demoSdk) (demoWorld "treasury") renamed) .endBlock) = true
      ∧ (Run.run (step demoSdk) (demoWorld "redistribution")
        [.receive [⟨ascii "uatom", 3⟩], .endBlock]).balances.toList = [(ascii "uatom", 3)] := by
  decide +kernel

def received : List Event := [.receive [⟨ascii "uatom", 3⟩, ⟨ascii "untrn", 5⟩]]

theorem fees_burned_iff_safe_received :
    ∃ w', step demoSdk (Run.run (step demoSdk) (demoWorld "treasury") received) .endBlock = .ok w'
      ∧ w'.balances = ∅ := by
  have h₀ : Initial demoSdk (demoWorld "treasury") := ⟨by decide, rfl, rfl, rfl⟩
  refine (fees_burned_iff_safe demoSdk h₀ received rfl).2.mpr ⟨fun n hn => ?_, ?_⟩
  · have hget : (Run.run (step demoSdk) (demoWorld "treasury") received).balances[ascii "untrn"]?
        = some 5 := by decide +kernel
    obtain rfl : 5 = n := Option.some.inj (hget.symm.trans hn)
    exact ⟨Or.inl (by decide +kernel), by decide +kernel⟩
  · intro htreasury
    exact absurd htreasury (by decide +kernel)

end MaanyDex.FeeBurner
