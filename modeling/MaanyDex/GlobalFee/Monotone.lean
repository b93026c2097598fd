/-
What the fee check accepts, and how that depends on the requirement and on the fee.

A fee is accepted if its denominations are among the required ones (`Covered`), and it is enough:

    some coin reaches what is required in its denomination, or nothing is required in it

(`Enough`), unless all messages are let through anyway.  Both get easier when the requirement goes
down, denomination by denomination (`AtLeast`), which is what happens between the mempool and a
block; and `Enough` gets easier when the fee goes up.
-/
import MaanyDex.GlobalFee.Ante

namespace MaanyDex.GlobalFee

open List Run

variable {sdk : Sdk} {math : Math}

/-! ### Coins -/

variable {cs : Coins} {c : Coin}

@[simp] lemma mem_sortCoins : c ∈ sortCoins cs ↔ c ∈ cs := (perm_insertionSort _ _).mem_iff

@[simp] lemma length_sortCoins (cs : Coins) : (sortCoins cs).length = cs.length :=
  (perm_insertionSort _ _).length_eq

lemma sortCoins_eq_nil : sortCoins cs = [] ↔ cs = [] := by
  rw [← length_eq_zero_iff, length_sortCoins, length_eq_zero_iff]

lemma denoms_sortCoins (cs : Coins) : ((sortCoins cs).map (·.denom)).Perm (cs.map (·.denom)) :=
  (perm_insertionSort _ _).map _

lemma amountOf_of_mem (hnodup : (cs.map (·.denom)).Nodup) (h : c ∈ cs) :
    amountOfNoDenomValidation cs c.denom = c.amount := by
  rw [amountOf_eq_net hnodup, net_eq_of_mem hnodup h]

variable {d : Denom}

lemma amountOf_ne_zero_iff (hnodup : (cs.map (·.denom)).Nodup) :
    amountOfNoDenomValidation cs d ≠ 0 ↔ ∃ r ∈ cs, r.denom = d ∧ r.amount ≠ 0 := by
  constructor
  · intro hne
    by_contra hnone
    apply hne
    unfold amountOfNoDenomValidation
    split
    · rename_i c hc
      by_contra hamount
      have hd : c.denom = d := by simpa using List.find?_some hc
      exact hnone ⟨c, mem_of_find?_eq_some hc, hd, hamount⟩
    · rfl
  · rintro ⟨r, hr, rfl, hamount⟩
    rw [amountOf_of_mem hnodup hr]
    exact hamount

lemma amountOf_eq_ok (h : sdk.validDenom d = true) :
    amountOf sdk cs d = .ok (amountOfNoDenomValidation cs d) := by
  rw [amountOf, ensure_eq_ok_iff.mpr h, ok_bind]

lemma validDenom_of_amountOf {n : ℤ} (h : amountOf sdk cs d = .ok n) : sdk.validDenom d = true := by
  obtain ⟨_, hvalid, -⟩ := bind_ok h
  exact ensure_ok hvalid

variable {cs' : Coins}

lemma denomsSubsetOf_iff : denomsSubsetOf sdk cs cs' = .ok true
    ↔ cs.length ≤ cs'.length ∧ ∀ c ∈ cs, sdk.validDenom c.denom = true
      ∧ amountOfNoDenomValidation cs' c.denom ≠ 0 := by
  unfold denomsSubsetOf
  split
  · rename_i hlt
    simp only [Except.ok.injEq, Bool.false_eq_true, false_iff, not_and]
    omega
  · rename_i hle
    have hvalues : (∀ c ∈ cs, sdk.validDenom c.denom = true) →
        (cs.mapM fun c => amountOf sdk cs' c.denom)
          = .ok (cs.map fun c => amountOfNoDenomValidation cs' c.denom) :=
      fun hvalid => mapM_eq_ok fun c hc => amountOf_eq_ok (hvalid c hc)
    constructor
    · intro h
      have hvalid : ∀ c ∈ cs, sdk.validDenom c.denom = true := by
        intro c hc
        obtain ⟨amounts, hamounts, -⟩ := bind_ok h
        obtain ⟨n, hn⟩ := mapM_ok_mem hamounts c hc
        exact validDenom_of_amountOf hn
      rw [hvalues hvalid, ok_bind] at h
      have hall := Except.ok.inj h
      rw [all_map, all_eq_true] at hall
      exact ⟨by omega, fun c hc => ⟨hvalid c hc, of_decide_eq_true (hall c hc)⟩⟩
    · rintro ⟨-, hall⟩
      rw [hvalues fun c hc => (hall c hc).1, ok_bind, all_map]
      refine congrArg _ (all_eq_true.mpr ?_)
      exact fun c hc => decide_eq_true (hall c hc).2

lemma isAnyGTE_iff (hvalid : ∀ c ∈ cs, sdk.validDenom c.denom = true) :
    isAnyGTE sdk cs cs' = .ok true ↔ ∃ c ∈ cs, amountOfNoDenomValidation cs' c.denom ≤ c.amount
      ∧ amountOfNoDenomValidation cs' c.denom ≠ 0 := by
  unfold isAnyGTE
  split
  · rename_i hempty
    obtain rfl : cs' = [] := isEmpty_iff.mp hempty
    simp [amountOfNoDenomValidation]
  · have hvalues : (cs.mapM fun c => do
          let n ← amountOf sdk cs' c.denom
          .ok (decide (n ≤ c.amount) && n ≠ 0))
        = Except.ok (ε := Fault) (cs.map fun c =>
          decide (amountOfNoDenomValidation cs' c.denom ≤ c.amount)
            && amountOfNoDenomValidation cs' c.denom ≠ 0) := by
      apply mapM_eq_ok
      intro c hc
      rw [amountOf_eq_ok (hvalid c hc), ok_bind]
    rw [hvalues, ok_bind, Except.ok.injEq, any_map, any_eq_true]
    simp

/-! ### What is accepted -/

/-- The denominations in which nothing is required. -/
def zeroDenoms (R : Coins) : List Denom := (R.filter fun r => r.amount = 0).map (·.denom)

lemma mem_zeroDenoms {R : Coins} : d ∈ zeroDenoms R ↔ ∃ r ∈ R, r.denom = d ∧ r.amount = 0 := by
  simp only [zeroDenoms, mem_map, mem_filter, decide_eq_true_eq]
  constructor
  · rintro ⟨r, ⟨hr, hzero⟩, hd⟩
    exact ⟨r, hr, hd, hzero⟩
  · rintro ⟨r, hr, hd, hzero⟩
    exact ⟨r, ⟨hr, hzero⟩, hd⟩

/-- The coins of a fee are of the required denominations, and not too many. -/
structure Covered (sdk : Sdk) (R fee : Coins) : Prop where
  length : fee.length ≤ R.length
  nonZero : (fee.filter fun c => c.denom ∉ zeroDenoms R).length
    ≤ (R.filter fun r => r.amount ≠ 0).length
  denoms : ∀ c ∈ fee, c.denom ∈ zeroDenoms R
    ∨ sdk.validDenom c.denom = true ∧ ∃ r ∈ R, r.denom = c.denom ∧ r.amount ≠ 0

def Enough (R fee : Coins) : Prop :=
  fee = [] ∧ (∃ r ∈ R, r.amount = 0)
    ∨ ∃ c ∈ fee, ∃ r ∈ R, r.denom = c.denom ∧ (r.amount = 0 ∨ r.amount ≤ c.amount)

/-- All messages are let through without a fee. -/
def Bypasses (params : Params) (tx : FeeTx) : Prop :=
  containsOnlyBypassMinFeeMsgs params tx.msgs = true
    ∧ tx.gas ≤ params.maxTotalBypassMinFeeMsgGasUsage

variable {params : Params} {tx : FeeTx} {R : Coins}

variable {x : Result Bool} {f : Fault}

lemma bind_ensure_eq_ok : (x >>= fun b => ensure b f) = .ok () ↔ x = .ok true := by
  rcases x with e | b
  · simp [error_bind]
  · rw [ok_bind, ensure_eq_ok_iff, Except.ok.injEq]

lemma bind_ensure_bind_eq_ok {y : Result Unit} :
    (x >>= fun b => ensure b f >>= fun _ => y) = .ok () ↔ x = .ok true ∧ y = .ok () := by
  rcases x with e | b
  · simp [error_bind]
  · rw [ok_bind, bind_unit_eq_ok, ensure_eq_ok_iff, Except.ok.injEq]

section

variable (hR : (R.map (·.denom)).Nodup)

include hR

lemma nodup_nonZero : ((sortCoins (R.filter fun r => r.amount ≠ 0)).map (·.denom)).Nodup :=
  (denoms_sortCoins _).nodup_iff.mpr (hR.sublist (filter_sublist.map _))

lemma amountOf_nonZero_ne_zero_iff :
    amountOfNoDenomValidation (sortCoins (R.filter fun r => r.amount ≠ 0)) d ≠ 0
      ↔ ∃ r ∈ R, r.denom = d ∧ r.amount ≠ 0 := by
  rw [amountOf_ne_zero_iff (nodup_nonZero hR)]
  simp only [mem_sortCoins, mem_filter, decide_eq_true_eq]
  constructor
  · rintro ⟨r, ⟨hr, -⟩, hd, hne⟩
    exact ⟨r, hr, hd, hne⟩
  · rintro ⟨r, hr, hd, hne⟩
    exact ⟨r, ⟨hr, hne⟩, hd, hne⟩

lemma amountOf_nonZero_of_mem {r : Coin} (hr : r ∈ R) (hne : r.amount ≠ 0) :
    amountOfNoDenomValidation (sortCoins (R.filter fun r => r.amount ≠ 0)) r.denom = r.amount := by
  apply amountOf_of_mem (nodup_nonZero hR)
  rw [mem_sortCoins, mem_filter]
  exact ⟨hr, decide_eq_true hne⟩

variable {fee : Coins}

lemma covered_iff : Covered sdk R fee ↔ fee.length ≤ R.length ∧ denomsSubsetOf sdk
      (splitCoinsByDenoms (sortCoins fee) (getNonZeroFees R).2).1 (getNonZeroFees R).1
        = .ok true := by
  have hfilter : ((sortCoins fee).filter fun c => c.denom ∉ zeroDenoms R).length
      = (fee.filter fun c => c.denom ∉ zeroDenoms R).length :=
    ((perm_insertionSort _ _).filter _).length_eq
  rw [denomsSubsetOf_iff]
  show _ ↔ _ ∧ (sortCoins ((sortCoins fee).filter fun c => c.denom ∉ zeroDenoms R)).length
      ≤ (sortCoins (R.filter fun r => r.amount ≠ 0)).length
    ∧ ∀ c ∈ sortCoins ((sortCoins fee).filter fun c => c.denom ∉ zeroDenoms R), _
      ∧ amountOfNoDenomValidation (sortCoins (R.filter fun r => r.amount ≠ 0)) _ ≠ 0
  simp only [length_sortCoins, hfilter, mem_sortCoins, mem_filter, decide_eq_true_eq,
    amountOf_nonZero_ne_zero_iff hR]
  constructor
  · rintro ⟨hlength, hnonZero, hdenoms⟩
    refine ⟨hlength, hnonZero, ?_⟩
    rintro c ⟨hc, hnot⟩
    exact (hdenoms c hc).resolve_left hnot
  · rintro ⟨hlength, hnonZero, hdenoms⟩
    refine ⟨hlength, hnonZero, ?_⟩
    intro c hc
    by_cases hzero : c.denom ∈ zeroDenoms R
    · exact .inl hzero
    · exact .inr (hdenoms c ⟨hc, hzero⟩)

/-- The second half is about amounts: some coin is in a denomination in which nothing is required,
or reaches what is required. -/
lemma enough_iff (hfee : fee ≠ []) : Enough R fee ↔ (∃ c ∈ fee, c.denom ∈ zeroDenoms R)
      ∨ ∃ c ∈ fee, c.denom ∉ zeroDenoms R
        ∧ amountOfNoDenomValidation (sortCoins (R.filter fun r => r.amount ≠ 0)) c.denom ≤ c.amount
        ∧ amountOfNoDenomValidation (sortCoins (R.filter fun r => r.amount ≠ 0)) c.denom ≠ 0 := by
  constructor
  · rintro (⟨hnil, -⟩ | ⟨c, hc, r, hr, hd, hamount⟩)
    · exact absurd hnil hfee
    · by_cases hzero : c.denom ∈ zeroDenoms R
      · exact .inl ⟨c, hc, hzero⟩
      · have hne : r.amount ≠ 0 := fun h0 => hzero (mem_zeroDenoms.mpr ⟨r, hr, hd, h0⟩)
        have hrequired := amountOf_nonZero_of_mem hR hr hne
        rw [hd] at hrequired
        refine .inr ⟨c, hc, hzero, ?_⟩
        rw [hrequired]
        exact ⟨hamount.resolve_left hne, hne⟩
  · rintro (⟨c, hc, hzero⟩ | ⟨c, hc, -, hle, hne⟩)
    · obtain ⟨r, hr, hd, h0⟩ := mem_zeroDenoms.mp hzero
      exact .inr ⟨c, hc, r, hr, hd, Or.inl h0⟩
    · obtain ⟨r, hr, hd, hamount⟩ := (amountOf_nonZero_ne_zero_iff hR).mp hne
      rw [← hd, amountOf_nonZero_of_mem hR hr hamount] at hle
      exact .inr ⟨c, hc, r, hr, hd, Or.inr hle⟩

end

lemma zeroDenoms_ne_nil : zeroDenoms R ≠ [] ↔ ∃ r ∈ R, r.amount = 0 := by
  constructor
  · intro hne
    obtain ⟨d, hd⟩ := exists_mem_of_ne_nil _ hne
    obtain ⟨r, hr, -, h0⟩ := mem_zeroDenoms.mp hd
    exact ⟨r, hr, h0⟩
  · rintro ⟨r, hr, h0⟩
    exact ne_nil_of_mem (mem_zeroDenoms.mpr ⟨r, hr, rfl, h0⟩)

lemma zeroPart_ne_nil {denoms : List Denom} :
    (splitCoinsByDenoms (sortCoins fee) denoms).2 ≠ [] ↔ ∃ c ∈ fee, c.denom ∈ denoms := by
  show sortCoins ((sortCoins fee).filter fun c => c.denom ∈ denoms) ≠ [] ↔ _
  rw [Ne, sortCoins_eq_nil, filter_eq_nil_iff]
  simp

/-- **What the check accepts.** -/
lemma checkFee_iff (hR : (R.map (·.denom)).Nodup) : checkFee sdk params tx R = .ok ()
    ↔ Covered sdk R tx.fee ∧ (Bypasses params tx ∨ Enough R tx.fee) := by
  unfold checkFee
  dsimp only
  rw [bind_unit_eq_ok, bind_ensure_bind_eq_ok, ensure_eq_ok_iff, decide_eq_true_eq, ← and_assoc,
    ← covered_iff hR]
  refine and_congr_right fun hcovered => ?_
  by_cases hbypass : Bypasses params tx
  · rw [if_pos (by simpa [Bypasses] using hbypass)]
    simp [hbypass]
  rw [if_neg (by simpa [Bypasses] using hbypass), or_iff_right hbypass]
  by_cases hfee : tx.fee = []
  · rw [if_pos (sortCoins_eq_nil.mpr hfee), ensure_eq_ok_iff, decide_eq_true_eq]
    refine zeroDenoms_ne_nil.trans ?_
    simp [Enough, hfee]
  have hzeros : (getNonZeroFees R).2 = zeroDenoms R := rfl
  rw [if_neg fun hnil => hfee (sortCoins_eq_nil.mp hnil), enough_iff hR hfee, hzeros]
  by_cases hzero : ∃ c ∈ tx.fee, c.denom ∈ zeroDenoms R
  · rw [if_pos (zeroPart_ne_nil.mpr hzero)]
    exact ⟨fun _ => .inl hzero, fun _ => rfl⟩
  · -- no coin is in a denomination in which nothing is required, so all of them are compared
    have hvalid : ∀ c ∈ (splitCoinsByDenoms (sortCoins tx.fee) (zeroDenoms R)).1,
        sdk.validDenom c.denom = true := by
      have hsubset := ((covered_iff hR).mp hcovered).2
      exact fun c hc => ((denomsSubsetOf_iff.mp hsubset).2 c hc).1
    rw [if_neg (mt zeroPart_ne_nil.mp hzero), bind_ensure_eq_ok, isAnyGTE_iff hvalid,
      or_iff_right hzero]
    simp [splitCoinsByDenoms, getNonZeroFees, zeroDenoms, and_assoc]

/-! ### Less is required -/

/-- `R'` requires at least what `R` does, denomination by denomination. -/
structure AtLeast (R R' : Coins) : Prop where
  nonneg : ∀ r ∈ R, 0 ≤ r.amount
  length : R'.length = R.length
  up : ∀ r ∈ R, ∃ r' ∈ R', r'.denom = r.denom ∧ r.amount ≤ r'.amount
  down : ∀ r' ∈ R', ∃ r ∈ R, r.denom = r'.denom ∧ r.amount ≤ r'.amount

variable {R' fee fee' : Coins}

lemma AtLeast.eq_zero (h : AtLeast R R') {r' : Coin} (hr' : r' ∈ R') (h0 : r'.amount = 0) :
    ∃ r ∈ R, r.denom = r'.denom ∧ r.amount = 0 := by
  obtain ⟨r, hr, hd, hle⟩ := h.down r' hr'
  have hnonneg := h.nonneg r hr
  exact ⟨r, hr, hd, by omega⟩

lemma AtLeast.covered_iff (h : AtLeast R R') (hcovered : Covered sdk R' fee) :
    Covered sdk R fee ↔ (fee.filter fun c => c.denom ∉ zeroDenoms R).length
      ≤ (R.filter fun r => r.amount ≠ 0).length := by
  refine ⟨fun h => h.nonZero, fun hnonZero => ⟨h.length ▸ hcovered.length, hnonZero, ?_⟩⟩
  intro c hc
  rcases hcovered.denoms c hc with hzero | ⟨hvalid, r', hr', hd', -⟩
  · obtain ⟨r', hr', hd', h0⟩ := mem_zeroDenoms.mp hzero
    obtain ⟨r, hr, hd, h0⟩ := h.eq_zero hr' h0
    exact .inl (mem_zeroDenoms.mpr ⟨r, hr, hd.trans hd', h0⟩)
  · obtain ⟨r, hr, hd, -⟩ := h.down r' hr'
    by_cases h0 : r.amount = 0
    · exact .inl (mem_zeroDenoms.mpr ⟨r, hr, hd.trans hd', h0⟩)
    · exact .inr ⟨hvalid, r, hr, hd.trans hd', h0⟩

lemma AtLeast.enough (h : AtLeast R R') (henough : Enough R' fee) : Enough R fee := by
  rcases henough with ⟨hnil, r', hr', h0⟩ | ⟨c, hc, r', hr', hd', hamount⟩
  · obtain ⟨r, hr, -, h0⟩ := h.eq_zero hr' h0
    exact .inl ⟨hnil, r, hr, h0⟩
  · rcases hamount with h0 | hle
    · obtain ⟨r, hr, hd, h0⟩ := h.eq_zero hr' h0
      exact .inr ⟨c, hc, r, hr, hd.trans hd', Or.inl h0⟩
    · obtain ⟨r, hr, hd, hle'⟩ := h.down r' hr'
      exact .inr ⟨c, hc, r, hr, hd.trans hd', Or.inr (hle'.trans hle)⟩

lemma nonZero_le_of_nodup (hfee : (fee.map (·.denom)).Nodup)
    (hdenoms : ∀ c ∈ fee, ∃ r ∈ R, r.denom = c.denom) :
    (fee.filter fun c => c.denom ∉ zeroDenoms R).length
      ≤ (R.filter fun r => r.amount ≠ 0).length := by
  have hnodup : ((fee.filter fun c => c.denom ∉ zeroDenoms R).map (·.denom)).Nodup :=
    hfee.sublist (filter_sublist.map _)
  have hsubset : (fee.filter fun c => c.denom ∉ zeroDenoms R).map (·.denom)
      ⊆ (R.filter fun r => r.amount ≠ 0).map (·.denom) := by
    intro d hd
    obtain ⟨c, hc, rfl⟩ := mem_map.mp hd
    obtain ⟨hc, hnot⟩ := mem_filter.mp hc
    obtain ⟨r, hr, hd⟩ := hdenoms c hc
    refine mem_map.mpr ⟨r, mem_filter.mpr ⟨hr, decide_eq_true fun h0 => ?_⟩, hd⟩
    exact of_decide_eq_true hnot (mem_zeroDenoms.mpr ⟨r, hr, hd, h0⟩)
  have hle := (subperm_of_subset hnodup hsubset).length_le
  rwa [length_map, length_map] at hle

lemma Covered.exists_denom (h : Covered sdk R fee) (hc : c ∈ fee) : ∃ r ∈ R, r.denom = c.denom := by
  rcases h.denoms c hc with hzero | ⟨-, r, hr, hd, -⟩
  · obtain ⟨r, hr, hd, -⟩ := mem_zeroDenoms.mp hzero
    exact ⟨r, hr, hd⟩
  · exact ⟨r, hr, hd⟩

/-! ### More is paid -/

/-- The same coins, with higher amounts. -/
def Raised (fee fee' : Coins) : Prop :=
  List.Forall₂ (fun c c' => c'.denom = c.denom ∧ c.amount ≤ c'.amount) fee fee'

lemma Raised.denoms (h : Raised fee fee') : fee'.map (·.denom) = fee.map (·.denom) := by
  induction h with
  | nil => rfl
  | cons hc _ ih => rw [map_cons, map_cons, ih, hc.1]

lemma Raised.covered (h : Raised fee fee') (hcovered : Covered sdk R fee) : Covered sdk R fee' := by
  have hfilter : ∀ cs : Coins, (cs.filter fun c => c.denom ∉ zeroDenoms R).length
      = ((cs.map (·.denom)).filter fun d => d ∉ zeroDenoms R).length := by
    intro cs
    rw [filter_map, length_map]
    rfl
  have hlength := congrArg List.length h.denoms
  rw [length_map, length_map] at hlength
  refine ⟨hlength ▸ hcovered.length, ?_, ?_⟩
  · rw [hfilter, h.denoms, ← hfilter]
    exact hcovered.nonZero
  · intro c' hc'
    have hmem : c'.denom ∈ fee.map (·.denom) := h.denoms ▸ mem_map_of_mem hc'
    obtain ⟨c, hc, hd⟩ := mem_map.mp hmem
    rw [← hd]
    exact hcovered.denoms c hc

lemma Raised.enough (h : Raised fee fee') (henough : Enough R fee) : Enough R fee' := by
  rcases henough with ⟨rfl, hzero⟩ | ⟨c, hc, r, hr, hd, hamount⟩
  · cases h
    exact .inl ⟨rfl, hzero⟩
  · right
    induction h with
    | nil => cases hc
    | @cons c₀ c₀' rest rest' hc₀ _ ih =>
      rcases mem_cons.mp hc with rfl | hc
      · exact ⟨c₀', mem_cons_self, r, hr, hd.trans hc₀.1.symm,
          hamount.imp_right fun hle => hle.trans hc₀.2⟩
      · obtain ⟨c', hc', hrest⟩ := ih hc
        exact ⟨c', mem_cons_of_mem _ hc', hrest⟩

/-! ### Requirements -/

variable {gas : UInt64}

lemma requiredFee_ok {gp : DecCoin}
    (h : requiredFee sdk math gas gp = .ok c) : c.denom = gp.denom ∧ 0 ≤ c.amount := by
  obtain ⟨fee, amount, -, -, h⟩ := bind2_ok h
  obtain ⟨rfl, -, hnonneg⟩ := newCoin_ok h
  exact ⟨rfl, hnonneg⟩

variable {prices : List DecCoin}

lemma requiredFee_all {fees : Coins}
    (h : List.Forall₂ (fun gp c => requiredFee sdk math gas gp = .ok c) prices fees) :
    fees.map (·.denom) = prices.map (·.denom) ∧ ∀ r ∈ fees, 0 ≤ r.amount := by
  induction h with
  | nil => simp
  | cons hc _ ih =>
    obtain ⟨hd, hnonneg⟩ := requiredFee_ok hc
    rw [map_cons, map_cons, ih.1, hd, forall_mem_cons]
    exact ⟨rfl, hnonneg, ih.2⟩

lemma requiredFees_ok (h : requiredFees sdk math gas prices = .ok R) :
    (R.map (·.denom)).Perm (prices.map (·.denom)) ∧ ∀ r ∈ R, 0 ≤ r.amount := by
  obtain ⟨fees, hfees, h⟩ := bind_ok h
  cases h
  obtain ⟨hdenoms, hnonneg⟩ := requiredFee_all (mapM_ok hfees)
  refine ⟨hdenoms ▸ denoms_sortCoins fees, ?_⟩
  intro r hr
  exact hnonneg r (mem_sortCoins.mp hr)

/-- What is found is of the denomination that is looked for. -/
lemma find_denom {coins : Coins} {denom : Denom} (h : find coins denom = some c) :
    c.denom = denom := by
  fun_induction find coins denom with
  | case1 => cases h
  | case2 coin heq =>
    cases h
    exact heq
  | case3 => cases h
  | case4 => cases h
  | case5 c₀ c₁ rest midIdx coin _ _ ih => exact ih h
  | case6 c₀ c₁ rest midIdx coin _ _ heq =>
    cases h
    exact heq.symm
  | case7 c₀ c₁ rest midIdx coin _ _ _ ih => exact ih h

lemma combinedFee_denom (minGasPrices : Coins) (fee : Coin) :
    (combinedFee minGasPrices fee).denom = fee.denom := by
  unfold combinedFee
  split
  · rename_i c hc
    split
    · exact find_denom hc
    · rfl
  · rfl

lemma le_combinedFee (minGasPrices : Coins) (fee : Coin) :
    fee.amount ≤ (combinedFee minGasPrices fee).amount := by
  unfold combinedFee
  split
  · split
    · rename_i hlt
      exact hlt.le
    · exact le_rfl
  · exact le_rfl

/-- **Local prices only add** to what is required. -/
lemma combinedFeeRequirement_ok {minGasPrices : Coins} (hnonneg : ∀ r ∈ R, 0 ≤ r.amount)
    (h : combinedFeeRequirement R minGasPrices = .ok R') :
    AtLeast R R' ∧ (R'.map (·.denom)).Perm (R.map (·.denom)) := by
  unfold combinedFeeRequirement at h
  split at h
  · cases h
  split at h
  · cases h
    exact ⟨⟨hnonneg, rfl, fun r hr => ⟨r, hr, rfl, le_rfl⟩, fun r hr => ⟨r, hr, rfl, le_rfl⟩⟩,
      List.Perm.refl _⟩
  · cases h
    refine ⟨⟨hnonneg, ?_, ?_, ?_⟩, ?_⟩
    · rw [length_sortCoins, length_map]
    · intro r hr
      exact ⟨combinedFee minGasPrices r, mem_sortCoins.mpr (mem_map_of_mem hr),
        combinedFee_denom _ r, le_combinedFee _ r⟩
    · intro r' hr'
      obtain ⟨r, hr, rfl⟩ := mem_map.mp (mem_sortCoins.mp hr')
      exact ⟨r, hr, (combinedFee_denom _ r).symm, le_combinedFee _ r⟩
    · refine (denoms_sortCoins _).trans ?_
      rw [map_map]
      exact List.Perm.of_eq (map_congr_left fun r _ => combinedFee_denom _ r)

lemma validateDecCoinsFrom_ok {lowDenom : Option Denom} {seenDenoms : List Denom}
    {coins : List DecCoin} {u : Unit}
    (h : validateDecCoinsFrom sdk lowDenom seenDenoms coins = .ok u) :
    (coins.map (·.denom)).Nodup ∧ ∀ c ∈ coins, c.denom ∉ seenDenoms := by
  induction coins generalizing lowDenom seenDenoms with
  | nil => simp
  | cons coin coins ih =>
    obtain ⟨_, _, hseen, -, h⟩ := bind2_ok h
    obtain ⟨_, _, -, -, h⟩ := bind2_ok h
    obtain ⟨hnodup, hrest⟩ := ih h
    rw [map_cons, nodup_cons, forall_mem_cons]
    refine ⟨⟨?_, hnodup⟩, of_decide_eq_true (ensure_ok hseen), ?_⟩
    · intro hmem
      obtain ⟨c, hc, hd⟩ := mem_map.mp hmem
      exact hrest c hc (hd ▸ mem_cons_self)
    · exact fun c hc hmem => hrest c hc (mem_cons_of_mem _ hmem)

lemma getGlobalFee_ok (hparams : params.validateBasic sdk = .ok ())
    (h : getGlobalFee sdk math params gas = .ok R) :
    (R.map (·.denom)).Nodup ∧ ∀ r ∈ R, 0 ≤ r.amount := by
  obtain ⟨hperm, hnonneg⟩ := requiredFees_ok h
  refine ⟨hperm.nodup_iff.mpr ?_, hnonneg⟩
  split
  · exact nodup_singleton _
  · obtain ⟨_, hprices, -⟩ := bind_ok hparams
    exact (validateDecCoinsFrom_ok hprices).1

variable {minGasPrices : List DecCoin}

lemma anteHandle_block (hR : getGlobalFee sdk math params tx.gas = .ok R) :
    anteHandle sdk math ⟨false, minGasPrices⟩ params tx false = checkFee sdk params tx R := by
  rw [anteHandle, getTxFeeRequired, hR]
  rfl

lemma anteHandle_mempool (hparams : params.validateBasic sdk = .ok ())
    (h : anteHandle sdk math ⟨true, minGasPrices⟩ params tx false = .ok ()) :
    ∃ R R', getGlobalFee sdk math params tx.gas = .ok R ∧ checkFee sdk params tx R' = .ok ()
      ∧ (R.map (·.denom)).Nodup ∧ (R'.map (·.denom)).Nodup ∧ AtLeast R R' := by
  obtain ⟨R', hR', h⟩ := bind_ok h
  obtain ⟨R, localFees, hR, -, hR'⟩ := bind2_ok hR'
  obtain ⟨hnodup, hnonneg⟩ := getGlobalFee_ok hparams hR
  obtain ⟨hatLeast, hperm⟩ := combinedFeeRequirement_ok hnonneg hR'
  exact ⟨R, R', hR, h, hnodup, hperm.nodup_iff.mpr hnodup, hatLeast⟩

/-- **A fee that is accepted in the mempool** is accepted in a block, unless it has more coins in
the denominations in which something is required than there are such denominations. -/
lemma accepted_in_block_iff
    (hparams : params.validateBasic sdk = .ok ()) (hR : getGlobalFee sdk math params tx.gas = .ok R)
    (h : anteHandle sdk math ⟨true, minGasPrices⟩ params tx false = .ok ()) :
    anteHandle sdk math ⟨false, minGasPrices⟩ params tx false = .ok ()
      ↔ (tx.fee.filter fun c => c.denom ∉ zeroDenoms R).length
        ≤ (R.filter fun r => r.amount ≠ 0).length := by
  obtain ⟨R₀, R', hR₀, h, hnodup, hnodup', hatLeast⟩ := anteHandle_mempool hparams h
  obtain rfl : R₀ = R := Except.ok.inj (hR₀.symm.trans hR)
  obtain ⟨hcovered, henough⟩ := (checkFee_iff hnodup').mp h
  rw [anteHandle_block hR, checkFee_iff hnodup, hatLeast.covered_iff hcovered,
    and_iff_left (henough.imp_right hatLeast.enough)]

variable {ctx : Ctx}

/-- What is required, in the mempool or in a block, is one coin for every denomination. -/
lemma getTxFeeRequired_nodup (hparams : params.validateBasic sdk = .ok ())
    (h : getTxFeeRequired sdk math ctx params gas = .ok R) : (R.map (·.denom)).Nodup := by
  obtain ⟨R₀, hR₀, h⟩ := bind_ok h
  obtain ⟨hnodup, hnonneg⟩ := getGlobalFee_ok hparams hR₀
  split at h
  · obtain ⟨localFees, -, h⟩ := bind_ok h
    exact (combinedFeeRequirement_ok hnonneg h).2.nodup_iff.mpr hnodup
  · cases h
    exact hnodup

/-- **Higher fees are accepted.** -/
lemma anteHandle_raised {simulate : Bool} (hparams : params.validateBasic sdk = .ok ())
    (hraised : Raised tx.fee fee') (h : anteHandle sdk math ctx params tx simulate = .ok ()) :
    anteHandle sdk math ctx params { tx with fee := fee' } simulate = .ok () := by
  cases simulate with
  | true => rfl
  | false =>
    obtain ⟨R, hR, h⟩ := bind_ok h
    have hnodup := getTxFeeRequired_nodup hparams hR
    obtain ⟨hcovered, henough⟩ := (checkFee_iff hnodup).mp h
    have hcheck : checkFee sdk params { tx with fee := fee' } R = .ok () := by
      refine (checkFee_iff hnodup).mpr ⟨hraised.covered hcovered, ?_⟩
      rcases henough with hbypass | henough
      · exact .inl hbypass
      · exact .inr (hraised.enough henough)
    show (getTxFeeRequired sdk math ctx params tx.gas >>= _) = _
    rw [hR, ok_bind]
    exact hcheck

/-- **The mempool and blocks.**  With parameters that can be set, whatever the local prices are, a
transaction with one fee coin for every denomination that is accepted in the mempool is accepted in
a block; and a transaction that is accepted is accepted with higher fees. -/
theorem mempool_implies_block (sdk : Sdk) (math : Math) (params : Params)
    (hparams : params.validateBasic sdk = .ok ()) (minGasPrices : List DecCoin) (tx : FeeTx)
    (simulate : Bool) :
    ((tx.fee.map (·.denom)).Nodup →
      anteHandle sdk math ⟨true, minGasPrices⟩ params tx simulate = .ok () →
      anteHandle sdk math ⟨false, minGasPrices⟩ params tx simulate = .ok ())
    ∧ ∀ isCheckTx fee', Raised tx.fee fee' →
      anteHandle sdk math ⟨isCheckTx, minGasPrices⟩ params tx simulate = .ok () →
      anteHandle sdk math ⟨isCheckTx, minGasPrices⟩ params { tx with fee := fee' } simulate
        = .ok () := by
  refine ⟨?_, fun _ _ hraised h => anteHandle_raised hparams hraised h⟩
  intro hfee h
  cases simulate with
  | true => rfl
  | false =>
    obtain ⟨R, R', hR, h', hnodup, hnodup', hatLeast⟩ := anteHandle_mempool hparams h
    refine (accepted_in_block_iff hparams hR h).mpr (nonZero_le_of_nodup hfee ?_)
    intro c hc
    obtain ⟨r', hr', hd'⟩ := ((checkFee_iff hnodup').mp h').1.exists_denom hc
    obtain ⟨r, hr, hd, -⟩ := hatLeast.down r' hr'
    exact ⟨r, hr, hd.trans hd'⟩

/-- Nothing for `aaa`, and 5 for `bbb`. -/
def demoParams : Params := ⟨[⟨ascii "aaa", Dec.zero⟩, ⟨ascii "bbb", Dec.ofInt 5⟩], [], 0⟩

/-- A node that wants 1 for `aaa`. -/
def demoPrices : List DecCoin := [⟨ascii "aaa", Dec.one⟩]

def demoTx (fee : Coins) : FeeTx := ⟨fee, 1, [ascii "/cosmos.bank.v1beta1.MsgSend"]⟩

theorem mempool_implies_block_demoTx :
    anteHandle chainSdk chainMath ⟨false, demoPrices⟩ demoParams (demoTx [⟨ascii "bbb", 5⟩]) false
        = .ok ()
      ∧ anteHandle chainSdk chainMath ⟨true, demoPrices⟩ demoParams (demoTx [⟨ascii "bbb", 7⟩]) false
        = .ok () := by
  have hboth := mempool_implies_block chainSdk chainMath demoParams (by decide +kernel) demoPrices
    (demoTx [⟨ascii "bbb", 5⟩]) false
  refine ⟨hboth.1 (by decide) (by decide +kernel), hboth.2 true [⟨ascii "bbb", 7⟩] ?_ (by decide +kernel)⟩
  exact List.Forall₂.cons ⟨rfl, by decide⟩ List.Forall₂.nil

/-- A fee with two coins of `bbb` is accepted in the mempool, where there are two requirements,
and not in a block, where there is one. -/
theorem two_coins_of_one_kind :
    anteHandle chainSdk chainMath ⟨true, demoPrices⟩ demoParams
        (demoTx [⟨ascii "bbb", 5⟩, ⟨ascii "bbb", 5⟩]) false = .ok ()
      ∧ anteHandle chainSdk chainMath ⟨false, demoPrices⟩ demoParams
        (demoTx [⟨ascii "bbb", 5⟩, ⟨ascii "bbb", 5⟩]) false ≠ .ok () := by
  decide +kernel

end MaanyDex.GlobalFee
