/-
The three comparisons up to a tolerance of `osmomath/binary_search.go`, side by side.

On integers, all of them answer by the same decision tree: the direction of rounding and the
additive tolerance come first (`settled`), and then the multiplicative tolerance, if any, is
compared with a quotient.  They differ in three places:

* `Compare` has no sign for equal numbers: zero is off from zero by a negative amount;
* `CompareBigDec` has a quotient of 36 digits, the others of 18;
* `Compare` subtracts before it looks at the direction, and the difference may be too large.

They agree if and only if none of these plays a role (`comparisons_agree_iff`).
-/
import MaanyDex.Osmomath.BinarySearch

namespace MaanyDex.Osmomath

open FixedPoint

variable {math : Math} {a b : ℤ}

namespace ErrTolerance

variable (e : ErrTolerance)

/-! ### The decision tree -/

/-- The answer, if the direction of rounding or the additive tolerance gives one. -/
def settled (a b : ℤ) : Option Ordering :=
  match wrongSide e.roundingDir (a < b) (b < a) with
  | some o => some o
  | none =>
    match e.additiveTolerance with
    | none => none
    | some tol =>
      if tol.isZero ∧ a = b then some .eq
      else if tol.raw < |a - b| * Dec.unit then some (if b < a then .gt else .lt)
      else none

/-- The answer of the multiplicative tolerance, with a given sign for what is off by too much,
and a test for that. -/
def byRatio (a b : ℤ) (sign : Ordering) (exceeds : Dec → Prop) [DecidablePred exceeds] : Ordering :=
  match e.multiplicativeTolerance with
  | none => .eq
  | some tol =>
    if tol.isZero then .eq
    else if min |a| |b| = 0 then sign
    else if exceeds tol then sign else .eq

/-- The whole answer. -/
def answer (a b : ℤ) (sign : Ordering) (exceeds : Dec → Prop) [DecidablePred exceeds] : Ordering :=
  (e.settled a b).getD (e.byRatio a b sign exceeds)

structure Nonneg : Prop where
  additive : ∀ tol, e.additiveTolerance = some tol → 0 ≤ tol.raw
  multiplicative : ∀ tol, e.multiplicativeTolerance = some tol → 0 ≤ tol.raw

variable {e}

lemma min_abs_pos (h : min |a| |b| ≠ 0) : 0 < min |a| |b| :=
  lt_of_le_of_ne (le_min (abs_nonneg a) (abs_nonneg b)) h.symm

def sign (a b : ℤ) : Ordering := if b < a then .gt else if a < b then .lt else .eq

variable {exceeds : Dec → Prop}

/-- What the three checks of the multiplicative tolerance have in common; they differ in their
quotients. -/
lemma ratio_eq {α : Type} {s : Ordering} {zero : Prop} [Decidable zero] {quotient : Result α}
    {r : α} {above : Dec → α → Prop} [∀ tol r, Decidable (above tol r)]
    [DecidablePred exceeds] (hzero : zero ↔ min |a| |b| = 0)
    (hquotient : min |a| |b| ≠ 0 → quotient = .ok r)
    (habove : min |a| |b| ≠ 0 → ∀ tol, e.multiplicativeTolerance = some tol →
      (above tol r ↔ exceeds tol)) :
    (match e.multiplicativeTolerance with
      | some tol =>
        if tol.isZero then .ok .eq
        else if zero then .ok s
        else quotient >>= fun r => .ok (if above tol r then s else .eq)
      | none => .ok .eq)
      = Except.ok (e.byRatio a b s exceeds) := by
  unfold byRatio
  rcases htol : e.multiplicativeTolerance with - | tol
  · rfl
  · dsimp only
    by_cases hnil : tol.isZero = true
    · rw [if_pos hnil, if_pos hnil]
    · rw [if_neg hnil, if_neg hnil]
      by_cases hmin : min |a| |b| = 0
      · rw [if_pos hmin, if_pos (hzero.mpr hmin)]
      · rw [if_neg hmin, if_neg (mt hzero.mp hmin), hquotient hmin, Run.ok_bind]
        simp only [habove hmin tol htol]

lemma tree_eq {s : Ordering} {equal : Prop} [Decidable equal]
    {off : Dec → Prop} [DecidablePred off] {ratio : Result Ordering}
    [DecidablePred exceeds] (hequal : equal ↔ a = b)
    (hoff : ∀ tol, off tol ↔ tol.raw < |a - b| * Dec.unit)
    (hsign : ∀ tol, e.additiveTolerance = some tol → tol.raw < |a - b| * Dec.unit →
      s = if b < a then .gt else .lt)
    (hratio : ratio = .ok (e.byRatio a b s exceeds)) :
    (match wrongSide e.roundingDir (a < b) (b < a) with
      | some o => .ok o
      | none =>
        match e.additiveTolerance with
        | some tol =>
          if tol.isZero ∧ equal then .ok .eq
          else if off tol then .ok s
          else ratio
        | none => ratio)
      = Except.ok (e.answer a b s exceeds) := by
  unfold answer settled
  rcases wrongSide e.roundingDir (decide (a < b)) (decide (b < a)) with - | o
  · rcases htol : e.additiveTolerance with - | tol
    · exact hratio
    · dsimp only
      simp only [hequal, hoff]
      by_cases hzero : tol.isZero = true ∧ a = b
      · rw [if_pos hzero, if_pos hzero]
        rfl
      · rw [if_neg hzero, if_neg hzero]
        by_cases htoo : tol.raw < |a - b| * Dec.unit
        · rw [if_pos htoo, if_pos htoo, hsign tol htol htoo]
          rfl
        · rw [if_neg htoo, if_neg htoo]
          exact hratio
  · rfl

/-! ### With 18 digits -/

lemma sub_ofInt (hfits : |a - b| * Dec.unit < 2 ^ math.maxDecBitLen) :
    Dec.sub math (Dec.ofInt a) (Dec.ofInt b) = .ok ⟨(a - b) * Dec.unit⟩ := by
  have hraw : a * Dec.unit - b * Dec.unit = (a - b) * Dec.unit := by ring
  show Dec.checked math (a * Dec.unit - b * Dec.unit) = _
  rw [hraw]
  apply if_pos
  zify
  rwa [abs_mul, Nat.abs_cast]

lemma abs_ofInt (a : ℤ) : Dec.abs ⟨a * Dec.unit⟩ = ⟨|a| * Dec.unit⟩ := by
  rw [Dec.abs, abs_mul, Nat.abs_cast]

variable {D m : ℤ}

lemma natAbs_quo_lt {p B : ℕ} (hp : 0 < p) (hD : 0 ≤ D) (hm : 0 < m) (hfits : D * p < B) :
    (quo p (D * p) (m * p)).natAbs < B := by
  have hu : (0 : ℤ) < p := by exact_mod_cast hp
  have hle : quo p (D * p) (m * p) ≤ D * p :=
    quo_le_of_unit_le hp (mul_nonneg hD hu.le) (le_mul_of_one_le_left hu.le hm)
  have hnonneg : 0 ≤ quo p (D * p) (m * p) :=
    quo_nonneg (mul_nonneg hD hu.le) (mul_nonneg hm.le hu.le)
  zify
  rw [abs_of_nonneg hnonneg]
  exact hle.trans_lt hfits

lemma quo_ofInt (hD : 0 ≤ D) (hm : 0 < m) (hfits : D * Dec.unit < 2 ^ math.maxDecBitLen) :
    Dec.quo math ⟨D * Dec.unit⟩ (Dec.ofInt m) = .ok ⟨quo Dec.unit (D * Dec.unit) (m * Dec.unit)⟩ := by
  have hne : (Dec.ofInt m).raw ≠ 0 := mul_ne_zero hm.ne' (by decide)
  rw [Dec.quo, if_neg hne]
  exact if_pos (natAbs_quo_lt Dec.unit_pos hD hm (by exact_mod_cast hfits))

/-- The tolerance as it is compared with quotients of 18 digits. -/
def exceeds18 (a b : ℤ) (tol : Dec) : Prop :=
  FixedPoint.Exceeds Dec.unit tol.raw |a - b| (min |a| |b|)

instance (tol : Dec) : Decidable (exceeds18 a b tol) := inferInstanceAs (Decidable (_ ≤ _))

lemma lt_quo_iff_exceeds18 (hmin : min |a| |b| ≠ 0) (tol : Dec) :
    tol < ⟨quo Dec.unit (|a - b| * Dec.unit) (min |a| |b| * Dec.unit)⟩ ↔ exceeds18 a b tol :=
  lt_quo_iff (by decide) (by decide) (abs_nonneg _) (min_abs_pos hmin)

lemma compare_eq (hfits : |a - b| * Dec.unit < 2 ^ math.maxDecBitLen) :
    e.compare math a b = .ok (e.answer a b (if b < a then .gt else .lt) (exceeds18 a b)) := by
  unfold compare
  rw [sub_ofInt hfits, Run.ok_bind]
  dsimp only
  rw [abs_ofInt]
  refine tree_eq Iff.rfl (fun tol => Iff.rfl) (fun _ _ _ => rfl) ?_
  exact ratio_eq Iff.rfl (fun hmin => quo_ofInt (abs_nonneg _) (min_abs_pos hmin) hfits)
    (fun hmin tol _ => lt_quo_iff_exceeds18 hmin tol)

lemma compare_eq_error (hfits : ¬|a - b| * Dec.unit < 2 ^ math.maxDecBitLen) :
    e.compare math a b = .error (.panic "Int overflow") := by
  have hraw : a * Dec.unit - b * Dec.unit = (a - b) * Dec.unit := by ring
  have hsub : Dec.sub math (Dec.ofInt a) (Dec.ofInt b) = .error (.panic "Int overflow") := by
    show Dec.checked math (a * Dec.unit - b * Dec.unit) = _
    rw [hraw]
    apply if_neg
    zify
    rwa [abs_mul, Nat.abs_cast]
  unfold compare
  rw [hsub, Run.error_bind]

lemma sign_of_ne (h : a ≠ b) : sign a b = if b < a then .gt else .lt := by
  unfold sign
  split_ifs <;> first | rfl | omega

lemma sign_of_off (he : e.Nonneg) (tol : Dec) (htol : e.additiveTolerance = some tol)
    (hoff : tol.raw < |a - b| * Dec.unit) : sign a b = if b < a then .gt else .lt := by
  apply sign_of_ne
  rintro rfl
  have := he.additive tol htol
  rw [sub_self, abs_zero, zero_mul] at hoff
  omega

lemma ofInt_lt_iff : Dec.ofInt a < Dec.ofInt b ↔ a < b :=
  Int.mul_lt_mul_right (show (0 : ℤ) < Dec.unit by decide)

lemma ofInt_eq_iff : Dec.ofInt a = Dec.ofInt b ↔ a = b := by
  have hu : (Dec.unit : ℤ) ≠ 0 := by decide
  rw [Dec.ext_iff]
  exact mul_left_inj' hu

lemma minDec_ofInt : (if (Dec.ofInt a).abs < (Dec.ofInt b).abs then (Dec.ofInt a).abs
    else (Dec.ofInt b).abs) = Dec.ofInt (min |a| |b|) := by
  have ha : (Dec.ofInt a).abs = Dec.ofInt |a| := abs_ofInt a
  have hb : (Dec.ofInt b).abs = Dec.ofInt |b| := abs_ofInt b
  rw [ha, hb]
  simp only [ofInt_lt_iff]
  split
  · rw [min_eq_left (by omega)]
  · rw [min_eq_right (by omega)]

lemma compareDec_eq (he : e.Nonneg) (hfits : |a - b| * Dec.unit < 2 ^ math.maxDecBitLen) :
    e.compareDec math (Dec.ofInt a) (Dec.ofInt b)
      = .ok (e.answer a b (sign a b) (exceeds18 a b)) := by
  unfold compareDec
  rw [sub_ofInt hfits]
  simp only [Run.ok_bind, ofInt_lt_iff, abs_ofInt]
  refine tree_eq ofInt_eq_iff (fun tol => Iff.rfl) (sign_of_off he) ?_
  unfold compareDec.multiplicative
  rw [minDec_ofInt]
  refine ratio_eq ?_ (fun hmin => quo_ofInt (abs_nonneg _) (min_abs_pos hmin) hfits)
    (fun hmin tol _ => lt_quo_iff_exceeds18 hmin tol)
  simp [Dec.isZero, Dec.ofInt, Dec.unit]

/-! ### With 36 digits -/

lemma bigDec_unit_pos : 0 < BigDec.unit := by decide

lemma bigDec_unit_eq : (BigDec.unit : ℤ) = Dec.unit * BigDec.unitDiff := by decide

lemma abs_sub_mul_unit_lt (ha : |a| < 2 ^ 256) (hb : |b| < 2 ^ 256) :
    |a - b| * BigDec.unit < 2 ^ BigDec.maxDecBitLen := by
  have hsub : |a - b| ≤ 2 ^ 257 := by
    have := abs_sub a b
    omega
  calc |a - b| * BigDec.unit ≤ 2 ^ 257 * BigDec.unit := by gcongr
    _ < 2 ^ BigDec.maxDecBitLen := by decide +kernel

lemma bigDec_sub_ofInt (hfits : |a - b| * BigDec.unit < 2 ^ BigDec.maxDecBitLen) :
    (BigDec.ofInt a).sub (BigDec.ofInt b) = .ok ⟨(a - b) * BigDec.unit⟩ := by
  have hraw : a * BigDec.unit - b * BigDec.unit = (a - b) * BigDec.unit := by ring
  show BigDec.checked (a * BigDec.unit - b * BigDec.unit) = _
  rw [hraw]
  apply if_pos
  zify
  rwa [abs_mul, Nat.abs_cast]

lemma bigDec_abs_ofInt (a : ℤ) : BigDec.abs ⟨a * BigDec.unit⟩ = ⟨|a| * BigDec.unit⟩ := by
  rw [BigDec.abs, abs_mul, Nat.abs_cast]

lemma bigDec_quo_ofInt (hD : 0 ≤ D) (hm : 0 < m)
    (hfits : D * BigDec.unit < 2 ^ BigDec.maxDecBitLen) :
    BigDec.quo ⟨D * BigDec.unit⟩ (BigDec.ofInt m)
      = .ok ⟨quo BigDec.unit (D * BigDec.unit) (m * BigDec.unit)⟩ := by
  have hne : (BigDec.ofInt m).raw ≠ 0 := mul_ne_zero hm.ne' (by decide)
  rw [BigDec.quo, if_neg hne]
  exact if_pos (natAbs_quo_lt bigDec_unit_pos hD hm (by exact_mod_cast hfits))

lemma bigDec_ofInt_lt_iff : BigDec.ofInt a < BigDec.ofInt b ↔ a < b :=
  Int.mul_lt_mul_right (show (0 : ℤ) < BigDec.unit by decide)

lemma bigDec_ofInt_eq_iff : BigDec.ofInt a = BigDec.ofInt b ↔ a = b := by
  have hu : (BigDec.unit : ℤ) ≠ 0 := by decide
  rw [BigDec.ext_iff]
  exact mul_left_inj' hu

lemma minBigDec_ofInt :
    BigDec.min (BigDec.ofInt a).abs (BigDec.ofInt b).abs = BigDec.ofInt (min |a| |b|) := by
  have ha : (BigDec.ofInt a).abs = BigDec.ofInt |a| := bigDec_abs_ofInt a
  have hb : (BigDec.ofInt b).abs = BigDec.ofInt |b| := bigDec_abs_ofInt b
  rw [ha, hb, BigDec.min]
  simp only [bigDec_ofInt_lt_iff]
  split
  · rw [min_eq_left (by omega)]
  · rw [min_eq_right (by omega)]

/-- The tolerance as it is compared with quotients of 36 digits. -/
def exceeds36 (a b : ℤ) (tol : Dec) : Prop :=
  FixedPoint.Exceeds BigDec.unit (tol.raw * BigDec.unitDiff) |a - b| (min |a| |b|)

instance (tol : Dec) : Decidable (exceeds36 a b tol) := inferInstanceAs (Decidable (_ ≤ _))

lemma compareBigDec_eq (he : e.Nonneg) (ha : |a| < 2 ^ 256) (hb : |b| < 2 ^ 256) :
    e.compareBigDec (BigDec.ofInt a) (BigDec.ofInt b)
      = .ok (e.answer a b (sign a b) (exceeds36 a b)) := by
  have hfits := abs_sub_mul_unit_lt ha hb
  have hdiff : (0 : ℤ) < BigDec.unitDiff := by decide
  unfold compareBigDec
  rw [bigDec_sub_ofInt hfits]
  simp only [Run.ok_bind, bigDec_ofInt_lt_iff, bigDec_abs_ofInt]
  refine tree_eq bigDec_ofInt_eq_iff (fun tol => ?_) (sign_of_off he) ?_
  · show tol.raw * BigDec.unitDiff < |a - b| * BigDec.unit ↔ _
    rw [bigDec_unit_eq, ← mul_assoc]
    exact Int.mul_lt_mul_right hdiff
  · unfold compareBigDec.multiplicative
    rw [minBigDec_ofInt]
    refine ratio_eq ?_ (fun hmin => bigDec_quo_ofInt (abs_nonneg _) (min_abs_pos hmin) hfits) ?_
    · simp [BigDec.isZero, BigDec.ofInt, BigDec.unit]
    · intro hmin tol _
      exact lt_quo_iff (by decide) (by decide) (abs_nonneg _) (min_abs_pos hmin)

/-! ### Agreement -/

variable {tol : Dec}

lemma not_exceeds18_self (htol : 0 ≤ tol.raw) (hmin : min |a| |a| ≠ 0) : ¬exceeds18 a a tol := by
  rw [exceeds18, sub_self, abs_zero]
  exact not_exceeds_zero (by decide) htol (min_abs_pos hmin)

lemma not_exceeds36_self (htol : 0 ≤ tol.raw) (hmin : min |a| |a| ≠ 0) : ¬exceeds36 a a tol := by
  rw [exceeds36, sub_self, abs_zero]
  exact not_exceeds_zero (by decide) (Int.mul_nonneg htol (by decide)) (min_abs_pos hmin)

lemma settled_self (he : e.Nonneg) : e.settled a a = none ∨ e.settled a a = some .eq := by
  have hside : wrongSide e.roundingDir (decide (a < a)) (decide (a < a)) = none := by
    simp [wrongSide]
  unfold settled
  rw [hside]
  rcases htol : e.additiveTolerance with - | tol
  · exact .inl rfl
  · dsimp only
    split
    · exact .inr rfl
    · rw [if_neg]
      · exact .inl rfl
      · have := he.additive tol htol
        rw [sub_self, abs_zero, zero_mul]
        omega

section Answer

variable {s s' : Ordering} {p q : Dec → Prop} [DecidablePred p] [DecidablePred q]

/-- Two answers that agree wherever the multiplicative tolerance decides. -/
lemma answer_congr (h : e.settled a b = none → ∀ tol, e.multiplicativeTolerance = some tol →
    tol.isZero = false → (min |a| |b| = 0 → s = s')
      ∧ (min |a| |b| ≠ 0 → (if p tol then s else .eq) = if q tol then s' else .eq)) :
    e.answer a b s p = e.answer a b s' q := by
  unfold answer
  rcases hset : e.settled a b with - | o
  · show e.byRatio a b s p = e.byRatio a b s' q
    unfold byRatio
    rcases htol : e.multiplicativeTolerance with - | tol
    · rfl
    · dsimp only
      by_cases hzero : tol.isZero = true
      · rw [if_pos hzero, if_pos hzero]
      · obtain ⟨hsame, hratio⟩ := h hset tol htol (by simpa using hzero)
        rw [if_neg hzero, if_neg hzero]
        by_cases hmin : min |a| |b| = 0
        · rw [if_pos hmin, if_pos hmin, hsame hmin]
        · rw [if_neg hmin, if_neg hmin, hratio hmin]
  · rfl

lemma answer_of_ratio (hset : e.settled a b = none)
    (htol : e.multiplicativeTolerance = some tol) (hzero : tol.isZero = false) :
    e.answer a b s p = if min |a| |b| = 0 then s else if p tol then s else .eq := by
  unfold answer byRatio
  rw [hset, htol]
  simp [hzero]

end Answer

lemma answer_self (he : e.Nonneg) : e.answer a a (sign a a) (exceeds18 a a) = .eq := by
  have hsign : sign a a = .eq := by simp [sign]
  rcases settled_self (a := a) he with hset | hset
  · unfold answer byRatio
    rw [hset, hsign]
    rcases e.multiplicativeTolerance with - | tol
    · rfl
    · simp
  · unfold answer
    rw [hset]
    rfl

/-- **The comparisons agree** if and only if the difference is not too large and, where the
multiplicative tolerance decides, the numbers are not both zero and 18 digits of their quotient
say the same as 36. -/
theorem comparisons_agree_iff (e : ErrTolerance) (he : e.Nonneg) (a b : ℤ) (ha : |a| < 2 ^ 256)
    (hb : |b| < 2 ^ 256) :
    (∃ o, e.compare math a b = .ok o ∧ e.compareDec math (Dec.ofInt a) (Dec.ofInt b) = .ok o
        ∧ e.compareBigDec (BigDec.ofInt a) (BigDec.ofInt b) = .ok o ∧ (a = b → o = .eq))
      ↔ |a - b| * Dec.unit < 2 ^ math.maxDecBitLen
        ∧ (e.settled a b = none → ∀ tol, e.multiplicativeTolerance = some tol →
            tol.isZero = false → ¬(a = 0 ∧ b = 0)
              ∧ (min |a| |b| ≠ 0 → (exceeds18 a b tol ↔ exceeds36 a b tol))) := by
  have hcmp : a ≠ b → (if b < a then Ordering.gt else .lt) ≠ .eq := by
    intro _
    split <;> simp
  constructor
  · rintro ⟨o, hc, hd, hbig, heq⟩
    have hfits : |a - b| * Dec.unit < 2 ^ math.maxDecBitLen := by
      by_contra hno
      rw [compare_eq_error hno] at hc
      cases hc
    rw [compare_eq hfits] at hc
    rw [compareBigDec_eq he ha hb] at hbig
    refine ⟨hfits, fun hset tol htol hzero => ⟨?_, fun hmin => ?_⟩⟩
    · -- zero is off from zero for `Compare`
      rintro ⟨rfl, rfl⟩
      rw [answer_of_ratio hset htol hzero] at hc
      cases hc
      exact absurd (heq rfl) (by simp)
    · rw [answer_of_ratio hset htol hzero, if_neg hmin] at hc hbig
      by_cases hab : a = b
      · subst hab
        have htol' := he.multiplicative tol htol
        exact iff_of_false (not_exceeds18_self htol' hmin) (not_exceeds36_self htol' hmin)
      · rw [sign_of_ne hab] at hbig
        have hsame := Except.ok.inj (hc.trans hbig.symm)
        have hne := hcmp hab
        by_cases h18 : exceeds18 a b tol
        · by_cases h36 : exceeds36 a b tol
          · exact iff_of_true h18 h36
          · rw [if_pos h18, if_neg h36] at hsame
            exact absurd hsame hne
        · by_cases h36 : exceeds36 a b tol
          · rw [if_neg h18, if_pos h36] at hsame
            exact absurd hsame.symm hne
          · exact iff_of_false h18 h36
  · rintro ⟨hfits, h⟩
    refine ⟨_, ?_, compareDec_eq he hfits, ?_, ?_⟩
    · rw [compare_eq hfits]
      refine congrArg Except.ok (answer_congr fun hset tol htol hzero => ?_)
      obtain ⟨hnot, -⟩ := h hset tol htol hzero
      by_cases hab : a = b
      · subst hab
        refine ⟨fun hmin => ?_, fun hmin => ?_⟩
        · rw [min_self, abs_eq_zero] at hmin
          exact absurd ⟨hmin, hmin⟩ hnot
        · have hno := not_exceeds18_self (he.multiplicative tol htol) hmin
          rw [if_neg hno, if_neg hno]
      · rw [sign_of_ne hab]
        exact ⟨fun _ => rfl, fun _ => rfl⟩
    · rw [compareBigDec_eq he ha hb]
      refine congrArg Except.ok (answer_congr fun hset tol htol hzero => ⟨fun _ => rfl, fun hmin => ?_⟩)
      simp only [(h hset tol htol hzero).2 hmin]
    · rintro rfl
      exact answer_self he

/-- A multiplicative tolerance of any direction. -/
def upTo (raw : ℤ) : ErrTolerance := ⟨none, some ⟨raw⟩, .unconstrained⟩

/-- Ten and eleven are within a tenth. -/
theorem comparisons_agree_tenth :
    ∃ o, (upTo (10 ^ 17)).compare chainMath 10 11 = .ok o
      ∧ (upTo (10 ^ 17)).compareDec chainMath (Dec.ofInt 10) (Dec.ofInt 11) = .ok o
      ∧ (upTo (10 ^ 17)).compareBigDec (BigDec.ofInt 10) (BigDec.ofInt 11) = .ok o
      ∧ ((10 : ℤ) = 11 → o = .eq) := by
  have he : (upTo (10 ^ 17)).Nonneg := by
    constructor
    · rintro tol ⟨⟩
    · rintro tol ⟨⟩
      decide
  refine (comparisons_agree_iff _ he 10 11 (by decide) (by decide)).mpr ⟨by decide +kernel, ?_⟩
  rintro - tol ⟨⟩ -
  exact ⟨by decide, fun _ => by decide +kernel⟩

/-- Zero and zero; four and three up to a third, which 18 digits do not tell from the tolerance
and 36 do; and numbers that are too far apart. -/
theorem comparisons_differ :
    ((upTo (10 ^ 18)).compare chainMath 0 0 = .ok .lt
      ∧ (upTo (10 ^ 18)).compareDec chainMath (Dec.ofInt 0) (Dec.ofInt 0) = .ok .eq
      ∧ (upTo (10 ^ 18)).compareBigDec (BigDec.ofInt 0) (BigDec.ofInt 0) = .ok .eq)
    ∧ ((upTo 333333333333333333).compare chainMath 4 3 = .ok .eq
      ∧ (upTo 333333333333333333).compareBigDec (BigDec.ofInt 4) (BigDec.ofInt 3) = .ok .gt)
    ∧ (ErrTolerance.mk none none .down).compare chainMath (-2 ^ 255) (2 ^ 255)
        = .error (.panic "Int overflow")
      ∧ (ErrTolerance.mk none none .down).compareDec chainMath (Dec.ofInt (-2 ^ 255))
        (Dec.ofInt (2 ^ 255)) = .ok .lt := by
  decide +kernel

end ErrTolerance

end MaanyDex.Osmomath
