/-
Which quotients of `BigDec` are rounded up.

`QuoRem` truncates towards zero, so its remainder has the sign of the dividend.  The quotient has
to be corrected when the exact one is positive and there is a remainder.  `QuoRoundUp` and
`QuoByDecRoundUp` correct for a positive remainder, `QuoRoundUpMut` and `DecRoundUp` (through
`incBasedOnRem`) for any remainder:

    dividend, divisor   exact quotient   `QuoRoundUp`    `QuoRoundUpMut`
    +, +                positive         rounds up       rounds up
    +, -                negative         one too large   one too large
    -, +                negative         rounds up       one too large
    -, -                positive         one too small   rounds up

`quo_round_up_iff` is the table, for every dividend and every divisor that is not zero.
-/
import MaanyDex.Osmomath.BigDec

namespace MaanyDex

open FixedPoint

/-! ### The numbers decimals stand for -/

namespace Dec

/-- The number a decimal with 18 places stands for. -/
def toRat (d : Dec) : ℚ := d.raw / unit

/-- `d` is the least decimal with 18 places that is not below `c`. -/
def RoundsUp (c : ℚ) (d : Dec) : Prop := IsLeast {x : Dec | c ≤ x.toRat} d

lemma roundsUp_iff {c : ℚ} {d : Dec} : RoundsUp c d ↔ d.raw = ⌈c * unit⌉ :=
  isLeast_iff Dec.raw (fun _ _ => Iff.rfl) (fun raw => ⟨⟨raw⟩, rfl⟩) unit_pos

end Dec

namespace Osmomath.BigDec

variable {a b q : BigDec} {d : Dec}

/-- The number a decimal with 36 places stands for. -/
def toRat (a : BigDec) : ℚ := a.raw / unit

/-- `q` is the least decimal with 36 places that is not below `c`. -/
def RoundsUp (c : ℚ) (q : BigDec) : Prop := IsLeast {x : BigDec | c ≤ x.toRat} q

lemma unit_pos : 0 < unit := by norm_num [unit]

lemma roundsUp_iff {c : ℚ} : RoundsUp c q ↔ q.raw = ⌈c * unit⌉ :=
  isLeast_iff BigDec.raw (fun _ _ => Iff.rfl) (fun raw => ⟨⟨raw⟩, rfl⟩) unit_pos

lemma unit_cast_ne_zero : (unit : ℚ) ≠ 0 := by norm_num [unit]

lemma unit_eq : unit = unitDiff * Dec.unit := by norm_num [unit, unitDiff, Dec.unit]

/-- The scaled quotient is the integer quotient that is computed. -/
lemma toRat_div_mul_unit (hb : b.raw ≠ 0) :
    a.toRat / b.toRat * unit = ((a.raw * unit : ℤ) : ℚ) / b.raw := by
  have hb' : (b.raw : ℚ) ≠ 0 := by exact_mod_cast hb
  have hu := unit_cast_ne_zero
  rw [toRat, toRat]
  push_cast
  field_simp

lemma toRat_div_toRat_dec_mul_unit (hd : d.raw ≠ 0) :
    a.toRat / d.toRat * unit = ((a.raw * Dec.unit : ℤ) : ℚ) / d.raw := by
  have hd' : (d.raw : ℚ) ≠ 0 := by exact_mod_cast hd
  have hu := unit_cast_ne_zero
  rw [toRat, Dec.toRat]
  push_cast
  field_simp

lemma toRat_mul_dec_unit : a.toRat * Dec.unit = (a.raw : ℚ) / (unitDiff : ℤ) := by
  have hdiff : (unitDiff : ℚ) ≠ 0 := by norm_num [unitDiff]
  have hdec : (Dec.unit : ℚ) ≠ 0 := by norm_num [Dec.unit]
  rw [toRat, unit_eq]
  push_cast
  field_simp

/-! ### The four functions -/

lemma checked_ok {raw : ℤ} (h : checked raw = .ok q) : q.raw = raw := by
  unfold checked at h
  split at h
  · cases h
    rfl
  · cases h

lemma quoRoundUp_ok (hb : b.raw ≠ 0) (h : quoRoundUp a b = .ok q) :
    q.raw = if 0 < (a.raw * unit).tmod b.raw then (a.raw * unit).tdiv b.raw + 1
      else (a.raw * unit).tdiv b.raw := by
  rw [quoRoundUp, if_neg hb] at h
  exact checked_ok h

lemma quoRoundUpMut_ok (hb : b.raw ≠ 0) (h : quoRoundUpMut a b = .ok q) :
    q.raw = if (a.raw * unit).tmod b.raw = 0 then (a.raw * unit).tdiv b.raw
      else (a.raw * unit).tdiv b.raw + 1 := by
  rw [quoRoundUpMut, if_neg hb] at h
  exact checked_ok h

lemma quoByDecRoundUp_ok (hd : d.raw ≠ 0) (h : quoByDecRoundUp a d = .ok q) :
    q.raw = if 0 < (a.raw * Dec.unit).tmod d.raw then (a.raw * Dec.unit).tdiv d.raw + 1
      else (a.raw * Dec.unit).tdiv d.raw := by
  rw [quoByDecRoundUp, if_neg hd] at h
  exact checked_ok h

lemma mul_unit_mul_nonneg_iff : 0 ≤ a.raw * unit * b.raw ↔ 0 ≤ a.raw * b.raw := by
  have hunit : (0 : ℤ) < unit := by norm_num [unit]
  rw [mul_right_comm]
  exact mul_nonneg_iff_of_pos_right hunit

lemma mul_unit_pos_iff : 0 < a.raw * unit ↔ 0 < a.raw := by
  have hunit : (0 : ℤ) < unit := by norm_num [unit]
  exact mul_pos_iff_of_pos_right hunit

lemma quo_variants_agree_iff {q' : BigDec} (hb : b.raw ≠ 0) (h : quoRoundUp a b = .ok q)
    (h' : quoRoundUpMut a b = .ok q') : q = q' ↔ 0 ≤ a.raw ∨ b.raw ∣ a.raw * unit := by
  have hraw : q = q' ↔ q.raw = q'.raw := BigDec.ext_iff
  rw [hraw, quoRoundUp_ok hb h, quoRoundUpMut_ok hb h']
  simp only [tmod_pos_iff, mul_unit_pos_iff, ← Int.dvd_iff_tmod_eq_zero]
  by_cases hdvd : b.raw ∣ a.raw * unit
  · simp [hdvd]
  · have ha : a.raw ≠ 0 := by
      intro ha
      rw [ha, zero_mul] at hdvd
      exact hdvd (dvd_zero _)
    simp only [hdvd, not_false_eq_true, and_true, or_false, if_false]
    split_ifs <;> omega

/-- What each function returns is the exact value rounded up, if and only if the sign of the
divisor (`QuoRoundUp`, `QuoByDecRoundUp`), of the quotient (`QuoRoundUpMut`) or of the argument
(`DecRoundUp`) is right or nothing is left over. -/
theorem quo_round_up_iff (a b : BigDec) (d : Dec) (hb : b.raw ≠ 0) (hd : d.raw ≠ 0) :
    (∀ q, quoRoundUp a b = .ok q →
        (RoundsUp (a.toRat / b.toRat) q ↔ 0 < b.raw ∨ b.raw ∣ a.raw * unit))
      ∧ (∀ q, quoRoundUpMut a b = .ok q →
          (RoundsUp (a.toRat / b.toRat) q ↔ 0 ≤ a.raw * b.raw ∨ b.raw ∣ a.raw * unit))
      ∧ (∀ q, quoByDecRoundUp a d = .ok q →
          (RoundsUp (a.toRat / d.toRat) q ↔ 0 < d.raw ∨ d.raw ∣ a.raw * Dec.unit))
      ∧ (∀ q q', quoRoundUp a b = .ok q → quoRoundUpMut a b = .ok q' →
          (q = q' ↔ 0 ≤ a.raw ∨ b.raw ∣ a.raw * unit))
      ∧ (Dec.RoundsUp a.toRat a.decRoundUp ↔ 0 ≤ a.raw ∨ (unitDiff : ℤ) ∣ a.raw) := by
  refine ⟨?_, ?_, ?_, ?_, ?_⟩
  · intro q h
    rw [roundsUp_iff, toRat_div_mul_unit hb, quoRoundUp_ok hb h]
    exact inc_of_pos_eq_ceil_iff hb
  · intro q h
    rw [roundsUp_iff, toRat_div_mul_unit hb, quoRoundUpMut_ok hb h, ← mul_unit_mul_nonneg_iff]
    exact inc_of_ne_eq_ceil_iff hb
  · intro q h
    rw [roundsUp_iff, toRat_div_toRat_dec_mul_unit hd, quoByDecRoundUp_ok hd h]
    exact inc_of_pos_eq_ceil_iff hd
  · intro q q' h h'
    exact quo_variants_agree_iff hb h h'
  · have hdiff : (0 : ℤ) < unitDiff := by norm_num [unitDiff]
    rw [Dec.roundsUp_iff, toRat_mul_dec_unit, ← mul_nonneg_iff_of_pos_right hdiff]
    exact inc_of_ne_eq_ceil_iff hdiff.ne'

/-- A third is rounded up, by both variants. -/
theorem quo_round_up_third :
    quoRoundUp (ofInt 1) (ofInt 3) = quoRoundUpMut (ofInt 1) (ofInt 3)
      ∧ ∃ q, quoRoundUp (ofInt 1) (ofInt 3) = .ok q
        ∧ RoundsUp ((ofInt 1).toRat / (ofInt 3).toRat) q := by
  have h : quoRoundUp (ofInt 1) (ofInt 3) = .ok ⟨333333333333333333333333333333333334⟩ := by
    decide +kernel
  refine ⟨by decide +kernel, _, h, ?_⟩
  have hthree := quo_round_up_iff (ofInt 1) (ofInt 3) (Dec.ofInt 3) (by decide) (by decide)
  exact (hthree.1 _ h).mpr (.inl (by decide))

/-- The quotient of two negative numbers is rounded down by `QuoRoundUp`; one of a positive and a
negative number is one too large in one of the variants. -/
theorem negative_quotients :
    quoRoundUp (ofInt (-1)) (ofInt (-3)) = .ok ⟨333333333333333333333333333333333333⟩
      ∧ quoRoundUpMut (ofInt (-1)) (ofInt (-3)) = .ok ⟨333333333333333333333333333333333334⟩
      ∧ quoRoundUp (ofInt 1) (ofInt (-3)) = .ok ⟨-333333333333333333333333333333333332⟩
      ∧ quoRoundUpMut (ofInt (-1)) (ofInt 3) = .ok ⟨-333333333333333333333333333333333332⟩
      ∧ quoByDecRoundUp (ofInt (-1)) (Dec.ofInt (-3)) = .ok ⟨333333333333333333333333333333333333⟩
      ∧ decRoundUp ⟨-1⟩ = ⟨1⟩ := by
  decide +kernel

end Osmomath.BigDec

end MaanyDex
