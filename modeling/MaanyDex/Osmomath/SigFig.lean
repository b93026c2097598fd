/-
Rounding to significant figures.

`SigFigRound` multiplies a number below 0.1 by ten until it is 0.1 or more, rounds at the `n`-th
decimal place and divides again.  With `v` the count of `10 ^ -18` that the decimal is, the result
is the nearest multiple of a power of ten (`sigFig`),

    toGrid (10 ^ (18 - (n + place v))) v,

the division at the end leaves no remainder, and the power is that of the `n`-th place from the
first digit that is not zero.

The number is multiplied in the caller's own buffer, and that is not undone: whoever rounds a number
below 0.1 finds it multiplied by a power of ten.
-/
import MaanyDex.Lib.Heap
import MaanyDex.Osmomath.BigDec

namespace MaanyDex.Osmomath

open Heap (Ref)
open Dec (unit)
open FixedPoint

/-! ### The function -/

section Source

variable (math : Math)

def pointOne : ℤ := 10 ^ 17

/-- The loop: `dTimesK.MulInt64Mut(10)` while `dTimesK` is below `pointOne`.  A number that is not
zero cannot be multiplied more often than it may have bits. -/
def scaleLoop (fuel : ℕ) (mem : Heap ℤ) (dTimesK : Ref) (k : ℕ) : Result ℕ × Heap ℤ :=
  match fuel with
  | 0 => (.error (.panic "Int overflow"), mem)
  | fuel + 1 =>
    if mem.read dTimesK < pointOne then
      let mem := mem.write dTimesK (mem.read dTimesK * 10)
      match Dec.checked math (mem.read dTimesK) with
      | .error e => (.error e, mem)
      | .ok _ => scaleLoop fuel mem dTimesK (k + 1)
    else (.ok k, mem)

/-- What follows the loop; nothing here is in a buffer that is shared. -/
def roundScaled (dTimesK : Dec) (tenToSigFig : ℤ) (k : ℕ) : Result Dec := do
  let dkSigFig ← Dec.mulInt math dTimesK tenToSigFig
  let rounded ← dkSigFig.roundInt
  let numerator := Dec.ofInt rounded
  let tenToK ← Dec.power math (Dec.ofInt 10) k
  let truncated ← tenToK.truncateInt
  let denominator ← checkedInt (tenToSigFig * truncated)
  numerator.quoInt denominator

def sigFigRound (mem : Heap ℤ) (d : Ref) (tenToSigFig : ℤ) : Result Ref × Heap ℤ :=
  if mem.read d = 0 then (.ok d, mem)
  else
    -- `dTimesK := d` is the same buffer
    match scaleLoop math (math.maxDecBitLen + 1) mem d 0 with
    | (.error e, mem) => (.error e, mem)
    | (.ok k, mem) =>
      match roundScaled math ⟨mem.read d⟩ tenToSigFig k with
      | .error e => (.error e, mem)
      | .ok q =>
        let (r, mem) := mem.alloc q.raw
        (.ok r, mem)

end Source

/-! ### Places -/

/-- How many zeros follow the point before the first digit, for a number below 0.1. -/
def place (v : ℕ) : ℕ := 17 - Nat.log 10 v

variable {n v w : ℕ}

lemma place_le (v : ℕ) : place v ≤ 17 := Nat.sub_le _ _

lemma place_anti (h : v ≤ w) : place w ≤ place v := Nat.sub_le_sub_left (Nat.log_mono_right h) 17

lemma lt_pow_sub_place (h : 0 < place v) : v < 10 ^ (18 - place v) := by
  have hexp : Nat.log 10 v + 1 = 18 - place v := by
    unfold place at h ⊢
    omega
  rw [← hexp]
  exact Nat.lt_pow_succ_log_self (by omega) v

lemma pow_place_mul_lt (h : 0 < place v) : 10 ^ place v * v < unit := by
  have hle := place_le v
  calc 10 ^ place v * v < 10 ^ place v * 10 ^ (18 - place v) :=
        Nat.mul_lt_mul_of_pos_left (lt_pow_sub_place h) (by positivity)
    _ = unit := by
        rw [← pow_add, Nat.add_sub_cancel' (by omega), unit]

lemma place_pow {j : ℕ} : place (10 ^ j) = 17 - j := by
  rw [place, Nat.log_pow (by omega)]

lemma place_eq_zero_iff (hv : 0 < v) : place v = 0 ↔ 10 ^ 17 ≤ v := by
  rw [place, Nat.sub_eq_zero_iff_le]
  exact Nat.le_log_iff_pow_le (by omega) hv.ne'

lemma place_mul_ten (hv : 0 < v) : place (v * 10) = place v - 1 := by
  rw [place, place, Nat.log_mul_base (by omega) hv.ne']
  omega

lemma pow_sub_place_le (hv : 0 < v) : 10 ^ (17 - place v) ≤ v := by
  apply (Nat.le_log_iff_pow_le (by omega) hv.ne').mp
  unfold place
  omega

/-- Between two numbers with different places lies a power of ten. -/
lemma exists_pow_between (hv : 0 < v) (hw : 0 < w) (h : place w < place v) :
    v < 10 ^ (17 - place w) ∧ 10 ^ (17 - place w) ≤ w := by
  constructor
  · apply (Nat.log_lt_iff_lt_pow (by omega) hv.ne').mp
    unfold place at h ⊢
    omega
  · exact pow_sub_place_le hw

/-! ### The nearest multiple -/

/-- The unit of the `n`-th place, as a count of the smallest decimal. -/
def gridUnit (n v : ℕ) : ℕ := 10 ^ (18 - (n + place v))

/-- `v`, rounded to `n` significant figures. -/
def sigFig (n v : ℕ) : ℕ := toGrid (gridUnit n v) v

lemma gridUnit_pos : 0 < gridUnit n v := pow_pos (by omega) _

lemma gridUnit_even (h : n + place v < 18) : Even (gridUnit n v) := by
  apply Even.pow_of_ne_zero (by decide)
  omega

/-- The places of the unit and those that are rounded away are all. -/
lemma gridUnit_mul_pow (h : n + place v < 18) : gridUnit n v * 10 ^ (n + place v) = unit := by
  rw [gridUnit, ← pow_add, Nat.sub_add_cancel h.le, unit]

lemma gridUnit_dvd_pow {j : ℕ} (h : 18 ≤ n + place v + j) : gridUnit n v ∣ 10 ^ j :=
  pow_dvd_pow 10 (by omega)

lemma sigFig_of_le (h : 18 ≤ n + place v) : sigFig n v = v := by
  apply toGrid_of_dvd gridUnit_pos
  exact (gridUnit_dvd_pow (j := 0) h).trans (one_dvd v)

@[simp] lemma sigFig_zero_right (n : ℕ) : sigFig n 0 = 0 := toGrid_of_dvd gridUnit_pos (dvd_zero _)

lemma two_mul_abs_sigFig_sub_le (n v : ℕ) :
    2 * |(sigFig n v : ℤ) - v| * 10 ^ (n + place v) ≤ unit := by
  rcases le_or_gt 18 (n + place v) with h | h
  · rw [sigFig_of_le h, sub_self, abs_zero, mul_zero, zero_mul]
    exact Int.natCast_nonneg _
  · rw [← gridUnit_mul_pow h]
    push_cast
    apply mul_le_mul_of_nonneg_right _ (by positivity)
    exact two_mul_abs_toGrid_sub_le gridUnit_pos (gridUnit_even h) v

lemma abs_sigFig_sub_le (n v : ℕ) :
    |(sigFig n v : ℚ) / unit - v / unit| ≤ 1 / 2 * (1 / 10) ^ (n + place v) := by
  have hunit : (0 : ℚ) < unit := by exact_mod_cast Dec.unit_pos
  have hpow : (0 : ℚ) < 10 ^ (n + place v) := by positivity
  have h : 2 * |(sigFig n v : ℚ) - v| * 10 ^ (n + place v) ≤ unit := by
    exact_mod_cast two_mul_abs_sigFig_sub_le n v
  rw [← sub_div, abs_div, abs_of_pos hunit, div_le_iff₀ hunit, one_div_pow, mul_one_div,
    div_mul_eq_mul_div, le_div_iff₀ hpow]
  linarith

/-! ### Monotonicity -/

lemma sigFig_zero_pos_iff : 0 < sigFig 0 v ↔ unit < 2 * (10 ^ place v * v) := by
  have hlt : 0 + place v < 18 := by
    have := place_le v
    omega
  have hpow : 0 < 10 ^ place v := by positivity
  rw [sigFig, toGrid_pos_iff gridUnit_pos (gridUnit_even hlt), ← gridUnit_mul_pow hlt,
    zero_add, show 2 * (10 ^ place v * v) = 2 * v * 10 ^ place v by ring]
  exact (Nat.mul_lt_mul_right hpow).symm

lemma gridUnit_le_sigFig (h : 0 < sigFig n v) : gridUnit n v ≤ sigFig n v :=
  Nat.le_of_dvd h (dvd_toGrid _ _)

lemma sigFig_zero_of_place_pos (h : 0 < place v) (hpos : 0 < sigFig 0 v) :
    sigFig 0 v = 10 ^ (18 - place v) := by
  have hunit : gridUnit 0 v = 10 ^ (18 - place v) := by rw [gridUnit, zero_add]
  apply le_antisymm
  · apply toGrid_le_of_dvd gridUnit_pos
    · rw [hunit]
    · exact (lt_pow_sub_place h).le
  · rw [← hunit]
    exact gridUnit_le_sigFig hpos

lemma sigFig_le_sigFig_iff (hv : 0 < v) (h : v ≤ w) :
    sigFig n v ≤ sigFig n w ↔ 1 ≤ n ∨ place v = place w ∨ 2 * (10 ^ place v * v) ≤ unit
      ∨ unit < 2 * (10 ^ place w * w) := by
  rcases (place_anti h).eq_or_lt with heq | hlt
  · -- the same grid
    apply iff_of_true _ (.inr (.inl heq.symm))
    rw [sigFig, sigFig, gridUnit, gridUnit, heq]
    exact toGrid_mono h
  obtain ⟨hbelow, habove⟩ := exists_pow_between hv (hv.trans_le h) hlt
  have hplace := place_le v
  rcases Nat.eq_zero_or_pos n with rfl | hn
  · by_cases hhalf : 2 * (10 ^ place v * v) ≤ unit
    · have hzero : ¬0 < sigFig 0 v := by
        rw [sigFig_zero_pos_iff]
        omega
      exact iff_of_true (by omega) (.inr (.inr (.inl hhalf)))
    · have hpos : 0 < sigFig 0 v := sigFig_zero_pos_iff.mpr (not_le.mp hhalf)
      by_cases hhalf' : unit < 2 * (10 ^ place w * w)
      · apply iff_of_true _ (.inr (.inr (.inr hhalf')))
        rw [sigFig_zero_of_place_pos (by omega) hpos]
        calc 10 ^ (18 - place v) ≤ 10 ^ (18 - (0 + place w)) :=
              Nat.pow_le_pow_right (by omega) (by omega)
          _ ≤ sigFig 0 w := gridUnit_le_sigFig (sigFig_zero_pos_iff.mpr hhalf')
      · -- the smaller one is rounded up to one unit, the larger one down to zero
        have hzero : ¬0 < sigFig 0 w := by rwa [sigFig_zero_pos_iff]
        apply iff_of_false (by omega)
        omega
  · -- the power of ten in between is on both grids
    apply iff_of_true _ (.inl hn)
    calc sigFig n v ≤ 10 ^ (17 - place w) :=
          toGrid_le_of_dvd gridUnit_pos (gridUnit_dvd_pow (by omega)) hbelow.le
      _ ≤ sigFig n w := le_toGrid_of_dvd gridUnit_pos (gridUnit_dvd_pow (by omega)) habove

/-! ### Idempotence -/

lemma sigFig_sigFig_of_pos (hv : 0 < v) (hn : 1 ≤ n) : sigFig n (sigFig n v) = sigFig n v := by
  have hplace := place_le v
  have hlow : 10 ^ (17 - place v) ≤ sigFig n v :=
    le_toGrid_of_dvd gridUnit_pos (gridUnit_dvd_pow (by omega)) (pow_sub_place_le hv)
  have hpos : 0 < sigFig n v := (pow_pos (by omega) _).trans_le hlow
  have hanti : place (sigFig n v) ≤ place v := by
    calc place (sigFig n v) ≤ place (10 ^ (17 - place v)) := place_anti hlow
      _ = place v := by
          rw [place_pow]
          omega
  apply toGrid_of_dvd gridUnit_pos
  rcases hanti.eq_or_lt with heq | hlt
  · rw [gridUnit, heq]
    exact dvd_toGrid _ _
  · -- rounded up to the next power of ten
    have hup : sigFig n v ≤ 10 ^ (18 - place v) :=
      toGrid_le_of_dvd gridUnit_pos (gridUnit_dvd_pow (by omega)) (lt_pow_sub_place (by omega)).le
    have hdown : 10 ^ (18 - place v) ≤ sigFig n v :=
      calc 10 ^ (18 - place v) ≤ 10 ^ (17 - place (sigFig n v)) :=
            Nat.pow_le_pow_right (by omega) (by omega)
        _ ≤ sigFig n v := pow_sub_place_le hpos
    rw [le_antisymm hup hdown]
    apply gridUnit_dvd_pow
    rw [place_pow]
    omega

lemma sigFig_sigFig_iff (hv : 0 < v) :
    sigFig n (sigFig n v) = sigFig n v ↔ 1 ≤ n ∨ place v = 0 ∨ 2 * (10 ^ place v * v) ≤ unit := by
  rcases Nat.eq_zero_or_pos n with rfl | hn
  · rcases Nat.eq_zero_or_pos (sigFig 0 v) with hzero | hpos
    · apply iff_of_true
      · rw [hzero, sigFig_zero_right]
      · have : ¬0 < sigFig 0 v := by omega
        rw [sigFig_zero_pos_iff] at this
        omega
    · rcases Nat.eq_zero_or_pos (place v) with hplace | hplace
      · -- a whole number that is not zero stays one
        apply iff_of_true _ (.inr (.inl hplace))
        have hlarge : unit ≤ sigFig 0 v := by
          have := gridUnit_le_sigFig hpos
          rwa [gridUnit, hplace] at this
        have hplace' : place (sigFig 0 v) = 0 := by
          rw [place_eq_zero_iff hpos]
          exact le_trans (by norm_num [unit]) hlarge
        apply toGrid_of_dvd gridUnit_pos
        rw [gridUnit, hplace', ← hplace]
        exact dvd_toGrid _ _
      · -- one unit becomes zero on the grid of its own place
        have hone := sigFig_zero_of_place_pos hplace hpos
        have hle := place_le v
        have hagain : ¬0 < sigFig 0 (sigFig 0 v) := by
          rw [sigFig_zero_pos_iff, hone, place_pow, ← pow_add,
            show 17 - (18 - place v) + (18 - place v) = 17 by omega, unit]
          norm_num
        have hhalf := sigFig_zero_pos_iff.mp hpos
        exact iff_of_false (by omega) (by omega)
  · exact iff_of_true (sigFig_sigFig_of_pos hv hn) (.inl hn)

/-! ### What the arithmetic computes -/

variable {math : Math}

lemma nearestNat_mul_unit_div (n v : ℕ) :
    nearestNat unit (10 ^ place v * v * 10 ^ n) * unit / (10 ^ n * 10 ^ place v) = sigFig n v := by
  have hpow : 0 < 10 ^ (n + place v) := by positivity
  have hscaled : 10 ^ place v * v * 10 ^ n = v * 10 ^ (n + place v) := by
    rw [pow_add]
    ring
  rw [hscaled, ← pow_add]
  rcases le_or_gt 18 (n + place v) with h | h
  · have hunits : v * 10 ^ (n + place v) = v * 10 ^ (n + place v - 18) * unit := by
      rw [mul_assoc, unit, ← pow_add, Nat.sub_add_cancel h]
    rw [hunits, nearestNat_mul_self Dec.unit_pos, ← hunits, Nat.mul_div_cancel _ hpow,
      sigFig_of_le h]
  · rw [← gridUnit_mul_pow h, nearestNat_mul_mul (gridUnit_even h) hpow, ← mul_assoc,
      Nat.mul_div_cancel _ hpow]
    rfl

/-- The range checks of the function, for `v` and `10 ^ n`: the scaled number is a decimal, it is an
integer after rounding, and so is the denominator. -/
structure SigFigFits (math : Math) (n v : ℕ) : Prop where
  scaled : 10 ^ place v * v * 10 ^ n < 2 ^ math.maxDecBitLen
  rounded : 2 * (10 ^ place v * v * 10 ^ n) < (2 ^ 257 - 1) * unit
  denominator : 10 ^ n * 10 ^ place v < 2 ^ 256

lemma nearestNat_lt_iff {x : ℕ} : nearestNat unit x < 2 ^ 256 ↔ 2 * x < (2 ^ 257 - 1) * unit := by
  have heven : Even unit := by decide
  have h := lt_nearestNat_iff (n := x) (t := 2 ^ 256 - 1) Dec.unit_pos heven
  rw [if_neg (by norm_num)] at h
  rw [← not_iff_not, not_lt, not_lt]
  unfold unit at h ⊢
  norm_num at h ⊢
  omega

lemma power_ten (hmath : 120 ≤ math.maxDecBitLen) (v : ℕ) :
    Dec.power math (Dec.ofInt 10) (place v) = .ok (Dec.ofInt ((10 ^ place v : ℕ) : ℤ)) := by
  have hle := place_le v
  apply Dec.power_ofInt (x := 10) (by omega) (by omega)
  calc 10 ^ place v * unit ≤ 10 ^ 17 * unit :=
        Nat.mul_le_mul_right _ (Nat.pow_le_pow_right (by omega) hle)
    _ < 2 ^ 120 := by norm_num [unit]
    _ ≤ 2 ^ math.maxDecBitLen := Nat.pow_le_pow_right (by omega) hmath

lemma roundScaled_eq (hmath : 120 ≤ math.maxDecBitLen) (h : SigFigFits math n v) :
    roundScaled math ⟨(10 ^ place v * v : ℕ)⟩ (10 ^ n : ℕ) (place v) = .ok ⟨sigFig n v⟩ := by
  have hle := place_le v
  have hmul : Dec.mulInt math ⟨(10 ^ place v * v : ℕ)⟩ (10 ^ n : ℕ)
      = .ok ⟨(10 ^ place v * v * 10 ^ n : ℕ)⟩ := by
    show Dec.checked math (((10 ^ place v * v : ℕ) : ℤ) * ((10 ^ n : ℕ) : ℤ)) = _
    rw [← Nat.cast_mul]
    exact Dec.checked_natCast h.scaled
  have hround : Dec.roundInt ⟨(10 ^ place v * v * 10 ^ n : ℕ)⟩
      = .ok (nearestNat unit (10 ^ place v * v * 10 ^ n) : ℤ) := by
    rw [Dec.roundInt, nearest_natCast, checkedInt_eq_ok]
    rw [Int.natAbs_natCast]
    exact nearestNat_lt_iff.mpr h.rounded
  have htruncate : Dec.truncateInt (Dec.ofInt ((10 ^ place v : ℕ) : ℤ))
      = .ok ((10 ^ place v : ℕ) : ℤ) := by
    rw [Dec.truncateInt_ofInt, checkedInt_eq_ok]
    rw [Int.natAbs_natCast]
    calc 10 ^ place v ≤ 10 ^ 17 := Nat.pow_le_pow_right (by omega) hle
      _ < 2 ^ 256 := by norm_num
  have hdenominator : checkedInt (((10 ^ n : ℕ) : ℤ) * ((10 ^ place v : ℕ) : ℤ))
      = .ok ((10 ^ n * 10 ^ place v : ℕ) : ℤ) := by
    rw [checkedInt_eq_ok, Nat.cast_mul]
    rw [← Nat.cast_mul, Int.natAbs_natCast]
    exact h.denominator
  unfold roundScaled
  rw [hmul, Run.ok_bind, hround, Run.ok_bind]
  dsimp only
  rw [power_ten hmath, Run.ok_bind, htruncate, Run.ok_bind, hdenominator, Run.ok_bind, Dec.quoInt,
    if_neg (by positivity), ← nearestNat_mul_unit_div n v, Dec.ofInt, ← Nat.cast_mul,
    Int.tdiv_eq_ediv_of_nonneg (Int.natCast_nonneg _), ← Int.natCast_ediv]

lemma fits_of_roundScaled {q : Dec} (hmath : 120 ≤ math.maxDecBitLen)
    (h : roundScaled math ⟨(10 ^ place v * v : ℕ)⟩ (10 ^ n : ℕ) (place v) = .ok q) :
    SigFigFits math n v := by
  obtain ⟨scaled, rounded, hmul, hround, h⟩ := Run.bind2_ok h
  dsimp only at h
  rw [power_ten hmath, Run.ok_bind, Dec.truncateInt_ofInt] at h
  obtain ⟨tenToK, denominator, htruncate, hdenominator, -⟩ := Run.bind2_ok h
  -- the three results, and the checks they passed
  have hscaled : scaled.raw = ((10 ^ place v * v * 10 ^ n : ℕ) : ℤ) := by
    rw [Dec.mulInt_ok hmul, ← Nat.cast_mul]
  have hrounded : rounded = nearestNat unit (10 ^ place v * v * 10 ^ n) := by
    rw [checkedInt_ok hround, hscaled, nearest_natCast]
  refine ⟨?_, ?_, ?_⟩
  · have hlt := Dec.checked_lt hmul
    rwa [← Nat.cast_mul, Int.natAbs_natCast] at hlt
  · have hlt := checkedInt_lt hround
    rw [hrounded, Int.natAbs_natCast] at hlt
    exact nearestNat_lt_iff.mp hlt
  · have hlt := checkedInt_lt hdenominator
    rwa [checkedInt_ok hdenominator, checkedInt_ok htruncate, ← Nat.cast_mul,
      Int.natAbs_natCast] at hlt

/-! ### The loop -/

variable {mem mem₁ : Heap ℤ} {d r : Ref}

section

variable (hmath : 120 ≤ math.maxDecBitLen)

include hmath

/-- The loop multiplies the caller's number until it is 0.1 or more; it touches no other. -/
lemma scaleLoop_ok {fuel : ℕ} :
    ∀ {mem : Heap ℤ} {k v : ℕ}, mem.Valid d → mem.read d = v → 0 < v → place v < fuel →
      ∃ mem', scaleLoop math fuel mem d k = (.ok (k + place v), mem') ∧ mem'.Valid d
        ∧ mem'.read d = (10 ^ place v * v : ℕ) := by
  induction fuel with
  | zero => exact fun _ _ _ h => absurd h (Nat.not_lt_zero _)
  | succ fuel ih =>
    intro mem k v hd hread hv hfuel
    unfold scaleLoop
    rcases Nat.eq_zero_or_pos (place v) with hplace | hplace
    · have hlarge : ¬mem.read d < pointOne := by
        rw [hread, not_lt, pointOne]
        exact_mod_cast (place_eq_zero_iff hv).mp hplace
      rw [if_neg hlarge, hplace, pow_zero, one_mul]
      exact ⟨mem, rfl, hd, hread⟩
    · have hsmall : mem.read d < pointOne := by
        rw [hread, pointOne]
        have := (place_eq_zero_iff hv).not.mp hplace.ne'
        exact_mod_cast not_le.mp this
      have hread' : (mem.write d (mem.read d * 10)).read d = (v * 10 : ℕ) := by
        rw [hd.read_write_self, hread]
        push_cast
        rfl
      have hrest : 10 ^ place v * v = 10 ^ place (v * 10) * (v * 10) := by
        rw [place_mul_ten hv, mul_comm v 10, ← mul_assoc, ← pow_succ, Nat.sub_add_cancel hplace]
      -- below 1 there is no overflow
      have hcheck : Dec.checked math ((v * 10 : ℕ) : ℤ) = .ok ⟨(v * 10 : ℕ)⟩ := by
        apply Dec.checked_natCast
        calc v * 10 ≤ 10 ^ place (v * 10) * (v * 10) := Nat.le_mul_of_pos_left _ (by positivity)
          _ = 10 ^ place v * v := hrest.symm
          _ < unit := pow_place_mul_lt hplace
          _ < 2 ^ 120 := by norm_num [unit]
          _ ≤ 2 ^ math.maxDecBitLen := Nat.pow_le_pow_right (by omega) hmath
      rw [if_pos hsmall]
      dsimp only
      rw [hread', hcheck, hrest]
      have hcount : k + place v = k + 1 + place (v * 10) := by
        rw [place_mul_ten hv]
        omega
      rw [hcount]
      apply ih (Heap.valid_write.mpr hd) hread' (by omega)
      rw [place_mul_ten hv]
      omega

/-! ### The whole function -/

/-- The function returns when all range checks pass, a new number; the caller's is multiplied. -/
lemma sigFigRound_ok (hd : mem.Valid d) (hread : mem.read d = v)
    (hv : 0 < v) (h : SigFigFits math n v) :
    ∃ r mem₁, sigFigRound math mem d (10 ^ n : ℕ) = (.ok r, mem₁) ∧ mem₁.Valid r
      ∧ mem₁.read r = sigFig n v ∧ mem₁.read d = (10 ^ place v * v : ℕ) := by
  have hplace := place_le v
  obtain ⟨mem', hloop, hd', hread'⟩ := scaleLoop_ok (k := 0) hmath hd hread hv
    (show place v < math.maxDecBitLen + 1 by omega)
  rw [zero_add] at hloop
  unfold sigFigRound
  rw [if_neg (by omega), hloop]
  dsimp only
  rw [hread', roundScaled_eq hmath h]
  refine ⟨_, _, rfl, Heap.valid_alloc_self, Heap.read_alloc_self, ?_⟩
  show (mem'.alloc _).2.read d = _
  rw [hd'.read_alloc, hread']

lemma fits_of_sigFigRound (hd : mem.Valid d) (hread : mem.read d = v) (hv : 0 < v)
    (h : sigFigRound math mem d (10 ^ n : ℕ) = (.ok r, mem₁)) : SigFigFits math n v := by
  have hplace := place_le v
  obtain ⟨mem', hloop, hd', hread'⟩ := scaleLoop_ok (k := 0) hmath hd hread hv
    (show place v < math.maxDecBitLen + 1 by omega)
  rw [zero_add] at hloop
  unfold sigFigRound at h
  rw [if_neg (by omega), hloop] at h
  dsimp only at h
  rw [hread'] at h
  rcases hscaled : roundScaled math ⟨(10 ^ place v * v : ℕ)⟩ (10 ^ n : ℕ) (place v) with e | q
  · rw [hscaled] at h
    cases h
  · exact fits_of_roundScaled hmath hscaled

lemma sigFigRound_result (hd : mem.Valid d) (hread : mem.read d = v) (hv : 0 < v)
    (h : sigFigRound math mem d (10 ^ n : ℕ) = (.ok r, mem₁)) :
    mem₁.Valid r ∧ mem₁.read r = sigFig n v ∧ mem₁.read d = (10 ^ place v * v : ℕ) := by
  have hfits := fits_of_sigFigRound hmath hd hread hv h
  obtain ⟨r', mem', hok, hrest⟩ := sigFigRound_ok hmath hd hread hv hfits
  rw [h] at hok
  cases hok
  exact hrest

end

lemma sigFigRound_zero (h : mem.read d = 0) (s : ℤ) : sigFigRound math mem d s = (.ok d, mem) :=
  if_pos h

lemma pow_place_mul_eq_iff (hv : 0 < v) : 10 ^ place v * v = v ↔ 10 ^ 17 ≤ v := by
  rw [← place_eq_zero_iff hv]
  constructor
  · intro heq
    by_contra hne
    have hten : 1 < 10 ^ place v := Nat.one_lt_pow hne (by omega)
    nlinarith
  · intro hzero
    rw [hzero, pow_zero, one_mul]

/-- Rounding a number `v` to `n` figures, the caller's reference being `d`.  The call returns if
and only if the range checks pass.  The result is off by half a unit of the `n`-th place at most.
The caller keeps the number if and only if it is 0.1 or more.  Rounding twice is rounding once, and
the order of two numbers is kept, unless there is no figure to round to: then a number below 0.1
must not be rounded up, or the larger number must be rounded up too. -/
theorem sig_fig_round_iff (math : Math) (hmath : 120 ≤ math.maxDecBitLen) (n : ℕ) (mem : Heap ℤ)
    (d : Ref) (v : ℕ) (hd : mem.Valid d) (hread : mem.read d = v) (hv : 0 < v) :
    ((∃ r mem₁, sigFigRound math mem d (10 ^ n : ℕ) = (.ok r, mem₁)) ↔ SigFigFits math n v)
      ∧ ∀ r mem₁, sigFigRound math mem d (10 ^ n : ℕ) = (.ok r, mem₁) → mem₁.Valid r
        ∧ |(mem₁.read r : ℚ) / unit - v / unit| ≤ 1 / 2 * (1 / 10) ^ (n + place v)
        ∧ (mem₁.read d = v ↔ 10 ^ 17 ≤ v)
        ∧ (∀ r' mem₂, sigFigRound math mem₁ r (10 ^ n : ℕ) = (.ok r', mem₂) →
            (mem₂.read r' = mem₁.read r ↔ 1 ≤ n ∨ 10 ^ 17 ≤ v ∨ 2 * (10 ^ place v * v) ≤ unit))
        ∧ ∀ (mem' : Heap ℤ) d' r' mem₂ (v' : ℕ), mem'.Valid d' → mem'.read d' = v' → v ≤ v' →
            sigFigRound math mem' d' (10 ^ n : ℕ) = (.ok r', mem₂) →
            (mem₁.read r ≤ mem₂.read r'
              ↔ 1 ≤ n ∨ place v = place v' ∨ 2 * (10 ^ place v * v) ≤ unit
                ∨ unit < 2 * (10 ^ place v' * v')) := by
  constructor
  · constructor
    · rintro ⟨r, mem₁, h⟩
      exact fits_of_sigFigRound hmath hd hread hv h
    · intro h
      obtain ⟨r, mem₁, hok, -⟩ := sigFigRound_ok hmath hd hread hv h
      exact ⟨r, mem₁, hok⟩
  intro r mem₁ h
  obtain ⟨hr, hround, hcaller⟩ := sigFigRound_result hmath hd hread hv h
  refine ⟨hr, ?_, ?_, ?_, ?_⟩
  · rw [hround, Int.cast_natCast]
    exact abs_sigFig_sub_le n v
  · rw [hcaller, Nat.cast_inj]
    exact pow_place_mul_eq_iff hv
  · intro r' mem₂ h'
    rw [← place_eq_zero_iff hv, ← sigFig_sigFig_iff hv]
    rcases Nat.eq_zero_or_pos (sigFig n v) with hzero | hpos
    · -- zero is returned as it is
      have hread₁ : mem₁.read r = 0 := by rw [hround, hzero, Nat.cast_zero]
      rw [sigFigRound_zero hread₁] at h'
      cases h'
      exact iff_of_true rfl (by rw [hzero, sigFig_zero_right])
    · obtain ⟨-, hround', -⟩ := sigFigRound_result hmath hr hround hpos h'
      rw [hround', hround, Nat.cast_inj]
  · intro mem' d' r' mem₂ v' hd' hread' hle h'
    obtain ⟨-, hround', -⟩ := sigFigRound_result hmath hd' hread' (hv.trans_le hle) h'
    rw [hround, hround', Nat.cast_le]
    exact sigFig_le_sigFig_iff hv hle

/-- Two figures of 0.123456789012345678. -/
theorem sig_fig_round_iff_two :
    ∃ r mem₁, sigFigRound chainMath ⟨[123456789012345678]⟩ 0 (10 ^ 2 : ℕ) = (.ok r, mem₁)
      ∧ mem₁.read 0 = 123456789012345678 := by
  have h := sig_fig_round_iff chainMath (by decide) 2 ⟨[123456789012345678]⟩ 0 123456789012345678
    (by decide) rfl (by decide)
  obtain ⟨r, mem₁, hrun⟩ := h.1.mpr ⟨by decide +kernel, by decide +kernel, by decide +kernel⟩
  obtain ⟨-, -, hcaller, -⟩ := h.2 r mem₁ hrun
  exact ⟨r, mem₁, hrun, hcaller.mpr (by norm_num)⟩

/-- The caller's 0.01 becomes 0.1.  To no figure, 0.09 is rounded to 0.1 and that to zero.  With 77
figures, a small number is a panic. -/
theorem sig_fig_round_small :
    (sigFigRound chainMath ⟨[10 ^ 16]⟩ 0 (10 ^ 2)).2.cells = [10 ^ 17, 10 ^ 16]
      ∧ (sigFigRound chainMath ⟨[9 * 10 ^ 16]⟩ 0 (10 ^ 0)).2.read 1 = 10 ^ 17
      ∧ (sigFigRound chainMath ⟨[10 ^ 17]⟩ 0 (10 ^ 0)).2.read 1 = 0
      ∧ (sigFigRound chainMath ⟨[10 ^ 16]⟩ 0 (10 ^ 77)).1.toOption = none := by
  decide +kernel

end MaanyDex.Osmomath
