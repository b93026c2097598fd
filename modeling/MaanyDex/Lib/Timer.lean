/-
Timers that compare with the sum of the last time and a period.

At every tick the timer looks at `last + period`, in numbers modulo `m`, and fires when that is
strictly less than the time; then `last` is the time.  So with a period `P` it is quiet for `P`
ticks and fires with the next one: it fires at every `P + 1`-th tick (`fires_iff_dvd`).  If the sum
wraps around at the start it does so forever, and the timer fires at every tick (`fires_of_wraps`).
-/
import Mathlib

namespace Timer

/-- Does the timer fire at time `now`? -/
def Fires (m period last now : ℕ) : Prop := (last + period) % m < now

instance (m period last now : ℕ) : Decidable (Fires m period last now) :=
  inferInstanceAs (Decidable (_ < _))

/-- The last time after `j` ticks, one for every time after `start`. -/
def last (m period start : ℕ) : ℕ → ℕ
  | 0 => start
  | j + 1 =>
    if Fires m period (last m period start j) (start + (j + 1)) then start + (j + 1)
    else last m period start j

variable {m period start j : ℕ}

lemma rest_lt_iff (j period : ℕ) :
    (period + 1) * (j / (period + 1)) + period < j + 1 ↔ period + 1 ∣ j + 1 := by
  have hdiv := Nat.div_add_mod j (period + 1)
  have hlt := Nat.mod_lt j (show 0 < period + 1 by omega)
  have hmod : period + 1 ∣ j + 1 ↔ j % (period + 1) = period := by
    rw [Nat.dvd_iff_mod_eq_zero, Nat.add_mod]
    rcases Nat.eq_zero_or_pos period with rfl | hpos
    · simp [Nat.mod_one]
    · rw [Nat.mod_eq_of_lt (show 1 < period + 1 by omega)]
      constructor
      · intro h
        by_contra hne
        rw [Nat.mod_eq_of_lt (by omega)] at h
        omega
      · intro h
        rw [h, Nat.mod_self]
  rw [hmod]
  omega

section

variable (hsum : start + period < m) (hm : 2 * (start + j) ≤ m)

include hsum hm

/-- The sum does not wrap around: before the first firing by assumption, and later the period is
less than the time that has passed. -/
lemma sum_lt : start + (period + 1) * (j / (period + 1)) + period < m := by
  have hle : (period + 1) * (j / (period + 1)) ≤ j := Nat.mul_div_le j (period + 1)
  rcases Nat.eq_zero_or_pos (j / (period + 1)) with hzero | hpos
  · rw [hzero, mul_zero, add_zero]
    exact hsum
  · have hperiod : period + 1 ≤ (period + 1) * (j / (period + 1)) := Nat.le_mul_of_pos_right _ hpos
    omega

lemma fires_rest_iff :
    Fires m period (start + (period + 1) * (j / (period + 1))) (start + (j + 1))
      ↔ period + 1 ∣ j + 1 := by
  rw [Fires, Nat.mod_eq_of_lt (sum_lt hsum hm), ← rest_lt_iff]
  omega

lemma last_eq : last m period start j = start + (period + 1) * (j / (period + 1)) := by
  induction j with
  | zero => simp [last]
  | succ j ih =>
    have hfires := fires_rest_iff (j := j) hsum (by omega)
    rw [last, ih (by omega), Nat.succ_div]
    by_cases hdvd : period + 1 ∣ j + 1
    · rw [if_pos (hfires.mpr hdvd), if_pos hdvd]
      have hmul := Nat.div_mul_cancel hdvd
      rw [Nat.succ_div, if_pos hdvd, mul_comm] at hmul
      rw [hmul]
    · rw [if_neg (hfires.not.mpr hdvd), if_neg hdvd, add_zero]

/-- **The interval is one more than the period.** -/
lemma fires_iff_dvd :
    Fires m period (last m period start j) (start + (j + 1)) ↔ period + 1 ∣ j + 1 := by
  rw [last_eq hsum hm]
  exact fires_rest_iff hsum hm

end

section

variable (hsum : m ≤ start + period) (hperiod : period < m) (hm : start + j < m)

include hsum hperiod hm

lemma sum_mod_lt : (start + j + period) % m < start + j := by
  rw [Nat.mod_eq_sub_mod (by omega), Nat.mod_eq_of_lt (by omega)]
  omega

lemma last_of_wraps : last m period start j = start + j := by
  induction j with
  | zero => rfl
  | succ j ih =>
    have hlt := sum_mod_lt (j := j) hsum hperiod (by omega)
    rw [last, ih (by omega), if_pos]
    exact hlt.trans (by omega)

lemma fires_of_wraps : Fires m period (last m period start j) (start + (j + 1)) := by
  rw [last_of_wraps hsum hperiod hm]
  exact (sum_mod_lt hsum hperiod hm).trans (by omega)

end

end Timer
