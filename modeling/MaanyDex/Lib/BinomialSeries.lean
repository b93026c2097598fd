/-
How a partial sum of the binomial series compares with the power.

For an exponent between zero and one and `-1 < x < 1`, the power `(1 + x) ^ a` is the sum
of the terms `choose a k * x ^ k`.  From the second term on their signs are

  all negative      for `x < 0`,
  alternating       for `0 < x`,

and their sizes do not grow.  So every partial sum is an upper bound for the power when `x`
is negative, and every partial sum that ends with an odd term is one when `x` is positive.
-/
import Mathlib

namespace BinomialSeries

/-- The `k`-th term of the series of `(1 + x) ^ a`. -/
noncomputable def term (a x : ℝ) (k : ℕ) : ℝ := Ring.choose a k * x ^ k

/-- The sum of the terms up to the `n`-th. -/
noncomputable def partialSum (a x : ℝ) (n : ℕ) : ℝ := ∑ k ∈ Finset.range (n + 1), term a x k

variable {a x : ℝ}

@[simp] lemma term_zero (a x : ℝ) : term a x 0 = 1 := by simp [term]

lemma term_succ (a x : ℝ) (k : ℕ) : term a x (k + 1) = term a x k * (a - k) * x / (k + 1) := by
  have hchoose : (k + 1 : ℝ) * Ring.choose a (k + 1) = Ring.choose a k * (a - k) := by
    have h := Ring.choose_smul_choose a (Nat.le_succ k)
    rw [Nat.choose_succ_self_right, Nat.succ_sub (le_refl k), Nat.sub_self,
      Ring.choose_one_right, nsmul_eq_mul] at h
    exact_mod_cast h
  have hk : (k + 1 : ℝ) ≠ 0 := by positivity
  rw [eq_div_iff hk, term, term, pow_succ]
  calc Ring.choose a (k + 1) * (x ^ k * x) * (k + 1)
      = (k + 1 : ℝ) * Ring.choose a (k + 1) * (x ^ k * x) := by ring
    _ = Ring.choose a k * x ^ k * (a - k) * x := by
        rw [hchoose]
        ring

lemma partialSum_zero (a x : ℝ) : partialSum a x 0 = 1 := by simp [partialSum]

lemma partialSum_succ (a x : ℝ) (n : ℕ) :
    partialSum a x (n + 1) = partialSum a x n + term a x (n + 1) :=
  Finset.sum_range_succ _ _

/-- **The binomial series.** -/
lemma hasSum_term (hx : |x| < 1) : HasSum (term a x) ((1 + x) ^ a) := by
  have hball : x ∈ Metric.eball (0 : ℝ) 1 := by
    simpa [Metric.mem_eball, edist_dist, Real.dist_eq] using hx
  have hterm : ∀ n, binomialSeries ℝ a n (fun _ => x) = term a x n := by
    intro n
    rw [binomialSeries_apply, List.ofFn_const, List.prod_replicate, smul_eq_mul, term]
  have h := (Real.one_add_rpow_hasFPowerSeriesOnBall_zero (a := a)).hasSum hball
  simpa only [hterm, zero_add] using h

/-! ### Sizes and signs -/

lemma abs_term_le (ha : 0 ≤ a) (ha' : a ≤ 1) (k : ℕ) : |term a x k| ≤ |x| ^ k := by
  induction k with
  | zero => simp
  | succ k ih =>
    have hfactor : |a - k| ≤ k + 1 := by
      have hk : (0 : ℝ) ≤ k := Nat.cast_nonneg k
      rw [abs_le]
      constructor <;> linarith
    have hk : (0 : ℝ) < k + 1 := by positivity
    rw [term_succ, abs_div, abs_mul, abs_mul, abs_of_pos hk, div_le_iff₀ hk, pow_succ]
    calc |term a x k| * |a - k| * |x| ≤ |x| ^ k * (k + 1) * |x| := by gcongr
      _ = |x| ^ k * |x| * (k + 1) := by ring

/-- Below one, all terms after the first pull down. -/
lemma term_nonpos (ha : 0 ≤ a) (ha' : a ≤ 1) (hx : x ≤ 0) (k : ℕ) : term a x (k + 1) ≤ 0 := by
  induction k with
  | zero =>
    rw [term_succ, term_zero]
    simpa using mul_nonpos_of_nonneg_of_nonpos ha hx
  | succ k ih =>
    have hk : (0 : ℝ) ≤ k := Nat.cast_nonneg k
    rw [term_succ]
    apply div_nonpos_of_nonpos_of_nonneg _ (by positivity)
    apply mul_nonpos_of_nonneg_of_nonpos _ hx
    apply mul_nonneg_of_nonpos_of_nonpos ih
    push_cast
    linarith

lemma rpow_le_partialSum_of_nonpos (ha : 0 ≤ a) (ha' : a ≤ 1) (hx : -1 < x) (hx' : x ≤ 0)
    (n : ℕ) : (1 + x) ^ a ≤ partialSum a x n := by
  have hsum : HasSum (term a x) ((1 + x) ^ a) := hasSum_term (abs_lt.mpr ⟨hx, by linarith⟩)
  have hanti : Antitone fun m => partialSum a x m := by
    apply antitone_nat_of_succ_le
    intro m
    show partialSum a x (m + 1) ≤ partialSum a x m
    rw [partialSum_succ]
    linarith [term_nonpos ha ha' hx' m]
  exact hanti.le_of_tendsto (hsum.tendsto_sum_nat.comp (Filter.tendsto_add_atTop_nat 1)) n

/-- The size of the terms after the first, above one. -/
noncomputable def size (a x : ℝ) (k : ℕ) : ℝ := (-1) ^ k * term a x (k + 1)

lemma neg_one_pow_mul_size (k : ℕ) : (-1) ^ k * size a x k = term a x (k + 1) := by
  rw [size, ← mul_assoc, ← mul_pow]
  simp

lemma size_succ (a x : ℝ) (k : ℕ) :
    size a x (k + 1) = size a x k * ((k + 1 - a) * x / (k + 2)) := by
  rw [size, size, term_succ a x (k + 1), pow_succ]
  push_cast
  ring

lemma size_nonneg (ha : 0 ≤ a) (ha' : a ≤ 1) (hx : 0 ≤ x) (k : ℕ) : 0 ≤ size a x k := by
  induction k with
  | zero =>
    rw [size, term_succ, term_zero]
    simpa using mul_nonneg ha hx
  | succ k ih =>
    have hk : (0 : ℝ) ≤ k + 1 - a := by
      have : (0 : ℝ) ≤ k := Nat.cast_nonneg k
      linarith
    rw [size_succ]
    positivity

lemma size_antitone (ha : 0 ≤ a) (ha' : a ≤ 1) (hx : 0 ≤ x) (hx' : x ≤ 1) :
    Antitone (size a x) := by
  apply antitone_nat_of_succ_le
  intro k
  have hk : (0 : ℝ) ≤ k := Nat.cast_nonneg k
  have hratio : (k + 1 - a) * x / (k + 2) ≤ 1 := by
    rw [div_le_one (by positivity)]
    nlinarith
  rw [size_succ]
  exact mul_le_of_le_one_right (size_nonneg ha ha' hx k) hratio

lemma rpow_le_partialSum_of_odd (ha : 0 ≤ a) (ha' : a ≤ 1) (hx : 0 ≤ x) (hx' : x < 1) {n : ℕ}
    (hn : Odd n) : (1 + x) ^ a ≤ partialSum a x n := by
  obtain ⟨k, rfl⟩ := hn
  -- without the first term the series alternates
  have htail : ∀ m, partialSum a x m = 1 + ∑ i ∈ Finset.range m, (-1) ^ i * size a x i := by
    intro m
    rw [partialSum, Finset.sum_range_succ', term_zero, add_comm]
    simp_rw [neg_one_pow_mul_size]
  have hsum : HasSum (term a x) ((1 + x) ^ a) := hasSum_term (by rwa [abs_of_nonneg hx])
  have hlim : Filter.Tendsto (fun m => ∑ i ∈ Finset.range m, (-1) ^ i * size a x i) Filter.atTop
      (nhds ((1 + x) ^ a - 1)) := by
    have h := (hsum.tendsto_sum_nat.comp (Filter.tendsto_add_atTop_nat 1)).sub_const 1
    refine h.congr fun m => ?_
    have := htail m
    rw [partialSum] at this
    simp [this]
  have hle := (size_antitone ha ha' hx hx'.le).tendsto_le_alternating_series hlim k
  rw [htail]
  linarith

end BinomialSeries
