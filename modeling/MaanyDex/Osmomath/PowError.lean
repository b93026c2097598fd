/-
How far `Pow` can fall below the power that it approximates.

Write `u` for `10 ^ -18`, the last digit of a decimal.  Repeated squaring loses at most
half a `u` for every factor but the first (`power_ge`).  The series of `PowApprox` adds
`k * (k + 1)` times `u` up to its `k`-th term (`Summed`), and its partial sums are upper
bounds for the power, up to the last term when the base is above one (`powApprox_ge`).
Together,

  base ^ exp - powError base exp  ≤  Pow base exp            (`pow_ge`)

where the error of the series counts its terms: `rounds x` is a number of terms after which
one of them has fallen below `10 ^ -8`, and never exceeds `powIterationLimit`.

The square root for one half is the library's; its accuracy `ε` is a parameter.
-/
import MaanyDex.Lib.BinomialSeries
import MaanyDex.Osmomath.Pow

namespace MaanyDex

/-! ### Decimals as real numbers -/

namespace Dec

/-- The last digit. -/
noncomputable def ulp : ℝ := 1 / unit

lemma ulp_pos : 0 < ulp := by
  unfold ulp unit
  positivity

lemma ulp_le : ulp ≤ 1 / 2 := by
  unfold ulp unit
  norm_num

/-- The number that a decimal stands for. -/
noncomputable def toReal (a : Dec) : ℝ := a.raw / unit

variable {math : Math} {a b c : Dec}

lemma unit_even : Even unit := by decide

lemma unit_cast_pos : (0 : ℝ) < unit := by exact_mod_cast unit_pos

@[simp] lemma toReal_one : one.toReal = 1 := by
  simp [toReal, one, unit_cast_pos.ne']

@[simp] lemma toReal_ofInt (i : ℤ) : (ofInt i).toReal = i := by
  simp [toReal, ofInt, unit_cast_pos.ne']

lemma toReal_nonneg (h : 0 ≤ a.raw) : 0 ≤ a.toReal :=
  div_nonneg (by exact_mod_cast h) unit_cast_pos.le

lemma toReal_le_toReal (h : a.raw ≤ b.raw) : a.toReal ≤ b.toReal :=
  div_le_div_of_nonneg_right (by exact_mod_cast h) unit_cast_pos.le

lemma toReal_lt_toReal (h : a.raw < b.raw) : a.toReal < b.toReal :=
  div_lt_div_of_pos_right (by exact_mod_cast h) unit_cast_pos

lemma toReal_pos (h : 0 < a.raw) : 0 < a.toReal := div_pos (by exact_mod_cast h) unit_cast_pos

lemma toReal_add (h : add math a b = .ok c) : c.toReal = a.toReal + b.toReal := by
  rw [toReal, toReal, toReal, ← add_div, checked_ok h]
  push_cast
  rfl

lemma toReal_sub (h : sub math a b = .ok c) : c.toReal = a.toReal - b.toReal := by
  rw [toReal, toReal, toReal, ← sub_div, checked_ok h]
  push_cast
  rfl

@[simp] lemma toReal_neg (a : Dec) : a.neg.toReal = -a.toReal := by
  rw [toReal, toReal, ← neg_div, neg]
  push_cast
  rfl

lemma toReal_mul (h : mul math a b = .ok c) : |c.toReal - a.toReal * b.toReal| ≤ ulp / 2 := by
  have hle := FixedPoint.abs_mul_div_sub_le unit_pos unit_even a.raw b.raw
  rw [toReal, toReal, toReal, mul_ok h, ulp]
  calc _ ≤ 1 / (2 * (unit : ℝ)) := hle
    _ = 1 / unit / 2 := by ring

lemma toReal_div_toReal (a b : Dec) : a.toReal / b.toReal = a.raw / b.raw :=
  div_div_div_cancel_right₀ unit_cast_pos.ne' _ _

lemma toReal_quo (ha : 0 ≤ a.raw) (hb : 0 < b.raw) (h : quo math a b = .ok c) :
    |c.toReal - a.toReal / b.toReal| ≤ FixedPoint.quoError unit a.raw b.raw := by
  have hle := FixedPoint.abs_quo_div_sub_le unit_pos unit_even ha hb
  rw [toReal_div_toReal, toReal, (quo_ok h).2]
  exact hle

lemma quoError_unit_le (x y : ℤ) : FixedPoint.quoError unit x y ≤ (1 / 2 + ulp) * ulp := by
  calc FixedPoint.quoError unit x y ≤ (1 / 2 + 1 / unit) / unit := FixedPoint.quoError_le x y
    _ = (1 / 2 + ulp) * ulp := by
        unfold ulp
        ring

/-! ### Repeated squaring -/

/-- Lower bounds multiply: relative to upper bounds `A` and `B` of the factors, what is lost
adds up. -/
lemma mul_sub_le_mul {α β A B E F v w : ℝ} (hα : 0 ≤ α) (hαA : α ≤ A) (hβ : 0 ≤ β)
    (hβB : β ≤ B) (hE : 0 ≤ E) (hF : 0 ≤ F) (hv : 0 ≤ v) (hw : 0 ≤ w) (h : α - A * E ≤ v)
    (h' : β - B * F ≤ w) : α * β - A * B * (E + F) ≤ v * w := by
  have hA : 0 ≤ A := hα.trans hαA
  have hB : 0 ≤ B := hβ.trans hβB
  have hαβ : A * B * E ≥ β * (A * E) := by nlinarith [mul_nonneg hA hE]
  have hβα : A * B * F ≥ α * (B * F) := by nlinarith [mul_nonneg hB hF]
  have hvw : 0 ≤ v * w := mul_nonneg hv hw
  -- a factor whose bound is not positive makes the bound of the product trivial
  rcases le_or_gt (α - A * E) 0 with hneg | hpos
  · nlinarith [mul_nonneg hβ (sub_nonneg.mpr (sub_nonpos.mp hneg)), mul_nonneg (mul_nonneg hA hB) hF]
  rcases le_or_gt (β - B * F) 0 with hneg' | hpos'
  · nlinarith [mul_nonneg hα (sub_nonneg.mpr (sub_nonpos.mp hneg')), mul_nonneg (mul_nonneg hA hB) hE]
  calc α * β - A * B * (E + F)
      ≤ α * β - β * (A * E) - α * (B * F) := by linarith
    _ ≤ (α - A * E) * (β - B * F) := by nlinarith [mul_nonneg (mul_nonneg hA hE) (mul_nonneg hB hF)]
    _ ≤ v * w := mul_le_mul h h' hpos'.le hv

/-- `v` approximates `b ^ m` from below: half a digit is lost for every factor but the
first. -/
structure PowerOf (b : ℝ) (m : ℕ) (v : Dec) : Prop where
  nonneg : 0 ≤ v.raw
  ge : b ^ m - max 1 b ^ m * ((m - 1 : ℕ) * (ulp / 2)) ≤ v.toReal
  le_one : b ≤ 1 → v.raw ≤ unit
  zero : m = 0 → v = one

lemma PowerOf.one (b : ℝ) : PowerOf b 0 one where
  nonneg := by decide
  ge := by simp
  le_one _ := le_rfl
  zero _ := rfl

lemma PowerOf.self (h : 0 < a.raw) : PowerOf a.toReal 1 a where
  nonneg := h.le
  ge := by simp
  le_one hle := by
    have : (a.raw : ℝ) ≤ unit := by
      rw [toReal, div_le_one unit_cast_pos] at hle
      exact hle
    exact_mod_cast this
  zero h := by cases h

lemma mul_one_left (h : mul math one a = .ok c) : c = a := by
  have hraw := mul_ok h
  rw [FixedPoint.mul, mul_comm, ← FixedPoint.mul, one,
    show (unit : ℤ) = 1 * unit by ring, FixedPoint.mul_whole unit_pos, mul_one] at hraw
  exact Dec.ext hraw

lemma mul_comm_eq : mul math a b = mul math b a := by
  rw [mul, mul, FixedPoint.mul, FixedPoint.mul, mul_comm]

variable {m k : ℕ}

lemma PowerOf.mul {b : ℝ} {v w r : Dec} (hb : 0 < b) (hv : PowerOf b m v)
    (hw : PowerOf b k w) (h : Dec.mul math v w = .ok r) : PowerOf b (m + k) r := by
  rcases Nat.eq_zero_or_pos m with rfl | hm
  · rw [hv.zero rfl] at h
    rw [mul_one_left h, zero_add]
    exact hw
  rcases Nat.eq_zero_or_pos k with rfl | hk
  · rw [hw.zero rfl, mul_comm_eq] at h
    rw [mul_one_left h, add_zero]
    exact hv
  have hraw := mul_ok h
  have hnonneg : 0 ≤ r.raw := by
    rw [hraw]
    exact FixedPoint.mul_nonneg hv.nonneg hw.nonneg
  refine ⟨hnonneg, ?_, ?_, fun h => by omega⟩
  · set B := max 1 b
    have hB : 1 ≤ B := le_max_left 1 b
    have hbB : b ≤ B := le_max_right 1 b
    have hBm : 1 ≤ B ^ m := one_le_pow₀ hB
    have hBk : 1 ≤ B ^ k := one_le_pow₀ hB
    have hu := ulp_pos
    have hround := (abs_le.mp (toReal_mul h)).1
    rw [show m + k - 1 = (m - 1) + (k - 1) + 1 by omega, pow_add, pow_add]
    push_cast
    set E : ℝ := (m - 1 : ℕ) * (ulp / 2)
    set E' : ℝ := (k - 1 : ℕ) * (ulp / 2)
    have hprod : b ^ m * b ^ k - B ^ m * B ^ k * (E + E') ≤ v.toReal * w.toReal :=
      mul_sub_le_mul (pow_nonneg hb.le m) (pow_le_pow_left₀ hb.le hbB m) (pow_nonneg hb.le k)
        (pow_le_pow_left₀ hb.le hbB k) (by positivity) (by positivity) (toReal_nonneg hv.nonneg)
        (toReal_nonneg hw.nonneg) hv.ge hw.ge
    have hone : 1 ≤ B ^ m * B ^ k := one_le_mul_of_one_le_of_one_le hBm hBk
    have hhalf : ulp / 2 ≤ B ^ m * B ^ k * (ulp / 2) := le_mul_of_one_le_left (by positivity) hone
    calc b ^ m * b ^ k - B ^ m * B ^ k * (((m - 1 : ℕ) + (k - 1 : ℕ) + 1) * (ulp / 2))
        = b ^ m * b ^ k - B ^ m * B ^ k * (E + E') - B ^ m * B ^ k * (ulp / 2) := by ring
      _ ≤ r.toReal := by linarith
  · intro hle
    rw [hraw]
    exact (FixedPoint.mul_le_of_le_unit unit_pos (hv.le_one hle) hw.nonneg).trans (hw.le_one hle)

lemma PowerOf.powerLoop {b : ℝ} {i fuel : ℕ} {d tmp d' tmp' : Dec} (hb : 0 < b)
    (hd : PowerOf b m d) (htmp : PowerOf b k tmp) (hi : 0 < i) (hfuel : i < 2 ^ (fuel + 1))
    (h : Dec.powerLoop math fuel d tmp i = .ok (d', tmp')) :
    ∃ m' k', PowerOf b m' d' ∧ PowerOf b k' tmp' ∧ m' + k' = m * i + k := by
  induction fuel generalizing m k i d tmp with
  | zero =>
    cases h
    obtain rfl : i = 1 := by omega
    exact ⟨m, k, hd, htmp, by ring⟩
  | succ fuel ih =>
    unfold Dec.powerLoop at h
    split at h
    · cases h
      obtain rfl : i = 1 := by omega
      exact ⟨m, k, hd, htmp, by ring⟩
    · have hhalf : i / 2 < 2 ^ (fuel + 1) := by
        rw [pow_succ] at hfuel
        omega
      dsimp only at h
      split at h
      · -- an odd exponent: one factor moves to `tmp`
        obtain ⟨tmp₁, d₁, htmp₁, hd₁, h⟩ := Run.bind2_ok h
        obtain ⟨m', k', hm', hk', hsum⟩ :=
          ih (hd.mul hb hd hd₁) (htmp.mul hb hd htmp₁) (by omega) hhalf h
        refine ⟨m', k', hm', hk', ?_⟩
        have hi2 : 2 * (i / 2) + 1 = i := by omega
        calc m' + k' = (m + m) * (i / 2) + (k + m) := hsum
          _ = m * (2 * (i / 2) + 1) + k := by ring
          _ = m * i + k := by rw [hi2]
      · obtain ⟨tmp₁, htmp₁, h⟩ := Run.bind_ok h
        cases htmp₁
        obtain ⟨d₁, hd₁, h⟩ := Run.bind_ok h
        obtain ⟨m', k', hm', hk', hsum⟩ := ih (hd.mul hb hd hd₁) htmp (by omega) hhalf h
        refine ⟨m', k', hm', hk', ?_⟩
        have hi2 : 2 * (i / 2) = i := by omega
        calc m' + k' = (m + m) * (i / 2) + k := hsum
          _ = m * (2 * (i / 2)) + k := by ring
          _ = m * i + k := by rw [hi2]

/-- **Powers with whole exponents** are approximated from below. -/
lemma power_ok {n : ℕ} (ha : 0 < a.raw) (hn : n < 2 ^ 64) (h : power math a n = .ok c) :
    PowerOf a.toReal n c := by
  have hb := toReal_pos ha
  unfold power at h
  split at h
  · rename_i hzero
    cases h
    rw [hzero]
    exact PowerOf.one _
  · obtain ⟨⟨d, tmp⟩, hloop, h⟩ := Run.bind_ok h
    have hfuel : n < 2 ^ (64 + 1) := hn.trans (by norm_num)
    obtain ⟨m, k, hd, htmp, hsum⟩ :=
      (PowerOf.self ha).powerLoop hb (PowerOf.one _) (by omega) hfuel hloop
    have hmul := hd.mul hb htmp h
    rw [hsum, one_mul, add_zero] at hmul
    exact hmul

end Dec

namespace Osmomath

open Dec (ulp)
open BinomialSeries Run FixedPoint

variable {math : Math} {base exp x term sum r : Dec} {xneg negative : Bool}

/-! ### The series -/

/-- The factor that the flag `negative` stands for. -/
def sgn (negative : Bool) : ℝ := if negative then -1 else 1

lemma sgn_mul_self (n : Bool) : sgn n * sgn n = 1 := by cases n <;> norm_num [sgn]

lemma abs_sgn (n : Bool) : |sgn n| = 1 := by cases n <;> norm_num [sgn]

lemma sgn_xor (n m : Bool) : sgn (n ^^ m) = sgn n * sgn m := by
  cases n <;> cases m <;> norm_num [sgn]

lemma absDifferenceWithSign_ok {a b : Dec} (h : absDifferenceWithSign math a b = .ok (x, xneg)) :
    0 ≤ x.raw ∧ a.toReal - b.toReal = sgn xneg * x.toReal := by
  unfold absDifferenceWithSign at h
  split at h
  · rename_i hle
    obtain ⟨_, hsub, h⟩ := bind_ok h
    cases h
    refine ⟨?_, ?_⟩
    · rw [Dec.sub_ok hsub]
      exact sub_nonneg.mpr hle
    · rw [Dec.toReal_sub hsub, sgn, if_neg (by simp), one_mul]
  · rename_i hle
    obtain ⟨_, hadd, h⟩ := bind_ok h
    cases h
    refine ⟨?_, ?_⟩
    · have hraw : x.raw = -a.raw + b.raw := Dec.checked_ok hadd
      have hlt : a.raw < b.raw := not_le.mp hle
      omega
    · rw [Dec.toReal_add hadd, Dec.toReal_neg, sgn, if_pos rfl]
      ring

/-- The variables of `PowApprox` after `k` terms: the last term, up to its sign, and the sum
are near those of the series. -/
structure Summed (a x : ℝ) (k : ℕ) (term sum : Dec) (negative : Bool) : Prop where
  term_nonneg : 0 ≤ term.raw
  term_near : |term.toReal - sgn negative * BinomialSeries.term a x k| ≤ 2 * k * ulp
  sum_near : |sum.toReal - partialSum a x k| ≤ k * (k + 1) * ulp

lemma Summed.start (a x : ℝ) : Summed a x 0 Dec.one Dec.one false where
  term_nonneg := by decide
  term_near := by simp [sgn]
  sum_near := by simp [partialSum_zero]

/-- The size of a term of the series is within the error of the term computed. -/
lemma Summed.abs_term {a x : ℝ} {k : ℕ} (h : Summed a x k term sum negative) :
    abs (term.toReal - |BinomialSeries.term a x k|) ≤ 2 * k * ulp := by
  have habs := abs_abs_sub_abs_le term.toReal (sgn negative * BinomialSeries.term a x k)
  rw [abs_mul, abs_sgn, one_mul, abs_of_nonneg (Dec.toReal_nonneg h.term_nonneg)] at habs
  exact habs.trans h.term_near

/-- One product with each of two factors and one quotient: the error grows by less than two
digits. -/
lemma abs_sub_le_of_round {δ τ t c x m₁ m₂ q e : ℝ} {k : ℕ} (hδ : 0 < δ) (hδ' : δ ≤ 1 / 2)
    (hc : 0 ≤ c) (hck : c ≤ k + 1) (hx : 0 ≤ x) (hx' : x ≤ 1) (ht : |t - τ| ≤ e)
    (h₁ : |m₁ - t * c| ≤ δ / 2) (h₂ : |m₂ - m₁ * x| ≤ δ / 2)
    (h₃ : |q - m₂ / (k + 1)| ≤ (1 / 2 + δ) * δ) : |q - τ * c * x / (k + 1)| ≤ e + 2 * δ := by
  have hk : (0 : ℝ) < k + 1 := by positivity
  have he : 0 ≤ e := (abs_nonneg _).trans ht
  have hm₁ : |m₁ - τ * c| ≤ e * (k + 1) + δ / 2 := by
    calc |m₁ - τ * c| = |(m₁ - t * c) + (t - τ) * c| := by ring_nf
      _ ≤ |m₁ - t * c| + |t - τ| * c := by
          rw [← abs_of_nonneg hc, ← abs_mul, abs_of_nonneg hc]
          exact abs_add_le _ _
      _ ≤ δ / 2 + e * (k + 1) := add_le_add h₁ (mul_le_mul ht hck hc he)
      _ = e * (k + 1) + δ / 2 := by ring
  have hm₂ : |m₂ - τ * c * x| ≤ e * (k + 1) + δ := by
    calc |m₂ - τ * c * x| = |(m₂ - m₁ * x) + (m₁ - τ * c) * x| := by ring_nf
      _ ≤ |m₂ - m₁ * x| + |m₁ - τ * c| * x := by
          rw [← abs_of_nonneg hx, ← abs_mul, abs_of_nonneg hx]
          exact abs_add_le _ _
      _ ≤ δ / 2 + (e * (k + 1) + δ / 2) * 1 :=
          add_le_add h₂ (mul_le_mul hm₁ hx' hx ((abs_nonneg _).trans hm₁))
      _ = e * (k + 1) + δ := by ring
  have hdiv : |m₂ - τ * c * x| / (k + 1) ≤ e + δ := by
    rw [div_le_iff₀ hk]
    have hkδ : δ ≤ δ * (k + 1) := le_mul_of_one_le_right hδ.le (by linarith [Nat.cast_nonneg (α := ℝ) k])
    nlinarith
  calc |q - τ * c * x / (k + 1)| = |(q - m₂ / (k + 1)) + (m₂ - τ * c * x) / (k + 1)| := by ring_nf
    _ ≤ |q - m₂ / (k + 1)| + |m₂ - τ * c * x| / (k + 1) := by
        rw [← abs_of_pos hk, ← abs_div, abs_of_pos hk]
        exact abs_add_le _ _
    _ ≤ (1 / 2 + δ) * δ + (e + δ) := add_le_add h₃ hdiv
    _ ≤ e + 2 * δ := by nlinarith

lemma Summed.next_term {a b : ℝ} {k : ℕ} {c t₁ t₂ t₃ : Dec} {cneg : Bool}
    (h : Summed a b k term sum negative) (ha : 0 ≤ a) (ha' : a ≤ 1)
    (hx : 0 ≤ x.raw) (hx' : x.toReal ≤ 1) (hb : b = sgn xneg * x.toReal)
    (hc : 0 ≤ c.raw) (hck : a - k = sgn cneg * c.toReal) (h₁ : Dec.mul math term c = .ok t₁)
    (h₂ : Dec.mul math t₁ x = .ok t₂) (h₃ : Dec.quo math t₂ (Dec.ofInt (k + 1 : ℕ)) = .ok t₃) :
    0 ≤ t₃.raw ∧ |t₃.toReal - sgn (negative ^^ xneg ^^ cneg) * BinomialSeries.term a b (k + 1)|
      ≤ 2 * (k + 1 : ℕ) * ulp := by
  have ht₁ : 0 ≤ t₁.raw := by
    rw [Dec.mul_ok h₁]
    exact mul_nonneg h.term_nonneg hc
  have ht₂ : 0 ≤ t₂.raw := by
    rw [Dec.mul_ok h₂]
    exact mul_nonneg ht₁ hx
  have hpos : 0 < (Dec.ofInt (k + 1 : ℕ)).raw := by
    show (0 : ℤ) < ((k + 1 : ℕ) : ℤ) * (Dec.unit : ℤ)
    have := Dec.unit_pos
    positivity
  have ht₃ : 0 ≤ t₃.raw := by
    rw [(Dec.quo_ok h₃).2]
    exact quo_nonneg ht₂ hpos.le
  refine ⟨ht₃, ?_⟩
  have hcle : c.toReal ≤ k + 1 := by
    have habs : |a - k| = c.toReal := by
      rw [hck, abs_mul, abs_sgn, one_mul, abs_of_nonneg (Dec.toReal_nonneg hc)]
    rw [← habs, abs_le]
    have hk : (0 : ℝ) ≤ k := Nat.cast_nonneg k
    constructor <;> linarith
  have hround := Dec.toReal_quo ht₂ hpos h₃
  rw [Dec.toReal_ofInt] at hround
  have hnear := abs_sub_le_of_round (k := k) Dec.ulp_pos Dec.ulp_le (Dec.toReal_nonneg hc) hcle
    (Dec.toReal_nonneg hx) hx' h.term_near (Dec.toReal_mul h₁) (Dec.toReal_mul h₂)
    (q := t₃.toReal) (by
      push_cast at hround
      exact hround.trans (Dec.quoError_unit_le _ _))
  -- both flags are signs of the factors
  have hsign : sgn (negative ^^ xneg ^^ cneg) * BinomialSeries.term a b (k + 1)
      = sgn negative * BinomialSeries.term a b k * c.toReal * x.toReal / (k + 1) := by
    rw [term_succ, hck, sgn_xor, sgn_xor]
    nth_rewrite 2 [hb]
    calc _ = sgn negative * BinomialSeries.term a b k * (sgn cneg * sgn cneg * c.toReal)
          * (sgn xneg * sgn xneg * x.toReal) / (k + 1) := by ring
      _ = _ := by rw [sgn_mul_self, sgn_mul_self, one_mul, one_mul]
  rw [hsign]
  calc _ ≤ 2 * k * ulp + 2 * ulp := hnear
    _ = 2 * (k + 1 : ℕ) * ulp := by
        push_cast
        ring

/-- **One round.**  Whether the next term is added, subtracted or zero, the sum has it. -/
lemma Summed.step {a b : ℝ} {k : ℕ} {t s : Dec} {next : Bool}
    (h : Summed a b k term sum negative) (ht : 0 ≤ t.raw)
    (hnear : |t.toReal - sgn next * BinomialSeries.term a b (k + 1)| ≤ 2 * (k + 1 : ℕ) * ulp)
    (hs : s.toReal = sum.toReal + sgn next * t.toReal) : Summed a b (k + 1) t s next := by
  refine ⟨ht, hnear, ?_⟩
  have hsplit : s.toReal - partialSum a b (k + 1) = (sum.toReal - partialSum a b k)
      + sgn next * (t.toReal - sgn next * BinomialSeries.term a b (k + 1)) := by
    rw [hs, partialSum_succ]
    linear_combination BinomialSeries.term a b (k + 1) * sgn_mul_self next
  calc |s.toReal - partialSum a b (k + 1)|
      ≤ |sum.toReal - partialSum a b k|
        + |sgn next * (t.toReal - sgn next * BinomialSeries.term a b (k + 1))| := by
        rw [hsplit]
        exact abs_add_le _ _
    _ ≤ k * (k + 1) * ulp + 2 * (k + 1 : ℕ) * ulp := by
        rw [abs_mul, abs_sgn, one_mul]
        exact add_le_add h.sum_near hnear
    _ = (k + 1 : ℕ) * ((k + 1 : ℕ) + 1) * ulp := by
        push_cast
        ring

/-- How the loop of `PowApprox` ends: with a partial sum of `n` terms, the last of which is
below the precision while those before are not. -/
structure Ended (a b : ℝ) (precision : Dec) (k n : ℕ) (r : Dec) : Prop where
  le : k ≤ n
  near : |r.toReal - partialSum a b n| ≤ n * (n + 1) * ulp
  small : |BinomialSeries.term a b n| ≤ precision.toReal + 2 * n * ulp
  large : ∀ j, k ≤ j → j < n → precision.toReal ≤ |BinomialSeries.term a b j| + 2 * j * ulp

lemma powApproxLoop_ok {a : ℝ} {precision : Dec} {rounds k : ℕ} (hexp : a = exp.toReal)
    (ha : 0 ≤ a) (ha' : a ≤ 1) (hx : 0 ≤ x.raw) (hx' : x.toReal ≤ 1) (hprec : 0 < precision.raw)
    (hinv : Summed a (sgn xneg * x.toReal) k term sum negative)
    (h : powApproxLoop math x xneg exp precision rounds (k + 1) term sum negative = .ok r) :
    ∃ n, n ≤ k + rounds ∧ Ended a (sgn xneg * x.toReal) precision k n r := by
  induction rounds generalizing k term sum negative with
  | zero => cases h
  | succ rounds ih =>
    have habs := abs_le.mp hinv.abs_term
    unfold powApproxLoop at h
    split at h
    · -- the last term is small
      rename_i hlt
      cases h
      refine ⟨k, by omega, le_rfl, hinv.sum_near, ?_, fun j hj hj' => by omega⟩
      linarith [Dec.toReal_lt_toReal hlt]
    · rename_i hge
      have hlarge : precision.toReal
          ≤ |BinomialSeries.term a (sgn xneg * x.toReal) k| + 2 * k * ulp := by
        linarith [Dec.toReal_le_toReal (not_lt.mp hge)]
      obtain ⟨⟨c, cneg⟩, hc, h⟩ := bind_ok h
      obtain ⟨t₁, t₂, t₃, h₁, h₂, h₃, h⟩ := bind3_ok h
      obtain ⟨hc0, hck⟩ := absDifferenceWithSign_ok hc
      rw [Dec.toReal_ofInt, ← hexp] at hck
      push_cast at hck
      rw [add_sub_cancel_right] at hck
      obtain ⟨ht₃, hnear⟩ := hinv.next_term ha ha' hx hx' rfl hc0 hck h₁ h₂ h₃
      have hcont : ∀ {s : Dec}, s.toReal
          = sum.toReal + sgn (negative ^^ xneg ^^ cneg) * t₃.toReal →
          powApproxLoop math x xneg exp precision rounds (k + 1 + 1) t₃ s
            (negative ^^ xneg ^^ cneg) = .ok r →
          ∃ n, n ≤ k + (rounds + 1) ∧ Ended a (sgn xneg * x.toReal) precision k n r := by
        intro s hs h
        obtain ⟨n, hn, hend⟩ := ih (hinv.step ht₃ hnear hs) h
        refine ⟨n, by omega, (Nat.le_succ k).trans hend.le, hend.near, hend.small, ?_⟩
        intro j hj hjn
        rcases hj.eq_or_lt with rfl | hj
        · exact hlarge
        · exact hend.large j hj hjn
      dsimp only at h
      split at h
      · -- the next term is zero
        rename_i hzero
        cases h
        have hraw : t₃.raw = 0 := of_decide_eq_true hzero
        have hreal : t₃.toReal = 0 := by rw [Dec.toReal, hraw, Int.cast_zero, zero_div]
        have hinv' : Summed a (sgn xneg * x.toReal) (k + 1) t₃ r (negative ^^ xneg ^^ cneg) :=
          hinv.step ht₃ hnear (by rw [hreal, mul_zero, add_zero])
        refine ⟨k + 1, by omega, Nat.le_succ k, hinv'.sum_near, ?_, ?_⟩
        · have := (abs_le.mp hinv'.abs_term).1
          linarith [Dec.toReal_pos hprec]
        · intro j hj hjn
          obtain rfl : j = k := by omega
          exact hlarge
      · split at h
        · rename_i hneg
          obtain ⟨s, hsub, h⟩ := bind_ok h
          split at h
          · cases h
          · refine hcont ?_ h
            rw [Dec.toReal_sub hsub, hneg, sgn, if_pos rfl]
            ring
        · rename_i hneg
          obtain ⟨s, hadd, h⟩ := bind_ok h
          split at h
          · cases h
          · refine hcont ?_ h
            rw [Dec.toReal_add hadd, sgn, if_neg hneg, one_mul]

/-! ### The error of `PowApprox` -/

-- by name, so that no definition below holds a proof of it
local instance atLeastTwo : Nat.AtLeastTwo 2 := ⟨le_rfl⟩

/-- A number of terms after which one has fallen below the precision. -/
noncomputable def rounds (x : ℝ) : ℕ :=
  sInf {N | powIterationLimit ≤ N ∨ x ^ N + 2 * N * ulp < powPrecision.toReal}

lemma rounds_spec (x : ℝ) : powIterationLimit ≤ rounds x
    ∨ x ^ rounds x + 2 * rounds x * ulp < powPrecision.toReal :=
  Nat.sInf_mem (s := {N | powIterationLimit ≤ N ∨ x ^ N + 2 * N * ulp < powPrecision.toReal})
    ⟨powIterationLimit, Or.inl le_rfl⟩

lemma rounds_le (x : ℝ) : rounds x ≤ powIterationLimit := Nat.sInf_le (.inl le_rfl)

/-- By how much the series can fall short. -/
noncomputable def seriesError (b : ℝ) : ℝ :=
  rounds |b - 1| * (rounds |b - 1| + 3) * ulp + if 1 < b then powPrecision.toReal else 0

lemma toReal_powPrecision : powPrecision.toReal = 1 / 10 ^ 8 := by
  unfold powPrecision Dec.toReal Dec.unit
  norm_num

lemma seriesError_nonneg (b : ℝ) : 0 ≤ seriesError b := by
  have hu := Dec.ulp_pos
  unfold seriesError
  rw [toReal_powPrecision]
  split <;> positivity

lemma seriesError_lt (b : ℝ) : seriesError b < 1 := by
  have hN : (rounds |b - 1| : ℝ) ≤ 150000 := by exact_mod_cast rounds_le |b - 1|
  have hN0 : (0 : ℝ) ≤ rounds |b - 1| := Nat.cast_nonneg _
  have hterm : (rounds |b - 1| : ℝ) * (rounds |b - 1| + 3) * ulp ≤ 1 / 2 := by
    have hprod : (rounds |b - 1| : ℝ) * (rounds |b - 1| + 3) ≤ 150000 * 150003 := by nlinarith
    unfold ulp Dec.unit
    push_cast
    rw [mul_one_div, div_le_iff₀ (by norm_num)]
    linarith
  unfold seriesError
  rw [toReal_powPrecision]
  split <;> norm_num <;> linarith

/-- How the partial sum that `PowApprox` returns compares with the power. -/
lemma Ended.ge {a b : ℝ} {n : ℕ} (h : Ended a (b - 1) powPrecision 0 n r) (ha : 0 ≤ a)
    (ha' : a ≤ 1) (hb : 0 < b) (hb' : b < 2) (hn : n ≤ powIterationLimit) :
    b ^ a - seriesError b ≤ r.toReal := by
  have hu := Dec.ulp_pos
  have hpower : 1 + (b - 1) = b := by ring
  have hnear := (abs_le.mp h.near).1
  -- the number of terms
  have hnN : n ≤ rounds |b - 1| := by
    rcases rounds_spec |b - 1| with hlimit | hsmall
    · exact hn.trans hlimit
    · by_contra hlt
      have hlarge := h.large (rounds |b - 1|) (Nat.zero_le _) (not_le.mp hlt)
      have hterm := abs_term_le (x := b - 1) ha ha' (rounds |b - 1|)
      linarith
  have hnN' : (n : ℝ) ≤ rounds |b - 1| := by exact_mod_cast hnN
  have hn0 : (0 : ℝ) ≤ n := Nat.cast_nonneg n
  have herr : (n : ℝ) * (n + 3) * ulp ≤ rounds |b - 1| * (rounds |b - 1| + 3) * ulp := by
    gcongr
  have hless : (n : ℝ) * (n + 1) * ulp ≤ n * (n + 3) * ulp := by
    gcongr
    norm_num
  unfold seriesError
  rcases le_or_gt b 1 with hle | hgt
  · -- every partial sum is large enough
    have hsum := rpow_le_partialSum_of_nonpos ha ha' (by linarith) (by linarith : b - 1 ≤ 0) n
    rw [hpower] at hsum
    rw [if_neg (not_lt.mpr hle)]
    linarith
  · rw [if_pos hgt, toReal_powPrecision]
    rcases Nat.even_or_odd n with heven | hodd
    · -- the sum without the last term is large enough, and that term is small
      rcases n with - | m
      · have hfirst := h.small
        rw [term_zero, toReal_powPrecision] at hfirst
        norm_num at hfirst
      · have hm : Odd m := by
          rcases Nat.even_or_odd m with hm | hm
          · exact absurd heven (Nat.not_even_iff_odd.mpr hm.add_one)
          · exact hm
        have hsum := rpow_le_partialSum_of_odd ha ha' (by linarith : 0 ≤ b - 1) (by linarith) hm
        have hsmall := (abs_le.mp h.small).1
        rw [toReal_powPrecision] at hsmall
        rw [partialSum_succ] at hnear
        rw [hpower] at hsum
        have hsplit : ((m + 1 : ℕ) : ℝ) * ((m + 1 : ℕ) + 3) * ulp
            = ((m + 1 : ℕ) : ℝ) * ((m + 1 : ℕ) + 1) * ulp + 2 * (m + 1 : ℕ) * ulp := by ring
        linarith
    · have hsum := rpow_le_partialSum_of_odd ha ha' (by linarith : 0 ≤ b - 1) (by linarith) hodd
      rw [hpower] at hsum
      norm_num
      linarith

/-- The square root of the library, of a positive number, is at most `ε` too small. -/
structure SqrtWithin (math : Math) (ε : ℝ) : Prop where
  nonneg : 0 ≤ ε
  ge : ∀ d r, 0 < d.raw → math.approxSqrt d = .ok r → 0 ≤ r.raw ∧ √d.toReal - ε ≤ r.toReal

/-- By how much the fractional part of a power can fall short. -/
noncomputable def fracError (ε b f : ℝ) : ℝ := if f = 1 / 2 then ε else seriesError b

variable {ε : ℝ}

lemma fracError_nonneg (hε : 0 ≤ ε) (b f : ℝ) : 0 ≤ fracError ε b f := by
  unfold fracError
  split
  · exact hε
  · exact seriesError_nonneg b

lemma toReal_eq_half_iff : exp.toReal = 1 / 2 ↔ exp = oneHalf := by
  have hhalf : oneHalf.toReal = 1 / 2 := by
    unfold oneHalf Dec.toReal Dec.unit
    norm_num
  rw [← hhalf, Dec.toReal, Dec.toReal, div_left_inj' Dec.unit_cast_pos.ne', Int.cast_inj]
  exact Dec.ext_iff.symm

/-- **`PowApprox` from below.** -/
lemma powApprox_ge (hsqrt : SqrtWithin math ε) (hb' : base.raw < two.raw) (he : 0 < exp.raw)
    (he' : exp.raw < Dec.unit) (h : powApprox math base exp powPrecision = .ok r) :
    base.toReal ^ exp.toReal - fracError ε base.toReal exp.toReal ≤ r.toReal
      ∧ (1 < base.toReal → 0 ≤ r.raw) := by
  obtain ⟨_, hpos, h⟩ := bind_ok h
  have hb : 0 < base.raw := of_decide_eq_true (ensure_ok hpos)
  have hbR := Dec.toReal_pos hb
  rw [if_neg (by simp [Dec.isZero, he.ne'])] at h
  unfold fracError
  split at h
  · -- one half
    rename_i hhalf
    obtain ⟨hnonneg, hge⟩ := hsqrt.ge _ _ hb (mapError_ok h)
    have hexp := toReal_eq_half_iff.mpr hhalf
    rw [if_pos hexp, hexp, ← Real.sqrt_eq_rpow]
    exact ⟨hge, fun _ => hnonneg⟩
  · rename_i hhalf
    rw [if_neg fun hexp => hhalf (toReal_eq_half_iff.mp hexp)]
    obtain ⟨⟨x, xneg⟩, hx, h⟩ := bind_ok h
    obtain ⟨hx0, hxval⟩ := absDifferenceWithSign_ok hx
    rw [Dec.toReal_one] at hxval
    have hb2 : base.toReal < 2 := by
      have htwo : two.toReal = 2 := by
        unfold two Dec.toReal Dec.unit
        norm_num
      exact htwo ▸ Dec.toReal_lt_toReal hb'
    have hx1 : x.toReal ≤ 1 := by
      have habs : |base.toReal - 1| = x.toReal := by
        rw [hxval, abs_mul, abs_sgn, one_mul, abs_of_nonneg (Dec.toReal_nonneg hx0)]
      rw [← habs, abs_le]
      constructor <;> linarith
    have hexp0 : 0 ≤ exp.toReal := Dec.toReal_nonneg he.le
    have hexp1 : exp.toReal ≤ 1 := by
      rw [← Dec.toReal_one]
      exact Dec.toReal_le_toReal he'.le
    obtain ⟨n, hn, hend⟩ := powApproxLoop_ok rfl hexp0 hexp1 hx0 hx1 (by decide)
      (Summed.start _ _) h
    rw [← hxval] at hend
    have hge := hend.ge hexp0 hexp1 hbR hb2 (by omega)
    refine ⟨hge, fun hgt => ?_⟩
    have hone : 1 ≤ base.toReal ^ exp.toReal := Real.one_le_rpow hgt.le hexp0
    have hrpos : 0 < r.toReal := by linarith [seriesError_lt base.toReal]
    rw [Dec.toReal, div_pos_iff_of_pos_right Dec.unit_cast_pos] at hrpos
    exact (by exact_mod_cast hrpos : (0 : ℤ) < r.raw).le

/-! ### The error of `Pow` -/

/-- By how much `Pow` can fall short: half a digit for every factor of the whole part but the
first, and for a fractional part its own error. -/
noncomputable def powError (ε b e : ℝ) : ℝ :=
  max 1 b ^ e * ((⌊e⌋₊ - 1 : ℕ) * (ulp / 2))
    + if Int.fract e = 0 then 0
      else max 1 b ^ ⌊e⌋₊ * fracError ε b (Int.fract e) + ulp / 2

lemma floor_toReal (he : 0 ≤ exp.raw) : (⌊exp.toReal⌋₊ : ℤ) = exp.raw.tdiv Dec.unit := by
  rw [Int.natCast_floor_eq_floor (Dec.toReal_nonneg he), Dec.toReal, Int.floor_div_natCast,
    Int.floor_intCast, Int.tdiv_eq_ediv_of_nonneg he]

lemma toReal_fractional {f : Dec} (he : 0 ≤ exp.raw)
    (h : Dec.sub math exp exp.truncateDec = .ok f) :
    f.toReal = Int.fract exp.toReal ∧ 0 ≤ f.raw ∧ f.raw < Dec.unit := by
  have hunit := Dec.unit_pos
  have hraw : f.raw = exp.raw % Dec.unit := by
    rw [Dec.sub_ok h, Dec.truncateDec, Int.tdiv_eq_ediv_of_nonneg he]
    have := Int.mul_ediv_add_emod exp.raw Dec.unit
    linarith
  refine ⟨?_, ?_, ?_⟩
  · have hwhole : exp.truncateDec.toReal = (⌊exp.toReal⌋₊ : ℤ) := by
      rw [floor_toReal he]
      exact Dec.toReal_ofInt _
    rw [Dec.toReal_sub h, hwhole, Int.natCast_floor_eq_floor (Dec.toReal_nonneg he),
      Int.self_sub_floor]
  · rw [hraw]
    exact Int.emod_nonneg _ (by omega)
  · rw [hraw]
    exact Int.emod_lt_of_pos _ (by omega)

lemma mul_frac_ge {b f φ : ℝ} {n : ℕ} {whole frac : Dec} (hb : 0 < b) (hf : 0 ≤ f) (hφ : 0 ≤ φ)
    (hwhole : Dec.PowerOf b n whole) (hfrac : b ^ f - φ ≤ frac.toReal)
    (hnonneg : 1 < b → 0 ≤ frac.raw) :
    b ^ n * b ^ f - max 1 b ^ n * (max 1 b ^ f * ((n - 1 : ℕ) * (ulp / 2)) + φ)
      ≤ whole.toReal * frac.toReal := by
  set B := max 1 b
  have hu := Dec.ulp_pos
  have hB : 1 ≤ B := le_max_left 1 b
  have hbB : b ≤ B := le_max_right 1 b
  have hBf : 1 ≤ B ^ f := Real.one_le_rpow hB hf
  rcases le_or_gt 0 frac.raw with hpos | hneg
  · have hscale : B ^ f * (φ / B ^ f) = φ := mul_div_cancel₀ φ (by linarith)
    have hprod := Dec.mul_sub_le_mul (E := (n - 1 : ℕ) * (ulp / 2)) (F := φ / B ^ f)
      (pow_nonneg hb.le n) (pow_le_pow_left₀ hb.le hbB n) (Real.rpow_nonneg hb.le f)
      (Real.rpow_le_rpow hb.le hbB hf) (by positivity) (by positivity)
      (Dec.toReal_nonneg hwhole.nonneg) (Dec.toReal_nonneg hpos) hwhole.ge (by rwa [hscale])
    calc _ = b ^ n * b ^ f - B ^ n * B ^ f * ((n - 1 : ℕ) * (ulp / 2) + φ / B ^ f) := by
          rw [mul_assoc (B ^ n), mul_add (B ^ f), hscale]
      _ ≤ whole.toReal * frac.toReal := hprod
  · -- a negative second factor: the base is at most one, and so is the first factor
    have hle : b ≤ 1 := by
      by_contra hgt
      exact absurd (hnonneg (not_le.mp hgt)) (not_le.mpr hneg)
    have hB1 : B = 1 := max_eq_left hle
    have hwhole1 : whole.toReal ≤ 1 := by
      rw [← Dec.toReal_one]
      exact Dec.toReal_le_toReal (hwhole.le_one hle)
    have hfrac0 : frac.toReal < 0 := by
      have := Dec.toReal_lt_toReal (b := Dec.zero) hneg
      simpa [Dec.zero, Dec.toReal] using this
    have hbn : b ^ n ≤ 1 := pow_le_one₀ hb.le hle
    have hbf : 0 ≤ b ^ f := Real.rpow_nonneg hb.le f
    have hE : 0 ≤ ((n - 1 : ℕ) : ℝ) * (ulp / 2) := by positivity
    rw [hB1, one_pow, Real.one_rpow, one_mul, one_mul]
    calc b ^ n * b ^ f - ((n - 1 : ℕ) * (ulp / 2) + φ) ≤ b ^ f - φ := by nlinarith
      _ ≤ frac.toReal := hfrac
      _ ≤ whole.toReal * frac.toReal := by nlinarith [Dec.toReal_nonneg hwhole.nonneg]

/-- **`Pow` from below.** -/
lemma pow_ge (hsqrt : SqrtWithin math ε) (he : 0 ≤ exp.raw) (h : pow math base exp = .ok r) :
    base.toReal ^ exp.toReal - powError ε base.toReal exp.toReal ≤ r.toReal := by
  have hb := pow_ok h
  have hbR := Dec.toReal_pos hb
  obtain ⟨_, _, -, hlt, h⟩ := bind2_ok h
  have hb' : base.raw < two.raw := of_decide_eq_true (ensure_ok hlt)
  obtain ⟨f, n, whole, hf, hn, hwhole, h⟩ := bind3_ok h
  obtain ⟨hfract, hf0, hf1⟩ := toReal_fractional he hf
  -- the whole part of the exponent fits its machine type
  have hexp : (⌊exp.toReal⌋₊ : ℤ) = n ∧ n < 2 ^ 63 := by
    have htrunc : exp.truncateDec.raw.tdiv Dec.unit = exp.raw.tdiv Dec.unit :=
      Int.mul_tdiv_cancel _ (by decide)
    unfold Dec.truncateInt64 at hn
    dsimp only at hn
    split at hn
    · rename_i hrange
      rw [htrunc] at hrange hn
      rw [← Except.ok.inj hn]
      exact ⟨floor_toReal he, hrange.2⟩
    · cases hn
  rw [← hexp.1, Int.emod_eq_of_lt (Int.natCast_nonneg _) (by omega), Int.toNat_natCast] at hwhole
  have hpower := Dec.power_ok hb (by omega) hwhole
  have hsplit : exp.toReal = ⌊exp.toReal⌋₊ + Int.fract exp.toReal := by
    rw [natCast_floor_eq_intCast_floor (Dec.toReal_nonneg he), Int.floor_add_fract]
  have hsum : ∀ c : ℝ, 0 < c → c ^ exp.toReal = c ^ ⌊exp.toReal⌋₊ * c ^ Int.fract exp.toReal := by
    intro c hc
    rw [← Real.rpow_natCast, ← Real.rpow_add hc, ← hsplit]
  unfold powError
  split at h
  · -- a whole exponent
    rename_i hzero
    cases h
    have hfract0 : Int.fract exp.toReal = 0 := by
      have hraw : f.raw = 0 := of_decide_eq_true hzero
      rw [← hfract, Dec.toReal, hraw, Int.cast_zero, zero_div]
    have hB : 0 < max 1 base.toReal := lt_max_of_lt_left one_pos
    rw [if_pos hfract0, add_zero, hsum _ hbR, hsum _ hB, hfract0, Real.rpow_zero, Real.rpow_zero,
      mul_one, mul_one]
    exact hpower.ge
  · rename_i hzero
    have hfpos : 0 < f.raw := by
      have hne : f.raw ≠ 0 := fun h0 => hzero (decide_eq_true h0)
      omega
    have hfract0 : Int.fract exp.toReal ≠ 0 := by
      rw [← hfract]
      exact (Dec.toReal_pos hfpos).ne'
    obtain ⟨frac, hfrac, h⟩ := bind_ok h
    obtain ⟨hge, hnonneg⟩ := powApprox_ge hsqrt hb' hfpos hf1 hfrac
    rw [hfract] at hge
    have hprod := mul_frac_ge hbR (Int.fract_nonneg _) (fracError_nonneg hsqrt.nonneg _ _) hpower
      hge hnonneg
    have hround := (abs_le.mp (Dec.toReal_mul h)).1
    have hB : 0 < max 1 base.toReal := lt_max_of_lt_left one_pos
    rw [if_neg hfract0, hsum _ hbR, hsum _ hB]
    linarith

end Osmomath

end MaanyDex
