/-
The solver of stableswap pools (`pool-models/stableswap/amm.go`) in exact arithmetic.

The functions are written over the operations that they use (`Arithmetic`).  With those of
`BigDec` they are the functions of `Gamm/Stableswap.lean` (`*_bigDec`); with those of a field,
where nothing is rounded and nothing overflows, they are polynomials:

    iterK xf                =  (xf³ + (yf² + w) xf) - (x₀³ + (yf² + w) x₀)
    targetKCalculator       =  k / yf                 - (x₀³ + (yf² + w) x₀)

where `k = x₀ y₀ (x₀² + y₀² + w)`.
-/
import MaanyDex.Gamm.Stableswap

namespace MaanyDex.Gamm.Stableswap

open Osmomath

/-- The operations of the solver. -/
structure Arithmetic (α : Type) where
  zero : α
  one : α
  add : α → α → Result α
  sub : α → α → Result α
  mul : α → α → Result α
  mulInt64 : α → ℤ → Result α
  quo : α → α → Result α
  neg : α → α
  ceil : α → α
  isPositive : α → Bool
  isNegative : α → Bool
  isZero : α → Bool
  lt : α → α → Bool

namespace Arithmetic

/-- The operations of `osmomath.BigDec`. -/
def bigDec : Arithmetic BigDec where
  zero := BigDec.zero
  one := BigDec.one
  add := BigDec.add
  sub := BigDec.sub
  mul := BigDec.mul
  mulInt64 := BigDec.mulInt64
  quo := BigDec.quo
  neg := BigDec.neg
  ceil := BigDec.ceil
  isPositive := BigDec.isPositive
  isNegative := BigDec.isNegative
  isZero := BigDec.isZero
  lt a b := a < b

section Exact

variable (K : Type) [Field K] [LinearOrder K] [FloorRing K]

/-- Operations without rounding and overflow. -/
def exact : Arithmetic K where
  zero := 0
  one := 1
  add a b := .ok (a + b)
  sub a b := .ok (a - b)
  mul a b := .ok (a * b)
  mulInt64 a i := .ok (a * i)
  quo a b := if b = 0 then .error (.panic "division by zero") else .ok (a / b)
  neg a := -a
  ceil a := ⌈a⌉
  isPositive a := 0 < a
  isNegative a := a < 0
  isZero a := a = 0
  lt a b := a < b

end Exact

variable {α : Type} (A : Arithmetic α) (xReserve yReserve wSumSquares : α)

def cfmmConstantMultiNoVY : Result α := do
  ensure (A.isPositive xReserve && A.isPositive yReserve && !A.isNegative wSumSquares)
    (.panic "invalid input: reserves must be positive")
  let x2 ← A.mul xReserve xReserve
  let y2 ← A.mul yReserve yReserve
  let sum ← A.add x2 y2
  let sum ← A.add sum wSumSquares
  A.mul xReserve sum

def cfmmConstantMultiNoV : Result α := do
  let k ← A.cfmmConstantMultiNoVY xReserve yReserve wSumSquares
  A.mul k yReserve

def targetKCalculator (x0 y0 w yf : α) : Result α := do
  let startK ← A.cfmmConstantMultiNoV x0 y0 w
  let yfRemoved ← A.quo startK yf
  let yf2 ← A.mul yf yf
  let innerTerm ← A.add yf2 w
  let x02 ← A.mul x0 x0
  let innerTerm ← A.add innerTerm x02
  let constantTerm ← A.mul innerTerm x0
  A.sub yfRemoved constantTerm

/-- The coefficients that `iterKCalculator` computes beforehand. -/
def iterKCoefficients (x0 w yf : α) : Result (α × α) := do
  let quadraticCoeff ← A.mulInt64 x0 3
  let linear ← A.mul quadraticCoeff x0
  let linear ← A.add linear w
  let yf2 ← A.mul yf yf
  let linear ← A.add linear yf2
  .ok (quadraticCoeff, A.neg linear)

/-- The function that `iterKCalculator` returns. -/
def iterK (x0 quadraticCoeff linearCoeff xf : α) : Result α := do
  let xOut ← A.sub x0 xf
  let res ← A.add (A.neg xOut) quadraticCoeff
  let res ← A.mul res xOut
  let res ← A.add res linearCoeff
  A.mul res xOut

def deriveUpperLowerXFinalReserveBounds (xReserve yReserve wSumSquares yFinal : α) :
    Result (α × α) := do
  let k0 ← A.cfmmConstantMultiNoV xReserve yFinal wSumSquares
  let k ← A.cfmmConstantMultiNoV xReserve yReserve wSumSquares
  ensure (!A.isZero k0 && !A.isZero k) (.panic "k should never be zero")
  let kRatio ← A.quo k0 k
  if A.lt kRatio A.one then do
    let bound ← A.quo xReserve kRatio
    .ok (xReserve, A.ceil bound)
  else if A.lt A.one kRatio then .ok (A.zero, xReserve)
  else .ok (xReserve, xReserve)

/-! ### The functions of the pool -/

lemma cfmmConstantMultiNoV_bigDec (x y w : BigDec) :
    bigDec.cfmmConstantMultiNoV x y w = Stableswap.cfmmConstantMultiNoV x y w := by
  simp only [cfmmConstantMultiNoV, cfmmConstantMultiNoVY, bigDec, Stableswap.cfmmConstantMultiNoV,
    Stableswap.cfmmConstantMultiNoVY]

lemma targetKCalculator_bigDec (x0 y0 w yf : BigDec) :
    bigDec.targetKCalculator x0 y0 w yf = Stableswap.targetKCalculator x0 y0 w yf := by
  rw [targetKCalculator, cfmmConstantMultiNoV_bigDec]
  simp only [bigDec, Stableswap.targetKCalculator]

lemma iterKCoefficients_bigDec (x0 w yf : BigDec) :
    bigDec.iterKCoefficients x0 w yf = Stableswap.iterKCoefficients x0 w yf := by
  simp only [iterKCoefficients, bigDec, Stableswap.iterKCoefficients]

lemma iterK_bigDec (x0 a b xf : BigDec) : bigDec.iterK x0 a b xf = Stableswap.iterK x0 a b xf := by
  simp only [iterK, bigDec, Stableswap.iterK]

lemma deriveUpperLowerXFinalReserveBounds_bigDec (x0 y0 w yf : BigDec) :
    bigDec.deriveUpperLowerXFinalReserveBounds x0 y0 w yf
      = Stableswap.deriveUpperLowerXFinalReserveBounds x0 y0 w yf := by
  rw [deriveUpperLowerXFinalReserveBounds]
  simp only [cfmmConstantMultiNoV_bigDec]
  simp only [bigDec, decide_eq_true_eq, Stableswap.deriveUpperLowerXFinalReserveBounds]

/-! ### Without rounding -/

section Exact

variable {K : Type} [Field K] [LinearOrder K] [IsStrictOrderedRing K] {x y w x0 y0 yf xf : K}

/-- What the search compares, as a function of the reserve it looks for. -/
def curve (w yf x : K) : K := x ^ 3 + (yf ^ 2 + w) * x

lemma curve_strictMono (hw : 0 ≤ w) (hyf : 0 < yf) : StrictMono (curve w yf) := by
  intro x z hxz
  have hcube : x ^ 3 ≤ z ^ 3 := (Odd.strictMono_pow ⟨1, rfl⟩ hxz).le
  have hlin : (yf ^ 2 + w) * x < (yf ^ 2 + w) * z := mul_lt_mul_of_pos_left hxz (by positivity)
  exact add_lt_add_of_le_of_lt hcube hlin

lemma mul_curve_le (hx : 0 ≤ x) {c : K} (hc : 1 ≤ c) : c * curve w yf x ≤ curve w yf (c * x) := by
  have hsq : c * 1 ≤ c * c ^ 2 := mul_le_mul_of_nonneg_left (one_le_pow₀ hc) (by linarith)
  have hcube : c * x ^ 3 ≤ c * c ^ 2 * x ^ 3 := by
    have := mul_le_mul_of_nonneg_right hsq (show 0 ≤ x ^ 3 by positivity)
    linarith
  calc c * curve w yf x = c * x ^ 3 + (yf ^ 2 + w) * (c * x) := by
        unfold curve
        ring
    _ ≤ c * c ^ 2 * x ^ 3 + (yf ^ 2 + w) * (c * x) := by linarith
    _ = curve w yf (c * x) := by
        unfold curve
        ring

def constant (x y w : K) : K := curve w y x * y

lemma constant_pos (hx : 0 < x) (hy : 0 < y) (hw : 0 ≤ w) : 0 < constant x y w := by
  unfold constant curve
  positivity

/-- What the search looks for. -/
def target (x0 y0 w yf : K) : K := constant x0 y0 w / yf - curve w yf x0

/-- The search compares with its target as the curve with the constant of the pool. -/
lemma cmp_target (hyf : 0 < yf) :
    cmp (curve w yf xf - curve w yf x0) (target x0 y0 w yf)
      = cmp (constant xf yf w) (constant x0 y0 w) := by
  have hlt : ∀ a b c : K, a - c < b / yf - c ↔ a * yf < b := fun a b c => by
    rw [sub_lt_sub_iff_right, lt_div_iff₀ hyf]
  have hgt : ∀ a b c : K, b / yf - c < a - c ↔ b < a * yf := fun a b c => by
    rw [sub_lt_sub_iff_right, div_lt_iff₀ hyf]
  unfold cmp cmpUsing target
  simp only [hlt, hgt]
  rfl

variable [FloorRing K]

omit [IsStrictOrderedRing K] in
lemma cfmmConstantMultiNoV_exact (hx : 0 < x) (hy : 0 < y) (hw : 0 ≤ w) :
    (exact K).cfmmConstantMultiNoV x y w = .ok (constant x y w) := by
  have hcheck : ((exact K).isPositive x && (exact K).isPositive y && !(exact K).isNegative w)
      = true := by simp [exact, hx, hy, hw]
  rw [cfmmConstantMultiNoV, cfmmConstantMultiNoVY, hcheck]
  refine congrArg Except.ok ?_
  show x * (x * x + y * y + w) * y = constant x y w
  unfold constant curve
  ring

omit [IsStrictOrderedRing K] in
lemma targetKCalculator_exact (hx : 0 < x0) (hy : 0 < y0) (hw : 0 ≤ w) (hyf : 0 < yf) :
    (exact K).targetKCalculator x0 y0 w yf = .ok (target x0 y0 w yf) := by
  rw [targetKCalculator, cfmmConstantMultiNoV_exact hx hy hw, Run.ok_bind]
  have hquo : (exact K).quo (constant x0 y0 w) yf = .ok (constant x0 y0 w / yf) := if_neg hyf.ne'
  rw [hquo]
  refine congrArg Except.ok ?_
  show constant x0 y0 w / yf - (yf * yf + w + x0 * x0) * x0 = target x0 y0 w yf
  unfold target curve
  ring

omit [IsStrictOrderedRing K] in
/-- The cubic in the change of the reserve is the curve, moved by a constant. -/
lemma iterK_exact (x0 w yf xf : K) :
    ((exact K).iterKCoefficients x0 w yf >>= fun c => (exact K).iterK x0 c.1 c.2 xf)
      = .ok (curve w yf xf - curve w yf x0) := by
  refine congrArg Except.ok ?_
  show ((-(x0 - xf) + x0 * ((3 : ℤ) : K)) * (x0 - xf) + -(x0 * ((3 : ℤ) : K) * x0 + w + yf * yf))
    * (x0 - xf) = _
  unfold curve
  push_cast
  ring

def bounds (x0 y0 w yf : K) : K × K :=
  if constant x0 yf w < constant x0 y0 w then
    (x0, ⌈x0 / (constant x0 yf w / constant x0 y0 w)⌉)
  else if constant x0 y0 w < constant x0 yf w then (0, x0)
  else (x0, x0)

lemma bounds_exact (hx : 0 < x0) (hy : 0 < y0) (hw : 0 ≤ w) (hyf : 0 < yf) :
    (exact K).deriveUpperLowerXFinalReserveBounds x0 y0 w yf = .ok (bounds x0 y0 w yf) := by
  have hk0 := constant_pos hx hyf hw
  have hk := constant_pos hx hy hw
  have hratio : 0 < constant x0 yf w / constant x0 y0 w := div_pos hk0 hk
  have hcheck : (!(exact K).isZero (constant x0 yf w) && !(exact K).isZero (constant x0 y0 w))
      = true := by simp [exact, hk0.ne', hk.ne']
  have hquo : (exact K).quo (constant x0 yf w) (constant x0 y0 w)
      = .ok (constant x0 yf w / constant x0 y0 w) := if_neg hk.ne'
  have hquo' : (exact K).quo x0 (constant x0 yf w / constant x0 y0 w)
      = .ok (x0 / (constant x0 yf w / constant x0 y0 w)) := if_neg hratio.ne'
  rw [deriveUpperLowerXFinalReserveBounds, cfmmConstantMultiNoV_exact hx hyf hw, Run.ok_bind,
    cfmmConstantMultiNoV_exact hx hy hw, Run.ok_bind, hcheck]
  show ((exact K).quo _ _ >>= _) = _
  rw [hquo, Run.ok_bind, hquo', Run.ok_bind]
  have hlt : (exact K).lt (constant x0 yf w / constant x0 y0 w) (exact K).one
      = decide (constant x0 yf w < constant x0 y0 w) := by
    show decide (_ < (1 : K)) = _
    simp only [div_lt_one hk]
  have hgt : (exact K).lt (exact K).one (constant x0 yf w / constant x0 y0 w)
      = decide (constant x0 y0 w < constant x0 yf w) := by
    show decide ((1 : K) < _) = _
    simp only [one_lt_div hk]
  rw [hlt, hgt]
  simp only [decide_eq_true_eq, bounds, apply_ite Except.ok]
  rfl

/-- Below the lower bound the curve is too small, above the upper bound it is too large. -/
lemma bounds_spec (hx : 0 < x0) (hy : 0 < y0) (hw : 0 ≤ w) (hyf : 0 < yf) :
    0 ≤ (bounds x0 y0 w yf).1 ∧ (bounds x0 y0 w yf).1 ≤ (bounds x0 y0 w yf).2
      ∧ curve w yf (bounds x0 y0 w yf).1 ≤ constant x0 y0 w / yf
      ∧ constant x0 y0 w / yf ≤ curve w yf (bounds x0 y0 w yf).2 := by
  have hk := constant_pos hx hy hw
  have hk0 := constant_pos hx hyf hw
  have hcurve : curve w yf x0 = constant x0 yf w / yf := by
    unfold constant
    rw [mul_div_cancel_right₀ _ hyf.ne']
  have hmono := (curve_strictMono hw hyf).monotone
  unfold bounds
  split_ifs with hlt hgt
  · -- the quotient of the constants is what the reserve is at most multiplied with
    have hc : 1 ≤ constant x0 y0 w / constant x0 yf w := (one_le_div hk0).mpr hlt.le
    have hbound : x0 / (constant x0 yf w / constant x0 y0 w)
        = constant x0 y0 w / constant x0 yf w * x0 := by
      field_simp
    have hceil := Int.le_ceil (x0 / (constant x0 yf w / constant x0 y0 w))
    refine ⟨hx.le, ?_, ?_, ?_⟩
    · refine le_trans ?_ hceil
      rw [hbound]
      exact le_mul_of_one_le_left hx.le hc
    · rw [hcurve]
      exact div_le_div_of_nonneg_right hlt.le hyf.le
    · calc constant x0 y0 w / yf = constant x0 y0 w / constant x0 yf w * curve w yf x0 := by
            rw [hcurve]
            field_simp
        _ ≤ curve w yf (constant x0 y0 w / constant x0 yf w * x0) := mul_curve_le hx.le hc
        _ ≤ curve w yf ⌈x0 / (constant x0 yf w / constant x0 y0 w)⌉ := hmono (hbound ▸ hceil)
  · refine ⟨le_rfl, hx.le, ?_, ?_⟩
    · have hzero : curve w yf 0 = 0 := by
        unfold curve
        ring
      rw [hzero]
      positivity
    · rw [hcurve]
      exact div_le_div_of_nonneg_right hgt.le hyf.le
  · have heq : constant x0 y0 w = constant x0 yf w := le_antisymm (not_lt.mp hlt) (not_lt.mp hgt)
    rw [hcurve, heq]
    exact ⟨hx.le, le_rfl, le_rfl, le_rfl⟩

end Exact

/-- **The solver solves the invariant**, without rounding.  The function of the search is strictly
increasing, compares with its target as the curve with the constant of the pool, and the bounds of
the search contain the one solution. -/
theorem solver_solves_invariant (x0 y0 w yIn : ℝ) (hx : 0 < x0) (hy : 0 < y0) (hw : 0 ≤ w)
    (hyIn : |yIn| < y0) :
    ∃ (f : ℝ → ℝ) (targetK k : ℝ) (quadraticCoeff linearCoeff lower upper : ℝ),
      (exact ℝ).iterKCoefficients x0 w (y0 + yIn) = .ok (quadraticCoeff, linearCoeff)
      ∧ (∀ xf, (exact ℝ).iterK x0 quadraticCoeff linearCoeff xf = .ok (f xf))
      ∧ StrictMonoOn f (Set.Ici 0)
      ∧ (exact ℝ).targetKCalculator x0 y0 w (y0 + yIn) = .ok targetK
      ∧ (exact ℝ).cfmmConstantMultiNoV x0 y0 w = .ok k
      ∧ (∀ xf, 0 < xf → ∃ c, (exact ℝ).cfmmConstantMultiNoV xf (y0 + yIn) w = .ok c
        ∧ cmp (f xf) targetK = cmp c k)
      ∧ (exact ℝ).deriveUpperLowerXFinalReserveBounds x0 y0 w (y0 + yIn) = .ok (lower, upper)
      ∧ ∃ xf, lower ≤ xf ∧ xf ≤ upper ∧ 0 < xf
        ∧ (exact ℝ).cfmmConstantMultiNoV xf (y0 + yIn) w = .ok k
        ∧ ∀ z, 0 ≤ z → f z = targetK → z = xf := by
  have hyf : 0 < y0 + yIn := by
    have := (abs_lt.mp hyIn).1
    linarith
  have hmono := curve_strictMono hw hyf
  obtain ⟨hnonneg, hle, hlow, hhigh⟩ := bounds_spec hx hy hw hyf
  -- the curve is continuous, and the constant lies between its values at the bounds
  have hcont : Continuous (curve w (y0 + yIn)) := by
    unfold curve
    fun_prop
  obtain ⟨xf, ⟨hxlow, hxhigh⟩, hsol⟩ := intermediate_value_Icc hle hcont.continuousOn ⟨hlow, hhigh⟩
  have hxpos : 0 < xf := by
    refine (hnonneg.trans hxlow).lt_of_ne fun hzero => ?_
    have hk := div_pos (constant_pos hx hy hw) hyf
    rw [← hsol, ← hzero] at hk
    simp [curve] at hk
  refine ⟨fun xf => curve w (y0 + yIn) xf - curve w (y0 + yIn) x0, target x0 y0 w (y0 + yIn),
    constant x0 y0 w, _, _, _, _, rfl, fun xf => ?_, ?_, targetKCalculator_exact hx hy hw hyf,
    cfmmConstantMultiNoV_exact hx hy hw, fun xf hxf => ?_, bounds_exact hx hy hw hyf,
    xf, hxlow, hxhigh, hxpos, ?_, fun z _ hz => ?_⟩
  · exact iterK_exact x0 w (y0 + yIn) xf
  · intro a _ b _ hab
    exact sub_lt_sub_right (hmono hab) _
  · exact ⟨_, cfmmConstantMultiNoV_exact hxf hyf hw, cmp_target hyf⟩
  · rw [cfmmConstantMultiNoV_exact hxpos hyf hw]
    refine congrArg Except.ok ?_
    show curve w (y0 + yIn) xf * (y0 + yIn) = _
    rw [hsol, div_mul_cancel₀ _ hyf.ne']
  · apply hmono.injective
    rw [hsol]
    exact sub_left_injective hz

/-- A pool of two and two, into which one is paid. -/
theorem solver_solves_invariant_two :
    ∃ lower upper xf k : ℝ,
      (exact ℝ).deriveUpperLowerXFinalReserveBounds 2 2 0 (2 + 1) = .ok (lower, upper)
      ∧ lower ≤ xf ∧ xf ≤ upper
      ∧ (exact ℝ).cfmmConstantMultiNoV 2 2 0 = .ok k
      ∧ (exact ℝ).cfmmConstantMultiNoV xf (2 + 1) 0 = .ok k := by
  obtain ⟨f, targetK, k, _, _, lower, upper, -, -, -, -, hk, -, hbounds, xf, hlow, hhigh, -, hxf, -⟩ :=
    solver_solves_invariant 2 2 0 1 (by norm_num) (by norm_num) le_rfl (by norm_num)
  exact ⟨lower, upper, xf, k, hbounds, hlow, hhigh, hk, hxf⟩

end Arithmetic

end MaanyDex.Gamm.Stableswap
