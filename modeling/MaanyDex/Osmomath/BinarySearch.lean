/-
Binary search up to a tolerance: `osmomath/binary_search.go`.
-/
import MaanyDex.Osmomath.BigDec

namespace MaanyDex.Osmomath

variable (math : Math)

/-- `ErrTolerance`; a tolerance that is nil is `none`. -/
structure ErrTolerance where
  additiveTolerance : Option Dec
  multiplicativeTolerance : Option Dec
  roundingDir : RoundingDirection

/-- The part of a comparison that enforces the direction of rounding: the answer when
`expected` lies on the wrong side of `actual`. -/
def wrongSide (round : RoundingDirection) (expectedLT expectedGT : Bool) : Option Ordering :=
  if round = .down ∧ expectedLT then some .lt
  else if round = .up ∧ expectedGT then some .gt
  else none

variable (e : ErrTolerance)

/-- `ErrTolerance.Compare`: `.eq` for `0`, `.gt` for `1` and `.lt` for `-1`. -/
def ErrTolerance.compare (expected actual : ℤ) : Result Ordering := do
  let diff ← Dec.sub math (Dec.ofInt expected) (Dec.ofInt actual)
  let diff := diff.abs
  let comparisonSign := if actual < expected then Ordering.gt else .lt
  match wrongSide e.roundingDir (expected < actual) (actual < expected) with
  | some o => .ok o
  | none =>
    match e.additiveTolerance with
    | some tol =>
      if tol.isZero ∧ expected = actual then .ok .eq
      else if tol < diff then .ok comparisonSign
      else multiplicative diff comparisonSign
    | none => multiplicative diff comparisonSign
where
  /-- The check of the multiplicative tolerance. -/
  multiplicative (diff : Dec) (comparisonSign : Ordering) : Result Ordering :=
    match e.multiplicativeTolerance with
    | some tol =>
      if tol.isZero then .ok .eq
      else
        let minValue := min |expected| |actual|
        if minValue = 0 then .ok comparisonSign
        else do
          let errTerm ← Dec.quo math diff (Dec.ofInt minValue)
          .ok (if tol < errTerm then comparisonSign else .eq)
    | none => .ok .eq

def ErrTolerance.compareDec (expected actual : Dec) : Result Ordering :=
  match wrongSide e.roundingDir (expected < actual) (actual < expected) with
  | some o => .ok o
  | none => do
      let diff ← Dec.sub math expected actual
      let diff := diff.abs
      let comparisonSign :=
        if actual < expected then Ordering.gt else if expected < actual then .lt else .eq
      match e.additiveTolerance with
      | some tol =>
        if tol.isZero ∧ expected = actual then .ok .eq
        else if tol < diff then .ok comparisonSign
        else multiplicative diff comparisonSign
      | none => multiplicative diff comparisonSign
where
  /-- The check of the multiplicative tolerance. -/
  multiplicative (diff : Dec) (comparisonSign : Ordering) : Result Ordering :=
    match e.multiplicativeTolerance with
    | some tol =>
      if tol.isZero then .ok .eq
      else
        let minValue := if expected.abs < actual.abs then expected.abs else actual.abs
        if minValue.isZero then .ok comparisonSign
        else do
          let errTerm ← Dec.quo math diff minValue
          .ok (if tol < errTerm then comparisonSign else .eq)
    | none => .ok .eq

def ErrTolerance.compareBigDec (expected actual : BigDec) : Result Ordering :=
  match wrongSide e.roundingDir (expected < actual) (actual < expected) with
  | some o => .ok o
  | none => do
      let diff ← expected.sub actual
      let diff := diff.abs
      let comparisonSign :=
        if actual < expected then Ordering.gt else if expected < actual then .lt else .eq
      match e.additiveTolerance with
      | some tol =>
        if tol.isZero ∧ expected = actual then .ok .eq
        else if BigDec.ofDec tol < diff then .ok comparisonSign
        else multiplicative diff comparisonSign
      | none => multiplicative diff comparisonSign
where
  /-- The check of the multiplicative tolerance. -/
  multiplicative (diff : BigDec) (comparisonSign : Ordering) : Result Ordering :=
    match e.multiplicativeTolerance with
    | some tol =>
      if tol.isZero then .ok .eq
      else
        let minValue := BigDec.min expected.abs actual.abs
        if minValue.isZero then .ok comparisonSign
        else do
          let errTerm ← diff.quo minValue
          .ok (if BigDec.ofDec tol < errTerm then comparisonSign else .eq)
    | none => .ok .eq

def binarySearch (f : ℤ → Result ℤ) (targetOutput : ℤ) (tol : ErrTolerance) :
    ℕ → ℤ → ℤ → Result ℤ
  | 0, _, _ => .error (.err "hit maximum iterations, did not converge fast enough")
  | maxIterations + 1, lowerbound, upperbound => do
      let sum ← checkedInt (lowerbound + upperbound)
      let curEstimate := sum.tdiv 2
      let curOutput ← f curEstimate
      let compRes ← tol.compare math targetOutput curOutput
      match compRes with
      | .lt => binarySearch f targetOutput tol maxIterations lowerbound curEstimate
      | .gt => binarySearch f targetOutput tol maxIterations curEstimate upperbound
      | .eq => .ok curEstimate

/-- `BinarySearchBigDec`; the midpoint is found by a right shift. -/
def binarySearchBigDec (f : BigDec → Result BigDec) (targetOutput : BigDec)
    (tol : ErrTolerance) : ℕ → BigDec → BigDec → Result BigDec
  | 0, _, _ => .error (.err "hit maximum iterations, did not converge fast enough")
  | maxIterations + 1, lowerbound, upperbound => do
      let sum ← lowerbound.add upperbound
      let curEstimate : BigDec := ⟨sum.raw / 2⟩
      let curOutput ← f curEstimate
      let compRes ← tol.compareBigDec targetOutput curOutput
      match compRes with
      | .lt => binarySearchBigDec f targetOutput tol maxIterations lowerbound curEstimate
      | .gt => binarySearchBigDec f targetOutput tol maxIterations curEstimate upperbound
      | .eq => .ok curEstimate

end MaanyDex.Osmomath
