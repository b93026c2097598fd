/-
Decimals with 36 places: `osmomath/decimal.go`.

Only the operations that the pools use.  Results of more than 1144 bits panic where the
source checks for it.
-/
import MaanyDex.Sdk.Dec

namespace MaanyDex.Osmomath

/-- `BigDec`: a count of `10 ^ -36`. -/
@[ext]
structure BigDec where
  raw : ℤ
  deriving DecidableEq

namespace BigDec

/-- `defaultBigDecPrecisionReuse`. -/
def unit : ℕ := 10 ^ 36

/-- `bigDecDecPrecisionFactorDiff`. -/
def unitDiff : ℕ := 10 ^ 18

def maxDecBitLen : ℕ := 1024 + 120

instance : LE BigDec := ⟨fun a b => a.raw ≤ b.raw⟩

instance : LT BigDec := ⟨fun a b => a.raw < b.raw⟩

instance (a b : BigDec) : Decidable (a ≤ b) := inferInstanceAs (Decidable (a.raw ≤ b.raw))

instance (a b : BigDec) : Decidable (a < b) := inferInstanceAs (Decidable (a.raw < b.raw))

/-- `ZeroBigDec`. -/
def zero : BigDec := ⟨0⟩

/-- `OneBigDec`. -/
def one : BigDec := ⟨unit⟩

/-- `NewBigDec`. -/
def ofInt (i : ℤ) : BigDec := ⟨i * unit⟩

/-- `BigDecFromDec`. -/
def ofDec (d : Dec) : BigDec := ⟨d.raw * unitDiff⟩

variable (a : BigDec)

/-- `BigDec.Dec`, which truncates. -/
def toDec : Dec := ⟨a.raw.tdiv unitDiff⟩

def isPositive : Bool := 0 < a.raw

def isZero : Bool := a.raw = 0

def isNegative : Bool := a.raw < 0

def neg : BigDec := ⟨-a.raw⟩

def abs : BigDec := ⟨|a.raw|⟩

variable (a b : BigDec)

/-- `MinBigDec`. -/
def min : BigDec := if a < b then a else b

def ceil (a : BigDec) : BigDec := ⟨FixedPoint.ceil unit a.raw * unit⟩

/-- `assertMaxBitLen`. -/
def checked (raw : ℤ) : Result BigDec :=
  if raw.natAbs < 2 ^ maxDecBitLen then .ok ⟨raw⟩ else .error (.panic "Int overflow")

def add : Result BigDec := checked (a.raw + b.raw)

def sub : Result BigDec := checked (a.raw - b.raw)

def mul (a b : BigDec) : Result BigDec := checked (FixedPoint.mul unit a.raw b.raw)

def mulInt64 (i : ℤ) : Result BigDec := checked (a.raw * i)

def quo (a b : BigDec) : Result BigDec :=
  if b.raw = 0 then .error (.panic "division by zero")
  else checked (FixedPoint.quo unit a.raw b.raw)

/-- `QuoInt64`, which truncates. -/
def quoInt64 (i : ℤ) : Result BigDec :=
  if i = 0 then .error (.panic "division by zero") else .ok ⟨a.raw.tdiv i⟩

/-- `QuoRoundUp`: one more when the remainder is positive. -/
def quoRoundUp : Result BigDec :=
  if b.raw = 0 then .error (.panic "division by zero")
  else
    let q := (a.raw * unit).tdiv b.raw
    checked (if 0 < (a.raw * unit).tmod b.raw then q + 1 else q)

/-- `QuoRoundUpMut`: one more when there is a remainder of either sign. -/
def quoRoundUpMut : Result BigDec :=
  if b.raw = 0 then .error (.panic "division by zero")
  else
    let q := (a.raw * unit).tdiv b.raw
    checked (if (a.raw * unit).tmod b.raw = 0 then q else q + 1)

/-- `QuoByDecRoundUp`: one more when the remainder is positive. -/
def quoByDecRoundUp (d : Dec) : Result BigDec :=
  if d.raw = 0 then .error (.panic "division by zero")
  else
    let q := (a.raw * Dec.unit).tdiv d.raw
    checked (if 0 < (a.raw * Dec.unit).tmod d.raw then q + 1 else q)

/-- `DecRoundUp`: one more when there is a remainder of either sign. -/
def decRoundUp : Dec :=
  let q := a.raw.tdiv unitDiff
  ⟨if a.raw.tmod unitDiff = 0 then q else q + 1⟩

end BigDec

/-! ### Scaling -/

inductive RoundingDirection where
  | unconstrained
  | up
  | down
  | bankers
  deriving DecidableEq

def int64OfUint64 (u : ℕ) : ℤ := (u : ℤ).bmod (2 ^ 64)

def divIntByU64ToBigDec (i : ℤ) (u : ℕ) : RoundingDirection → Result BigDec
  | round =>
    if u = 0 then .error (.err "div by zero")
    else
      let d := BigDec.ofDec (Dec.ofInt i)
      match round with
      | .up => d.quoRoundUp (BigDec.ofInt (int64OfUint64 u))
      | .down => d.quoInt64 (int64OfUint64 u)
      | .bankers => d.quo (BigDec.ofInt (int64OfUint64 u))
      | .unconstrained => .error (.err "invalid rounding mode")

end MaanyDex.Osmomath
