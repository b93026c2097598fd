/-
Powers of decimals with decimal exponents: `osmomath/math.go`.

The exponent is split into an integer part, for which the power is computed by repeated
squaring, and a fractional part, for which it is approximated: by a square root when the
fraction is one half, and otherwise by the binomial series of `(1 + x) ^ a`, summed until
a term falls below `10 ^ -8`.
-/
import MaanyDex.Sdk.Dec

namespace MaanyDex.Osmomath

variable (math : Math)

def powPrecision : Dec := ⟨10 ^ 10⟩

def powIterationLimit : ℕ := 150000

def oneHalf : Dec := ⟨5 * 10 ^ 17⟩

def two : Dec := ⟨2 * 10 ^ 18⟩

/-- `AbsDifferenceWithSign`: `|a - b|`, and whether `a - b` is negative. -/
def absDifferenceWithSign (a b : Dec) : Result (Dec × Bool) :=
  if b ≤ a then do
    let diff ← Dec.sub math a b
    .ok (diff, false)
  else do
    let diff ← Dec.add math a.neg b
    .ok (diff, true)

/-- The loop of `PowApprox` from its `i`-th round on, with `rounds` left before it gives
up. -/
def powApproxLoop (x : Dec) (xneg : Bool) (exp precision : Dec) (rounds i : ℕ) (term sum : Dec)
    (negative : Bool) : Result Dec :=
  match rounds with
  | 0 => .error (.panic "failed to reach precision")
  | rounds + 1 =>
    if term < precision then .ok sum
    else do
      let (c, cneg) ← absDifferenceWithSign math exp (Dec.ofInt (i - 1))
      let term ← Dec.mul math term c
      let term ← Dec.mul math term x
      let term ← Dec.quo math term (Dec.ofInt i)
      if term.isZero then .ok sum
      else do
        let negative := negative ^^ xneg ^^ cneg
        let sum ← if negative then Dec.sub math sum term else Dec.add math sum term
        if rounds = 0 then .error (.panic "failed to reach precision")
        else powApproxLoop x xneg exp precision rounds (i + 1) term sum negative

def powApprox (originalBase exp precision : Dec) : Result Dec := do
  ensure originalBase.isPositive (.panic "base must be greater than 0")
  if exp.isZero then .ok Dec.one
  else if exp = oneHalf then (math.approxSqrt originalBase).mapError (Fault.raise "")
  else do
    let (x, xneg) ← absDifferenceWithSign math originalBase Dec.one
    powApproxLoop math x xneg exp precision powIterationLimit 1 Dec.one Dec.one false

def pow (base exp : Dec) : Result Dec := do
  ensure base.isPositive (.panic "base must be greater than 0")
  ensure (base < two) (.panic "base must be lesser than two")
  let integer := exp.truncateDec
  let fractional ← Dec.sub math exp integer
  let n ← integer.truncateInt64
  -- the conversion of an `int64` to a `uint64`
  let integerPow ← Dec.power math base (n % 2 ^ 64).toNat
  if fractional.isZero then .ok integerPow
  else do
    let fractionalPow ← powApprox math base fractional powPrecision
    Dec.mul math integerPow fractionalPow

variable {math} {base exp r : Dec}

lemma pow_ok (h : pow math base exp = .ok r) : 0 < base.raw := by
  obtain ⟨_, hpos, -⟩ := Run.bind_ok h
  exact of_decide_eq_true (ensure_ok hpos)

end MaanyDex.Osmomath
