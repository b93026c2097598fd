/-
The integers and decimals of `cosmossdk.io/math`.

An `sdk.Int` is an integer whose operations panic beyond 256 bits.  A `LegacyDec` has
18 decimal places; products and quotients are rounded to the nearest, ties to even, and
operations panic beyond a bit length.  That bound and the square root are the library's
own and are fields of `Math`; everything else follows the documented behaviour.  A Go
panic is an error here as everywhere, so arithmetic is written in `Result`, and
`*_ok` lemmas say what a result is when there is one.
-/
import MaanyDex.Lib.FixedPoint
import MaanyDex.Lib.Run
import MaanyDex.Sdk.Bank

namespace MaanyDex

open List

/-! ### Checks -/

/-- Return `f` unless `b` holds. -/
def ensure (b : Bool) (f : Fault) : Result Unit := if b then .ok () else .error f

lemma ensure_ok {b : Bool} {f : Fault} {u : Unit} (h : ensure b f = .ok u) : b = true := by
  cases b with
  | true => rfl
  | false => cases h

lemma ensure_eq_ok {c : Prop} [Decidable c] {f : Fault} (h : c) : ensure c f = .ok () :=
  if_pos (decide_eq_true h)

lemma ensure_eq_ok_iff {b : Bool} {f : Fault} : ensure b f = .ok () ↔ b = true :=
  ⟨ensure_ok, fun h => if_pos h⟩

/-- The call does not panic. -/
def NoPanic {α : Type*} (x : Result α) : Prop := ∀ msg, x ≠ .error (.panic msg)

lemma NoPanic.ok {α : Type*} (a : α) : NoPanic (.ok a) := fun _ h => by cases h

lemma NoPanic.ensure {b : Bool} {f : Fault} (hf : ∀ msg, f ≠ .panic msg) :
    NoPanic (ensure b f) := by
  intro msg h
  cases b with
  | true => cases h
  | false => exact hf msg (Except.error.inj h)

lemma NoPanic.bind {α β : Type _} {x : Result α} {f : α → Result β} (hx : NoPanic x)
    (hf : ∀ a, x = .ok a → NoPanic (f a)) : NoPanic (x >>= f) := by
  intro msg h
  rcases x with e | a
  · exact hx msg (congrArg Except.error (Except.error.inj h))
  · exact hf a rfl msg h

lemma NoPanic.wrap {α : Type*} {x : Result α} (hx : NoPanic x) (head : String) :
    NoPanic (x.mapError (.wrap head)) := by
  intro msg h
  rcases x with (_ | _ | m) | a
  · cases h
  · cases h
  · exact hx m rfl
  · cases h

lemma NoPanic.map {α β : Type*} {x : Result α} (hx : NoPanic x) (f : α → β) :
    NoPanic (x.map f) := by
  intro msg h
  rcases x with e | a
  · exact hx msg (congrArg Except.error (Except.error.inj h))
  · cases h

/-! ### Integers -/

/-- The range check of every `sdk.Int` operation. -/
def checkedInt (i : ℤ) : Result ℤ :=
  if i.natAbs < 2 ^ 256 then .ok i else .error (.panic "Int overflow")

lemma checkedInt_ok {i j : ℤ} (h : checkedInt i = .ok j) : j = i := by
  unfold checkedInt at h
  split at h
  · cases h
    rfl
  · cases h

lemma checkedInt_lt {i j : ℤ} (h : checkedInt i = .ok j) : j.natAbs < 2 ^ 256 := by
  unfold checkedInt at h
  split at h
  · cases h
    assumption
  · cases h

lemma checkedInt_eq_ok {i : ℤ} (h : i.natAbs < 2 ^ 256) : checkedInt i = .ok i := if_pos h

/-- Add up amounts one after another. -/
def checkedSum {α : Type*} (f : α → ℤ) (l : List α) : Result ℤ :=
  l.foldlM (fun acc x => checkedInt (acc + f x)) 0

lemma checkedSum_ok {α : Type*} {f : α → ℤ} {l : List α} {n : ℤ} (h : checkedSum f l = .ok n) :
    n = (l.map f).sum := by
  -- the induction needs an arbitrary start of the sum
  have key : ∀ z, l.foldlM (fun acc x => checkedInt (acc + f x)) z = .ok n →
      n = z + (l.map f).sum := by
    clear h
    induction l with
    | nil =>
      intro z h
      cases h
      simp
    | cons x l ih =>
      intro z h
      rw [foldlM_cons] at h
      obtain ⟨m, hm, h⟩ := Run.bind_ok h
      rw [ih m h, checkedInt_ok hm, map_cons, sum_cons, add_assoc]
  rw [key 0 h, zero_add]

lemma checkedSum_lt {α : Type*} {f : α → ℤ} {l : List α} {n : ℤ} (h : checkedSum f l = .ok n) :
    n.natAbs < 2 ^ 256 :=
  Run.foldlM_invariant (I := fun z : ℤ => z.natAbs < 2 ^ 256) (by decide)
    (fun _ _ _ _ hadd => checkedInt_lt hadd) h

lemma checkedSum_eq_ok {α : Type*} {f : α → ℤ} {l : List α} (hnonneg : ∀ x ∈ l, 0 ≤ f x)
    (hlt : (l.map f).sum < 2 ^ 256) : checkedSum f l = .ok (l.map f).sum := by
  have key : ∀ z, 0 ≤ z → z + (l.map f).sum < 2 ^ 256 →
      l.foldlM (fun acc x => checkedInt (acc + f x)) z = .ok (z + (l.map f).sum) := by
    clear hlt
    induction l with
    | nil =>
      intro z _ _
      simp [pure, Except.pure]
    | cons x l ih =>
      intro z hz hsum
      rw [map_cons, sum_cons] at hsum
      have hx := hnonneg x (by simp)
      -- the rest of the sum is not negative, so that this part fits too
      have hrest : 0 ≤ (l.map f).sum := sum_nonneg fun y hy => by
          obtain ⟨w, hw, rfl⟩ := mem_map.mp hy
          exact hnonneg w (by simp [hw])
      rw [foldlM_cons, checkedInt_eq_ok (by omega), Run.ok_bind,
        ih (fun y hy => hnonneg y (by simp [hy])) _ (by omega) (by omega), map_cons,
        sum_cons, add_assoc]
  have h := key 0 le_rfl (by omega)
  rwa [zero_add] at h

def intQuo (i j : ℤ) : Result ℤ :=
  if j = 0 then .error (.panic "division by zero") else .ok (i.tdiv j)

/-! ### Decimals -/

/-- `LegacyDec`: a count of `10 ^ -18`. -/
@[ext]
structure Dec where
  raw : ℤ
  deriving DecidableEq

/-- The parts of `cosmossdk.io/math` that are left open. -/
structure Math where
  /-- The bit length beyond which decimal operations panic. -/
  maxDecBitLen : ℕ
  /-- `LegacyDec.ApproxSqrt`. -/
  approxSqrt : Dec → Result Dec

namespace Dec

/-- One, as a count of the smallest decimal. -/
def unit : ℕ := 10 ^ 18

lemma unit_pos : 0 < unit := by decide

lemma unit_pos_int : (0 : ℤ) < unit := by decide

instance : LE Dec := ⟨fun a b => a.raw ≤ b.raw⟩

instance : LT Dec := ⟨fun a b => a.raw < b.raw⟩

instance (a b : Dec) : Decidable (a ≤ b) := inferInstanceAs (Decidable (a.raw ≤ b.raw))

instance (a b : Dec) : Decidable (a < b) := inferInstanceAs (Decidable (a.raw < b.raw))

lemma lt_def {a b : Dec} : a < b ↔ a.raw < b.raw := Iff.rfl

/-- `ZeroDec`. -/
def zero : Dec := ⟨0⟩

/-- `OneDec`. -/
def one : Dec := ⟨unit⟩

/-- `NewDecFromInt`, `Int.ToLegacyDec`. -/
def ofInt (i : ℤ) : Dec := ⟨i * unit⟩

variable (a : Dec)

def isPositive : Bool := 0 < a.raw

def isZero : Bool := a.raw = 0

def isNegative : Bool := a.raw < 0

def neg : Dec := ⟨-a.raw⟩

def abs : Dec := ⟨|a.raw|⟩

def ceil (a : Dec) : Dec := ⟨FixedPoint.ceil unit a.raw * unit⟩

def truncateDec : Dec := ⟨a.raw.tdiv unit * unit⟩

def truncateInt : Result ℤ := checkedInt (a.raw.tdiv unit)

def truncateInt64 : Result ℤ :=
  let i := a.raw.tdiv unit
  if -2 ^ 63 ≤ i ∧ i < 2 ^ 63 then .ok i else .error (.panic "Int64() out of bound")

def roundInt : Result ℤ := checkedInt (FixedPoint.nearest unit a.raw)

variable (math : Math)

/-- The range check of decimal operations. -/
def checked (raw : ℤ) : Result Dec :=
  if raw.natAbs < 2 ^ math.maxDecBitLen then .ok ⟨raw⟩ else .error (.panic "Int overflow")

def add (a b : Dec) : Result Dec := checked math (a.raw + b.raw)

def sub (a b : Dec) : Result Dec := checked math (a.raw - b.raw)

def mul (a b : Dec) : Result Dec := checked math (FixedPoint.mul unit a.raw b.raw)

def mulInt (a : Dec) (i : ℤ) : Result Dec := checked math (a.raw * i)

def quo (a b : Dec) : Result Dec :=
  if b.raw = 0 then .error (.panic "division by zero")
  else checked math (FixedPoint.quo unit a.raw b.raw)

/-- `QuoInt`, which truncates. -/
def quoInt (i : ℤ) : Result Dec :=
  if i = 0 then .error (.panic "division by zero") else .ok ⟨a.raw.tdiv i⟩

/-- The loop of `Power`: square `d` while halving the exponent, collecting the odd
steps in `tmp`. -/
def powerLoop (fuel : ℕ) (d tmp : Dec) (i : ℕ) : Result (Dec × Dec) :=
  match fuel with
  | 0 => .ok (d, tmp)
  | fuel + 1 =>
    if i ≤ 1 then .ok (d, tmp)
    else do
      let tmp ← if i % 2 ≠ 0 then mul math tmp d else .ok tmp
      let d ← mul math d d
      powerLoop fuel d tmp (i / 2)

/-- `Power`, for a `uint64` exponent. -/
def power (a : Dec) (n : ℕ) : Result Dec :=
  if n = 0 then .ok one
  else do
    -- the exponent is halved until it is one: 64 rounds exhaust it
    let (d, tmp) ← powerLoop math 64 a one n
    mul math d tmp

/-! ### What results are -/

variable {math} {a b c : Dec} {i n : ℤ}

lemma checked_ok {raw : ℤ} (h : checked math raw = .ok c) : c.raw = raw := by
  unfold checked at h
  split at h
  · cases h
    rfl
  · cases h

lemma checked_lt {raw : ℤ} (h : checked math raw = .ok c) : raw.natAbs < 2 ^ math.maxDecBitLen := by
  unfold checked at h
  split at h
  · assumption
  · cases h

lemma checked_natCast {raw : ℕ} (h : raw < 2 ^ math.maxDecBitLen) :
    checked math raw = .ok ⟨raw⟩ := by
  rw [checked, if_pos]
  rwa [Int.natAbs_natCast]

lemma sub_ok (h : sub math a b = .ok c) : c.raw = a.raw - b.raw := checked_ok h

lemma mul_ok (h : mul math a b = .ok c) : c.raw = FixedPoint.mul unit a.raw b.raw := checked_ok h

lemma quo_ok (h : quo math a b = .ok c) : b.raw ≠ 0 ∧ c.raw = FixedPoint.quo unit a.raw b.raw := by
  unfold quo at h
  split at h
  · cases h
  · rename_i hb
    exact ⟨hb, checked_ok h⟩

lemma mulInt_ok (h : mulInt math a i = .ok c) : c.raw = a.raw * i := checked_ok h

lemma mulInt_eq_ok (h : (a.raw * i).natAbs < 2 ^ math.maxDecBitLen) :
    mulInt math a i = .ok ⟨a.raw * i⟩ :=
  if_pos h

lemma mulInt_eq_error (h : ¬(a.raw * i).natAbs < 2 ^ math.maxDecBitLen) :
    mulInt math a i = .error (.panic "Int overflow") :=
  if_neg h

lemma quoInt_ok (h : quoInt a i = .ok c) : i ≠ 0 ∧ c.raw = a.raw.tdiv i := by
  unfold quoInt at h
  split at h
  · cases h
  · rename_i hi
    cases h
    exact ⟨hi, rfl⟩

lemma truncateInt_ok (h : truncateInt a = .ok n) : n = a.raw.tdiv unit := checkedInt_ok h

lemma truncateInt_ofInt (i : ℤ) : truncateInt (ofInt i) = checkedInt i := by
  have hunit : (unit : ℤ) ≠ 0 := by decide
  show checkedInt ((i * unit).tdiv unit) = checkedInt i
  rw [Int.mul_tdiv_cancel _ hunit]

/-! ### Powers of integers -/

lemma mul_ofInt {x y : ℕ} (h : x * y * unit < 2 ^ math.maxDecBitLen) :
    mul math (ofInt x) (ofInt y) = .ok (ofInt (x * y : ℕ)) := by
  have hraw : FixedPoint.mul unit (ofInt x).raw (ofInt y).raw = ((x * y * unit : ℕ) : ℤ) := by
    show FixedPoint.mul unit ((x : ℤ) * unit) ((y : ℤ) * unit) = _
    rw [FixedPoint.mul_whole unit_pos]
    push_cast
    ring
  rw [mul, hraw, checked_natCast h, ofInt, ← Nat.cast_mul]

/-- The two factors keep their product with the power that is left. -/
lemma powerLoop_ofInt (fuel : ℕ) : ∀ {x y i : ℕ}, 0 < x → 0 < y → 0 < i → i < 2 ^ (fuel + 1) →
    x ^ i * y * unit < 2 ^ math.maxDecBitLen →
    ∃ x' y' : ℕ, powerLoop math fuel (ofInt x) (ofInt y) i = .ok (ofInt x', ofInt y')
      ∧ x' * y' = x ^ i * y := by
  induction fuel with
  | zero =>
    intro x y i hx hy hi hlt hfits
    obtain rfl : i = 1 := by omega
    exact ⟨x, y, rfl, by rw [pow_one]⟩
  | succ fuel ih =>
    intro x y i hx hy hi hlt hfits
    rcases Nat.lt_or_ge 1 i with hone | hone
    swap
    · obtain rfl : i = 1 := by omega
      exact ⟨x, y, by rw [powerLoop, if_pos le_rfl], by rw [pow_one]⟩
    have hsquare : mul math (ofInt x) (ofInt x) = .ok (ofInt (x * x : ℕ)) := by
      apply mul_ofInt
      calc x * x * unit = x ^ 2 * 1 * unit := by ring
        _ ≤ x ^ i * y * unit := by gcongr <;> omega
        _ < 2 ^ math.maxDecBitLen := hfits
    rw [powerLoop, if_neg (not_le.mpr hone)]
    split_ifs with hodd
    · -- an odd exponent: one factor moves over
      have hpow : x ^ i * y = (x * x) ^ (i / 2) * (y * x) := by
        rw [← pow_two, ← pow_mul, mul_comm y x, ← mul_assoc, ← pow_succ]
        congr 2
        omega
      have hmove : mul math (ofInt y) (ofInt x) = .ok (ofInt (y * x : ℕ)) := by
        apply mul_ofInt
        calc y * x * unit = x ^ 1 * y * unit := by ring
          _ ≤ x ^ i * y * unit := by gcongr
          _ < 2 ^ math.maxDecBitLen := hfits
      rw [hmove, Run.ok_bind]
      dsimp only
      rw [hsquare, Run.ok_bind, hpow]
      rw [hpow] at hfits
      exact ih (Nat.mul_pos hx hx) (Nat.mul_pos hy hx) (by omega) (by omega) hfits
    · have hpow : x ^ i * y = (x * x) ^ (i / 2) * y := by
        rw [← pow_two, ← pow_mul]
        congr 2
        omega
      rw [Run.ok_bind]
      dsimp only
      rw [hsquare, Run.ok_bind, hpow]
      rw [hpow] at hfits
      exact ih (Nat.mul_pos hx hx) hy (by omega) (by omega) hfits

lemma power_ofInt {x i : ℕ} (hx : 0 < x) (hi : i < 2 ^ 64)
    (h : x ^ i * unit < 2 ^ math.maxDecBitLen) :
    power math (ofInt x) i = .ok (ofInt (x ^ i : ℕ)) := by
  unfold power
  split_ifs with hzero
  · rw [hzero, pow_zero, ofInt, one, Nat.cast_one, one_mul]
  · obtain ⟨x', y', hloop, hprod⟩ := powerLoop_ofInt 64 (y := 1) hx one_pos
      (Nat.pos_of_ne_zero hzero) (by omega) (by rwa [mul_one])
    have hone : one = ofInt (1 : ℕ) := by rw [one, ofInt, Nat.cast_one, one_mul]
    rw [mul_one] at hprod
    rw [hone, hloop, Run.ok_bind, ← hprod]
    exact mul_ofInt (hprod ▸ h)

end Dec

/-- `cosmossdk.io/math` as concrete runs need it. -/
def chainMath : Math where
  maxDecBitLen := 315
  approxSqrt d := .ok ⟨Nat.sqrt (d.raw.natAbs * Dec.unit)⟩

end MaanyDex
