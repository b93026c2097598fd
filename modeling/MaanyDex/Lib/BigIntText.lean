/-
The text of arbitrary integers: `big.Int.SetString`, `MarshalText` and `UnmarshalText` of Go.

A number is an optional sign of either kind and digits.  With base zero, a prefix says what the
base is (`0b`, `0o`, `0x`, or `0` for octal numbers), and underscores may separate digits.
Whatever follows the digits must be nothing at all.

With base ten that is all there is to it (`setString_ten`), and decimal numbers as they
are written are read back with base zero too, since they have no leading zeros
(`unmarshalText_marshalText`).
-/
import MaanyDex.Lib.Decimal

namespace BigIntText

open Decimal

/-! ### Scanning -/

/-- What was scanned last: a separator, a digit, or neither. -/
inductive Prev where
  | sep
  | digit
  | other
  deriving DecidableEq

/-- The variables of the loop of `nat.scan`. -/
structure Scan where
  value : ℕ
  count : ℕ
  prev : Prev
  invalSep : Bool

/-- The value of a byte as a digit; letters of either case follow the nine. -/
def digitVal (ch : UInt8) : Option ℕ :=
  let c := ch.toNat
  if 48 ≤ c ∧ c ≤ 57 then some (c - 48)
  else if 97 ≤ c ∧ c ≤ 122 then some (c - 97 + 10)
  else if 65 ≤ c ∧ c ≤ 90 then some (c - 65 + 10)
  else none

/-- The loop of `nat.scan`: read digits of base `b`, and underscores if there may be any. -/
def scanDigits (b : ℕ) (separators : Bool) : Scan → Bytes → Scan × Bytes
  | s, [] => (s, [])
  | s, ch :: r =>
    if ch = 95 ∧ separators = true then
      scanDigits b separators { s with invalSep := s.invalSep || s.prev ≠ .digit, prev := .sep } r
    else match (digitVal ch).filter (· < b) with
      | none => (s, ch :: r)
      | some d =>
        scanDigits b separators
          { s with value := b * s.value + d, count := s.count + 1, prev := .digit } r

variable (base : ℕ)

/-- The start of `nat.scan`: the base, whether there was only a zero as prefix, and what the
loop starts with. -/
def scanPrefix (r : Bytes) : ℕ × Bool × Scan × Bytes :=
  if base = 0 then
    match r with
    | 48 :: ch :: r =>
      let s : Scan := ⟨0, 0, .digit, false⟩
      if ch = 98 ∨ ch = 66 then (2, false, s, r)
      else if ch = 111 ∨ ch = 79 then (8, false, s, r)
      else if ch = 120 ∨ ch = 88 then (16, false, s, r)
      else (8, true, s, ch :: r)
    | [48] => (10, false, ⟨0, 1, .digit, false⟩, [])
    | r => (10, false, ⟨0, 0, .other, false⟩, r)
  else (base, false, ⟨0, 0, .other, false⟩, r)

/-- `nat.scan`, without fractions. -/
def scanNat (r : Bytes) : Option (ℕ × Bytes) :=
  let (b, octal, s, r) := scanPrefix base r
  let (s, rest) := scanDigits b (base = 0) s r
  if s.invalSep ∨ s.prev = .sep then none
  else if s.count = 0 then
    -- a single zero before something that is no octal digit
    if octal then some (0, rest) else none
  else some (s.value, rest)

def setFromScanner (text : Bytes) : Option ℤ :=
  match text with
  | [] => none
  | ch :: r =>
    let r := if ch = 45 ∨ ch = 43 then r else ch :: r
    match scanNat base r with
    | some (n, []) => some (if ch = 45 then -n else n)
    | _ => none

def setString (s : Bytes) : Option ℤ := setFromScanner base s

def marshalText (i : ℤ) : Bytes := Decimal.formatInt i

def unmarshalText (text : Bytes) : Option ℤ := setFromScanner 0 text

/-! ### Decimal numbers -/

lemma digitVal_filter_ten (ch : UInt8) : (digitVal ch).filter (· < 10) = digitValue ch := by
  unfold digitVal digitValue
  dsimp only
  split_ifs
  all_goals
    simp [Option.filter]
    try omega

variable {r : Bytes} {n : ℕ} {s : Scan}

lemma scanDigits_ten {separators : Bool} (h : readDigits s.value r = some n) :
    scanDigits 10 separators s r
      = (⟨n, s.count + r.length, if r = [] then s.prev else .digit, s.invalSep⟩, []) := by
  induction r generalizing s with
  | nil =>
    cases h
    rfl
  | cons ch r ih =>
    rw [readDigits] at h
    rcases hd : digitValue ch with - | d
    · simp [hd] at h
    · rw [hd] at h
      have hsep : ¬(ch = 95 ∧ separators = true) := by
        rintro ⟨rfl, -⟩
        cases hd
      rw [scanDigits, if_neg hsep, digitVal_filter_ten, hd]
      simp only
      rw [ih h]
      simp only [List.length_cons, reduceCtorEq, if_false, ite_self]
      rw [add_assoc, add_comm 1]

lemma scanDigits_ten_rest (h : readDigits s.value r = none) : (scanDigits 10 false s r).2 ≠ [] := by
  induction r generalizing s with
  | nil => cases h
  | cons ch r ih =>
    rw [readDigits] at h
    rw [scanDigits, if_neg (by simp), digitVal_filter_ten]
    rcases hd : digitValue ch with - | d
    · exact List.cons_ne_nil _ _
    · rw [hd] at h
      exact ih h

/-- With base ten, numbers are non-empty runs of digits. -/
lemma scanNat_ten : scanNat 10 r = some (n, []) ↔ r ≠ [] ∧ readDigits 0 r = some n := by
  have hbase : scanPrefix 10 r = (10, false, ⟨0, 0, .other, false⟩, r) := rfl
  have hsep : decide (10 = 0) = false := rfl
  unfold scanNat
  rw [hbase, hsep]
  dsimp only
  rcases hr : readDigits 0 r with - | m
  · have hrest := scanDigits_ten_rest (s := ⟨0, 0, .other, false⟩) hr
    generalize scanDigits 10 false ⟨0, 0, .other, false⟩ r = x at *
    split_ifs <;> simp [hrest]
  · rw [scanDigits_ten hr]
    rcases r with - | ⟨ch, r⟩
    · simp
    · simp

/-- `SetString` with base ten: a sign of either kind, and digits. -/
lemma setString_ten {ch : UInt8} {i : ℤ} :
    setString 10 (ch :: r) = some i ↔
      ∃ ds n, ds = (if ch = 45 ∨ ch = 43 then r else ch :: r) ∧ ds ≠ []
        ∧ readDigits 0 ds = some n ∧ i = if ch = 45 then -(n : ℤ) else n := by
  unfold setString setFromScanner
  dsimp only
  generalize (if ch = 45 ∨ ch = 43 then r else ch :: r) = ds
  constructor
  · intro h
    split at h
    · rename_i n hscan
      obtain ⟨hne, hread⟩ := scanNat_ten.mp hscan
      exact ⟨ds, n, rfl, hne, hread, (Option.some.inj h).symm⟩
    · cases h
  · rintro ⟨ds', n, rfl, hne, hread, rfl⟩
    rw [scanNat_ten.mpr ⟨hne, hread⟩]

/-! ### Round trips -/

lemma scanNat_zero_formatUint (n : ℕ) : scanNat 0 (formatUint n) = some (n, []) := by
  by_cases hn : n = 0
  · subst hn
    decide
  · have hbase : scanPrefix 0 (formatUint n)
        = (10, false, ⟨0, 0, .other, false⟩, formatUint n) := by
      have hhead := head_formatUint_ne_zero hn
      unfold scanPrefix
      rw [if_pos rfl]
      split
      · rename_i h
        rw [h] at hhead
        exact absurd rfl hhead
      · rename_i h
        rw [h] at hhead
        exact absurd rfl hhead
      · rfl
    unfold scanNat
    rw [hbase]
    dsimp only
    rw [scanDigits_ten (readDigits_formatUint n)]
    simp [formatUint_ne_nil]

/-- **Integers are read back** as they were written. -/
lemma unmarshalText_marshalText (i : ℤ) : unmarshalText (marshalText i) = some i := by
  unfold unmarshalText marshalText formatInt
  split
  · rename_i hneg
    unfold setFromScanner
    dsimp only
    rw [if_pos (.inl rfl), scanNat_zero_formatUint]
    show some (-(i.natAbs : ℤ)) = some i
    congr 1
    omega
  · rename_i hneg
    rcases hs : formatUint i.natAbs with - | ⟨ch, r⟩
    · exact absurd hs (formatUint_ne_nil _)
    · have hdigit := formatUint_digit (n := i.natAbs) (b := ch) (by rw [hs]; simp)
      have h45 : ch ≠ 45 := by rintro rfl; revert hdigit; decide
      have h43 : ch ≠ 43 := by rintro rfl; revert hdigit; decide
      unfold setFromScanner
      dsimp only
      rw [if_neg (by simp [h45, h43]), ← hs, scanNat_zero_formatUint]
      dsimp only
      rw [if_neg h45]
      congr 1
      omega

end BigIntText
