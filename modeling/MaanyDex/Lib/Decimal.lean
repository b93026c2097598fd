/-
Decimal text of machine integers: `strconv.FormatUint`, `FormatInt`,
`ParseUint` and `ParseInt` in base 10.

The digits come from Mathlib's `Nat.digits`.  The parser reads a non-empty run
of digits and then applies the range check of the bit size, as Go does; the
signed parser accepts one leading `+` or `-`.
-/
import MaanyDex.Lib.Bytes

namespace Decimal

open List

/-! ### Writing -/

/-- The ASCII digit of `d < 10`. -/
def digitByte (d : ℕ) : UInt8 := UInt8.ofNat (48 + d)

/-- `strconv.FormatUint(n, 10)`. -/
def formatUint (n : ℕ) : Bytes :=
  if n = 0 then [48] else (Nat.digits 10 n).reverse.map digitByte

/-- `strconv.FormatInt(i, 10)`. -/
def formatInt (i : ℤ) : Bytes :=
  if i < 0 then 45 :: formatUint i.natAbs else formatUint i.natAbs

/-! ### Reading -/

/-- The value of one digit byte. -/
def digitValue (b : UInt8) : Option ℕ :=
  if 48 ≤ b.toNat ∧ b.toNat ≤ 57 then some (b.toNat - 48) else none

/-- Read a run of digits onto the value read so far. -/
def readDigits : ℕ → Bytes → Option ℕ
  | acc, [] => some acc
  | acc, b :: bs =>
    match digitValue b with
    | none => none
    | some d => readDigits (10 * acc + d) bs

/-- `strconv.ParseUint(s, 10, bits)`, `none` for either of its two errors. -/
def parseUint (bits : ℕ) (s : Bytes) : Option ℕ :=
  match s with
  | [] => none
  | s => (readDigits 0 s).filter fun n => n < 2 ^ bits

/-- `strconv.ParseInt(s, 10, bits)`. -/
def parseInt (bits : ℕ) (s : Bytes) : Option ℤ :=
  match s with
  | 45 :: s' =>
    (parseUint bits s').bind fun n =>
      if n ≤ 2 ^ (bits - 1) then some (-(n : ℤ)) else none
  | 43 :: s' =>
    (parseUint bits s').bind fun n =>
      if n < 2 ^ (bits - 1) then some (n : ℤ) else none
  | s =>
    (parseUint bits s).bind fun n =>
      if n < 2 ^ (bits - 1) then some (n : ℤ) else none

/-! ### Digits -/

variable {d : ℕ}

lemma digitByte_toNat (h : d < 10) : (digitByte d).toNat = 48 + d := by
  simp [digitByte, Nat.mod_eq_of_lt (show 48 + d < 256 by omega)]

lemma digitValue_digitByte (h : d < 10) : digitValue (digitByte d) = some d := by
  have e := digitByte_toNat h
  rw [digitValue, if_pos (by omega), e]
  simp

lemma formatUint_ne_nil (n : ℕ) : formatUint n ≠ [] := by
  by_cases h : n = 0
  · simp [formatUint, h]
  · simp [formatUint, h, Nat.digits_ne_nil_iff_ne_zero]

variable {n : ℕ}

lemma length_formatUint_le_iff {k : ℕ} (hk : 0 < k) : (formatUint n).length ≤ k ↔ n < 10 ^ k := by
  by_cases h : n = 0
  · subst h
    simp [formatUint]
    omega
  · rw [formatUint, if_neg h, length_map, length_reverse,
      Nat.digits_length_le_iff (by norm_num)]

/-- Every byte of a decimal number is one of the ten digits. -/
lemma formatUint_digit {b : UInt8} (hb : b ∈ formatUint n) : 48 ≤ b.toNat ∧ b.toNat ≤ 57 := by
  by_cases h : n = 0
  · simp only [formatUint, h, if_true, mem_singleton] at hb
    subst hb
    decide
  · simp only [formatUint, h, if_false, mem_map, mem_reverse] at hb
    obtain ⟨d, hd, rfl⟩ := hb
    have hlt : d < 10 := Nat.digits_lt_base (by norm_num) hd
    rw [digitByte_toNat hlt]
    omega

/-! ### Round trips -/

/-- Reading digits is positional evaluation, most significant digit first. -/
lemma readDigits_map_digitByte (l : List ℕ) (hl : ∀ d ∈ l, d < 10) (acc : ℕ) :
    readDigits acc (l.map digitByte) = some (acc * 10 ^ l.length + Nat.ofDigits 10 l.reverse) := by
  induction l generalizing acc with
  | nil => simp [readDigits]
  | cons d l ih =>
    have hd : d < 10 := hl d mem_cons_self
    rw [map_cons, readDigits, digitValue_digitByte hd]
    simp only
    rw [ih (fun x hx => hl x (mem_cons_of_mem _ hx)), reverse_cons,
      Nat.ofDigits_append, length_reverse, Nat.ofDigits_singleton,
      length_cons]
    congr 1
    ring

lemma readDigits_formatUint (n : ℕ) : readDigits 0 (formatUint n) = some n := by
  by_cases h : n = 0
  · subst h
    decide
  · have hl : ∀ d ∈ (Nat.digits 10 n).reverse, d < 10 := fun d hd =>
      Nat.digits_lt_base (by norm_num) (mem_reverse.mp hd)
    rw [formatUint, if_neg h, readDigits_map_digitByte _ hl, reverse_reverse,
      Nat.ofDigits_digits]
    simp

variable {bits : ℕ}

lemma parseUint_formatUint_eq (bits n : ℕ) :
    parseUint bits (formatUint n) = (some n).filter fun n => n < 2 ^ bits := by
  rw [← readDigits_formatUint]
  rcases hs : formatUint n with - | ⟨b, bs⟩
  · exact absurd hs (formatUint_ne_nil n)
  · rfl

/-- A number in range is read back as it was written. -/
lemma parseUint_formatUint (h : n < 2 ^ bits) : parseUint bits (formatUint n) = some n := by
  simp [parseUint_formatUint_eq, Option.filter, h]

lemma parseUint_formatUint_of_le (h : 2 ^ bits ≤ n) : parseUint bits (formatUint n) = none := by
  simp [parseUint_formatUint_eq, Option.filter, not_lt.mpr h]

lemma readDigits_append (acc : ℕ) (a b : Bytes) :
    readDigits acc (a ++ b) = (readDigits acc a).bind fun n => readDigits n b := by
  induction a generalizing acc with
  | nil => rfl
  | cons ch a ih =>
    rw [cons_append, readDigits, readDigits]
    rcases digitValue ch with - | d
    · rfl
    · exact ih _

/-- What was read before is shifted by as many places as there are digits. -/
lemma readDigits_add (a k : ℕ) (s : Bytes) :
    readDigits (a + k) s = (readDigits k s).map fun m => a * 10 ^ s.length + m := by
  induction s generalizing a k with
  | nil => simp [readDigits]
  | cons ch s ih =>
    rw [readDigits, readDigits]
    rcases digitValue ch with - | d
    · rfl
    · simp only
      rw [show 10 * (a + k) + d = 10 * a + (10 * k + d) by ring, ih, length_cons]
      congr 1
      funext m
      ring

lemma readDigits_replicate_zero (acc k : ℕ) :
    readDigits acc (List.replicate k 48) = some (acc * 10 ^ k) := by
  have hmap : List.replicate k (48 : UInt8) = (List.replicate k 0).map digitByte := by
    rw [map_replicate]
    rfl
  rw [hmap, readDigits_map_digitByte _ (by simp), reverse_replicate, length_replicate]
  simp

lemma digit_of_readDigits {acc : ℕ} {s : Bytes} (h : readDigits acc s = some n) :
    ∀ b ∈ s, 48 ≤ b.toNat ∧ b.toNat ≤ 57 := by
  induction s generalizing acc with
  | nil => simp
  | cons ch s ih =>
    rw [readDigits] at h
    intro b hb
    rcases hd : digitValue ch with - | d
    · simp [hd] at h
    · rw [hd] at h
      rcases mem_cons.mp hb with rfl | hb
      · by_contra hno
        rw [digitValue, if_neg hno] at hd
        cases hd
      · exact ih h b hb

lemma head_formatUint_ne_zero (h : n ≠ 0) : (formatUint n).head? ≠ some 48 := by
  have hne : Nat.digits 10 n ≠ [] := Nat.digits_ne_nil_iff_ne_zero.mpr h
  rw [formatUint, if_neg h, List.head?_map, List.head?_reverse, List.getLast?_eq_some_getLast hne]
  intro heq
  have hlt : (Nat.digits 10 n).getLast hne < 10 :=
    Nat.digits_lt_base (by norm_num) (getLast_mem hne)
  have hbyte := congrArg UInt8.toNat (Option.some.inj heq)
  rw [digitByte_toNat hlt] at hbyte
  exact Nat.getLast_digit_ne_zero 10 h (by simpa using hbyte)

lemma formatUint_injective : Function.Injective formatUint := by
  intro m n h
  have e := readDigits_formatUint m
  rw [h, readDigits_formatUint n] at e
  exact (Option.some.inj e).symm

lemma formatInt_ne_nil (i : ℤ) : formatInt i ≠ [] := by
  unfold formatInt
  split
  · exact cons_ne_nil _ _
  · exact formatUint_ne_nil _

/-- A signed number in range is read back as it was written. -/
lemma parseInt_formatInt (hbits : 0 < bits) {i : ℤ} (lo : -(2 ^ (bits - 1) : ℤ) ≤ i)
    (hi : i < 2 ^ (bits - 1)) : parseInt bits (formatInt i) = some i := by
  have hpow : (2 : ℕ) ^ (bits - 1) < 2 ^ bits := Nat.pow_lt_pow_right (by norm_num) (by omega)
  by_cases hneg : i < 0
  · have habs : i.natAbs ≤ 2 ^ (bits - 1) := by
      zify
      rw [abs_of_neg hneg]
      omega
    rw [formatInt, if_pos hneg, parseInt,
      parseUint_formatUint (lt_of_le_of_lt habs hpow), Option.bind_some, if_pos habs]
    congr 1
    omega
  · have habs : i.natAbs < 2 ^ (bits - 1) := by
      zify
      rw [abs_of_nonneg (not_lt.mp hneg)]
      exact hi
    -- the first byte is a digit, so neither sign branch of the parser applies
    have e : parseInt bits (formatUint i.natAbs) =
        (parseUint bits (formatUint i.natAbs)).bind fun n =>
          if n < 2 ^ (bits - 1) then some (n : ℤ) else none := by
      rcases hs : formatUint i.natAbs with - | ⟨b, bs⟩
      · exact absurd hs (formatUint_ne_nil _)
      · have hb := formatUint_digit (n := i.natAbs) (b := b) (by rw [hs]; simp)
        have h45 : b ≠ 45 := by rintro rfl; revert hb; decide
        have h43 : b ≠ 43 := by rintro rfl; revert hb; decide
        rw [parseInt]
        · intro s' e
          exact h45 (List.cons.inj e).1
        · intro s' e
          exact h43 (List.cons.inj e).1
    rw [formatInt, if_neg hneg, e, parseUint_formatUint (habs.trans hpow),
      Option.bind_some, if_pos habs]
    congr 1
    omega

end Decimal
