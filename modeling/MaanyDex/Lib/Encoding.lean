/-
`hex.DecodeString`, `base64.StdEncoding.DecodeString` and numbers in big-endian order.

Hexadecimal digits of either case are accepted and the length must be even.
Base 64 uses the standard alphabet with padding; line breaks are skipped, the
unused bits of a padded last group are not checked, and nothing may follow the
padding.
-/
import MaanyDex.Lib.Bytes

namespace Encoding

/-! ### Hexadecimal -/

/-- The value of a hexadecimal digit of either case. -/
def hexValue (b : UInt8) : Option ℕ :=
  if 48 ≤ b ∧ b ≤ 57 then some (b.toNat - 48)
  else if 97 ≤ b ∧ b ≤ 102 then some (b.toNat - 87)
  else if 65 ≤ b ∧ b ≤ 70 then some (b.toNat - 55)
  else none

/-- `hex.DecodeString`. -/
def hexDecode : Bytes → Option Bytes
  | [] => some []
  | [_] => none
  | hi :: lo :: rest =>
    match hexValue hi, hexValue lo, hexDecode rest with
    | some h, some l, some bs => some (UInt8.ofNat (16 * h + l) :: bs)
    | _, _, _ => none

/-- The digit of a value below 16. -/
def hexDigit (n : ℕ) : UInt8 := UInt8.ofNat (if n < 10 then 48 + n else 87 + n)

/-- `hex.EncodeToString`. -/
def hexEncode (bz : Bytes) : Bytes :=
  bz.flatMap fun b => [hexDigit (b.toNat / 16), hexDigit (b.toNat % 16)]

/-! ### Base 64 -/

/-- The value of a digit of the standard alphabet. -/
def base64Value (b : UInt8) : Option ℕ :=
  if 65 ≤ b ∧ b ≤ 90 then some (b.toNat - 65)
  else if 97 ≤ b ∧ b ≤ 122 then some (b.toNat - 71)
  else if 48 ≤ b ∧ b ≤ 57 then some (b.toNat + 4)
  else if b = 43 then some 62
  else if b = 47 then some 63
  else none

/-- The three bytes of a full group. -/
def base64Group (a b c d : ℕ) : Bytes :=
  let n := ((a * 64 + b) * 64 + c) * 64 + d
  [UInt8.ofNat (n / 65536), UInt8.ofNat (n / 256), UInt8.ofNat n]

/-- Decode groups of four, the last of which may be padded with `=`. -/
def base64Groups : Bytes → Option Bytes
  | [] => some []
  | a :: b :: c :: d :: rest =>
    match base64Value a, base64Value b with
    | some x, some y =>
      if d = 61 then
        if rest ≠ [] then none
        else if c = 61 then some ((base64Group x y 0 0).take 1)
        else (base64Value c).map fun z => (base64Group x y z 0).take 2
      else
        match base64Value c, base64Value d, base64Groups rest with
        | some z, some w, some bs => some (base64Group x y z w ++ bs)
        | _, _, _ => none
    | _, _ => none
  | _ => none

/-- `base64.StdEncoding.DecodeString`. -/
def base64Decode (s : Bytes) : Option Bytes :=
  base64Groups (s.filter fun b => b ≠ 13 ∧ b ≠ 10)

example : base64Decode (ascii "TWFuLg==") = some (ascii "Man.") := by decide

/-! ### Big-endian numbers -/

/-- The lowest `width` bytes of a number, the highest of them first. -/
def bigEndian : ℕ → ℕ → Bytes
  | 0, _ => []
  | width + 1, n => bigEndian width (n / 256) ++ [UInt8.ofNat (n % 256)]

@[simp] lemma length_bigEndian (width n : ℕ) : (bigEndian width n).length = width := by
  induction width generalizing n with
  | zero => rfl
  | succ width ih => rw [bigEndian, List.length_append, ih, List.length_singleton]

variable {width n n' : ℕ}

/-- The number that bytes stand for, the highest of them first. -/
def ofBigEndian (bz : Bytes) : ℕ := bz.foldl (fun n b => 256 * n + b.toNat) 0

lemma ofBigEndian_bigEndian (hn : n < 256 ^ width) : ofBigEndian (bigEndian width n) = n := by
  induction width generalizing n with
  | zero => exact (Nat.lt_one_iff.mp hn).symm
  | succ width ih =>
    have hdiv : n / 256 < 256 ^ width := Nat.div_lt_of_lt_mul (by rwa [Nat.pow_succ'] at hn)
    have hhigh : ofBigEndian (bigEndian width (n / 256)) = n / 256 := ih hdiv
    unfold ofBigEndian at hhigh ⊢
    rw [bigEndian, List.foldl_append, hhigh]
    show 256 * (n / 256) + (UInt8.ofNat (n % 256)).toNat = n
    rw [UInt8.toNat_ofNat']
    omega

lemma bigEndian_inj (hn : n < 256 ^ width) (hn' : n' < 256 ^ width)
    (h : bigEndian width n = bigEndian width n') : n = n' := by
  rw [← ofBigEndian_bigEndian hn, h, ofBigEndian_bigEndian hn']

/-! ### The order of numbers -/

/-- **Big-endian bytes have the order of the numbers.** -/
lemma compare_bigEndian (hn : n < 256 ^ width) (hn' : n' < 256 ^ width) :
    compare (bigEndian width n) (bigEndian width n') = compare n n' := by
  induction width generalizing n n' with
  | zero => rw [Nat.lt_one_iff.mp hn, Nat.lt_one_iff.mp hn']; rfl
  | succ width ih =>
    have hdiv : n / 256 < 256 ^ width := Nat.div_lt_of_lt_mul (by rwa [Nat.pow_succ'] at hn)
    have hdiv' : n' / 256 < 256 ^ width := Nat.div_lt_of_lt_mul (by rwa [Nat.pow_succ'] at hn')
    have hbyte : compare [UInt8.ofNat (n % 256)] [UInt8.ofNat (n' % 256)]
        = compare (n % 256) (n' % 256) := by
      rw [List.compare_cons_cons, UInt8.compare_eq_toNat_compare_toNat, UInt8.toNat_ofNat',
        UInt8.toNat_ofNat', Nat.mod_mod, Nat.mod_mod]
      exact Ordering.then_eq
    rw [bigEndian, bigEndian, Bytes.compare_append (by simp), ih hdiv hdiv', hbyte]
    -- the quotients decide unless they are the same
    rcases Nat.lt_trichotomy (n / 256) (n' / 256) with hlt | heq | hlt
    · rw [Nat.compare_eq_lt.mpr hlt, Nat.compare_eq_lt.mpr (by omega : n < n')]
      rfl
    · rw [Nat.compare_eq_eq.mpr heq, Ordering.eq_then]
      rcases Nat.lt_trichotomy (n % 256) (n' % 256) with hlt | heq' | hlt
      · rw [Nat.compare_eq_lt.mpr hlt, Nat.compare_eq_lt.mpr (by omega : n < n')]
      · rw [Nat.compare_eq_eq.mpr heq', Nat.compare_eq_eq.mpr (by omega : n = n')]
      · rw [Nat.compare_eq_gt.mpr hlt, Nat.compare_eq_gt.mpr (by omega : n' < n)]
    · rw [Nat.compare_eq_gt.mpr hlt, Nat.compare_eq_gt.mpr (by omega : n' < n)]
      rfl

def uint64ToBigEndian (n : ℕ) : Bytes := bigEndian 8 n

end Encoding
