/-
The protobuf wire format.

A *varint* is a number in groups of seven bits, the lowest group first, one byte
each; all bytes but the last have their high bit set.  A message is a sequence of
fields: a varint key (field number and wire type), and a value whose extent the
wire type decides.  `decode` reads a whole message into the list of its fields;
where a field occurs more than once, the last occurrence counts (`field?`).
-/
import MaanyDex.Lib.Bytes

namespace Protobuf

open Option

/-! ### Varints -/

/-- The shortest base-128 encoding. -/
def encodeVarint (x : ℕ) : Bytes :=
  if x < 128 then [UInt8.ofNat x]
  else UInt8.ofNat (x % 128 + 128) :: encodeVarint (x / 128)
termination_by x
decreasing_by omega

/-- Read groups of seven bits up to a byte without the high bit, at most `n`. -/
def readGroups : ℕ → Bytes → Option (ℕ × Bytes)
  | 0, _ => none
  | _ + 1, [] => none
  | n + 1, b :: bs =>
    if b.toNat < 128 then some (b.toNat, bs)
    else (readGroups n bs).map fun r => (b.toNat % 128 + 128 * r.1, r.2)

/-- Read a `uint64`: at most ten bytes, and the number must fit. -/
def decodeVarint (bs : Bytes) : Option (ℕ × Bytes) :=
  (readGroups 10 bs).filter fun r => r.1 < 2 ^ 64

section Varint

variable {n x : ℕ} {bs rest : Bytes}

lemma encodeVarint_of_lt (h : x < 128) : encodeVarint x = [UInt8.ofNat x] := by
  rw [encodeVarint, if_pos h]

lemma encodeVarint_of_le (h : 128 ≤ x) :
    encodeVarint x = UInt8.ofNat (x % 128 + 128) :: encodeVarint (x / 128) := by
  rw [encodeVarint, if_neg (by omega)]

lemma encodeVarint_ne_nil (x : ℕ) : encodeVarint x ≠ [] := by
  by_cases h : x < 128
  · simp [encodeVarint_of_lt h]
  · simp [encodeVarint_of_le (Nat.le_of_not_lt h)]

lemma readGroups_of_lt (h : x < 128) (rest : Bytes) :
    readGroups (n + 1) (encodeVarint x ++ rest) = some (x, rest) := by
  have hb : (UInt8.ofNat x).toNat = x := UInt8.toNat_ofNat_of_lt' (by norm_num; omega)
  rw [encodeVarint_of_lt h, List.singleton_append, readGroups, hb, if_pos h]

lemma readGroups_encodeVarint (h : x < 128 ^ (n + 1)) (rest : Bytes) :
    readGroups (n + 1) (encodeVarint x ++ rest) = some (x, rest) := by
  induction n generalizing x with
  | zero =>
    apply readGroups_of_lt
    simpa using h
  | succ n ih =>
    by_cases hx : x < 128
    · exact readGroups_of_lt hx rest
    · have hb : (UInt8.ofNat (x % 128 + 128)).toNat = x % 128 + 128 :=
        UInt8.toNat_ofNat_of_lt' (by norm_num; omega)
      have hdiv : x / 128 < 128 ^ (n + 1) := by
        apply Nat.div_lt_of_lt_mul
        rwa [← Nat.pow_succ']
      rw [encodeVarint_of_le (by omega), List.cons_append, readGroups, hb, if_neg (by omega),
        ih hdiv]
      show some ((x % 128 + 128) % 128 + 128 * (x / 128), rest) = some (x, rest)
      congr 2
      omega

/-- The decoder inverts the encoding of every `uint64`. -/
lemma decodeVarint_encodeVarint (h : x < 2 ^ 64) (rest : Bytes) :
    decodeVarint (encodeVarint x ++ rest) = some (x, rest) := by
  have hgroups : readGroups 10 (encodeVarint x ++ rest) = some (x, rest) :=
    readGroups_encodeVarint (h.trans_le (by norm_num)) rest
  rw [decodeVarint, hgroups]
  simpa using h

/-- What is read was in front, and the shortest encoding is at most as long; of the
same length there is no other. -/
lemma readGroups_eq_some (h : readGroups n bs = some (x, rest)) :
    ∃ groups, bs = groups ++ rest ∧ (encodeVarint x).length ≤ groups.length
      ∧ (groups.length = (encodeVarint x).length → groups = encodeVarint x) := by
  induction n generalizing bs x with
  | zero => cases h
  | succ n ih =>
    rcases bs with - | ⟨b, bs⟩
    · cases h
    · rw [readGroups] at h
      split at h
      · rename_i hb
        cases h
        refine ⟨[b], rfl, ?_⟩
        rw [encodeVarint_of_lt hb]
        simp
      · rename_i hb
        obtain ⟨⟨y, rest'⟩, hy, heq⟩ := map_eq_some_iff.mp h
        cases heq
        obtain ⟨groups, rfl, hle, heq⟩ := ih hy
        refine ⟨b :: groups, rfl, ?_⟩
        by_cases hx : b.toNat % 128 + 128 * y < 128
        · -- a higher group that is zero is never written
          rw [encodeVarint_of_lt hx]
          refine ⟨by simp, fun hlen => ?_⟩
          obtain rfl : groups = [] := by simpa using hlen
          exact absurd (List.length_eq_zero_iff.mp (Nat.le_zero.mp hle)) (encodeVarint_ne_nil y)
        · have hmod : (b.toNat % 128 + 128 * y) % 128 = b.toNat % 128 := by omega
          have hdiv : (b.toNat % 128 + 128 * y) / 128 = y := by omega
          have hhead : UInt8.ofNat (b.toNat % 128 + 128) = b := by
            have hlt := b.toNat_lt
            have hb' : b.toNat % 128 + 128 = b.toNat := by omega
            rw [hb', UInt8.ofNat_toNat]
          rw [encodeVarint_of_le (by omega), hmod, hdiv, hhead]
          constructor
          · simpa using hle
          · intro hlen
            rw [heq (by simpa using hlen)]

/-- **The encoding is minimal**: a byte string that decodes to the same number is longer, or
the same. -/
lemma encodeVarint_minimal (h : decodeVarint bs = some (x, [])) :
    (encodeVarint x).length ≤ bs.length
      ∧ (bs.length = (encodeVarint x).length → bs = encodeVarint x) := by
  obtain ⟨hgroups, -⟩ := filter_eq_some_iff.mp h
  obtain ⟨groups, rfl, hmin⟩ := readGroups_eq_some hgroups
  rwa [List.append_nil]

lemma length_of_decodeVarint (h : decodeVarint bs = some (x, rest)) : rest.length < bs.length := by
  obtain ⟨hgroups, -⟩ := filter_eq_some_iff.mp h
  obtain ⟨groups, rfl, hle, -⟩ := readGroups_eq_some hgroups
  have hpos : 0 < (encodeVarint x).length := List.length_pos_iff.mpr (encodeVarint_ne_nil x)
  simp
  omega

end Varint

/-! ### Fields -/

/-- The value of a field, by its wire type. -/
inductive Value where
  | varint (x : ℕ)
  | fixed64 (bz : Bytes)
  | bytes (bz : Bytes)
  | fixed32 (bz : Bytes)

/-- Cut off exactly `n` bytes. -/
def takeExactly (n : ℕ) (bs : Bytes) : Option (Bytes × Bytes) :=
  if n ≤ bs.length then some (bs.take n, bs.drop n) else none

/-- Read a value of the given wire type. -/
def decodeValue (bs : Bytes) : ℕ → Option (Value × Bytes)
  | 0 => (decodeVarint bs).map fun r => (.varint r.1, r.2)
  | 1 => (takeExactly 8 bs).map fun r => (.fixed64 r.1, r.2)
  | 2 => (decodeVarint bs).bind fun r => (takeExactly r.1 r.2).map fun r => (.bytes r.1, r.2)
  | 5 => (takeExactly 4 bs).map fun r => (.fixed32 r.1, r.2)
  | _ => none

/-- Read a field: its number, its value and what follows. -/
def decodeField (bs : Bytes) : Option ((ℕ × Value) × Bytes) :=
  (decodeVarint bs).bind fun r =>
    if 1 ≤ r.1 / 8 ∧ r.1 / 8 < 2 ^ 29 then
      (decodeValue r.2 (r.1 % 8)).map fun v => ((r.1 / 8, v.1), v.2)
    else none

/-- Read fields to the end, at most `n`. -/
def decodeFields : ℕ → Bytes → Option (List (ℕ × Value))
  | _, [] => some []
  | 0, _ :: _ => none
  | n + 1, b :: bs =>
    (decodeField (b :: bs)).bind fun r => (decodeFields n r.2).map (r.1 :: ·)

def decode (bs : Bytes) : Option (List (ℕ × Value)) := decodeFields bs.length bs

/-- The value of a field: its last occurrence. -/
def field? (num : ℕ) (fields : List (ℕ × Value)) : Option Value := fields.reverse.lookup num

/-- A length-delimited field. -/
def encodeBytes (num : ℕ) (bz : Bytes) : Bytes :=
  encodeVarint (8 * num + 2) ++ encodeVarint bz.length ++ bz

section Fields

variable {num n : ℕ} {bz bs rest : Bytes} {f : ℕ × Value}

lemma length_of_takeExactly {front : Bytes} (h : takeExactly n bs = some (front, rest)) :
    rest.length ≤ bs.length := by
  unfold takeExactly at h
  split at h
  · cases h
    simp
  · cases h

lemma length_of_decodeValue {wireType : ℕ} {v : Value}
    (h : decodeValue bs wireType = some (v, rest)) : rest.length ≤ bs.length := by
  unfold decodeValue at h
  split at h
  · obtain ⟨⟨x, r⟩, hx, heq⟩ := map_eq_some_iff.mp h
    cases heq
    exact (length_of_decodeVarint hx).le
  · obtain ⟨⟨front, r⟩, hr, heq⟩ := map_eq_some_iff.mp h
    cases heq
    exact length_of_takeExactly hr
  · obtain ⟨⟨x, r⟩, hx, h⟩ := bind_eq_some_iff.mp h
    obtain ⟨⟨front, r'⟩, hr, heq⟩ := map_eq_some_iff.mp h
    cases heq
    exact (length_of_takeExactly hr).trans (length_of_decodeVarint hx).le
  · obtain ⟨⟨front, r⟩, hr, heq⟩ := map_eq_some_iff.mp h
    cases heq
    exact length_of_takeExactly hr
  · cases h

lemma length_of_decodeField (h : decodeField bs = some (f, rest)) : rest.length < bs.length := by
  obtain ⟨⟨key, r⟩, hkey, h⟩ := bind_eq_some_iff.mp h
  split at h
  · obtain ⟨⟨v, r'⟩, hv, heq⟩ := map_eq_some_iff.mp h
    cases heq
    exact (length_of_decodeValue hv).trans_lt (length_of_decodeVarint hkey)
  · cases h

lemma decodeFields_of_length_le (h : bs.length ≤ n) : decodeFields n bs = decode bs := by
  unfold decode
  generalize hm : bs.length = m
  have hm' : bs.length ≤ m := hm.le
  clear hm
  induction n generalizing bs m with
  | zero =>
    obtain rfl : bs = [] := List.length_eq_zero_iff.mp (by omega)
    simp [decodeFields]
  | succ n ih =>
    rcases bs with - | ⟨b, bs⟩
    · simp [decodeFields]
    · obtain ⟨m, rfl⟩ : ∃ k, m = k + 1 := ⟨m - 1, by simp at hm'; omega⟩
      rw [decodeFields, decodeFields]
      rcases hf : decodeField (b :: bs) with - | ⟨f, rest⟩
      · rfl
      · -- both go on with what follows the first field
        have hlt := length_of_decodeField hf
        show (decodeFields n rest).map _ = (decodeFields m rest).map _
        rw [ih (by omega) m (by omega)]

lemma decode_of_decodeField (h : decodeField bs = some (f, rest)) :
    decode bs = (decode rest).map (f :: ·) := by
  have hlt := length_of_decodeField h
  rcases bs with - | ⟨b, bs⟩
  · simp at hlt
  · rw [decode, List.length_cons, decodeFields, h]
    show (decodeFields bs.length rest).map _ = _
    rw [decodeFields_of_length_le (by simpa using Nat.le_of_lt_succ hlt)]

lemma takeExactly_append (front rest : Bytes) :
    takeExactly front.length (front ++ rest) = some (front, rest) := by
  simp [takeExactly]

lemma decodeField_encodeBytes (hpos : 1 ≤ num) (hnum : num < 2 ^ 29) (hbz : bz.length < 2 ^ 64)
    (rest : Bytes) : decodeField (encodeBytes num bz ++ rest) = some ((num, .bytes bz), rest) := by
  have hkey : decodeVarint (encodeVarint (8 * num + 2) ++ (encodeVarint bz.length ++ (bz ++ rest)))
      = some (8 * num + 2, encodeVarint bz.length ++ (bz ++ rest)) :=
    decodeVarint_encodeVarint (by omega) _
  have hlen : decodeVarint (encodeVarint bz.length ++ (bz ++ rest))
      = some (bz.length, bz ++ rest) :=
    decodeVarint_encodeVarint hbz _
  have hdiv : (8 * num + 2) / 8 = num := by omega
  have hmod : (8 * num + 2) % 8 = 2 := by omega
  rw [encodeBytes, List.append_assoc, List.append_assoc, decodeField, hkey]
  simp only [bind_some, hdiv, hmod, decodeValue, hlen, takeExactly_append, map_some]
  rw [if_pos ⟨hpos, hnum⟩]

/-- **Fields in front of a message**: a length-delimited field is the first of the list, and the
rest of the bytes are the rest of the message. -/
lemma decode_encodeBytes (hpos : 1 ≤ num) (hnum : num < 2 ^ 29) (hbz : bz.length < 2 ^ 64)
    (rest : Bytes) :
    decode (encodeBytes num bz ++ rest) = (decode rest).map ((num, .bytes bz) :: ·) :=
  decode_of_decodeField (decodeField_encodeBytes hpos hnum hbz rest)

end Fields

end Protobuf
