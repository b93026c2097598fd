/-
The message to the provider, read back.

`buildProviderMarkClaimAny` writes `MsgMarkEscrowClaimed` by hand.  Its bytes are
the three length-delimited fields of the wire format, one after the other
(`value_buildProviderMarkClaimAny`).
-/
import MaanyDex.GenesisMint.BeginBlock
import MaanyDex.Lib.Protobuf

namespace MaanyDex.GenesisMint

open Protobuf

/-- A Go string: its length is an `int`. -/
abbrev GoString := {s : Bytes // s.length < 2 ^ 63}

/-! ### The encoder -/

/-- The byte that `appendVarint` writes for a group that is not the last. -/
lemma ofNat_or_high (x : ℕ) : UInt8.ofNat x ||| 0x80 = UInt8.ofNat (x % 128 + 128) := by
  apply UInt8.toNat_inj.mp
  have hor : ∀ m : Fin 256, (m : ℕ) ||| 128 = (m : ℕ) % 128 + 128 := by
    decide +kernel
  have h := hor ⟨x % 256, Nat.mod_lt _ (by norm_num)⟩
  have hleft : (UInt8.ofNat x ||| 0x80).toNat = x % 256 ||| 128 := by
    simp
  rw [hleft, UInt8.toNat_ofNat_of_lt' (by norm_num; omega)]
  simp only at h
  omega

lemma appendVarintLoop_eq {n x : ℕ} (h : x < 128 ^ (n + 1)) (dst : Bytes) :
    appendVarintLoop n dst x = dst ++ Protobuf.encodeVarint x := by
  induction n generalizing x dst with
  | zero =>
    rw [appendVarintLoop, encodeVarint_of_lt (by simpa using h)]
  | succ n ih =>
    rw [appendVarintLoop]
    split
    · rename_i hx
      have hdiv : x >>> 7 = x / 128 := Nat.shiftRight_eq_div_pow x 7
      have hlt : x / 128 < 128 ^ (n + 1) := by
        apply Nat.div_lt_of_lt_mul
        rwa [← Nat.pow_succ']
      rw [hdiv, ih hlt, ofNat_or_high, encodeVarint_of_le hx, List.append_assoc,
        List.singleton_append]
    · rename_i hx
      rw [encodeVarint_of_lt (by omega)]

lemma appendVarint_eq {x : ℕ} (h : x < 2 ^ 64) (dst : Bytes) :
    appendVarint dst x = dst ++ Protobuf.encodeVarint x :=
  appendVarintLoop_eq (h.trans_le (by norm_num)) dst

lemma encField_eq {num : ℕ} {s : Bytes} (hnum : num < 2 ^ 29) (hs : s.length < 2 ^ 63)
    (dst : Bytes) : encField num s dst = dst ++ Protobuf.encodeBytes num s := by
  have hkey : (num <<< 3) ||| 2 = 8 * num + 2 := by
    rw [← Nat.shiftLeft_add_eq_or_of_lt (by norm_num), Nat.shiftLeft_eq]
    omega
  rw [encField, hkey, appendVarint_eq (by omega), appendVarint_eq (by omega), Protobuf.encodeBytes]
  simp only [List.append_assoc]

lemma value_buildProviderMarkClaimAny (sender escrowID consumerChainID : GoString) :
    (buildProviderMarkClaimAny sender escrowID consumerChainID).value
      = Protobuf.encodeBytes 1 sender ++ (Protobuf.encodeBytes 2 escrowID
        ++ (Protobuf.encodeBytes 3 consumerChainID ++ [])) := by
  show encField 3 _ (encField 2 _ (encField 1 _ [])) = _
  rw [encField_eq (by norm_num) sender.2, encField_eq (by norm_num) escrowID.2,
    encField_eq (by norm_num) consumerChainID.2]
  simp only [List.nil_append, List.append_nil, List.append_assoc]

/-! ### What a decoder finds -/

/-- **The message to the provider** decodes to its three fields and nothing else, for strings of
any length; and `appendVarint` writes, for every `uint64`, the one shortest encoding among those
that a decoder reads as that number. -/
theorem mark_claim_decodes (sender escrowID consumerChainID : GoString) :
    (∃ fields, Protobuf.decode (buildProviderMarkClaimAny sender escrowID consumerChainID).value
          = some fields
        ∧ fields = [(1, .bytes sender), (2, .bytes escrowID), (3, .bytes consumerChainID)]
        ∧ Protobuf.field? 1 fields = some (.bytes sender)
        ∧ Protobuf.field? 2 fields = some (.bytes escrowID)
        ∧ Protobuf.field? 3 fields = some (.bytes consumerChainID))
      ∧ ∀ (x : UInt64) (dst rest : Bytes),
        appendVarint dst x.toNat = dst ++ appendVarint [] x.toNat
        ∧ Protobuf.decodeVarint (appendVarint [] x.toNat ++ rest) = some (x.toNat, rest)
        ∧ ∀ bs, Protobuf.decodeVarint bs = some (x.toNat, []) →
          (appendVarint [] x.toNat).length ≤ bs.length
          ∧ (bs.length = (appendVarint [] x.toNat).length → bs = appendVarint [] x.toNat) := by
  constructor
  · refine ⟨_, ?_, rfl, rfl, rfl, rfl⟩
    have hlen (s : GoString) : s.1.length < 2 ^ 64 := s.2.trans (by norm_num)
    rw [value_buildProviderMarkClaimAny,
      decode_encodeBytes (by norm_num) (by norm_num) (hlen sender),
      decode_encodeBytes (by norm_num) (by norm_num) (hlen escrowID),
      decode_encodeBytes (by norm_num) (by norm_num) (hlen consumerChainID)]
    rfl
  · intro x dst rest
    rw [appendVarint_eq x.toNat_lt dst, appendVarint_eq x.toNat_lt [], List.nil_append]
    refine ⟨rfl, decodeVarint_encodeVarint x.toNat_lt rest, ?_⟩
    intro bs h
    exact encodeVarint_minimal h

/-- The number 300 has one encoding of two bytes and padded ones that are longer. -/
theorem mark_claim_decodes_padded :
    Protobuf.decode (buildProviderMarkClaimAny (ascii "dex1ica") (ascii "7") (ascii "maany-dex")).value
        = some [(1, .bytes (ascii "dex1ica")), (2, .bytes (ascii "7")),
          (3, .bytes (ascii "maany-dex"))]
      ∧ appendVarint [] 300 = [172, 2]
      ∧ Protobuf.decodeVarint [172, 130, 0] = some (300, [])
      ∧ (appendVarint [] 300).length ≤ [172, 130, 0].length := by
  obtain ⟨⟨fields, hdecode, hfields, -⟩, hvarint⟩ := mark_claim_decodes
    ⟨ascii "dex1ica", by decide⟩ ⟨ascii "7", by decide⟩ ⟨ascii "maany-dex", by decide⟩
  refine ⟨hfields ▸ hdecode, by decide, by decide, ?_⟩
  exact ((hvarint 300 [] []).2.2 [172, 130, 0] (by decide)).1

end MaanyDex.GenesisMint
