/-
The keys of pool routes: `x/poolmanager/types/keys.go` and `create_pool.go`.

`FormatModuleRouteKey` writes the digits of the id behind the prefix byte, into a buffer that
has room for eleven of them.  `AppendUint` moves to a new array when there are more, and the
buffer cannot be cut to the length that was written:

    FormatModuleRouteKey id  =  2 :: digits of id     for id < 10 ^ 11
                                panic                 otherwise      (`formatModuleRouteKey_eq`)
-/
import MaanyDex.Gamm.Keeper
import MaanyDex.Lib.Slice

namespace MaanyDex.PoolManager

open Gamm (PoolType)

def swapModuleRouterPrefix : Bytes := [2]

/-- The panic of a slice expression. -/
def sliceBounds : Fault := .panic "slice bounds out of range"

/-- A slice operation, with its panic. -/
def orPanic {β : Type} : Option β → Result β
  | some b => .ok b
  | none => .error sliceBounds

def formatModuleRouteKey (poolId : ℕ) : Result Bytes := do
  let length := 11
  let (result, mem) := Slice.make (0 : UInt8) [] 1 (1 + length)
  let mem ← orPanic (Slice.write mem result 0 2)
  let tail ← orPanic (Slice.reslice result 1 result.length)
  let (written, mem) := Slice.append mem tail (Decimal.formatUint poolId)
  let key ← orPanic (Slice.reslice result 0 (1 + written.length))
  .ok (Slice.read mem key)

structure ModuleRoute where
  poolType : PoolType
  poolId : ℕ

/-- `parsePoolRouteWithKey`, over `ParseModuleRouteFromBz`. -/
def parsePoolRouteWithKey (parseModuleRouteFromBz : Bytes → Option ModuleRoute)
    (key value : Bytes) : Result ModuleRoute :=
  -- `TrimLeft` drops all leading bytes of the cutset
  let poolIdBytes := key.dropWhile (· ∈ swapModuleRouterPrefix)
  match Decimal.parseUint 64 poolIdBytes with
  | none => .error (.err "strconv.ParseUint: invalid syntax or value out of range")
  | some poolId =>
    match parseModuleRouteFromBz value with
    | none => .error (.panic "proto: ModuleRoute")
    | some parsedValue => .ok { parsedValue with poolId := poolId }

/-- The key that ids of at most eleven digits have. -/
def moduleRouteKey (poolId : ℕ) : Bytes := swapModuleRouterPrefix ++ Decimal.formatUint poolId

/-- **Keys of eleven digits at most.** -/
lemma formatModuleRouteKey_eq (poolId : ℕ) :
    formatModuleRouteKey poolId
      = if poolId < 10 ^ 11 then .ok (moduleRouteKey poolId) else .error sliceBounds := by
  -- the buffer when the digits are appended
  let mem : Slice.Memory UInt8 := [2 :: List.replicate 11 0]
  let result : Slice.Window := ⟨0, 0, 1, 12⟩
  let tail : Slice.Window := ⟨0, 1, 0, 11⟩
  have hresult : Slice.Valid mem result := ⟨by decide, by decide, by decide⟩
  have htail : Slice.Valid mem tail := ⟨by decide, by decide, by decide⟩
  have hlen : (Slice.append mem tail (Decimal.formatUint poolId)).1.length
      = (Decimal.formatUint poolId).length := by
    rw [Slice.length_append htail]
    exact zero_add _
  have heq : formatModuleRouteKey poolId
      = orPanic (Slice.reslice result 0 (1 + (Decimal.formatUint poolId).length))
        >>= fun key => .ok (Slice.read (Slice.append mem tail (Decimal.formatUint poolId)).2 key) := by
    rw [← hlen]
    rfl
  rw [heq]
  split
  · rename_i hid
    have hfits : 1 + (Decimal.formatUint poolId).length ≤ 12 := by
      have := Decimal.length_formatUint_le_iff (k := 11) (by norm_num) |>.mpr hid
      omega
    rw [Slice.reslice_eq_some (Nat.zero_le _) hfits]
    have hread : Slice.read (Slice.append mem tail (Decimal.formatUint poolId)).2
        ⟨0, 0, 1 + (Decimal.formatUint poolId).length, 12⟩
          = Slice.read mem result ++ Decimal.formatUint poolId := Slice.read_append hresult hfits
    exact congrArg Except.ok hread
  · rename_i hid
    have hlong : 11 < (Decimal.formatUint poolId).length := by
      by_contra hle
      exact hid ((Decimal.length_formatUint_le_iff (k := 11) (by norm_num)).mp (not_lt.mp hle))
    rw [Slice.reslice_eq_none_iff.mpr (.inr (by show 12 < _; omega))]
    rfl

/-- **Route keys.**  For every `uint64`: the key is the prefix byte and the digits of the id, it is
the key of no other id, and the id is read back from it, exactly if the id is below `10 ^ 11`. -/
theorem pool_route_key_iff (parseModuleRouteFromBz : Bytes → Option ModuleRoute) (poolId : ℕ)
    (value : Bytes) (route : ModuleRoute) (hid : poolId < 2 ^ 64)
    (hvalue : parseModuleRouteFromBz value = some route) :
    (∃ key, formatModuleRouteKey poolId = .ok key
        ∧ key = swapModuleRouterPrefix ++ Decimal.formatUint poolId
        ∧ (∀ poolId', formatModuleRouteKey poolId' = .ok key → poolId' = poolId)
        ∧ parsePoolRouteWithKey parseModuleRouteFromBz key value
          = .ok { route with poolId := poolId })
      ↔ poolId < 10 ^ 11 := by
  constructor
  · rintro ⟨key, hkey, -⟩
    by_contra hlarge
    rw [formatModuleRouteKey_eq, if_neg hlarge] at hkey
    cases hkey
  · intro hsmall
    refine ⟨moduleRouteKey poolId, by rw [formatModuleRouteKey_eq, if_pos hsmall], rfl, ?_, ?_⟩
    · intro poolId' hkey
      rw [formatModuleRouteKey_eq] at hkey
      split at hkey
      · have hdigits := List.append_cancel_left (Except.ok.inj hkey)
        exact Decimal.formatUint_injective hdigits
      · cases hkey
    · -- no digit is in the cutset
      have htrim : (moduleRouteKey poolId).dropWhile (· ∈ swapModuleRouterPrefix)
          = Decimal.formatUint poolId := by
        rcases hdigits : Decimal.formatUint poolId with - | ⟨b, bs⟩
        · exact absurd hdigits (Decimal.formatUint_ne_nil _)
        · have hb := Decimal.formatUint_digit (n := poolId) (b := b) (by rw [hdigits]; simp)
          have hne : b ≠ 2 := by
            rintro rfl
            revert hb
            decide
          rw [moduleRouteKey, hdigits]
          simp [swapModuleRouterPrefix, hne]
      unfold parsePoolRouteWithKey
      simp only [htrim, Decimal.parseUint_formatUint hid, hvalue]

/-- The largest id that has a key. -/
theorem pool_route_key_largest :
    ∃ key, formatModuleRouteKey 99999999999 = .ok key
      ∧ key = ascii "\x0299999999999"
      ∧ parsePoolRouteWithKey (fun _ => some ⟨.balancer, 0⟩) key []
        = .ok ⟨.balancer, 99999999999⟩ := by
  obtain ⟨key, hkey, hval, -, hparse⟩ := (pool_route_key_iff (fun _ => some ⟨.balancer, 0⟩)
    99999999999 [] ⟨.balancer, 0⟩ (by norm_num) rfl).mpr (by norm_num)
  refine ⟨key, hkey, ?_, hparse⟩
  rw [hval]
  decide +kernel

/-- One more, and the key cannot be built. -/
theorem route_key_panics :
    formatModuleRouteKey 100000000000 = .error (.panic "slice bounds out of range") := by
  decide +kernel

end MaanyDex.PoolManager
