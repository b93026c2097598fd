/-
The types of `x/genesismint`: parameters, mint intents, the genesis state with
its validation, and the keys of the module's store.

Follows `types/params.go`, `types/genesis.go`, `types/keys.go` and the protobuf
definitions.  Keys that belong to an escrow join the provider chain id and the
escrow id with `|`.  All of them depend on the joined string only (`claimID`),
which determines the two parts exactly when the provider chain id does not
contain `|`.
-/
import MaanyDex.Lib.Encoding
import MaanyDex.Lib.KVStore
import MaanyDex.Sdk.Bank

namespace MaanyDex.GenesisMint

/-! ### Messages -/

structure TrustedRoot where
  revisionNumber : ℕ
  revisionHeight : ℕ
  hash : Bytes
  deriving DecidableEq

structure Params where
  providerClientId : Bytes
  providerChainId : Bytes
  allowedProviderDenom : Denom
  mintDenom : Denom
  genesisTrustedRoot : Option TrustedRoot
  useGenesisTrustedRoot : Bool
  deriving DecidableEq

def Params.validateBasic (p : Params) : Result Unit :=
  if p.providerClientId = [] ∨ p.providerChainId = [] then
    .error (.err "provider client/chain id required")
  else if p.allowedProviderDenom = [] ∨ p.mintDenom = [] then .error (.err "denoms required")
  else .ok ()

/-- `types.MintIntent`.  The Merkle proof is kept as bytes, `none` for a nil
pointer. -/
structure MintIntent where
  merkleProof : Option Bytes
  proofHeightRevisionNumber : ℕ
  proofHeightRevisionHeight : ℕ
  keyPath : List Bytes
  value : Bytes
  providerChainId : Bytes
  amountDenom : Denom
  amountValue : Bytes
  escrowId : Bytes
  recipient : Bytes
  deriving DecidableEq

/-- `types.GenesisState`.  The list of intents is a slice of pointers, any of
which may be nil. -/
structure GenesisState where
  params : Option Params
  mints : List (Option MintIntent)
  claimedEscrowIds : List Bytes
  deriving DecidableEq

def GenesisState.intents (gs : GenesisState) : List MintIntent := gs.mints.filterMap id

/-- The body of the loop of `GenesisState.Validate` over the intents. -/
def validateMint (i : ℕ) (mint : Option MintIntent) : Result Unit :=
  let fail (format : String) : Result Unit := .error (.errf format (Decimal.formatUint i))
  match mint with
  | none => fail "mints[%d]: nil"
  | some m =>
    if m.providerChainId = [] then fail "mints[%d]: provider_chain_id required"
    else match m.keyPath with
      | [_, hexKey] =>
        if Encoding.hexDecode hexKey = none then fail "mints[%d]: key_path[1] not valid hex: %w"
        else if m.value = [] then fail "mints[%d]: value (base64) required"
        else if Encoding.base64Decode m.value = none then fail "mints[%d]: value not base64: %w"
        else if m.amountDenom = [] ∨ m.amountValue = [] then
          fail "mints[%d]: amount denom/value required"
        else if m.recipient = [] then fail "mints[%d]: recipient required"
        else .ok ()
      | _ => fail "mints[%d]: key_path must be [storeName, hexKey]"

/-- The body of the loop of `GenesisState.Validate` over the claimed ids. -/
def validateClaimedId (i : ℕ) (id : Bytes) : Result Unit :=
  if id = [] then .error (.errf "claimed_escrow_ids[%d]: empty" (Decimal.formatUint i))
  else .ok ()

def GenesisState.validate (gs : GenesisState) : Result Unit :=
  match gs.params with
  | none => .error (.err "params missing")
  | some params => do
    params.validateBasic.mapError (.wrap "params: ")
    gs.mints.zipIdx.forM fun p => validateMint p.2 p.1
    gs.claimedEscrowIds.zipIdx.forM fun p => validateClaimedId p.2 p.1

/-! ### Keys -/

/-- `|`. -/
def bar : UInt8 := 124

variable (providerChainID escrowID : Bytes)

/-- The provider chain id and the escrow id, joined. -/
def claimID : Bytes := providerChainID ++ bar :: escrowID

/-- A key that belongs to an escrow: a tag byte, a head, and the joined ids. -/
def escrowKey (tag : UInt8) (head : String) (claim : Bytes) : Bytes := tag :: (ascii head ++ claim)

def claimedKey : Bytes :=
  escrowKey 0x11 "claimed|" (claimID providerChainID escrowID)

def pendingClaimKey : Bytes :=
  escrowKey 0x12 "pclaim|" (claimID providerChainID escrowID)

def inflightKey : Bytes :=
  escrowKey 0x17 "inflight|" (claimID providerChainID escrowID)

def inflightAtKey : Bytes :=
  escrowKey 0x17 "inflight_at|" (claimID providerChainID escrowID)

def icaPendingKey (connectionID owner : Bytes) : Bytes :=
  escrowKey 0x13 "ica|" (claimID connectionID owner)

def doneKey : Bytes := 0x14 :: ascii "done"

def configICAConnectionIDKey : Bytes := 0x15 :: ascii "cfg|ica_connection_id"

def configICAOwnerKey : Bytes := 0x15 :: ascii "cfg|ica_owner"

def configICATimeoutSecondsKey : Bytes := 0x15 :: ascii "cfg|ica_timeout_seconds"

def configMaxClaimsPerBlockKey : Bytes := 0x15 :: ascii "cfg|max_claims_per_block"

def icaPacketKey (channelID : Bytes) (sequence : ℕ) : Bytes :=
  0x16 :: (ascii "pkt|" ++ channelID ++ bar :: Decimal.formatUint sequence)

/-! ### What keys determine -/

/-- The entries of the module's store, by what they are about. -/
inductive Slot where
  | claimed (claim : Bytes)
  | pending (claim : Bytes)
  | icaPending (account : Bytes)
  | done
  | icaConnectionID
  | icaOwner
  | icaTimeoutSeconds
  | maxClaimsPerBlock
  | packet (channelID : Bytes) (sequence : ℕ)
  | inflight (claim : Bytes)
  | inflightAt (claim : Bytes)
  deriving DecidableEq

def Slot.key : Slot → Bytes
  | .claimed c => escrowKey 0x11 "claimed|" c
  | .pending c => escrowKey 0x12 "pclaim|" c
  | .icaPending a => escrowKey 0x13 "ica|" a
  | .done => doneKey
  | .icaConnectionID => configICAConnectionIDKey
  | .icaOwner => configICAOwnerKey
  | .icaTimeoutSeconds => configICATimeoutSecondsKey
  | .maxClaimsPerBlock => configMaxClaimsPerBlockKey
  | .packet ch n => icaPacketKey ch n
  | .inflight c => escrowKey 0x17 "inflight|" c
  | .inflightAt c => escrowKey 0x17 "inflight_at|" c

/-- With the same provider, the joined ids determine the escrow id, whatever the
two strings contain. -/
@[simp] lemma claimID_inj_right {provider e e' : Bytes} :
    claimID provider e = claimID provider e' ↔ e = e' := by
  simp [claimID]

@[simp] lemma escrowKey_inj {tag : UInt8} {head : String} {c c' : Bytes} :
    escrowKey tag head c = escrowKey tag head c' ↔ c = c' := by
  simp [escrowKey]

lemma inflight_ne_inflightAt (c c' : Bytes) :
    escrowKey 0x17 "inflight|" c ≠ escrowKey 0x17 "inflight_at|" c' := by
  intro h
  exact Split.append_ne_append 8 (by decide) (by decide) (by decide) c c' (List.cons.inj h).2

lemma bar_notMem_formatUint (n : ℕ) : bar ∉ Decimal.formatUint n := by
  intro h
  have hd := Decimal.formatUint_digit h
  revert hd
  decide

lemma icaPacketKey_inj {ch ch' : Bytes} {n n' : ℕ}
    (h : icaPacketKey ch n = icaPacketKey ch' n') : ch = ch' ∧ n = n' := by
  have h' := (List.cons.inj h).2
  rw [List.append_assoc, List.append_assoc, List.append_cancel_left_eq] at h'
  obtain ⟨hc, hn⟩ := Split.append_cons_inj_right (bar_notMem_formatUint n)
    (bar_notMem_formatUint n') h'
  exact ⟨hc, Decimal.formatUint_injective hn⟩

/-- The first byte of a key. -/
def Slot.tag : Slot → UInt8
  | .claimed _ => 0x11
  | .pending _ => 0x12
  | .icaPending _ => 0x13
  | .done => 0x14
  | .icaConnectionID | .icaOwner | .icaTimeoutSeconds | .maxClaimsPerBlock => 0x15
  | .packet _ _ => 0x16
  | .inflight _ | .inflightAt _ => 0x17

lemma Slot.head?_key (a : Slot) : a.key.head? = some a.tag := by
  cases a <;> rfl

/-- A key is in the range of a one-byte tag exactly when the tag is its own. -/
lemma Slot.tag_prefix_key {t : UInt8} {a : Slot} : [t] <+: a.key ↔ t = a.tag := by
  have h := a.head?_key
  rcases e : a.key with - | ⟨b, bs⟩
  · rw [e] at h
    cases h
  · rw [e] at h
    obtain rfl : b = a.tag := by simpa using h
    simp

/-- **No two entries share a key.** -/
lemma Slot.key_injective : Function.Injective Slot.key := by
  intro a b h
  have ht : a.tag = b.tag := by
    have := congrArg List.head? h
    rwa [a.head?_key, b.head?_key, Option.some.injEq] at this
  cases a with
  | claimed c | pending c | icaPending c =>
    cases b <;> first | exact absurd ht (of_decide_eq_false rfl) | simpa [Slot.key] using h
  | done => cases b <;> first | exact absurd ht (of_decide_eq_false rfl) | rfl
  | icaConnectionID | icaOwner | icaTimeoutSeconds | maxClaimsPerBlock =>
    cases b <;> first | exact absurd ht (of_decide_eq_false rfl) | rfl | exact absurd h (by decide)
  | packet ch n =>
    cases b <;> first | exact absurd ht (of_decide_eq_false rfl) | skip
    obtain ⟨rfl, rfl⟩ := icaPacketKey_inj h
    rfl
  | inflight c =>
    cases b <;> first
      | exact absurd ht (of_decide_eq_false rfl)
      | exact absurd h (inflight_ne_inflightAt _ _)
      | simpa [Slot.key] using h
  | inflightAt c =>
    cases b <;> first
      | exact absurd ht (of_decide_eq_false rfl)
      | exact absurd h.symm (inflight_ne_inflightAt _ _)
      | simpa [Slot.key] using h

@[simp] lemma Slot.key_inj {a b : Slot} : a.key = b.key ↔ a = b := Slot.key_injective.eq_iff

end MaanyDex.GenesisMint
