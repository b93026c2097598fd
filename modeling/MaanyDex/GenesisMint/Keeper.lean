/-
The keeper of `x/genesismint`: the claimed index, one genesis mint, the queue of
pending claims, the in-flight markers, the packet map, and the configuration.

Follows `keeper/keeper.go` up to the configuration getters.  Go code that is not
part of the repository (the IBC client keeper and the ICS-23 verifier) is given
by the fields of `Env`, and nothing is asked of it.
-/
import MaanyDex.GenesisMint.Types
import MaanyDex.Lib.Run

namespace MaanyDex.GenesisMint

def moduleName : Bytes := ascii "genesismint"

/-- A consensus state as the keeper sees it: whether it has a `GetRoot` method,
and what that returns. -/
inductive ConsensusState where
  | rootless
  | rooted (root : Option Bytes)

/-- The collaborators of `ProcessGenesisMint`. -/
structure Env extends Sdk where
  /-- `clientKeeper.GetClientConsensusState`, by client id and height. -/
  getClientConsensusState : Bytes → ℕ → ℕ → Option ConsensusState
  /-- `MerkleProof.VerifyMembership(specs, root, [storeName, key], value) == nil`. -/
  verifyMembership : (proof root storeName key value : Bytes) → Bool

structure MintedEvent where
  escrowId : Bytes
  recipient : Bytes
  amount : Coins
  proofHeight : ℕ

/-- What the module reads and writes. -/
structure State where
  store : KVStore
  bank : Bank
  events : List MintedEvent

variable (env : Env)

/-! ### Claimed index and pending queue -/

variable (store : KVStore) (providerChainID escrowID : Bytes)

def setClaimed : KVStore :=
  store.set (claimedKey providerChainID escrowID) [1]

def isClaimed : Bool :=
  store.has (claimedKey providerChainID escrowID)

def enqueuePendingClaim : KVStore :=
  store.set (pendingClaimKey providerChainID escrowID) [1]

def deletePendingClaim : KVStore :=
  store.delete (pendingClaimKey providerChainID escrowID)

/-- What the loop of `listPendingClaims` makes of one key. -/
def pendingPair (key : Bytes) : Option (Bytes × Bytes) :=
  let s := key.drop 1
  let head := ascii "pclaim|"
  if head.length < s.length ∧ s.take head.length = head then
    Split.splitFirst bar (s.drop head.length)
  else none

def listPendingClaims (limit : ℕ) : List (Bytes × Bytes) :=
  ((store.iterate [0x12]).filterMap fun e => pendingPair e.1).take limit

def hasAnyPendingClaims : Bool := !(store.iterate [0x12]).isEmpty

/-! ### Packet map -/

def mapPacketToEscrow (channelID : Bytes) (sequence : ℕ)
    (providerChainID escrowID : Bytes) : KVStore :=
  store.set (icaPacketKey channelID sequence) (claimID providerChainID escrowID)

/-- `consumePacketMapping`: the pair and the store without the entry, or `none`
for an unknown packet. -/
def consumePacketMapping (channelID : Bytes) (sequence : ℕ) : Option ((Bytes × Bytes) × KVStore) :=
  match store.get (icaPacketKey channelID sequence) with
  | none => none
  | some s =>
    some ((Split.splitFirst bar s).getD ([], s), store.delete (icaPacketKey channelID sequence))

/-! ### In-flight markers -/

/-- `setInflight`, at block time `now`. -/
def setInflight (now : ℤ) (store : KVStore) (providerChainID escrowID : Bytes) : KVStore :=
  (store.set (inflightKey providerChainID escrowID) [1]).set
    (inflightAtKey providerChainID escrowID) (Decimal.formatInt now)

def clearInflight : KVStore :=
  (store.delete (inflightKey providerChainID escrowID)).delete
    (inflightAtKey providerChainID escrowID)

def isInflight : Bool :=
  store.has (inflightKey providerChainID escrowID)

/-- The value of an integer as an `int64`. -/
def int64 (i : ℤ) : ℤ := i.bmod (2 ^ 64)

/-- `inflightExpired`, at block time `now`. -/
def inflightExpired (now : ℤ) (store : KVStore) (providerChainID escrowID : Bytes)
    (limitSeconds : ℕ) : Bool :=
  match store.get (inflightAtKey providerChainID escrowID) with
  | none | some [] => false
  | some bz =>
    match Decimal.parseInt 64 bz with
    | none => false
    | some started => int64 (now - started) ≥ int64 limitSeconds

def hasAnyInflight : Bool := !(store.iterate [0x17]).isEmpty

/-! ### Done flag -/

def setDone : KVStore := store.set doneKey [1]

def isDone : Bool := store.has doneKey

/-! ### Configuration -/

/-- A configuration string, with its default for an absent or empty entry. -/
def getConfigString (key : Bytes) (dflt : Bytes) : Bytes :=
  match store.get key with
  | none | some [] => dflt
  | some bz => bz

/-- A configuration number of the given width, with its default for an absent,
empty or unreadable entry. -/
def getConfigUint (key : Bytes) (bits : ℕ) (dflt : ℕ) : ℕ :=
  match store.get key with
  | none | some [] => dflt
  | some bz => (Decimal.parseUint bits bz).getD dflt

def getICAConnectionID : Bytes :=
  getConfigString store configICAConnectionIDKey (ascii "connection-0")

def getICAOwner : Bytes :=
  getConfigString store configICAOwnerKey (ascii "mintburn-claims")

def getICATimeoutSeconds : ℕ :=
  getConfigUint store configICATimeoutSecondsKey 64 300

def getMaxClaimsPerBlock : ℕ :=
  getConfigUint store configMaxClaimsPerBlockKey 32 10

def setICAConnectionID (v : Bytes) : KVStore :=
  store.set configICAConnectionIDKey v

def setICAOwner (v : Bytes) : KVStore := store.set configICAOwnerKey v

def setICATimeoutSeconds (v : UInt64) : KVStore :=
  store.set configICATimeoutSecondsKey (Decimal.formatUint v.toNat)

/-- `setMaxClaimsPerBlock`; the `int` is converted to `uint64`. -/
def setMaxClaimsPerBlock (v : Int64) : KVStore :=
  store.set configMaxClaimsPerBlockKey (Decimal.formatUint v.toUInt64.toNat)

/-! ### One genesis mint -/

/-- The decoded entry of an intent: store name, key bytes and value bytes. -/
structure Entry where
  storeName : Bytes
  key : Bytes
  value : Bytes

variable (params : Params) (intent : MintIntent)

/-- The checks of `ProcessGenesisMint` before the proof. -/
def checkIntent : Result Entry := do
  params.validateBasic.mapError (.wrap "params invalid: ")
  if intent.providerChainId ≠ params.providerChainId then
    .error (.errf "provider_chain_id mismatch: %s"
      (intent.providerChainId ++ ascii " != " ++ params.providerChainId))
  else if intent.amountDenom ≠ params.allowedProviderDenom then
    .error (.errf "amount_denom not allowed: %s" intent.amountDenom)
  else match intent.keyPath with
    | [storeName, hexKey] =>
      match Encoding.hexDecode hexKey with
      | none => .error (.err "bad hex key: %w")
      | some key =>
        match Encoding.base64Decode intent.value with
        | none => .error (.err "bad base64 value: %w")
        | some value => .ok ⟨storeName, key, value⟩
    | _ => .error (.err "key_path must be [storeName, hexKey], got %v")

/-- The root a strict proof is checked against: that of the client's consensus
state, or the trusted root of the parameters. -/
def proofRoot : Result Bytes :=
  let number := intent.proofHeightRevisionNumber
  let height := intent.proofHeightRevisionHeight
  match env.getClientConsensusState params.providerClientId number height with
  | some .rootless => .error (.err "expected tendermint consensus state, got %T")
  | some (.rooted none) => .error (.err "nil commitment root at %s")
  | some (.rooted (some root)) => .ok root
  | none =>
    match params.genesisTrustedRoot with
    | some root =>
      if params.useGenesisTrustedRoot ∧ root.revisionNumber = number
          ∧ root.revisionHeight = height ∧ root.hash ≠ [] then .ok root.hash
      else .error (.errf "no consensus state for client %s and no usable genesis_trusted_root"
        params.providerClientId)
    | none => .error (.errf "no consensus state for client %s and no usable genesis_trusted_root"
        params.providerClientId)

/-- The strict proof check.  `VerifyMembership` has a value receiver, so a nil
proof panics. -/
def verifyProof (entry : Entry) : Result Unit := do
  let root ← proofRoot env params intent
  match intent.merkleProof with
  | none => .error (.panic "nil pointer dereference")
  | some proof =>
    if env.verifyMembership proof root entry.storeName entry.key entry.value then .ok ()
    else .error (.err "ics23 verify membership failed: %w")

/-- The proof is only checked when `strictProof` is set. -/
def checkProof (strictProof : Bool) (params : Params) (intent : MintIntent) (entry : Entry) :
    Result Unit :=
  if strictProof then verifyProof env params intent entry else .ok ()

/-- Mint the amount of the intent and send it to the recipient. -/
def mintAndSend (bank : Bank) (params : Params) (intent : MintIntent) : Result (Bank × Coins) :=
  match env.newIntFromString intent.amountValue with
  | none => .error (.errf "bad amount_value: %s" intent.amountValue)
  | some amt => do
    let coin ← newCoin env.toSdk params.mintDenom amt
    let coins ← newCoins env.toSdk [coin]
    let bank₁ ← (bank.mintCoins env.toSdk moduleName coins).mapError (.wrap "mint coins: ")
    match env.accAddressFromBech32 intent.recipient with
    | none => .error (.err "recipient bech32: %w")
    | some rcpt =>
      let bank₂ ← (bank₁.sendCoinsFromModuleToAccount env.toSdk moduleName rcpt coins).mapError
        (.wrap "send to recipient: ")
      .ok (bank₂, coins)

/-- `ProcessGenesisMint`.  The claimed index is consulted before anything else,
also before the nil checks. -/
def processGenesisMint (params : Option Params) (intent : Option MintIntent) (strictProof : Bool)
    (s : State) : Result State :=
  match intent with
  | none => .error (.panic "nil pointer dereference")
  | some intent =>
    if isClaimed s.store intent.providerChainId intent.escrowId then .ok s
    else match params with
      | none => .error (.err "params missing")
      | some params => do
        let entry ← checkIntent params intent
        checkProof env strictProof params intent entry
        let (bank, coins) ← mintAndSend env s.bank params intent
        .ok {
          store := enqueuePendingClaim
            (setClaimed s.store intent.providerChainId intent.escrowId)
            intent.providerChainId intent.escrowId
          bank := bank
          events := s.events ++ [⟨intent.escrowId, intent.recipient, coins,
            intent.proofHeightRevisionHeight⟩] }

/-! ### What a successful call did -/

variable (m : MintIntent)

/-- The claim an intent is about. -/
def MintIntent.claim : Bytes := claimID m.providerChainId m.escrowId

/-- The amount of an intent, zero where it cannot be read. -/
def amountOf : ℕ := ((env.newIntFromString m.amountValue).getD 0).toNat

/-- The account an intent pays, if the address can be read. -/
def recipientOf : Option Address := env.accAddressFromBech32 m.recipient

/-- The entry an intent names, if it can be decoded. -/
def entryOf : Option Entry :=
  match m.keyPath with
  | [storeName, hexKey] => do
    let key ← Encoding.hexDecode hexKey
    let value ← Encoding.base64Decode m.value
    pure ⟨storeName, key, value⟩
  | _ => none

/-- `s'` is `s` after the intent `m` was minted. -/
structure Mints (params : Params) (m : MintIntent) (strict : Bool) (s s' : State) : Prop where
  provider : m.providerChainId = params.providerChainId
  unclaimed : s.store.get (Slot.claimed m.claim).key = none
  proven : ∃ entry, entryOf m = some entry ∧ checkProof env strict params m entry = .ok ()
  paid : ∃ rcpt coins, recipientOf env m = some rcpt
    ∧ (∀ d, total coins d = if params.mintDenom = d then amountOf env m else 0)
    ∧ Bank.Minted moduleName rcpt coins s.bank s'.bank
    ∧ s'.events = s.events ++ [⟨m.escrowId, m.recipient, coins, m.proofHeightRevisionHeight⟩]
  store : s'.store = (s.store.set (Slot.claimed m.claim).key [1]).set (Slot.pending m.claim).key [1]

variable {env} {params : Params} {m : MintIntent} {entry : Entry} {bank bank' : Bank}
  {coins : Coins} {s s' : State}

lemma checkIntent_ok (h : checkIntent params m = .ok entry) :
    m.providerChainId = params.providerChainId ∧ entryOf m = some entry := by
  obtain ⟨-, -, h⟩ := Run.bind_ok h
  split at h
  · cases h
  · rename_i hp
    split at h
    · cases h
    · split at h
      · rename_i storeName hexKey hk
        refine ⟨not_not.mp hp, ?_⟩
        rcases e₁ : Encoding.hexDecode hexKey with - | key
        · simp [e₁] at h
        · rcases e₂ : Encoding.base64Decode m.value with - | value
          · simp [e₁, e₂] at h
          · simp only [e₁, e₂, Except.ok.injEq] at h
            simp [entryOf, hk, e₁, e₂, h]
      · cases h

lemma mintAndSend_ok (h : mintAndSend env bank params m = .ok (bank', coins)) :
    ∃ rcpt, recipientOf env m = some rcpt
      ∧ (∀ d, total coins d = if params.mintDenom = d then amountOf env m else 0)
      ∧ Bank.Minted moduleName rcpt coins bank bank' := by
  unfold mintAndSend at h
  rcases ea : env.newIntFromString m.amountValue with - | amt
  · simp [ea] at h
  · simp only [ea] at h
    obtain ⟨coin, cs, bank₁, hcoin, hcs, hmint, h⟩ := Run.bind3_ok h
    rcases er : env.accAddressFromBech32 m.recipient with - | rcpt
    · simp [er] at h
    · simp only [er] at h
      obtain ⟨bank₂, hsend, h⟩ := Run.bind_ok h
      cases h
      obtain ⟨rfl, -, -⟩ := newCoin_ok hcoin
      refine ⟨rcpt, er, ?_, ?_⟩
      · intro d
        rw [total_newCoins hcs]
        simp [amountOf, ea]
      · have hm := Bank.mintCoins_ok (Run.mapError_ok hmint)
        exact hm.sent (Bank.sendCoinsFromModuleToAccount_ok (Run.mapError_ok hsend)).2

/-- **One genesis mint**: a successful call either finds the claim recorded and
changes nothing, or mints. -/
lemma processGenesisMint_ok {params : Option Params} {intent : Option MintIntent} {strict : Bool}
    (h : processGenesisMint env params intent strict s = .ok s') :
    ∃ m, intent = some m ∧
      ((s.store.get (Slot.claimed m.claim).key ≠ none ∧ s' = s) ∨
        ∃ p, params = some p ∧ Mints env p m strict s s') := by
  unfold processGenesisMint at h
  rcases intent with - | m
  · cases h
  · refine ⟨m, rfl, ?_⟩
    simp only at h
    split at h
    · rename_i hc
      left
      obtain ⟨v, hv⟩ := KVStore.has_eq_true.mp hc
      refine ⟨?_, (Except.ok.inj h).symm⟩
      intro hn
      exact absurd (hv.symm.trans hn) (by simp)
    · rename_i hc
      right
      rcases params with - | p
      · cases h
      · refine ⟨p, rfl, ?_⟩
        simp only at h
        obtain ⟨entry, _, ⟨bank, coins⟩, hentry, hproof, hbank, h⟩ := Run.bind3_ok h
        cases h
        obtain ⟨hp, he⟩ := checkIntent_ok hentry
        obtain ⟨rcpt, hr, ht, hb⟩ := mintAndSend_ok hbank
        exact {
          provider := hp
          unclaimed := KVStore.has_eq_false.mp (Bool.eq_false_iff.mpr hc)
          proven := ⟨entry, he, hproof⟩
          paid := ⟨rcpt, coins, hr, ht, hb, rfl⟩
          store := rfl }

end MaanyDex.GenesisMint
