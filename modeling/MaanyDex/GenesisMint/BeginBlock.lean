/-
Reporting claims to the provider: `BeginBlocker`, the registration of the
interchain account, the message to the provider, and the handlers that the ICA
middleware calls on acknowledgements and timeouts.

Follows the second half of `keeper/keeper.go` and `module/ica_middleware.go`.
What `ibc-go` answers during a block is the value of `IcaKeeper` and `sendTx`.
-/
import MaanyDex.GenesisMint.Keeper

namespace MaanyDex.GenesisMint

/-! ### The message to the provider -/

/-- `codectypes.Any`. -/
structure AnyMsg where
  typeUrl : Bytes
  value : Bytes

/-- The loop of `appendVarint`; a `uint64` has at most ten groups of seven bits. -/
def appendVarintLoop : ℕ → Bytes → ℕ → Bytes
  | 0, dst, x => dst ++ [UInt8.ofNat x]
  | n + 1, dst, x =>
    if 0x80 ≤ x then appendVarintLoop n (dst ++ [UInt8.ofNat x ||| 0x80]) (x >>> 7)
    else dst ++ [UInt8.ofNat x]

def appendVarint (dst : Bytes) (x : ℕ) : Bytes := appendVarintLoop 9 dst x

/-- `encField`: key, length and bytes of a string field. -/
def encField (fieldNum : ℕ) (s : Bytes) (dst : Bytes) : Bytes :=
  appendVarint (appendVarint dst ((fieldNum <<< 3) ||| 2)) s.length ++ s

def buildProviderMarkClaimAny (sender escrowID consumerChainID : Bytes) : AnyMsg where
  typeUrl := ascii "/maany.mintburn.v1.MsgMarkEscrowClaimed"
  value := encField 3 consumerChainID (encField 2 escrowID (encField 1 sender []))

example : (buildProviderMarkClaimAny (ascii "ica") (ascii "7") (ascii "dex")).value
    = [10, 3, 105, 99, 97, 18, 1, 55, 26, 3, 100, 101, 120] := by decide

/-! ### Collaborators -/

/-- Functions of `ibc-go` that do not depend on the state of the chain, and the
chain id. -/
structure IcaEnv where
  /-- `icatypes.NewControllerPortID`. -/
  newControllerPortID : Bytes → Option Bytes
  /-- `MustMarshalJSON` of the ICA metadata for a controller and a host connection. -/
  metadataJSON : (controllerConnectionID hostConnectionID : Bytes) → Bytes
  /-- `cdc.Marshal` of a `CosmosTx`. -/
  marshalCosmosTx : List AnyMsg → Option Bytes
  /-- `ctx.ChainID()`. -/
  chainID : Bytes

/-- What the keepers of `ibc-go` answer during one block. -/
structure IcaKeeper where
  /-- `GetActiveChannelID`, by connection and port. -/
  getActiveChannelID : Bytes → Bytes → Option Bytes
  /-- `GetInterchainAccountAddress`, by connection and port. -/
  getInterchainAccountAddress : Bytes → Bytes → Option Bytes
  /-- The counterparty connection id of `GetConnection`. -/
  getConnection : Bytes → Option Bytes
  /-- `RegisterInterchainAccount(owner, connection, version)` returned no error. -/
  registerInterchainAccount : Bytes → Bytes → Bytes → Bool

structure MsgSendTx where
  owner : Bytes
  connectionID : Bytes
  data : Bytes
  relativeTimeout : ℕ

/-- What `SendTx` returned: an error, or a response that may be nil. -/
inductive SendTxResult where
  | failed
  | accepted (sequence : Option ℕ)

/-- A claim that was sent, and the packet that carries it. -/
structure SentClaim where
  providerChainID : Bytes
  escrowID : Bytes
  channelID : Bytes
  sequence : ℕ
  msg : AnyMsg

/-- A block: its time in Unix seconds, the answers of the keepers, and those of
`SendTx` after the claims sent so far. -/
structure Block where
  now : ℤ
  ica : IcaKeeper
  sendTx : List SentClaim → Bytes × Bytes → MsgSendTx → SendTxResult

variable (env : IcaEnv)

/-! ### Registration -/

/-- The version that `ensureICARegistered` asks for: metadata with both connection
ids, or nothing when the connection is unknown. -/
def icaVersion (ica : IcaKeeper) (connectionID : Bytes) : Bytes :=
  match ica.getConnection connectionID with
  | some [] => env.metadataJSON connectionID connectionID
  | some hostConnID => env.metadataJSON connectionID hostConnID
  | none => []

def ensureICARegistered (ica : IcaKeeper) (store : KVStore) (connectionID owner : Bytes) : KVStore :=
  match env.newControllerPortID owner with
  | none => store
  | some portID =>
    match ica.getActiveChannelID connectionID portID with
    | some _ =>
      if store.has (icaPendingKey connectionID owner) then
        store.delete (icaPendingKey connectionID owner)
      else store
    | none =>
      if store.has (icaPendingKey connectionID owner) then store
      else if ica.registerInterchainAccount owner connectionID
          (icaVersion env ica connectionID) then
        store.set (icaPendingKey connectionID owner) [1]
      else store

/-! ### Flushing the queue -/

/-- What stays the same while a block flushes its claims. -/
structure Flush where
  block : Block
  owner : Bytes
  connectionID : Bytes
  channelID : Bytes
  icaAddr : Bytes

variable (flush : Flush) (pair : Bytes × Bytes)

/-- Send one claim; its packet is mapped back to it and the claim is marked. -/
def sendClaim (store : KVStore) (sent : List SentClaim) : KVStore × List SentClaim :=
  let msg := buildProviderMarkClaimAny flush.icaAddr pair.2 env.chainID
  match env.marshalCosmosTx [msg] with
  | none => (store, sent)
  | some data =>
    match flush.block.sendTx sent pair {
      owner := flush.owner
      connectionID := flush.connectionID
      data := data
      -- uint64(time.Duration(seconds) * time.Second)
      relativeTimeout := getICATimeoutSeconds store * 10 ^ 9 % 2 ^ 64 } with
    | .failed => (store, sent)
    | .accepted none => (store, sent)
    | .accepted (some seq) =>
      (setInflight flush.block.now (mapPacketToEscrow store flush.channelID seq pair.1 pair.2)
          pair.1 pair.2,
        sent ++ [⟨pair.1, pair.2, flush.channelID, seq, msg⟩])

variable (acc : KVStore × List SentClaim)

/-- The body of the loop over the pending claims. -/
def flushClaim (pair : Bytes × Bytes) : KVStore × List SentClaim :=
  if isInflight acc.1 pair.1 pair.2 then
    if inflightExpired flush.block.now acc.1 pair.1 pair.2 (getICATimeoutSeconds acc.1) then
      sendClaim env flush pair (clearInflight acc.1 pair.1 pair.2) acc.2
    else acc
  else sendClaim env flush pair acc.1 acc.2

variable (store : KVStore)

/-- The part of `BeginBlocker` after the checks on channel and account. -/
def flushPending : KVStore × List SentClaim :=
  match listPendingClaims store (getMaxClaimsPerBlock store) with
  | [] => (if hasAnyInflight store then store else setDone store, [])
  | pending => pending.foldl (flushClaim env flush) (store, [])

/-- `BeginBlocker`: the new store, and the claims it sent. -/
def beginBlocker (block : Block) (store : KVStore) : KVStore × List SentClaim :=
  if isDone store then (store, [])
  else
    let owner := getICAOwner store
    let conn := getICAConnectionID store
    let store := ensureICARegistered env block.ica store conn owner
    match env.newControllerPortID owner with
    | none => (store, [])
    | some portID =>
      match block.ica.getActiveChannelID conn portID with
      | none => (store, [])
      | some channelID =>
        match block.ica.getInterchainAccountAddress conn portID with
        | none | some [] => (store, [])
        | some icaAddr => flushPending env ⟨block, owner, conn, channelID, icaAddr⟩ store

/-! ### Acknowledgements and timeouts -/

variable (channelID : Bytes) (sequence : ℕ)

def handleICAAckSuccess : KVStore :=
  match consumePacketMapping store channelID sequence with
  | none => store
  | some (pair, store) =>
    let store := deletePendingClaim (clearInflight store pair.1 pair.2) pair.1 pair.2
    if hasAnyPendingClaims store || hasAnyInflight store then store else setDone store

/-- `HandleICAAckError` and `HandleICATimeout`, which differ in their log lines
only. -/
def retryClaim : KVStore :=
  match consumePacketMapping store channelID sequence with
  | none => store
  | some (pair, store) => clearInflight store pair.1 pair.2

def handleICAAckError : KVStore :=
  retryClaim store channelID sequence

def handleICATimeout : KVStore :=
  retryClaim store channelID sequence

/-- The response of a decoded acknowledgement. -/
inductive AckResponse where
  | result
  | error
  | other

/-- `ICAMiddleware.OnAcknowledgementPacket`: `ack` is `none` when the bytes cannot
be decoded, and `app` is the error of the wrapped application, if any. -/
def onAcknowledgementPacket (ack : Option AckResponse) (app : Option Fault) : Result KVStore :=
  let store := match ack with
    | none => store
    | some .result => handleICAAckSuccess store channelID sequence
    | some .error => handleICAAckError store channelID sequence
    | some .other => store
  match app with
  | none => .ok store
  | some e => .error e

def onTimeoutPacket (app : Option Fault) : Result KVStore :=
  match app with
  | none => .ok (handleICATimeout store channelID sequence)
  | some e => .error e

/-! ### What a block can do -/

/-- The claim that is recorded when `SendTx` assigns a sequence. -/
def sentClaim (seq : ℕ) : SentClaim :=
  ⟨pair.1, pair.2, flush.channelID, seq, buildProviderMarkClaimAny flush.icaAddr pair.2 env.chainID⟩

/-- The store after a claim was sent. -/
def markSent (seq : ℕ) (store : KVStore) : KVStore :=
  setInflight flush.block.now (mapPacketToEscrow store flush.channelID seq pair.1 pair.2)
    pair.1 pair.2

variable (store : KVStore)

/-- The message that is handed to `SendTx` for a claim, if the transaction can be
encoded. -/
def askedTx : Option MsgSendTx :=
  (env.marshalCosmosTx [buildProviderMarkClaimAny flush.icaAddr pair.2 env.chainID]).map fun data =>
    ⟨flush.owner, flush.connectionID, data, getICATimeoutSeconds store * 10 ^ 9 % 2 ^ 64⟩

lemma sendClaim_eq
    (sent : List SentClaim) :
    sendClaim env flush pair store sent
      = match askedTx env flush pair store with
        | none => (store, sent)
        | some msg =>
          match flush.block.sendTx sent pair msg with
          | .accepted (some seq) =>
            (markSent flush pair seq store, sent ++ [sentClaim env flush pair seq])
          | _ => (store, sent) := by
  unfold sendClaim askedTx
  rcases hdata : env.marshalCosmosTx
    [buildProviderMarkClaimAny flush.icaAddr pair.2 env.chainID] with - | data
  · simp only [hdata, Option.map_none]
  · simp only [hdata, Option.map_some]
    split <;> simp_all [markSent, sentClaim]

/-- Sending does nothing, or maps the packet and marks the claim. -/
lemma sendClaim_cases
    (sent : List SentClaim) :
    sendClaim env flush pair store sent = (store, sent) ∨
      ∃ seq msg, msg.owner = flush.owner ∧ msg.connectionID = flush.connectionID ∧
        flush.block.sendTx sent pair msg = .accepted (some seq) ∧
        sendClaim env flush pair store sent
          = (markSent flush pair seq store, sent ++ [sentClaim env flush pair seq]) := by
  rw [sendClaim_eq]
  rcases hasked : askedTx env flush pair store with - | msg
  · exact .inl rfl
  · obtain ⟨data, -, rfl⟩ := Option.map_eq_some_iff.mp hasked
    simp only
    split
    · rename_i seq hseq
      exact .inr ⟨seq, _, rfl, rfl, hseq, rfl⟩
    · exact .inl rfl

/-- One turn of the loop: skip a claim in flight, or send, after clearing a marker
that has expired. -/
lemma flushClaim_cases (pair : Bytes × Bytes) :
    flushClaim env flush acc pair = acc ∨
      (isInflight acc.1 pair.1 pair.2 = false ∧
        flushClaim env flush acc pair = sendClaim env flush pair acc.1 acc.2) ∨
      (inflightExpired flush.block.now acc.1 pair.1 pair.2 (getICATimeoutSeconds acc.1) = true ∧
        flushClaim env flush acc pair
          = sendClaim env flush pair (clearInflight acc.1 pair.1 pair.2) acc.2) := by
  unfold flushClaim
  split
  · split
    · rename_i hexp
      exact .inr (.inr ⟨hexp, rfl⟩)
    · exact .inl rfl
  · rename_i hin
    exact .inr (.inl ⟨by simpa using hin, rfl⟩)

/-- Flushing runs the loop over the pending claims, or finds none and may set the done
flag. -/
lemma flushPending_cases :
    (listPendingClaims store (getMaxClaimsPerBlock store) = [] ∧
      flushPending env flush store = (if hasAnyInflight store then store else setDone store, [])) ∨
      flushPending env flush store
        = (listPendingClaims store (getMaxClaimsPerBlock store)).foldl (flushClaim env flush)
            (store, []) := by
  unfold flushPending
  split
  · rename_i hl
    exact .inl ⟨hl, rfl⟩
  · exact .inr rfl

/-- A block does nothing, registers the account, or flushes the queue after that. -/
lemma beginBlocker_cases (block : Block) (store : KVStore) :
    beginBlocker env block store = (store, []) ∨
      (isDone store = false ∧ ∃ store₁, store₁ = ensureICARegistered env block.ica store
          (getICAConnectionID store) (getICAOwner store) ∧
        (beginBlocker env block store = (store₁, []) ∨
          ∃ flush : Flush, flush.block = block ∧
            (env.newControllerPortID flush.owner).bind
              (block.ica.getActiveChannelID flush.connectionID) = some flush.channelID ∧
            beginBlocker env block store = flushPending env flush store₁)) := by
  unfold beginBlocker
  split
  · exact .inl rfl
  · rename_i hdone
    right
    refine ⟨by simpa using hdone, _, rfl, ?_⟩
    simp only
    split
    · exact .inl rfl
    · rename_i portID hport
      split
      · exact .inl rfl
      · rename_i channelID hchannel
        split
        · exact .inl rfl
        · exact .inl rfl
        · exact .inr ⟨⟨block, _, _, channelID, _⟩, rfl, by simp [hport, hchannel], rfl⟩

variable {env} {store : KVStore}

lemma ensureICARegistered_get {ica : IcaKeeper} {conn owner k : Bytes} (hk : ¬ [0x13] <+: k) :
    (ensureICARegistered env ica store conn owner).get k = store.get k := by
  have hne : icaPendingKey conn owner ≠ k := by
    rintro rfl
    exact hk (Slot.tag_prefix_key (a := .icaPending (claimID conn owner)) |>.mpr rfl)
  unfold ensureICARegistered
  split
  · rfl
  · split
    · split
      · exact KVStore.get_delete_of_ne hne
      · rfl
    · split
      · rfl
      · split
        · exact KVStore.get_set_of_ne hne
        · rfl

variable {flush : Flush} {acc : KVStore × List SentClaim} {c : SentClaim}

lemma mem_flushClaim {pair : Bytes × Bytes} (h : c ∈ (flushClaim env flush acc pair).2) :
    c ∈ acc.2 ∨ ∃ seq, c = sentClaim env flush pair seq := by
  have hsend : ∀ store, c ∈ (sendClaim env flush pair store acc.2).2 →
      c ∈ acc.2 ∨ ∃ seq, c = sentClaim env flush pair seq := by
    intro store hc
    rcases sendClaim_cases env flush pair store acc.2 with e | ⟨seq, -, -, -, -, e⟩
    · rw [e] at hc
      exact .inl hc
    · rw [e] at hc
      rcases List.mem_append.mp hc with hc | hc
      · exact .inl hc
      · exact .inr ⟨seq, List.mem_singleton.mp hc⟩
  rcases flushClaim_cases env flush acc pair with e | ⟨-, e⟩ | ⟨-, e⟩
  · rw [e] at h
    exact .inl h
  · rw [e] at h
    exact hsend _ h
  · rw [e] at h
    exact hsend _ h

/-- Every claim that the loop sends is one of its pairs, and the message carries
the escrow id of that pair. -/
lemma mem_foldl_flushClaim {pairs : List (Bytes × Bytes)}
    (h : c ∈ (pairs.foldl (flushClaim env flush) acc).2) :
    c ∈ acc.2 ∨ ∃ pair ∈ pairs, ∃ seq, c = sentClaim env flush pair seq := by
  induction pairs generalizing acc with
  | nil => exact .inl h
  | cons pair pairs ih =>
    rw [List.foldl_cons] at h
    rcases ih h with hc | ⟨pair', hp, seq, rfl⟩
    · rcases mem_flushClaim hc with hc | ⟨seq, rfl⟩
      · exact .inl hc
      · exact .inr ⟨pair, List.mem_cons_self, seq, rfl⟩
    · exact .inr ⟨pair', List.mem_cons_of_mem _ hp, seq, rfl⟩

lemma mem_flushPending (h : c ∈ (flushPending env flush store).2) :
    ∃ pair ∈ listPendingClaims store (getMaxClaimsPerBlock store), ∃ seq,
      c = sentClaim env flush pair seq := by
  rcases flushPending_cases env flush store with ⟨-, e⟩ | e
  · rw [e] at h
    cases h
  · rw [e] at h
    rcases mem_foldl_flushClaim h with hc | hc
    · cases hc
    · exact hc

end MaanyDex.GenesisMint
