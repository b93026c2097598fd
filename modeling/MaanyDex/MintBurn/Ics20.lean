/-
A wrapped application and a denomination parser that satisfy the laws asked of
`ibc-go`.

`ics20` refunds, pays out of escrow and issues vouchers the way ICS-20 is
documented; `denomTrace` strips port/channel pairs off the front of a path.
-/
import MaanyDex.MintBurn.Transfer

namespace MaanyDex.MintBurn

/-! ### Denomination paths -/

/-- `channel-` followed by digits. -/
def isChannelID (s : Bytes) : Bool :=
  (ascii "channel-").isPrefixOf s && s.length > 8 && (s.drop 8).all fun b => 48 ≤ b && b ≤ 57

/-- Strip port/channel pairs off the front. -/
def stripHops : List Bytes → List Bytes × List Bytes
  | port :: channel :: rest =>
    if isChannelID channel then
      (port :: channel :: (stripHops rest).1, (stripHops rest).2)
    else ([], port :: channel :: rest)
  | items => ([], items)

variable (denom : Denom)

def denomTrace : DenomTrace :=
  if (denom.splitOn 47).length ≤ 2 then ⟨[], denom⟩
  else match stripHops (denom.splitOn 47) with
    | ([], _) => ⟨[], denom⟩
    | (path, base) => ⟨List.intercalate [47] path, List.intercalate [47] base⟩

lemma stripHops_path (items : List Bytes) :
    (stripHops items).1 = [] ∨ ∃ port channel rest, (stripHops items).1 = port :: channel :: rest := by
  unfold stripHops
  split
  · split
    · exact .inr ⟨_, _, _, rfl⟩
    · exact .inl rfl
  · exact .inl rfl

lemma denomTrace_base (h : (denomTrace denom).path = []) :
    (denomTrace denom).baseDenom = denom := by
  unfold denomTrace at h ⊢
  split
  · rfl
  · rename_i hlen
    rw [if_neg hlen] at h
    rcases e : stripHops (denom.splitOn 47) with ⟨path, base⟩
    rcases stripHops_path (denom.splitOn 47) with hnil | ⟨port, channel, rest, hcons⟩
    · rw [e] at hnil
      obtain rfl : path = [] := hnil
      rfl
    · -- a stripped hop leaves a slash in the path
      rw [e] at hcons
      obtain rfl : path = port :: channel :: rest := hcons
      rw [e] at h
      simp [List.intercalate] at h

lemma denomTrace_bare (h : 47 ∉ denom) : (denomTrace denom).path = [] := by
  rw [denomTrace, if_pos (by simp [List.splitOn_eq_singleton h])]

/-! ### The application -/

variable (ibc : Ibc) (b : Bank) (packet : Packet)

/-- Give back the escrowed coin, or issue the burned voucher again. -/
def refundPacketToken : Result Bank :=
  match ibc.unmarshalPacketData packet.data with
  | none => .error (.err "cannot unmarshal ICS-20 transfer packet data")
  | some data =>
    match ibc.newIntFromString data.amount with
    | none => .error (.err "unable to parse transfer amount")
    | some amt =>
      match ibc.accAddressFromBech32 data.sender with
      | none => .error (.err "invalid sender")
      | some sender =>
        if ibc.receiverChainIsSource packet.sourcePort packet.sourceChannel data.denom then do
          let b₁ ← b.mintCoins ibc.toSdk transferModule [⟨ibc.localDenom data.denom, amt⟩]
          b₁.sendCoinsFromModuleToAccount ibc.toSdk transferModule sender
            [⟨ibc.localDenom data.denom, amt⟩]
        else b.sendCoins ibc.toSdk (.escrow packet.sourcePort packet.sourceChannel) sender
          [⟨ibc.localDenom data.denom, amt⟩]

/-- The bank's part of a receive: pay out of escrow, or issue a voucher. -/
def receiveToken : Result Bank :=
  match ibc.unmarshalPacketData packet.data with
  | none => .error (.err "cannot unmarshal ICS-20 transfer packet data")
  | some data =>
    match ibc.newIntFromString data.amount with
    | none => .error (.err "unable to parse transfer amount")
    | some amt =>
      match ibc.accAddressFromBech32 data.receiver with
      | none => .error (.err "failed to decode receiver address")
      | some receiver =>
        if ibc.receiverChainIsSource packet.sourcePort packet.sourceChannel data.denom then
          b.sendCoins ibc.toSdk (.escrow packet.destinationPort packet.destinationChannel) receiver
            [⟨ibc.localDenom (data.denom.drop
              (packet.sourcePort.length + packet.sourceChannel.length + 2)), amt⟩]
        else do
          let b₁ ← b.mintCoins ibc.toSdk transferModule [⟨ibc.localDenom (packet.destinationPort
            ++ ascii "/" ++ packet.destinationChannel ++ ascii "/" ++ data.denom), amt⟩]
          b₁.sendCoinsFromModuleToAccount ibc.toSdk transferModule receiver
            [⟨ibc.localDenom (packet.destinationPort
              ++ ascii "/" ++ packet.destinationChannel ++ ascii "/" ++ data.denom), amt⟩]

/-- A receive answers with a result, or with an error that keeps nothing. -/
def onRecv : Result (Bank × Option Acknowledgement) :=
  match receiveToken ibc b packet with
  | .ok b' => .ok (b', some (.result [1]))
  | .error (.panic msg) => .error (.panic msg)
  | .error _ => .ok (b, some (.error "error handling packet"))

/-- Refund on an error, nothing otherwise. -/
def onAck (acknowledgement : Bytes) : Result Bank :=
  match ibc.unmarshalAck acknowledgement with
  | none => .error (.err "cannot unmarshal ICS-20 transfer packet acknowledgement")
  | some (.error _) => refundPacketToken ibc b packet
  | some _ => .ok b

variable {ibc} {b b' : Bank} {packet : Packet}

lemma mintAndSend_ok {dst : Address} {cs : Coins}
    (h : (do let b₁ ← b.mintCoins ibc.toSdk transferModule cs
             b₁.sendCoinsFromModuleToAccount ibc.toSdk transferModule dst cs) = .ok b') :
    Bank.Minted transferModule dst cs b b' := by
  rcases e : b.mintCoins ibc.toSdk transferModule cs with f | b₁
  · rw [e] at h
    cases h
  · rw [e] at h
    exact (Bank.mintCoins_ok e).sent (Bank.sendCoinsFromModuleToAccount_ok h).2

lemma refundPacketToken_ok (h : refundPacketToken ibc b packet = .ok b') :
    Refunded ibc packet b b' := by
  unfold refundPacketToken at h
  rcases e₁ : ibc.unmarshalPacketData packet.data with - | data
  · simp [e₁] at h
  rcases e₂ : ibc.newIntFromString data.amount with - | amt
  · simp [e₁, e₂] at h
  rcases e₃ : ibc.accAddressFromBech32 data.sender with - | sender
  · simp [e₁, e₂, e₃] at h
  simp only [e₁, e₂, e₃] at h
  refine ⟨data, amt, sender, e₁, e₂, ?_⟩
  split at h
  · rename_i hsrc
    rw [if_pos hsrc]
    exact mintAndSend_ok h
  · rename_i hsrc
    rw [if_neg hsrc]
    exact Bank.sendCoins_ok h

lemma receiveToken_ok (h : receiveToken ibc b packet = .ok b') : Received ibc packet b b' := by
  unfold receiveToken at h
  rcases e₁ : ibc.unmarshalPacketData packet.data with - | data
  · simp [e₁] at h
  rcases e₂ : ibc.newIntFromString data.amount with - | amt
  · simp [e₁, e₂] at h
  rcases e₃ : ibc.accAddressFromBech32 data.receiver with - | receiver
  · simp [e₁, e₂, e₃] at h
  simp only [e₁, e₂, e₃] at h
  refine ⟨data, amt, receiver, e₁, ?_⟩
  split at h
  · rename_i hsrc
    rw [if_pos hsrc]
    exact ⟨_, Bank.sendCoins_ok h⟩
  · rename_i hsrc
    rw [if_neg hsrc]
    exact mintAndSend_ok h

/-- What a receive issues, it issues in its own name. -/
lemma Received.minted (h : Received ibc packet b b') (d : Denom) :
    b'.minted moduleName d = b.minted moduleName d := by
  obtain ⟨data, amt, receiver, -, h⟩ := h
  split at h
  · obtain ⟨denom, hs⟩ := h
    exact hs.minted moduleName d
  · rw [Bank.Minted.minted h moduleName d, if_neg (by decide), Nat.add_zero]

lemma onRecv_ok {ack : Option Acknowledgement} (h : onRecv ibc b packet = .ok (b', ack)) :
    (b' = b ∧ ∃ msg, ack = some (.error msg)) ∨ Received ibc packet b b' := by
  unfold onRecv at h
  rcases e : receiveToken ibc b packet with (msg | ⟨fmt, arg⟩ | msg) | b₁
  · rw [e] at h
    cases h
    exact .inl ⟨rfl, _, rfl⟩
  · rw [e] at h
    cases h
    exact .inl ⟨rfl, _, rfl⟩
  · rw [e] at h
    cases h
  · rw [e] at h
    cases h
    exact .inr (receiveToken_ok e)

/-- **An ICS-20 application**, with the laws proved. -/
def ics20 (ibc : Ibc) : TransferApp ibc where
  onChanOpenAck _ _ := .ok ()
  onChanOpenConfirm _ _ := .ok ()
  onChanCloseInit _ _ := .error (.err "user cannot close channel")
  onChanCloseConfirm _ _ := .ok ()
  onRecvPacket := onRecv ibc
  onAcknowledgementPacket := onAck ibc
  onTimeoutPacket := refundPacketToken ibc
  recv_minted := by
    intro b b' packet ack h d
    rcases onRecv_ok h with ⟨rfl, -⟩ | hr
    · rfl
    · exact hr.minted d
  ack_ok := by
    intro b b' packet bz h
    unfold onAck at h
    rcases e : ibc.unmarshalAck bz with - | (r | msg | -)
    · rw [e] at h
      cases h
    · rw [e] at h
      cases h
      exact .inl ⟨rfl, by simp⟩
    · rw [e] at h
      exact .inr ⟨refundPacketToken_ok h, msg, rfl⟩
    · rw [e] at h
      cases h
      exact .inl ⟨rfl, by simp⟩
  timeout_ok := refundPacketToken_ok
  recv_ok := by
    intro b b' packet ack h hne
    rcases onRecv_ok h with ⟨rfl, msg, hm⟩ | hr
    · exact .inl rfl
    · exact .inr hr

/-! ### A chain for concrete runs -/

/-- The JSON success acknowledgement of ICS-20. -/
def successAck : Bytes := ascii "\x7b\"result\":\"AQ==\"\x7d"

def errorAck : Bytes := ascii "\x7b\"error\":\"ABCI code: 1\"\x7d"

/-- The SHA-256 digest of `transfer/channel-5/umaany`. -/
def voucherDigest : Bytes :=
  ascii "A7597AFFD5424BF03948329A176E64DD599813514EAC6CE362DB7162D8451356"

/-- The functions of `ibc-go` and the SDK on the strings of concrete runs.  The
packets that occur are given with what they decode to. -/
def chainIbc (packets : List (Bytes × FungibleTokenPacketData)) (params : List (Bytes × Params)) :
    Ibc where
  toSdk := chainSdk
  unmarshalParams bz := params.lookup bz
  unmarshalPacketData bz := packets.lookup bz
  unmarshalAck bz :=
    if bz = successAck then some (.result [1])
    else if bz = errorAck then some (.error "ABCI code: 1") else none
  receiverChainIsSource port channel denom :=
    (port ++ ascii "/" ++ channel ++ ascii "/").isPrefixOf denom
  receiverChainIsSource_iff _ _ _ := List.isPrefixOf_iff_prefix
  parseDenomTrace := denomTrace
  parseDenomTrace_bare := denomTrace_bare
  parseDenomTrace_base := denomTrace_base
  hash s := if s = ascii "transfer/channel-5/umaany" then voucherDigest else s

/-- A store that allow-lists `channel-0`. -/
def chainStore : KVStore := KVStore.set ∅ (keyAllowedChan ++ ascii "channel-0") [1]

/-- A state in which `channel-0` runs on the provider's client. -/
def chainState (store : KVStore) (bank : Bank) : State where
  store := store
  bank := bank
  channels port channel :=
    if port = transferPort ∧ channel = ascii "channel-0" then some ⟨[ascii "connection-0"]⟩
    else none
  connections id := if id = ascii "connection-0" then some ⟨ascii "07-tendermint-0"⟩ else none
  providerClientID := some (ascii "07-tendermint-0")

end MaanyDex.MintBurn
