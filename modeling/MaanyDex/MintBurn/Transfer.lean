/-
The system around the middleware: the ICS-20 application it wraps, and runs of
sends, receives, acknowledgements and timeouts.

ICS-20 is not code of the repository.  `TransferApp` is any wrapped application
with the documented behaviour: a refused or timed-out packet is refunded, which
gives back the escrowed coin or re-issues the burned voucher, a success
acknowledgement does nothing, and a receive pays out of escrow or issues a
voucher.

A `World` adds to the handlers' state the packets that were sent and not yet
resolved.  Each is resolved at most once, because resolving it removes it.
-/
import MaanyDex.Lib.Run
import MaanyDex.MintBurn.Outcomes

namespace MaanyDex.MintBurn

/-! ### Denominations and escrow -/

/-- The module account of the ICS-20 application. -/
def transferModule : Bytes := ascii "transfer"

/-- The name a denomination path has in the local bank (`IBCDenom` of its
trace). -/
def Ibc.localDenom (ibc : Ibc) (denom : Denom) : Denom :=
  if (ibc.parseDenomTrace denom).path = [] then (ibc.parseDenomTrace denom).baseDenom
  else ascii "ibc/" ++ ibc.hash ((ibc.parseDenomTrace denom).path ++ ascii "/"
    ++ (ibc.parseDenomTrace denom).baseDenom)

/-- The coin that sending the packet put in escrow: `none` when the packet
returned a voucher, which is burned instead. -/
def Ibc.escrowedCoin (ibc : Ibc) (packet : Packet) : Option Coin :=
  match ibc.unmarshalPacketData packet.data with
  | none => none
  | some data =>
    match ibc.newIntFromString data.amount with
    | none => none
    | some amt =>
      if ibc.receiverChainIsSource packet.sourcePort packet.sourceChannel data.denom then none
      else some ⟨ibc.localDenom data.denom, amt⟩

variable {ibc : Ibc}

lemma localDenom_eq_umaany {denom : Denom} (h : ibc.localDenom denom = umaany) :
    denom = umaany := by
  unfold Ibc.localDenom at h
  split at h
  · rename_i hpath
    rwa [ibc.parseDenomTrace_base denom hpath] at h
  · exact absurd h.symm (Split.ne_append_of_take_ne (by decide) _)

lemma localDenom_umaany : ibc.localDenom umaany = umaany := by
  have hpath := ibc.parseDenomTrace_bare umaany (by decide)
  rw [Ibc.localDenom, if_pos hpath, ibc.parseDenomTrace_base umaany hpath]

lemma receiverChainIsSource_umaany (ibc : Ibc) (channel : Bytes) :
    ibc.receiverChainIsSource transferPort channel umaany = false := by
  rw [Bool.eq_false_iff, Ne, ibc.receiverChainIsSource_iff]
  rintro ⟨t, ht⟩
  have e : umaany = transferPort ++ (ascii "/" ++ channel ++ ascii "/" ++ t) := by
    rw [← ht]
    simp
  exact Split.ne_append_of_take_ne (by decide) _ e

/-! ### The wrapped application -/

/-- A refund: the escrowed coin goes back to the sender, or the burned voucher
is issued again. -/
def Refunded (ibc : Ibc) (packet : Packet) (b b' : Bank) : Prop :=
  ∃ data amt sender, ibc.unmarshalPacketData packet.data = some data ∧
    ibc.newIntFromString data.amount = some amt ∧
    if ibc.receiverChainIsSource packet.sourcePort packet.sourceChannel data.denom then
      Bank.Minted transferModule sender [⟨ibc.localDenom data.denom, amt⟩] b b'
    else Bank.Sent (.escrow packet.sourcePort packet.sourceChannel) sender
      [⟨ibc.localDenom data.denom, amt⟩] b b'

/-- A receive: coins come back out of escrow, or a voucher is issued. -/
def Received (ibc : Ibc) (packet : Packet) (b b' : Bank) : Prop :=
  ∃ data amt receiver, ibc.unmarshalPacketData packet.data = some data ∧
    if ibc.receiverChainIsSource packet.sourcePort packet.sourceChannel data.denom then
      ∃ denom, Bank.Sent (.escrow packet.destinationPort packet.destinationChannel) receiver
        [⟨denom, amt⟩] b b'
    else Bank.Minted transferModule receiver [⟨ibc.localDenom (packet.destinationPort
      ++ ascii "/" ++ packet.destinationChannel ++ ascii "/" ++ data.denom), amt⟩] b b'

/-- The ICS-20 application, by what its documentation promises. -/
structure TransferApp (ibc : Ibc) extends IBCModule where
  ack_ok : ∀ {b b' packet bz}, onAcknowledgementPacket b packet bz = .ok b' →
    (b' = b ∧ ∀ msg, ibc.unmarshalAck bz ≠ some (.error msg)) ∨
    (Refunded ibc packet b b' ∧ ∃ msg, ibc.unmarshalAck bz = some (.error msg))
  timeout_ok : ∀ {b b' packet}, onTimeoutPacket b packet = .ok b' → Refunded ibc packet b b'
  recv_ok : ∀ {b b' packet ack}, onRecvPacket b packet = .ok (b', ack) →
    (∀ msg, ack ≠ some (.error msg)) → b' = b ∨ Received ibc packet b b'

/-- The middleware around an ICS-20 application. -/
def TransferApp.env (app : TransferApp ibc) : Env := ⟨ibc, app.toIBCModule⟩

/-! ### Runs -/

/-- The handlers' state and the sent, unresolved packets. -/
structure World where
  state : State
  nextSequence : Bytes → ℕ
  commitments : List Packet

inductive ChanCallback where
  | openAck
  | openConfirm
  | closeInit
  | closeConfirm

inductive Event where
  /-- A user sends coins over a transfer channel. -/
  | send (sender : Address) (channel destPort destChannel data : Bytes)
  /-- The acknowledgement of a sent packet is relayed. -/
  | ack (packet : Packet) (acknowledgement : Bytes)
  /-- The timeout of a sent packet is relayed. -/
  | timeout (packet : Packet)
  /-- A packet of the other chain is relayed. -/
  | recv (packet : Packet)
  /-- A user moves coins locally. -/
  | bankSend (sender dst : Address) (coin : Coin)
  /-- A step of a channel handshake. -/
  | chan (callback : ChanCallback) (portID channelID : Bytes)
  /-- IBC core or the consumer module changes what it answers. -/
  | core (channels : Bytes → Bytes → Option Channel)
      (connections : Bytes → Option ConnectionEnd) (providerClientID : Option Bytes)

/-- Sending over ICS-20: escrow the coin, or burn the voucher that returns. -/
def sendTransfer (ibc : Ibc) (b : Bank) (sender : Address) (packet : Packet) : Result Bank :=
  match ibc.unmarshalPacketData packet.data with
  | none => .error (.err "cannot unmarshal ICS-20 transfer packet data")
  | some data =>
    match ibc.newIntFromString data.amount with
    | none => .error (.err "unable to parse transfer amount")
    | some amt =>
      if ibc.accAddressFromBech32 data.sender ≠ some sender then .error (.err "invalid sender")
      else if ibc.receiverChainIsSource packet.sourcePort packet.sourceChannel data.denom then do
        let b₁ ← b.sendCoinsFromAccountToModule ibc.toSdk sender transferModule
          [⟨ibc.localDenom data.denom, amt⟩]
        b₁.burnCoins ibc.toSdk transferModule [⟨ibc.localDenom data.denom, amt⟩]
      else b.sendCoins ibc.toSdk sender (.escrow packet.sourcePort packet.sourceChannel)
        [⟨ibc.localDenom data.denom, amt⟩]

/-- The channel callback of a handshake step. -/
def onChan (env : Env) (s : State) (portID channelID : Bytes) :
    ChanCallback → Result State
  | .openAck => onChanOpenAck env s portID channelID
  | .openConfirm => onChanOpenConfirm env s portID channelID
  | .closeInit => onChanCloseInit env s portID channelID
  | .closeConfirm => onChanCloseConfirm env s portID channelID

/-- The packet a send creates. -/
def World.sentPacket (w : World) (channel destPort destChannel data : Bytes) : Packet :=
  ⟨w.nextSequence channel, transferPort, channel, destPort, destChannel, data⟩

variable (app : TransferApp ibc)

def step (w : World) : Event → Result World
  | .send sender channel destPort destChannel data =>
    let packet := w.sentPacket channel destPort destChannel data
    if sender.isUser = false then .error (.err "unauthorized")
    else do
      let b ← sendTransfer ibc w.state.bank sender packet
      return {
        state := { w.state with bank := b }
        nextSequence := Function.update w.nextSequence channel (w.nextSequence channel + 1)
        commitments := packet :: w.commitments }
  | .ack packet acknowledgement =>
    if packet ∈ w.commitments then do
      let s ← onAcknowledgementPacket app.env w.state packet acknowledgement
      return { w with state := s, commitments := w.commitments.erase packet }
    else .error (.err "packet commitment not found")
  | .timeout packet =>
    if packet ∈ w.commitments then do
      let s ← onTimeoutPacket app.env w.state packet
      return { w with state := s, commitments := w.commitments.erase packet }
    else .error (.err "packet commitment not found")
  | .recv packet => do
      let s ← recvPacket app.env w.state packet
      return { w with state := s }
  | .bankSend sender dst coin =>
    if sender.isUser = false then .error (.err "unauthorized")
    else do
      let b ← w.state.bank.sendCoins ibc.toSdk sender dst [coin]
      return { w with state := { w.state with bank := b } }
  | .chan callback portID channelID => do
      let s ← onChan app.env w.state portID channelID callback
      return { w with state := s }
  | .core channels connections providerClientID =>
    .ok { w with state := { w.state with channels := channels, connections := connections,
                                         providerClientID := providerClientID } }

/-! ### What the steps do to bank and store -/

variable {app} {b b' : Bank} {packet : Packet}

lemma step_ack_ok {w w' : World} {bz : Bytes} (h : step app w (.ack packet bz) = .ok w') :
    packet ∈ w.commitments ∧ ∃ s', onAcknowledgementPacket app.env w.state packet bz = .ok s'
      ∧ w' = { w with state := s', commitments := w.commitments.erase packet } := by
  rw [step] at h
  split at h
  · rename_i hmem
    obtain ⟨s', hs, hw⟩ := Run.bind_ok h
    cases hw
    exact ⟨hmem, s', hs, rfl⟩
  · cases h

lemma sendTransfer_ok {sender : Address} (h : sendTransfer ibc b sender packet = .ok b') :
    ∃ data amt, ibc.unmarshalPacketData packet.data = some data ∧
      ibc.newIntFromString data.amount = some amt ∧ 0 < amt ∧
      if ibc.receiverChainIsSource packet.sourcePort packet.sourceChannel data.denom then
        Bank.Burned transferModule sender [⟨ibc.localDenom data.denom, amt⟩] b b'
      else Bank.Sent sender (.escrow packet.sourcePort packet.sourceChannel)
        [⟨ibc.localDenom data.denom, amt⟩] b b' := by
  unfold sendTransfer at h
  rcases e₁ : ibc.unmarshalPacketData packet.data with - | data
  · simp [e₁] at h
  rcases e₂ : ibc.newIntFromString data.amount with - | amt
  · simp [e₁, e₂] at h
  simp only [e₁, e₂] at h
  split at h
  · cases h
  refine ⟨data, amt, rfl, e₂, ?_⟩
  split at h
  · rename_i hsrc
    rcases e₃ : b.sendCoinsFromAccountToModule ibc.toSdk sender transferModule
        [⟨ibc.localDenom data.denom, amt⟩] with f | b₁
    · rw [e₃] at h
      cases h
    · rw [e₃] at h
      refine ⟨pos_of_isValid (Bank.sendCoins_isValid e₃), ?_⟩
      rw [if_pos hsrc]
      exact (Bank.sendCoins_ok e₃).burned_after (Bank.burnCoins_ok h)
  · rename_i hsrc
    refine ⟨pos_of_isValid (Bank.sendCoins_isValid h), ?_⟩
    rw [if_neg hsrc]
    exact Bank.sendCoins_ok h

/-- The keys of the allow-list. -/
def IsAllowKey (k : Bytes) : Prop := ∃ channelID, k = keyAllowedChan ++ channelID

variable {s s' : State} {portID channelID : Bytes}

lemma handleChannelIdStorage_ok {isOpening : Bool}
    (h : handleChannelIdStorage s portID channelID isOpening = .ok s') :
    s'.bank = s.bank ∧ KVStore.SameOn (fun k => ¬ IsAllowKey k) s.store s'.store := by
  unfold handleChannelIdStorage at h
  have hrfl : s.bank = s.bank ∧ KVStore.SameOn (fun k => ¬ IsAllowKey k) s.store s.store :=
    ⟨rfl, KVStore.SameOn.rfl⟩
  split at h
  · cases h
    exact hrfl
  split at h
  · cases h
  split at h
  · cases h
  split at h
  · cases h
  split at h
  · cases h
    refine ⟨rfl, ?_⟩
    show KVStore.SameOn _ _ (if isOpening = true then _ else _)
    split
    · exact KVStore.sameOn_set (not_not.mpr ⟨channelID, rfl⟩)
    · exact KVStore.sameOn_delete (not_not.mpr ⟨channelID, rfl⟩)
  · cases h
    exact hrfl

lemma onChan_ok {env : Env} {cb : ChanCallback} (h : onChan env s portID channelID cb = .ok s') :
    s'.bank = s.bank ∧ KVStore.SameOn (fun k => ¬ IsAllowKey k) s.store s'.store := by
  have hpeel : ∀ {isOpening : Bool} {r : Result Unit},
      (do let s₁ ← handleChannelIdStorage s portID channelID isOpening
          r
          return s₁) = (.ok s' : Result State) →
      handleChannelIdStorage s portID channelID isOpening = .ok s' := by
    intro isOpening r hr
    rcases e : handleChannelIdStorage s portID channelID isOpening with f | s₁
    · rw [e] at hr
      cases hr
    · rw [e] at hr
      rcases r with f | u
      · cases hr
      · cases hr
        rfl
  cases cb with
  | openAck => exact handleChannelIdStorage_ok (hpeel h)
  | openConfirm => exact handleChannelIdStorage_ok (hpeel h)
  | closeInit => exact handleChannelIdStorage_ok (hpeel h)
  | closeConfirm => exact handleChannelIdStorage_ok (hpeel h)

end MaanyDex.MintBurn
