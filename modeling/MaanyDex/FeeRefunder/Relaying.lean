/-
Who locks fees and who distributes them: `Transfer` of `x/transfer`, `SubmitTx` of
`x/interchaintxs`, and the acknowledgement and timeout handlers of both.

The senders ask IBC core for the next sequence of the channel and lock the fees for the
packet that they expect to get it; the handlers look the record up by the packet itself.
IBC core is modelled by what it does to packets: it numbers them per channel from one, keeps
them until they are resolved, and resolves none of them twice.  ICS-20 and ICS-27 are
parameters (`Chain`); all that is asked of ICS-20 is that it leaves the account of
`x/feerefunder` alone.

The sudo call at the end of both handlers is more events of the run.
-/
import MaanyDex.FeeRefunder.Keeper

namespace MaanyDex.FeeRefunder

/-! ### Messages and packets -/

/-- `MsgTransfer` of `x/transfer`. -/
structure MsgTransfer where
  sourcePort : Bytes
  sourceChannel : Bytes
  token : Coin
  sender : Bytes
  receiver : Bytes
  timeoutTimestamp : ℕ
  memo : Bytes
  fee : Fee

/-- `MsgSubmitTx`; the messages to execute are encoded. -/
structure MsgSubmitTx where
  fromAddress : Bytes
  interchainAccountId : Bytes
  connectionId : Bytes
  msgs : List Bytes
  memo : Bytes
  timeout : ℕ
  fee : Fee

/-- `FungibleTokenPacketData` and `InterchainAccountPacketData`. -/
inductive PacketData where
  | fungibleToken (token : Coin) (sender receiver memo : Bytes)
  | interchainAccount (msgs : List Bytes) (memo : Bytes)
  deriving DecidableEq

/-- A packet, as its source chain knows it. -/
structure Packet where
  sourcePort : Bytes
  sourceChannel : Bytes
  sequence : ℕ
  data : PacketData
  deriving DecidableEq

/-- `NewPacketID` of a packet. -/
def Packet.id (p : Packet) : PacketID := ⟨p.sourceChannel, p.sourcePort, p.sequence⟩

/-- What the application gets from the modules that are not its own. -/
structure Chain extends Env where
  /-- `HasContractInfo`.  The address of a contract is a hash, so nobody could act for it
  before there was a contract. -/
  hasContractInfo : Address → Bool
  isUser_of_hasContractInfo : ∀ a, hasContractInfo a = true → a.isUser = true
  /-- `ValidateBasic` of the `MsgTransfer` of ICS-20. -/
  validateBasic : MsgTransfer → Result Unit
  /-- The coins that `Transfer` of ICS-20 moves. -/
  transfer : Bank → MsgTransfer → Result Bank
  transfer_feeAccount : ∀ {b b' msg}, transfer b msg = .ok b' →
    accAddressFromBech32 msg.sender ≠ some feeAccount →
    ∀ d, b'.balance feeAccount d = b.balance feeAccount d
  /-- `OnAcknowledgementPacket` of ICS-20, for a packet of the given sender. -/
  onAcknowledgementPacket : Bank → Packet → (sender acknowledgement : Bytes) → Result Bank
  onAcknowledgementPacket_feeAccount : ∀ {b b' p sender bz},
    onAcknowledgementPacket b p sender bz = .ok b' →
    accAddressFromBech32 sender ≠ some feeAccount →
    ∀ d, b'.balance feeAccount d = b.balance feeAccount d
  /-- `OnTimeoutPacket` of ICS-20. -/
  onTimeoutPacket : Bank → Packet → (sender : Bytes) → Result Bank
  onTimeoutPacket_feeAccount : ∀ {b b' p sender}, onTimeoutPacket b p sender = .ok b' →
    accAddressFromBech32 sender ≠ some feeAccount →
    ∀ d, b'.balance feeAccount d = b.balance feeAccount d
  /-- The acknowledgement can be decoded. -/
  unmarshalsAck : Bytes → Bool
  /-- `PrepareSudoCallbackMessage` returns no error. -/
  preparesCallback : Packet → Option Bytes → Bool
  /-- `SendTx` of ICS-27, apart from sending the packet. -/
  sendTx : MsgSubmitTx → Result Unit

/-! ### The world -/

/-- The state of `x/feerefunder`, what IBC core and ICS-27 know, and the packets that are not
resolved.  With a packet stands what its sender locked for it; this and the donations are
kept for the record, no code reads them. -/
structure World where
  fees : State
  /-- The next sequence of each port and channel. -/
  nextSequenceSend : AList fun _ : Bytes × Bytes => ℕ
  /-- The active channel of each connection and port. -/
  activeChannels : AList fun _ : Bytes × Bytes => Bytes
  /-- `MsgSubmitTxMaxMessages`. -/
  maxMessages : ℕ
  commitments : List (Packet × Option (Address × Fee))
  donated : Denom → ℤ

variable (chain : Chain) (w : World) (port channel : Bytes)

def getNextSequenceSend : Result ℕ :=
  match w.nextSequenceSend.lookup (port, channel) with
  | none => .error (.err "source port, source channel: sequence send not found")
  | some n => .ok n

/-- `GetChannel`: a channel and its sequence are stored together. -/
def channelFound : Bool :=
  (w.nextSequenceSend.lookup (port, channel)).isSome

/-- `SendPacket` of IBC core. -/
def sendPacket (data : PacketData) (locked : Option (Address × Fee)) : Result World := do
  let sequence ← getNextSequenceSend w port channel
  ensure (sequence < 2 ^ 64) (.err "sequences are exhausted")
  .ok { w with
    nextSequenceSend := w.nextSequenceSend.insert (port, channel) (sequence + 1)
    commitments := (⟨port, channel, sequence, data⟩, locked) :: w.commitments }

/-! ### Sending -/

/-- `AccAddressFromBech32`, with the error of the caller. -/
def parseAddress (s : Bytes) (desc : String) : Result Address :=
  match chain.accAddressFromBech32 s with
  | none => .error (.err desc)
  | some a => .ok a

def MsgTransfer.validate (msg : MsgTransfer) (isContract : Bool) : Result Unit := do
  if isContract then msg.fee.validate chain.toSdk else .ok ()
  chain.validateBasic msg

/-- The branch of `Transfer` that locks fees if the sender is a contract. -/
def lockTransferFees (isContract : Bool) (senderAddr : Address) (sequence : ℕ)
    (msg : MsgTransfer) : Result State :=
  if isContract then
    (lockFees chain.toEnv (channelFound w msg.sourcePort msg.sourceChannel) w.fees senderAddr
      ⟨msg.sourceChannel, msg.sourcePort, sequence⟩ msg.fee).mapError
      (.wrap "failed to lock fees to pay for transfer msg: ")
  else .ok w.fees

def transfer (w : World) (msg : MsgTransfer) : Result World := do
  let senderAddr ← parseAddress chain msg.sender "failed to parse address: invalid address"
  let isContract := chain.hasContractInfo senderAddr
  (msg.validate chain isContract).mapError (.wrap "failed to validate MsgTransfer: ")
  let sequence ← getNextSequenceSend w msg.sourcePort msg.sourceChannel
  let fees ← lockTransferFees chain w isContract senderAddr sequence msg
  let bank ← chain.transfer fees.bank msg
  sendPacket { w with fees := { fees with bank := bank } } msg.sourcePort msg.sourceChannel
    (.fungibleToken msg.token msg.sender msg.receiver msg.memo)
    (if isContract then some (senderAddr, msg.fee) else none)

def MsgSubmitTx.validate (msg : MsgSubmitTx) : Result Unit := do
  msg.fee.validate chain.toSdk
  ensure (msg.connectionId ≠ []) (.err "empty connection id")
  ensure (chain.accAddressFromBech32 msg.fromAddress).isSome
    (.err "failed to parse FromAddress: invalid address")
  ensure (msg.interchainAccountId ≠ []) (.err "empty interchain account id")
  ensure (msg.msgs ≠ []) (.err "no messages provided")
  ensure (0 < msg.timeout) (.err "timeout must be greater than zero: invalid timeout")

def controllerPortPrefix : Bytes := ascii "icacontroller-"

/-- The port of an interchain account: `NewControllerPortID` of `ICAOwner.String`. -/
def icaPort (contract : Address) (interchainAccountId : Bytes) : Bytes :=
  controllerPortPrefix ++ (chain.bech32 contract ++ 46 :: interchainAccountId)

def getActiveChannelID (connectionId portID : Bytes) : Result Bytes :=
  match w.activeChannels.lookup (connectionId, portID) with
  | none => .error
      (.err "failed to GetActiveChannelID for port: no active channel for this owner")
  | some channelID => .ok channelID

def submitTx (msg : MsgSubmitTx) : Result World := do
  (msg.validate chain).mapError (.wrap "failed to validate MsgSubmitTx: ")
  let senderAddr ← parseAddress chain msg.fromAddress "failed to parse address: invalid address"
  ensure (chain.hasContractInfo senderAddr) (.err "is not a contract address: not a contract")
  ensure (msg.msgs.length ≤ w.maxMessages) (.err "MsgSubmitTx contains more messages than allowed")
  let portID := icaPort chain senderAddr msg.interchainAccountId
  let channelID ← getActiveChannelID w msg.connectionId portID
  let sequence ← getNextSequenceSend w portID channelID
  let fees ← (lockFees chain.toEnv (channelFound w portID channelID) w.fees senderAddr
    ⟨channelID, portID, sequence⟩ msg.fee).mapError
    (.wrap "failed to lock fees to pay for SubmitTx msg: ")
  (chain.sendTx msg).mapError (.wrap "failed to SendTx: ")
  sendPacket { w with fees := fees } portID channelID (.interchainAccount msg.msgs msg.memo)
    (some (senderAddr, msg.fee))

/-! ### Handlers -/

/-- `ICAOwnerFromPort`: the contract of an interchain account. -/
def icaOwnerFromPort (port : Bytes) : Result Address :=
  let owner := if controllerPortPrefix.isPrefixOf port then port.drop controllerPortPrefix.length
    else port
  match Split.splitFirst 46 owner with
  | none => .error (.err "invalid ICA interchainAccountID format: invalid interchain account owner")
  | some (contract, _) =>
    parseAddress chain contract "failed to decode address from bech32: invalid account address"

variable (s : State) (p : Packet)

/-- `HandleAcknowledgement` of `x/transfer`, for a packet of the given sender. -/
def handleTransferAcknowledgement (sender acknowledgement : Bytes)
    (relayer : Address) : Result State := do
  ensure (chain.unmarshalsAck acknowledgement)
    (.err "cannot unmarshal ICS-20 transfer packet acknowledgement: unknown request")
  let senderAddress ←
    parseAddress chain sender "failed to decode address from bech32: invalid address"
  if chain.hasContractInfo senderAddress then do
    let s ← distributeAcknowledgementFee chain.toEnv s relayer p.id
    ensure (chain.preparesCallback p (some acknowledgement))
      (.err "failed to marshal Packet/Acknowledgment: failed to marshal JSON bytes")
    .ok s
  else .ok s

/-- `HandleTimeout` of `x/transfer`, for a packet of the given sender. -/
def handleTransferTimeout (sender : Bytes) (relayer : Address) : Result State := do
  let senderAddress ←
    parseAddress chain sender "failed to decode address from bech32: invalid address"
  if chain.hasContractInfo senderAddress then do
    ensure (chain.preparesCallback p none)
      (.err "failed to marshal Packet: failed to marshal JSON bytes")
    distributeTimeoutFee chain.toEnv s relayer p.id
  else .ok s

/-- `HandleAcknowledgement` of `x/interchaintxs`. -/
def handleIcaAcknowledgement (acknowledgement : Bytes) (relayer : Address) : Result State := do
  let _ ← (icaOwnerFromPort chain p.sourcePort).mapError (.wrap "failed to get ica owner from port: ")
  ensure (chain.unmarshalsAck acknowledgement)
    (.err "cannot unmarshal ICS-27 packet acknowledgement: unknown request")
  ensure (chain.preparesCallback p (some acknowledgement))
    (.err "failed to marshal Packet/Acknowledgment: failed to marshal JSON bytes")
  distributeAcknowledgementFee chain.toEnv s relayer p.id

/-- `HandleTimeout` of `x/interchaintxs`. -/
def handleIcaTimeout (relayer : Address) : Result State := do
  let _ ← (icaOwnerFromPort chain p.sourcePort).mapError (.wrap "failed to get ica owner from port: ")
  ensure (chain.preparesCallback p none)
    (.err "failed to marshal Packet: failed to marshal JSON bytes")
  distributeTimeoutFee chain.toEnv s relayer p.id

/-- What the wrapped application does to the bank when a packet is acknowledged; ICS-27 does
nothing. -/
def applicationAck (b : Bank) (p : Packet) (acknowledgement : Bytes) : Result Bank :=
  match p.data with
  | .fungibleToken _ sender _ _ =>
    (chain.onAcknowledgementPacket b p sender acknowledgement).mapError
      (.wrap "failed to process original OnAcknowledgementPacket: ")
  | .interchainAccount _ _ => .ok b

/-- What the wrapped application does to the bank when a packet times out. -/
def applicationTimeout (b : Bank) (p : Packet) : Result Bank :=
  match p.data with
  | .fungibleToken _ sender _ _ =>
    (chain.onTimeoutPacket b p sender).mapError
      (.wrap "failed to process original OnTimeoutPacket: ")
  | .interchainAccount _ _ => .ok b

/-- `OnAcknowledgementPacket` of the module that sent the packet. -/
def onAcknowledgementPacket (acknowledgement : Bytes) (relayer : Address) : Result State := do
  let bank ← applicationAck chain s.bank p acknowledgement
  match p.data with
  | .fungibleToken _ sender _ _ =>
    handleTransferAcknowledgement chain { s with bank := bank } p sender acknowledgement relayer
  | .interchainAccount _ _ =>
    handleIcaAcknowledgement chain { s with bank := bank } p acknowledgement relayer

/-- `OnTimeoutPacket` of the module that sent the packet. -/
def onTimeoutPacket (relayer : Address) : Result State := do
  let bank ← applicationTimeout chain s.bank p
  match p.data with
  | .fungibleToken _ sender _ _ =>
    handleTransferTimeout chain { s with bank := bank } p sender relayer
  | .interchainAccount _ _ => handleIcaTimeout chain { s with bank := bank } p relayer

/-! ### Runs -/

inductive Event where
  /-- A channel is opened; `;` is no character of identifiers. -/
  | openChannel (port channel : Bytes)
  /-- ICS-27 chooses the channel of an account. -/
  | setActiveChannel (connection port channel : Bytes)
  | transfer (msg : MsgTransfer)
  | submitTx (msg : MsgSubmitTx)
  | ack (p : Packet) (acknowledgement : Bytes) (relayer : Address)
  | timeout (p : Packet) (relayer : Address)
  /-- A user moves coins. -/
  | bankSend (src dst : Address) (coins : Coins)
  /-- Governance changes parameters. -/
  | updateParams (minFee : Fee) (maxMessages : ℕ)

/-- A packet is resolved: IBC core forgets it. -/
def resolve (w : World) (p : Packet) (fees : State) : World :=
  { w with
    fees := fees
    commitments := w.commitments.filter fun e => e.1 ≠ p }

def step (w : World) : Event → Result World
  | .openChannel port channel => do
      ensure (59 ∉ channel) (.err "identifier contains invalid characters")
      ensure (!channelFound w port channel) (.err "channel exists")
      .ok { w with nextSequenceSend := w.nextSequenceSend.insert (port, channel) 1 }
  | .setActiveChannel connection port channel =>
    .ok { w with activeChannels := w.activeChannels.insert (connection, port) channel }
  | .transfer msg => do
      -- the sender signs
      ensure ((chain.accAddressFromBech32 msg.sender).any (·.isUser)) (.err "unauthorized")
      transfer chain w msg
  | .submitTx msg => submitTx chain w msg
  | .ack p acknowledgement relayer => do
      ensure (p ∈ w.commitments.map (·.1)) (.err "packet commitment not found")
      let fees ← onAcknowledgementPacket chain w.fees p acknowledgement relayer
      .ok (resolve w p fees)
  | .timeout p relayer => do
      ensure (p ∈ w.commitments.map (·.1)) (.err "packet commitment not found")
      let fees ← onTimeoutPacket chain w.fees p relayer
      .ok (resolve w p fees)
  | .bankSend src dst coins => do
      ensure src.isUser (.err "unauthorized")
      let bank ← w.fees.bank.sendCoins chain.toSdk src dst coins
      .ok { w with
        fees := { w.fees with bank := bank }
        donated := fun d => w.donated d + if dst = feeAccount then net coins d else 0 }
  | .updateParams minFee maxMessages => do
      minFee.validate chain.toSdk
      .ok { w with fees := { w.fees with minFee := minFee }, maxMessages := maxMessages }

/-- A chain on which nobody locked fees: no records and no packets, and what the fee account
has was given to it. -/
structure Initial (w : World) : Prop where
  feeInfos : w.fees.feeInfos = ∅
  commitments : w.commitments = []
  channels : ∀ port channel n, w.nextSequenceSend.lookup (port, channel) = some n → 59 ∉ channel
  balance : ∀ d, (w.fees.bank.balance feeAccount d : ℤ) = w.donated d

end MaanyDex.FeeRefunder
