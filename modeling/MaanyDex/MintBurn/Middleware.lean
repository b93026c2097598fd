/-
The IBC middleware of `x/mintburn` around the ICS-20 transfer application.

Follows `module/middleware.go`: the channel callbacks that maintain the
allow-list, and the three packet callbacks.  The wrapped application and the
functions of `ibc-go` are parameters (`Env`), with their documented behaviour
as laws; the wrapped application acts on the bank, and does not issue coins in
the name of `mintburn`.

`onRecvPacket` is cut at the point where the path is known to be privileged:
`receivePrivileged` is the rest of the Go function.  The commit rule of IBC
core, that the writes of a receive are kept only with a successful
acknowledgement, is `recvPacket`.
-/
import MaanyDex.MintBurn.Keeper

namespace MaanyDex.MintBurn

/-! ### What the middleware sees of IBC -/

/-- `channeltypes.Channel`, as far as it is read. -/
structure Channel where
  connectionHops : List Bytes

/-- `connectiontypes.ConnectionEnd`, as far as it is read. -/
structure ConnectionEnd where
  clientId : Bytes

structure Packet where
  sequence : ℕ
  sourcePort : Bytes
  sourceChannel : Bytes
  destinationPort : Bytes
  destinationChannel : Bytes
  data : Bytes
  deriving DecidableEq

structure FungibleTokenPacketData where
  denom : Denom
  amount : Bytes
  sender : Bytes
  receiver : Bytes
  deriving DecidableEq

structure DenomTrace where
  path : Bytes
  baseDenom : Denom

/-- `channeltypes.Acknowledgement`: its response is a result, an error, or not
set. -/
inductive Acknowledgement where
  | result (bz : Bytes)
  | error (msg : String)
  | unset
  deriving DecidableEq

/-- The wrapped application (`porttypes.IBCModule`), as an action on the bank.
A receive may leave its acknowledgement for later (`none`). -/
structure IBCModule where
  onChanOpenAck : Bytes → Bytes → Result Unit
  onChanOpenConfirm : Bytes → Bytes → Result Unit
  onChanCloseInit : Bytes → Bytes → Result Unit
  onChanCloseConfirm : Bytes → Bytes → Result Unit
  onRecvPacket : Bank → Packet → Result (Bank × Option Acknowledgement)
  onAcknowledgementPacket : Bank → Packet → Bytes → Result Bank
  onTimeoutPacket : Bank → Packet → Result Bank
  /-- It issues coins in its own name only. -/
  recv_minted : ∀ {b b' p ack}, onRecvPacket b p = .ok (b', ack) →
    ∀ d, b'.minted moduleName d = b.minted moduleName d

/-- Functions of the standard library and of `ibc-go` that the middleware calls,
with what their documentation says of them. -/
structure Ibc extends KeeperEnv where
  /-- `json.Unmarshal` into `FungibleTokenPacketData`. -/
  unmarshalPacketData : Bytes → Option FungibleTokenPacketData
  /-- `ModuleCdc.UnmarshalJSON` into `Acknowledgement`. -/
  unmarshalAck : Bytes → Option Acknowledgement
  /-- `ibctransfertypes.ReceiverChainIsSource`. -/
  receiverChainIsSource : Bytes → Bytes → Denom → Bool
  /-- It tests the prefix made of port and channel. -/
  receiverChainIsSource_iff : ∀ port channel denom,
    receiverChainIsSource port channel denom = true ↔
      port ++ ascii "/" ++ channel ++ ascii "/" <+: denom
  /-- `ibctransfertypes.ParseDenomTrace`. -/
  parseDenomTrace : Denom → DenomTrace
  /-- A string without a slash has no hop to strip. -/
  parseDenomTrace_bare : ∀ denom, 47 ∉ denom → (parseDenomTrace denom).path = []
  /-- Where no hop is stripped, the base is the whole string. -/
  parseDenomTrace_base : ∀ denom, (parseDenomTrace denom).path = [] →
    (parseDenomTrace denom).baseDenom = denom
  /-- The hexadecimal SHA-256 digest in the name of a voucher. -/
  hash : Bytes → Bytes

/-- Everything the middleware calls that is not part of the module. -/
structure Env extends Ibc where
  app : IBCModule

/-- The state a handler works on: the module's store, the bank, and what IBC
core and the CCV consumer module answer. -/
structure State where
  store : KVStore
  bank : Bank
  channels : Bytes → Bytes → Option Channel
  connections : Bytes → Option ConnectionEnd
  providerClientID : Option Bytes

variable (env : Env)

def transferPort : Bytes := ascii "transfer"

/-! ### Channel callbacks -/

variable (s : State)

/-- The provider's client id, when the consumer module knows a non-empty one. -/
def State.provider : Option Bytes := s.providerClientID.filter (· ≠ [])

/-- `HandleChannelIdStorage`: (un)list a transfer channel whose connection runs
on the provider's client; other channels are left alone without an error. -/
def handleChannelIdStorage (portID channelID : Bytes) (isOpening : Bool) : Result State :=
  if portID ≠ transferPort then .ok s
  else match s.channels portID channelID with
    | none => .error (.err "channel not found")
    | some channel =>
      match channel.connectionHops with
      | [] => .error (.panic "index out of range")
      | connectionID :: _ =>
        match s.connections connectionID with
        | none => .error (.errf "connection %s not found" connectionID)
        | some connection =>
          if s.provider = some connection.clientId then
            .ok { s with store :=
              if isOpening then s.store.set (keyAllowedChan ++ channelID) [1]
              else s.store.delete (keyAllowedChan ++ channelID) }
          else .ok s

def onChanOpenAck (s : State) (portID channelID : Bytes) : Result State := do
  let s' ← handleChannelIdStorage s portID channelID true
  env.app.onChanOpenAck portID channelID
  return s'

def onChanOpenConfirm (s : State) (portID channelID : Bytes) : Result State := do
  let s' ← handleChannelIdStorage s portID channelID true
  env.app.onChanOpenConfirm portID channelID
  return s'

def onChanCloseInit (s : State) (portID channelID : Bytes) : Result State := do
  let s' ← handleChannelIdStorage s portID channelID false
  env.app.onChanCloseInit portID channelID
  return s'

def onChanCloseConfirm (s : State) (portID channelID : Bytes) : Result State := do
  let s' ← handleChannelIdStorage s portID channelID false
  env.app.onChanCloseConfirm portID channelID
  return s'

/-! ### Receiving -/

def proofID (pkt : Packet) : Bytes :=
  pkt.destinationPort ++ ascii "/" ++ pkt.destinationChannel ++ ascii "/"
    ++ Decimal.formatUint pkt.sequence

/-- The base denomination as both packet handlers resolve it: the whole string
when it carries the packet's own source prefix, the base of its trace
otherwise. -/
def resolveBaseDenom (ibc : Ibc) (packet : Packet) (denom : Denom) : Denom :=
  if ibc.receiverChainIsSource packet.sourcePort packet.sourceChannel denom then denom
  else (ibc.parseDenomTrace denom).baseDenom

/-- An error acknowledgement. -/
def reject (msg : String) : Result (State × Option Acknowledgement) :=
  .ok (s, some (.error msg))

variable (packet : Packet)

/-- Hand the packet to the wrapped application. -/
def forwardRecv : Result (State × Option Acknowledgement) := do
  let (b, ack) ← env.app.onRecvPacket s.bank packet
  return ({ s with bank := b }, ack)

/-- `OnRecvPacket` once receiver and amount are read: mint, mark the proof
consumed, and count the mirrored supply. -/
def mintMirrored (dexNativeDenom : Denom) (rcpt : Address)
    (amt : ℤ) : Result (State × Option Acknowledgement) :=
  match newCoin env.toSdk dexNativeDenom amt with
  | .error f => .error f
  | .ok mintCoin =>
    match mintTokens env.toKeeperEnv s.bank rcpt mintCoin with
    | (_, some (.panic msg)) => .error (.panic msg)
    | (b, some _) => reject { s with bank := b } "mint failed"
    | (b, none) =>
      match addMirrorSupply env.toKeeperEnv (consumeProof s.store (proofID packet)) amt with
      | .error f => .error f
      | .ok store => .ok ({ s with store := store, bank := b }, some (.result [1]))

/-- `OnRecvPacket` from the point where the path is known to be the provider's. -/
def receivePrivileged (data : FungibleTokenPacketData) : Result (State × Option Acknowledgement) :=
  let params := getParams env.toKeeperEnv s.store
  if params.pause then reject s "mintburn paused"
  else if resolveBaseDenom env.toIbc packet data.denom ∉ params.allowedBaseDenoms then
    forwardRecv env s packet
  else if hasProof s.store (proofID packet) then reject s "duplicate proof"
  else match env.accAddressFromBech32 data.receiver with
    | none => reject s "invalid receiver address"
    | some rcpt =>
      match env.newIntFromString data.amount with
      | none => reject s "invalid token amount"
      | some amt =>
        if amt ≤ 0 then reject s "invalid token amount"
        else mintMirrored env s packet params.dexNativeDenom rcpt amt

def onRecvPacket : Result (State × Option Acknowledgement) :=
  match env.unmarshalPacketData packet.data with
  | none => reject s "invalid packet data"
  | some data =>
    if packet.destinationPort ≠ transferPort then forwardRecv env s packet
    else if isAllowedChannel s.store packet.destinationChannel = false then
      forwardRecv env s packet
    else match s.channels packet.destinationPort packet.destinationChannel with
      | none => reject s "mintburn: channel not found"
      | some ch =>
        match ch.connectionHops with
        | [] => .error (.panic "index out of range")
        | connID :: _ =>
          match s.connections connID with
          | none => reject s "mintburn: connection not found"
          | some conn =>
            if s.provider = some conn.clientId then receivePrivileged env s packet data
            else reject s "unauthorized transfer path"

/-- IBC core's `RecvPacket` around the callback: the writes are kept unless the
acknowledgement is an error. -/
def recvPacket : Result State :=
  match onRecvPacket env s packet with
  | .error f => .error f
  | .ok (s', none) => .ok s'
  | .ok (s', some (.result _)) => .ok s'
  | .ok (_, some _) => .ok s

/-! ### Acknowledgements and timeouts -/

/-- Hand the acknowledgement to the wrapped application. -/
def forwardAck (acknowledgement : Bytes) : Result State := do
  let b ← env.app.onAcknowledgementPacket s.bank packet acknowledgement
  return { s with bank := b }

/-- The denomination hard-coded in `OnAcknowledgementPacket`. -/
def umaany : Denom := ascii "umaany"

/-- `OnAcknowledgementPacket` once the amount is read: burn from the escrow
account, count down the mirrored supply, and go on to the wrapped application.
A burn that fails is only logged. -/
def burnMirrored (baseDenom : Denom) (amt : ℤ) (acknowledgement : Bytes) : Result State :=
  match newCoin env.toSdk baseDenom amt with
  | .error f => .error f
  | .ok coin =>
    match burnEscrowedTokens env.toKeeperEnv s.bank
        (.escrow packet.sourcePort packet.sourceChannel) coin with
    | (_, some (.panic msg)) => .error (.panic msg)
    | (b, some _) => forwardAck env { s with bank := b } packet acknowledgement
    | (b, none) =>
      match subMirrorSupply env.toKeeperEnv s.store amt with
      | .error f => .error f
      | .ok store =>
        forwardAck env { s with store := store, bank := b } packet acknowledgement

def onAcknowledgementPacket (acknowledgement : Bytes) : Result State :=
  match env.unmarshalAck acknowledgement with
  | some (.result _) =>
    match env.unmarshalPacketData packet.data with
    | none => forwardAck env s packet acknowledgement
    | some data =>
      if packet.sourcePort ≠ transferPort
          ∨ isAllowedChannel s.store packet.sourceChannel = false then
        forwardAck env s packet acknowledgement
      else if resolveBaseDenom env.toIbc packet data.denom ≠ umaany then
        forwardAck env s packet acknowledgement
      else match env.newIntFromString data.amount with
        | none => forwardAck env s packet acknowledgement
        | some amt =>
          if amt ≤ 0 then forwardAck env s packet acknowledgement
          else burnMirrored env s packet (resolveBaseDenom env.toIbc packet data.denom) amt
            acknowledgement
  | _ => forwardAck env s packet acknowledgement

def onTimeoutPacket (s : State) (packet : Packet) : Result State := do
  let b ← env.app.onTimeoutPacket s.bank packet
  return { s with bank := b }

end MaanyDex.MintBurn
