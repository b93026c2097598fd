/-
The acknowledgement and timeout handlers of `x/interchaintxs` and `x/transfer`, with their sudo
calls.

A handler finds the contract that sent the packet, distributes the fees of the relayer, and
calls the contract.  What the contract does cannot make it fail (`limitedSudo_of_ends`).  The fees
are paid to the relayer who signed, who is not the account of a module and may receive coins.
-/
import MaanyDex.ContractManager.Sudo
import MaanyDex.FeeRefunder.Payouts

namespace MaanyDex.ContractManager

open FeeRefunder (Packet PacketID State distributeAcknowledgementFee distributeTimeoutFee
  icaOwnerFromPort)

/-! ### Messages for contracts -/

/-- `channeltypes.Acknowledgement`; `unset` has neither of its fields. -/
inductive Acknowledgement where
  | result (bz : Bytes)
  | error (text : Bytes)
  | unset

def Acknowledgement.getError : Acknowledgement → Bytes
  | .error text => text
  | _ => []

def Acknowledgement.getResult : Acknowledgement → Bytes
  | .result bz => bz
  | _ => []

/-- `MessageSudoCallback`.  The destination and the timeout of a packet go with its identity and
are left out. -/
inductive MessageSudoCallback where
  | response (request : Packet) (data : Bytes)
  | error (request : Packet) (details : Bytes)
  | timeout (request : Packet)

/-- The message of `PrepareSudoCallbackMessage`. -/
def sudoCallback (request : Packet) : Option Acknowledgement → MessageSudoCallback
  | some ack =>
    if ack.getError = [] then .response request ack.getResult
    else .error request ack.getError
  | none => .timeout request

/-! ### The world -/

/-- The modules around `x/contractmanager`: the relaying of packets, the parameters, and the
rest, which only contracts change. -/
structure Outside (ρ : Type) where
  relaying : FeeRefunder.World
  /-- `Params.SudoCallGasLimit`. -/
  sudoCallGasLimit : UInt64
  rest : ρ

/-- What the handlers take from elsewhere. -/
structure PacketChain (ρ : Type) extends FeeRefunder.Chain where
  /-- An address has no dot in it. -/
  dot_notMem_bech32 : ∀ a, 46 ∉ bech32 a
  /-- The application blocks the accounts of modules only, and they are no contracts. -/
  blockedAddr_of_hasContractInfo : ∀ a, hasContractInfo a = true → blockedAddr a = false
  /-- `SubModuleCdc.UnmarshalJSON`. -/
  unmarshalAck : Bytes → Option Acknowledgement
  /-- `json.Marshal`. -/
  marshalJSON : MessageSudoCallback → Result Bytes
  /-- It fails on values that have no JSON, and strings, bytes and numbers have. -/
  marshalJSON_ok : ∀ msg, ∃ bz, marshalJSON msg = .ok bz
  /-- `wasmKeeper.Sudo`. -/
  callSudo : World (Outside ρ) → Address → Bytes → UInt64 → Call (World (Outside ρ))
  getParamsGas : World (Outside ρ) → ℕ
  addContractFailureGas : World (Outside ρ) → Failure → ℕ
  /-- What `HasContractInfo` costs. -/
  hasContractInfoGas : World (Outside ρ) → Address → ℕ
  /-- What the distribution of fees costs. -/
  distributeGas : World (Outside ρ) → PacketID → ℕ

variable {ρ : Type} (chain : PacketChain ρ)

/-- The contracts of the chain. -/
def PacketChain.wasm : Wasm (Outside ρ) where
  string := chain.bech32
  sudoCallGasLimit outside := outside.sudoCallGasLimit
  callSudo := chain.callSudo
  getParamsGas := chain.getParamsGas
  addContractFailureGas := chain.addContractFailureGas

/-- The world with other fees. -/
def withFees (w : World (Outside ρ)) (fees : State) : World (Outside ρ) :=
  { w with outside := { w.outside with relaying := { w.outside.relaying with fees := fees } } }

/-! ### Handlers -/

/-- `DistributeAcknowledgementFee` or `DistributeTimeoutFee`. -/
def distribute (f : State → Address → PacketID → Result State)
    (c : Ctx (Outside ρ)) (relayer : Address) (id : PacketID) : Result (Ctx (Outside ρ)) := do
  let fees ← f c.world.outside.relaying.fees relayer id
  let gas ← c.gas.consumeGas (chain.distributeGas c.world id)
  .ok { c with world := withFees c.world fees, gas := gas }

def prepareSudoCallbackMessage (request : Packet) (ack : Option Acknowledgement) : Result Bytes :=
  (chain.marshalJSON (sudoCallback request ack)).mapError
    (.wrap "failed to marshal MessageSudoCallback: ")

/-- `UnmarshalJSON`, with the error of the caller. -/
def parseAck (acknowledgement : Bytes) (text : String) : Result Acknowledgement :=
  match chain.unmarshalAck acknowledgement with
  | none => .error (.err text)
  | some ack => .ok ack

variable (c : Ctx (Outside ρ)) (packet : Packet)

/-- `HandleAcknowledgement` of `x/interchaintxs`. -/
def handleIcaAcknowledgement (acknowledgement : Bytes)
    (relayer : Address) : Result (Ctx (Outside ρ)) := do
  let contract ← (icaOwnerFromPort chain.toChain packet.sourcePort).mapError
    (.wrap "failed to get ica owner from port: ")
  let ack ← parseAck chain acknowledgement
    "cannot unmarshal ICS-27 packet acknowledgement: unknown request"
  let msg ← (prepareSudoCallbackMessage chain packet (some ack)).mapError
    (.wrap "failed to marshal Packet/Acknowledgment: ")
  let c ← distribute chain (distributeAcknowledgementFee chain.toEnv) c relayer packet.id
  let (c, _) ← chain.wasm.limitedSudo c contract msg
  .ok c

/-- `HandleTimeout` of `x/interchaintxs`. -/
def handleIcaTimeout (relayer : Address) : Result (Ctx (Outside ρ)) := do
  let contract ← (icaOwnerFromPort chain.toChain packet.sourcePort).mapError
    (.wrap "failed to get ica owner from port: ")
  let msg ← (prepareSudoCallbackMessage chain packet none).mapError
    (.wrap "failed to marshal Packet: ")
  let c ← distribute chain (distributeTimeoutFee chain.toEnv) c relayer packet.id
  let (c, _) ← chain.wasm.limitedSudo c contract msg
  .ok c

/-- `HasContractInfo`. -/
def checkContract (a : Address) : Result (Ctx (Outside ρ) × Bool) := do
  let gas ← c.gas.consumeGas (chain.hasContractInfoGas c.world a)
  .ok ({ c with gas := gas }, chain.hasContractInfo a)

/-- `HandleAcknowledgement` of `x/transfer`, for a packet of the given sender. -/
def handleTransferAcknowledgement
    (sender acknowledgement : Bytes) (relayer : Address) : Result (Ctx (Outside ρ)) := do
  let ack ← parseAck chain acknowledgement
    "cannot unmarshal ICS-20 transfer packet acknowledgement: unknown request"
  let senderAddress ← FeeRefunder.parseAddress chain.toChain sender
    "failed to decode address from bech32: invalid address"
  let (c, isContract) ← checkContract chain c senderAddress
  if isContract then do
    let c ← distribute chain (distributeAcknowledgementFee chain.toEnv) c relayer
      packet.id
    let msg ← (prepareSudoCallbackMessage chain packet (some ack)).mapError
      (.wrap "failed to marshal Packet/Acknowledgment: ")
    let (c, _) ← chain.wasm.limitedSudo c senderAddress msg
    .ok c
  else .ok c

/-- `HandleTimeout` of `x/transfer`, for a packet of the given sender. -/
def handleTransferTimeout (sender : Bytes) (relayer : Address) : Result (Ctx (Outside ρ)) := do
  let senderAddress ← FeeRefunder.parseAddress chain.toChain sender
    "failed to decode address from bech32: invalid address"
  let (c, isContract) ← checkContract chain c senderAddress
  if isContract then do
    let msg ← (prepareSudoCallbackMessage chain packet none).mapError
      (.wrap "failed to marshal Packet: ")
    let c ← distribute chain (distributeTimeoutFee chain.toEnv) c relayer packet.id
    let (c, _) ← chain.wasm.limitedSudo c senderAddress msg
    .ok c
  else .ok c

/-- How a packet is resolved. -/
inductive Resolution where
  | acknowledged (acknowledgement : Bytes)
  | timedOut

/-- The handler of the module that sent the packet. -/
def handlePacket (resolution : Resolution) (relayer : Address) : Result (Ctx (Outside ρ)) :=
  match packet.data, resolution with
  | .interchainAccount _ _, .acknowledged bz => handleIcaAcknowledgement chain c packet bz relayer
  | .interchainAccount _ _, .timedOut => handleIcaTimeout chain c packet relayer
  | .fungibleToken _ sender _ _, .acknowledged bz =>
    handleTransferAcknowledgement chain c packet sender bz relayer
  | .fungibleToken _ sender _ _, .timedOut => handleTransferTimeout chain c packet sender relayer

/-! ### What handlers do -/

/-- The acknowledgement of a resolution, or none for a timeout, if it can be decoded. -/
def Resolution.decode : Resolution → Option (Option Acknowledgement)
  | .acknowledged bz => (chain.unmarshalAck bz).map some
  | .timedOut => some none

/-- Who gets which fee. -/
def Resolution.distributes :
    Resolution → State → Address → PacketID → Result State
  | .acknowledged _ => distributeAcknowledgementFee chain.toEnv
  | .timedOut => distributeTimeoutFee chain.toEnv

/-- What it costs to find the contract. -/
def lookupGas (w : World (Outside ρ)) (packet : Packet) (contract : Address) : ℕ :=
  match packet.data with
  | .interchainAccount _ _ => 0
  | .fungibleToken _ _ _ _ => chain.hasContractInfoGas w contract

/-- The gas of the transaction that a handler needs. -/
def packetGas (w : World (Outside ρ)) (packet : Packet) (contract : Address) (msg : Bytes)
    (fees : State) : ℕ :=
  lookupGas chain w packet contract + chain.distributeGas w packet.id
    + chain.wasm.gasOf (withFees w fees) contract msg

/-- A contract was called with `msg` in the world `w`, and the result is `w'`: its writes are
there if it returned, and if it did not, there is one more failure and nothing else. -/
structure Delivered (w : World (Outside ρ)) (contract : Address) (msg : Bytes)
    (w' : World (Outside ρ)) : Prop where
  success : ∀ resp, (chain.wasm.callIn w contract msg).ending = .returned resp →
    w' = (chain.wasm.callIn w contract msg).state
  failure : (∀ resp, (chain.wasm.callIn w contract msg).ending ≠ .returned resp) →
    ∃ failure : Failure, failure.address = chain.bech32 contract ∧ failure.sudoPayload = msg
      ∧ w' = storeFailure w failure
      ∧ ((∀ id, w.failures.lookup (chain.bech32 contract, id) ≠ none → id.toNat + 1 < 2 ^ 64) →
        w.failures.lookup failure.key = none)

variable {chain} {c : Ctx (Outside ρ)} {p : Packet} {contract relayer : Address} {msg : Bytes}
  {fees : State}

lemma delivered_worldAfter {w : World (Outside ρ)} (h : Keyed w) :
    Delivered chain w contract msg (chain.wasm.worldAfter w contract msg) := by
  unfold Wasm.worldAfter Call.result
  constructor
  · intro resp hresp
    dsimp only
    rw [hresp]
    rfl
  · intro hfailed
    dsimp only
    rcases hending : (chain.wasm.callIn w contract msg).ending with resp | err | ⟨_, _⟩
    · exact absurd hending (hfailed resp)
    · exact ⟨_, rfl, rfl, rfl, h.lookup_newFailure⟩
    · exact ⟨_, rfl, rfl, rfl, h.lookup_newFailure⟩

/-- A transaction after the fees of a packet were distributed. -/
def feesPaid (chain : PacketChain ρ) (c : Ctx (Outside ρ)) (id : PacketID)
    (fees : State) : Ctx (Outside ρ) :=
  { c with
    world := withFees c.world fees
    gas := { c.gas with consumed := c.gas.consumed + chain.distributeGas c.world id } }

/-- Fees are distributed and the contract is called. -/
lemma distribute_limitedSudo (chain : PacketChain ρ) (c : Ctx (Outside ρ))
    {f : State → Address → PacketID → Result State}
    {id : PacketID} (hf : f c.world.outside.relaying.fees relayer id = .ok fees)
    (hends : (chain.wasm.callIn (withFees c.world fees) contract msg).Ends
      c.world.outside.sudoCallGasLimit)
    (hgas : c.gas.consumed + (chain.distributeGas c.world id
      + chain.wasm.gasOf (withFees c.world fees) contract msg) ≤ c.gas.limit.toNat) :
    distribute chain f c relayer id = .ok (feesPaid chain c id fees)
      ∧ ∃ c' result, chain.wasm.limitedSudo (feesPaid chain c id fees) contract msg = .ok (c', result)
        ∧ c'.world = chain.wasm.worldAfter (withFees c.world fees) contract msg
        ∧ c'.calls = (contract, msg) :: c.calls := by
  constructor
  · unfold distribute
    rw [hf, Run.ok_bind, GasMeter.consumeGas_of_le (by omega)]
    rfl
  · obtain ⟨c', hc', hworld, hcalls⟩ :=
      limitedSudo_of_ends chain.wasm (feesPaid chain c id fees) hends
        (by dsimp only [feesPaid]; omega)
    exact ⟨c', _, hc', hworld, hcalls⟩

section Handlers

variable {resolution : Resolution} {ack : Option Acknowledgement} {memo : Bytes}
  (hsender : p.SentBy chain.toChain contract) (hack : resolution.decode chain = some ack)
  (hmsg : chain.marshalJSON (sudoCallback p ack) = .ok msg)
  (hf : resolution.distributes chain c.world.outside.relaying.fees relayer p.id = .ok fees)
  (hends : (chain.wasm.callIn (withFees c.world fees) contract msg).Ends
    c.world.outside.sudoCallGasLimit)
  (hgas : c.gas.consumed + packetGas chain c.world p contract msg fees ≤ c.gas.limit.toNat)
include hsender hack hmsg hf hends hgas

lemma handleIca_ok {msgs : List Bytes} (hdata : p.data = .interchainAccount msgs memo) :
    ∃ c', handlePacket chain c p resolution relayer = .ok c'
      ∧ c'.world = chain.wasm.worldAfter (withFees c.world fees) contract msg
      ∧ c'.calls = (contract, msg) :: c.calls := by
  unfold FeeRefunder.Packet.SentBy at hsender
  rw [hdata] at hsender
  obtain ⟨id, hport⟩ := hsender
  have howner : icaOwnerFromPort chain.toChain p.sourcePort = .ok contract := by
    rw [hport]
    exact FeeRefunder.icaOwnerFromPort_icaPort chain.dot_notMem_bech32 contract id
  have hgas' : c.gas.consumed + (chain.distributeGas c.world p.id
      + chain.wasm.gasOf (withFees c.world fees) contract msg) ≤ c.gas.limit.toNat := by
    unfold packetGas lookupGas at hgas
    rwa [hdata, Nat.zero_add] at hgas
  obtain ⟨hdistribute, c', result, hc', hworld, hcalls⟩ :=
    distribute_limitedSudo chain c hf hends hgas'
  refine ⟨c', ?_, hworld, hcalls⟩
  unfold handlePacket
  rw [hdata]
  cases resolution with
  | acknowledged bz =>
    obtain ⟨a, ha, rfl⟩ := Option.map_eq_some_iff.mp hack
    unfold Resolution.distributes at hdistribute
    simp only at hdistribute
    simp only [handleIcaAcknowledgement, howner, Except.mapError, parseAck, ha,
      prepareSudoCallbackMessage, hmsg, hdistribute, hc', Run.ok_bind]
  | timedOut =>
    cases hack
    unfold Resolution.distributes at hdistribute
    simp only at hdistribute
    simp only [handleIcaTimeout, howner, Except.mapError, prepareSudoCallbackMessage, hmsg,
      hdistribute, hc', Run.ok_bind]

lemma handleTransfer_ok {token : Coin}
    {sender receiver : Bytes} (hdata : p.data = .fungibleToken token sender receiver memo)
    (hcontract : chain.hasContractInfo contract = true) :
    ∃ c', handlePacket chain c p resolution relayer = .ok c'
      ∧ c'.world = chain.wasm.worldAfter (withFees c.world fees) contract msg
      ∧ c'.calls = (contract, msg) :: c.calls := by
  unfold FeeRefunder.Packet.SentBy at hsender
  rw [hdata] at hsender
  have hgas' : c.gas.consumed + (chain.hasContractInfoGas c.world contract
      + chain.distributeGas c.world p.id
      + chain.wasm.gasOf (withFees c.world fees) contract msg) ≤ c.gas.limit.toNat := by
    unfold packetGas lookupGas at hgas
    rw [hdata] at hgas
    exact hgas
  -- looking the contract up costs gas and changes nothing else
  have hcheck : checkContract chain c contract = .ok ({ c with
      gas := { c.gas with
        consumed := c.gas.consumed + chain.hasContractInfoGas c.world contract } }, true) := by
    unfold checkContract
    rw [GasMeter.consumeGas_of_le (by omega), hcontract]
    rfl
  obtain ⟨hdistribute, c', result, hc', hworld, hcalls⟩ := distribute_limitedSudo chain
    { c with
      gas := { c.gas with
        consumed := c.gas.consumed + chain.hasContractInfoGas c.world contract } }
    hf hends (by dsimp only; omega)
  refine ⟨c', ?_, hworld, hcalls⟩
  unfold handlePacket
  rw [hdata]
  cases resolution with
  | acknowledged bz =>
    obtain ⟨a, ha, rfl⟩ := Option.map_eq_some_iff.mp hack
    unfold Resolution.distributes at hdistribute
    simp only at hdistribute
    simp only [handleTransferAcknowledgement, parseAck, ha, FeeRefunder.parseAddress, hsender,
      hcheck, Except.mapError, prepareSudoCallbackMessage, hmsg, hdistribute, hc', Run.ok_bind,
      if_true]
  | timedOut =>
    cases hack
    unfold Resolution.distributes at hdistribute
    simp only at hdistribute
    simp only [handleTransferTimeout, FeeRefunder.parseAddress, hsender, hcheck,
      Except.mapError, prepareSudoCallbackMessage, hmsg, hdistribute, hc', Run.ok_bind, if_true]

end Handlers

/-! ### Packets are not blocked -/

/-- `x/contractmanager` on this chain. -/
def PacketChain.manager (chain : PacketChain ρ) : Chain (Outside ρ) where
  accAddressFromBech32 := chain.accAddressFromBech32
  string := chain.bech32
  hasContractInfo _ := chain.hasContractInfo

/-- The packets and the fees come from a run of relaying, and the failures from a run of
`x/contractmanager`. -/
structure Reachable (chain : PacketChain ρ) (w : World (Outside ρ)) : Prop where
  relaying : ∃ w₀ es, FeeRefunder.Initial w₀
    ∧ Run.run (FeeRefunder.step chain.toChain) w₀ es = w.outside.relaying
  failures : ∃ w₀ scripts, Initial w₀ ∧ Run.run (step chain.manager) w₀ scripts = w

/-- The fees of a packet of a contract can be distributed to a relayer that may receive coins. -/
lemma distributes_ok {w : FeeRefunder.World} {payer : Address} {fee : FeeRefunder.Fee}
    (resolution : Resolution) (hcustody : FeeRefunder.Custody chain.toChain w)
    (hpayable : FeeRefunder.Payable chain.toChain w) (hp : (p, some (payer, fee)) ∈ w.commitments)
    (hrelayer : chain.blockedAddr relayer = false) :
    ∃ fees, resolution.distributes chain w.fees relayer p.id = .ok fees := by
  have hpayer := chain.blockedAddr_of_hasContractInfo _ (hpayable.senders p payer fee hp).1
  obtain ⟨hack, htimeout⟩ := hpayable.records _ _ (hcustody.locked p payer fee hp).2
  cases resolution with
  | acknowledged bz =>
    exact hcustody.distributeFees hpayable hp (fun _ => rfl) hack htimeout hrelayer hpayer
  | timedOut =>
    exact hcustody.distributeFees hpayable hp (fun _ => add_comm _ _) htimeout hack hrelayer hpayer

/-- Bytes as two digits each, none of which is a dot. -/
def writeDigits (bz : Bytes) : Bytes := bz.flatMap fun b => [b / 16, b % 16]

def readDigits : Bytes → Bytes
  | a :: b :: bz => (16 * a + b) :: readDigits bz
  | _ => []

lemma readDigits_writeDigits (bz : Bytes) : readDigits (writeDigits bz) = bz := by
  induction bz with
  | nil => rfl
  | cons b bz ih =>
    have hb : 16 * (b / 16) + b % 16 = b := by
      apply UInt8.toNat_inj.mp
      have hlt := b.toNat_lt
      simp only [UInt8.toNat_add, UInt8.toNat_mul, UInt8.toNat_div, UInt8.toNat_mod,
        UInt8.toNat_ofNat, Nat.reducePow, Nat.reduceMod]
      omega
    show (16 * (b / 16) + b % 16) :: readDigits (writeDigits bz) = b :: bz
    rw [hb, ih]

lemma dot_notMem_writeDigits (bz : Bytes) : 46 ∉ writeDigits bz := by
  intro h
  obtain ⟨b, -, hb⟩ := List.mem_flatMap.mp h
  have hlt := b.toNat_lt
  rcases List.mem_cons.mp hb with heq | hb
  · have hdiv := congrArg UInt8.toNat heq
    simp only [UInt8.toNat_div, UInt8.toNat_ofNat, Nat.reducePow, Nat.reduceMod] at hdiv
    omega
  · have hmod := congrArg UInt8.toNat (List.mem_singleton.mp hb)
    simp only [UInt8.toNat_mod, UInt8.toNat_ofNat, Nat.reducePow, Nat.reduceMod] at hmod
    omega

/-- The accounts of modules are blocked; there is one contract. -/
def demoRelayChain : FeeRefunder.Chain where
  toSdk := { chainSdk with
    accAddressFromBech32 := fun bz => FeeRefunder.readAddress (readDigits bz) }
  bech32 a := writeDigits (FeeRefunder.writeAddress a)
  accAddressFromBech32_bech32 a := by
    show FeeRefunder.readAddress (readDigits (writeDigits _)) = some a
    rw [readDigits_writeDigits, FeeRefunder.readAddress_writeAddress]
  blockedAddr_feeAccount := rfl
  hasContractInfo a := a = .account (ascii "contract")
  isUser_of_hasContractInfo := FeeRefunder.isUser_of_contract
  validateBasic _ := .ok ()
  transfer bank _ := .ok bank
  transfer_feeAccount h _ d := by
    cases h
    rfl
  onAcknowledgementPacket bank _ _ _ := .ok bank
  onAcknowledgementPacket_feeAccount h _ d := by
    cases h
    rfl
  onTimeoutPacket bank _ _ := .ok bank
  onTimeoutPacket_feeAccount h _ d := by
    cases h
    rfl
  unmarshalsAck _ := true
  preparesCallback _ _ := true
  sendTx _ := .ok ()

/-- A contract that writes, uses all of its gas, and ends in the given way. -/
def demoPacketChain (ending : Ending) : PacketChain Bool where
  toChain := demoRelayChain
  dot_notMem_bech32 _ := dot_notMem_writeDigits _
  blockedAddr_of_hasContractInfo a ha := by
    rw [of_decide_eq_true ha]
    rfl
  unmarshalAck bz := some (.result bz)
  marshalJSON
    | .response _ data => .ok (0 :: data)
    | .error _ details => .ok (1 :: details)
    | .timeout _ => .ok [2]
  marshalJSON_ok
    | .response _ _ => ⟨_, rfl⟩
    | .error _ _ => ⟨_, rfl⟩
    | .timeout _ => ⟨_, rfl⟩
  callSudo w _ _ limit :=
    ⟨ending, { w with outside := { w.outside with rest := true } }, limit.toNat⟩
  getParamsGas _ := 1
  addContractFailureGas _ _ := 1
  hasContractInfoGas _ _ := 1
  distributeGas _ _ := 1

/-- The interchain account of the contract; there is a dot in its id. -/
def demoPort : Bytes :=
  FeeRefunder.icaPort demoRelayChain (.account (ascii "contract")) (ascii "ica.1")

/-- The contract submits a transaction of the account. -/
def demoSubmission : List FeeRefunder.Event :=
  [.openChannel demoPort (ascii "channel-1"),
    .setActiveChannel (ascii "connection-0") demoPort (ascii "channel-1"),
    .submitTx ⟨demoRelayChain.bech32 (.account (ascii "contract")), ascii "ica.1",
      ascii "connection-0", [[7]], [], 1, FeeRefunder.demoFee⟩]

def demoIcaPacket : Packet := ⟨demoPort, ascii "channel-1", 1, .interchainAccount [[7]] []⟩

def demoCtx : Ctx (Outside Bool) where
  world :=
    { outside :=
        { relaying := Run.run (FeeRefunder.step demoRelayChain) FeeRefunder.demoWorld demoSubmission
          sudoCallGasLimit := 1000000
          rest := false }
      failures := ∅
      handed := []
      redelivered := [] }
  gas := ⟨10000000, 0⟩
  events := []
  calls := []

lemma demoCtx_reachable (ending : Ending) : Reachable (demoPacketChain ending) demoCtx.world where
  relaying := ⟨_, demoSubmission, FeeRefunder.demoWorld_initial, rfl⟩
  failures := ⟨demoCtx.world, [], ⟨rfl, rfl, rfl⟩, rfl⟩

end MaanyDex.ContractManager
