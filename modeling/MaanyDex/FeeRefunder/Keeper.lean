/-
`x/feerefunder`: `keeper/keeper.go`, `types/fee.go` and `types/keys.go`.

A contract that sends a packet locks the fees of the relayer who will deliver its
acknowledgement or its timeout.  The account of the module holds them; a record under the
identity of the packet says whom they are from.  Exactly one of the two fees is paid to a
relayer, and the other one is returned.

The two ways to distribute fees differ in which fee is which, so they are one definition
(`distributeFees`).
-/
import MaanyDex.Lib.Encoding
import MaanyDex.Sdk.Coins

namespace MaanyDex.FeeRefunder

open Run

def moduleName : Bytes := ascii "feerefunder"

def feeAccount : Address := .moduleAccount moduleName

/-- What the module needs of the SDK. -/
structure Env extends Sdk where
  /-- `AccAddress.String`. -/
  bech32 : Address → Bytes
  accAddressFromBech32_bech32 : ∀ a, accAddressFromBech32 (bech32 a) = some a
  /-- The application blocks the accounts of modules. -/
  blockedAddr_feeAccount : blockedAddr feeAccount = true

/-! ### Packets and fees -/

structure PacketID where
  channelId : Bytes
  portId : Bytes
  sequence : ℕ

/-- `GetFeePacketKey`, with `;` between the parts. -/
def getFeePacketKey (packet : PacketID) : Bytes :=
  1 :: (packet.channelId ++ 59 :: (packet.portId ++ 59 ::
    Encoding.uint64ToBigEndian packet.sequence))

structure Fee where
  recvFee : Coins
  ackFee : Coins
  timeoutFee : Coins

/-- `Coins.IsZero`. -/
def coinsIsZero (cs : Coins) : Bool := cs.all fun c => c.amount = 0

def Fee.total (m : Fee) : Result Coins := do
  let sum ← coinsAdd m.recvFee m.ackFee
  coinsAdd sum m.timeoutFee

def Fee.validate (sdk : Sdk) (m : Fee) : Result Unit := do
  let errFees := (if isValid sdk m.ackFee then [] else ["ack fee is invalid"])
    ++ if isValid sdk m.timeoutFee then [] else ["timeout fee invalid"]
  ensure (errFees = [])
    (.err ("contains invalid fees: " ++ String.intercalate " , " errFees ++ ": invalid coins"))
  ensure (coinsIsZero m.recvFee) (.err "recv fee must be zero: invalid coins")
  ensure (!coinsIsZero m.ackFee && !coinsIsZero m.timeoutFee)
    (.err "ack fee or timeout fee is zero: invalid coins")

structure FeeInfo where
  payer : Bytes
  packetId : PacketID
  fee : Fee

/-- The records of the module, its parameters, and the bank. -/
structure State where
  bank : Bank
  /-- `FeeKey`. -/
  feeInfos : AList fun _ : Bytes => FeeInfo
  /-- `Params.MinFee`. -/
  minFee : Fee

variable (env : Env)

/-! ### Checks -/

def isAnyGTE (coinsB : Coins) : Coins → Result Bool
  | [] => .ok false
  | coin :: coins =>
    if coinsB = [] then .ok false
    else do
      let amt ← amountOf env.toSdk coinsB coin.denom
      if amt ≤ coin.amount ∧ amt ≠ 0 then .ok true else isAnyGTE coinsB coins

/-- `allowedCoins`: some coin of `fees` is not among those of `params`. -/
def allowedCoins (params : Coins) : Coins → Result Bool
  | [] => .ok false
  | fee :: fees => do
      let amt ← amountOf env.toSdk params fee.denom
      if amt = 0 then .ok true else allowedCoins params fees

def checkFees (minFee fees : Fee) : Result Unit := do
  let timeoutEnough ← isAnyGTE env minFee.timeoutFee fees.timeoutFee
  ensure timeoutEnough
    (.err "provided timeout fee is less than min governance set timeout fee: insufficient fee")
  let ackEnough ← isAnyGTE env minFee.ackFee fees.ackFee
  ensure ackEnough
    (.err "provided ack fee is less than min governance set ack fee: insufficient fee")
  let timeoutForeign ← allowedCoins env minFee.timeoutFee fees.timeoutFee
  ensure (!timeoutForeign)
    (.err "timeout fee cannot have coins other than in params: invalid coins")
  let ackForeign ← allowedCoins env minFee.ackFee fees.ackFee
  ensure (!ackForeign) (.err "ack fee cannot have coins other than in params: invalid coins")
  ensure (coinsIsZero fees.recvFee) (.err "recv fee must be zero: invalid coins")

/-! ### Records -/

def getFeeInfo (s : State) (packetID : PacketID) : Result FeeInfo :=
  match s.feeInfos.lookup (getFeePacketKey packetID) with
  | none => .error
      (.err "no fee info for the given channelID, portID and sequence: key not found")
  | some feeInfo => .ok feeInfo

def storeFeeInfo (s : State) (feeInfo : FeeInfo) : State :=
  { s with feeInfos := s.feeInfos.insert (getFeePacketKey feeInfo.packetId) feeInfo }

def removeFeeInfo (s : State) (packetID : PacketID) : State :=
  { s with feeInfos := s.feeInfos.erase (getFeePacketKey packetID) }

/-! ### Locking and distributing -/

/-- `LockFees`; `channelFound` is what `GetChannel` says. -/
def lockFees (channelFound : Bool) (s : State) (payer : Address) (packetID : PacketID)
    (fee : Fee) : Result State := do
  ensure channelFound (.err "channel with given id and port not found: channel not found")
  (checkFees env s.minFee fee).mapError (.wrap "failed to lock fees: ")
  let s := storeFeeInfo s ⟨env.bech32 payer, packetID, fee⟩
  let total ← fee.total
  let bank ← (s.bank.sendCoinsFromAccountToModule env.toSdk payer moduleName total).mapError
    (.wrap "failed to send coins during fees locking: ")
  .ok { s with bank := bank }

def distributeFee (bank : Bank) (receiver : Address) (fee : Coins) : Result Bank :=
  (bank.sendCoinsFromModuleToAccount env.toSdk moduleName receiver fee).mapError
    (.wrap "error distributing fee to a receiver: ")

def mustAccAddressFromBech32 (s : Bytes) : Result Address :=
  match env.accAddressFromBech32 s with
  | none => .error (.panic "decoding bech32 failed")
  | some a => .ok a

/-- Pay one fee of a packet to the relayer, and return the other one. -/
def distributeFees (pays returns : Fee → Coins) (errPays errReturns : String) (s : State)
    (receiver : Address) (packetID : PacketID) : Result State := do
  let feeInfo ← (getFeeInfo s packetID).mapError (.raise "no fee info: ")
  let bank ← (distributeFee env s.bank receiver (pays feeInfo.fee)).mapError (.raise errPays)
  let payer ← mustAccAddressFromBech32 env feeInfo.payer
  let bank ← (distributeFee env bank payer (returns feeInfo.fee)).mapError (.raise errReturns)
  .ok (removeFeeInfo { s with bank := bank } packetID)

def distributeAcknowledgementFee : State → Address → PacketID → Result State :=
  distributeFees env (·.ackFee) (·.timeoutFee)
    "error distributing ack fee: " "error distributing unused timeout fee: "

def distributeTimeoutFee : State → Address → PacketID → Result State :=
  distributeFees env (·.timeoutFee) (·.ackFee)
    "error distributing timeout fee: " "error distributing unused ack fee: "

/-! ### Keys -/

/-- Identities that IBC core gives to packets: the channel has no `;` in its name, and the
sequence is a `uint64`. -/
structure PacketID.Proper (p : PacketID) : Prop where
  channel : 59 ∉ p.channelId
  sequence : p.sequence < 2 ^ 64

/-- **Packets do not share records.** -/
lemma getFeePacketKey_inj {p p' : PacketID} (hp : p.Proper) (hp' : p'.Proper)
    (h : getFeePacketKey p = getFeePacketKey p') : p = p' := by
  obtain ⟨c, q, n⟩ := p
  obtain ⟨c', q', n'⟩ := p'
  obtain ⟨rfl, hrest⟩ := Split.append_cons_inj_left hp.channel hp'.channel (List.cons.inj h).2
  -- the number has a fixed length, so the port ends where it does
  obtain ⟨rfl, hnumber⟩ := List.append_inj' hrest (by simp [Encoding.uint64ToBigEndian])
  have hn : n = n' := Encoding.bigEndian_inj hp.sequence hp'.sequence (List.cons.inj hnumber).2
  rw [hn]

/-! ### What the operations do -/

variable {env} {s s' : State}

/-- How much of `d` is held for a fee: `Fee.Total`. -/
def Fee.totalOf (m : Fee) (d : Denom) : ℤ :=
  match m.total with
  | .ok cs => net cs d
  | .error _ => 0

variable {cs : Coins}

lemma net_eq_zero_of_coinsIsZero (h : coinsIsZero cs = true) (d : Denom) : net cs d = 0 := by
  induction cs with
  | nil => rfl
  | cons c cs ih =>
    obtain ⟨hc, hcs⟩ := Bool.and_eq_true_iff.mp h
    have hzero : c.amount = 0 := of_decide_eq_true hc
    rw [net_cons, ih hcs, hzero]
    simp

lemma Fee.totalOf_eq {m : Fee} (h : m.total = .ok cs) (hzero : coinsIsZero m.recvFee = true)
    (d : Denom) : m.totalOf d = net cs d ∧ net cs d = net m.ackFee d + net m.timeoutFee d := by
  refine ⟨by rw [Fee.totalOf, h], ?_⟩
  obtain ⟨sum, hsum, h⟩ := bind_ok h
  rw [(coinsAdd_ok h).1, (coinsAdd_ok hsum).1, net_eq_zero_of_coinsIsZero hzero, zero_add]

lemma checkFees_ok {minFee fees : Fee} {u : Unit} (h : checkFees env minFee fees = .ok u) :
    coinsIsZero fees.recvFee = true := by
  obtain ⟨_, _, _, -, -, -, h⟩ := bind3_ok h
  obtain ⟨_, _, _, -, -, -, h⟩ := bind3_ok h
  obtain ⟨_, _, -, -, h⟩ := bind2_ok h
  exact ensure_ok h

variable {id : PacketID}

/-- **Locking writes one record and takes its fees from the payer.** -/
lemma lockFees_ok {channelFound : Bool} {payer : Address} {fee : Fee}
    (h : lockFees env channelFound s payer id fee = .ok s') :
    s'.feeInfos = s.feeInfos.insert (getFeePacketKey id) ⟨env.bech32 payer, id, fee⟩
      ∧ (∀ d, fee.totalOf d = net fee.ackFee d + net fee.timeoutFee d)
      ∧ ∃ cs, (∀ d, net cs d = fee.totalOf d)
        ∧ Flows (transferred payer feeAccount cs) (fun _ => 0) s.bank s'.bank := by
  obtain ⟨_, _, -, hcheck, h⟩ := bind2_ok h
  obtain ⟨cs, bank, htotal, hsend, h⟩ := bind2_ok h
  cases h
  have hzero := checkFees_ok (mapError_ok hcheck)
  refine ⟨rfl, fun d => ?_, cs, fun d => ?_, ?_⟩
  · obtain ⟨heq, hsum⟩ := Fee.totalOf_eq htotal hzero d
    rw [heq, hsum]
  · exact (Fee.totalOf_eq htotal hzero d).1.symm
  · exact sendCoins_flows (mapError_ok hsend)

variable {receiver : Address}

lemma distributeFee_ok {bank bank' : Bank} {fee : Coins}
    (h : distributeFee env bank receiver fee = .ok bank') :
    receiver ≠ feeAccount ∧ Flows (transferred feeAccount receiver fee) (fun _ => 0) bank bank' := by
  have hsend := mapError_ok h
  unfold Bank.sendCoinsFromModuleToAccount at hsend
  split at hsend
  · cases hsend
  · rename_i hblocked
    refine ⟨?_, sendCoins_flows hsend⟩
    rintro rfl
    exact hblocked env.blockedAddr_feeAccount

/-- **Distributing erases one record and pays its fees**, one to the relayer and one to the
payer. -/
lemma distributeFees_ok {pays returns : Fee → Coins} {e e' : String}
    (h : distributeFees env pays returns e e' s receiver id = .ok s') :
    ∃ info payer, s.feeInfos.lookup (getFeePacketKey id) = some info
      ∧ env.accAddressFromBech32 info.payer = some payer
      ∧ receiver ≠ feeAccount ∧ payer ≠ feeAccount
      ∧ s'.feeInfos = s.feeInfos.erase (getFeePacketKey id)
      ∧ Flows (fun a d => transferred feeAccount receiver (pays info.fee) a d
          + transferred feeAccount payer (returns info.fee) a d) (fun _ => 0) s.bank s'.bank := by
  obtain ⟨info, bank, hinfo, hpays, h⟩ := bind2_ok h
  obtain ⟨payer, bank', hpayer, hreturns, h⟩ := bind2_ok h
  cases h
  have hlookup : s.feeInfos.lookup (getFeePacketKey id) = some info := by
    have hget := mapError_ok hinfo
    unfold getFeeInfo at hget
    split at hget
    · cases hget
    · cases hget
      assumption
  have haddress : env.accAddressFromBech32 info.payer = some payer := by
    unfold mustAccAddressFromBech32 at hpayer
    split at hpayer
    · cases hpayer
    · cases hpayer
      assumption
  obtain ⟨hreceiver, hflow⟩ := distributeFee_ok (mapError_ok hpays)
  obtain ⟨hpayer', hflow'⟩ := distributeFee_ok (mapError_ok hreturns)
  refine ⟨info, payer, hlookup, haddress, hreceiver, hpayer', rfl, ?_⟩
  exact (hflow.trans hflow').congr (fun _ _ => rfl) fun _ => add_zero 0

end MaanyDex.FeeRefunder
