/-
`x/contractmanager`: the failures of sudo calls, and their resubmission.

A failure is stored under the address of the contract, a slash and its id in eight bytes.
Addresses have no slash, so failures are kept by address and id here, and the last key of a
contract is the one with the largest id.

`ResubmitFailure` calls the contract, so it is cut in two, `enter` and `leave`.
-/
import MaanyDex.Lib.Callbacks
import MaanyDex.Sdk.Dec

namespace MaanyDex.ContractManager

/-- `Failure`.  An empty payload is read back from the store as `nil`. -/
structure Failure where
  address : Bytes
  id : UInt64
  sudoPayload : Bytes
  error : Bytes
  deriving DecidableEq

/-- Where a failure is stored. -/
def Failure.key (failure : Failure) : Bytes × UInt64 := (failure.address, failure.id)

structure Chain (ι : Type) where
  accAddressFromBech32 : Bytes → Option Address
  /-- `AccAddress.String`. -/
  string : Address → Bytes
  /-- `wasmKeeper.HasContractInfo`. -/
  hasContractInfo : ι → Address → Bool

/-- The state of the module.  The last two are kept for the record: the failures that were
stored, and those that were delivered again; the last one first. -/
structure World (ι : Type) where
  /-- The other modules and the contracts. -/
  outside : ι
  /-- `ContractFailuresKey`. -/
  failures : AList fun _ : Bytes × UInt64 => Failure
  handed : List Failure
  redelivered : List Failure

variable {ι : Type} (chain : Chain ι)

/-! ### Failures -/

variable (w : World ι)

def addressFailures (address : Bytes) : List Failure :=
  (w.failures.entries.filter fun e => e.1.1 = address).map fun e => e.2

/-- `GetNextFailureIDKey`: the largest id that is stored, and one. -/
def getNextFailureIDKey (address : Bytes) : UInt64 :=
  match (addressFailures w address).argmax fun failure => failure.id.toNat with
  | some val => val.id + 1
  | none => 0

variable (address sudoPayload errMsg : Bytes)

/-- The failure that `AddContractFailure` stores. -/
def newFailure : Failure where
  address := address
  id := getNextFailureIDKey w address
  sudoPayload := sudoPayload
  error := errMsg

def storeFailure (failure : Failure) : World ι :=
  { w with
    failures := w.failures.insert failure.key failure
    handed := failure :: w.handed }

def addContractFailure : World ι :=
  storeFailure w (newFailure w address sudoPayload errMsg)

variable (contractAddr : Address)

def getFailure (id : UInt64) : Result Failure :=
  match w.failures.lookup (chain.string contractAddr, id) with
  | none => .error (.errf ("no failure found for contractAddress = %s and failureId = "
      ++ toString id.toNat ++ ": key not found") (chain.string contractAddr))
  | some failure => .ok failure

def removeFailure (address : Bytes) (id : UInt64) : World ι :=
  { w with failures := w.failures.erase (address, id) }

/-! ### Resubmission -/

/-- Where a handler waits for a contract. -/
inductive Callback where
  /-- Nothing is left to do. -/
  | contract
  /-- `wasmKeeper.Sudo` in `resubmitFailure`. -/
  | resubmission (address : Bytes) (id : UInt64)

/-- `resubmitFailure` up to the call. -/
def resubmitFailure (failure : Failure) : Result (World ι × Option Callback) := do
  ensure (failure.sudoPayload ≠ [])
    (.err ("cannot resubmit failure without sudo payload; failureId = "
      ++ toString failure.id.toNat ++ ": incorrect failure to resubmit"))
  .ok ({ w with redelivered := failure :: w.redelivered },
    some (.resubmission (chain.string contractAddr) failure.id))

structure MsgResubmitFailure where
  sender : Bytes
  failureId : UInt64

/-- `AccAddressFromBech32`, with the error of the caller. -/
def parseAddress (s : Bytes) (text : String) : Result Address :=
  match chain.accAddressFromBech32 s with
  | none => .error (.err text)
  | some a => .ok a

/-- `ResubmitFailure` up to the call. -/
def MsgResubmitFailure.handle (req : MsgResubmitFailure) : Result (World ι × Option Callback) := do
  ensure (chain.accAddressFromBech32 req.sender).isSome
    (.err "failed to validate MsgResubmitFailure: sender is invalid")
  let sender ← parseAddress chain req.sender
    "sender in resubmit request is not in correct address format"
  ensure (chain.hasContractInfo w.outside sender)
    (.err ("sender in resubmit request is not a smart contract: failures resubmission "
      ++ "is only allowed to be called by a smart contract"))
  let failure ← (getFailure chain w sender req.failureId).mapError
    fun _ => .err "no failure with given FailureId found to resubmit: not found"
  resubmitFailure chain w sender failure

/-- `CustomMessenger.resubmitFailure`: the query `AddressFailure`, and then the message. -/
def bindingResubmitFailure (failureId : UInt64) : Result (World ι × Option Callback) := do
  let addr ← (parseAddress chain (chain.string contractAddr) "invalid address").mapError
    (.wrap "no failure with given FailureId found to resubmit: ")
  let _ ← (getFailure chain w addr failureId).mapError
    (.wrap "no failure with given FailureId found to resubmit: ")
  (MsgResubmitFailure.handle chain w ⟨chain.string contractAddr, failureId⟩).mapError
    (.wrap "failed to resubmitFailure: ")

/-! ### Runs -/

/-- What can happen in a transaction. -/
inductive Msg (ι : Type) where
  /-- A sudo call failed. -/
  | addContractFailure (address sudoPayload errMsg : Bytes)
  | resubmitFailure (req : MsgResubmitFailure)
  /-- A contract resubmits a failure. -/
  | bindingResubmitFailure (contractAddr : Address) (failureId : UInt64)
  /-- A contract is called; what it does is rolled back if it fails. -/
  | execute
  /-- Other modules do something. -/
  | elsewhere (outside : ι)

/-- Handle a message up to the call of a contract. -/
def enter : Msg ι → Result (World ι × Option Callback)
  | .addContractFailure address sudoPayload errMsg =>
    .ok (addContractFailure w address sudoPayload errMsg, none)
  | .resubmitFailure req => req.handle chain w
  | .bindingResubmitFailure contractAddr failureId =>
    bindingResubmitFailure chain w contractAddr failureId
  | .execute => .ok (w, some .contract)
  | .elsewhere outside => .ok ({ w with outside := outside }, none)

/-- What is done after the call: a failure that was resubmitted is removed. -/
def leave : Callback → World ι → Result (World ι)
  | .contract, w => .ok w
  | .resubmission address id, w => .ok (removeFailure w address id)

/-- The module and the contracts that it calls. -/
def system : Callbacks.System (World ι) (Msg ι) Callback Fault where
  enter := enter chain
  leave := leave
  rejected := .err "contract failed"
  failed
    | .contract, e => e
    | .resubmission _ id, e =>
      e.wrap ("cannot resubmit failure; failureId = " ++ toString id.toNat
        ++ "; failed to resubmit failure; err = ")
  fatal _ := false

/-- `SudoLimitWrapper.Sudo`: the contract does `inner` in a state of its own, and if it fails,
what it did is dropped and a failure is stored.  The caller goes on with `onOk` or `onErr`. -/
def sudoLimitWrapper (inner onOk onErr : Callbacks.Script (Msg ι)) : Callbacks.Script (Msg ι) :=
  .send .execute inner onOk
    (.send (.addContractFailure address sudoPayload errMsg) .accept onErr onErr)

def step (script : Callbacks.Script (Msg ι)) : Result (World ι) :=
  Callbacks.exec (system chain) script w

/-- A module without failures. -/
structure Initial (w : World ι) : Prop where
  failures : w.failures = ∅
  handed : w.handed = []
  redelivered : w.redelivered = []

end MaanyDex.ContractManager
