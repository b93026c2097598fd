/-
`x/cron`: the registry of schedules, their execution at the two ends of a block, the message
server, and the messages of `wasmbinding` by which contracts add and remove schedules.

A stage of a block reads the list of the schedules that are due once, and then executes them
one after another.  The contracts that are called may change the registry meanwhile; what they
do is a script over the messages of the module, and it may depend on the state in which they are
called.  Contracts can do anything else (`elsewhere`), and `ι` is the state of everything else.
-/
import MaanyDex.Lib.Callbacks
import MaanyDex.Sdk.Dec

namespace MaanyDex.Cron

/-! ### Types -/

structure MsgExecuteContract where
  contract : Bytes
  msg : Bytes
  deriving DecidableEq

/-- `ExecutionStage`, with the numbers that have no name. -/
inductive ExecutionStage where
  | endBlocker
  | beginBlocker
  | unnamed (value : Int32)
  deriving DecidableEq

/-- Is there an entry of `ExecutionStage_name`? -/
def ExecutionStage.named : ExecutionStage → Bool
  | .unnamed _ => false
  | _ => true

/-- `ExecutionStage_value`; Go reads zero where a map has no entry. -/
def executionStageValue (text : Bytes) : ExecutionStage :=
  if text = ascii "EXECUTION_STAGE_BEGIN_BLOCKER" then .beginBlocker else .endBlocker

structure Schedule where
  name : Bytes
  /-- In blocks. -/
  period : UInt64
  msgs : List MsgExecuteContract
  lastExecuteHeight : UInt64
  executionStage : ExecutionStage
  deriving DecidableEq

structure Params where
  securityAddress : Bytes
  limit : UInt64

structure Chain (ι : Type) where
  accAddressFromBech32 : Bytes → Option Address
  /-- The address of the admin module, which is also the authority of the keeper. -/
  authority : Bytes
  /-- `AdminKeeper.GetAdmins`. -/
  getAdmins : ι → List Bytes

/-- What happens to a schedule. -/
inductive Action where
  | added (name : Bytes)
  | removed (name : Bytes)
  | executed (name : Bytes)
  deriving DecidableEq

/-- The state of the module.  The log is kept for the record: it lists the actions since the
beginning of the block, the last one first. -/
structure World (ι : Type) where
  /-- The other modules and the contracts. -/
  outside : ι
  params : Params
  /-- `ScheduleKey`. -/
  schedules : Std.ExtTreeMap Bytes Schedule
  /-- `ScheduleCountKey`. -/
  count : Int32
  /-- The height of the block, as `uint64`. -/
  height : UInt64
  log : List Action

variable {ι : Type} (chain : Chain ι)

/-! ### The registry -/

variable (w : World ι)

def storeSchedule (schedule : Schedule) : World ι :=
  { w with schedules := w.schedules.insert schedule.name schedule }

def scheduleExists (name : Bytes) : Bool := w.schedules.contains name

def changeTotalCount (incrementAmount : Int32) : World ι :=
  { w with count := w.count + incrementAmount }

/-- Keep an action for the record. -/
def record (action : Action) : World ι := { w with log := action :: w.log }

/-- The store without a schedule (`removeSchedule` of the keeper). -/
def deleteSchedule (name : Bytes) : World ι :=
  { w with schedules := w.schedules.erase name }

section Fields

variable (schedule : Schedule) (action : Action) (incrementAmount : Int32) (name : Bytes)

@[simp] lemma storeSchedule_schedules :
    (storeSchedule w schedule).schedules = w.schedules.insert schedule.name schedule := rfl

@[simp] lemma storeSchedule_count : (storeSchedule w schedule).count = w.count := rfl

@[simp] lemma storeSchedule_log : (storeSchedule w schedule).log = w.log := rfl

@[simp] lemma changeTotalCount_schedules :
    (changeTotalCount w incrementAmount).schedules = w.schedules := rfl

@[simp] lemma changeTotalCount_count :
    (changeTotalCount w incrementAmount).count = w.count + incrementAmount := rfl

@[simp] lemma changeTotalCount_log : (changeTotalCount w incrementAmount).log = w.log := rfl

@[simp] lemma deleteSchedule_schedules :
    (deleteSchedule w name).schedules = w.schedules.erase name := rfl

@[simp] lemma deleteSchedule_count : (deleteSchedule w name).count = w.count := rfl

@[simp] lemma deleteSchedule_log : (deleteSchedule w name).log = w.log := rfl

@[simp] lemma record_schedules : (record w action).schedules = w.schedules := rfl

@[simp] lemma record_count : (record w action).count = w.count := rfl

@[simp] lemma record_log : (record w action).log = action :: w.log := rfl

end Fields

/-- The schedule that `AddSchedule` stores. -/
def newSchedule (name : Bytes) (period : UInt64) (msgs : List MsgExecuteContract)
    (executionStage : ExecutionStage) : Schedule where
  name := name
  period := period
  msgs := msgs
  lastExecuteHeight := w.height
  executionStage := executionStage

def addSchedule (name : Bytes) (period : UInt64) (msgs : List MsgExecuteContract)
    (executionStage : ExecutionStage) : Result (World ι) := do
  ensure (!scheduleExists w name) (.errf "schedule already exists with name=%v" name)
  let w' := changeTotalCount (storeSchedule w (newSchedule w name period msgs executionStage)) 1
  .ok (record w' (.added name))

def removeSchedule (name : Bytes) : World ι :=
  if scheduleExists w name then
    record (deleteSchedule (changeTotalCount w (-1)) name) (.removed name)
  else w

/-- `GetAllSchedules`, in the order of the store. -/
def getAllSchedules : List Schedule := w.schedules.toList.map Prod.snd

/-! ### The message server -/

structure MsgAddSchedule where
  authority : Bytes
  name : Bytes
  period : UInt64
  msgs : List MsgExecuteContract
  executionStage : ExecutionStage

def MsgAddSchedule.validate (msg : MsgAddSchedule) : Result Unit := do
  ensure (chain.accAddressFromBech32 msg.authority).isSome (.err "authority is invalid")
  ensure (msg.name ≠ []) (.err "name is invalid: invalid request")
  ensure (msg.period ≠ 0) (.err "period is invalid: invalid request")
  ensure (msg.msgs ≠ []) (.err "msgs should not be empty: invalid request")
  ensure msg.executionStage.named (.err "execution stage is invalid: invalid request")

structure MsgRemoveSchedule where
  authority : Bytes
  name : Bytes

def MsgRemoveSchedule.validate (msg : MsgRemoveSchedule) : Result Unit := do
  ensure (chain.accAddressFromBech32 msg.authority).isSome (.err "authority is invalid")
  ensure (msg.name ≠ []) (.err "name is invalid: invalid request")

structure MsgUpdateParams where
  authority : Bytes
  params : Params

/-- `MsgUpdateParams.Validate`; the limit is not looked at. -/
def MsgUpdateParams.validate (msg : MsgUpdateParams) : Result Unit := do
  ensure (chain.accAddressFromBech32 msg.authority).isSome (.err "authority is invalid")
  ensure (chain.accAddressFromBech32 msg.params.securityAddress).isSome
    (.err "security_address is invalid")

/-- The check of the authority in every handler. -/
def authorized (authority : Bytes) : Result Unit :=
  ensure (chain.authority = authority)
    (.errf "invalid authority; got %s: invalid request" authority)

/-- `AddSchedule` of the message server. -/
def MsgAddSchedule.handle (req : MsgAddSchedule) : Result (World ι) := do
  (req.validate chain).mapError (.wrap "failed to validate MsgAddSchedule: ")
  authorized chain req.authority
  (addSchedule w req.name req.period req.msgs req.executionStage).mapError
    (.wrap "failed to add schedule: ")

/-- `RemoveSchedule` of the message server. -/
def MsgRemoveSchedule.handle (req : MsgRemoveSchedule) : Result (World ι) := do
  (req.validate chain).mapError (.wrap "failed to validate MsgRemoveSchedule: ")
  authorized chain req.authority
  .ok (removeSchedule w req.name)

/-- `UpdateParams` of the message server. -/
def MsgUpdateParams.handle (req : MsgUpdateParams) : Result (World ι) := do
  (req.validate chain).mapError (.wrap "failed to validate MsgUpdateParams: ")
  authorized chain req.authority
  .ok { w with params := req.params }

/-! ### The messages of contracts -/

/-- `bindings.AddSchedule`. -/
structure BindingAddSchedule where
  name : Bytes
  period : UInt64
  msgs : List MsgExecuteContract
  executionStage : Bytes

def isAdmin (contractAddr : Bytes) : Bool :=
  (chain.getAdmins w.outside).contains contractAddr

/-- `CustomMessenger.addSchedule`; its error also has the name of the schedule. -/
def BindingAddSchedule.handle (w : World ι) (contractAddr : Bytes) (msg : BindingAddSchedule) :
    Result (World ι) := do
  ensure (isAdmin chain w contractAddr) (.err "only admin can add schedule: unauthorized")
  (MsgAddSchedule.handle chain w
    { authority := chain.authority
      name := msg.name
      period := msg.period
      msgs := msg.msgs
      executionStage := executionStageValue msg.executionStage }).mapError
    (.wrap "failed to add schedule: ")

/-- `CustomMessenger.removeSchedule`; its error also has the name of the schedule. -/
def bindingRemoveSchedule (contractAddr name : Bytes) : Result (World ι) := do
  ensure (isAdmin chain w contractAddr || contractAddr = w.params.securityAddress)
    (.err "only admin or security dao can remove schedule: unauthorized")
  (MsgRemoveSchedule.handle chain w { authority := chain.authority, name := name }).mapError
    (.wrap "failed to remove schedule: ")

/-- What transactions and contracts can send. -/
inductive Msg (ι : Type) where
  | addSchedule (req : MsgAddSchedule)
  | removeSchedule (req : MsgRemoveSchedule)
  | updateParams (req : MsgUpdateParams)
  /-- A contract adds a schedule. -/
  | bindingAddSchedule (contractAddr : Bytes) (msg : BindingAddSchedule)
  /-- A contract removes a schedule. -/
  | bindingRemoveSchedule (contractAddr name : Bytes)
  /-- A contract is called; what it does is rolled back if it fails. -/
  | execute
  /-- Other modules do something. -/
  | elsewhere (outside : ι)

/-- Handle a message up to the call of a contract. -/
def enter : Msg ι → Result (World ι × Option Unit)
  | .addSchedule req => (req.handle chain w).map (·, none)
  | .removeSchedule req => (req.handle chain w).map (·, none)
  | .updateParams req => (req.handle chain w).map (·, none)
  | .bindingAddSchedule contractAddr msg => (msg.handle chain w contractAddr).map (·, none)
  | .bindingRemoveSchedule contractAddr name =>
    (bindingRemoveSchedule chain w contractAddr name).map (·, none)
  | .execute => .ok (w, some ())
  | .elsewhere outside => .ok ({ w with outside := outside }, none)

/-- The module and the contracts that send it messages. -/
def system : Callbacks.System (World ι) (Msg ι) Unit Fault where
  enter := enter chain
  leave _ w := .ok w
  rejected := .err "contract failed"
  failed _ e := e
  fatal _ := false

/-- What contracts do with a message in a state. -/
abbrev Contracts (ι : Type) := World ι → MsgExecuteContract → Callbacks.Script (Msg ι)

/-! ### The stages of a block -/

/-- `intervalPassed`; the sum is one of `uint64`. -/
def intervalPassed (schedule : Schedule) : Bool :=
  schedule.lastExecuteHeight + schedule.period < w.height

/-- The loop of `getSchedulesReadyForExecution`, when `count` schedules were found. -/
def readyFrom (w : World ι) (executionStage : ExecutionStage) :
    UInt64 → List Schedule → List Schedule
  | _, [] => []
  | count, schedule :: rest =>
    if intervalPassed w schedule && schedule.executionStage = executionStage then
      if w.params.limit ≤ count + 1 then [schedule]
      else schedule :: readyFrom w executionStage (count + 1) rest
    else readyFrom w executionStage count rest

def getSchedulesReadyForExecution (executionStage : ExecutionStage) : List Schedule :=
  readyFrom w executionStage 0 (getAllSchedules w)

variable (contracts : Contracts ι) (w : World ι)

def executeContract (msg : MsgExecuteContract) : Result (World ι) :=
  Callbacks.exec (system chain) (contracts w msg) w

/-- `executeSchedule` up to the messages: the schedule is stored as it was read, with the new
height. -/
def startSchedule (schedule : Schedule) : World ι :=
  record (storeSchedule w { schedule with lastExecuteHeight := w.height }) (.executed schedule.name)

def executeSchedule (schedule : Schedule) : World ι × Result Unit :=
  match schedule.msgs.foldlM (executeContract chain contracts) (startSchedule w schedule) with
  | .ok w' => (w', .ok ())
  | .error e => (startSchedule w schedule, .error e)

/-- The loop of `ExecuteReadySchedules`. -/
def executeSchedules : List Schedule → World ι → World ι
  | [], w => w
  | schedule :: rest, w => executeSchedules rest (executeSchedule chain contracts w schedule).1

def executeReadySchedules (executionStage : ExecutionStage) : World ι :=
  executeSchedules chain contracts (getSchedulesReadyForExecution w executionStage) w

/-- The calls of `executeSchedule`: the states and the schedules. -/
def executions : List Schedule → World ι → List (World ι × Schedule)
  | [], _ => []
  | schedule :: rest, w =>
    (w, schedule) :: executions rest (executeSchedule chain contracts w schedule).1

/-! ### Runs -/

structure GenesisState where
  scheduleList : List Schedule
  params : Params

/-- `InitGenesis`; the heights of the last executions are not taken over. -/
def initGenesis (genState : GenesisState) : Result (World ι) := do
  let w' ← (genState.scheduleList.foldlM (fun w elem =>
    addSchedule w elem.name elem.period elem.msgs elem.executionStage) w).mapError (.raise "")
  .ok { w' with params := genState.params }

inductive Event (ι : Type) where
  | beginBlock (height : UInt64) (contracts : Contracts ι)
  /-- A transaction: everything that its messages make contracts do is in its script. -/
  | tx (script : Callbacks.Script (Msg ι))
  | endBlock (contracts : Contracts ι)

/-- The state in which the beginning of a block finds the module. -/
def enterBlock (height : UInt64) : World ι := { w with height := height, log := [] }

/-- One transaction, or one end of a block. -/
def step : Event ι → Result (World ι)
  | .beginBlock height contracts =>
    .ok (executeReadySchedules chain contracts (enterBlock w height) .beginBlocker)
  | .tx script => Callbacks.exec (system chain) script w
  | .endBlock contracts => .ok (executeReadySchedules chain contracts w .endBlocker)

/-- The schedules that an event executes, each with the state in which it does. -/
def Event.executions (w : World ι) : Event ι → List (Contracts ι × World ι × Schedule)
  | .beginBlock height contracts =>
    (Cron.executions chain contracts
      (getSchedulesReadyForExecution (enterBlock w height) .beginBlocker)
      (enterBlock w height)).map (contracts, ·)
  | .tx _ => []
  | .endBlock contracts =>
    (Cron.executions chain contracts (getSchedulesReadyForExecution w .endBlocker) w).map
      (contracts, ·)

end MaanyDex.Cron
