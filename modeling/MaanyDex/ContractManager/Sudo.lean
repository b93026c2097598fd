/-
`SudoLimitWrapper`: a contract is called in a branch of the state, with a gas meter of its own.

The call can end in three ways that the wrapper knows: the contract returns, it returns an
error, or its meter panics.  The last two are the same for the caller: the branch is dropped and
a failure is stored.  A panic that is not about the gas of this meter goes on.

What a contract does is not known, so `Wasm.callSudo` is a parameter: it says how the call ends,
what the branch looks like then, and how much gas was consumed.
-/
import MaanyDex.ContractManager.Failures

namespace MaanyDex.ContractManager

/-! ### Gas -/

/-- `storetypes.GasMeter`, the basic one. -/
structure GasMeter where
  limit : UInt64
  consumed : ℕ

def GasMeter.isOutOfGas (m : GasMeter) : Bool := m.limit.toNat ≤ m.consumed

def GasMeter.gasConsumedToLimit (m : GasMeter) : ℕ := min m.consumed m.limit.toNat

def GasMeter.consumeGas (m : GasMeter) (amount : ℕ) : Result GasMeter := do
  ensure (m.consumed + amount < 2 ^ 64) (.panic "gas overflow")
  ensure (m.consumed + amount ≤ m.limit.toNat) (.panic "out of gas")
  .ok { m with consumed := m.consumed + amount }

lemma GasMeter.consumeGas_of_le {m : GasMeter} {amount : ℕ}
    (h : m.consumed + amount ≤ m.limit.toNat) :
    m.consumeGas amount = .ok { m with consumed := m.consumed + amount } := by
  have hlt : m.consumed + amount < 2 ^ 64 := h.trans_lt m.limit.toNat_lt
  unfold GasMeter.consumeGas
  rw [ensure_eq_ok hlt, Run.ok_bind, ensure_eq_ok h, Run.ok_bind]

/-! ### Calls -/

/-- An error of `x/wasm`, by what is asked of it. -/
structure WasmError where
  /-- `Error()`. -/
  text : Bytes
  /-- `ToSystemError(err) != nil`. -/
  system : Bool
  /-- `ABCIInfo`. -/
  codespace : Bytes
  code : ℕ

/-- `RedactError(err).Error()`. -/
def redactError (err : WasmError) : Bytes :=
  if err.system then err.text
  else ascii "codespace: " ++ err.codespace ++ ascii ", code: " ++ Decimal.formatUint err.code

def errSudoOutOfGas : WasmError where
  text := ascii "sudo handling went beyond the gas limit allowed by the module"
  system := false
  codespace := ascii "contractmanager"
  code := 1103

/-- How a call ends. -/
inductive Ending where
  | returned (resp : Bytes)
  | failed (err : WasmError)
  /-- A panic, and whether it is an `ErrorOutOfGas`. -/
  | panicked (outOfGas : Bool) (text : String)

/-- What a call does: how it ends, the branch of the state, and the gas that its meter counted. -/
structure Call (σ : Type) where
  ending : Ending
  state : σ
  consumed : ℕ

/-- What the wrapper takes from elsewhere. -/
structure Wasm (ι : Type) where
  /-- `AccAddress.String`. -/
  string : Address → Bytes
  /-- `Params.SudoCallGasLimit`. -/
  sudoCallGasLimit : ι → UInt64
  /-- `wasmKeeper.Sudo` in a branch of the state, with a meter that has the given limit. -/
  callSudo : World ι → Address → Bytes → UInt64 → Call (World ι)
  /-- What `GetParams` costs. -/
  getParamsGas : World ι → ℕ
  /-- What `AddContractFailure` costs. -/
  addContractFailureGas : World ι → Failure → ℕ

/-- The event of a failed call. -/
structure SudoEvent where
  contractAddr : Bytes
  failureID : UInt64
  error : Bytes

/-- The state, the meter and the events of a transaction.  The calls are kept for the record, the
last one first. -/
structure Ctx (ι : Type) where
  world : World ι
  gas : GasMeter
  events : List SudoEvent
  calls : List (Address × Bytes)

variable {ι : Type} (wasm : Wasm ι)

def outOfGasRecovery (gasMeter : GasMeter) : Ending → Result (Except WasmError Bytes)
  | .returned resp => .ok (.ok resp)
  | .failed err => .ok (.error err)
  | .panicked outOfGas text =>
    if !outOfGas || !gasMeter.isOutOfGas then .error (.panic text)
    else .ok (.error errSudoOutOfGas)

/-- What is done with the branch: it is written, or it is dropped and a failure is stored. -/
def settle (c : Ctx ι) (contractAddress : Address) (msg : Bytes) (state : World ι) :
    Except WasmError Bytes → Result (Ctx ι)
  | .error err => do
      let failure := newFailure c.world (wasm.string contractAddress) msg (redactError err)
      let gas ← c.gas.consumeGas (wasm.addContractFailureGas c.world failure)
      .ok { c with
        world := storeFailure c.world failure
        gas := gas
        events := c.events ++ [⟨wasm.string contractAddress, failure.id, err.text⟩] }
  | .ok _ => .ok { c with world := state }

variable (w : World ι) (contractAddress : Address) (msg : Bytes)

/-- The call of a contract from a world, with the limit that the parameters have. -/
def Wasm.callIn : Call (World ι) :=
  wasm.callSudo w contractAddress msg (wasm.sudoCallGasLimit w.outside)

/-- `SudoLimitWrapper.Sudo`. -/
def Wasm.limitedSudo (c : Ctx ι) (contractAddress : Address) (msg : Bytes) :
    Result (Ctx ι × Except WasmError Bytes) := do
  let gas ← c.gas.consumeGas (wasm.getParamsGas c.world)
  let call := wasm.callIn c.world contractAddress msg
  let cacheMeter : GasMeter := ⟨wasm.sudoCallGasLimit c.world.outside, call.consumed⟩
  let result ← outOfGasRecovery cacheMeter call.ending
  let c ← settle wasm { c with gas := gas, calls := (contractAddress, msg) :: c.calls }
    contractAddress msg call.state result
  let gas ← c.gas.consumeGas cacheMeter.gasConsumedToLimit
  .ok ({ c with gas := gas }, result)

/-! ### What a call does -/

/-- The contract returns, it returns an error, or it exhausts its gas. -/
def Call.Ends {σ : Type} (call : Call σ) (limit : UInt64) : Prop :=
  match call.ending with
  | .returned _ => True
  | .failed _ => True
  | .panicked outOfGas _ => outOfGas = true ∧ limit.toNat ≤ call.consumed

/-- What the caller gets from such a call. -/
def Call.result {σ : Type} (call : Call σ) : Except WasmError Bytes :=
  match call.ending with
  | .returned resp => .ok resp
  | .failed err => .error err
  | .panicked _ _ => .error errSudoOutOfGas

/-- What it costs to store a failure, if there is one. -/
def Wasm.settleGas :
    Except WasmError Bytes → ℕ
  | .ok _ => 0
  | .error err => wasm.addContractFailureGas w
      (newFailure w (wasm.string contractAddress) msg (redactError err))

/-- The world after a call: the one that the contract made, or the one from before with a
failure. -/
def Wasm.settledWorld (state : World ι) :
    Except WasmError Bytes → World ι
  | .ok _ => state
  | .error err => addContractFailure w (wasm.string contractAddress) msg (redactError err)

/-- The gas of the transaction that a call needs. -/
def Wasm.gasOf : ℕ :=
  let call := wasm.callIn w contractAddress msg
  wasm.getParamsGas w + wasm.settleGas w contractAddress msg call.result
    + min call.consumed (wasm.sudoCallGasLimit w.outside).toNat

/-- The world after the call of a contract. -/
def Wasm.worldAfter : World ι :=
  let call := wasm.callIn w contractAddress msg
  wasm.settledWorld w contractAddress msg call.state call.result

variable {wasm} {c : Ctx ι} {contractAddress : Address} {msg : Bytes}

lemma outOfGasRecovery_of_ends {σ : Type} {call : Call σ} {limit : UInt64} (h : call.Ends limit) :
    outOfGasRecovery ⟨limit, call.consumed⟩ call.ending = .ok call.result := by
  unfold Call.Ends at h
  unfold Call.result
  rcases hending : call.ending with resp | err | ⟨outOfGas, text⟩
  · rfl
  · rfl
  · rw [hending] at h
    obtain ⟨rfl, hle⟩ := h
    simp [outOfGasRecovery, GasMeter.isOutOfGas, hle]

lemma settle_of_le (wasm : Wasm ι) (c : Ctx ι) (contractAddress : Address) (msg : Bytes)
    (state : World ι) (result : Except WasmError Bytes)
    (h : c.gas.consumed + wasm.settleGas c.world contractAddress msg result ≤ c.gas.limit.toNat) :
    ∃ c', settle wasm c contractAddress msg state result = .ok c'
      ∧ c'.world = wasm.settledWorld c.world contractAddress msg state result
      ∧ c'.gas = { c.gas with
        consumed := c.gas.consumed + wasm.settleGas c.world contractAddress msg result }
      ∧ c'.calls = c.calls := by
  rcases result with err | resp
  · unfold settle
    dsimp only [Wasm.settleGas] at h ⊢
    rw [GasMeter.consumeGas_of_le h]
    exact ⟨_, rfl, rfl, rfl, rfl⟩
  · exact ⟨_, rfl, rfl, rfl, rfl⟩

/-- **A call returns to its caller**, however the contract behaves, if the gas of the transaction
suffices.  The contract is called once. -/
lemma limitedSudo_of_ends (wasm : Wasm ι) (c : Ctx ι)
    (hends : (wasm.callIn c.world contractAddress msg).Ends (wasm.sudoCallGasLimit c.world.outside))
    (hgas : c.gas.consumed + wasm.gasOf c.world contractAddress msg ≤ c.gas.limit.toNat) :
    ∃ c', wasm.limitedSudo c contractAddress msg
        = .ok (c', (wasm.callIn c.world contractAddress msg).result)
      ∧ c'.world = wasm.worldAfter c.world contractAddress msg
      ∧ c'.calls = (contractAddress, msg) :: c.calls := by
  dsimp only [Wasm.gasOf] at hgas
  unfold Wasm.limitedSudo
  dsimp only
  rw [GasMeter.consumeGas_of_le (by omega), Run.ok_bind, outOfGasRecovery_of_ends hends,
    Run.ok_bind]
  obtain ⟨c₁, hc₁, hworld, hmeter, hcalls⟩ := settle_of_le wasm
    { c with
      gas := { c.gas with consumed := c.gas.consumed + wasm.getParamsGas c.world }
      calls := (contractAddress, msg) :: c.calls }
    contractAddress msg (wasm.callIn c.world contractAddress msg).state
    (wasm.callIn c.world contractAddress msg).result (by dsimp only; omega)
  rw [hc₁, Run.ok_bind, GasMeter.consumeGas_of_le]
  · exact ⟨_, rfl, hworld, hcalls⟩
  · rw [hmeter]
    dsimp only [GasMeter.gasConsumedToLimit]
    omega

/-! ### Failures -/

/-- Failures are stored where they belong. -/
def Keyed : Prop := ∀ k f, w.failures.lookup k = some f → f.key = k

variable {w : World ι}

lemma Initial.keyed (h : Initial w) : Keyed w := by
  intro k f hf
  rw [h.failures, AList.lookup_empty] at hf
  cases hf

lemma Keyed.store (h : Keyed w) (failure : Failure) : Keyed (storeFailure w failure) := by
  intro k f hf
  have hf' : (w.failures.insert failure.key failure).lookup k = some f := hf
  by_cases hk : k = failure.key
  · rw [hk, AList.lookup_insert] at hf'
    rw [hk, Option.some.inj hf']
  · rw [AList.lookup_insert_ne hk] at hf'
    exact h k f hf'

lemma Keyed.remove (h : Keyed w) (address : Bytes) (id : UInt64) :
    Keyed (removeFailure w address id) := by
  intro k f hf
  have hf' : (w.failures.erase (address, id)).lookup k = some f := hf
  by_cases hk : k = (address, id)
  · rw [hk, AList.lookup_erase] at hf'
    cases hf'
  · rw [AList.lookup_erase_ne hk] at hf'
    exact h k f hf'

/-- Contracts may do what they like: failures stay where they belong. -/
lemma keyed_invariant (chain : Chain ι) :
    Callbacks.Invariant (system chain) (fun _ _ _ => True) (fun _ w => Keyed w) where
  done h _ he := by
    cases enter_ok he with
    | add => exact h.store _
    | elsewhere => exact h
  call h _ he := by
    cases enter_ok he with
    | resubmit => exact h
    | execute => exact h
  back _ _ hcall h he := by
    cases enter_ok hcall with
    | resubmit =>
      cases he
      exact h.remove _ _
    | execute =>
      cases he
      exact h

/-- **Failures stay where they belong in every run.** -/
lemma Keyed.run (h : Keyed w) (chain : Chain ι)
    (scripts : List (Callbacks.Script (Msg ι))) : Keyed (Run.run (step chain) w scripts) := by
  refine Run.run_invariant (C := fun _ _ => True) h ?_ (Run.along_of_forall fun _ _ _ => trivial)
  intro s script s' hI _ he
  exact (keyed_invariant chain).exec (Callbacks.meets_true script [] s) hI he

/-- A new failure replaces no other one, unless the ids of its contract are used up. -/
lemma Keyed.lookup_newFailure (h : Keyed w) {address sudoPayload errMsg : Bytes}
    (hids : ∀ id, w.failures.lookup (address, id) ≠ none → id.toNat + 1 < 2 ^ 64) :
    w.failures.lookup (newFailure w address sudoPayload errMsg).key = none := by
  show w.failures.lookup (address, getNextFailureIDKey w address) = none
  rcases hstored : w.failures.lookup (address, getNextFailureIDKey w address) with - | f
  · rfl
  · exfalso
    have hmem := mem_addressFailures.mpr ⟨_, hstored⟩
    have hid : f.id = getNextFailureIDKey w address := congrArg Prod.snd (h _ _ hstored)
    unfold getNextFailureIDKey at hid
    split at hid
    · rename_i val hval
      -- the id that is given is larger than the largest one
      obtain ⟨id, hval'⟩ := mem_addressFailures.mp (List.argmax_mem hval)
      have hvalid : val.id = id := congrArg Prod.snd (h _ _ hval')
      have hlt := hids id (by rw [hval']; exact Option.some_ne_none _)
      have hmax : f.id.toNat ≤ val.id.toNat :=
        List.le_of_mem_argmax (f := fun failure : Failure => failure.id.toNat) hmem hval
      rw [hid, UInt64.toNat_add, hvalid] at hmax
      have hsucc : (id.toNat + 1) % 2 ^ 64 = id.toNat + 1 := Nat.mod_eq_of_lt hlt
      have hone : (1 : UInt64).toNat = 1 := rfl
      omega
    · rename_i hnone
      rw [List.argmax_eq_none.mp hnone] at hmem
      cases hmem

end MaanyDex.ContractManager
