/-
`x/epochs`: epochs of a fixed length, counted at the beginning of blocks.

A block starts at most one epoch of an identifier, and an epoch starts when the one before it is
over.  So the hooks see every epoch end and the next one start, in order and never early
(`epochs_in_order`); and if blocks are not further apart than an epoch is long, never late either
(`epochs_on_time`).  After a longer halt, every block catches up by one epoch.

Times are nanoseconds since the zero `time.Time`.  `σ` is the state of the modules with hooks.
-/
import MaanyDex.Sdk.Dec

namespace MaanyDex.Epochs

open Std.ExtTreeMap

/-- `EpochInfo`, without the identifier: that is the key of the store. -/
structure EpochInfo where
  startTime : ℤ
  duration : ℤ
  currentEpoch : ℤ
  currentEpochStartTime : ℤ
  epochCountingStarted : Bool
  currentEpochStartHeight : ℤ
  deriving DecidableEq

inductive Call where
  | afterEpochEnd (identifier : Bytes) (epochNumber : ℤ)
  | beforeEpochStart (identifier : Bytes) (epochNumber : ℤ)
  deriving DecidableEq

def Call.identifier : Call → Bytes
  | .afterEpochEnd identifier _ => identifier
  | .beforeEpochStart identifier _ => identifier

/-- The calls are kept for the record. -/
structure World (σ : Type) where
  epochs : Std.ExtTreeMap Bytes EpochInfo
  blockTime : ℤ
  blockHeight : ℤ
  outside : σ
  calls : List Call

variable {σ : Type} (hooks : List (σ → Call → Result σ)) (w : World σ)

/-- `MultiEpochHooks`.  Each hook works on a branch of the state, which is dropped when it fails or
panics (`ApplyFuncIfNoError`); at the beginning of a block it cannot run out of gas. -/
def call (c : Call) : World σ :=
  { w with
    outside := Run.run (fun s hook => hook s c) w.outside hooks
    calls := w.calls ++ [c] }

variable (identifier : Bytes)

/-- The end of an iteration of `BeginBlocker`. -/
def startEpoch (epochInfo : EpochInfo) : World σ :=
  call hooks { w with epochs := w.epochs.insert identifier epochInfo }
    (.beforeEpochStart identifier epochInfo.currentEpoch)

/-- An iteration of `BeginBlocker`. -/
def beginEpoch (e : Bytes × EpochInfo) : World σ :=
  if w.blockTime < e.2.startTime then w
  else if e.2.epochCountingStarted = false then
    startEpoch hooks w e.1 { e.2 with
      currentEpochStartHeight := w.blockHeight
      epochCountingStarted := true
      currentEpoch := 1
      currentEpochStartTime := e.2.startTime }
  else if e.2.currentEpochStartTime + e.2.duration < w.blockTime then
    startEpoch hooks (call hooks w (.afterEpochEnd e.1 e.2.currentEpoch)) e.1 { e.2 with
      currentEpochStartHeight := w.blockHeight
      currentEpoch := e.2.currentEpoch + 1
      currentEpochStartTime := e.2.currentEpochStartTime + e.2.duration }
  else w

def beginBlocker : World σ := w.epochs.toList.foldl (beginEpoch hooks) w

structure Block where
  time : ℤ
  height : ℤ

/-- The next block.  Block times do not decrease. -/
def step (b : Block) : Result (World σ) := do
  ensure (w.blockTime ≤ b.time) (.err "block time decreases")
  .ok (beginBlocker hooks { w with blockTime := b.time, blockHeight := b.height })

/-! ### What a block does to one epoch -/

/-- The epoch after a block. -/
def tick (time height : ℤ) (info : EpochInfo) : EpochInfo :=
  if time < info.startTime then info
  else if info.epochCountingStarted = false then
    ⟨info.startTime, info.duration, 1, info.startTime, true, height⟩
  else if info.currentEpochStartTime + info.duration < time then
    ⟨info.startTime, info.duration, info.currentEpoch + 1,
      info.currentEpochStartTime + info.duration, true, height⟩
  else info

/-- What the hooks are told about it. -/
def told (time : ℤ) (info : EpochInfo) : List Call :=
  if time < info.startTime then []
  else if info.epochCountingStarted = false then [.beforeEpochStart identifier 1]
  else if info.currentEpochStartTime + info.duration < time then
    [.afterEpochEnd identifier info.currentEpoch,
      .beforeEpochStart identifier (info.currentEpoch + 1)]
  else []

/-- What the hooks were told about an identifier. -/
def callsOf : List Call :=
  w.calls.filter (·.identifier = identifier)

variable {w : World σ} {identifier : Bytes} {info : EpochInfo}

lemma beginEpoch_self (h : w.epochs[identifier]? = some info) :
    (beginEpoch hooks w (identifier, info)).epochs[identifier]?
        = some (tick w.blockTime w.blockHeight info)
      ∧ callsOf (beginEpoch hooks w (identifier, info)) identifier
        = callsOf w identifier ++ told identifier w.blockTime info := by
  unfold beginEpoch tick told
  split_ifs with hstart hfirst hend
  · simp [h]
  · simp [startEpoch, call, callsOf, Call.identifier]
  · have htrue : info.epochCountingStarted = true := by simpa using hfirst
    simp [startEpoch, call, callsOf, Call.identifier, htrue]
  · simp [h]

lemma beginEpoch_time (e : Bytes × EpochInfo) : (beginEpoch hooks w e).blockTime = w.blockTime := by
  unfold beginEpoch
  split_ifs <;> rfl

/-- An iteration leaves the other epochs alone. -/
lemma foldl_beginEpoch_other {l : List (Bytes × EpochInfo)} (h : identifier ∉ l.map Prod.fst) :
    (l.foldl (beginEpoch hooks) w).epochs[identifier]? = w.epochs[identifier]?
      ∧ callsOf (l.foldl (beginEpoch hooks) w) identifier = callsOf w identifier
      ∧ (l.foldl (beginEpoch hooks) w).blockTime = w.blockTime
      ∧ (l.foldl (beginEpoch hooks) w).blockHeight = w.blockHeight := by
  induction l generalizing w with
  | nil => exact ⟨rfl, rfl, rfl, rfl⟩
  | cons e l ih =>
    rw [List.map_cons, List.mem_cons, not_or] at h
    obtain ⟨hepochs, hcalls, htime, hheight⟩ := ih h.2 (w := beginEpoch hooks w e)
    rw [List.foldl_cons, hepochs, hcalls, htime, hheight]
    have hne : e.1 ≠ identifier := fun heq => h.1 heq.symm
    unfold beginEpoch
    split_ifs <;> simp [startEpoch, call, callsOf, Call.identifier, getElem?_insert, hne]

/-- What a block does. -/
lemma beginBlocker_spec (w : World σ) (identifier : Bytes) :
    (beginBlocker hooks w).epochs[identifier]?
        = w.epochs[identifier]?.map (tick w.blockTime w.blockHeight)
      ∧ callsOf (beginBlocker hooks w) identifier = callsOf w identifier
        ++ (w.epochs[identifier]?.map (told identifier w.blockTime)).getD []
      ∧ (beginBlocker hooks w).blockTime = w.blockTime := by
  rcases hget : w.epochs[identifier]? with - | info
  · have hnot : identifier ∉ w.epochs.toList.map Prod.fst := by
      rw [map_fst_toList_eq_keys, mem_keys, mem_iff_isSome_getElem?, hget]
      simp
    obtain ⟨hepochs, hcalls, htime, -⟩ := foldl_beginEpoch_other hooks (w := w) hnot
    simp [beginBlocker, hepochs, hcalls, htime, hget]
  · obtain ⟨l₁, l₂, hl⟩ := List.append_of_mem (mem_toList_iff_getElem?_eq_some.mpr hget)
    have hnodup : (w.epochs.toList.map Prod.fst).Nodup := by
      rw [map_fst_toList_eq_keys]
      exact nodup_keys
    rw [hl, List.map_append, List.map_cons, List.nodup_middle, List.nodup_cons,
      List.mem_append, not_or] at hnodup
    obtain ⟨⟨h₁, h₂⟩, -⟩ := hnodup
    obtain ⟨hepochs₁, hcalls₁, htime₁, hheight₁⟩ := foldl_beginEpoch_other hooks (w := w) h₁
    obtain ⟨hepochs, hcalls⟩ := beginEpoch_self hooks (hepochs₁.trans hget)
    obtain ⟨hepochs₂, hcalls₂, htime₂, -⟩ := foldl_beginEpoch_other hooks h₂
      (w := beginEpoch hooks (l₁.foldl (beginEpoch hooks) w) (identifier, info))
    rw [beginBlocker, hl, List.foldl_append, List.foldl_cons, hepochs₂, hcalls₂, htime₂, hepochs,
      hcalls, hcalls₁, htime₁, hheight₁, beginEpoch_time, htime₁]
    exact ⟨rfl, rfl, rfl⟩

/-! ### The epochs of a run -/

/-- The calls up to the start of epoch `n + 1`. -/
def history (identifier : Bytes) : ℕ → List Call
  | 0 => [.beforeEpochStart identifier 1]
  | n + 1 => history identifier n
    ++ [.afterEpochEnd identifier (n + 1), .beforeEpochStart identifier (n + 1 + 1)]

/-- An epoch as it should be after the calls of a run: not started, or started `n + 1` times, each
time after the end of the one before. -/
inductive Counted (w : World σ) (identifier : Bytes) (info : EpochInfo) : Prop
  | waiting (hstarted : info.epochCountingStarted = false) (hcalls : callsOf w identifier = [])
  | counting (n : ℕ) (hstarted : info.epochCountingStarted = true)
      (hcurrent : info.currentEpoch = n + 1) (hcalls : callsOf w identifier = history identifier n)
      (htime : info.currentEpochStartTime = info.startTime + n * info.duration)
      (hfirst : info.startTime ≤ w.blockTime)
      (hlast : n ≠ 0 → info.currentEpochStartTime < w.blockTime)

/-- The current epoch is not over, or there is none yet. -/
def OnTime (w : World σ) (info : EpochInfo) : Prop :=
  if info.epochCountingStarted then
    info.startTime ≤ w.blockTime ∧ w.blockTime ≤ info.currentEpochStartTime + info.duration
  else w.blockTime ≤ info.startTime

/-- A chain that counts no epoch yet.  Epochs may be due to start before it. -/
structure Initial (w : World σ) : Prop where
  calls : w.calls = []
  waiting : ∀ (identifier : Bytes) (info : EpochInfo), w.epochs[identifier]? = some info →
    info.epochCountingStarted = false

section Step

variable {w' : World σ} {b : Block} (hstep : step hooks w b = .ok w')

include hstep

lemma step_spec (identifier : Bytes) :
    w.blockTime ≤ b.time ∧ w'.blockTime = b.time
      ∧ w'.epochs[identifier]? = w.epochs[identifier]?.map (tick b.time b.height)
      ∧ callsOf w' identifier = callsOf w identifier
        ++ (w.epochs[identifier]?.map (told identifier b.time)).getD [] := by
  obtain ⟨_, htime, h⟩ := Run.bind_ok hstep
  cases h
  obtain ⟨hepochs, hcalls, hnow⟩ := beginBlocker_spec hooks
    { w with blockTime := b.time, blockHeight := b.height } identifier
  exact ⟨of_decide_eq_true (ensure_ok htime), hnow, hepochs, hcalls⟩

lemma Counted.step (hinfo : w.epochs[identifier]? = some info) (h : Counted w identifier info) :
    Counted w' identifier (tick b.time b.height info) := by
  obtain ⟨hle, hnow, -, hcalls'⟩ := step_spec hooks hstep identifier
  rw [hinfo, Option.map_some, Option.getD_some] at hcalls'
  cases h with
  | waiting hstarted hcalls =>
    rw [hcalls] at hcalls'
    by_cases hstart : b.time < info.startTime
    · exact .waiting (by simp [tick, hstart, hstarted]) (by simp [hcalls', told, hstart])
    · have htick : tick b.time b.height info
          = ⟨info.startTime, info.duration, 1, info.startTime, true, b.height⟩ := by
        simp [tick, hstart, hstarted]
      rw [htick]
      refine .counting 0 rfl rfl ?_ (by simp) (by rwa [hnow, ← not_lt]) (by simp)
      simp [hcalls', told, hstart, hstarted, history]
  | counting n hstarted hcurrent hcalls htime hfirst hlast =>
    have hstart : ¬b.time < info.startTime := by omega
    rw [hcalls] at hcalls'
    by_cases hend : info.currentEpochStartTime + info.duration < b.time
    · have htick : tick b.time b.height info = ⟨info.startTime, info.duration, info.currentEpoch + 1,
          info.currentEpochStartTime + info.duration, true, b.height⟩ := by
        simp [tick, hstart, hstarted, hend]
      rw [htick]
      refine .counting (n + 1) rfl ?_ ?_ ?_ (by rwa [hnow, ← not_lt]) fun _ => by rwa [hnow]
      · simp [hcurrent]
      · simp [hcalls', told, hstart, hstarted, hend, history, hcurrent]
      · simp only [htime]
        push_cast
        ring
    · have htick : tick b.time b.height info = info := by simp [tick, hstart, hstarted, hend]
      rw [htick]
      refine .counting n hstarted hcurrent ?_ htime (by omega) fun hn => (hlast hn).trans_le (by omega)
      simp [hcalls', told, hstart, hstarted, hend]

lemma OnTime.step (hgap : b.time ≤ w.blockTime + info.duration) (h : OnTime w info) :
    OnTime w' (tick b.time b.height info) := by
  obtain ⟨hle, hnow, -⟩ := step_spec hooks hstep []
  unfold OnTime at *
  rw [hnow]
  rcases hstarted : info.epochCountingStarted with - | -
  · rw [hstarted, if_neg Bool.false_ne_true] at h
    by_cases hstart : b.time < info.startTime
    · simp [tick, hstart, hstarted, hstart.le]
    · simp only [tick, hstart, hstarted, if_false, if_true]
      omega
  · rw [hstarted, if_pos rfl] at h
    have hstart : ¬b.time < info.startTime := by omega
    by_cases hend : info.currentEpochStartTime + info.duration < b.time
    · simp only [tick, hstart, hstarted, hend, Bool.true_eq_false, if_false, if_true]
      omega
    · simp only [tick, hstart, hstarted, hend, Bool.true_eq_false, if_false, if_true]
      omega

end Step

/-- What every block keeps of an epoch, runs keep. -/
lemma run_epoch {w₀ : World σ} {bs : List Block} {C : World σ → Block → Prop}
    {P : World σ → EpochInfo → Prop} (h₀ : ∀ info, w₀.epochs[identifier]? = some info → P w₀ info)
    (hkeep : ∀ w b w' info, C w b → step hooks w b = .ok w' → w.epochs[identifier]? = some info →
      P w info → P w' (tick b.time b.height info))
    (hC : Run.Along (step hooks) C w₀ bs) :
    ∀ info, (Run.run (step hooks) w₀ bs).epochs[identifier]? = some info →
      P (Run.run (step hooks) w₀ bs) info := by
  refine Run.run_invariant
    (I := fun w : World σ => ∀ info, w.epochs[identifier]? = some info → P w info) h₀ ?_ hC
  intro w b w' h hb hstep info' hinfo'
  obtain ⟨-, -, hepochs, -⟩ := step_spec hooks hstep identifier
  rw [hepochs] at hinfo'
  obtain ⟨info, hinfo, rfl⟩ := Option.map_eq_some_iff.mp hinfo'
  exact hkeep w b w' info hb hstep hinfo (h info hinfo)

/-- **Epochs in order.**  In every run, the hooks are told of every epoch of an identifier once when
it starts and once when it ends, in order, and an epoch starts only after the one before is over,
whatever the hooks do and however far apart the blocks are. -/
theorem epochs_in_order {w₀ : World σ} (h₀ : Initial w₀) (bs : List Block)
    (hw : Run.run (step hooks) w₀ bs = w) (hinfo : w.epochs[identifier]? = some info) :
    Counted w identifier info := by
  subst hw
  refine run_epoch hooks (P := fun w info => Counted w identifier info) ?_ ?_
    (Run.along_of_forall (C := fun _ _ => True) fun _ _ _ => trivial) info hinfo
  · intro info hinfo
    exact .waiting (h₀.waiting _ _ hinfo) (by simp [callsOf, h₀.calls])
  · intro w b w' info _ hstep hinfo h
    exact h.step hooks hstep hinfo

/-- A hook that always fails, and one that counts. -/
def dayHooks : List (ℕ → Call → Result ℕ) :=
  [fun _ _ => .error (.err "hook"), fun n _ => .ok (n + 1)]

def dayWorld : World ℕ :=
  ⟨(∅ : Std.ExtTreeMap Bytes EpochInfo).insert (ascii "day") ⟨0, 10, 0, 0, false, 0⟩, 0, 0, 0, []⟩

def dayRun (bs : List Block) : World ℕ := Run.run (step dayHooks) dayWorld bs

lemma initial_dayWorld : Initial dayWorld where
  calls := rfl
  waiting identifier info h := by
    rw [dayWorld, getElem?_insert] at h
    split at h
    · cases h
      rfl
    · cases h

/-- Two blocks start two epochs; a hook counts three calls. -/
theorem epochs_in_order_day :
    (dayRun [⟨5, 1⟩, ⟨25, 2⟩]).outside = 3
      ∧ ∃ info, (dayRun [⟨5, 1⟩, ⟨25, 2⟩]).epochs[ascii "day"]? = some info
      ∧ info.currentEpoch = 2 ∧ Counted (dayRun [⟨5, 1⟩, ⟨25, 2⟩]) (ascii "day") info :=
  ⟨by decide +kernel, ⟨0, 10, 2, 10, true, 2⟩, by decide +kernel, rfl,
    epochs_in_order dayHooks initial_dayWorld _ rfl (by decide +kernel)⟩

/-- **Epochs on time.**  If the epochs are not due to start before the chain, and no two blocks are
further apart than the epoch is long, the current epoch is never over: counting keeps up with the
clock. -/
theorem epochs_on_time {w₀ : World σ} (h₀ : Initial w₀) (bs : List Block)
    (hstart : ∀ info, w₀.epochs[identifier]? = some info → w₀.blockTime ≤ info.startTime)
    (hgaps : Run.Along (step hooks) (fun w b => ∀ info, w.epochs[identifier]? = some info →
      b.time ≤ w.blockTime + info.duration) w₀ bs)
    (hw : Run.run (step hooks) w₀ bs = w) (hinfo : w.epochs[identifier]? = some info) :
    OnTime w info := by
  subst hw
  refine run_epoch hooks ?_ ?_ hgaps info hinfo
  · intro info hinfo
    simpa [OnTime, h₀.waiting _ _ hinfo] using hstart info hinfo
  · intro w b w' info hgap hstep hinfo h
    exact h.step hooks hstep (hgap info hinfo)

/-- The third block starts the second epoch. -/
theorem epochs_on_time_day :
    OnTime (dayRun [⟨0, 1⟩, ⟨10, 2⟩, ⟨15, 3⟩]) ⟨0, 10, 2, 10, true, 3⟩ := by
  refine epochs_on_time dayHooks initial_dayWorld [⟨0, 1⟩, ⟨10, 2⟩, ⟨15, 3⟩] ?_
    ⟨?_, ?_, ?_, trivial⟩ rfl (by decide +kernel : _[ascii "day"]? = _)
  all_goals
    simp only [← Option.mem_def]
    decide +kernel

end MaanyDex.Epochs
