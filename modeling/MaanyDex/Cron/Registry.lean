/-
The registry of schedules while contracts change it.

`executeSchedule` writes back the schedule that was read at the beginning of the stage.  A
contract that is called earlier in the same stage can have removed it: then it comes back, is
executed, and is not counted (`removed_schedule_comes_back`).
-/
import MaanyDex.Cron.Keeper

namespace MaanyDex.Cron

open Std.ExtTreeMap Run

variable {ι : Type} {chain : Chain ι} {w w' : World ι} {msg : Msg ι}

/-! ### What messages do -/

/-- Can the message add a schedule? -/
def Msg.adds : Msg ι → Bool
  | .addSchedule _ => true
  | .bindingAddSchedule _ _ => true
  | _ => false

/-- The name of the schedule that the message removes. -/
def Msg.removes : Msg ι → Option Bytes
  | .removeSchedule req => some req.name
  | .bindingRemoveSchedule _ name => some name
  | _ => none

/-- What a message does to the registry. -/
inductive Effect (w : World ι) (msg : Msg ι) : World ι → Prop
  | nothing {w' : World ι} : w'.schedules = w.schedules → w'.count = w.count → w'.log = w.log →
      w'.height = w.height → Effect w msg w'
  | add {schedule : Schedule} : msg.adds = true → schedule.name ∉ w.schedules →
      schedule.lastExecuteHeight = w.height → Effect w msg
        (record (changeTotalCount (storeSchedule w schedule) 1) (.added schedule.name))
  | remove {name : Bytes} : msg.removes = some name → name ∈ w.schedules →
      Effect w msg (record (deleteSchedule (changeTotalCount w (-1)) name) (.removed name))

variable {msgs : List MsgExecuteContract} {executionStage : ExecutionStage} {name : Bytes}

lemma addSchedule_ok {period : UInt64}
    (h : addSchedule w name period msgs executionStage = .ok w') :
    ∃ schedule : Schedule, schedule.name ∉ w.schedules ∧ schedule.lastExecuteHeight = w.height
      ∧ w' = record (changeTotalCount (storeSchedule w schedule) 1) (.added schedule.name) := by
  obtain ⟨_, hnew, h⟩ := bind_ok h
  cases h
  refine ⟨newSchedule w name period msgs executionStage, fun hmem => ?_, rfl, rfl⟩
  have hnew := ensure_ok hnew
  have hmem : name ∈ w.schedules := hmem
  rw [scheduleExists, contains_iff_mem.mpr hmem] at hnew
  cases hnew

lemma MsgAddSchedule.handle_ok {req : MsgAddSchedule} (hadds : msg.adds = true)
    (h : req.handle chain w = .ok w') : Effect w msg w' := by
  obtain ⟨_, _, -, -, h⟩ := bind2_ok h
  obtain ⟨schedule, hnew, hheight, rfl⟩ := addSchedule_ok (mapError_ok h)
  exact .add hadds hnew hheight

lemma MsgRemoveSchedule.handle_ok {req : MsgRemoveSchedule}
    (hremoves : msg.removes = some req.name) (h : req.handle chain w = .ok w') :
    Effect w msg w' := by
  obtain ⟨_, _, -, -, h⟩ := bind2_ok h
  cases h
  unfold removeSchedule
  split
  · rename_i hexists
    exact .remove hremoves (contains_iff_mem.mp hexists)
  · exact .nothing rfl rfl rfl rfl

/-- **What messages do** to the registry. -/
lemma enter_ok {called : Option Unit} (h : enter chain w msg = .ok (w', called)) :
    Effect w msg w' := by
  cases msg with
  | addSchedule req =>
    obtain ⟨w₁, hw₁, heq⟩ := map_ok h
    cases heq
    exact MsgAddSchedule.handle_ok rfl hw₁
  | removeSchedule req =>
    obtain ⟨w₁, hw₁, heq⟩ := map_ok h
    cases heq
    exact MsgRemoveSchedule.handle_ok rfl hw₁
  | updateParams req =>
    obtain ⟨w₁, hw₁, heq⟩ := map_ok h
    cases heq
    obtain ⟨_, _, -, -, hw₁⟩ := bind2_ok hw₁
    cases hw₁
    exact .nothing rfl rfl rfl rfl
  | bindingAddSchedule contractAddr msg =>
    obtain ⟨w₁, hw₁, heq⟩ := map_ok h
    cases heq
    obtain ⟨_, -, hw₁⟩ := bind_ok hw₁
    exact MsgAddSchedule.handle_ok rfl (mapError_ok hw₁)
  | bindingRemoveSchedule contractAddr name =>
    obtain ⟨w₁, hw₁, heq⟩ := map_ok h
    cases heq
    obtain ⟨_, -, hw₁⟩ := bind_ok hw₁
    exact MsgRemoveSchedule.handle_ok rfl (mapError_ok hw₁)
  | execute =>
    cases h
    exact .nothing rfl rfl rfl rfl
  | elsewhere outside =>
    cases h
    exact .nothing rfl rfl rfl rfl

/-! ### The registry -/

/-- The stored count is the number of the schedules. -/
def Counted (w : World ι) : Prop := w.count.toInt = w.schedules.size

/-- A schedule that was removed in this block and not added again was not executed after that,
and is not stored. -/
def StaysRemoved (w : World ι) : Prop :=
  ∀ name later earlier, w.log = later ++ .removed name :: earlier → .added name ∉ later →
    .executed name ∉ later ∧ name ∉ w.schedules

/-- Schedules are stored under their names. -/
def Own (w : World ι) : Prop :=
  ∀ (name : Bytes) (schedule : Schedule), w.schedules[name]? = some schedule → schedule.name = name

/-- The registry is as it should be. -/
structure Sound (w : World ι) : Prop where
  own : Own w
  count : Counted w
  removed : StaysRemoved w

/-- The schedules are stored as they are. -/
def Stored (todo : List Schedule) (w : World ι) : Prop :=
  ∀ schedule ∈ todo, w.schedules[schedule.name]? = some schedule

variable {c : Int32}

lemma toInt_add_one {n : ℕ} (h : c.toInt = n) (hn : n < 2 ^ 31 - 1) :
    (c + 1).toInt = (n + 1 : ℕ) := by
  rw [Int32.toInt_add, h]
  have hone : (1 : Int32).toInt = 1 := rfl
  rw [hone, Int.bmod_eq_of_le (by omega) (by omega)]
  push_cast
  rfl

lemma toInt_sub_one {n : ℕ} (h : c.toInt = n) (hn : 0 < n) (hlt : n < 2 ^ 31) :
    (c + -1).toInt = (n - 1 : ℕ) := by
  rw [Int32.toInt_add, h]
  have hone : (-1 : Int32).toInt = -1 := rfl
  rw [hone, Int.bmod_eq_of_le (by omega) (by omega)]
  omega

variable {schedule : Schedule}

lemma mem_storeSchedule (h : name ∈ (storeSchedule w schedule).schedules) :
    name = schedule.name ∨ name ∈ w.schedules := by
  rcases mem_insert.mp h with heq | hmem
  · exact .inl (Std.LawfulEqCmp.compare_eq_iff_eq.mp heq).symm
  · exact .inr hmem

variable {action : Action}

lemma eq_append_of_cons {a : Action} {log later earlier : List Action} (hne : action ≠ a)
    (h : action :: log = later ++ a :: earlier) :
    ∃ later', later = action :: later' ∧ log = later' ++ a :: earlier := by
  rcases later with - | ⟨b, later'⟩
  · exact absurd (List.cons.inj h).1 hne
  · obtain ⟨rfl, htail⟩ := List.cons.inj h
    exact ⟨later', rfl, htail⟩

lemma StaysRemoved.add (h : StaysRemoved w) (schedule : Schedule) :
    StaysRemoved
      (record (changeTotalCount (storeSchedule w schedule) 1) (.added schedule.name)) := by
  intro name later earlier hlog hadded
  simp only [record_log, changeTotalCount_log, storeSchedule_log] at hlog
  obtain ⟨later', rfl, hlog'⟩ := eq_append_of_cons (by simp) hlog
  rw [List.mem_cons, not_or] at hadded
  obtain ⟨hexecuted, hgone⟩ := h name later' earlier hlog' hadded.2
  refine ⟨by simp [hexecuted], fun hmem => hgone ?_⟩
  rcases mem_storeSchedule hmem with rfl | hmem
  · exact absurd rfl hadded.1
  · exact hmem

variable {removed : Bytes}

lemma schedules_remove {n : Int32} :
    (record (deleteSchedule (changeTotalCount w n) removed) action).schedules
      = w.schedules.erase removed := by
  rw [record_schedules, deleteSchedule_schedules, changeTotalCount_schedules]

lemma count_remove {n : Int32} :
    (record (deleteSchedule (changeTotalCount w n) removed) action).count = w.count + n := by
  rw [record_count, deleteSchedule_count, changeTotalCount_count]

lemma StaysRemoved.remove (h : StaysRemoved w) (removed : Bytes) (n : Int32) :
    StaysRemoved (record (deleteSchedule (changeTotalCount w n) removed) (.removed removed)) := by
  intro name later earlier hlog hadded
  simp only [record_log, deleteSchedule_log, changeTotalCount_log] at hlog
  rw [schedules_remove]
  rcases later with - | ⟨b, later'⟩
  · -- it was removed just now
    obtain ⟨heq, -⟩ := List.cons.inj hlog
    cases heq
    exact ⟨by simp, by simp⟩
  · obtain ⟨rfl, hlog'⟩ := List.cons.inj hlog
    rw [List.mem_cons, not_or] at hadded
    obtain ⟨hexecuted, hgone⟩ := h name later' earlier hlog' hadded.2
    exact ⟨by simp [hexecuted], fun hmem => hgone (mem_of_mem_erase hmem)⟩

lemma StaysRemoved.start (h : StaysRemoved w)
    (hstored : schedule.name ∈ w.schedules) : StaysRemoved (startSchedule w schedule) := by
  intro name later earlier hlog hadded
  simp only [startSchedule, record_log, storeSchedule_log] at hlog
  obtain ⟨later', rfl, hlog'⟩ := eq_append_of_cons (by simp) hlog
  rw [List.mem_cons, not_or] at hadded
  obtain ⟨hexecuted, hgone⟩ := h name later' earlier hlog' hadded.2
  have hne : name ≠ schedule.name := by
    rintro rfl
    exact hgone hstored
  refine ⟨by simp [hexecuted, hne], fun hmem => hgone ?_⟩
  exact (mem_storeSchedule hmem).resolve_left hne

/-! ### Messages keep the registry sound -/

/-- What has to be true of a message: the count has room for another schedule, and the schedules
that are still to be executed are not removed. -/
def Careful (todo : List Schedule) (_ : List (Msg ι)) (w : World ι) (msg : Msg ι) : Prop :=
  (msg.adds = true → w.schedules.size < 2 ^ 31 - 1)
    ∧ ∀ schedule ∈ todo, msg.removes ≠ some schedule.name

lemma getElem?_insert_of_ne (schedule : Schedule) (h : schedule.name ≠ name) :
    (w.schedules.insert schedule.name schedule)[name]? = w.schedules[name]? := by
  rw [getElem?_insert, if_neg]
  exact fun heq => h (Std.LawfulEqCmp.compare_eq_iff_eq.mp heq)

lemma getElem?_erase_of_ne (h : removed ≠ name) :
    (w.schedules.erase removed)[name]? = w.schedules[name]? := by
  rw [getElem?_erase, if_neg]
  exact fun heq => h (Std.LawfulEqCmp.compare_eq_iff_eq.mp heq)

lemma mem_of_getElem? (h : w.schedules[name]? = some schedule) : name ∈ w.schedules := by
  rw [mem_iff_isSome_getElem?, h]
  rfl

lemma Own.insert (h : Own w) (schedule : Schedule)
    (hschedules : w'.schedules = w.schedules.insert schedule.name schedule) : Own w' := by
  intro name s hs
  rw [hschedules] at hs
  by_cases heq : schedule.name = name
  · subst heq
    rw [getElem?_insert_self] at hs
    cases hs
    rfl
  · rw [getElem?_insert_of_ne schedule heq] at hs
    exact h name s hs

lemma Own.erase (h : Own w) (hschedules : w'.schedules = w.schedules.erase removed) : Own w' := by
  intro name s hs
  rw [hschedules, getElem?_erase] at hs
  split at hs
  · cases hs
  · exact h name s hs

lemma Sound.effect (h : Sound w) (he : Effect w msg w')
    (hroom : msg.adds = true → w.schedules.size < 2 ^ 31 - 1) : Sound w' := by
  cases he with
  | nothing hschedules hcount hlog _ =>
    refine ⟨?_, ?_, ?_⟩
    · rw [Own, hschedules]
      exact h.own
    · rw [Counted, hschedules, hcount]
      exact h.count
    · rw [StaysRemoved, hschedules, hlog]
      exact h.removed
  | @add schedule hadds hnew _ =>
    refine ⟨h.own.insert schedule rfl, ?_, h.removed.add schedule⟩
    simp only [Counted, record_count, record_schedules, changeTotalCount_count,
      changeTotalCount_schedules, storeSchedule_count, storeSchedule_schedules]
    rw [size_insert, if_neg (mt contains_iff_mem.mp hnew)]
    exact toInt_add_one h.count (hroom hadds)
  | @remove name hremoves hmem =>
    refine ⟨h.own.erase schedules_remove, ?_, h.removed.remove name (-1)⟩
    rw [Counted, schedules_remove, count_remove, size_erase, if_pos (contains_iff_mem.mpr hmem)]
    have hcount : w.count.toInt = w.schedules.size := h.count
    have hlt := w.count.toInt_lt
    have hpos : 0 < w.schedules.size := by
      apply Nat.pos_of_ne_zero
      intro hzero
      rw [eq_empty_iff_size_eq_zero.mpr hzero] at hmem
      exact not_mem_empty hmem
    exact toInt_sub_one hcount hpos (by omega)

lemma Stored.effect {todo : List Schedule} (h : Stored todo w) (he : Effect w msg w')
    (hspared : ∀ schedule ∈ todo, msg.removes ≠ some schedule.name) : Stored todo w' := by
  intro s hs
  cases he with
  | nothing hschedules _ _ _ =>
    rw [hschedules]
    exact h s hs
  | @add schedule _ hnew _ =>
    have hne : schedule.name ≠ s.name := fun heq => hnew (heq ▸ mem_of_getElem? (h s hs))
    show (w.schedules.insert schedule.name schedule)[s.name]? = some s
    rw [getElem?_insert_of_ne schedule hne]
    exact h s hs
  | @remove name hremoves _ =>
    have hne : name ≠ s.name := by
      rintro rfl
      exact hspared s hs hremoves
    rw [schedules_remove, getElem?_erase_of_ne hne]
    exact h s hs

/-- **Contracts keep the registry sound** if they are careful, and the schedules that are still
to be executed stored as they are. -/
lemma sound_invariant (todo : List Schedule) :
    Callbacks.Invariant (system chain) (Careful todo) (fun _ w => Sound w ∧ Stored todo w) where
  done h hC he := ⟨h.1.effect (enter_ok he) hC.1, h.2.effect (enter_ok he) hC.2⟩
  call h hC he := ⟨h.1.effect (enter_ok he) hC.1, h.2.effect (enter_ok he) hC.2⟩
  back _ _ _ h he := by
    cases he
    exact h

/-! ### The stages of a block -/

variable {contracts : Contracts ι} {todo : List Schedule} {schedule : Schedule}

/-- The messages of a schedule, as far as they are executed, make contracts do only what `C`
allows. -/
def MsgsMeet (chain : Chain ι) (contracts : Contracts ι)
    (C : List (Msg ι) → World ι → Msg ι → Prop) : List MsgExecuteContract → World ι → Prop
  | [], _ => True
  | msg :: rest, w => Callbacks.Meets (system chain) C (contracts w msg) [] w
      ∧ ∀ w', executeContract chain contracts w msg = .ok w' → MsgsMeet chain contracts C rest w'

/-- While schedules are executed, contracts do not remove those that are still to come, and the
count has room for those that they add. -/
def Spares (chain : Chain ι) (contracts : Contracts ι) : List Schedule → World ι → Prop
  | [], _ => True
  | schedule :: todo, w =>
    MsgsMeet chain contracts (Careful todo) schedule.msgs (startSchedule w schedule)
      ∧ Spares chain contracts todo (executeSchedule chain contracts w schedule).1

lemma sound_of_msgs (h : Sound w ∧ Stored todo w)
    (hmeet : MsgsMeet chain contracts (Careful todo) msgs w)
    (he : msgs.foldlM (executeContract chain contracts) w = .ok w') : Sound w' ∧ Stored todo w' := by
  induction msgs generalizing w with
  | nil =>
    cases he
    exact h
  | cons msg rest ih =>
    rw [List.foldlM_cons] at he
    obtain ⟨w₁, hw₁, he⟩ := bind_ok he
    exact ih ((sound_invariant todo).exec hmeet.1 h hw₁) (hmeet.2 w₁ hw₁) he

lemma Sound.start (h : Sound w) (hstored : w.schedules[schedule.name]? = some schedule) :
    Sound (startSchedule w schedule) := by
  have hmem := mem_of_getElem? hstored
  refine ⟨?_, ?_, h.removed.start hmem⟩
  · exact h.own.insert { schedule with lastExecuteHeight := w.height } rfl
  · simp only [Counted, startSchedule, record_count, record_schedules, storeSchedule_count,
      storeSchedule_schedules]
    rw [size_insert, if_pos (contains_iff_mem.mpr hmem)]
    exact h.count

lemma Stored.start (h : Stored todo w) (hnew : schedule.name ∉ todo.map Schedule.name) :
    Stored todo (startSchedule w schedule) := by
  intro s hs
  have hne : schedule.name ≠ s.name := fun heq => hnew (heq ▸ List.mem_map_of_mem hs)
  exact (getElem?_insert_of_ne { schedule with lastExecuteHeight := w.height } hne).trans (h s hs)

/-- One schedule: its messages are executed, or they leave nothing. -/
lemma sound_executeSchedule (h : Sound w) (hstored : Stored (schedule :: todo) w)
    (hnew : schedule.name ∉ todo.map Schedule.name)
    (hmeet : MsgsMeet chain contracts (Careful todo) schedule.msgs (startSchedule w schedule)) :
    Sound (executeSchedule chain contracts w schedule).1
      ∧ Stored todo (executeSchedule chain contracts w schedule).1 := by
  have hown : w.schedules[schedule.name]? = some schedule := hstored schedule List.mem_cons_self
  have htodo : Stored todo w := fun s hs => hstored s (List.mem_cons_of_mem _ hs)
  have hstart : Sound (startSchedule w schedule) ∧ Stored todo (startSchedule w schedule) :=
    ⟨h.start hown, htodo.start hnew⟩
  unfold executeSchedule
  split
  · rename_i w' he
    exact sound_of_msgs hstart hmeet he
  · exact hstart

/-- **A stage keeps the registry sound**, and every schedule is executed as it is stored. -/
lemma sound_executeSchedules (h : Sound w) (hstored : Stored todo w)
    (hnodup : (todo.map Schedule.name).Nodup) (hspares : Spares chain contracts todo w) :
    Sound (executeSchedules chain contracts todo w)
      ∧ ∀ x ∈ executions chain contracts todo w,
        Sound x.1 ∧ x.1.schedules[x.2.name]? = some x.2 := by
  induction todo generalizing w with
  | nil => exact ⟨h, fun x hx => by cases hx⟩
  | cons schedule todo ih =>
    rw [List.map_cons, List.nodup_cons] at hnodup
    obtain ⟨hsound, htodo⟩ := sound_executeSchedule h hstored hnodup.1 hspares.1
    obtain ⟨hlast, hall⟩ := ih hsound htodo hnodup.2 hspares.2
    refine ⟨hlast, fun x hx => ?_⟩
    rcases List.mem_cons.mp hx with rfl | hx
    · exact ⟨h, hstored schedule List.mem_cons_self⟩
    · exact hall x hx

lemma readyFrom_sublist {count : UInt64}
    {schedules : List Schedule} : (readyFrom w executionStage count schedules).Sublist schedules := by
  induction schedules generalizing count with
  | nil => exact List.Sublist.refl []
  | cons schedule rest ih =>
    unfold readyFrom
    split
    · split
      · exact List.Sublist.cons_cons _ (List.nil_sublist rest)
      · exact List.Sublist.cons_cons _ ih
    · exact List.Sublist.cons _ ih

lemma Own.mem_getAllSchedules (h : Own w) :
    schedule ∈ getAllSchedules w ↔ w.schedules[schedule.name]? = some schedule := by
  constructor
  · intro hmem
    obtain ⟨⟨name, s⟩, hx, rfl⟩ := List.mem_map.mp hmem
    have hget := mem_toList_iff_getElem?_eq_some.mp hx
    rwa [h name s hget]
  · intro hget
    exact List.mem_map.mpr ⟨_, mem_toList_iff_getElem?_eq_some.mpr hget, rfl⟩

lemma Own.nodup_names (h : Own w) : ((getAllSchedules w).map Schedule.name).Nodup := by
  have hnames : (getAllSchedules w).map Schedule.name = w.schedules.toList.map Prod.fst := by
    rw [getAllSchedules, List.map_map]
    refine List.map_congr_left fun x hx => ?_
    exact h x.1 x.2 (mem_toList_iff_getElem?_eq_some.mp hx)
  rw [hnames, map_fst_toList_eq_keys]
  exact nodup_keys

/-- The schedules that are due are stored, and no two have one name. -/
lemma Sound.ready (h : Sound w) (executionStage : ExecutionStage) :
    Stored (getSchedulesReadyForExecution w executionStage) w
      ∧ ((getSchedulesReadyForExecution w executionStage).map Schedule.name).Nodup :=
  ⟨fun _ hs => h.own.mem_getAllSchedules.mp (readyFrom_sublist.subset hs),
    h.own.nodup_names.sublist (readyFrom_sublist.map _)⟩

/-! ### Failed schedules -/

/-- Nothing but the height of the last execution of one schedule differs. -/
structure OnlyHeight (w : World ι) (name : Bytes) (w' : World ι) : Prop where
  outside : w'.outside = w.outside
  params : w'.params = w.params
  count : w'.count = w.count
  others : ∀ other : Bytes, other ≠ name → w'.schedules[other]? = w.schedules[other]?
  own : ∃ schedule, w.schedules[name]? = some schedule
    ∧ w'.schedules[name]? = some { schedule with lastExecuteHeight := w.height }

lemma onlyHeight_of_error {e : Fault} (hstored : w.schedules[schedule.name]? = some schedule)
    (h : (executeSchedule chain contracts w schedule).2 = .error e) :
    OnlyHeight w schedule.name (executeSchedule chain contracts w schedule).1 := by
  unfold executeSchedule at h ⊢
  split at h
  · cases h
  · refine ⟨rfl, rfl, rfl, fun other hother => ?_, schedule, hstored, ?_⟩
    · exact getElem?_insert_of_ne { schedule with lastExecuteHeight := w.height } hother.symm
    · exact getElem?_insert_self

/-! ### Runs -/

/-- Contracts are careful, also in the transactions between the stages. -/
def CarefulIn (chain : Chain ι) (w : World ι) : Event ι → Prop
  | .beginBlock height contracts =>
    Spares chain contracts (getSchedulesReadyForExecution (enterBlock w height) .beginBlocker)
      (enterBlock w height)
  | .tx script => Callbacks.Meets (system chain) (Careful []) script [] w
  | .endBlock contracts =>
    Spares chain contracts (getSchedulesReadyForExecution w .endBlocker) w

lemma Sound.enterBlock (h : Sound w) (height : UInt64) : Sound (enterBlock w height) := by
  refine ⟨h.own, h.count, fun name later earlier hlog _ => ?_⟩
  exact absurd hlog (List.append_ne_nil_of_right_ne_nil later (List.cons_ne_nil _ _)).symm

lemma Sound.step {e : Event ι} (h : Sound w) (hcareful : CarefulIn chain w e) :
    (∀ w', step chain w e = .ok w' → Sound w')
      ∧ ∀ x ∈ e.executions chain w, Sound x.2.1 ∧ x.2.1.schedules[x.2.2.name]? = some x.2.2 := by
  cases e with
  | beginBlock height contracts =>
    have hblock := h.enterBlock height
    obtain ⟨hstored, hnodup⟩ := hblock.ready .beginBlocker
    obtain ⟨hlast, hall⟩ := sound_executeSchedules hblock hstored hnodup hcareful
    refine ⟨fun w' he => ?_, fun x hx => ?_⟩
    · cases he
      exact hlast
    · obtain ⟨y, hy, rfl⟩ := List.mem_map.mp hx
      exact hall y hy
  | tx script =>
    refine ⟨fun w' he => ?_, fun x hx => by cases hx⟩
    exact ((sound_invariant []).exec hcareful ⟨h, fun _ hs => by cases hs⟩ he).1
  | endBlock contracts =>
    obtain ⟨hstored, hnodup⟩ := h.ready .endBlocker
    obtain ⟨hlast, hall⟩ := sound_executeSchedules h hstored hnodup hcareful
    refine ⟨fun w' he => ?_, fun x hx => ?_⟩
    · cases he
      exact hlast
    · obtain ⟨y, hy, rfl⟩ := List.mem_map.mp hx
      exact hall y hy

/-- A module without schedules. -/
structure Initial (w : World ι) : Prop where
  schedules : w.schedules = ∅
  count : w.count = 0
  log : w.log = []

lemma Initial.sound (h : Initial w) : Sound w where
  own name schedule hs := by
    rw [h.schedules, getElem?_empty] at hs
    cases hs
  count := by
    rw [Counted, h.schedules, h.count]
    rfl
  removed name later earlier hlog _ := by
    rw [h.log] at hlog
    exact absurd hlog (List.append_ne_nil_of_right_ne_nil later (List.cons_ne_nil _ _)).symm

/-- The schedules of the genesis are added one by one. -/
lemma sound_addSchedules {list : List Schedule} (h : Sound w)
    (hroom : w.schedules.size + list.length < 2 ^ 31)
    (he : list.foldlM (fun w (elem : Schedule) =>
      addSchedule w elem.name elem.period elem.msgs elem.executionStage) w = .ok w') : Sound w' := by
  induction list generalizing w with
  | nil =>
    cases he
    exact h
  | cons elem list ih =>
    rw [List.foldlM_cons] at he
    obtain ⟨w₁, hw₁, he⟩ := bind_ok he
    rw [List.length_cons] at hroom
    obtain ⟨schedule, hnew, hheight, rfl⟩ := addSchedule_ok hw₁
    refine ih ?_ ?_ he
    · have hadd : Effect w (.addSchedule ⟨[], [], 0, [], .endBlocker⟩)
          (record (changeTotalCount (storeSchedule w schedule) 1) (.added schedule.name)) :=
        .add rfl hnew hheight
      exact h.effect hadd fun _ => by omega
    · have hsize := size_insert_le (t := w.schedules) (k := schedule.name)
        (v := schedule)
      simp only [record_schedules, changeTotalCount_schedules, storeSchedule_schedules]
      omega

lemma Sound.initGenesis {genState : GenesisState} (h : Initial w)
    (hroom : genState.scheduleList.length < 2 ^ 31) (he : initGenesis w genState = .ok w') :
    Sound w' := by
  obtain ⟨w₁, hw₁, he⟩ := bind_ok he
  cases he
  have hsound : Sound w₁ := by
    refine sound_addSchedules h.sound ?_ (mapError_ok hw₁)
    rw [h.schedules, size_empty]
    omega
  exact ⟨hsound.own, hsound.count, hsound.removed⟩

/-- **The registry under changes by contracts.**  In every run of blocks in which no contract
removes a schedule that is still to be executed in the current stage (and in which the count of
the schedules fits into an `int32`): the count is the number of the schedules, removed schedules
are not executed and do not come back, and a schedule whose messages fail changes nothing but
the height of its last execution.  The first two hold also whenever a schedule is executed. -/
theorem registry_under_changes (chain : Chain ι) {fresh w₀ : World ι} (hfresh : Initial fresh)
    {genState : GenesisState} (hgenesis : initGenesis fresh genState = .ok w₀)
    (hroom : genState.scheduleList.length < 2 ^ 31) (es : List (Event ι))
    (hcareful : Run.Along (step chain) (CarefulIn chain) w₀ es) {w : World ι}
    (hw : Run.run (step chain) w₀ es = w) :
    (Counted w ∧ 0 ≤ w.count.toInt ∧ StaysRemoved w)
      ∧ ∀ e, CarefulIn chain w e → ∀ x ∈ e.executions chain w,
        (Counted x.2.1 ∧ 0 ≤ x.2.1.count.toInt ∧ StaysRemoved x.2.1)
          ∧ ∀ err, (executeSchedule chain x.1 x.2.1 x.2.2).2 = .error err →
            OnlyHeight x.2.1 x.2.2.name (executeSchedule chain x.1 x.2.1 x.2.2).1 := by
  have hnonneg : ∀ {v : World ι}, Counted v → 0 ≤ v.count.toInt := by
    intro v hv
    rw [hv]
    exact Int.natCast_nonneg _
  have hsound : Sound w := by
    rw [← hw]
    refine run_invariant (Sound.initGenesis hfresh hroom hgenesis) ?_ hcareful
    exact fun s e s' hI hC he => (hI.step hC).1 s' he
  refine ⟨⟨hsound.count, hnonneg hsound.count, hsound.removed⟩, fun e he x hx => ?_⟩
  obtain ⟨hx, hstored⟩ := (hsound.step he).2 x hx
  refine ⟨⟨hx.count, hnonneg hx.count, hx.removed⟩, fun err herr => ?_⟩
  exact onlyHeight_of_error hstored herr

/-! ### A schedule that is removed by another one -/

/-- The contract `dao` is an admin. -/
def demoChain : Chain Unit where
  accAddressFromBech32 s := some (.account s)
  authority := ascii "admin"
  getAdmins _ := [ascii "dao"]

def demoFresh : World Unit where
  outside := ()
  params := ⟨[], 0⟩
  schedules := ∅
  count := 0
  height := 0
  log := []

/-- A schedule that calls the contract `dao` in every third block. -/
def demoSchedule (name : String) : Schedule where
  name := ascii name
  period := 2
  msgs := [⟨ascii "dao", ascii name⟩]
  lastExecuteHeight := 0
  executionStage := .beginBlocker

def demoGenesis : GenesisState where
  scheduleList := [demoSchedule "a", demoSchedule "b"]
  params := ⟨ascii "security", 5⟩

def demoWorld : World Unit :=
  match initGenesis demoFresh demoGenesis with
  | .ok w => w
  | .error _ => demoFresh

/-- The contract, called by the schedule `a`, removes the schedule `name`; called by another
one, it fails. -/
def removing (name : String) : Contracts Unit := fun _ msg =>
  if msg.msg = ascii "a" then
    .send (.bindingRemoveSchedule (ascii "dao") (ascii name)) .accept .accept .reject
  else .reject

/-- **A removed schedule comes back**: `a` removes `b`, which is due in the same stage.  Then `b`
is stored again and executed, although it was removed, and it is not counted any more. -/
theorem removed_schedule_comes_back :
    (Run.run (step demoChain) demoWorld [.beginBlock 3 (removing "b")]).log
        = [.executed (ascii "b"), .removed (ascii "b"), .executed (ascii "a")]
      ∧ (Run.run (step demoChain) demoWorld [.beginBlock 3 (removing "b")]).count = 1
      ∧ (Run.run (step demoChain) demoWorld [.beginBlock 3 (removing "b")]).schedules.size = 2
      ∧ (Run.run (step demoChain) demoWorld [.beginBlock 3 (removing "b")]).schedules.contains
        (ascii "b") = true := by
  decide +kernel

lemma initGenesis_demoWorld : initGenesis demoFresh demoGenesis = .ok demoWorld := by
  have hok : (initGenesis demoFresh demoGenesis).toBool = true := by decide +kernel
  unfold demoWorld
  split
  · assumption
  · rename_i e he
    rw [he] at hok
    cases hok

lemma meets_removing {name : String} (hspared : ∀ s ∈ todo, s.name ≠ ascii name)
    (w : World Unit) (msg : MsgExecuteContract) :
    Callbacks.Meets (system demoChain) (Careful todo) (removing name w msg) [] w := by
  intro v hv
  unfold removing at hv
  split at hv
  · rcases Callbacks.mem_visits_send hv with rfl | ⟨_, _, _, hv⟩ | ⟨_, _, hv⟩ | ⟨_, _, _, hv⟩
    · refine ⟨fun hadds => ?_, fun s hs heq => hspared s hs (Option.some.inj heq).symm⟩
      cases hadds
    · cases hv
    · cases hv
    · cases hv
  · cases hv

/-- It suffices that all but the first of the schedules have another name. -/
lemma spares_removing {name : String} (hspared : ∀ s ∈ todo.tail, s.name ≠ ascii name)
    (w : World Unit) : Spares demoChain (removing name) todo w := by
  induction todo generalizing w with
  | nil => trivial
  | cons schedule todo ih =>
    refine ⟨?_, ih (fun s hs => hspared s (List.mem_of_mem_tail hs)) _⟩
    generalize startSchedule w schedule = w₁
    induction schedule.msgs generalizing w₁ with
    | nil => trivial
    | cons msg rest ih => exact ⟨meets_removing hspared w₁ msg, fun w' _ => ih w'⟩

/-- The schedule `a` removes itself, and the messages of `b` fail. -/
theorem registry_under_changes_removing :
    (Run.run (step demoChain) demoWorld [.beginBlock 3 (removing "a")]).log
        = [.executed (ascii "b"), .removed (ascii "a"), .executed (ascii "a")]
      ∧ Counted (Run.run (step demoChain) demoWorld [.beginBlock 3 (removing "a")])
      ∧ StaysRemoved (Run.run (step demoChain) demoWorld [.beginBlock 3 (removing "a")]) := by
  have hfresh : Initial demoFresh := ⟨rfl, rfl, rfl⟩
  have hcareful : Run.Along (step demoChain) (CarefulIn demoChain) demoWorld
      [.beginBlock 3 (removing "a")] := ⟨spares_removing (by decide +kernel) _, trivial⟩
  obtain ⟨⟨hcounted, -, hremoved⟩, -⟩ := registry_under_changes demoChain hfresh
    initGenesis_demoWorld (by decide) _ hcareful rfl
  exact ⟨by decide +kernel, hcounted, hremoved⟩

end MaanyDex.Cron
