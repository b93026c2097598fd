/-
When a schedule is executed.

A schedule that was added at height `h` with period `P` is due when the height is *more* than
`h + P`, in numbers of 64 bits.  It is stored with the height of the block in which it is executed,
whether its messages succeed or fail, so it is a timer (`Timer`):

    h + P < 2 ^ 64    executed at h + (P + 1), h + 2 * (P + 1), …
    2 ^ 64 ≤ h + P    executed in every block

and never at the heights h + P, h + 2 * P, … at which it should be (`cron_timing_iff`).
-/
import MaanyDex.Cron.Registry
import MaanyDex.Lib.Timer

namespace MaanyDex.Cron

open Std.ExtTreeMap List Run

open Run (newer)

variable {ι : Type} {chain : Chain ι} {w w' w₁ w₂ : World ι} {msg : Msg ι} {name : Bytes}
  {schedule : Schedule}

/-! ### What contracts do -/

/-- Schedules are stored under their names, and those that were added in this block with its
height. -/
structure Dated (w : World ι) : Prop where
  own : Own w
  added : ∀ (name : Bytes) (schedule : Schedule), w.schedules[name]? = some schedule →
    .added name ∈ w.log → schedule.lastExecuteHeight = w.height

/-- A schedule is stored with the height of the block. -/
lemma Dated.store {action : Action} (h : Dated w)
    (hheight : schedule.lastExecuteHeight = w.height)
    (haction : ∀ other, action = .added other → schedule.name = other)
    (hschedules : w'.schedules = w.schedules.insert schedule.name schedule)
    (hheight' : w'.height = w.height) (hlog : w'.log = action :: w.log) : Dated w' where
  own := h.own.insert schedule hschedules
  added other s hs hadded := by
    rw [hheight']
    rw [hschedules] at hs
    rw [hlog] at hadded
    by_cases hname : schedule.name = other
    · subst hname
      rw [getElem?_insert_self] at hs
      cases hs
      exact hheight
    · rw [getElem?_insert_of_ne schedule hname] at hs
      apply h.added other s hs
      rcases mem_cons.mp hadded with heq | hmem
      · exact absurd (haction other heq.symm) hname
      · exact hmem

lemma Dated.remove (h : Dated w) (removed : Bytes) (n : Int32) :
    Dated (record (deleteSchedule (changeTotalCount w n) removed) (.removed removed)) where
  own := h.own.erase schedules_remove
  added other s hs hadded := by
    change (w.schedules.erase removed)[other]? = some s at hs
    have hne : removed ≠ other := by
      rintro rfl
      rw [getElem?_erase_self] at hs
      cases hs
    rw [getElem?_erase_of_ne hne] at hs
    apply h.added other s hs
    rcases mem_cons.mp hadded with heq | hmem
    · cases heq
    · exact hmem

/-- What contracts do between two states of a block: they execute no schedule, and they change none
that they do not remove. -/
structure Quiet (w w' : World ι) : Prop where
  height : w'.height = w.height
  log : w.log <:+ w'.log
  dated : Dated w → Dated w'
  executed : ∀ name, .executed name ∉ newer w.log w'.log
  kept : ∀ name (schedule : Schedule), .removed name ∉ newer w.log w'.log →
    w.schedules[name]? = some schedule → w'.schedules[name]? = some schedule

lemma Quiet.refl (w : World ι) : Quiet w w where
  height := rfl
  log := suffix_rfl
  dated h := h
  executed name := by simp
  kept _ _ _ hs := hs

lemma Quiet.trans (h : Quiet w w₁) (h₁ : Quiet w₁ w₂) : Quiet w w₂ where
  height := h₁.height.trans h.height
  log := h.log.trans h₁.log
  dated hw := h₁.dated (h.dated hw)
  executed name := by
    rw [newer_trans h.log h₁.log, mem_append]
    exact not_or.mpr ⟨h₁.executed name, h.executed name⟩
  kept name schedule hkept hs := by
    rw [newer_trans h.log h₁.log, mem_append] at hkept
    obtain ⟨hkept₁, hkept⟩ := not_or.mp hkept
    exact h₁.kept name schedule hkept₁ (h.kept name schedule hkept hs)

lemma quiet_add {n : Int32} (hnew : schedule.name ∉ w.schedules)
    (hheight : schedule.lastExecuteHeight = w.height) :
    Quiet w (record (changeTotalCount (storeSchedule w schedule) n) (.added schedule.name)) where
  height := rfl
  log := suffix_cons _ _
  dated h := h.store hheight (fun other heq => Action.added.inj heq) rfl rfl rfl
  executed other := by
    simp only [record_log, changeTotalCount_log, storeSchedule_log, newer_cons]
    simp
  kept other s _ hs := by
    have hne : schedule.name ≠ other := by
      rintro rfl
      exact hnew (mem_of_getElem? hs)
    exact (getElem?_insert_of_ne schedule hne).trans hs

lemma quiet_remove (removed : Bytes) (n : Int32) :
    Quiet w (record (deleteSchedule (changeTotalCount w n) removed) (.removed removed)) where
  height := rfl
  log := suffix_cons _ _
  dated h := h.remove removed n
  executed other := by
    simp only [record_log, deleteSchedule_log, changeTotalCount_log, newer_cons]
    simp
  kept other s hkept hs := by
    simp only [record_log, deleteSchedule_log, changeTotalCount_log, newer_cons,
      mem_singleton, Action.removed.injEq] at hkept
    rw [schedules_remove, getElem?_erase_of_ne (Ne.symm hkept)]
    exact hs

lemma Effect.quiet (h : Effect w msg w') : Quiet w w' := by
  cases h with
  | nothing hschedules _ hlog hheight =>
    refine ⟨hheight, ?_, ?_, ?_, ?_⟩
    · rw [hlog]
    · rintro ⟨hown, hadded⟩
      constructor
      · rwa [Own, hschedules]
      · rwa [hschedules, hheight, hlog]
    · simp [hlog]
    · intro _ _ _ hs
      rwa [hschedules]
  | add _ hnew hheight => exact quiet_add hnew hheight
  | remove _ _ => exact quiet_remove _ (-1)

lemma quiet_invariant (base : World ι) :
    Callbacks.Invariant (system chain) (fun _ _ _ => True) (fun _ w => Quiet base w) where
  done h _ he := h.trans (enter_ok he).quiet
  call h _ he := h.trans (enter_ok he).quiet
  back _ _ _ h he := by
    cases he
    exact h

lemma quiet_exec {script : Callbacks.Script (Msg ι)}
    (h : Callbacks.exec (system chain) script w = .ok w') : Quiet w w' :=
  (quiet_invariant w).exec (Callbacks.meets_true script [] w) (Quiet.refl w) h

/-! ### What a stage does -/

variable {contracts : Contracts ι} {todo : List Schedule}

/-- The messages of a schedule are quiet, and so is nothing at all. -/
lemma quiet_executeSchedule (chain : Chain ι) (contracts : Contracts ι) (w : World ι)
    (schedule : Schedule) :
    Quiet (startSchedule w schedule) (executeSchedule chain contracts w schedule).1 := by
  unfold executeSchedule
  split
  · rename_i w' he
    refine foldlM_invariant (I := Quiet (startSchedule w schedule)) (Quiet.refl _) ?_ he
    intro s msg s' hs hmsg
    exact hs.trans (quiet_exec hmsg)
  · exact Quiet.refl _

/-- What every part of a block does. -/
structure Later (w w' : World ι) : Prop where
  height : w'.height = w.height
  log : w.log <:+ w'.log
  dated : Dated w → Dated w'

lemma Quiet.later (h : Quiet w w') : Later w w' := ⟨h.height, h.log, h.dated⟩

lemma Later.refl (w : World ι) : Later w w := (Quiet.refl w).later

lemma Later.trans (h : Later w w₁) (h₁ : Later w₁ w₂) : Later w w₂ :=
  ⟨h₁.height.trans h.height, h.log.trans h₁.log, fun hw => h₁.dated (h.dated hw)⟩

lemma later_startSchedule (w : World ι) (schedule : Schedule) :
    Later w (startSchedule w schedule) where
  height := rfl
  log := suffix_cons _ _
  dated h := by
    have hheight : ({ schedule with lastExecuteHeight := w.height } : Schedule).lastExecuteHeight
        = w.height := rfl
    refine h.store hheight ?_ rfl rfl (show _ = Action.executed schedule.name :: _ from rfl)
    intro other heq
    cases heq

lemma later_executeSchedule (chain : Chain ι) (contracts : Contracts ι) (w : World ι)
    (schedule : Schedule) : Later w (executeSchedule chain contracts w schedule).1 :=
  (later_startSchedule w schedule).trans (quiet_executeSchedule chain contracts w schedule).later

lemma later_executeSchedules (chain : Chain ι) (contracts : Contracts ι) (todo : List Schedule)
    (w : World ι) : Later w (executeSchedules chain contracts todo w) := by
  induction todo generalizing w with
  | nil => exact Later.refl w
  | cons schedule todo ih => exact (later_executeSchedule chain contracts w schedule).trans (ih _)

/-- A schedule, after a stage that executes it or not. -/
def Schedule.after (schedule : Schedule) (executes : Prop) [Decidable executes]
    (height : UInt64) : Schedule :=
  if executes then { schedule with lastExecuteHeight := height } else schedule

variable {t : Schedule}

/-- One schedule is executed: what becomes of another one, or of itself. -/
lemma executeSchedule_kept (hs : w.schedules[name]? = some schedule)
    (ht : t.name = name → t = schedule)
    (hkept : .removed name ∉ newer w.log (executeSchedule chain contracts w t).1.log) :
    (executeSchedule chain contracts w t).1.schedules[name]?
        = some (schedule.after (t.name = name) w.height)
      ∧ (newer w.log (executeSchedule chain contracts w t).1.log).count (.executed name)
        = if t.name = name then 1 else 0 := by
  have hquiet := quiet_executeSchedule chain contracts w t
  have hstart : newer w.log (startSchedule w t).log = [.executed t.name] := newer_cons _ _
  rw [newer_trans (later_startSchedule w t).log hquiet.log] at hkept ⊢
  have hquietkept := hquiet.kept name (schedule.after (t.name = name) w.height)
    (fun hmem => hkept (mem_append_left _ hmem))
  rw [count_append, count_eq_zero.mpr (hquiet.executed name), hstart, zero_add]
  constructor
  · apply hquietkept
    show (w.schedules.insert t.name { t with lastExecuteHeight := w.height })[name]? = _
    unfold Schedule.after
    split_ifs with hname
    · rw [← ht hname, ← hname, getElem?_insert_self]
    · exact (getElem?_insert_of_ne { t with lastExecuteHeight := w.height } hname).trans hs
  · rw [count_singleton]
    simp

/-- A whole list is executed: the schedule at most once. -/
lemma executeSchedules_kept (hnodup : (todo.map Schedule.name).Nodup)
    (hs : w.schedules[name]? = some schedule) (htodo : ∀ t ∈ todo, t.name = name → t = schedule)
    (hkept : .removed name ∉ newer w.log (executeSchedules chain contracts todo w).log) :
    (executeSchedules chain contracts todo w).schedules[name]?
        = some (schedule.after (name ∈ todo.map Schedule.name) w.height)
      ∧ (newer w.log (executeSchedules chain contracts todo w).log).count (.executed name)
        = if name ∈ todo.map Schedule.name then 1 else 0 := by
  induction todo generalizing w schedule with
  | nil =>
    show w.schedules[name]? = _ ∧ (newer w.log w.log).count (.executed name) = _
    rw [newer_self]
    exact ⟨hs, rfl⟩
  | cons t todo ih =>
    rw [map_cons, nodup_cons] at hnodup
    have hlater := later_executeSchedule chain contracts w t
    have hlater₁ := later_executeSchedules chain contracts todo
      (executeSchedule chain contracts w t).1
    change .removed name ∉ newer w.log (executeSchedules chain contracts todo
      (executeSchedule chain contracts w t).1).log at hkept
    rw [newer_trans hlater.log hlater₁.log, mem_append, not_or] at hkept
    obtain ⟨hstored, hcount⟩ := executeSchedule_kept hs (htodo t mem_cons_self) hkept.2
    have hrest : ∀ t' ∈ todo, t'.name = name → t' = schedule.after (t.name = name) w.height := by
      intro t' ht' hname
      have hne : t.name ≠ name := by
        rintro rfl
        exact hnodup.1 (hname ▸ mem_map_of_mem ht')
      rw [Schedule.after, if_neg hne]
      exact htodo t' (mem_cons_of_mem _ ht') hname
    obtain ⟨hstored₁, hcount₁⟩ := ih hnodup.2 hstored hrest hkept.1
    rw [hlater.height] at hstored₁
    show (executeSchedules chain contracts todo _).schedules[name]? = _
      ∧ (newer w.log (executeSchedules chain contracts todo _).log).count _ = _
    rw [newer_trans hlater.log hlater₁.log, count_append, hstored₁, hcount₁, hcount]
    by_cases hname : t.name = name
    · -- executed now, so not again
      have hnot : name ∉ todo.map Schedule.name := hname ▸ hnodup.1
      simp [Schedule.after, hname, hnot]
    · simp [Schedule.after, hname, Ne.symm hname]

/-! ### The schedules that are due -/

variable {executionStage : ExecutionStage}

def isDue (w : World ι) (executionStage : ExecutionStage) (schedule : Schedule) : Bool :=
  intervalPassed w schedule && schedule.executionStage = executionStage

/-- The schedules that a stage has to execute. -/
def dueSchedules (w : World ι) (executionStage : ExecutionStage) : List Schedule :=
  (getAllSchedules w).filter (isDue w executionStage)

/-- The stage reaches the limit of executions. -/
def LimitReached (w : World ι) (executionStage : ExecutionStage) : Prop :=
  dueSchedules w executionStage ≠ [] ∧ w.params.limit.toNat ≤ (dueSchedules w executionStage).length

instance (w : World ι) (executionStage : ExecutionStage) :
    Decidable (LimitReached w executionStage) :=
  inferInstanceAs (Decidable (_ ∧ _))

/-- The loop stops after the schedule that reaches the limit, so a limit of zero is one of one. -/
lemma readyFrom_eq_take {count : UInt64} {left : ℕ}
    (h : count.toNat + (left + 1) = max 1 w.params.limit.toNat) :
    readyFrom w executionStage count todo
      = (todo.filter (isDue w executionStage)).take (left + 1) := by
  induction todo generalizing count left with
  | nil => rfl
  | cons s rest ih =>
    show (if isDue w executionStage s = true then _ else _) = _
    by_cases hdue : isDue w executionStage s = true
    · rw [if_pos hdue, filter_cons_of_pos hdue, take_succ_cons]
      have hlimit := w.params.limit.toNat_lt
      have hcount : (count + 1).toNat = count.toNat + 1 := by
        rw [UInt64.toNat_add]
        apply Nat.mod_eq_of_lt
        show count.toNat + 1 < 2 ^ 64
        omega
      have hlast : w.params.limit ≤ count + 1 ↔ left = 0 := by
        rw [UInt64.le_iff_toNat_le, hcount]
        omega
      cases left with
      | zero => rw [if_pos (hlast.mpr rfl), take_zero]
      | succ left => rw [if_neg (mt hlast.mp left.succ_ne_zero), @ih (count + 1) left (by omega)]
    · rw [if_neg hdue, filter_cons_of_neg hdue, ih h]

lemma ready_eq_take : getSchedulesReadyForExecution w executionStage
    = (dueSchedules w executionStage).take (max 1 w.params.limit.toNat) := by
  rw [← Nat.sub_add_cancel (le_max_left 1 w.params.limit.toNat)]
  exact readyFrom_eq_take (by simp)

lemma ready_eq (h : ¬LimitReached w executionStage) :
    getSchedulesReadyForExecution w executionStage = dueSchedules w executionStage := by
  rw [ready_eq_take]
  apply take_of_length_le
  by_cases hnil : dueSchedules w executionStage = []
  · rw [hnil]
    exact Nat.zero_le _
  · have hlt := not_le.mp (not_and.mp h hnil)
    omega

lemma executions_schedules : (executions chain contracts todo w).map Prod.snd = todo := by
  induction todo generalizing w with
  | nil => rfl
  | cons schedule rest ih => rw [executions, map_cons, ih]

/-- The names under which the schedules are stored that a stage has to execute. -/
def dueNames (w : World ι) (executionStage : ExecutionStage) : List Bytes :=
  (w.schedules.toList.filter fun x => isDue w executionStage x.2).map Prod.fst

lemma dueNames_stored : (dueNames w executionStage).map (w.schedules[·]?)
    = (dueSchedules w executionStage).map some := by
  rw [dueNames, dueSchedules, getAllSchedules, List.filter_map, List.map_map, List.map_map]
  refine List.map_congr_left fun x hx => ?_
  exact mem_toList_iff_getElem?_eq_some.mp (mem_of_mem_filter hx)

/-- **The limit of a stage.**  A stage executes the schedules that were due when it began, in the
order of their names and up to the limit, whatever contracts do; with limit zero it executes one. -/
theorem stage_executes_first_due (chain : Chain ι) (contracts : Contracts ι) (w : World ι)
    (executionStage : ExecutionStage) :
    (executions chain contracts (getSchedulesReadyForExecution w executionStage) w).map Prod.snd
        = (dueSchedules w executionStage).take (max 1 w.params.limit.toNat)
      ∧ (dueNames w executionStage).map (w.schedules[·]?) = (dueSchedules w executionStage).map some
      ∧ (dueNames w executionStage).Pairwise (compare · · = .lt) := by
  rw [executions_schedules, ready_eq_take]
  refine ⟨rfl, dueNames_stored, ?_⟩
  exact pairwise_map.mpr (ordered_keys_toList.filter _)

lemma Dated.dueSchedules_stored (h : Dated w)
    (ht : t ∈ dueSchedules w executionStage) : w.schedules[t.name]? = some t :=
  h.own.mem_getAllSchedules.mp (mem_of_mem_filter ht)

lemma Dated.nodup_dueSchedules (h : Dated w) :
    ((dueSchedules w executionStage).map Schedule.name).Nodup :=
  h.own.nodup_names.sublist (filter_sublist.map _)

lemma Dated.mem_dueSchedules_iff (h : Dated w) (hs : w.schedules[name]? = some schedule) :
    name ∈ (dueSchedules w executionStage).map Schedule.name
      ↔ isDue w executionStage schedule = true := by
  constructor
  · intro hmem
    obtain ⟨t, ht, rfl⟩ := mem_map.mp hmem
    rw [h.dueSchedules_stored ht] at hs
    cases hs
    exact (mem_filter.mp ht).2
  · intro hdue
    have hall : schedule ∈ getAllSchedules w :=
      mem_map.mpr ⟨(name, schedule), mem_toList_iff_getElem?_eq_some.mpr hs, rfl⟩
    rw [← h.own name schedule hs]
    exact mem_map_of_mem (mem_filter.mpr ⟨hall, hdue⟩)

/-- **A stage executes a schedule if and only if it is due.** -/
lemma executeReadySchedules_kept (h : Dated w) (hlimit : ¬LimitReached w executionStage)
    (hs : w.schedules[name]? = some schedule)
    (hkept : .removed name ∉ newer w.log (executeReadySchedules chain contracts w executionStage).log) :
    (executeReadySchedules chain contracts w executionStage).schedules[name]?
        = some (schedule.after (isDue w executionStage schedule = true) w.height)
      ∧ (newer w.log (executeReadySchedules chain contracts w executionStage).log).count
          (.executed name) = if isDue w executionStage schedule = true then 1 else 0 := by
  unfold executeReadySchedules at hkept ⊢
  rw [ready_eq hlimit] at hkept ⊢
  have hread : ∀ t ∈ dueSchedules w executionStage, t.name = name → t = schedule := by
    rintro t ht rfl
    rw [h.dueSchedules_stored ht] at hs
    exact Option.some.inj hs
  have hall := executeSchedules_kept h.nodup_dueSchedules hs hread hkept
  simp only [h.mem_dueSchedules_iff hs] at hall
  exact hall

/-! ### Runs of blocks -/

/-- The state in which the stages of an event find the module. -/
def Event.base (w : World ι) : Event ι → World ι
  | .beginBlock height _ => enterBlock w height
  | .tx _ => w
  | .endBlock _ => w

/-- The stage of a block that an event is. -/
def Event.stage : Event ι → Option ExecutionStage
  | .beginBlock _ _ => some .beginBlocker
  | .tx _ => none
  | .endBlock _ => some .endBlocker

/-- What happens to the schedules in an event, the last action first. -/
def Event.actions (chain : Chain ι) (w : World ι) (e : Event ι) : List Action :=
  newer (e.base w).log (Run.exec (step chain) w e).log

/-- What happens to the schedules in a run, with the heights. -/
def history (chain : Chain ι) (w : World ι) : List (Event ι) → List (ℕ × Action)
  | [] => []
  | e :: es => (e.actions chain w).map ((e.base w).height.toNat, ·)
      ++ history chain (Run.exec (step chain) w e) es

/-- The event does not reach the limit of executions. -/
def BelowLimit (w : World ι) (e : Event ι) : Prop :=
  ∀ executionStage, e.stage = some executionStage → ¬LimitReached (e.base w) executionStage

variable {e : Event ι} {es fs : List (Event ι)}

lemma history_append : history chain w (es ++ fs)
    = history chain w es ++ history chain (Run.run (step chain) w es) fs := by
  induction es generalizing w with
  | nil => rfl
  | cons e es ih =>
    rw [cons_append, history, history, ih, append_assoc]
    rfl

lemma Dated.base (h : Dated w) (e : Event ι) : Dated (e.base w) := by
  cases e with
  | beginBlock height contracts =>
    refine ⟨h.own, ?_⟩
    intro name schedule hs hadded
    cases hadded
  | tx script => exact h
  | endBlock contracts => exact h

lemma later_exec (chain : Chain ι) (w : World ι) (e : Event ι) :
    Later (e.base w) (Run.exec (step chain) w e) := by
  cases e with
  | beginBlock height contracts => exact later_executeSchedules chain contracts _ _
  | tx script =>
    refine exec_invariant (I := Later w) (Later.refl w) ?_
    intro w' h
    exact (quiet_exec h).later
  | endBlock contracts => exact later_executeSchedules chain contracts _ _

lemma isDue_iff : isDue w executionStage schedule = true
    ↔ some executionStage = some schedule.executionStage ∧ intervalPassed w schedule = true := by
  simp only [isDue, Bool.and_eq_true, decide_eq_true_eq, Option.some.injEq]
  constructor
  · rintro ⟨hpassed, rfl⟩
    exact ⟨rfl, hpassed⟩
  · rintro ⟨rfl, hpassed⟩
    exact ⟨hpassed, rfl⟩

/-- **An event executes a schedule if and only if it is due in its stage.** -/
lemma exec_kept (h : Dated w) (hlimit : BelowLimit w e) (hs : w.schedules[name]? = some schedule)
    (hkept : .removed name ∉ e.actions chain w) :
    (Run.exec (step chain) w e).schedules[name]?
        = some (schedule.after (e.stage = some schedule.executionStage
          ∧ intervalPassed (e.base w) schedule = true) (e.base w).height)
      ∧ (e.actions chain w).count (.executed name)
        = if e.stage = some schedule.executionStage
          ∧ intervalPassed (e.base w) schedule = true then 1 else 0 := by
  cases e with
  | beginBlock height contracts =>
    have hstage := executeReadySchedules_kept (h.base (.beginBlock height contracts))
      (hlimit .beginBlocker rfl) hs hkept
    simp only [isDue_iff] at hstage
    exact hstage
  | tx script =>
    have hquiet : Quiet w (Run.exec (step chain) w (.tx script)) :=
      exec_invariant (I := Quiet w) (Quiet.refl w) fun w' h => quiet_exec h
    have hno : ¬((Event.tx script).stage = some schedule.executionStage
        ∧ intervalPassed ((Event.tx script).base w) schedule = true) := by
      rintro ⟨hstage, -⟩
      cases hstage
    rw [Schedule.after, if_neg hno, if_neg hno]
    exact ⟨hquiet.kept name schedule hkept hs, count_eq_zero.mpr (hquiet.executed name)⟩
  | endBlock contracts =>
    have hstage := executeReadySchedules_kept h (hlimit .endBlocker rfl) hs hkept
    simp only [isDue_iff] at hstage
    exact hstage

/-! ### Timers -/

/-- The schedule with this name, its period, its stage and the height of its last execution, in a
block of this height. -/
structure Tracked (name : Bytes) (period : ℕ) (stage : ExecutionStage) (last height : ℕ)
    (w : World ι) : Prop where
  dated : Dated w
  height : w.height.toNat = height
  stored : ∃ schedule, w.schedules[name]? = some schedule ∧ schedule.period.toNat = period
    ∧ schedule.executionStage = stage ∧ schedule.lastExecuteHeight.toNat = last

lemma intervalPassed_iff : intervalPassed w schedule = true
    ↔ Timer.Fires (2 ^ 64) schedule.period.toNat schedule.lastExecuteHeight.toNat
      w.height.toNat := by
  rw [intervalPassed, decide_eq_true_eq, UInt64.lt_iff_toNat_lt, UInt64.toNat_add]
  rfl

variable {period last height : ℕ} {stage : ExecutionStage}

lemma Tracked.exec (h : Tracked name period stage last height w) (hlimit : BelowLimit w e)
    (hkept : .removed name ∉ e.actions chain w) {now : ℕ} (hnow : (e.base w).height.toNat = now) :
    Tracked name period stage
        (if e.stage = some stage ∧ Timer.Fires (2 ^ 64) period last now then now else last) now
        (Run.exec (step chain) w e)
      ∧ (e.actions chain w).count (.executed name)
        = if e.stage = some stage ∧ Timer.Fires (2 ^ 64) period last now then 1 else 0 := by
  obtain ⟨schedule, hs, hperiod, hstage, hlast⟩ := h.stored
  have hlater := later_exec chain w e
  obtain ⟨hstored, hcount⟩ := exec_kept h.dated hlimit hs hkept
  have hdue : (e.stage = some schedule.executionStage
      ∧ intervalPassed (e.base w) schedule = true)
      ↔ e.stage = some stage ∧ Timer.Fires (2 ^ 64) period last now := by
    rw [intervalPassed_iff, hperiod, hstage, hlast, hnow]
  simp only [hdue] at hstored hcount
  refine ⟨⟨hlater.dated (h.dated.base e), ?_, _, hstored, ?_⟩, hcount⟩
  · rw [hlater.height, hnow]
  · unfold Schedule.after
    split_ifs
    · exact ⟨hperiod, hstage, hnow⟩
    · exact ⟨hperiod, hstage, hlast⟩

/-- A run that leaves a schedule to itself. -/
structure Undisturbed (chain : Chain ι) (name : Bytes) (w : World ι) (es : List (Event ι)) : Prop where
  /-- The limit of executions is never reached. -/
  limit : Run.Along (step chain) BelowLimit w es
  /-- The schedule is never removed. -/
  kept : ∀ height, (height, .removed name) ∉ history chain w es

lemma Undisturbed.head (h : Undisturbed chain name w (e :: es)) :
    BelowLimit w e ∧ .removed name ∉ e.actions chain w := by
  refine ⟨h.limit.1, ?_⟩
  intro hmem
  apply h.kept (e.base w).height.toNat
  exact mem_append_left _ (mem_map_of_mem hmem)

lemma Undisturbed.append (h : Undisturbed chain name w (es ++ fs)) :
    Undisturbed chain name w es ∧ Undisturbed chain name (Run.run (step chain) w es) fs := by
  obtain ⟨hlimit, hlimit'⟩ := along_append.mp h.limit
  have hkept := h.kept
  simp only [history_append, mem_append, not_or] at hkept
  exact ⟨⟨hlimit, fun height => (hkept height).1⟩, ⟨hlimit', fun height => (hkept height).2⟩⟩

lemma Undisturbed.tail (h : Undisturbed chain name w (e :: es)) :
    Undisturbed chain name (Run.exec (step chain) w e) es :=
  (Undisturbed.append (show Undisturbed chain name w ([e] ++ es) from h)).2

lemma count_map_pair (now height : ℕ) (action : Action) (l : List Action) :
    (l.map (now, ·)).count (height, action) = if now = height then l.count action else 0 := by
  split_ifs with heq
  · subst heq
    exact count_map_of_injective l _ (fun a b hab => (Prod.mk.inj hab).2) action
  · rw [count_eq_zero]
    intro hmem
    obtain ⟨a, -, ha⟩ := mem_map.mp hmem
    exact heq (Prod.mk.inj ha).1

/-- How often the schedule is executed at a height. -/
def executedAt (chain : Chain ι) (name : Bytes) (w : World ι) (es : List (Event ι))
    (height : ℕ) : ℕ :=
  (history chain w es).count (height, .executed name)

lemma executedAt_cons (height : ℕ) : executedAt chain name w (e :: es) height
    = (if (e.base w).height.toNat = height then (e.actions chain w).count (.executed name) else 0)
      + executedAt chain name (Run.exec (step chain) w e) es height := by
  rw [executedAt, history, count_append, count_map_pair]
  rfl

lemma executedAt_append (height : ℕ) : executedAt chain name w (es ++ fs) height
    = executedAt chain name w es height
      + executedAt chain name (Run.run (step chain) w es) fs height := by
  rw [executedAt, history_append, count_append]
  rfl

lemma Tracked.txs {txs : List (Callbacks.Script (Msg ι))}
    (h : Tracked name period stage last height w) (hrun : Undisturbed chain name w (txs.map .tx)) :
    Tracked name period stage last height (Run.run (step chain) w (txs.map .tx))
      ∧ ∀ x, executedAt chain name w (txs.map .tx) x = 0 := by
  induction txs generalizing w with
  | nil => exact ⟨h, fun _ => rfl⟩
  | cons script txs ih =>
    obtain ⟨hlimit, hkept⟩ := hrun.head
    obtain ⟨htracked, hcount⟩ := h.exec hlimit hkept h.height
    have hno : ¬((Event.tx script).stage = some stage
        ∧ Timer.Fires (2 ^ 64) period last height) := by
      rintro ⟨hstage, -⟩
      cases hstage
    rw [if_neg hno] at htracked hcount
    obtain ⟨hrest, hzero⟩ := ih htracked hrun.tail
    refine ⟨hrest, ?_⟩
    intro x
    rw [map_cons, executedAt_cons, hcount, ite_self, hzero]

/-- A block: its two stages and the transactions between them. -/
structure Block (ι : Type) where
  beginBlocker : Contracts ι
  txs : List (Callbacks.Script (Msg ι))
  endBlocker : Contracts ι

def Block.events (height : ℕ) (b : Block ι) : List (Event ι) :=
  .beginBlock (UInt64.ofNat height) b.beginBlocker :: (b.txs.map .tx ++ [.endBlock b.endBlocker])

/-- Consecutive blocks after a height. -/
def blocks (height : ℕ) : List (Block ι) → List (Event ι)
  | [] => []
  | b :: bs => b.events (height + 1) ++ blocks (height + 1) bs

/-- **A block is a tick**: its two stages execute the schedule if the timer fires, once. -/
lemma Tracked.block {b : Block ι} (h : Tracked name period stage last height w)
    (hnamed : stage.named = true) (hheight : height + 1 < 2 ^ 64)
    (hrun : Undisturbed chain name w (b.events (height + 1))) :
    Tracked name period stage
        (if Timer.Fires (2 ^ 64) period last (height + 1) then height + 1 else last) (height + 1)
        (Run.run (step chain) w (b.events (height + 1)))
      ∧ ∀ x, executedAt chain name w (b.events (height + 1)) x
        = if x = height + 1 ∧ Timer.Fires (2 ^ 64) period last (height + 1) then 1 else 0 := by
  have hnow : ((Event.beginBlock (UInt64.ofNat (height + 1)) b.beginBlocker).base w).height.toNat
      = height + 1 := UInt64.toNat_ofNat_of_lt' hheight
  obtain ⟨hlimit, hkept⟩ := hrun.head
  obtain ⟨htxs, hend⟩ := hrun.tail.append
  obtain ⟨hbegin, hcount⟩ := h.exec hlimit hkept hnow
  obtain ⟨hmiddle, hzero⟩ := hbegin.txs htxs
  obtain ⟨hlimit', hkept'⟩ := hend.head
  obtain ⟨hlast, hcount'⟩ := hmiddle.exec hlimit' hkept' hmiddle.height
  have hnow' : ((Event.endBlock b.endBlocker).base (Run.run (step chain) (Run.exec (step chain) w
      (.beginBlock (UInt64.ofNat (height + 1)) b.beginBlocker)) (b.txs.map .tx))).height.toNat
      = height + 1 := hmiddle.height
  have hexecuted : ∀ x, executedAt chain name w (b.events (height + 1)) x
      = (if height + 1 = x then (Event.actions chain w
          (.beginBlock (UInt64.ofNat (height + 1)) b.beginBlocker)).count (.executed name) else 0)
        + if height + 1 = x then (Event.actions chain (Run.run (step chain)
            (Run.exec (step chain) w (.beginBlock (UInt64.ofNat (height + 1)) b.beginBlocker))
            (b.txs.map .tx)) (.endBlock b.endBlocker)).count (.executed name) else 0 := by
    intro x
    rw [Block.events, executedAt_cons, executedAt_append, executedAt_cons, hzero, hnow, hnow',
      zero_add]
    rfl
  have hrunEq : Run.run (step chain) w (b.events (height + 1)) = Run.exec (step chain)
      (Run.run (step chain) (Run.exec (step chain) w
        (.beginBlock (UInt64.ofNat (height + 1)) b.beginBlocker)) (b.txs.map .tx))
      (.endBlock b.endBlocker) := run_concat _ _ _
  simp only [hexecuted, hrunEq, hcount, hcount']
  -- the schedule is executed in one of the two stages
  cases stage with
  | beginBlocker =>
    simp only [Event.stage, true_and, Option.some.injEq, reduceCtorEq, false_and, if_false]
      at hlast ⊢
    refine ⟨hlast, ?_⟩
    intro x
    by_cases hx : x = height + 1
    · simp [hx]
    · simp [hx, Ne.symm hx]
  | endBlocker =>
    simp only [Event.stage, true_and, Option.some.injEq, reduceCtorEq, false_and, if_false]
      at hlast ⊢
    refine ⟨hlast, ?_⟩
    intro x
    by_cases hx : x = height + 1
    · simp [hx]
    · simp [hx, Ne.symm hx]
  | unnamed value => cases hnamed

/-- **Blocks are the ticks of a timer.** -/
lemma Tracked.blocks {bs : List (Block ι)} {start j : ℕ} (hnamed : stage.named = true)
    (h : Tracked name period stage (Timer.last (2 ^ 64) period start j) (start + j) w)
    (hheight : start + j + bs.length < 2 ^ 64)
    (hrun : Undisturbed chain name w (blocks (start + j) bs)) (x : ℕ) :
    executedAt chain name w (blocks (start + j) bs) x
      = if start + j < x ∧ x ≤ start + j + bs.length
          ∧ Timer.Fires (2 ^ 64) period (Timer.last (2 ^ 64) period start (x - start - 1)) x
        then 1 else 0 := by
  induction bs generalizing w j with
  | nil =>
    rw [if_neg]
    · rfl
    · rw [length_nil]
      omega
  | cons b bs ih =>
    rw [length_cons] at hheight ⊢
    obtain ⟨hblock, hrest⟩ := hrun.append
    obtain ⟨htracked, hcount⟩ := h.block hnamed (by omega) hblock
    have hrest' := ih (j := j + 1) htracked (by omega) hrest
    show executedAt chain name w (b.events (start + j + 1) ++ Cron.blocks (start + (j + 1)) bs) x = _
    rw [executedAt_append, hcount, hrest']
    by_cases hx : x = start + j + 1
    · subst hx
      have hindex : start + j + 1 - start - 1 = j := by omega
      rw [hindex]
      simp [add_assoc]
    · rw [if_neg (fun hand => hx hand.1), zero_add]
      apply if_congr _ rfl rfl
      constructor
      · rintro ⟨hlt, hle, hfires⟩
        exact ⟨by omega, by omega, hfires⟩
      · rintro ⟨hlt, hle, hfires⟩
        exact ⟨by omega, by omega, hfires⟩

/-- The event is not the beginning of a block. -/
def Event.within : Event ι → Bool
  | .beginBlock _ _ => false
  | _ => true

/-- The rest of the block in which a schedule was added: it is not due, unless its period wraps
around, and the height of its last execution stays that of the block. -/
lemma Tracked.rest {start : ℕ} (h : Tracked name period stage start start w)
    (hwithin : ∀ e ∈ es, e.within = true) (hrun : Undisturbed chain name w es) :
    Tracked name period stage start start (Run.run (step chain) w es)
      ∧ (∀ x, x ≠ start → executedAt chain name w es x = 0)
      ∧ (start + period < 2 ^ 64 → executedAt chain name w es start = 0) := by
  induction es generalizing w with
  | nil => exact ⟨h, fun _ _ => rfl, fun _ => rfl⟩
  | cons e es ih =>
    have hbase : e.base w = w := by
      cases e with
      | beginBlock height contracts => cases hwithin _ mem_cons_self
      | tx script => rfl
      | endBlock contracts => rfl
    have hnow : (e.base w).height.toNat = start := by rw [hbase, h.height]
    obtain ⟨hlimit, hkept⟩ := hrun.head
    obtain ⟨htracked, hcount⟩ := h.exec hlimit hkept hnow
    rw [ite_self] at htracked
    obtain ⟨hlast, hzero, hsmall⟩ :=
      ih htracked (fun e' he' => hwithin e' (mem_cons_of_mem _ he')) hrun.tail
    refine ⟨hlast, ?_, ?_⟩
    · intro x hx
      rw [executedAt_cons, hnow, if_neg (Ne.symm hx), hzero x hx]
    · intro hsum
      have hquiet : ¬Timer.Fires (2 ^ 64) period start start := by
        rw [Timer.Fires, Nat.mod_eq_of_lt hsum]
        omega
      rw [executedAt_cons, hnow, if_pos rfl, hcount, hsmall hsum,
        if_neg (fun hand => hquiet hand.2)]

section After

variable {rest : List (Event ι)} {bs : List (Block ι)} {start : ℕ}
  (h : Tracked name period stage start start w) (hnamed : stage.named = true)
  (hrest : ∀ e ∈ rest, e.within = true) (hheight : start + bs.length < 2 ^ 63)
  (hrun : Undisturbed chain name w (rest ++ Cron.blocks start bs))

include h hnamed hrest hheight hrun

lemma Tracked.executedAt_eq (x : ℕ) :
    executedAt chain name w (rest ++ Cron.blocks start bs) x = executedAt chain name w rest x
      + if start < x ∧ x ≤ start + bs.length
          ∧ Timer.Fires (2 ^ 64) period (Timer.last (2 ^ 64) period start (x - start - 1)) x
        then 1 else 0 := by
  obtain ⟨hbefore, hafter⟩ := hrun.append
  obtain ⟨htracked, -⟩ := h.rest hrest hbefore
  have hheight' : start + 0 + bs.length < 2 ^ 64 := by omega
  rw [executedAt_append]
  congr 1
  exact Tracked.blocks (j := 0) hnamed htracked hheight' hafter x

variable {x : ℕ}

lemma Tracked.executedAt_of_lt (hsum : start + period < 2 ^ 64) (hx : x ≤ start + bs.length) :
    executedAt chain name w (rest ++ Cron.blocks start bs) x
      = if start < x ∧ period + 1 ∣ x - start then 1 else 0 := by
  obtain ⟨-, hzero, hsmall⟩ := h.rest hrest hrun.append.1
  have hnone : executedAt chain name w rest x = 0 := by
    by_cases heq : x = start
    · rw [heq]
      exact hsmall hsum
    · exact hzero x heq
  rw [h.executedAt_eq hnamed hrest hheight hrun, hnone, zero_add]
  apply if_congr _ rfl rfl
  by_cases hlt : start < x
  · have hfires := Timer.fires_iff_dvd (j := x - start - 1) hsum (by omega)
    rw [show start + (x - start - 1 + 1) = x by omega,
      show x - start - 1 + 1 = x - start by omega] at hfires
    rw [hfires]
    exact ⟨fun hand => ⟨hlt, hand.2.2⟩, fun hand => ⟨hlt, hx, hand.2⟩⟩
  · exact iff_of_false (fun hand => hlt hand.1) (fun hand => hlt hand.1)

lemma Tracked.executedAt_of_wraps (hsum : 2 ^ 64 ≤ start + period)
    (hperiod : period < 2 ^ 64) (hlt : start < x) (hx : x ≤ start + bs.length) :
    executedAt chain name w (rest ++ Cron.blocks start bs) x = 1 := by
  obtain ⟨-, hzero, -⟩ := h.rest hrest hrun.append.1
  have hfires := Timer.fires_of_wraps (j := x - start - 1) hsum hperiod (by omega)
  rw [show start + (x - start - 1 + 1) = x by omega] at hfires
  rw [h.executedAt_eq hnamed hrest hheight hrun, hzero x (by omega), if_pos ⟨hlt, hx, hfires⟩]

/-- It is executed in every block whose distance is a multiple of the period, if there is none. -/
lemma Tracked.executedAt_iff (hperiod : 0 < period) (hperiod' : period < 2 ^ 64) (hne : bs ≠ []) :
    (∀ x ≤ start + bs.length, executedAt chain name w (rest ++ Cron.blocks start bs) x
        = if start < x ∧ period ∣ x - start then 1 else 0)
      ↔ start + period < 2 ^ 64 ∧ bs.length < period := by
  have hlen : 0 < bs.length := length_pos_iff.mpr hne
  constructor
  · intro hclaimed
    have hsum : start + period < 2 ^ 64 := by
      by_contra hge
      -- executed in the next block, which is not a whole period later
      have hnext := h.executedAt_of_wraps (x := start + 1) hnamed hrest hheight hrun
        (not_lt.mp hge) hperiod' (by omega) (by omega)
      rw [hclaimed (start + 1) (by omega), if_neg] at hnext
      · cases hnext
      · rintro ⟨-, hdvd⟩
        have := Nat.le_of_dvd (by omega) hdvd
        omega
    refine ⟨hsum, ?_⟩
    by_contra hge
    -- not executed one period later
    have hfirst := hclaimed (start + period) (by omega)
    rw [h.executedAt_of_lt hnamed hrest hheight hrun hsum (by omega), Nat.add_sub_cancel_left,
      if_neg, if_pos ⟨by omega, dvd_rfl⟩] at hfirst
    · cases hfirst
    · rintro ⟨-, hdvd⟩
      have := Nat.le_of_dvd hperiod hdvd
      omega
  · rintro ⟨hsum, hshort⟩ x hx
    have hnone : ∀ n, period ≤ n → ¬(start < x ∧ n ∣ x - start) := by
      rintro n hn ⟨hlt, hdvd⟩
      have := Nat.le_of_dvd (by omega) hdvd
      omega
    rw [h.executedAt_of_lt hnamed hrest hheight hrun hsum hx, if_neg (hnone (period + 1) (by omega)),
      if_neg (hnone period le_rfl)]

end After

/-! ### When a schedule is executed -/

lemma dated_initial (h : Initial w) : Dated w where
  own := h.sound.own
  added name schedule _ hadded := by
    rw [h.log] at hadded
    cases hadded

lemma dated_initGenesis {genState : GenesisState} (h : Initial w)
    (he : initGenesis w genState = .ok w') : Dated w' := by
  obtain ⟨w₁, hw₁, he⟩ := bind_ok he
  cases he
  have hdated : Dated w₁ := by
    refine foldlM_invariant (I := Dated) (dated_initial h) ?_ (mapError_ok hw₁)
    intro s elem s' hs hadd
    obtain ⟨schedule, hnew, hheight, rfl⟩ := addSchedule_ok hadd
    exact (quiet_add hnew hheight).dated hs
  exact ⟨hdated.own, hdated.added⟩

lemma dated_run (h : Dated w) (es : List (Event ι)) : Dated (Run.run (step chain) w es) := by
  induction es generalizing w with
  | nil => exact h
  | cons e es ih => exact ih ((later_exec chain w e).dated (h.base e))

/-- **When schedules are executed.**  A schedule with period `P` was added in the block of height
`h` of a run, and the run goes on with the rest of that block and some consecutive blocks, in which
the limit is not reached and the schedule is not removed.  If `h + P` is a number of 64 bits, the
schedule is executed in every `P + 1`-th block; otherwise, in every block.  It is executed in every
`P`-th block if and only if the run ends before the first of these. -/
theorem cron_timing_iff (chain : Chain ι) {fresh w₀ w : World ι} (hfresh : Initial fresh)
    {genState : GenesisState} (hgenesis : initGenesis fresh genState = .ok w₀)
    (past : List (Event ι)) (hw : Run.run (step chain) w₀ past = w)
    {name : Bytes} {schedule : Schedule} (hstored : w.schedules[name]? = some schedule)
    (hadded : .added name ∈ w.log) (hperiod : schedule.period ≠ 0)
    (hnamed : schedule.executionStage.named = true)
    (rest : List (Event ι)) (hrest : ∀ e ∈ rest, e.within = true)
    (bs : List (Block ι)) (hheight : w.height.toNat + bs.length < 2 ^ 63)
    (hrun : Undisturbed chain name w (rest ++ blocks w.height.toNat bs)) :
    (w.height.toNat + schedule.period.toNat < 2 ^ 64 → ∀ x ≤ w.height.toNat + bs.length,
        executedAt chain name w (rest ++ blocks w.height.toNat bs) x
          = if w.height.toNat < x ∧ schedule.period.toNat + 1 ∣ x - w.height.toNat then 1 else 0)
      ∧ (2 ^ 64 ≤ w.height.toNat + schedule.period.toNat →
          ∀ x, w.height.toNat < x → x ≤ w.height.toNat + bs.length →
            executedAt chain name w (rest ++ blocks w.height.toNat bs) x = 1)
      ∧ (bs ≠ [] →
          ((∀ x ≤ w.height.toNat + bs.length,
              executedAt chain name w (rest ++ blocks w.height.toNat bs) x
                = if w.height.toNat < x ∧ schedule.period.toNat ∣ x - w.height.toNat then 1 else 0)
            ↔ w.height.toNat + schedule.period.toNat < 2 ^ 64
              ∧ bs.length < schedule.period.toNat)) := by
  have hdated : Dated w := hw ▸ dated_run (dated_initGenesis hfresh hgenesis) past
  have hlast := hdated.added name schedule hstored hadded
  have htracked : Tracked name schedule.period.toNat schedule.executionStage w.height.toNat
      w.height.toNat w := ⟨hdated, rfl, schedule, hstored, rfl, rfl, by rw [hlast]⟩
  have hpositive : 0 < schedule.period.toNat := by
    apply Nat.pos_of_ne_zero
    intro hzero
    exact hperiod (UInt64.toNat_inj.mp hzero)
  have hlt := schedule.period.toNat_lt
  refine ⟨?_, ?_, ?_⟩
  · intro hsum x hx
    exact htracked.executedAt_of_lt hnamed hrest hheight hrun hsum hx
  · intro hsum x hx hx'
    exact htracked.executedAt_of_wraps hnamed hrest hheight hrun hsum hlt hx hx'
  · intro hne
    exact htracked.executedAt_iff hnamed hrest hheight hrun hpositive hlt hne

/-- A block in which nothing happens but the execution of schedules. -/
def idle : Block Unit where
  beginBlocker := fun _ _ => .accept
  txs := []
  endBlocker := fun _ _ => .accept

/-- A schedule with period 2 that is added at height 0 is executed at height 3 and not at
height 2.  One with the largest period that is added at height 1 is executed at height 2. -/
theorem late_and_early :
    (executedAt demoChain (ascii "a") demoWorld (blocks 0 [idle, idle, idle]) 2 = 0
        ∧ executedAt demoChain (ascii "a") demoWorld (blocks 0 [idle, idle, idle]) 3 = 1)
      ∧ (initGenesis { demoFresh with height := 1 }
          { demoGenesis with scheduleList := [{ demoSchedule "c" with period := 2 ^ 64 - 1 }] }).map
            (fun w => executedAt demoChain (ascii "c") w (blocks 1 [idle]) 2) = .ok 1 := by
  decide +kernel

lemma undisturbed_idle :
    Undisturbed demoChain (ascii "a") demoWorld ([] ++ blocks demoWorld.height.toNat
      [idle, idle, idle]) := by
  constructor
  · refine ⟨?_, ?_, ?_, ?_, ?_, ?_, trivial⟩
    all_goals
      rintro stage ⟨⟩
      decide +kernel
  · intro height hmem
    have hhistory : history demoChain demoWorld ([] ++ blocks demoWorld.height.toNat
        [idle, idle, idle]) = [(3, .executed (ascii "b")), (3, .executed (ascii "a"))] := by
      decide +kernel
    rw [hhistory] at hmem
    simp at hmem

/-- The schedule of the genesis, in three blocks. -/
theorem cron_timing_iff_idle :
    executedAt demoChain (ascii "a") demoWorld ([] ++ blocks 0 [idle, idle, idle]) 3 = 1 := by
  have hfresh : Initial demoFresh := ⟨rfl, rfl, rfl⟩
  have hstored : demoWorld.schedules[ascii "a"]? = some (demoSchedule "a") := by decide +kernel
  have hadded : .added (ascii "a") ∈ demoWorld.log := by decide +kernel
  have hnow : Run.run (step demoChain) demoWorld [] = demoWorld := rfl
  have htiming := cron_timing_iff demoChain hfresh initGenesis_demoWorld [] hnow hstored hadded
    (by decide) rfl [] (by simp) [idle, idle, idle] (by decide +kernel) undisturbed_idle
  have hthree := htiming.1 (by decide +kernel) 3 (by decide +kernel)
  have hzero : demoWorld.height.toNat = 0 := by decide +kernel
  rw [hzero] at hthree
  exact hthree.trans (if_pos (by decide))

end MaanyDex.Cron
