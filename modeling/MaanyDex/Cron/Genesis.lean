/-
Export and import of the schedules.

`InitGenesis` adds the schedules as if they were new, so each of them looks as if it had been
executed when the chain was started again (`initGenesis_exportGenesis`).
-/
import MaanyDex.Cron.Timing

namespace MaanyDex.Cron

open Std.ExtTreeMap List

variable {ι : Type} {chain : Chain ι} {w w' : World ι}

def exportGenesis (w : World ι) : GenesisState where
  scheduleList := getAllSchedules w
  params := w.params

variable {schedule : Schedule} {list : List Schedule}

/-- The states of the module after a start and a run. -/
def FromGenesis (chain : Chain ι) (w : World ι) : Prop :=
  ∃ fresh w₀ genState es, Initial fresh ∧ initGenesis fresh genState = .ok w₀
    ∧ Run.run (step chain) w₀ es = w

/-- **Schedules are always stored under their names.** -/
lemma FromGenesis.own (h : FromGenesis chain w) : Own w := by
  obtain ⟨fresh, w₀, genState, es, hfresh, hgenesis, rfl⟩ := h
  exact (dated_run (dated_initGenesis hfresh hgenesis) es).own

/-! ### Import -/

/-- What `InitGenesis` makes of a schedule. -/
def Schedule.restarted (height : UInt64) (schedule : Schedule) : Schedule :=
  { schedule with lastExecuteHeight := height }

/-- The module after a schedule of the genesis was added. -/
def restart (w : World ι) (schedule : Schedule) : World ι :=
  record (changeTotalCount (storeSchedule w (schedule.restarted w.height)) 1) (.added schedule.name)

lemma addSchedule_of_notMem (h : schedule.name ∉ w.schedules) :
    addSchedule w schedule.name schedule.period schedule.msgs schedule.executionStage
      = .ok (restart w schedule) := by
  have hexists : scheduleExists w schedule.name = false := by
    rw [Bool.eq_false_iff]
    exact fun htrue => h (contains_iff_mem.mp htrue)
  unfold addSchedule
  rw [hexists]
  rfl

lemma addSchedules_of_nodup (hnodup : (list.map Schedule.name).Nodup)
    (hnew : ∀ schedule ∈ list, schedule.name ∉ w.schedules) :
    ∃ w', list.foldlM (fun w (elem : Schedule) =>
        addSchedule w elem.name elem.period elem.msgs elem.executionStage) w = .ok w'
      ∧ w'.count = w.count + Int32.ofNat list.length
      ∧ (∀ schedule ∈ list, w'.schedules[schedule.name]? = some (schedule.restarted w.height))
      ∧ ∀ name ∉ list.map Schedule.name, w'.schedules[name]? = w.schedules[name]? := by
  induction list generalizing w with
  | nil =>
    refine ⟨w, rfl, (Int32.add_zero _).symm, fun _ hs => ?_, fun _ _ => rfl⟩
    cases hs
  | cons schedule list ih =>
    obtain ⟨hfirst, hrest⟩ := nodup_cons.mp hnodup
    have hnew' : ∀ s ∈ list, s.name ∉ (restart w schedule).schedules := by
      intro s hs hmem
      rcases mem_storeSchedule hmem with heq | hmem
      · exact hfirst (heq ▸ mem_map_of_mem hs)
      · exact hnew s (mem_cons_of_mem _ hs) hmem
    obtain ⟨w', hw', hcount, hstored, hother⟩ := ih hrest hnew'
    refine ⟨w', ?_, ?_, fun s hs => ?_, fun name hname => ?_⟩
    · rw [foldlM_cons, addSchedule_of_notMem (hnew schedule mem_cons_self)]
      exact hw'
    · rw [hcount, length_cons, Int32.ofNat_add, Int32.add_comm (Int32.ofNat _),
        ← Int32.add_assoc]
      rfl
    · rcases mem_cons.mp hs with rfl | hs
      · rw [hother _ hfirst]
        exact getElem?_insert_self
      · exact hstored s hs
    · obtain ⟨hne, hname⟩ := not_or.mp (fun h => hname (mem_cons.mpr h))
      rw [hother name hname]
      exact getElem?_insert_of_ne _ (Ne.symm hne)

variable {fresh : World ι}

/-- **Import after export**: every schedule is there, as if it had just been executed, and the
count is their number. -/
lemma initGenesis_exportGenesis (hfresh : Initial fresh) (hown : Own w) :
    ∃ w', initGenesis fresh (exportGenesis w) = .ok w'
      ∧ (∀ name : Bytes, w'.schedules[name]?
        = (w.schedules[name]?).map (Schedule.restarted fresh.height))
      ∧ w'.count = Int32.ofNat w.schedules.size := by
  have hnew : ∀ schedule ∈ getAllSchedules w, schedule.name ∉ fresh.schedules := by
    intro schedule _ hmem
    rw [hfresh.schedules] at hmem
    exact not_mem_empty hmem
  obtain ⟨w₁, hw₁, hcount, hstored, hother⟩ := addSchedules_of_nodup hown.nodup_names hnew
  refine ⟨{ w₁ with params := w.params }, ?_, fun name => ?_, ?_⟩
  · unfold initGenesis exportGenesis
    dsimp only
    rw [hw₁]
    rfl
  · show w₁.schedules[name]? = _
    rcases hget : w.schedules[name]? with - | schedule
    · rw [hother, hfresh.schedules, getElem?_empty]
      · rfl
      · intro hmem
        obtain ⟨s, hs, rfl⟩ := mem_map.mp hmem
        rw [hown.mem_getAllSchedules.mp hs] at hget
        cases hget
    · obtain rfl := hown name schedule hget
      exact hstored schedule (hown.mem_getAllSchedules.mpr hget)
  · show w₁.count = _
    rw [hcount, hfresh.count, Int32.zero_add, getAllSchedules, length_map, length_toList]

/-- The schedules and their count are the same. -/
def SameSchedules (w w' : World ι) : Prop :=
  (∀ name : Bytes, w'.schedules[name]? = w.schedules[name]?) ∧ w'.count = w.count

/-- When export and import change nothing: every schedule was executed last at the height of the
import, and the count is right. -/
def Restartable (height : UInt64) (w : World ι) : Prop :=
  (∀ (name : Bytes) (schedule : Schedule), w.schedules[name]? = some schedule →
    schedule.lastExecuteHeight = height)
    ∧ w.count = Int32.ofNat w.schedules.size

/-- **What survives export and import** of the schedules. -/
lemma sameSchedules_iff (hfresh : Initial fresh) (hown : Own w) :
    (∃ w', initGenesis fresh (exportGenesis w) = .ok w' ∧ SameSchedules w w')
      ↔ Restartable fresh.height w := by
  obtain ⟨w', hw', hschedules, hcount⟩ := initGenesis_exportGenesis hfresh hown
  have hsame : SameSchedules w w' ↔ Restartable fresh.height w := by
    unfold SameSchedules Restartable
    rw [hcount]
    refine and_congr ⟨fun h name schedule hget => ?_, fun h name => ?_⟩ eq_comm
    · have hname := h name
      rw [hschedules, hget] at hname
      exact (congrArg Schedule.lastExecuteHeight (Option.some.inj hname)).symm
    · rw [hschedules]
      rcases hget : w.schedules[name]? with - | schedule
      · rfl
      · rw [← h name schedule hget]
        rfl
  rw [← hsame]
  constructor
  · rintro ⟨w'', hw'', h⟩
    rw [hw'] at hw''
    cases hw''
    exact h
  · exact fun h => ⟨w', hw', h⟩

end MaanyDex.Cron
