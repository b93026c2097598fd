/-
Export and import of the registered queries.

`ExportGenesis` has the queries and nothing else, so the last id that was assigned is taken from
the largest one that is still registered, and the hashes of the transactions that were processed
are lost (`lookup_initGenesis`).
-/
import MaanyDex.InterchainQueries.Registry

namespace MaanyDex.InterchainQueries

open List AList

variable {ι : Type} {chain : Chain ι} {w w' : World ι}

/-! ### Export and import -/

/-- `GenesisState`, without the parameters. -/
structure GenesisState where
  registeredQueries : List RegisteredQuery

/-- `GetAllRegisteredQueries`, in the order of the store, which is that of the ids. -/
def getAllRegisteredQueries (w : World ι) : List RegisteredQuery :=
  (w.queries.entries.insertionSort fun e e' => e.1 ≤ e'.1).map (·.2)

def exportGenesis (w : World ι) : GenesisState := ⟨getAllRegisteredQueries w⟩

def setLastRegisteredQueryKey (w : World ι) (id : UInt64) : World ι := { w with lastID := id }

/-- The loop of `InitGenesis`. -/
def loadQueries (w : World ι) (queries : List RegisteredQuery) : World ι :=
  queries.foldl (fun w elem => saveQuery (setLastRegisteredQueryKey w elem.id) elem) w

def initGenesis (w : World ι) (genState : GenesisState) : World ι :=
  loadQueries w (genState.registeredQueries.insertionSort fun q q' => q.id ≤ q'.id)

/-! ### Ids -/

/-- Queries are stored under their ids. -/
def Own (w : World ι) : Prop := ∀ id query, w.queries.lookup id = some query → query.id = id

lemma Own.insert (h : Own w) (query : RegisteredQuery) {id : UInt64} (hid : query.id = id)
    (hw' : w'.queries = w.queries.insert id query) : Own w' := by
  intro id' query' hquery'
  rw [hw'] at hquery'
  by_cases heq : id' = id
  · rw [heq, lookup_insert] at hquery'
    rw [← Option.some.inj hquery', hid, heq]
  · rw [lookup_insert_ne heq] at hquery'
    exact h id' query' hquery'

lemma Own.remove (h : Own w) (query : RegisteredQuery)
    (hw' : w'.queries = w.queries.erase query.id) : Own w' := by
  intro id' query' hquery'
  rw [hw'] at hquery'
  by_cases heq : id' = query.id
  · rw [heq, lookup_erase] at hquery'
    cases hquery'
  · rw [lookup_erase_ne heq] at hquery'
    exact h id' query' hquery'

lemma Own.effect {msg : Msg ι} {called : Option Callback} (h : Own w)
    (he : Effect chain w msg w' called) : Own w' := by
  cases he with
  | @register msg => exact h.insert (newQuery w msg) rfl rfl
  | @remove _ query => exact h.remove query (removeQuery_queries w query)
  | update => exact h.insert _ rfl rfl
  | kvResult => exact h.insert _ rfl rfl
  | saveKVQueryResult => exact h.insert _ rfl rfl
  | updateLastRemoteHeight => exact h.insert _ rfl rfl
  | processed => exact h.insert _ rfl rfl
  | _ => exact h

lemma own_invariant :
    Callbacks.Invariant (system chain) (fun _ _ _ => True) (fun _ w => Own w) where
  done h _ he := h.effect (enter_ok he)
  call h _ he := h.effect (enter_ok he)
  back _ _ _ h he := by
    rcases resume_ok he with ⟨-, rfl⟩ | ⟨queryID, txHash, id, query, rfl, hquery, rfl⟩
    · exact h
    · exact h.insert _ rfl rfl

lemma Own.step {e : Event ι} (h : Own w) (he : step chain w e = .ok w') : Own w' := by
  cases e with
  | tx script => exact own_invariant.exec (Callbacks.meets_true script [] w) h he
  | endBlock =>
    obtain ⟨w₁, hclean, he⟩ := Run.bind_ok he
    cases he
    obtain ⟨store, rfl, -, -⟩ := txQueriesCleanup_ok hclean
    exact h

lemma Own.initGenesis (h : Own w) (genState : GenesisState) :
    Own (InterchainQueries.initGenesis w genState) := by
  unfold InterchainQueries.initGenesis loadQueries
  induction (genState.registeredQueries.insertionSort fun q q' => q.id ≤ q'.id) generalizing w with
  | nil => exact h
  | cons elem rest ih =>
    apply ih
    exact h.insert elem rfl rfl

/-- The states of the module after a start and a run. -/
def FromGenesis (chain : Chain ι) (w : World ι) : Prop :=
  ∃ fresh genState es, Initial fresh ∧ Run.run (step chain) (initGenesis fresh genState) es = w

/-- **Queries are always stored under their ids.** -/
lemma FromGenesis.own (h : FromGenesis chain w) : Own w := by
  obtain ⟨fresh, genState, es, hfresh, rfl⟩ := h
  have hstart : Own fresh := by
    intro id query hquery
    rw [hfresh.queries] at hquery
    cases hquery
  exact Run.run_invariant (C := fun _ _ => True) (hstart.initGenesis genState)
    (fun _ _ _ hI _ he => hI.step he) (Run.along_of_forall fun _ _ _ => trivial)

/-! ### Import -/

lemma mem_getAllRegisteredQueries (hown : Own w) {query : RegisteredQuery} :
    query ∈ getAllRegisteredQueries w ↔ w.queries.lookup query.id = some query := by
  unfold getAllRegisteredQueries
  constructor
  · intro h
    obtain ⟨⟨id, query⟩, he, rfl⟩ := mem_map.mp h
    have hentry := (perm_insertionSort _ _).mem_iff.mp he
    have hlookup := Option.mem_def.mp (mem_lookup_iff.mpr hentry)
    rw [hown id query hlookup]
    exact hlookup
  · intro h
    refine mem_map.mpr ⟨⟨query.id, query⟩, (perm_insertionSort _ _).mem_iff.mpr ?_, rfl⟩
    exact mem_lookup_iff.mp (Option.mem_def.mpr h)

lemma loadQueries_append (w : World ι) (l : List RegisteredQuery) (query : RegisteredQuery) :
    loadQueries w (l ++ [query])
      = saveQuery (setLastRegisteredQueryKey (loadQueries w l) query.id) query := by
  unfold loadQueries
  rw [foldl_append]
  rfl

variable {l : List RegisteredQuery}

/-- What is loaded: the queries of the list, and nothing of the store of hashes. -/
lemma loadQueries_spec (hsame : ∀ q ∈ l, ∀ q' ∈ l, q.id = q'.id → q = q') :
    (loadQueries w l).store = w.store
      ∧ (∀ q ∈ l, (loadQueries w l).queries.lookup q.id = some q)
      ∧ ∀ id, (∀ q ∈ l, q.id ≠ id) → (loadQueries w l).queries.lookup id = w.queries.lookup id := by
  induction l using List.reverseRecOn with
  | nil =>
    refine ⟨rfl, fun q hq => ?_, fun id _ => rfl⟩
    cases hq
  | append_singleton l query ih =>
    rw [loadQueries_append]
    obtain ⟨hstore, hloaded, hother⟩ := ih fun q hq q' hq' =>
      hsame q (mem_append_left _ hq) q' (mem_append_left _ hq')
    have hquery : query ∈ l ++ [query] := mem_append_right _ mem_cons_self
    have hlookup : ∀ id, (saveQuery (setLastRegisteredQueryKey (loadQueries w l) query.id)
        query).queries.lookup id
        = ((loadQueries w l).queries.insert query.id query).lookup id := fun _ => rfl
    refine ⟨hstore, fun q hq => ?_, fun id hid => ?_⟩
    · rw [hlookup]
      by_cases heq : q.id = query.id
      · rw [hsame q hq query hquery heq, lookup_insert]
      · rw [lookup_insert_ne heq]
        rcases mem_append.mp hq with hq | hq
        · exact hloaded q hq
        · exact absurd (congrArg RegisteredQuery.id (mem_singleton.mp hq)) heq
    · rw [hlookup, lookup_insert_ne (hid query hquery).symm]
      exact hother id fun q hq => hid q (mem_append_left _ hq)

lemma lastID_loadQueries (hsorted : l.Pairwise fun q q' => q.id ≤ q'.id) (hzero : w.lastID = 0) :
    (∀ q ∈ l, q.id ≤ (loadQueries w l).lastID)
      ∧ ((loadQueries w l).lastID = 0 ∨ ∃ q ∈ l, q.id = (loadQueries w l).lastID) := by
  induction l using List.reverseRecOn with
  | nil =>
    refine ⟨fun q hq => ?_, Or.inl hzero⟩
    cases hq
  | append_singleton l query _ =>
    rw [loadQueries_append]
    obtain ⟨-, -, hle⟩ := pairwise_append.mp hsorted
    refine ⟨fun q hq => ?_, Or.inr ⟨query, mem_append_right _ mem_cons_self, rfl⟩⟩
    show q.id ≤ query.id
    rcases mem_append.mp hq with hq | hq
    · exact hle q hq query mem_cons_self
    · rw [mem_singleton.mp hq]
      exact UInt64.le_refl _

/-! ### What survives -/

/-- The queries, the next id, and the hashes of the registered queries are the same. -/
structure SameQueries (w w' : World ι) : Prop where
  queries : ∀ id, w'.queries.lookup id = w.queries.lookup id
  nextID : w'.lastID + 1 = w.lastID + 1
  hashes : ∀ id, w.queries.lookup id ≠ none → ∀ txHash,
    checkTransactionIsAlreadyProcessed w' id txHash = checkTransactionIsAlreadyProcessed w id txHash

/-- When export and import change nothing: the last id that was assigned is still registered, and
no transaction was processed for a registered query. -/
structure Portable (w : World ι) : Prop where
  largest : ∀ id, w.queries.lookup id ≠ none → id ≤ w.lastID
  registered : w.lastID = 0 ∨ w.queries.lookup w.lastID ≠ none
  unprocessed : ∀ id, w.queries.lookup id ≠ none → ∀ txHash,
    checkTransactionIsAlreadyProcessed w id txHash = false

variable {fresh : World ι}

/-- **Import after export**: the queries are there, the last id is the largest one of them, and
there are no hashes. -/
lemma initGenesis_exportGenesis (hfresh : Initial fresh) (hown : Own w) :
    (∀ id, (initGenesis fresh (exportGenesis w)).queries.lookup id = w.queries.lookup id)
      ∧ (∀ id, w.queries.lookup id ≠ none → id ≤ (initGenesis fresh (exportGenesis w)).lastID)
      ∧ ((initGenesis fresh (exportGenesis w)).lastID = 0
        ∨ w.queries.lookup (initGenesis fresh (exportGenesis w)).lastID ≠ none)
      ∧ (initGenesis fresh (exportGenesis w)).store = ∅ := by
  set l := (getAllRegisteredQueries w).insertionSort fun q q' => q.id ≤ q'.id with hl
  have hmem : ∀ q, q ∈ l ↔ w.queries.lookup q.id = some q := fun q =>
    (perm_insertionSort _ _).mem_iff.trans (mem_getAllRegisteredQueries hown)
  have hstored : ∀ id, w.queries.lookup id ≠ none → ∃ q ∈ l, q.id = id ∧
      w.queries.lookup id = some q := by
    intro id hid
    obtain ⟨q, hq⟩ := Option.ne_none_iff_exists'.mp hid
    have hqid := hown id q hq
    exact ⟨q, (hmem q).mpr (by rw [hqid]; exact hq), hqid, hq⟩
  have hsame : ∀ q ∈ l, ∀ q' ∈ l, q.id = q'.id → q = q' := by
    intro q hq q' hq' heq
    have hlookup := (hmem q).mp hq
    rw [heq, (hmem q').mp hq'] at hlookup
    exact (Option.some.inj hlookup).symm
  have hsorted : l.Pairwise fun q q' => q.id ≤ q'.id := by
    have : Std.Total fun q q' : RegisteredQuery => q.id ≤ q'.id := ⟨fun q q' => UInt64.le_total _ _⟩
    have : IsTrans RegisteredQuery fun q q' => q.id ≤ q'.id := ⟨fun _ _ _ => UInt64.le_trans⟩
    exact pairwise_insertionSort _ _
  obtain ⟨hstore, hloaded, hother⟩ := loadQueries_spec (w := fresh) hsame
  obtain ⟨hlargest, hlast⟩ := lastID_loadQueries (w := fresh) hsorted hfresh.lastID
  refine ⟨fun id => ?_, fun id hid => ?_, ?_, hstore.trans hfresh.store⟩
  · show (loadQueries fresh l).queries.lookup id = _
    rcases hquery : w.queries.lookup id with - | query
    · rw [hother id, hfresh.queries]
      · rfl
      · intro q hq heq
        have hlookup := (hmem q).mp hq
        rw [heq, hquery] at hlookup
        cases hlookup
    · have hid := hown id query hquery
      rw [← hid]
      exact hloaded query ((hmem query).mpr (by rw [hid]; exact hquery))
  · obtain ⟨q, hq, rfl, -⟩ := hstored id hid
    exact hlargest q hq
  · rcases hlast with hzero | ⟨q, hq, hqid⟩
    · exact .inl hzero
    · refine Or.inr ?_
      show w.queries.lookup (loadQueries fresh l).lastID ≠ none
      rw [← hqid, (hmem q).mp hq]
      exact Option.some_ne_none q

/-- **What survives export and import** of the queries. -/
lemma sameQueries_iff (hfresh : Initial fresh) (hown : Own w) :
    SameQueries w (initGenesis fresh (exportGenesis w)) ↔ Portable w := by
  obtain ⟨hqueries, hlargest, hlast, hstore⟩ := initGenesis_exportGenesis hfresh hown
  have hunprocessed : ∀ id txHash, checkTransactionIsAlreadyProcessed
      (initGenesis fresh (exportGenesis w)) id txHash = false := by
    intro id txHash
    unfold checkTransactionIsAlreadyProcessed
    rw [hstore, KVStore.has, KVStore.get_empty]
    rfl
  constructor
  · intro h
    have hid : (initGenesis fresh (exportGenesis w)).lastID = w.lastID :=
      (UInt64.add_left_inj _).mp h.nextID
    rw [hid] at hlargest hlast
    refine ⟨hlargest, hlast, fun id hreg txHash => ?_⟩
    rw [← h.hashes id hreg, hunprocessed]
  · intro h
    refine ⟨hqueries, congrArg (· + 1) ?_, fun id hreg txHash => ?_⟩
    · -- both are the largest id, or zero
      apply UInt64.le_antisymm
      · rcases hlast with hzero | hreg
        · rw [hzero]
          exact UInt64.zero_le
        · exact h.largest _ hreg
      · rcases h.registered with hzero | hreg
        · rw [hzero]
          exact UInt64.zero_le
        · exact hlargest _ hreg
    · rw [hunprocessed, h.unprocessed id hreg]

end MaanyDex.InterchainQueries
