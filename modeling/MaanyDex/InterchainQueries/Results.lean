/-
Does a stored result answer the query?

A result and its query are two records.  `SubmitQueryResult` checks the entries of a result
against the keys of the query and its height against the last one, and writes both records.
But the keys can be changed afterwards (`UpdateInterchainQuery`), the height can be raised on
its own (`UpdateLastRemoteHeight`), and a result can be stored without the checks
(`SaveKVQueryResult`).  Each of the three takes the records apart (`results_go_stale`).
-/
import MaanyDex.InterchainQueries.Registry

namespace MaanyDex.InterchainQueries

open AList

variable {ι : Type} {chain : Chain ι} {w w' : World ι} {msg : Msg ι} {called : Option Callback}

/-! ### Heights -/

/-- The order of heights: by revision, then by height. -/
def Height.lt (h h' : Height) : Prop :=
  h.revisionNumber < h'.revisionNumber
    ∨ h.revisionNumber = h'.revisionNumber ∧ h.revisionHeight < h'.revisionHeight

lemma Height.lt_of_not_gte {h h' : Height} (hgte : h.gte h' = false) : h.lt h' := by
  unfold Height.gte at hgte
  obtain ⟨hrevision, hheight⟩ := Bool.or_eq_false_iff.mp hgte
  have hrevision := of_decide_eq_false hrevision
  by_cases heq : h.revisionNumber = h'.revisionNumber
  · rw [decide_eq_true heq, Bool.true_and] at hheight
    exact .inr ⟨heq, UInt64.not_le.mp (of_decide_eq_false hheight)⟩
  · exact .inl (UInt64.lt_of_le_of_ne (UInt64.not_lt.mp hrevision) heq)

/-! ### The link -/

def QueryResult.remoteHeight (result : QueryResult) : Height := ⟨result.revision, result.height⟩

/-- The result answers the query, and the query knows its height. -/
structure Link (query : RegisteredQuery) (result : QueryResult) : Prop where
  answers : Answers query result
  height : query.lastSubmittedResultRemoteHeight = some result.remoteHeight

/-- Stored results answer the key-value queries that are registered under their ids. -/
def Linked (w : World ι) : Prop :=
  ∀ id query result, w.queries.lookup id = some query → isKV query.queryType = true →
    w.results.lookup id = some result → Link query result

/-- From one result of a key-value query to the next, the height increases. -/
def Advances (w w' : World ι) : Prop :=
  ∀ id query result result', w.queries.lookup id = some query → isKV query.queryType = true →
    w.results.lookup id = some result → w'.results.lookup id = some result' →
    result' = result ∨ result.remoteHeight.lt result'.remoteHeight

/-- What the calls have to respect that do not check it: new keys and heights are for queries
without a result, and results that are stored directly answer the query at a new height. -/
def Careful (_ : List (Msg ι)) (w : World ι) : Msg ι → Prop
  | .update msg => ∀ query, w.queries.lookup msg.queryId = some query →
      isKV query.queryType = true → msg.newKeys = [] ∨ msg.newKeys = query.keys
        ∨ w.results.lookup msg.queryId = none
  | .saveKVQueryResult queryID result => ∀ query, w.queries.lookup queryID = some query →
      isKV query.queryType = true →
      Answers query result ∧ checkLastRemoteHeight query result.remoteHeight = .ok ()
  | .updateLastRemoteHeight queryID _ => ∀ query, w.queries.lookup queryID = some query →
      isKV query.queryType = true → w.results.lookup queryID = none
  | _ => True

/-! ### Moves -/

variable {query : RegisteredQuery}

lemma Linked.save (h : Linked w)
    (hlink : isKV query.queryType = true → ∀ result, w.results.lookup query.id = some result →
      Link query result) : Linked (saveQuery w query) := by
  intro id q result hq htype hresult
  have hq' : (w.queries.insert query.id query).lookup id = some q := hq
  by_cases heq : id = query.id
  · rw [heq, lookup_insert] at hq'
    cases hq'
    rw [heq] at hresult
    exact hlink htype result hresult
  · rw [lookup_insert_ne heq] at hq'
    exact h id q result hq' htype hresult

variable {id : UInt64}

/-- A query is saved with the same keys and the same remote height. -/
lemma Linked.resave (h : Linked w) (hregistry : Registry chain w) {query' : RegisteredQuery}
    (hquery : w.queries.lookup id = some query) (hid : query'.id = query.id)
    (htype : query'.queryType = query.queryType) (hkeys : query'.keys = query.keys)
    (hheight : query'.lastSubmittedResultRemoteHeight = query.lastSubmittedResultRemoteHeight) :
    Linked (saveQuery w query') := by
  rw [hregistry.own id query hquery] at hid
  refine h.save fun hkv result hresult => ?_
  rw [hid] at hresult
  rw [htype] at hkv
  obtain ⟨hanswers, hlast⟩ := h id query result hquery hkv hresult
  exact ⟨hanswers.trans hkeys.symm, hheight.trans hlast⟩

variable {result : QueryResult}

lemma clearQueryResult_answers
    (h : Answers query result) : Answers query (clearQueryResult result) := by
  show (result.kvResults.map fun v => { v with proof := [] }).map _ = query.keys
  rw [List.map_map]
  exact h

/-- A result is stored that answers the query, or the query is not about keys and values. -/
lemma Linked.saveResult (h : Linked w)
    (hanswers : isKV query.queryType = true → Answers query result) :
    Linked (saveKVQueryResult w query result) := by
  intro id q r hq htype hr
  have hq' : (w.queries.insert query.id _).lookup id = some q := hq
  have hr' : (w.results.insert query.id (clearQueryResult result)).lookup id = some r := hr
  by_cases heq : id = query.id
  · rw [heq, lookup_insert] at hq' hr'
    cases hq'
    cases hr'
    exact ⟨clearQueryResult_answers (hanswers htype), rfl⟩
  · rw [lookup_insert_ne heq] at hq' hr'
    exact h id q r hq' htype hr'

lemma removeQuery_results (h : id ≠ query.id) :
    (removeQuery w query).results.lookup id = w.results.lookup id := by
  unfold removeQuery
  dsimp only
  split
  · exact lookup_erase_ne h
  · split
    · rfl
    · rfl

lemma Linked.remove (h : Linked w) (query : RegisteredQuery) : Linked (removeQuery w query) := by
  intro id q r hq htype hr
  rw [removeQuery_queries] at hq
  by_cases heq : id = query.id
  · rw [heq, lookup_erase] at hq
    cases hq
  · rw [lookup_erase_ne heq] at hq
    rw [removeQuery_results heq] at hr
    exact h id q r hq htype hr

/-! ### Steps -/

variable {pending : List (Msg ι)}

/-- **Careful messages keep the link.** -/
lemma Linked.effect (h : Linked w) (hregistry : Registry chain w)
    (hcareful : Careful pending w msg) (he : Effect chain w msg w' called)
    (hlt : w'.collected.length < 2 ^ 64) : Linked w' := by
  cases he with
  | register =>
    obtain ⟨-, hfresh⟩ := hregistry.fresh hlt
    intro id q r hq htype hr
    have hne : id ≠ w.lastID + 1 := by
      rintro rfl
      exact hfresh (hregistry.results _ r hr)
    have hq' : (w.queries.insert (w.lastID + 1) _).lookup id = some q := hq
    rw [lookup_insert_ne hne] at hq'
    exact h id q r hq' htype hr
  | remove => exact h.remove _
  | @update msg query hquery =>
    have hid : query.id = msg.queryId := hregistry.own _ _ hquery
    refine h.save fun hkv result hresult => ?_
    have hkv : isKV query.queryType = true := hkv
    have hresult : w.results.lookup query.id = some result := hresult
    rw [hid] at hresult
    obtain ⟨hanswers, hlast⟩ := h _ query result hquery hkv hresult
    refine ⟨?_, hlast⟩
    -- the keys are the old ones
    have hkeys : (updatedQuery query msg).keys = query.keys := by
      show (if msg.newKeys ≠ [] ∧ isKV query.queryType = true then msg.newKeys else query.keys) = _
      split
      · rename_i hnew
        rcases hcareful query hquery hkv with hnil | hsame | hnone
        · exact absurd hnil hnew.1
        · exact hsame
        · rw [hresult] at hnone
          cases hnone
      · rfl
    exact Eq.trans hanswers hkeys.symm
  | kvResult _ _ _ _ _ hanswers => exact h.saveResult fun _ => hanswers
  | nothing => exact h
  | processed hquery htype hquery' =>
    exact Linked.resave (w := { w with outside := _ }) h (hregistry.frame _ _ _ _) hquery' rfl rfl
      rfl rfl
  | deliver => exact h
  | updateParams => exact h
  | saveKVQueryResult hquery =>
    exact h.saveResult fun hkv => (hcareful _ hquery hkv).1
  | @updateLastRemoteHeight queryID query height hquery hheight =>
    have hid : query.id = queryID := hregistry.own _ _ hquery
    refine h.save fun hkv result hresult => ?_
    have hresult : w.results.lookup query.id = some result := hresult
    have hnone : w.results.lookup queryID = none := hcareful query hquery hkv
    rw [hid, hnone] at hresult
    cases hresult
  | bankSend => exact h
  | elsewhere => exact h

lemma checkLastRemoteHeight_ok {last height : Height}
    (hlast : query.lastSubmittedResultRemoteHeight = some last)
    (h : checkLastRemoteHeight query height = .ok ()) : last.lt height := by
  have hnot := ensure_ok h
  rw [hlast] at hnot
  exact Height.lt_of_not_gte ((Bool.not_eq_true' _).mp hnot)

/-- Storing a result at a height that was checked. -/
lemma Linked.advances_saveResult (h : Linked w) (hregistry : Registry chain w)
    (hquery : w.queries.lookup id = some query)
    (hheight : isKV query.queryType = true →
      checkLastRemoteHeight query result.remoteHeight = .ok ()) :
    Advances w (saveKVQueryResult w query result) := by
  intro id' q r r' hq htype hr hr'
  have hr'' : (w.results.insert query.id (clearQueryResult result)).lookup id' = some r' := hr'
  have hid := hregistry.own id query hquery
  by_cases heq : id' = query.id
  · rw [heq, lookup_insert] at hr''
    cases hr''
    rw [heq, hid, hquery] at hq
    cases hq
    have hlink := h id query r hquery htype (by rwa [heq, hid] at hr)
    exact .inr (checkLastRemoteHeight_ok hlink.height (hheight htype))
  · rw [lookup_insert_ne heq, hr] at hr''
    exact .inl (Option.some.inj hr'').symm

lemma Advances.of_results (h : ∀ id result, w'.results.lookup id = some result →
    w.results.lookup id = some result) : Advances w w' := by
  intro id q r r' _ _ hr hr'
  rw [h id r' hr'] at hr
  exact .inl (Option.some.inj hr)

/-- **Careful messages store results in the order of their heights.** -/
lemma Linked.advances (h : Linked w) (hregistry : Registry chain w)
    (hcareful : Careful pending w msg) (he : Effect chain w msg w' called) : Advances w w' := by
  cases he with
  | @remove msg query remover bank hquery hremover hsign hbank =>
    refine Advances.of_results fun id result hresult => ?_
    have hresult' : (removeQuery w query).results.lookup id = some result := hresult
    unfold removeQuery at hresult'
    dsimp only at hresult'
    split at hresult'
    · by_cases heq : id = query.id
      · rw [heq, lookup_erase] at hresult'
        cases hresult'
      · rwa [lookup_erase_ne heq] at hresult'
    · split at hresult'
      · exact hresult'
      · exact hresult'
  | kvResult _ _ hquery _ hheight => exact h.advances_saveResult hregistry hquery fun _ => hheight
  | saveKVQueryResult hquery =>
    exact h.advances_saveResult hregistry hquery fun hkv => (hcareful _ hquery hkv).2
  | _ => exact Advances.of_results fun _ _ hresult => hresult

/-! ### Runs -/

/-- As long as ids are not assigned again. -/
def KeptLinked (chain : Chain ι) (pending : List (Msg ι)) (w : World ι) : Prop :=
  Kept chain pending w ∧ (w.collected.length < 2 ^ 64 → Linked w)

lemma Linked.resume {callback : Callback} (h : Linked w) (hregistry : Registry chain w)
    (he : resume callback w = .ok w') : Linked w' := by
  rcases resume_ok he with ⟨-, rfl⟩ | ⟨queryID, txHash, id, query, rfl, hquery, rfl⟩
  · exact h
  · have hmarked : Linked (saveTransactionAsProcessed w queryID txHash) := h
    refine hmarked.save fun hkv result hresult => ?_
    have hresult : w.results.lookup query.id = some result := hresult
    rw [hregistry.own id query hquery] at hresult
    obtain ⟨hanswers, hlast⟩ := h id query result hquery hkv hresult
    exact ⟨hanswers, hlast⟩

lemma keptLinked_invariant : Callbacks.Invariant (system chain) Careful (KeptLinked chain) where
  done h hcareful he := by
    refine ⟨kept_invariant.done h.1 trivial he, fun hlt => ?_⟩
    have hlt' := (enter_ok he).collected.1.length_le.trans_lt hlt
    exact (h.2 hlt').effect (h.1 hlt').1 hcareful (enter_ok he) hlt
  call h hcareful he := by
    refine ⟨kept_invariant.call h.1 trivial he, fun hlt => ?_⟩
    have hlt' := (enter_ok he).collected.1.length_le.trans_lt hlt
    exact (h.2 hlt').effect (h.1 hlt').1 hcareful (enter_ok he) hlt
  back hs _ hcall h he := by
    refine ⟨kept_invariant.back hs.1 trivial hcall h.1 he, fun hlt => ?_⟩
    rw [resume_collected he] at hlt
    exact (h.2 hlt).resume (h.1 hlt).1 he

/-- In the transaction, the calls that check nothing respect what they do not check. -/
def CarefulIn (chain : Chain ι) (w : World ι) : Event ι → Prop
  | .tx script => Callbacks.Meets (system chain) Careful script [] w
  | .endBlock => True

lemma KeptLinked.step {e : Event ι} (h : KeptLinked chain [] w) (hcareful : CarefulIn chain w e)
    (he : step chain w e = .ok w') : KeptLinked chain [] w' := by
  cases e with
  | tx script => exact keptLinked_invariant.exec hcareful h he
  | endBlock =>
    refine ⟨h.1.step he, ?_⟩
    obtain ⟨w₁, hclean, he⟩ := Run.bind_ok he
    cases he
    obtain ⟨store, rfl, -, -⟩ := txQueriesCleanup_ok hclean
    exact h.2

/-- **Stored results answer the registered queries**, in every run that registers fewer than
2⁶⁴ queries and in which the calls are careful: after the run, and whenever a handler starts in
the transaction that follows.  And every result that is stored has a greater height than the
one before it. -/
theorem stored_results_answer (chain : Chain ι) {w₀ : World ι} (h₀ : Initial w₀)
    (es : List (Event ι)) (script : Callbacks.Script (Msg ι))
    (hfew : ((es ++ [Event.tx script]).map Event.registrations).sum < 2 ^ 64)
    (hcareful : Run.Along (step chain) (CarefulIn chain) w₀ (es ++ [.tx script])) {w : World ι}
    (hw : Run.run (step chain) w₀ es = w) :
    Linked w ∧ ∀ v ∈ Callbacks.visits (system chain) script [] w, Linked v.state
      ∧ ∀ w' called, enter chain v.state v.msg = .ok (w', called) → Advances v.state w' := by
  subst hw
  obtain ⟨hbefore, hscript, -⟩ := Run.along_append.mp hcareful
  have hlinked : KeptLinked chain [] (Run.run (step chain) w₀ es) := by
    refine Run.run_invariant ?_ (fun _ _ _ hI hC he => hI.step hC he) hbefore
    refine ⟨fun _ => ⟨h₀.registry, fun _ hm => by cases hm⟩, fun _ id q r _ _ hr => ?_⟩
    rw [h₀.results] at hr
    cases hr
  have hcount := (h₀.run_kept chain es).2
  have hsum := hfew
  rw [List.map_append, List.sum_append] at hsum
  refine ⟨hlinked.2 (by omega), fun v hv => ?_⟩
  obtain ⟨hkept, hlink⟩ := keptLinked_invariant.visits hscript hlinked v hv
  have hlt := h₀.visit_collected hfew hv
  refine ⟨hlink hlt, fun w' called he => ?_⟩
  exact (hlink hlt).advances (hkept hlt).1 (hscript v hv) (enter_ok he)

/-! ### Stale results -/

def aliceKey : KVKey := ⟨ascii "bank", ascii "alice"⟩

def bobKey : KVKey := ⟨ascii "bank", ascii "bob"⟩

def oneResult (key : KVKey) (height : UInt64) : QueryResult :=
  ⟨[⟨key.path, key.key, ascii "7", []⟩], none, height, 1, false⟩

/-- The contract asks for the balance of Alice, and gets it at height 5. -/
def aliceQuery : List (Event Unit) :=
  [oneMsg (.register ⟨ascii "kv", [aliceKey], [], ascii "connection-0", 1, ascii "contract"⟩) .accept,
    oneMsg (.submit ⟨1, ascii "relayer", some (oneResult aliceKey 5)⟩) .accept]

/-- What is stored for the first query: the keys and the remote height of the query, and the
keys and the height of the result. -/
def firstQuery (w : World Unit) : Option ((List KVKey × Option Height) × List KVKey × Height) :=
  (w.queries.lookup 1).bind fun query => (w.results.lookup 1).map fun result =>
    ((query.keys, query.lastSubmittedResultRemoteHeight),
      result.kvResults.map (fun v => ⟨v.storagePrefix, v.key⟩), result.remoteHeight)

/-- **Results go stale**: the query asks for Bob and the result is about Alice; the query knows
a height that the result does not have; and a result about Bob, from an earlier height, takes
the place of the one about Alice. -/
theorem results_go_stale :
    firstQuery (Run.run (step demoChain) (demoWorld []) (aliceQuery
        ++ [oneMsg (.update ⟨1, [bobKey], 0, [], ascii "contract"⟩) .accept]))
      = some (([bobKey], some ⟨1, 5⟩), [aliceKey], ⟨1, 5⟩)
    ∧ firstQuery (Run.run (step demoChain) (demoWorld []) (aliceQuery
        ++ [oneMsg (.updateLastRemoteHeight 1 ⟨1, 6⟩) .accept]))
      = some (([aliceKey], some ⟨1, 6⟩), [aliceKey], ⟨1, 5⟩)
    ∧ firstQuery (Run.run (step demoChain) (demoWorld []) (aliceQuery
        ++ [oneMsg (.saveKVQueryResult 1 (oneResult bobKey 4)) .accept]))
      = some (([aliceKey], some ⟨1, 4⟩), [bobKey], ⟨1, 4⟩) := by
  refine ⟨?_, ?_, ?_⟩
  · decide +kernel
  · decide +kernel
  · decide +kernel

/-- A message that needs no care, in a transaction of its own. -/
lemma carefulIn_oneMsg {w : World ι} (hmsg : Careful [] w msg) :
    CarefulIn chain w (oneMsg msg .accept) := by
  intro v hv
  rcases Callbacks.mem_visits_send hv with rfl | ⟨_, _, _, hv⟩ | ⟨_, _, hv⟩ | ⟨_, _, _, hv⟩
  · exact hmsg
  · cases hv
  · cases hv
  · cases hv

/-- The next result is submitted at height 6. -/
theorem stored_results_answer_aliceQuery :
    firstQuery (Run.run (step demoChain) (demoWorld []) aliceQuery)
        = some (([aliceKey], some ⟨1, 5⟩), [aliceKey], ⟨1, 5⟩)
      ∧ Linked (Run.run (step demoChain) (demoWorld []) aliceQuery) := by
  refine ⟨by decide +kernel, (stored_results_answer demoChain (demoWorld_initial []) aliceQuery
    (.send (.submit ⟨1, ascii "relayer", some (oneResult aliceKey 6)⟩) .accept .accept .reject)
    (by decide) ⟨?_, ?_, ?_, trivial⟩ rfl).1⟩
  · exact carefulIn_oneMsg trivial
  · exact carefulIn_oneMsg trivial
  · exact carefulIn_oneMsg trivial

end MaanyDex.InterchainQueries
