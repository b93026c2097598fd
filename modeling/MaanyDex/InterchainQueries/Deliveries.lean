/-
How often a transaction is delivered to the owner of a query.

`ProcessBlock` looks for the mark of the transaction, calls the owner, and sets the mark
afterwards.  An owner that submits the same transaction again while it is called gets it
again: the mark is not there yet (`delivered_twice`).  If no contract does so, every delivery
is covered by something that keeps it from being repeated (`Once`): its mark, the message that
is still pending, or the removal of its query.
-/
import MaanyDex.InterchainQueries.Registry

namespace MaanyDex.InterchainQueries

open List

variable {ι : Type} {chain : Chain ι} {w w' : World ι} {msg : Msg ι} {called : Option Callback}

/-- The delivery that a message asks for: a query and the hash of a transaction. -/
def Msg.delivery (chain : Chain ι) : Msg ι → Option (UInt64 × Bytes)
  | .submit msg => do
      let result ← msg.result
      let block ← result.block
      let tx ← block.tx
      if result.kvResults = [] then some (msg.queryId, chain.txHash tx.data) else none
  | _ => none

/-- A contract does not ask for a delivery that is being made. -/
def Distinct (chain : Chain ι) (pending : List (Msg ι)) (_ : World ι) (msg : Msg ι) : Prop :=
  ∀ d, msg.delivery chain = some d → ∀ m ∈ pending, m.delivery chain ≠ some d

/-! ### What messages do to deliveries and marks -/

/-- A message delivers what it asks for, or nothing; in the second case a call that it makes is
not one that resolves a delivery. -/
lemma Effect.delivered (h : Effect chain w msg w' called) :
    (w'.delivered = w.delivered
      ∧ (called = none ∨ called = some .kvQueryResult ∧ msg.delivery chain = none))
    ∨ ∃ d query, msg.delivery chain = some d ∧ w'.delivered = d :: w.delivered
      ∧ called = some (.txQueryResult d.1 d.2 query.id)
      ∧ checkTransactionIsAlreadyProcessed w d.1 d.2 = false
      ∧ w.queries.lookup d.1 = some query := by
  cases h with
  | @deliver msg query result block tx outside hresult hkv hblock htx hquery htype hnew =>
    refine .inr ⟨(msg.queryId, chain.txHash tx.data), query, ?_, rfl, rfl, hnew, hquery⟩
    simp [Msg.delivery, hresult, hblock, htx, hkv]
  | @kvResult msg query submitted result _ hresult hkv _ _ _ _ hcalled =>
    refine .inl ⟨rfl, hcalled.imp id fun hcalled => ⟨hcalled, ?_⟩⟩
    simp [Msg.delivery, hresult, hkv]
  | @remove msg query remover bank hquery hremover hsign hbank =>
    refine .inl ⟨?_, Or.inl rfl⟩
    show (removeQuery w query).delivered = w.delivered
    unfold removeQuery
    dsimp only
    split
    · rfl
    · split
      · rfl
      · rfl
  | _ => exact .inl ⟨rfl, Or.inl rfl⟩

variable {k : Bytes}

lemma has_set_of_has {s : KVStore} {k' v : Bytes} (h : s.has k' = true) :
    (s.set k v).has k' = true := by
  rw [KVStore.has, KVStore.get_set]
  split
  · rfl
  · exact h

lemma Effect.marks (h : Effect chain w msg w' called) (hk : w.store.has k = true) :
    w'.store.has k = true := by
  cases h with
  | @remove msg query remover bank hquery hremover hsign hbank =>
    show (removeQuery w query).store.has k = true
    unfold removeQuery
    dsimp only
    split
    · exact hk
    · split
      · exact has_set_of_has hk
      · exact hk
  | _ => exact hk

variable {id : UInt64} {query : RegisteredQuery}

lemma lookup_saveQuery_eq_none (hregistered : w.queries.lookup query.id ≠ none)
    (h : w.queries.lookup id = none) : (saveQuery w query).queries.lookup id = none := by
  have hne : id ≠ query.id := by
    rintro rfl
    exact hregistered h
  show (w.queries.insert query.id query).lookup id = none
  rw [AList.lookup_insert_ne hne, h]

lemma Registry.effect_removed (h : Registry chain w) (he : Effect chain w msg w' called)
    (hlt : w'.collected.length < 2 ^ 64) (hid : id ∈ assigned w)
    (hnone : w.queries.lookup id = none) : w'.queries.lookup id = none := by
  have hsaved : ∀ {k query query'}, w.queries.lookup k = some query → query'.id = query.id →
      (saveQuery w query').queries.lookup id = none := by
    intro k query query' hquery heq
    refine lookup_saveQuery_eq_none ?_ hnone
    rw [heq, h.own k query hquery, hquery]
    exact Option.some_ne_none query
  cases he with
  | register =>
    obtain ⟨-, hfresh⟩ := h.fresh hlt
    have hne : id ≠ w.lastID + 1 := by
      rintro rfl
      exact hfresh hid
    show (w.queries.insert (w.lastID + 1) _).lookup id = none
    rw [AList.lookup_insert_ne hne, hnone]
  | @remove msg query remover bank hquery hremover hsign hbank =>
    show (removeQuery w query).queries.lookup id = none
    rw [removeQuery_queries]
    by_cases heq : id = query.id
    · rw [heq]
      exact AList.lookup_erase _ _
    · rw [AList.lookup_erase_ne heq, hnone]
  | update hquery => exact hsaved hquery rfl
  | kvResult _ _ hquery => exact hsaved hquery rfl
  | processed _ _ hquery' => exact hsaved hquery' rfl
  | saveKVQueryResult hquery => exact hsaved hquery rfl
  | updateLastRemoteHeight hquery => exact hsaved hquery rfl
  | _ => exact hnone

lemma checkTransactionIsAlreadyProcessed_mark (w : World ι) (queryID : UInt64) (txHash : Bytes) :
    checkTransactionIsAlreadyProcessed (saveTransactionAsProcessed w queryID txHash) queryID txHash
      = true := by
  show KVStore.has (KVStore.set _ _ _) _ = true
  rw [KVStore.has, KVStore.get_set_self]
  rfl

/-! ### Deliveries come with marks -/

/-- Since a world with the deliveries `old`, every delivery was marked, unless its message is
pending. -/
def Marked (chain : Chain ι) (old : List (UInt64 × Bytes)) (pending : List (Msg ι))
    (w : World ι) : Prop :=
  ∀ d ∈ w.delivered, d ∈ old ∨ checkTransactionIsAlreadyProcessed w d.1 d.2 = true
    ∨ ∃ m ∈ pending, m.delivery chain = some d

lemma Marked.effect {old : List (UInt64 × Bytes)} {pending : List (Msg ι)}
    (h : Marked chain old pending w) (he : Effect chain w msg w' called)
    (hsame : w'.delivered = w.delivered) : Marked chain old pending w' := by
  intro d hd
  rw [hsame] at hd
  rcases h d hd with hold | hmark | hpending
  · exact .inl hold
  · exact .inr (.inl (he.marks hmark))
  · exact .inr (.inr hpending)

/-- After a call, its delivery is marked, and nothing was delivered or forgotten. -/
lemma resume_marks {w₀ w₁ : World ι} {callback : Callback}
    (hcall : enter chain w₀ msg = .ok (w₁, some callback)) (he : resume callback w = .ok w') :
    w'.delivered = w.delivered
      ∧ (∀ d : UInt64 × Bytes, checkTransactionIsAlreadyProcessed w d.1 d.2 = true →
        checkTransactionIsAlreadyProcessed w' d.1 d.2 = true)
      ∧ ∀ d, msg.delivery chain = some d →
        checkTransactionIsAlreadyProcessed w' d.1 d.2 = true := by
  rcases (enter_ok hcall).delivered with ⟨-, hnone | ⟨-, hnone⟩⟩ | ⟨d, query, hasks, -, hcalled, -⟩
  · cases hnone
  · -- a result of a key-value query is no delivery
    rw [hnone]
    rcases resume_ok he with ⟨rfl, rfl⟩ | ⟨_, _, _, _, rfl, -, rfl⟩
    · exact ⟨rfl, fun _ hmark => hmark, nofun⟩
    · exact ⟨rfl, fun _ hmark => has_set_of_has hmark, nofun⟩
  · cases hcalled
    rcases resume_ok he with ⟨hother, -⟩ | ⟨_, _, _, _, hcallback, -, rfl⟩
    · cases hother
    · cases hcallback
      refine ⟨rfl, fun _ hmark => has_set_of_has hmark, fun d' hdelivers => ?_⟩
      rw [hasks] at hdelivers
      cases hdelivers
      exact checkTransactionIsAlreadyProcessed_mark w d.1 d.2

/-- **Deliveries come with marks**, whatever contracts do. -/
lemma marked_invariant (old : List (UInt64 × Bytes)) :
    Callbacks.Invariant (system chain) (fun _ _ _ => True) (Marked chain old) where
  done h _ he := by
    have heffect := enter_ok he
    rcases heffect.delivered with ⟨hsame, -⟩ | ⟨d, query, -, -, hcalled, -⟩
    · exact h.effect heffect hsame
    · cases hcalled
  call {pending msg s s' k} h _ he := by
    have heffect := enter_ok he
    intro d hd
    rcases heffect.delivered with ⟨hsame, -⟩ | ⟨d', query, hasks, hnew, -⟩
    · rcases h.effect heffect hsame d hd with hold | hmark | ⟨m, hm, hdelivers⟩
      · exact .inl hold
      · exact .inr (.inl hmark)
      · exact .inr (.inr ⟨m, mem_cons_of_mem _ hm, hdelivers⟩)
    · rw [hnew] at hd
      rcases mem_cons.mp hd with rfl | hd
      · exact .inr (.inr ⟨msg, mem_cons_self, hasks⟩)
      · rcases h d hd with hold | hmark | ⟨m, hm, hdelivers⟩
        · exact .inl hold
        · exact .inr (.inl (heffect.marks hmark))
        · exact .inr (.inr ⟨m, mem_cons_of_mem _ hm, hdelivers⟩)
  back _ _ hcall h he := by
    intro d hd
    obtain ⟨hsame, hmarks, hset⟩ := resume_marks hcall he
    rw [hsame] at hd
    rcases h d hd with hold | hmark | ⟨m, hm, hdelivers⟩
    · exact .inl hold
    · exact .inr (.inl (hmarks d hmark))
    · rcases mem_cons.mp hm with rfl | hm
      · exact .inr (.inl (hset d hdelivers))
      · exact .inr (.inr ⟨m, hm, hdelivers⟩)

/-! ### At most once -/

/-- No transaction was delivered twice, and something keeps every delivery from being repeated:
its mark, a pending message that will set the mark, or the removal of the query. -/
structure Once (chain : Chain ι) (pending : List (Msg ι)) (w : World ι) : Prop where
  nodup : w.delivered.Nodup
  known : ∀ d ∈ w.delivered, d.1 ∈ assigned w
  settled : ∀ d ∈ w.delivered, checkTransactionIsAlreadyProcessed w d.1 d.2 = true
    ∨ (∃ m ∈ pending, m.delivery chain = some d) ∨ w.queries.lookup d.1 = none

/-- As long as ids are not assigned again. -/
def KeptOnce (chain : Chain ι) (pending : List (Msg ι)) (w : World ι) : Prop :=
  Kept chain pending w ∧ (w.collected.length < 2 ^ 64 → Once chain pending w)

variable {pending : List (Msg ι)}

lemma Once.effect (h : Once chain pending w) (hregistry : Registry chain w)
    (he : Effect chain w msg w' called) (hlt : w'.collected.length < 2 ^ 64)
    (hsame : w'.delivered = w.delivered) : Once chain pending w' where
  nodup := by
    rw [hsame]
    exact h.nodup
  known d hd := by
    rw [hsame] at hd
    exact assigned_of_suffix he.collected.1 (h.known d hd)
  settled d hd := by
    rw [hsame] at hd
    rcases h.settled d hd with hmark | hpending | hremoved
    · exact .inl (he.marks hmark)
    · exact .inr (.inl hpending)
    · exact .inr (.inr (hregistry.effect_removed he hlt (h.known d hd) hremoved))

lemma Once.mono (h : Once chain pending w) (msg : Msg ι) : Once chain (msg :: pending) w where
  nodup := h.nodup
  known := h.known
  settled d hd := (h.settled d hd).imp_right fun hor => hor.imp_left fun ⟨m, hm, hdelivers⟩ =>
    ⟨m, mem_cons_of_mem _ hm, hdelivers⟩

/-- A delivery: the transaction was not delivered before, because nothing would have let it
through again. -/
lemma Once.deliver (h : Once chain pending w) (he : Effect chain w msg w' called)
    (hdistinct : Distinct chain pending w msg) {d : UInt64 × Bytes}
    (hasks : msg.delivery chain = some d) (hnew : w'.delivered = d :: w.delivered)
    (hmark : checkTransactionIsAlreadyProcessed w d.1 d.2 = false)
    (hquery : w.queries.lookup d.1 = some query) (hid : d.1 ∈ assigned w)
    (hremoved : ∀ id, w.queries.lookup id = none → id ∈ assigned w →
      w'.queries.lookup id = none) : Once chain (msg :: pending) w' where
  nodup := by
    rw [hnew]
    refine nodup_cons.mpr ⟨fun hd => ?_, h.nodup⟩
    rcases h.settled d hd with hmark' | ⟨m, hm, hdelivers⟩ | hnone
    · rw [hmark] at hmark'
      cases hmark'
    · exact hdistinct d hasks m hm hdelivers
    · rw [hquery] at hnone
      cases hnone
  known d' hd' := by
    rw [hnew] at hd'
    rcases mem_cons.mp hd' with rfl | hd'
    · exact assigned_of_suffix he.collected.1 hid
    · exact assigned_of_suffix he.collected.1 (h.known d' hd')
  settled d' hd' := by
    rw [hnew] at hd'
    rcases mem_cons.mp hd' with rfl | hd'
    · exact .inr (.inl ⟨msg, mem_cons_self, hasks⟩)
    · rcases h.settled d' hd' with hmark' | ⟨m, hm, hdelivers⟩ | hnone
      · exact .inl (he.marks hmark')
      · exact .inr (.inl ⟨m, mem_cons_of_mem _ hm, hdelivers⟩)
      · exact .inr (.inr (hremoved d'.1 hnone (h.known d' hd')))

/-- After a call, the message is not pending any more: its mark is set. -/
lemma Once.resume {w₀ w₁ : World ι} {callback : Callback} (h : Once chain (msg :: pending) w)
    (hregistry : Registry chain w) (hcall : enter chain w₀ msg = .ok (w₁, some callback))
    (he : resume callback w = .ok w') : Once chain pending w' := by
  obtain ⟨hsame, hmarks, hset⟩ := resume_marks hcall he
  refine ⟨by rw [hsame]; exact h.nodup, fun d hd => ?_, fun d hd => ?_⟩
  · rw [hsame] at hd
    rw [assigned, resume_collected he]
    exact h.known d hd
  · rw [hsame] at hd
    rcases h.settled d hd with hmark | ⟨m, hm, hdelivers⟩ | hnone
    · exact .inl (hmarks d hmark)
    · rcases mem_cons.mp hm with rfl | hm
      · exact .inl (hset d hdelivers)
      · exact .inr (.inl ⟨m, hm, hdelivers⟩)
    · refine .inr (Or.inr ?_)
      rcases resume_ok he with ⟨rfl, rfl⟩ | ⟨queryID, txHash, id, query, rfl, hquery, rfl⟩
      · exact hnone
      · refine lookup_saveQuery_eq_none ?_ hnone
        show w.queries.lookup query.id ≠ none
        rw [hregistry.own id query hquery, hquery]
        exact Option.some_ne_none query

/-- **Deliveries are not repeated** if no contract asks for one that is being made. -/
lemma keptOnce_invariant :
    Callbacks.Invariant (system chain) (Distinct chain) (KeptOnce chain) where
  done h _ he := by
    have heffect := enter_ok he
    refine ⟨kept_invariant.done h.1 trivial he, fun hlt => ?_⟩
    have hlt' := heffect.collected.1.length_le.trans_lt hlt
    rcases heffect.delivered with ⟨hsame, -⟩ | ⟨d, query, -, -, hcalled, -⟩
    · exact (h.2 hlt').effect (h.1 hlt').1 heffect hlt hsame
    · cases hcalled
  call h hdistinct he := by
    have heffect := enter_ok he
    refine ⟨kept_invariant.call h.1 trivial he, fun hlt => ?_⟩
    have hlt' := heffect.collected.1.length_le.trans_lt hlt
    have hregistry := (h.1 hlt').1
    rcases heffect.delivered with ⟨hsame, -⟩ | ⟨d, query, hasks, hnew, -, hmark, hquery⟩
    · exact ((h.2 hlt').effect hregistry heffect hlt hsame).mono _
    · exact (h.2 hlt').deliver heffect hdistinct hasks hnew hmark hquery
        (hregistry.mem_assigned hquery)
        fun id hnone hid => hregistry.effect_removed heffect hlt hid hnone
  back hs _ hcall h he := by
    refine ⟨kept_invariant.back hs.1 trivial hcall h.1 he, fun hlt => ?_⟩
    rw [resume_collected he] at hlt
    exact (h.2 hlt).resume (h.1 hlt).1 hcall he

/-! ### Runs -/

/-- In the transaction, no contract asks for a delivery that is being made. -/
def DistinctIn (chain : Chain ι) (w : World ι) : Event ι → Prop
  | .tx script => Callbacks.Meets (system chain) (Distinct chain) script [] w
  | .endBlock => True

lemma KeptOnce.step {e : Event ι} (h : KeptOnce chain [] w) (hdistinct : DistinctIn chain w e)
    (he : step chain w e = .ok w') : KeptOnce chain [] w' := by
  cases e with
  | tx script => exact keptOnce_invariant.exec hdistinct h he
  | endBlock =>
    refine ⟨h.1.step he, ?_⟩
    obtain ⟨w₁, hclean, he⟩ := Run.bind_ok he
    cases he
    obtain ⟨store, rfl, -, hhashes⟩ := txQueriesCleanup_ok hclean
    intro hlt
    have hregistry := (h.1 hlt).1
    have honce := h.2 hlt
    refine ⟨honce.nodup, honce.known, fun d hd => ?_⟩
    rcases honce.settled d hd with hmark | ⟨m, hm, -⟩ | hnone
    · rcases hhashes d.1 d.2 hmark with hkept | hgone
      · exact .inl hkept
      · -- hashes are deleted for queries that were removed
        exact .inr (.inr (hregistry.gone d.1 (hregistry.has_of_mem hgone)))
    · cases hm
    · exact .inr (.inr hnone)

/-- **A transaction is delivered at most once for a query**, in every run that registers fewer
than 2⁶⁴ queries and in which no contract asks for a delivery that is being made to it.
Deliveries are committed together with their marks in any case. -/
theorem delivered_at_most_once (chain : Chain ι) {w₀ : World ι} (h₀ : Initial w₀)
    (es : List (Event ι)) (hfew : (es.map Event.registrations).sum < 2 ^ 64)
    (hdistinct : Run.Along (step chain) (DistinctIn chain) w₀ es) {w : World ι}
    (hw : Run.run (step chain) w₀ es = w) :
    (∀ d, w.delivered.count d ≤ 1)
      ∧ ∀ script w', step chain w (.tx script) = .ok w' → ∀ d ∈ w'.delivered,
        d ∈ w.delivered ∨ checkTransactionIsAlreadyProcessed w' d.1 d.2 = true := by
  subst hw
  constructor
  · have honce : KeptOnce chain [] (Run.run (step chain) w₀ es) := by
      refine Run.run_invariant ?_ (fun _ _ _ hI hC he => hI.step hC he) hdistinct
      refine ⟨fun _ => ⟨h₀.registry, fun _ hm => by cases hm⟩, fun _ => ?_⟩
      have hnone : ∀ d, d ∉ w₀.delivered := by
        intro d hd
        rw [h₀.delivered] at hd
        cases hd
      refine ⟨?_, fun d hd => absurd hd (hnone d), fun d hd => absurd hd (hnone d)⟩
      rw [h₀.delivered]
      exact nodup_nil
    have hcount := (h₀.run_kept chain es).2
    exact fun d => nodup_iff_count_le_one.mp (honce.2 (by omega)).nodup d
  · intro script w' he d hd
    have hinvariant : Callbacks.Invariant (system chain) (fun _ _ _ => True)
        (Marked chain (Run.run (step chain) w₀ es).delivered) := marked_invariant _
    have hmarked := hinvariant.exec (Callbacks.meets_true script [] _) (fun d hd => .inl hd) he
    rcases hmarked d hd with hold | hmark | ⟨m, hm, -⟩
    · exact .inl hold
    · exact .inr hmark
    · cases hm

/-- **A transaction is delivered twice** to a contract that submits it again while it is
called, and both deliveries are committed. -/
theorem delivered_twice :
    (Run.run (step demoChain) (demoWorld [])
      [oneMsg (.register demoRegister) .accept,
        oneMsg (demoSubmit 1 (ascii "tx"))
          (.send (demoSubmit 1 (ascii "tx")) .accept .accept .reject)]).delivered.count
      (1, ascii "tx") = 2 := by
  decide +kernel

/-- For a transaction with one message it suffices to look at the contract. -/
lemma distinctIn_oneMsg {inner : Callbacks.Script (Msg ι)}
    (h : ∀ {w'}, Callbacks.Meets (system chain) (Distinct chain) inner [msg] w') :
    DistinctIn chain w (oneMsg msg inner) := by
  intro v hv
  rcases Callbacks.mem_visits_send hv with rfl | ⟨_, _, _, hv⟩ | ⟨_, _, hv⟩ | ⟨_, _, _, hv⟩
  · exact fun _ _ m hm => by cases hm
  · exact h v hv
  · cases hv
  · cases hv

/-- The contract submits another transaction while it is called, and a relayer submits both
again later. -/
def nestedSubmissions : List (Event Unit) :=
  [oneMsg (.register demoRegister) .accept,
    oneMsg (demoSubmit 1 (ascii "tx")) (.send (demoSubmit 1 (ascii "tx2")) .accept .accept .reject),
    oneMsg (demoSubmit 1 (ascii "tx")) .accept, oneMsg (demoSubmit 1 (ascii "tx2")) .accept]

theorem delivered_at_most_once_nestedSubmissions :
    (Run.run (step demoChain) (demoWorld []) nestedSubmissions).delivered
        = [(1, ascii "tx2"), (1, ascii "tx")]
      ∧ ∀ d, (Run.run (step demoChain) (demoWorld []) nestedSubmissions).delivered.count d ≤ 1 := by
  refine ⟨by decide +kernel, (delivered_at_most_once demoChain (demoWorld_initial [])
    nestedSubmissions (by decide) ⟨?_, ?_, ?_, ?_, trivial⟩ rfl).1⟩
  · exact distinctIn_oneMsg fun v hv => by cases hv
  · refine distinctIn_oneMsg fun v hv d hd m hm => ?_
    -- the two transactions have different hashes
    have hne : (demoSubmit 1 (ascii "tx2")).delivery demoChain
        ≠ (demoSubmit 1 (ascii "tx")).delivery demoChain := by decide
    rcases Callbacks.mem_visits_send hv with rfl | ⟨_, _, _, hv⟩ | ⟨_, _, hv⟩ | ⟨_, _, _, hv⟩
    · rw [mem_singleton.mp hm, ← hd]
      exact hne.symm
    · cases hv
    · cases hv
    · cases hv
  · exact distinctIn_oneMsg fun v hv => by cases hv
  · exact distinctIn_oneMsg fun v hv => by cases hv

end MaanyDex.InterchainQueries
