/-
When others than the owner may remove a query.

They may when `SubmitTimeout` blocks have passed since the registration and since the last
submission.  To say what the submissions brought, a record is kept next to the state
(`Callbacks.Recorder`): the blocks in which a result was stored or a transaction was delivered, and
those in which a transaction was submitted that was processed already.  A delivery counts when the
owner has returned; a result counts when it is stored.

    q.LastSubmittedResultLocalHeight    is the height of the last entry, of whichever kind

(`Dated`).
-/
import MaanyDex.InterchainQueries.Deliveries

namespace MaanyDex.InterchainQueries

open Run Callbacks

variable {ι : Type} {chain : Chain ι}

/-! ### The record -/

/-- What was submitted for which query in which block. -/
structure Log where
  /-- Results that were stored, and transactions that were delivered. -/
  news : List (UInt64 × UInt64)
  /-- Transactions that were processed already. -/
  repeats : List (UInt64 × UInt64)

def Log.entries (log : Log) : List (UInt64 × UInt64) := log.news ++ log.repeats

def Log.new (log : Log) (id height : UInt64) : Log := { log with news := (id, height) :: log.news }

def Log.again (log : Log) (id height : UInt64) : Log :=
  { log with repeats := (id, height) :: log.repeats }

@[simp] lemma Log.mem_entries_new {log : Log} {id height : UInt64} {e : UInt64 × UInt64} :
    e ∈ (log.new id height).entries ↔ e = (id, height) ∨ e ∈ log.entries := by
  simp [Log.entries, Log.new]

@[simp] lemma Log.mem_entries_again {log : Log} {id height : UInt64} {e : UInt64 × UInt64} :
    e ∈ (log.again id height).entries ↔ e = (id, height) ∨ e ∈ log.entries := by
  simp [Log.entries, Log.again]
  tauto

/-- The query for which a message stores a result. -/
def Msg.stores : Msg ι → Option UInt64
  | .submit msg => do
      let result ← msg.result
      if result.kvResults = [] then none else some msg.queryId
  | .saveKVQueryResult queryID _ => some queryID
  | _ => none

/-- What a message brings is written down when its handler returns. -/
def recorder (chain : Chain ι) : Callbacks.Recorder (World ι) (Msg ι) Callback Log where
  enter w msg log :=
    match msg.stores, msg.delivery chain with
    | some id, _ => log.new id w.height
    | none, some d =>
      if checkTransactionIsAlreadyProcessed w d.1 d.2 then log.again d.1 w.height else log
    | none, none => log
  leave
    | .kvQueryResult, _, log => log
    | .txQueryResult queryID _ _, w, log => log.new queryID w.height

/-- The module with the record. -/
def recorded (chain : Chain ι) : Callbacks.System (World ι × Log) (Msg ι) Callback Fault :=
  (system chain).record (recorder chain)

def recordedStep (chain : Chain ι) (t : World ι × Log) :
    Event ι → Result (World ι × Log)
  | .tx script => Callbacks.exec (recorded chain) script t
  | .endBlock => (step chain t.1 .endBlock).map (·, t.2)

lemma recordedStep_fst (t : World ι × Log) (e : Event ι) :
    (recordedStep chain t e).map Prod.fst = step chain t.1 e := by
  cases e with
  | tx script => exact exec_record script t
  | endBlock =>
    show ((step chain t.1 .endBlock).map _).map _ = _
    rcases step chain t.1 .endBlock with e | w'
    · rfl
    · rfl

/-! ### Dates -/

/-- The heights that a query has are those of the record. -/
structure Dated (t : World ι × Log) : Prop where
  own : ∀ id query, t.1.queries.lookup id = some query → query.id = id
  past : ∀ e ∈ t.2.entries, e.2.toNat ≤ t.1.height.toNat
  /-- An entry is not after the registration, or not after the last submission. -/
  noticed : ∀ id query, t.1.queries.lookup id = some query → ∀ height, (id, height) ∈ t.2.entries →
    height.toNat ≤ query.registeredAtHeight.toNat
      ∨ height.toNat ≤ query.lastSubmittedResultLocalHeight.toNat
  /-- The last submission is an entry. -/
  known : ∀ id query, t.1.queries.lookup id = some query →
    query.lastSubmittedResultLocalHeight = 0
      ∨ (id, query.lastSubmittedResultLocalHeight) ∈ t.2.entries

variable {w w' : World ι} {log log' : Log} {t t' : World ι × Log} {id : UInt64}
  {query query' : RegisteredQuery}

/-- Queries and the height are all that is looked at. -/
lemma Dated.frame (h : Dated (w, log)) (hqueries : w'.queries = w.queries)
    (hheight : w'.height = w.height) : Dated (w', log) := by
  constructor
  all_goals
    simp only [hqueries, hheight]
  · exact h.own
  · exact h.past
  · exact h.noticed
  · exact h.known

lemma lookup_insert_cases {queries : AList fun _ : UInt64 => RegisteredQuery} {k : UInt64}
    (hlookup : (queries.insert id query).lookup k = some query') :
    k = id ∧ query' = query ∨ queries.lookup k = some query' := by
  by_cases heq : k = id
  · rw [heq, AList.lookup_insert] at hlookup
    exact .inl ⟨heq, (Option.some.inj hlookup).symm⟩
  · rw [AList.lookup_insert_ne heq] at hlookup
    exact .inr hlookup

section

variable (h : Dated (w, log)) (hquery : w.queries.lookup id = some query)
  (hid : query'.id = query.id) (hregistered : query'.registeredAtHeight = query.registeredAtHeight)

include h hquery hid hregistered

lemma Dated.save
    (hlast : query'.lastSubmittedResultLocalHeight = query.lastSubmittedResultLocalHeight) :
    Dated (saveQuery w query', log) := by
  have hown : query'.id = id := hid.trans (h.own id query hquery)
  constructor
  case past => exact h.past
  all_goals
    intro k q hq
    rcases lookup_insert_cases hq with ⟨rfl, rfl⟩ | hq
  · rfl
  · exact h.own k q hq
  · rw [hregistered, hlast, hown]
    exact h.noticed id query hquery
  · exact h.noticed k q hq
  · rw [hlast, hown]
    exact h.known id query hquery
  · exact h.known k q hq

/-- A query gets the height of the block, and so does the record. -/
lemma Dated.saveHeight (hlast : query'.lastSubmittedResultLocalHeight = w.height)
    (hlog : ∀ e, e ∈ log'.entries ↔ e = (id, w.height) ∨ e ∈ log.entries) :
    Dated (saveQuery w query', log') := by
  have hown : query'.id = id := hid.trans (h.own id query hquery)
  have hpast : ∀ e ∈ log'.entries, e.2.toNat ≤ w.height.toNat := by
    intro e he
    rcases (hlog e).mp he with rfl | he
    · exact le_rfl
    · exact h.past e he
  constructor
  case past => exact hpast
  all_goals
    intro k q hq
    rcases lookup_insert_cases hq with ⟨rfl, rfl⟩ | hq'
  · rfl
  · exact h.own k q hq'
  · intro height he
    right
    rw [hlast]
    exact hpast _ he
  · intro height he
    rcases (hlog _).mp he with heq | he
    · -- the entry is that of the saved query
      cases heq
      have hsaved : (saveQuery w query').queries.lookup query'.id = some query' :=
        AList.lookup_insert _
      rw [hown] at hsaved
      rw [hsaved] at hq
      cases hq
      exact .inr (hlast ▸ le_rfl)
    · exact h.noticed k q hq' height he
  · right
    rw [hlast, hown]
    exact (hlog _).mpr (.inl rfl)
  · exact (h.known k q hq').imp_right fun he => (hlog _).mpr (.inr he)

end

lemma Dated.erase (h : Dated (w, log)) (hqueries : w'.queries = w.queries.erase id)
    (hheight : w'.height = w.height) : Dated (w', log) := by
  have hold : ∀ k q, w'.queries.lookup k = some q → w.queries.lookup k = some q := by
    intro k q hq
    rw [hqueries] at hq
    have hne : k ≠ id := by
      rintro rfl
      rw [AList.lookup_erase] at hq
      cases hq
    rwa [AList.lookup_erase_ne hne] at hq
  constructor
  · exact fun k q hq => h.own k q (hold k q hq)
  · rw [hheight]
    exact h.past
  · exact fun k q hq => h.noticed k q (hold k q hq)
  · exact fun k q hq => h.known k q (hold k q hq)

lemma removeQuery_height (w : World ι) (query : RegisteredQuery) :
    (removeQuery w query).height = w.height := by
  unfold removeQuery
  dsimp only
  split
  · rfl
  · split
    · rfl
    · rfl

/-- A new query has no entries after its registration. -/
lemma Dated.register (h : Dated (w, log)) (msg : MsgRegisterInterchainQuery)
    (hqueries : w'.queries = w.queries.insert (w.lastID + 1) (newQuery w msg))
    (hheight : w'.height = w.height) : Dated (w', log) := by
  have hcases : ∀ k q, w'.queries.lookup k = some q →
      k = w.lastID + 1 ∧ q = newQuery w msg ∨ w.queries.lookup k = some q := by
    intro k q hq
    rw [hqueries] at hq
    exact lookup_insert_cases hq
  constructor
  · intro k q hq
    rcases hcases k q hq with ⟨rfl, rfl⟩ | hq
    · rfl
    · exact h.own k q hq
  · rw [hheight]
    exact h.past
  · intro k q hq height he
    rcases hcases k q hq with ⟨rfl, rfl⟩ | hq
    · exact .inl (h.past _ he)
    · exact h.noticed k q hq height he
  · intro k q hq
    rcases hcases k q hq with ⟨rfl, rfl⟩ | hq
    · exact .inl rfl
    · exact h.known k q hq

/-! ### Messages -/

variable {called : Option Callback}

section Block

variable {msg : MsgSubmitQueryResult} {result : QueryResult} (hresult : msg.result = some result)
  (hkv : result.kvResults = [])

include hresult hkv

lemma stores_of_block : (Msg.submit msg : Msg ι).stores = none := by
  simp [Msg.stores, hresult, hkv]

lemma delivery_of_tx {block : Block} {tx : TxValue} (hblock : result.block = some block)
    (htx : block.tx = some tx) :
    (Msg.submit msg : Msg ι).delivery chain = some (msg.queryId, chain.txHash tx.data) := by
  simp [Msg.delivery, hresult, hblock, htx, hkv]

end Block

variable {msg : Msg ι}

/-- **Every message keeps the dates**, up to the call of a contract.  A submission dates the query,
unless its transaction is on the way to the owner. -/
lemma Dated.effect (h : Dated (w, log)) (he : Effect chain w msg w' called) :
    Dated (w', (recorder chain).enter w msg log) := by
  cases he with
  | @register msg => exact h.register msg rfl rfl
  | remove => exact h.erase (removeQuery_queries w _) (removeQuery_height w _)
  | update hquery => exact h.save hquery rfl rfl rfl
  | @kvResult msg _ _ _ _ hresult hkv hquery =>
    have hstores : (Msg.submit msg : Msg ι).stores = some msg.queryId := by
      simp [Msg.stores, hresult, hkv]
    simp only [recorder, hstores]
    refine Dated.saveHeight (w := { w with results := _ }) (h.frame rfl rfl) hquery rfl rfl rfl ?_
    exact fun _ => Log.mem_entries_new
  | @nothing msg result hresult hkv hnone =>
    have hdelivery : (Msg.submit msg : Msg ι).delivery chain = none := by
      rcases hblock : result.block with - | block
      · simp [Msg.delivery, hresult, hblock]
      · rw [hblock] at hnone
        have htx : block.tx = none := hnone
        simp [Msg.delivery, hresult, hblock, htx]
    simp only [recorder, stores_of_block hresult hkv, hdelivery]
    exact h
  | processed hquery _ hquery' hresult hkv hblock htx hdone =>
    simp only [recorder, stores_of_block hresult hkv, delivery_of_tx hresult hkv hblock htx, hdone,
      if_true]
    rw [h.own _ _ hquery] at hquery'
    refine Dated.saveHeight (w := { w with outside := _ }) (h.frame rfl rfl) hquery' rfl rfl rfl ?_
    exact fun _ => Log.mem_entries_again
  | deliver hresult hkv hblock htx hquery _ hnew =>
    simp only [recorder, stores_of_block hresult hkv, delivery_of_tx hresult hkv hblock htx, hnew]
    exact h.frame rfl rfl
  | saveKVQueryResult hquery =>
    refine Dated.saveHeight (w := { w with results := _ }) (h.frame rfl rfl) hquery rfl rfl rfl ?_
    exact fun _ => Log.mem_entries_new
  | updateLastRemoteHeight hquery => exact h.save hquery rfl rfl rfl
  | updateParams | bankSend | elsewhere => exact h.frame rfl rfl

/-- So does what follows the call, where the id of the query is that of the message. -/
lemma Dated.resume {callback : Callback} (h : Dated (w, log))
    (hid : ∀ queryID txHash id, callback = .txQueryResult queryID txHash id → id = queryID)
    (he : InterchainQueries.resume callback w = .ok w') :
    Dated (w', (recorder chain).leave callback w log) := by
  rcases resume_ok he with ⟨rfl, rfl⟩ | ⟨queryID, txHash, id, query, rfl, hquery, rfl⟩
  · exact h
  · obtain rfl := hid queryID txHash id rfl
    refine Dated.saveHeight (w := saveTransactionAsProcessed w id txHash) (h.frame rfl rfl) hquery
      rfl rfl rfl ?_
    exact fun _ => Log.mem_entries_new

lemma called_id {called : Callback} (h : Dated (w, log))
    (he : InterchainQueries.enter chain w msg = .ok (w', some called)) (queryID : UInt64)
    (txHash : Bytes) (id : UInt64) (hcalled : called = .txQueryResult queryID txHash id) :
    id = queryID := by
  subst hcalled
  rcases (enter_ok he).delivered with ⟨-, hnone | ⟨hnone, -⟩⟩ | ⟨d, query, -, -, hcalled, -, hquery⟩
  · cases hnone
  · cases hnone
  · cases hcalled
    exact h.own _ _ hquery

/-- **The dates are kept**, whatever the contracts do that are called. -/
lemma dated_invariant : Callbacks.Invariant (recorded chain) (fun _ _ _ => True)
    fun _ t => Dated t where
  done {pending msg t t'} h _ he := by
    obtain ⟨henter, hlog⟩ := enter_record he
    have hdated := Dated.effect h (enter_ok henter)
    rw [← hlog] at hdated
    exact hdated
  call {pending msg t t' k} h _ he := by
    obtain ⟨henter, hlog⟩ := enter_record he
    have hdated := Dated.effect h (enter_ok henter)
    rw [← hlog] at hdated
    exact hdated
  back {pending msg t t₁ t₂ t' k} h₀ _ hcall h he := by
    obtain ⟨hleave, hlog⟩ := leave_record he
    obtain ⟨henter, -⟩ := enter_record hcall
    have hdated : Dated (t'.1, (recorder chain).leave k t₂.1 t₂.2) :=
      Dated.resume h (called_id h₀ henter) hleave
    rw [← hlog] at hdated
    exact hdated

/-! ### Runs -/

/-- The number of blocks that end with an event. -/
def Event.blocks : Event ι → ℕ
  | .tx _ => 0
  | .endBlock => 1

lemma enter_height (h : enter chain w msg = .ok (w', called)) : w'.height = w.height := by
  cases enter_ok h with
  | remove => exact removeQuery_height w _
  | _ => rfl

lemma resume_height {callback : Callback} (h : resume callback w = .ok w') :
    w'.height = w.height := by
  rcases resume_ok h with ⟨rfl, rfl⟩ | ⟨_, _, _, _, rfl, -, rfl⟩
  · rfl
  · rfl

/-- The height is that of the block, in the middle of transactions too. -/
lemma height_invariant (height : UInt64) : Callbacks.Invariant (system chain)
    (fun _ _ _ => True) fun _ w => w.height = height where
  done h _ he := (enter_height he).trans h
  call h _ he := (enter_height he).trans h
  back _ _ _ h he := (resume_height he).trans h

lemma step_height {e : Event ι} (h : step chain w e = .ok w') :
    w'.height = w.height + UInt64.ofNat e.blocks := by
  cases e with
  | tx script =>
    have hsame := (height_invariant w.height).exec (meets_true script [] w) rfl h
    exact hsame.trans (UInt64.add_zero _).symm
  | endBlock =>
    obtain ⟨w₁, hclean, h⟩ := bind_ok h
    cases h
    obtain ⟨store, rfl, -, -⟩ := txQueriesCleanup_ok hclean
    rfl

lemma toNat_height_le {e : Event ι} (h : step chain w e = .ok w') :
    w'.height.toNat ≤ w.height.toNat + e.blocks := by
  rw [step_height h, UInt64.toNat_add]
  have hblocks : (UInt64.ofNat e.blocks).toNat = e.blocks := by
    cases e with
    | tx script => rfl
    | endBlock => rfl
  rw [hblocks]
  exact Nat.mod_le _ _

/-- A block ends: all dates are in the past, since heights do not start over. -/
lemma Dated.endBlock (h : Dated (w, log)) (hlt : w.height.toNat + 1 < 2 ^ 64)
    (he : step chain w .endBlock = .ok w') : Dated (w', log) := by
  obtain ⟨w₁, hclean, he⟩ := bind_ok he
  cases he
  obtain ⟨store, rfl, -, -⟩ := txQueriesCleanup_ok hclean
  have hheight : (w.height + 1).toNat = w.height.toNat + 1 := by
    rw [UInt64.toNat_add]
    exact Nat.mod_eq_of_lt hlt
  refine ⟨h.own, fun e he => ?_, h.noticed, h.known⟩
  show _ ≤ (w.height + 1).toNat
  rw [hheight]
  exact (h.past e he).trans (Nat.le_succ _)

/-- **The dates along runs.** -/
lemma Initial.run_dated {w₀ : World ι} (h₀ : Initial w₀) (chain : Chain ι) (es : List (Event ι))
    (hblocks : w₀.height.toNat + (es.map Event.blocks).sum < 2 ^ 64) :
    Dated (Run.run (recordedStep chain) (w₀, ⟨[], []⟩) es) := by
  have hmeasure : ∀ (t : World ι × Log) (e : Event ι) (t' : World ι × Log),
      recordedStep chain t e = .ok t' → t'.1.height.toNat ≤ t.1.height.toNat + e.blocks := by
    intro t e t' he
    have hstep : (recordedStep chain t e).map Prod.fst = step chain t.1 e := recordedStep_fst t e
    rw [he] at hstep
    exact toNat_height_le hstep.symm
  have halong := along_of_measure (m := fun t : World ι × Log => t.1.height.toNat) hmeasure
    (s := (w₀, ⟨[], []⟩)) hblocks
  refine run_invariant ?_ ?_ halong
  · constructor
    all_goals
      simp [h₀.queries, Log.entries]
  · intro t e t' h hlt he
    cases e with
    | tx script => exact dated_invariant.exec (meets_true script [] t) h he
    | endBlock =>
      obtain ⟨w', hstep, rfl⟩ := map_ok he
      exact h.endBlock hlt hstep

/-! ### The service period -/

/-- More than `SubmitTimeout` blocks have passed since the registration, and since everything new
that was submitted. -/
def ServiceOver (t : World ι × Log) (query : RegisteredQuery) : Prop :=
  query.registeredAtHeight.toNat + query.submitTimeout.toNat < t.1.height.toNat
    ∧ ∀ e ∈ t.2.news, e.1 = query.id → e.2.toNat + query.submitTimeout.toNat < t.1.height.toNat

-- by walking over the record, and not over all pairs of numbers
instance (t : World ι × Log) (query : RegisteredQuery) : Decidable (ServiceOver t query) :=
  @instDecidableAnd _ _ _ (List.decidableBAll _ _)

/-- No transaction that was processed already makes the service period longer. -/
def NotProlonged (t : World ι × Log) (query : RegisteredQuery) : Prop :=
  ServiceOver t query → ∀ e ∈ t.2.repeats, e.1 = query.id →
    e.2.toNat + query.submitTimeout.toNat < t.1.height.toNat

lemma validateRemoval_iff {currentBlock : UInt64} {caller : Bytes} (hother : query.owner ≠ caller)
    (hregistered : query.registeredAtHeight.toNat + query.submitTimeout.toNat < 2 ^ 64)
    (hlast : query.lastSubmittedResultLocalHeight.toNat + query.submitTimeout.toNat < 2 ^ 64) :
    validateRemoval query currentBlock caller = .ok ()
      ↔ query.registeredAtHeight.toNat + query.submitTimeout.toNat < currentBlock.toNat
        ∧ query.lastSubmittedResultLocalHeight.toNat + query.submitTimeout.toNat
          < currentBlock.toNat := by
  rw [validateRemoval, ensure_eq_ok_iff]
  simp only [hother, decide_false, Bool.false_or, Bool.and_eq_true, decide_eq_true_eq,
    UInt64.lt_iff_toNat_lt, UInt64.toNat_add, Nat.mod_eq_of_lt hregistered, Nat.mod_eq_of_lt hlast]

lemma Registry.remove_isOk_iff (h : Registry chain w) {msg : MsgRemoveInterchainQueryRequest}
    (hvalid : msg.validate chain = .ok ()) (hsigned : signed chain msg.sender = .ok ())
    (hquery : w.queries.lookup msg.queryId = some query) :
    (∃ out, enter chain w (.remove msg) = .ok out)
      ↔ validateRemoval query w.height msg.sender = .ok () := by
  have hget : getQueryByID w msg.queryId = .ok query := by
    rw [getQueryByID, hquery]
  obtain ⟨remover, hremover, hsign⟩ := signed_ok hsigned
  have hsigner : getSigner chain msg.sender = .ok remover := by
    rw [getSigner, hremover]
  obtain ⟨w', hpaid⟩ := h.mustPayOutDeposit_isOk hquery hsign
  constructor
  · rintro ⟨out, he⟩
    obtain ⟨_, -, he⟩ := bind_ok he
    obtain ⟨_, he, -⟩ := map_ok he
    obtain ⟨_, query', -, hquery', he⟩ := bind2_ok he
    have hsame := hget.symm.trans (mapError_ok hquery')
    cases hsame
    obtain ⟨_, hvalidated, -⟩ := bind_ok he
    exact hvalidated
  · intro hvalidated
    have hremoved : removeInterchainQuery chain w msg = .ok w' := by
      rw [removeInterchainQuery, hvalid, hget]
      show (validateRemoval query w.height msg.sender >>= _) = _
      rw [hvalidated, ok_bind, hsigner, ok_bind, hpaid]
    refine ⟨(w', none), ?_⟩
    show (signed chain msg.sender >>= _) = _
    rw [hsigned, ok_bind, hremoved]
    rfl

lemma Dated.serviceOver_iff (h : Dated t) (hquery : t.1.queries.lookup id = some query) :
    ((query.registeredAtHeight.toNat + query.submitTimeout.toNat < t.1.height.toNat
        ∧ query.lastSubmittedResultLocalHeight.toNat + query.submitTimeout.toNat
          < t.1.height.toNat) ↔ ServiceOver t query)
      ↔ NotProlonged t query := by
  have hown := h.own id query hquery
  have hentry : ∀ e ∈ t.2.entries, e.1 = query.id →
      query.registeredAtHeight.toNat + query.submitTimeout.toNat < t.1.height.toNat →
      query.lastSubmittedResultLocalHeight.toNat + query.submitTimeout.toNat < t.1.height.toNat →
      e.2.toNat + query.submitTimeout.toNat < t.1.height.toNat := by
    rintro ⟨k, height⟩ he hk hregistered hlast
    obtain rfl : k = id := hk.trans hown
    rcases h.noticed k query hquery height he with hle | hle
    · show height.toNat + _ < _
      omega
    · show height.toNat + _ < _
      omega
  constructor
  · intro hiff hover e he hid
    obtain ⟨hregistered, hlast⟩ := hiff.mpr hover
    exact hentry e (List.mem_append_right _ he) hid hregistered hlast
  · intro hnot
    constructor
    · rintro ⟨hregistered, hlast⟩
      refine ⟨hregistered, ?_⟩
      intro e he hid
      exact hentry e (List.mem_append_left _ he) hid hregistered hlast
    · intro hover
      refine ⟨hover.1, ?_⟩
      rcases h.known id query hquery with hzero | he
      · have hregistered := hover.1
        rw [hzero]
        show 0 + _ < _
        omega
      · rcases List.mem_append.mp he with he | he
        · exact hover.2 _ he hown.symm
        · exact hnot hover _ he hown.symm

/-- **The service period of a query.**  In every run, and whenever a handler starts in the
transaction that follows, a removal by somebody else is accepted exactly when the service period is
over, if and only if no transaction that was processed already makes it longer. -/
theorem service_period (chain : Chain ι) {w₀ : World ι} (h₀ : Initial w₀) (es : List (Event ι))
    (script : Callbacks.Script (Msg ι))
    (hfew : ((es ++ [Event.tx script]).map Event.registrations).sum < 2 ^ 64)
    (hblocks : w₀.height.toNat + (es.map Event.blocks).sum < 2 ^ 64)
    {v : Callbacks.Visit (World ι × Log) (Msg ι)}
    (hv : v ∈ Callbacks.visits (recorded chain) script []
      (Run.run (recordedStep chain) (w₀, ⟨[], []⟩) es))
    {msg : MsgRemoveInterchainQueryRequest} (hmsg : v.msg = .remove msg)
    (hvalid : msg.validate chain = .ok ()) (hsigned : signed chain msg.sender = .ok ())
    {query : RegisteredQuery} (hquery : v.state.1.queries.lookup msg.queryId = some query)
    (hother : query.owner ≠ msg.sender)
    (hsum : max query.registeredAtHeight.toNat query.lastSubmittedResultLocalHeight.toNat
      + query.submitTimeout.toNat < 2 ^ 64) :
    ((∃ out, enter chain v.state.1 v.msg = .ok out) ↔ ServiceOver v.state query)
      ↔ NotProlonged v.state query := by
  have hdated : Dated v.state := dated_invariant.visits (meets_true script [] _)
    (h₀.run_dated chain es hblocks) v hv
  have hrun : (Run.run (recordedStep chain) (w₀, ⟨[], []⟩) es).1 = Run.run (step chain) w₀ es :=
    run_map recordedStep_fst (w₀, ⟨[], []⟩) es
  have hplain := mem_visits_record hv
  rw [hrun] at hplain
  have hregistry : Registry chain v.state.1 := h₀.visit_registry hfew hplain
  rw [hmsg, hregistry.remove_isOk_iff hvalid hsigned hquery,
    validateRemoval_iff hother (by omega) (by omega)]
  exact hdated.serviceOver_iff hquery

/-! ### Removals -/

/-- No query was registered, and one has the given timeout. -/
def timedWorld (timeout : UInt64) : World Unit :=
  { demoWorld [] with params := { demoParams [] with querySubmitTimeout := timeout } }

/-- Somebody who is not the owner removes the first query. -/
def strangerRemoves : MsgRemoveInterchainQueryRequest := ⟨1, ascii "stranger"⟩

/-- A query is registered, a transaction is delivered, and two blocks end. -/
def twoBlocks : List (Event Unit) :=
  [oneMsg (.register demoRegister) .accept, oneMsg (demoSubmit 1 (ascii "tx")) .accept, .endBlock,
    .endBlock]

/-- With a timeout of one block, the query can be removed then. -/
theorem service_period_twoBlocks : ∃ out, enter demoChain
    (Run.run (recordedStep demoChain) (timedWorld 1, ⟨[], []⟩) twoBlocks).1
    (.remove strangerRemoves) = .ok out := by
  have h₀ : Initial (timedWorld 1) := ⟨rfl, rfl, rfl, rfl, rfl, rfl, rfl⟩
  have hquery : (Run.run (recordedStep demoChain) (timedWorld 1, ⟨[], []⟩)
      twoBlocks).1.queries.lookup 1 = some
        { newQuery (timedWorld 1) demoRegister with lastSubmittedResultLocalHeight := 1 } := by
    decide +kernel
  have hrepeats : (Run.run (recordedStep demoChain) (timedWorld 1, ⟨[], []⟩) twoBlocks).2.repeats
      = [] := by
    decide +kernel
  have hiff := service_period demoChain h₀ twoBlocks
    (.send (.remove strangerRemoves) .accept .accept .reject) (by decide) (by decide)
    mem_visits_self rfl (by decide +kernel) (by decide +kernel) hquery (by decide +kernel)
    (by decide +kernel)
  refine (hiff.mpr ?_).mpr (by decide +kernel)
  intro _ e he
  rw [hrepeats] at he
  cases he

/-- A transaction is delivered, and submitted again in the next block. -/
def sameAgain : List (Event Unit) :=
  [oneMsg (.register demoRegister) .accept, oneMsg (demoSubmit 1 (ascii "tx")) .accept, .endBlock,
    oneMsg (demoSubmit 1 (ascii "tx")) .accept, .endBlock]

/-- A transaction is delivered. -/
def justDelivered : List (Event Unit) :=
  [oneMsg (.register demoRegister) .accept, oneMsg (demoSubmit 1 (ascii "tx")) .accept]

/-- The first query, with a removal by somebody else: whether the service period is over, and
whether the removal is accepted. -/
def removal (timeout : UInt64) (es : List (Event Unit)) : Option (Bool × Bool) :=
  let t := Run.run (recordedStep demoChain) (timedWorld timeout, ⟨[], []⟩) es
  (t.1.queries.lookup 1).map fun query =>
    (ServiceOver t query, (enter demoChain t.1 (.remove strangerRemoves)).toOption.isSome)

/-- Submitting a transaction again keeps a query in service, and with a timeout so large that the
sum starts over it can be removed at once. -/
theorem kept_in_service_or_removed_at_once :
    removal 1 sameAgain = some (true, false) ∧ removal (-1) justDelivered = some (false, true) := by
  decide +kernel

end MaanyDex.InterchainQueries
