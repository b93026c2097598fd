/-
The registry of queries and the deposits, in every run.

Every deposit that was collected belongs to a query that is registered or was paid to whoever
removed the query, and the account of the module can pay for those that are registered.  This
holds in the middle of transactions as well: whenever a handler starts, also one that runs
inside a call of another one, so nothing depends on what the called contracts do.
-/
import MaanyDex.InterchainQueries.MsgServer
import MaanyDex.Lib.Deposits

namespace MaanyDex.InterchainQueries

open KVStore List Run AList Callbacks Deposits

variable {ι : Type} {chain : Chain ι} {w w' : World ι}

/-! ### The invariant -/

/-- The ids that were assigned. -/
def assigned (w : World ι) : List UInt64 := w.collected.map (·.1)

/-- The deposits of the registered queries. -/
def registeredDeposits (w : World ι) : List (UInt64 × Coins) :=
  w.queries.entries.map fun e => (e.1, e.2.deposit)

/-- The deposits that were paid. -/
def paidDeposits (w : World ι) : List (UInt64 × Coins) := w.paid.map fun p => (p.1, p.2.1)

/-- How much of `d` the deposits of the registered queries are. -/
def deposits (w : World ι) (d : Denom) : ℤ :=
  Deposits.held (fun query : RegisteredQuery => net query.deposit d) w.queries

/-- The registry and the deposits are in order. -/
structure Sound (w : World ι) : Prop where
  /-- The account of the module holds the deposits. -/
  funded : ∀ d, deposits w d ≤ w.bank.balance depositAccount d
  /-- A deposit is collected once, and then it is registered or paid. -/
  accounted : w.collected.Perm (registeredDeposits w ++ paidDeposits w)
  once : (assigned w).Nodup
  results : ∀ id result, w.results.lookup id = some result → id ∈ assigned w
  hashes : ∀ id txHash, checkTransactionIsAlreadyProcessed w id txHash = true → id ∈ assigned w
  removals : ∀ id, w.store.has (getTxQueryToRemoveByIDKey id) = true → id ∈ assigned w

variable (store : KVStore)

/-- All keys are those of marks and hashes. -/
def WellKeyed : Prop :=
  ∀ k, store.has k = true → (∃ id txHash, k = getSubmittedTransactionIDForQueryKey id txHash)
    ∨ ∃ id, k = getTxQueryToRemoveByIDKey id

/-- What is needed to keep it so. -/
structure Registry (chain : Chain ι) (w : World ι) : Prop extends Sound w where
  counted : w.lastID.toNat = w.collected.length
  bounded : ∀ id ∈ assigned w, id ≤ w.lastID
  own : ∀ id query, w.queries.lookup id = some query → query.id = id
  valid : ∀ id query, w.queries.lookup id = some query → isValid chain.toSdk query.deposit = true
  /-- A query that is marked for removal is not registered. -/
  gone : ∀ id, w.store.has (getTxQueryToRemoveByIDKey id) = true → w.queries.lookup id = none
  keys : WellKeyed w.store

variable {id : UInt64} {query query' : RegisteredQuery} {bank : Bank}

lemma Initial.registry (h : Initial w) : Registry chain w where
  funded d := by
    rw [deposits, h.queries]
    exact Int.natCast_nonneg _
  accounted := by
    rw [registeredDeposits, paidDeposits, h.collected, h.queries, h.paid]
    exact List.Perm.nil
  once := by
    rw [assigned, h.collected]
    exact nodup_nil
  results id result hresult := by
    rw [h.results] at hresult
    cases hresult
  hashes id txHash hhash := by
    rw [checkTransactionIsAlreadyProcessed, h.store, has, get_empty] at hhash
    cases hhash
  removals id hid := by
    rw [h.store, has, get_empty] at hid
    cases hid
  counted := by
    rw [h.lastID, h.collected]
    rfl
  bounded id hid := by
    rw [assigned, h.collected] at hid
    cases hid
  own id query hquery := by
    rw [h.queries] at hquery
    cases hquery
  valid id query hquery := by
    rw [h.queries] at hquery
    cases hquery
  gone id hid := by
    rw [h.store, has, get_empty] at hid
    cases hid
  keys k hk := by
    rw [h.store, has, get_empty] at hk
    cases hk

section

variable (h : Registry chain w)

include h

lemma Registry.mem_assigned (hquery : w.queries.lookup id = some query) : id ∈ assigned w := by
  have hentry : (⟨id, query⟩ : Σ _ : UInt64, RegisteredQuery) ∈ w.queries.entries :=
    mem_lookup_iff.mp hquery
  have hmem : (id, query.deposit) ∈ w.collected := by
    apply h.accounted.mem_iff.mpr
    apply mem_append_left
    exact mem_map_of_mem hentry
  exact mem_map_of_mem hmem

lemma Registry.fresh (hlt : w.collected.length + 1 < 2 ^ 64) :
    (w.lastID + 1).toNat = w.lastID.toNat + 1 ∧ w.lastID + 1 ∉ assigned w := by
  have hcounted := h.counted
  have hnext : (w.lastID + 1).toNat = w.lastID.toNat + 1 := by
    rw [UInt64.toNat_add, UInt64.toNat_one]
    omega
  refine ⟨hnext, fun hmem => ?_⟩
  have hle := UInt64.le_iff_toNat_le.mp (h.bounded _ hmem)
  omega

/-! ### Moves -/

/-- What does not belong to the registry may change. -/
lemma Registry.frame (outside : ι) (params : Params) (height : UInt64)
    (delivered : List (UInt64 × Bytes)) :
    Registry chain { w with
      outside := outside
      params := params
      height := height
      delivered := delivered } :=
  { h with }

lemma Registry.receive
    (hbank : ∀ d, w.bank.balance depositAccount d ≤ bank.balance depositAccount d) :
    Registry chain { w with bank := bank } where
  __ := h
  funded d := (h.funded d).trans (by exact_mod_cast hbank d)

/-- A registered query may change, but not its deposit. -/
lemma Registry.save (hquery : w.queries.lookup id = some query) (hid : query'.id = query.id)
    (hdeposit : query'.deposit = query.deposit) : Registry chain (saveQuery w query') := by
  obtain rfl : query'.id = id := hid.trans (h.own id query hquery)
  have hlookup : ∀ id q, (saveQuery w query').queries.lookup id = some q →
      id = query'.id ∧ q = query' ∨ w.queries.lookup id = some q := by
    intro id q hq
    have hq' : (w.queries.insert query'.id query').lookup id = some q := hq
    by_cases heq : id = query'.id
    · rw [heq, lookup_insert] at hq'
      exact .inl ⟨heq, (Option.some.inj hq').symm⟩
    · rw [lookup_insert_ne heq] at hq'
      exact .inr hq'
  refine ⟨⟨fun d => ?_, ?_, h.once, h.results, h.hashes, h.removals⟩, h.counted, h.bounded,
    fun id q hq => ?_, fun id q hq => ?_, fun id hgone => ?_, h.keys⟩
  · have hheld : deposits (saveQuery w query') d = deposits w d := by
      unfold deposits
      show Deposits.held _ (w.queries.insert query'.id query') = _
      rw [held_insert hquery, hdeposit]
      ring
    rw [hheld]
    exact h.funded d
  · refine h.accounted.trans (List.Perm.append_right _ ?_)
    exact (map_entries_insert hquery (by simp only [hdeposit])).symm
  · rcases hlookup id q hq with ⟨rfl, rfl⟩ | hq'
    · rfl
    · exact h.own id q hq'
  · rcases hlookup id q hq with ⟨-, rfl⟩ | hq'
    · rw [hdeposit]
      exact h.valid _ query hquery
    · exact h.valid id q hq'
  · have hnone := h.gone id hgone
    have hne : id ≠ query'.id := by
      rintro rfl
      rw [hquery] at hnone
      cases hnone
    show (w.queries.insert query'.id query').lookup id = none
    rw [lookup_insert_ne hne, hnone]

/-- A result may be stored for an id that was assigned, or dropped. -/
lemma Registry.withResults (results : AList fun _ : UInt64 => QueryResult)
    (hresults : ∀ id result, results.lookup id = some result → id ∈ assigned w) :
    Registry chain { w with results := results } :=
  { h with results := hresults }

lemma Registry.saveResult (hquery : w.queries.lookup id = some query)
    (result : QueryResult) : Registry chain (saveKVQueryResult w query result) := by
  rw [← h.own id query hquery] at hquery
  refine Registry.save (h.withResults _ fun id r hr => ?_) hquery rfl rfl
  by_cases heq : id = query.id
  · rw [heq]
    exact h.mem_assigned hquery
  · rw [lookup_insert_ne heq] at hr
    exact h.results id r hr

/-- A store with the marks of this one, and perhaps more for ids that were assigned. -/
lemma Registry.withStore (store : KVStore)
    (hstore : ∀ k, store.has k = true → w.store.has k = true
      ∨ (∃ id txHash, k = getSubmittedTransactionIDForQueryKey id txHash ∧ id ∈ assigned w)
      ∨ ∃ id, k = getTxQueryToRemoveByIDKey id ∧ id ∈ assigned w ∧ w.queries.lookup id = none) :
    Registry chain { w with store := store } where
  __ := h
  hashes id txHash hhash := by
    rcases hstore _ hhash with hold | ⟨id', txHash', hk, hid⟩ | ⟨id', hk, -⟩
    · exact h.hashes id txHash hold
    · rw [(getSubmittedTransactionIDForQueryKey_inj hk).1]
      exact hid
    · exact absurd hk getSubmittedTransactionIDForQueryKey_ne
  removals id hid := by
    rcases hstore _ hid with hold | ⟨id', txHash', hk, -⟩ | ⟨id', hk, hid', -⟩
    · exact h.removals id hold
    · exact absurd hk.symm getSubmittedTransactionIDForQueryKey_ne
    · rw [getTxQueryToRemoveByIDKey_inj hk]
      exact hid'
  gone id hid := by
    rcases hstore _ hid with hold | ⟨id', txHash', hk, -⟩ | ⟨id', hk, -, hnone⟩
    · exact h.gone id hold
    · exact absurd hk.symm getSubmittedTransactionIDForQueryKey_ne
    · rw [getTxQueryToRemoveByIDKey_inj hk]
      exact hnone
  keys k hk := by
    rcases hstore k hk with hold | ⟨id, txHash, rfl, -⟩ | ⟨id, rfl, -⟩
    · exact h.keys k hold
    · exact .inl ⟨id, txHash, rfl⟩
    · exact .inr ⟨id, rfl⟩

end

lemma has_set {s : KVStore} {k k' v : Bytes} (h : (s.set k v).has k' = true) :
    s.has k' = true ∨ k' = k := by
  by_cases heq : k' = k
  · exact .inr heq
  · rw [has, get_set_of_ne (Ne.symm heq)] at h
    exact .inl h

lemma Registry.mark (h : Registry chain w) (hid : id ∈ assigned w) (txHash : Bytes) :
    Registry chain (saveTransactionAsProcessed w id txHash) := by
  refine h.withStore _ fun k hk => ?_
  rcases has_set hk with hold | rfl
  · exact .inl hold
  · exact .inr (.inl ⟨id, txHash, rfl, hid⟩)

/-- **A query is registered**: its id is new, and the account gets its deposit. -/
lemma Registry.register (h : Registry chain w) (hlt : w.collected.length + 1 < 2 ^ 64)
    (hid : query.id = w.lastID + 1) (hvalid : isValid chain.toSdk query.deposit = true)
    (hbank : ∀ d, (bank.balance depositAccount d : ℤ)
      = w.bank.balance depositAccount d + net query.deposit d) :
    Registry chain { w with
      bank := bank
      lastID := w.lastID + 1
      queries := w.queries.insert (w.lastID + 1) query
      collected := (w.lastID + 1, query.deposit) :: w.collected } := by
  obtain ⟨hnext, hfresh⟩ := h.fresh hlt
  have hnew : w.queries.lookup (w.lastID + 1) = none := by
    rcases hold : w.queries.lookup (w.lastID + 1) with - | q
    · rfl
    · exact absurd (h.mem_assigned hold) hfresh
  have hlookup : ∀ id q, (w.queries.insert (w.lastID + 1) query).lookup id = some q →
      id = w.lastID + 1 ∧ q = query ∨ w.queries.lookup id = some q := by
    intro id q hq
    by_cases heq : id = w.lastID + 1
    · rw [heq, lookup_insert] at hq
      exact .inl ⟨heq, (Option.some.inj hq).symm⟩
    · rw [lookup_insert_ne heq] at hq
      exact .inr hq
  have hentries : (w.queries.insert (w.lastID + 1) query).entries
      = ⟨w.lastID + 1, query⟩ :: w.queries.entries :=
    entries_insert_of_notMem (lookup_eq_none.mp hnew)
  refine ⟨⟨fun d => ?_, ?_, ?_, fun id r hr => ?_, fun id hash hh => ?_, fun id hr => ?_⟩, ?_,
    fun id hid => ?_, fun id q hq => ?_, fun id q hq => ?_, fun id hr => ?_, h.keys⟩
  · show Deposits.held _ (w.queries.insert (w.lastID + 1) query) ≤ (bank.balance depositAccount d : ℤ)
    rw [held_insert_new hnew, hbank]
    exact add_le_add_left (h.funded d) _
  · show List.Perm _ (List.map _ (w.queries.insert (w.lastID + 1) query).entries ++ _)
    rw [hentries]
    exact h.accounted.cons _
  · exact nodup_cons.mpr ⟨hfresh, h.once⟩
  · exact mem_cons_of_mem _ (h.results id r hr)
  · exact mem_cons_of_mem _ (h.hashes id hash hh)
  · exact mem_cons_of_mem _ (h.removals id hr)
  · show (w.lastID + 1).toNat = w.collected.length + 1
    rw [hnext, h.counted]
  · show id ≤ w.lastID + 1
    apply UInt64.le_iff_toNat_le.mpr
    rw [hnext]
    rcases mem_cons.mp hid with rfl | hold
    · exact hnext.le
    · exact (UInt64.le_iff_toNat_le.mp (h.bounded id hold)).trans (Nat.le_succ _)
  · rcases hlookup id q hq with ⟨rfl, rfl⟩ | hold
    · exact hid
    · exact h.own id q hold
  · rcases hlookup id q hq with ⟨-, rfl⟩ | hold
    · exact hvalid
    · exact h.valid id q hold
  · have hne : id ≠ w.lastID + 1 := by
      rintro rfl
      exact hfresh (h.removals _ hr)
    show (w.queries.insert (w.lastID + 1) query).lookup id = none
    rw [lookup_insert_ne hne]
    exact h.gone id hr

section

variable (h : Registry chain w) (hquery : w.queries.lookup query.id = some query)
  (hbank : ∀ d, (bank.balance depositAccount d : ℤ)
    = w.bank.balance depositAccount d - net query.deposit d)
  (remover : Address)

include h hquery hbank remover

/-- **A query is removed** and its deposit is paid. -/
lemma Registry.payOut :
    Registry chain { w with
      bank := bank
      queries := w.queries.erase query.id
      paid := (query.id, query.deposit, remover) :: w.paid } := by
  have hlookup : ∀ id q, (w.queries.erase query.id).lookup id = some q →
      w.queries.lookup id = some q := by
    intro id q hq
    by_cases heq : id = query.id
    · rw [heq, lookup_erase] at hq
      cases hq
    · rwa [lookup_erase_ne heq] at hq
  refine ⟨⟨fun d => ?_, ?_, h.once, h.results, h.hashes, h.removals⟩, h.counted, h.bounded,
    fun id q hq => h.own id q (hlookup id q hq), fun id q hq => h.valid id q (hlookup id q hq),
    fun id hr => ?_, h.keys⟩
  · show Deposits.held _ (w.queries.erase query.id) ≤ (bank.balance depositAccount d : ℤ)
    rw [held_erase hquery, hbank]
    exact sub_le_sub_right (h.funded d) _
  · -- the deposit goes from the registered ones to those that were paid
    have hperm := (entries_perm hquery).map fun e => (e.1, e.2.deposit)
    refine h.accounted.trans ((hperm.append_right _).trans ?_)
    exact perm_middle.symm
  · have hnone := h.gone id hr
    show (w.queries.erase query.id).lookup id = none
    by_cases heq : id = query.id
    · rw [heq]
      exact lookup_erase _ _
    · rw [lookup_erase_ne heq, hnone]

lemma Registry.remove :
    Registry chain { removeQuery w query with
      bank := bank
      paid := (query.id, query.deposit, remover) :: w.paid } := by
  have hpaid := h.payOut hquery hbank remover
  unfold removeQuery
  by_cases hkv : isKV query.queryType = true
  · rw [if_pos hkv]
    refine hpaid.withResults (w.results.erase query.id) fun id result hresult => ?_
    apply h.results id result
    by_cases heq : id = query.id
    · rw [heq, lookup_erase] at hresult
      cases hresult
    · rwa [lookup_erase_ne heq] at hresult
  · rw [if_neg hkv]
    by_cases htx : isTX query.queryType = true
    · rw [if_pos htx]
      refine hpaid.withStore (w.store.set (getTxQueryToRemoveByIDKey query.id) []) fun k hk => ?_
      rcases has_set hk with hold | rfl
      · exact .inl hold
      · exact .inr (.inr ⟨query.id, rfl, h.mem_assigned hquery, lookup_erase _ _⟩)
    · rw [if_neg htx]
      exact hpaid

end

/-! ### The cleanup -/

/-- The cleanup of a query deletes hashes of this query and its mark, and nothing else. -/
lemma removeTxQuery_get (q : TxQueryToRemove) (k : Bytes) :
    (removeTxQuery store q).get k = store.get k
      ∨ (removeTxQuery store q).get k = none
        ∧ ((∃ txHash, k = getSubmittedTransactionIDForQueryKey q.id txHash)
          ∨ k = getTxQueryToRemoveByIDKey q.id) := by
  have hhashes := get_foldl_delete (s := store) (k := k)
    (getSubmittedTransactionIDForQueryKey q.id) q.hashes
  have hkeys : k ∈ q.hashes.map (getSubmittedTransactionIDForQueryKey q.id) →
      ∃ txHash, k = getSubmittedTransactionIDForQueryKey q.id txHash := by
    intro hk
    obtain ⟨txHash, -, rfl⟩ := mem_map.mp hk
    exact ⟨txHash, rfl⟩
  unfold removeTxQuery
  dsimp only
  split
  · rw [get_delete]
    split
    · rename_i heq
      exact .inr ⟨rfl, Or.inr heq.symm⟩
    · rw [hhashes]
      split
      · rename_i hk
        exact .inr ⟨rfl, Or.inl (hkeys hk)⟩
      · exact .inl rfl
  · rw [hhashes]
    split
    · rename_i hk
      exact .inr ⟨rfl, Or.inl (hkeys hk)⟩
    · exact .inl rfl

lemma foldl_removeTxQuery_get (qs : List TxQueryToRemove) (k : Bytes) :
    (qs.foldl removeTxQuery store).get k = store.get k
      ∨ (qs.foldl removeTxQuery store).get k = none
        ∧ ∃ q ∈ qs, (∃ txHash, k = getSubmittedTransactionIDForQueryKey q.id txHash)
          ∨ k = getTxQueryToRemoveByIDKey q.id := by
  induction qs generalizing store with
  | nil => exact .inl rfl
  | cons q qs ih =>
    rw [foldl_cons]
    rcases ih (removeTxQuery store q) with hsame | ⟨hnone, q', hq', hk⟩
    · rcases removeTxQuery_get store q k with hkept | ⟨hgone, hk⟩
      · exact .inl (hsame.trans hkept)
      · exact .inr ⟨hsame.trans hgone, q, mem_cons_self, hk⟩
    · exact .inr ⟨hnone, q', mem_cons_of_mem _ hq', hk⟩

lemma txQueriesToRm_id {store : KVStore} {limited : Bool} {rmLimit : UInt64}
    {ids : List UInt64} {qs : List TxQueryToRemove}
    (h : txQueriesToRm store limited rmLimit ids = .ok qs) : ∀ q ∈ qs, q.id ∈ ids := by
  induction ids generalizing rmLimit qs with
  | nil =>
    cases h
    exact fun q hq => by cases hq
  | cons id ids ih =>
    obtain ⟨_, -, h⟩ := bind_ok h
    dsimp only at h
    split at h
    · cases h
      intro q hq
      rw [mem_singleton.mp hq]
      exact mem_cons_self
    · obtain ⟨more, hmore, h⟩ := bind_ok h
      cases h
      intro q hq
      rcases mem_cons.mp hq with rfl | hq
      · exact mem_cons_self
      · exact mem_cons_of_mem _ (ih hmore q hq)

lemma mem_of_mem_takeLimit {α : Type} {limit : UInt64} {l : List α} {a : α}
    (h : a ∈ takeLimit limit l) : a ∈ l := by
  unfold takeLimit at h
  split at h
  · exact h
  · exact mem_of_mem_take h

lemma Registry.has_of_mem (h : Registry chain w) {limit : UInt64}
    (hid : id ∈ getTxQueriesToRemove w.store limit) :
    w.store.has (getTxQueryToRemoveByIDKey id) = true := by
  obtain ⟨⟨k, v⟩, hmem, rfl⟩ := mem_map.mp (mem_of_mem_takeLimit hid)
  obtain ⟨⟨rest, hrest⟩, hget⟩ := mem_iterate.mp hmem
  have hhas : w.store.has k = true := has_eq_true.mpr ⟨v, hget⟩
  rcases h.keys k hhas with ⟨id', txHash, rfl⟩ | ⟨id', rfl⟩
  · have htag : (4 : UInt8) = 3 := (List.cons.inj hrest).1
    exact absurd htag (by decide)
  · have hread : UInt64.ofNat (Encoding.ofBigEndian
        ((getTxQueryToRemoveByIDKey id').drop txQueryToRemoveKey.length)) = id' := by
      have hlt : id'.toNat < 256 ^ 8 := id'.toNat_lt
      rw [getTxQueryToRemoveByIDKey, drop_left]
      show UInt64.ofNat (Encoding.ofBigEndian (Encoding.bigEndian 8 id'.toNat)) = id'
      rw [Encoding.ofBigEndian_bigEndian hlt, UInt64.ofNat_toNat]
    show w.store.has (getTxQueryToRemoveByIDKey (UInt64.ofNat _)) = true
    rw [hread]
    exact hhas

/-- **The cleanup** only deletes, and hashes only of queries that are marked for removal. -/
lemma txQueriesCleanup_ok (h : txQueriesCleanup w = .ok w') :
    ∃ store, w' = { w with store := store }
      ∧ (∀ k, store.has k = true → w.store.has k = true)
      ∧ ∀ id txHash, checkTransactionIsAlreadyProcessed w id txHash = true →
        store.has (getSubmittedTransactionIDForQueryKey id txHash) = true
          ∨ id ∈ getTxQueriesToRemove w.store w.params.txQueryRemovalLimit := by
  obtain ⟨_, qs, -, hqs, h⟩ := bind2_ok h
  cases h
  refine ⟨_, rfl, fun k hk => ?_, fun id txHash hhas => ?_⟩
  · rcases foldl_removeTxQuery_get w.store qs k with hsame | ⟨hnone, -⟩
    · rwa [has, hsame] at hk
    · rw [has, hnone] at hk
      cases hk
  · rcases foldl_removeTxQuery_get w.store qs (getSubmittedTransactionIDForQueryKey id txHash) with
      hsame | ⟨-, q, hq, ⟨txHash', hk⟩ | hk⟩
    · rw [has, hsame]
      exact .inl hhas
    · right
      rw [(getSubmittedTransactionIDForQueryKey_inj hk).1]
      exact txQueriesToRm_id hqs q hq
    · exact absurd hk getSubmittedTransactionIDForQueryKey_ne

/-! ### Steps and runs -/

lemma ne_depositAccount_of_canSign {a : Address} (h : canSign a = true) : a ≠ depositAccount := by
  rintro rfl
  exact absurd h (by decide)

lemma removeQuery_collected (w : World ι) (query : RegisteredQuery) :
    (removeQuery w query).collected = w.collected := by
  unfold removeQuery
  dsimp only
  split
  · rfl
  · split
    · rfl
    · rfl

/-- The number of registrations, message by message. -/
def Msg.registrations : Msg ι → ℕ
  | .register _ => 1
  | _ => 0

/-- A message registers at most one query, and none is forgotten. -/
lemma Effect.collected {msg : Msg ι} {called : Option Callback}
    (h : Effect chain w msg w' called) :
    w.collected <:+ w'.collected
      ∧ w'.collected.length ≤ w.collected.length + msg.registrations := by
  cases h with
  | register => exact ⟨suffix_cons _ _, le_rfl⟩
  | remove =>
    rw [removeQuery_collected]
    exact ⟨suffix_rfl, le_rfl⟩
  | _ => exact ⟨suffix_rfl, le_rfl⟩

lemma assigned_of_suffix (h : w.collected <:+ w'.collected) (hid : id ∈ assigned w) :
    id ∈ assigned w' := by
  obtain ⟨e, he, rfl⟩ := mem_map.mp hid
  exact mem_map_of_mem (h.subset he)

/-- **Every message keeps the registry**, up to the call of a contract. -/
lemma Registry.effect {msg : Msg ι} {called : Option Callback} (h : Registry chain w)
    (he : Effect chain w msg w' called) (hlt : w'.collected.length < 2 ^ 64) :
    Registry chain w' := by
  cases he with
  | register howner hsign hbank =>
    refine h.register hlt rfl (Bank.sendCoins_isValid hbank) fun d => ?_
    rw [(sendCoins_flows hbank).balance, transferred_dst (ne_depositAccount_of_canSign hsign).symm]
    rfl
  | remove hquery hremover hsign hbank =>
    rw [← h.own _ _ hquery] at hquery
    refine h.remove hquery (fun d => ?_) _
    rw [(sendCoins_flows hbank).balance, transferred_src (ne_depositAccount_of_canSign hsign).symm]
    rfl
  | update hquery => exact h.save hquery rfl rfl
  | kvResult _ _ hquery => exact h.saveResult hquery _
  | saveKVQueryResult hquery => exact h.saveResult hquery _
  | updateLastRemoteHeight hquery => exact h.save hquery rfl rfl
  | nothing => exact h
  | processed hquery htype hquery' =>
    exact Registry.save (h.frame _ _ _ _) hquery' rfl rfl
  | deliver => exact h.frame _ _ _ _
  | updateParams => exact h.frame _ _ _ _
  | bankSend hsrc hbank =>
    refine h.receive fun d => ?_
    have hflow := (sendCoins_flows hbank).balance depositAccount d
    unfold transferred at hflow
    rw [if_neg hsrc.symm] at hflow
    have hnonneg := net_nonneg (fun c hc => (isValid_pos (Bank.sendCoins_isValid hbank) c hc).le) d
    split at hflow
    · omega
    · omega
  | elsewhere => exact h.frame _ _ _ _

/-- So does what follows the call, if the id of the transaction was assigned before it. -/
lemma Registry.resume {callback : Callback} (h : Registry chain w)
    (hid : ∀ queryID txHash id, callback = .txQueryResult queryID txHash id →
      queryID ∈ assigned w) (he : resume callback w = .ok w') : Registry chain w' := by
  rcases resume_ok he with ⟨-, rfl⟩ | ⟨queryID, txHash, id, query, rfl, hquery, rfl⟩
  · exact h
  · have hmark := h.mark (hid queryID txHash id rfl) txHash
    exact hmark.save hquery rfl rfl

lemma resume_collected {callback : Callback} (he : InterchainQueries.resume callback w = .ok w') :
    w'.collected = w.collected := by
  rcases resume_ok he with ⟨-, rfl⟩ | ⟨queryID, txHash, id, query, rfl, hquery, rfl⟩
  · rfl
  · rfl

/-- Whoever waits for a contract has a registered query. -/
lemma Effect.called {msg : Msg ι} {callback : Callback}
    (h : Effect chain w msg w' (some callback)) :
    ∃ submitted query, msg = .submit submitted
      ∧ w.queries.lookup submitted.queryId = some query
      ∧ ∀ queryID txHash id, callback = .txQueryResult queryID txHash id →
        queryID = submitted.queryId := by
  cases h with
  | @kvResult msg query submitted result _ _ _ hquery _ _ _ hcalled =>
    refine ⟨msg, query, rfl, hquery, fun queryID txHash id heq => ?_⟩
    rcases hcalled with hnone | hsome
    · cases hnone
    · rw [Option.some.inj hsome] at heq
      cases heq
  | @deliver msg query result block tx outside _ _ _ _ hquery _ _ =>
    refine ⟨msg, query, rfl, hquery, fun queryID txHash id heq => ?_⟩
    cases heq
    rfl

/-- The registry is in order unless ids were assigned again, and the queries of the messages
that are pending were registered. -/
def Kept (chain : Chain ι) (pending : List (Msg ι)) (w : World ι) : Prop :=
  w.collected.length < 2 ^ 64 →
    Registry chain w ∧ ∀ msg, .submit msg ∈ pending → msg.queryId ∈ assigned w

lemma Kept.effect {pending : List (Msg ι)} {msg : Msg ι} {called : Option Callback}
    (h : Kept chain pending w) (he : Effect chain w msg w' called) : Kept chain pending w' := by
  intro hlt
  obtain ⟨hregistry, hpending⟩ := h (he.collected.1.length_le.trans_lt hlt)
  exact ⟨hregistry.effect he hlt, fun m hm => assigned_of_suffix he.collected.1 (hpending m hm)⟩

/-- **The registry is kept**, whatever the contracts do that are called. -/
lemma kept_invariant : Callbacks.Invariant (system chain) (fun _ _ _ => True) (Kept chain) where
  done h _ he := h.effect (enter_ok he)
  call h _ he := by
    have heffect := enter_ok he
    obtain ⟨submitted, query, rfl, hquery, -⟩ := heffect.called
    intro hlt
    obtain ⟨hregistry, hpending⟩ := h.effect heffect hlt
    obtain ⟨hbefore, -⟩ := h (heffect.collected.1.length_le.trans_lt hlt)
    refine ⟨hregistry, fun m hm => ?_⟩
    rcases mem_cons.mp hm with heq | hm
    · cases heq
      exact assigned_of_suffix heffect.collected.1 (hbefore.mem_assigned hquery)
    · exact hpending m hm
  back _ _ hcall h he := by
    obtain ⟨submitted, query, rfl, -, hid⟩ := (enter_ok hcall).called
    have hcollected := resume_collected he
    intro hlt
    rw [hcollected] at hlt
    obtain ⟨hregistry, hpending⟩ := h hlt
    refine ⟨hregistry.resume (fun queryID txHash id heq => ?_) he, fun m hm => ?_⟩
    · rw [hid queryID txHash id heq]
      exact hpending submitted mem_cons_self
    · unfold assigned
      rw [hcollected]
      exact hpending m (mem_cons_of_mem _ hm)

lemma Kept.step {e : Event ι} (h : Kept chain [] w) (he : step chain w e = .ok w') :
    Kept chain [] w' := by
  cases e with
  | tx script =>
    exact kept_invariant.exec (meets_true script [] w) h he
  | endBlock =>
    obtain ⟨w₁, hclean, he⟩ := bind_ok he
    cases he
    obtain ⟨store, rfl, hstore, -⟩ := txQueriesCleanup_ok hclean
    intro hlt
    obtain ⟨hregistry, -⟩ := h hlt
    have hcleaned := hregistry.withStore store fun k hk => .inl (hstore k hk)
    exact ⟨hcleaned.frame _ _ _ _, fun _ hm => by cases hm⟩

/-- The number of registrations in an event, successful or not. -/
def Event.registrations : Event ι → ℕ
  | .tx script => script.weight Msg.registrations
  | .endBlock => 0

lemma step_collected {e : Event ι} (he : step chain w e = .ok w') :
    w'.collected.length ≤ w.collected.length + e.registrations := by
  cases e with
  | tx script =>
    exact exec_measure (m := fun w : World ι => w.collected.length)
      (fun h => (enter_ok h).collected.2) (fun h => (congrArg _ (resume_collected h)).le) he
  | endBlock =>
    obtain ⟨w₁, hclean, he⟩ := bind_ok he
    cases he
    obtain ⟨store, rfl, -, -⟩ := txQueriesCleanup_ok hclean
    exact le_rfl

/-- **The registry along runs**, as long as ids are not assigned again. -/
lemma Initial.run_kept (h : Initial w) (chain : Chain ι) (es : List (Event ι)) :
    Kept chain [] (Run.run (InterchainQueries.step chain) w es)
      ∧ (Run.run (InterchainQueries.step chain) w es).collected.length
        ≤ (es.map Event.registrations).sum := by
  constructor
  · exact run_invariant (C := fun _ _ => True)
      (fun _ => ⟨h.registry, fun _ hm => by cases hm⟩) (fun _ _ _ hI _ he => hI.step he)
      (along_of_forall fun _ _ _ => trivial)
  · have hstep : ∀ (w : World ι) (e : Event ι) (w' : World ι),
        InterchainQueries.step chain w e = .ok w' →
        w'.collected.length ≤ w.collected.length + e.registrations := fun _ _ _ => step_collected
    have hmeasure := run_measure (m := fun w : World ι => w.collected.length) hstep w es
    simpa [h.collected] using hmeasure

section Visits

variable (h₀ : Initial w) {chain : Chain ι} {es : List (Event ι)} {script : Callbacks.Script (Msg ι)}
  (hfew : ((es ++ [Event.tx script]).map Event.registrations).sum < 2 ^ 64)
  {v : Callbacks.Visit (World ι) (Msg ι)}
  (hv : v ∈ Callbacks.visits (system chain) script [] (Run.run (InterchainQueries.step chain) w es))

include h₀ hfew hv

lemma Initial.visit_collected : v.state.collected.length < 2 ^ 64 := by
  have hcount := (h₀.run_kept chain es).2
  rw [map_append, sum_append] at hfew
  have hscript : script.weight Msg.registrations
      = ([Event.tx script].map Event.registrations).sum := by
    simp [Event.registrations]
  have hlength := visits_measure (m := fun w : World ι => w.collected.length)
    (w := Msg.registrations) (fun h => (enter_ok h).collected.2)
    (fun h => (congrArg _ (resume_collected h)).le) v hv
  omega

/-- **The registry in the middle of a transaction.** -/
lemma Initial.visit_registry : Registry chain v.state := by
  have hkept := kept_invariant.visits (meets_true script [] _) (h₀.run_kept chain es).1
  exact (hkept v hv (h₀.visit_collected hfew hv)).1

end Visits

/-! ### Removing -/

lemma validateSender_noPanic (chain : Chain ι) (sender : Bytes) :
    NoPanic (validateSender chain sender) := by
  refine NoPanic.bind (NoPanic.ensure fun _ h => by cases h) fun _ _ => ?_
  exact NoPanic.ensure fun _ h => by cases h

/-- The deposit of a registered query can be paid to whoever can sign. -/
lemma Registry.mustPayOutDeposit_isOk (h : Registry chain w)
    (hquery : w.queries.lookup id = some query) {remover : Address}
    (hsign : canSign remover = true) :
    ∃ w', mustPayOutDeposit chain (removeQuery w query) query remover = .ok w' := by
  have hbank : (removeQuery w query).bank = w.bank := by
    unfold removeQuery
    dsimp only
    split
    · rfl
    · split
      · rfl
      · rfl
  have hle : ∀ d, net query.deposit d ≤ w.bank.balance depositAccount d := by
    intro d
    refine le_trans ?_ (h.funded d)
    have hothers : 0 ≤ Deposits.held (fun q : RegisteredQuery => net q.deposit d)
        (w.queries.erase id) := by
      apply sum_nonneg
      intro n hn
      obtain ⟨e, he, rfl⟩ := mem_map.mp hn
      have hlookup : (w.queries.erase id).lookup e.1 = some e.2 := mem_lookup_iff.mpr he
      have hne : e.1 ≠ id := by
        intro heq
        rw [heq, lookup_erase] at hlookup
        cases hlookup
      rw [lookup_erase_ne hne] at hlookup
      exact net_nonneg (fun c hc => (isValid_pos (h.valid _ _ hlookup) c hc).le) d
    have herase := held_erase (v := fun q : RegisteredQuery => net q.deposit d) hquery
    rw [herase] at hothers
    unfold deposits
    linarith
  obtain ⟨bank, hsend⟩ : ∃ bank,
      w.bank.sendCoins chain.toSdk depositAccount remover query.deposit = .ok bank :=
    sendCoins_of_le (h.valid id query hquery) hle
  have hpay : Bank.sendCoinsFromModuleToAccount chain.toSdk (removeQuery w query).bank moduleName
      remover query.deposit = .ok bank := by
    unfold Bank.sendCoinsFromModuleToAccount
    rw [chain.blockedAddr_of_canSign remover hsign, hbank]
    exact hsend
  unfold mustPayOutDeposit
  rw [hpay]
  exact ⟨_, rfl⟩

/-- **Removal does not panic.** -/
lemma Registry.remove_noPanic (h : Registry chain w) (msg : MsgRemoveInterchainQueryRequest) :
    NoPanic (enter chain w (.remove msg)) := by
  refine NoPanic.bind (NoPanic.ensure fun _ h => by cases h) fun _ hsigned => NoPanic.map ?_ _
  obtain ⟨remover, hremover, hsign⟩ := signed_ok hsigned
  refine NoPanic.bind (NoPanic.wrap ?_ _) fun _ _ => ?_
  · exact NoPanic.bind (NoPanic.ensure fun _ h => by cases h)
      fun _ _ => validateSender_noPanic chain msg.sender
  refine NoPanic.bind (NoPanic.wrap ?_ _) fun query hquery => ?_
  · unfold getQueryByID
    split
    · exact fun _ h => by cases h
    · exact NoPanic.ok _
  refine NoPanic.bind (NoPanic.ensure fun _ h => by cases h) fun _ _ => ?_
  refine NoPanic.bind ?_ fun remover' hremover' => ?_
  · unfold getSigner
    rw [hremover]
    exact NoPanic.ok _
  · obtain rfl : remover = remover' := by
      unfold getSigner at hremover'
      rw [hremover] at hremover'
      exact Except.ok.inj hremover'
    obtain ⟨w', hpaid⟩ := h.mustPayOutDeposit_isOk (getQueryByID_ok (mapError_ok hquery)) hsign
    rw [hpaid]
    exact NoPanic.ok _

/-- The deposit of the query goes to the remover, and nothing else moves. -/
structure PaysOut (w w' : World ι) (query : RegisteredQuery) (remover : Address) : Prop where
  flows : Flows (transferred depositAccount remover query.deposit) (fun _ => 0) w.bank w'.bank
  queries : w'.queries = w.queries.erase query.id
  paid : w'.paid = (query.id, query.deposit, remover) :: w.paid

lemma removeQuery_queries (w : World ι) (query : RegisteredQuery) :
    (removeQuery w query).queries = w.queries.erase query.id := by
  unfold removeQuery
  dsimp only
  split
  · rfl
  · split
    · rfl
    · rfl

lemma Effect.paysOut {msg : MsgRemoveInterchainQueryRequest} {called : Option Callback}
    (h : Effect chain w (.remove msg) w' called) :
    ∃ query remover, w.queries.lookup msg.queryId = some query
      ∧ chain.accAddressFromBech32 msg.sender = some remover ∧ PaysOut w w' query remover := by
  cases h with
  | remove hquery hremover hsign hbank =>
    exact ⟨_, _, hquery, hremover, sendCoins_flows hbank, removeQuery_queries w _, rfl⟩

/-- **The registry and the deposits are in order** after every run that registers fewer than
2⁶⁴ queries, and whenever a handler starts in the transaction that follows, in whatever calls.
Removal does not panic, and it pays the deposit to the remover. -/
theorem registry_and_deposits (chain : Chain ι) {w₀ : World ι} (h₀ : Initial w₀)
    (es : List (Event ι)) (script : Callbacks.Script (Msg ι))
    (hfew : ((es ++ [Event.tx script]).map Event.registrations).sum < 2 ^ 64) {w : World ι}
    (hw : Run.run (step chain) w₀ es = w) :
    Sound w ∧ ∀ v ∈ Callbacks.visits (system chain) script [] w,
      Sound v.state ∧ ∀ msg, v.msg = .remove msg →
        NoPanic (enter chain v.state (.remove msg))
          ∧ ∀ w' called, enter chain v.state (.remove msg) = .ok (w', called) →
            ∃ query remover, v.state.queries.lookup msg.queryId = some query
              ∧ chain.accAddressFromBech32 msg.sender = some remover
              ∧ PaysOut v.state w' query remover := by
  subst hw
  obtain ⟨hkept, hcount⟩ := h₀.run_kept chain es
  have hfew' := hfew
  rw [map_append, sum_append] at hfew'
  refine ⟨(hkept (by omega)).1.toSound, fun v hv => ?_⟩
  have hregistry : Registry chain v.state := h₀.visit_registry hfew hv
  refine ⟨hregistry.toSound, fun msg _ => ⟨hregistry.remove_noPanic msg, ?_⟩⟩
  intro w' called he
  exact (enter_ok he).paysOut

/-! ### A chain -/

/-- A chain on which everything verifies; addresses and transactions are their own names and
hashes. -/
def demoChain : Chain Unit where
  toSdk := { chainSdk with blockedAddr := fun a => !canSign a }
  authority := ascii "adminmodule"
  blockedAddr_of_canSign a h := by
    show (!canSign a) = false
    rw [h]
    rfl
  hasContractInfo _ _ := true
  unmarshalFilters _ := .ok []
  connection _ _ := some (ascii "07-tendermint-0")
  consensusRoot _ _ _ _ := .ok []
  proofSpecs _ _ := .ok []
  convertProofs _ := .ok [⟨.exist, []⟩]
  verifyMembership _ _ _ _ _ := .ok ()
  verifyNonMembership _ _ _ _ := .ok ()
  unpackClientMessage bz := .ok (.tendermint ⟨bz.length, 1, [], [], [], [], []⟩)
  updateClient _ _ _ := .ok ()
  headerFromProto _ := .ok ()
  headerHash _ := []
  proofFromProto _ := .ok ⟨0, []⟩
  verifyProof _ _ _ := .ok ()
  marshalResult _ := []
  txHash data := data

def demoLedger : Ledger Address Denom :=
  Ledger.empty.mint (.account (ascii "contract")) (ascii "untrn") 100

lemma supply_demoLedger (d : Denom) : demoLedger.supply d < 2 ^ 256 := by
  simp only [demoLedger, Ledger.supply_mint, Ledger.empty]
  split <;> norm_num

/-- The contract has 100 `untrn`. -/
def demoBank : Bank := ⟨demoLedger, [], supply_demoLedger⟩

variable (deposit : Coins)

def demoParams : Params := ⟨10, deposit, 0, 32, 32⟩

/-- No query was registered, and one costs `deposit`. -/
def demoWorld : World Unit where
  outside := ()
  bank := demoBank
  params := demoParams deposit
  lastID := 0
  queries := ∅
  results := ∅
  store := ∅
  height := 1
  collected := []
  paid := []
  delivered := []

lemma demoWorld_initial : Initial (demoWorld deposit) := ⟨rfl, rfl, rfl, rfl, rfl, rfl, rfl⟩

def demoRegister : MsgRegisterInterchainQuery :=
  ⟨ascii "tx", [], ascii "[]", ascii "connection-0", 1, ascii "contract"⟩

/-- A transaction with one message, for which a contract that is called does `inner`. -/
def oneMsg (msg : Msg ι) (inner : Callbacks.Script (Msg ι)) : Event ι :=
  .tx (.send msg inner .accept .reject)

/-- The world after a registration without a deposit. -/
def demoRegistered (w : World Unit) : World Unit :=
  { w with
    lastID := w.lastID + 1
    queries := w.queries.insert (w.lastID + 1) (newQuery w demoRegister)
    collected := (w.lastID + 1, w.params.queryDeposit) :: w.collected }

lemma enter_demoRegister {w : World Unit} (h : w.params.queryDeposit = []) :
    enter demoChain w (.register demoRegister) = .ok (demoRegistered w, none) := by
  obtain ⟨outside, bank, params, lastID, queries, results, store, height, collected, paid,
    delivered⟩ := w
  obtain ⟨timeout, deposit, limit, keys, filters⟩ := params
  obtain rfl : deposit = [] := h
  rfl

lemma step_demoRegister {w : World Unit} (h : w.params.queryDeposit = []) :
    step demoChain w (oneMsg (.register demoRegister) .accept) = .ok (demoRegistered w) :=
  exec_send (handle_of_enter (enter_demoRegister h))

/-- The contract registers queries again and again. -/
lemma run_demoRegister (n : ℕ) {w : World Unit} (h : w.params.queryDeposit = []) :
    (Run.run (step demoChain) w
      (List.replicate n (oneMsg (.register demoRegister) .accept))).collected.length
      = w.collected.length + n := by
  induction n generalizing w with
  | zero => rfl
  | succ n ih =>
    have hrest := ih (w := demoRegistered w) h
    rw [replicate_succ, run_cons, exec_ok (step_demoRegister h), hrest]
    show w.collected.length + 1 + n = _
    omega

lemma length_le_of_nodup {ids : List UInt64} (h : ids.Nodup) : ids.length ≤ 2 ^ 64 := by
  have hnodup : (ids.map UInt64.toNat).Nodup := h.map fun _ _ => UInt64.toNat_inj.mp
  have hsub : (ids.map UInt64.toNat).toFinset ⊆ Finset.range (2 ^ 64) := by
    intro n hn
    obtain ⟨id, -, rfl⟩ := mem_map.mp (mem_toFinset.mp hn)
    exact Finset.mem_range.mpr id.toNat_lt
  calc ids.length = (ids.map UInt64.toNat).toFinset.card := by
        rw [toFinset_card_of_nodup hnodup, length_map]
    _ ≤ (Finset.range (2 ^ 64)).card := Finset.card_le_card hsub
    _ = 2 ^ 64 := Finset.card_range _

/-- **Ids are assigned again** when all of them were assigned: the counter starts over. -/
theorem ids_assigned_again :
    ¬ (assigned (Run.run (step demoChain) (demoWorld [])
      (List.replicate (2 ^ 64 + 1) (oneMsg (.register demoRegister) .accept)))).Nodup := by
  intro h
  have hle := length_le_of_nodup h
  rw [assigned, length_map, run_demoRegister (2 ^ 64 + 1) rfl] at hle
  exact absurd hle (by decide)

/-- A transaction of the remote chain, in a block whose header is one byte. -/
def demoSubmit (queryID : UInt64) (data : Bytes) : Msg Unit :=
  .submit ⟨queryID, ascii "relayer",
    some ⟨[], some ⟨[0, 0], [0], some ⟨some ⟨0, [], 0, 0, []⟩, [], [], data⟩⟩, 5, 1, false⟩⟩

/-- Two queries are registered, and the deposit changes in between. -/
def demoEvents : List (Event Unit) :=
  [oneMsg (.register demoRegister) .accept,
    oneMsg (.updateParams ⟨ascii "adminmodule", demoParams [⟨ascii "untrn", 30⟩]⟩) .accept,
    oneMsg (.register demoRegister) .accept]

/-- A transaction is submitted for the first query, and the contract removes the second one
while it handles it. -/
def demoScript : Callbacks.Script (Msg Unit) :=
  .send (demoSubmit 1 (ascii "tx"))
    (.send (.remove ⟨2, ascii "contract"⟩) .accept .accept .reject) .accept .reject

/-- Of 40 collected, 30 are paid back, and 10 are still there. -/
theorem registry_and_deposits_demoEvents :
    (Run.run (step demoChain) (demoWorld [⟨ascii "untrn", 10⟩])
        (demoEvents ++ [.tx demoScript])).bank.balance depositAccount (ascii "untrn") = 10
      ∧ Sound (Run.run (step demoChain) (demoWorld [⟨ascii "untrn", 10⟩]) demoEvents)
      ∧ ∀ v ∈ Callbacks.visits (system demoChain) demoScript []
          (Run.run (step demoChain) (demoWorld [⟨ascii "untrn", 10⟩]) demoEvents),
          Sound v.state := by
  have hsound := registry_and_deposits demoChain (demoWorld_initial [⟨ascii "untrn", 10⟩])
    demoEvents demoScript (by decide) rfl
  exact ⟨by decide +kernel, hsound.1, fun v hv => (hsound.2 v hv).1⟩

end MaanyDex.InterchainQueries
