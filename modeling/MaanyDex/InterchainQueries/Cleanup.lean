/-
The cleanup of the hashes of removed queries.

A call lists the first `limit` marked queries, lists hashes of one after another until there are
`limit` of them, and deletes what it has listed; a mark goes with the last hash, unless the listing
ended just there.  So a call either deletes `limit` hashes, or finishes every query it has listed:

    min limit (hashes of the first `limit` marked queries)    hashes are deleted

(`length_deletedHashes`).
Two slices are allocated for as many elements as the limit says, so a large limit is a panic.
-/
import MaanyDex.InterchainQueries.Registry

namespace MaanyDex.InterchainQueries

open KVStore List

variable {ι : Type} {store : KVStore} {id : UInt64} {hash : Bytes}

/-! ### Marks and hashes -/

/-- The queries that are marked for removal, in the order of their ids. -/
def markedIDs (store : KVStore) : List UInt64 := getTxQueriesToRemove store 0

/-- The hashes that are stored for a query, in their order. -/
def hashesOf (store : KVStore) (id : UInt64) : List Bytes :=
  (calculateTxQueryRemoval store id 0).hashes

lemma hashesOf_eq (store : KVStore) (id : UInt64) :
    hashesOf store id = store.suffixes (getSubmittedTransactionIDForQueryKeyPrefix id) := rfl

lemma mem_hashesOf : hash ∈ hashesOf store id
    ↔ store.has (getSubmittedTransactionIDForQueryKey id hash) = true := by
  rw [hashesOf_eq, mem_suffixes]
  rfl

lemma nodup_hashesOf (store : KVStore) (id : UInt64) : (hashesOf store id).Nodup := nodup_suffixes

lemma markedIDs_eq (store : KVStore) : markedIDs store
    = (store.suffixes txQueryToRemoveKey).map fun k => UInt64.ofNat (Encoding.ofBigEndian k) := by
  rw [suffixes, map_map]
  rfl

lemma ofNat_ofBigEndian (id : UInt64) :
    UInt64.ofNat (Encoding.ofBigEndian (Encoding.uint64ToBigEndian id.toNat)) = id := by
  have hlt : id.toNat < 256 ^ 8 := id.toNat_lt
  rw [Encoding.uint64ToBigEndian, Encoding.ofBigEndian_bigEndian hlt, UInt64.ofNat_toNat]

variable {k : Bytes}

/-- What is under the tag of the marks is the id of a query. -/
lemma WellKeyed.mark (h : WellKeyed store) (hk : k ∈ store.suffixes txQueryToRemoveKey) :
    ∃ id : UInt64, k = Encoding.uint64ToBigEndian id.toNat := by
  rcases h _ (mem_suffixes.mp hk) with ⟨id, txHash, heq⟩ | ⟨id, heq⟩
  · have htag : (4 : UInt8) = 3 := (List.cons.inj heq).1
    exact absurd htag (by decide)
  · exact ⟨id, (List.cons.inj heq).2⟩

lemma WellKeyed.mem_markedIDs (h : WellKeyed store) : id ∈ markedIDs store
    ↔ store.has (getTxQueryToRemoveByIDKey id) = true := by
  rw [markedIDs_eq, mem_map]
  constructor
  · rintro ⟨k, hk, rfl⟩
    obtain ⟨id, rfl⟩ := h.mark hk
    rw [ofNat_ofBigEndian]
    exact mem_suffixes.mp hk
  · intro hhas
    exact ⟨_, mem_suffixes.mpr hhas, ofNat_ofBigEndian id⟩

lemma WellKeyed.nodup_markedIDs (h : WellKeyed store) : (markedIDs store).Nodup := by
  rw [markedIDs_eq]
  refine List.Nodup.map_on ?_ nodup_suffixes
  intro k hk k' hk' heq
  obtain ⟨id, rfl⟩ := h.mark hk
  obtain ⟨id', rfl⟩ := h.mark hk'
  rw [ofNat_ofBigEndian, ofNat_ofBigEndian] at heq
  rw [heq]

/-- The hashes of the marked queries. -/
def markedHashes (store : KVStore) : List (UInt64 × Bytes) :=
  (markedIDs store).flatMap fun id => (hashesOf store id).map (id, ·)

/-- How many hashes these queries have. -/
def hashCount (store : KVStore) (ids : List UInt64) : ℕ :=
  (ids.map fun id => (hashesOf store id).length).sum

lemma mem_markedHashes :
    (id, hash) ∈ markedHashes store ↔ id ∈ markedIDs store ∧ hash ∈ hashesOf store id := by
  simp [markedHashes]

lemma WellKeyed.nodup_markedHashes (h : WellKeyed store) : (markedHashes store).Nodup := by
  rw [markedHashes, nodup_flatMap]
  constructor
  · intro id _
    exact (nodup_hashesOf store id).map fun a b hab => (Prod.mk.inj hab).2
  · apply h.nodup_markedIDs.imp
    intro id id' hne
    rw [Function.onFun, disjoint_left]
    intro p hp hp'
    obtain ⟨hash, -, rfl⟩ := mem_map.mp hp
    obtain ⟨hash', -, heq⟩ := mem_map.mp hp'
    exact hne (Prod.mk.inj heq).1.symm

lemma length_markedHashes (store : KVStore) :
    (markedHashes store).length = hashCount store (markedIDs store) := by
  simp [markedHashes, hashCount, length_flatMap]

/-! ### The listing -/

/-- What is deleted of a query that is finished. -/
def wholeRemoval (store : KVStore) (id : UInt64) : TxQueryToRemove :=
  ⟨id, hashesOf store id, true⟩

variable {ids : List UInt64} {qs : List TxQueryToRemove} {limit : UInt64}

lemma makeslice_ok {elementSize capacity : ℕ} (h : elementSize * capacity ≤ 2 ^ 48) :
    makeslice elementSize capacity = .ok () :=
  ensure_eq_ok h

lemma calculateTxQueryRemoval_of_lt (h : (hashesOf store id).length < limit.toNat) :
    calculateTxQueryRemoval store id limit = wholeRemoval store id := by
  have hlimit : limit ≠ 0 := by
    rintro rfl
    exact absurd h (Nat.not_lt_zero _)
  show TxQueryToRemove.mk id (takeLimit limit (hashesOf store id))
    (limit = 0 || (hashesOf store id).length < limit.toNat) = _
  rw [takeLimit, if_neg hlimit, take_of_length_le h.le]
  simp [wholeRemoval, h]

lemma calculateTxQueryRemoval_of_le (hlimit : limit ≠ 0)
    (h : limit.toNat ≤ (hashesOf store id).length) :
    calculateTxQueryRemoval store id limit = ⟨id, (hashesOf store id).take limit.toNat, false⟩ := by
  show TxQueryToRemove.mk id (takeLimit limit (hashesOf store id))
    (limit = 0 || (hashesOf store id).length < limit.toNat) = _
  rw [takeLimit, if_neg hlimit]
  simp [hlimit, h]

/-- What a listing with a budget is: queries are listed as a whole until one of them uses up what
is left of the budget. -/
inductive Listing (store : KVStore) : ℕ → List UInt64 → List TxQueryToRemove → Prop
  | nil {budget : ℕ} : Listing store budget [] []
  | whole {budget : ℕ} {id : UInt64} {ids : List UInt64} {qs : List TxQueryToRemove} :
      (hashesOf store id).length < budget →
      Listing store (budget - (hashesOf store id).length) ids qs →
      Listing store budget (id :: ids) (wholeRemoval store id :: qs)
  | last {budget : ℕ} {id : UInt64} {ids : List UInt64} : 0 < budget →
      budget ≤ (hashesOf store id).length →
      Listing store budget (id :: ids) [⟨id, (hashesOf store id).take budget, false⟩]

lemma toNat_sub_ofNat {n : ℕ} (h : n ≤ limit.toNat) :
    (limit - UInt64.ofNat n).toNat = limit.toNat - n := by
  have hlt := limit.toNat_lt
  have hn : (UInt64.ofNat n).toNat = n := UInt64.toNat_ofNat_of_lt' (h.trans_lt hlt)
  rw [UInt64.toNat_sub_of_le, hn]
  rwa [UInt64.le_iff_toNat_le, hn]

/-- **The first loop** of the cleanup, with a limit. -/
lemma listing_of_ok (hlimit : limit ≠ 0) (h : txQueriesToRm store true limit ids = .ok qs) :
    Listing store limit.toNat ids qs := by
  induction ids generalizing limit qs with
  | nil =>
    cases h
    exact .nil
  | cons id ids ih =>
    have hpos : 0 < limit.toNat := Nat.pos_of_ne_zero fun h0 => hlimit (UInt64.toNat_inj.mp h0)
    obtain ⟨_, -, h⟩ := Run.bind_ok h
    dsimp only at h
    rcases lt_or_ge (hashesOf store id).length limit.toNat with hlt | hge
    · have hrest := toNat_sub_ofNat hlt.le
      have hne : limit - UInt64.ofNat (hashesOf store id).length ≠ 0 := by
        intro hzero
        rw [hzero] at hrest
        change 0 = _ at hrest
        omega
      rw [calculateTxQueryRemoval_of_lt hlt, if_neg fun hand => hne hand.2, if_pos rfl] at h
      obtain ⟨more, hmore, h⟩ := Run.bind_ok h
      cases h
      have hlisting := ih hne hmore
      change Listing store (limit - UInt64.ofNat (hashesOf store id).length).toNat ids more
        at hlisting
      rw [hrest] at hlisting
      exact .whole hlt hlisting
    · have hlength : ((hashesOf store id).take limit.toNat).length = limit.toNat := by
        rw [length_take, min_eq_left hge]
      rw [calculateTxQueryRemoval_of_le hlimit hge] at h
      dsimp only at h
      rw [hlength, UInt64.ofNat_toNat, UInt64.sub_self, if_pos ⟨rfl, rfl⟩] at h
      cases h
      exact .last hpos hge

lemma length_hashes_le (hlimit : limit ≠ 0) :
    (calculateTxQueryRemoval store id limit).hashes.length ≤ limit.toNat := by
  show (takeLimit limit (hashesOf store id)).length ≤ limit.toNat
  rw [takeLimit, if_neg hlimit, length_take]
  exact Nat.min_le_left _ _

variable {limited : Bool}

/-- Whether it returns depends on the first allocation: the others are not larger. -/
lemma txQueriesToRm_isOk (hlimited : limited = true → limit ≠ 0)
    (h : ids = [] ∨ 24 * limit.toNat ≤ 2 ^ 48) :
    ∃ qs, txQueriesToRm store limited limit ids = .ok qs := by
  induction ids generalizing limit with
  | nil => exact ⟨[], rfl⟩
  | cons id ids ih =>
    have hroom := h.resolve_left (cons_ne_nil _ _)
    unfold txQueriesToRm
    rw [makeslice_ok hroom, Run.ok_bind]
    dsimp only
    split
    · exact ⟨_, rfl⟩
    · rename_i hrest
      suffices hmore : ∃ more, txQueriesToRm store limited (if limited = true then limit
          - UInt64.ofNat (calculateTxQueryRemoval store id limit).hashes.length else limit) ids
          = .ok more by
        obtain ⟨more, hmore⟩ := hmore
        rw [hmore]
        exact ⟨_, rfl⟩
      cases limited with
      | false => exact ih hlimited (.inr hroom)
      | true =>
        rw [if_pos rfl]
        apply ih
        · exact fun _ hzero => hrest ⟨rfl, hzero⟩
        · right
          rw [toNat_sub_ofNat (length_hashes_le (hlimited rfl))]
          omega

lemma room_of_txQueriesToRm_ok
    (h : txQueriesToRm store limited limit ids = .ok qs) : ids = [] ∨ 24 * limit.toNat ≤ 2 ^ 48 := by
  cases ids with
  | nil => exact .inl rfl
  | cons id ids =>
    obtain ⟨_, hslice, -⟩ := Run.bind_ok h
    exact .inr (of_decide_eq_true (ensure_ok hslice))

lemma txQueriesToRm_unlimited (store : KVStore) (ids : List UInt64) :
    txQueriesToRm store false 0 ids = .ok (ids.map (wholeRemoval store)) := by
  induction ids with
  | nil => rfl
  | cons id ids ih =>
    unfold txQueriesToRm
    rw [makeslice_ok (by decide), Run.ok_bind]
    dsimp only
    rw [if_neg (by simp), if_neg (by simp), ih]
    rfl

/-! ### What is listed -/

/-- Queries are listed in order, each with hashes from the beginning; those that are finished, with
all of them. -/
structure Lists (store : KVStore) (ids : List UInt64) (qs : List TxQueryToRemove) : Prop where
  ids : qs.map (·.id) <+: ids
  hashes : ∀ q ∈ qs, q.hashes <+: hashesOf store q.id
  complete : ∀ q ∈ qs, q.completeRemoval = true → q.hashes = hashesOf store q.id

lemma lists_whole (store : KVStore) (ids : List UInt64) :
    Lists store ids (ids.map (wholeRemoval store)) where
  ids := by
    have hids : (ids.map (wholeRemoval store)).map (·.id) = ids := by
      rw [map_map]
      exact map_id ids
    rw [hids]
  hashes q hq := by
    obtain ⟨id, -, rfl⟩ := mem_map.mp hq
    exact prefix_rfl
  complete q hq _ := by
    obtain ⟨id, -, rfl⟩ := mem_map.mp hq
    rfl

variable {budget : ℕ}

lemma Listing.lists (h : Listing store budget ids qs) : Lists store ids qs := by
  induction h with
  | nil => exact lists_whole store []
  | @whole budget id ids qs _ _ ih =>
    refine ⟨?_, ?_, ?_⟩
    · rw [map_cons]
      exact cons_prefix_cons.mpr ⟨rfl, ih.ids⟩
    · rintro q (_ | ⟨_, hq⟩)
      · exact prefix_rfl
      · exact ih.hashes q hq
    · rintro q (_ | ⟨_, hq⟩)
      · exact fun _ => rfl
      · exact ih.complete q hq
  | @last budget id ids _ _ =>
    refine ⟨?_, ?_, ?_⟩
    · exact cons_prefix_cons.mpr ⟨rfl, nil_prefix⟩
    · intro q hq
      rw [mem_singleton.mp hq]
      exact take_prefix _ _
    · intro q hq hcomplete
      rw [mem_singleton.mp hq] at hcomplete
      cases hcomplete

lemma Listing.sum (h : Listing store budget ids qs) :
    (qs.map fun q => q.hashes.length).sum = min budget (hashCount store ids) := by
  induction h with
  | nil => simp [hashCount]
  | @whole budget id ids qs hlt _ ih =>
    rw [hashCount, map_cons, map_cons, sum_cons, sum_cons, ih]
    change (hashesOf store id).length + min _ (hashCount store ids)
      = min budget ((hashesOf store id).length + hashCount store ids)
    omega
  | @last budget id ids _ hle =>
    rw [hashCount, map_cons, sum_cons]
    simp only [map_cons, map_nil, sum_cons, sum_nil, length_take]
    omega

/-- If the budget is not used up, all queries are finished. -/
lemma Listing.eq_whole (h : Listing store budget ids qs) (hlt : hashCount store ids < budget) :
    qs = ids.map (wholeRemoval store) := by
  induction h with
  | nil => rfl
  | @whole budget id ids qs hid _ ih =>
    rw [hashCount, map_cons, sum_cons] at hlt
    rw [map_cons, ih]
    unfold hashCount
    omega
  | @last budget id ids _ hle =>
    rw [hashCount, map_cons, sum_cons] at hlt
    omega

/-! ### What is deleted -/

/-- The keys that the second loop deletes for a query. -/
def TxQueryToRemove.keys (q : TxQueryToRemove) : List Bytes :=
  q.hashes.map (getSubmittedTransactionIDForQueryKey q.id)
    ++ if q.completeRemoval then [getTxQueryToRemoveByIDKey q.id] else []

lemma removeTxQuery_eq (store : KVStore) (q : TxQueryToRemove) :
    removeTxQuery store q = q.keys.foldl (fun s k => s.delete k) store := by
  unfold removeTxQuery TxQueryToRemove.keys
  rw [foldl_append, foldl_map]
  dsimp only
  split_ifs
  · rfl
  · rfl

lemma get_foldl_removeTxQuery (store : KVStore) (qs : List TxQueryToRemove) (k : Bytes) :
    (qs.foldl removeTxQuery store).get k = if ∃ q ∈ qs, k ∈ q.keys then none else store.get k := by
  induction qs generalizing store with
  | nil => simp
  | cons q qs ih =>
    rw [foldl_cons, ih, removeTxQuery_eq, get_foldl_delete (fun k => k), map_id']
    simp only [mem_cons, exists_eq_or_imp]
    by_cases hrest : ∃ q ∈ qs, k ∈ q.keys
    · rw [if_pos hrest, if_pos (.inr hrest)]
    · by_cases hk : k ∈ q.keys
      · rw [if_neg hrest, if_pos hk, if_pos (.inl hk)]
      · rw [if_neg hrest, if_neg hk, if_neg (not_or.mpr ⟨hk, hrest⟩)]

variable {q : TxQueryToRemove}

lemma hash_mem_keys :
    getSubmittedTransactionIDForQueryKey id hash ∈ q.keys ↔ q.id = id ∧ hash ∈ q.hashes := by
  rw [TxQueryToRemove.keys, mem_append, mem_map]
  constructor
  · rintro (⟨hash', hmem, heq⟩ | hmem)
    · obtain ⟨rfl, rfl⟩ := getSubmittedTransactionIDForQueryKey_inj heq
      exact ⟨rfl, hmem⟩
    · split_ifs at hmem
      · exact absurd (mem_singleton.mp hmem) getSubmittedTransactionIDForQueryKey_ne
      · cases hmem
  · rintro ⟨rfl, hmem⟩
    exact .inl ⟨hash, hmem, rfl⟩

lemma mark_mem_keys :
    getTxQueryToRemoveByIDKey id ∈ q.keys ↔ q.id = id ∧ q.completeRemoval = true := by
  rw [TxQueryToRemove.keys, mem_append, mem_map]
  constructor
  · rintro (⟨hash, -, heq⟩ | hmem)
    · exact absurd heq getSubmittedTransactionIDForQueryKey_ne
    · split_ifs at hmem with hcomplete
      · exact ⟨(getTxQueryToRemoveByIDKey_inj (mem_singleton.mp hmem)).symm, hcomplete⟩
      · cases hmem
  · rintro ⟨rfl, hcomplete⟩
    right
    rw [if_pos hcomplete]
    exact mem_singleton_self _

lemma has_foldl_removeTxQuery : (qs.foldl removeTxQuery store).has k = true
    ↔ store.has k = true ∧ ∀ q ∈ qs, k ∉ q.keys := by
  rw [KVStore.has, get_foldl_removeTxQuery]
  split_ifs with hdeleted
  · obtain ⟨q, hq, hk⟩ := hdeleted
    exact iff_of_false (by simp) fun hand => hand.2 q hq hk
  · constructor
    · intro hhas
      exact ⟨hhas, fun q hq hk => hdeleted ⟨q, hq, hk⟩⟩
    · exact fun hand => hand.1

lemma mem_hashesOf_foldl : hash ∈ hashesOf (qs.foldl removeTxQuery store) id
    ↔ hash ∈ hashesOf store id ∧ ∀ q ∈ qs, q.id = id → hash ∉ q.hashes := by
  rw [mem_hashesOf, mem_hashesOf, has_foldl_removeTxQuery]
  simp only [hash_mem_keys, not_and]

lemma WellKeyed.foldl (h : WellKeyed store) : WellKeyed (qs.foldl removeTxQuery store) :=
  fun k hk => h k (has_foldl_removeTxQuery.mp hk).1

lemma WellKeyed.mem_markedIDs_foldl (h : WellKeyed store) :
    id ∈ markedIDs (qs.foldl removeTxQuery store)
      ↔ id ∈ markedIDs store ∧ ∀ q ∈ qs, q.id = id → q.completeRemoval = false := by
  rw [h.foldl.mem_markedIDs, h.mem_markedIDs, has_foldl_removeTxQuery]
  simp only [mark_mem_keys, not_and, Bool.not_eq_true]

/-- The hashes of marked queries that are not there any more. -/
def deletedHashes (store store' : KVStore) : List (UInt64 × Bytes) :=
  (markedHashes store).filter fun p => !store'.has (getSubmittedTransactionIDForQueryKey p.1 p.2)

lemma countP_unlisted (hid : id ∉ qs.map (·.id)) :
    (hashesOf store id).countP (fun hash => !(qs.foldl removeTxQuery store).has
      (getSubmittedTransactionIDForQueryKey id hash)) = 0 := by
  rw [countP_eq_zero]
  intro hash hmem
  rw [Bool.not_eq_true', Bool.not_eq_false, ← mem_hashesOf, mem_hashesOf_foldl]
  refine ⟨hmem, ?_⟩
  rintro q hq rfl
  exact absurd (mem_map_of_mem hq) hid

lemma length_deletedHashes_eq (store store' : KVStore) : (deletedHashes store store').length
    = ((markedIDs store).map fun id => (hashesOf store id).countP fun hash =>
      !store'.has (getSubmittedTransactionIDForQueryKey id hash)).sum := by
  rw [deletedHashes, ← countP_eq_length_filter, markedHashes, countP_flatMap]
  congr 1
  apply map_congr_left
  intro id _
  rw [Function.comp_apply, countP_map]
  rfl

section Pass

variable (hkeys : WellKeyed store) (hlists : Lists store (markedIDs store) qs)

include hkeys hlists

lemma Lists.eq_of_id {q' : TxQueryToRemove} (hq : q ∈ qs) (hq' : q' ∈ qs)
    (hid : q.id = q'.id) : q = q' :=
  inj_on_of_nodup_map (hkeys.nodup_markedIDs.sublist hlists.ids.sublist) hq hq' hid

/-- Of a query that is listed, the hashes that are listed are deleted. -/
lemma Lists.countP_listed (hq : q ∈ qs) :
    (hashesOf store q.id).countP (fun hash => !(qs.foldl removeTxQuery store).has
      (getSubmittedTransactionIDForQueryKey q.id hash)) = q.hashes.length := by
  obtain ⟨rest, hrest⟩ := hlists.hashes q hq
  have hnodup := nodup_hashesOf store q.id
  rw [← hrest] at hnodup ⊢
  have hgone : ∀ hash ∈ q.hashes, (!(qs.foldl removeTxQuery store).has
      (getSubmittedTransactionIDForQueryKey q.id hash)) = true := by
    intro hash hmem
    rw [Bool.not_eq_true', ← Bool.not_eq_true, ← mem_hashesOf, mem_hashesOf_foldl]
    exact fun hand => hand.2 q hq rfl hmem
  have hkept : ∀ hash ∈ rest, ¬(!(qs.foldl removeTxQuery store).has
      (getSubmittedTransactionIDForQueryKey q.id hash)) = true := by
    intro hash hmem
    rw [Bool.not_eq_true', Bool.not_eq_false, ← mem_hashesOf, mem_hashesOf_foldl]
    refine ⟨hrest ▸ mem_append_right _ hmem, ?_⟩
    intro q' hq' hid hmem'
    rw [hlists.eq_of_id hkeys hq' hq hid] at hmem'
    exact disjoint_of_nodup_append hnodup hmem' hmem
  rw [countP_append, countP_eq_length.mpr hgone, countP_eq_zero.mpr hkept, add_zero]

lemma Lists.length_deletedHashes :
    (deletedHashes store (qs.foldl removeTxQuery store)).length
      = (qs.map fun q => q.hashes.length).sum := by
  obtain ⟨rest, hrest⟩ := hlists.ids
  have hnodup := hkeys.nodup_markedIDs
  rw [← hrest] at hnodup
  have hnone : (rest.map fun id => (hashesOf store id).countP fun hash =>
      !(qs.foldl removeTxQuery store).has (getSubmittedTransactionIDForQueryKey id hash)).sum = 0 := by
    apply sum_eq_zero
    intro n hn
    obtain ⟨id, hid, rfl⟩ := mem_map.mp hn
    exact countP_unlisted fun hlisted => disjoint_of_nodup_append hnodup hlisted hid
  rw [length_deletedHashes_eq, ← hrest, map_append, sum_append, hnone, add_zero, map_map]
  congr 1
  apply map_congr_left
  intro q hq
  exact hlists.countP_listed hkeys hq

end Pass

lemma Lists.hashesOf_eq_nil (hlists : Lists store ids qs)
    (hgone : ∃ q ∈ qs, q.id = id ∧ q.completeRemoval = true) :
    hashesOf (qs.foldl removeTxQuery store) id = [] := by
  obtain ⟨q, hq, rfl, hcomplete⟩ := hgone
  rw [eq_nil_iff_forall_not_mem]
  intro hash hmem
  obtain ⟨hstored, hkept⟩ := mem_hashesOf_foldl.mp hmem
  rw [← hlists.complete q hq hcomplete] at hstored
  exact hkept q hq rfl hstored

lemma Lists.hashesOf_of_unmarked (hlists : Lists store ids qs) (hkeys : WellKeyed store)
    (hmarked : id ∈ markedIDs store) (hgone : id ∉ markedIDs (qs.foldl removeTxQuery store)) :
    hashesOf (qs.foldl removeTxQuery store) id = [] := by
  apply hlists.hashesOf_eq_nil
  by_contra hnone
  apply hgone
  apply hkeys.mem_markedIDs_foldl.mpr
  refine ⟨hmarked, ?_⟩
  intro q hq hid
  rw [← Bool.not_eq_true]
  exact fun hcomplete => hnone ⟨q, hq, hid, hcomplete⟩

lemma Lists.mem_hashesOf_unmarked (hlists : Lists store (markedIDs store) qs)
    (hid : id ∉ markedIDs store) :
    hash ∈ hashesOf (qs.foldl removeTxQuery store) id ↔ hash ∈ hashesOf store id := by
  rw [mem_hashesOf_foldl, and_iff_left]
  rintro q hq rfl
  exact absurd (hlists.ids.subset (mem_map_of_mem hq)) hid

lemma WellKeyed.length_markedHashes_le (hkeys : WellKeyed store) (qs : List TxQueryToRemove) :
    (markedHashes (qs.foldl removeTxQuery store)).length
        + (deletedHashes store (qs.foldl removeTxQuery store)).length
      ≤ (markedHashes store).length := by
  have hsplit := length_eq_length_filter_add (l := markedHashes store)
    fun p => (qs.foldl removeTxQuery store).has (getSubmittedTransactionIDForQueryKey p.1 p.2)
  have hleft : (markedHashes (qs.foldl removeTxQuery store)).length ≤ ((markedHashes store).filter
      fun p => (qs.foldl removeTxQuery store).has
        (getSubmittedTransactionIDForQueryKey p.1 p.2)).length := by
    apply List.Subperm.length_le
    apply subperm_of_subset hkeys.foldl.nodup_markedHashes
    rintro ⟨id, hash⟩ hmem
    obtain ⟨hid, hhash⟩ := mem_markedHashes.mp hmem
    rw [mem_filter, mem_markedHashes]
    exact ⟨⟨(hkeys.mem_markedIDs_foldl.mp hid).1, (mem_hashesOf_foldl.mp hhash).1⟩,
      mem_hashesOf.mp hhash⟩
  rw [hsplit]
  exact Nat.add_le_add_right hleft _

lemma WellKeyed.length_markedIDs_le (hkeys : WellKeyed store) (qs : List TxQueryToRemove) :
    (markedIDs (qs.foldl removeTxQuery store)).length ≤ (markedIDs store).length := by
  apply List.Subperm.length_le
  apply subperm_of_subset hkeys.foldl.nodup_markedIDs
  intro id hid
  exact (hkeys.mem_markedIDs_foldl.mp hid).1

lemma WellKeyed.length_markedIDs_lt (hkeys : WellKeyed store)
    (hq : q ∈ qs) (hmarked : q.id ∈ markedIDs store) (hcomplete : q.completeRemoval = true) :
    (markedIDs (qs.foldl removeTxQuery store)).length < (markedIDs store).length := by
  have hle : (markedIDs (qs.foldl removeTxQuery store)).length
      ≤ ((markedIDs store).erase q.id).length := by
    apply List.Subperm.length_le
    apply subperm_of_subset hkeys.foldl.nodup_markedIDs
    intro id hid
    obtain ⟨hold, hkept⟩ := hkeys.mem_markedIDs_foldl.mp hid
    have hne : id ≠ q.id := by
      rintro rfl
      rw [hkept q hq rfl] at hcomplete
      cases hcomplete
    exact (mem_erase_of_ne hne).mpr hold
  have hpos := length_pos_of_mem hmarked
  rw [length_erase_of_mem hmarked] at hle
  omega

/-! ### One call -/

variable {w w' w₁ w₂ : World ι}

lemma getTxQueriesToRemove_eq (store : KVStore) (limit : UInt64) :
    getTxQueriesToRemove store limit = takeLimit limit (markedIDs store) := rfl

/-- **The cleanup** deletes what it has listed of the marked queries. -/
lemma txQueriesCleanup_lists (h : txQueriesCleanup w = .ok w') :
    ∃ qs, w' = { w with store := qs.foldl removeTxQuery w.store }
      ∧ Lists w.store (markedIDs w.store) qs
      ∧ (w.params.txQueryRemovalLimit = 0 → qs = (markedIDs w.store).map (wholeRemoval w.store))
      ∧ (w.params.txQueryRemovalLimit ≠ 0 → Listing w.store w.params.txQueryRemovalLimit.toNat
        ((markedIDs w.store).take w.params.txQueryRemovalLimit.toNat) qs) := by
  obtain ⟨_, qs, -, hqs, h⟩ := Run.bind2_ok h
  cases h
  refine ⟨qs, rfl, ?_⟩
  rw [getTxQueriesToRemove_eq] at hqs
  unfold takeLimit at hqs
  by_cases hlimit : w.params.txQueryRemovalLimit = 0
  · rw [if_pos hlimit, hlimit] at hqs
    change txQueriesToRm w.store false 0 _ = _ at hqs
    rw [txQueriesToRm_unlimited] at hqs
    cases hqs
    exact ⟨lists_whole _ _, fun _ => rfl, fun hne => absurd hlimit hne⟩
  · rw [if_neg hlimit, decide_eq_true hlimit] at hqs
    have hlisting := listing_of_ok hlimit hqs
    refine ⟨?_, fun hzero => absurd hzero hlimit, fun _ => hlisting⟩
    have hlists := hlisting.lists
    exact ⟨hlists.ids.trans <| take_prefix _ _, hlists.hashes, hlists.complete⟩

lemma txQueriesCleanup_isOk_iff : (∃ w', txQueriesCleanup w = .ok w')
    ↔ 8 * (w.params.txQueryRemovalLimit.toNat / 10) ≤ 2 ^ 48
      ∧ (markedIDs w.store = [] ∨ 24 * w.params.txQueryRemovalLimit.toNat ≤ 2 ^ 48) := by
  have hnil : getTxQueriesToRemove w.store w.params.txQueryRemovalLimit = []
      ↔ markedIDs w.store = [] := by
    rw [getTxQueriesToRemove_eq, takeLimit]
    split_ifs with hlimit
    · exact Iff.rfl
    · have hpos : w.params.txQueryRemovalLimit.toNat ≠ 0 := fun h0 =>
        hlimit (UInt64.toNat_inj.mp h0)
      rw [take_eq_nil_iff]
      exact or_iff_right hpos
  rw [← hnil]
  constructor
  · rintro ⟨w', h⟩
    obtain ⟨_, qs, hslice, hqs, -⟩ := Run.bind2_ok h
    exact ⟨of_decide_eq_true (ensure_ok hslice), room_of_txQueriesToRm_ok hqs⟩
  · rintro ⟨hslice, hroom⟩
    have hqs : ∃ qs, txQueriesToRm w.store (decide (w.params.txQueryRemovalLimit ≠ 0))
        w.params.txQueryRemovalLimit
        (getTxQueriesToRemove w.store w.params.txQueryRemovalLimit) = .ok qs :=
      txQueriesToRm_isOk of_decide_eq_true hroom
    obtain ⟨qs, hqs⟩ := hqs
    unfold txQueriesCleanup
    dsimp only
    rw [makeslice_ok hslice, Run.ok_bind, hqs]
    exact ⟨_, rfl⟩

/-! ### Many calls -/

/-- How many calls are needed at most: one for every `limit` hashes, and one for every mark. -/
def potential (store : KVStore) (limit : ℕ) : ℕ :=
  ((markedHashes store).length + limit - 1) / limit + (markedIDs store).length

/-- **Every call brings the end nearer**: it deletes `limit` hashes, or finishes a query. -/
lemma potential_lt (hkeys : WellKeyed w.store) (h : txQueriesCleanup w = .ok w')
    (hlimit : w.params.txQueryRemovalLimit ≠ 0) (hmarks : markedIDs w.store ≠ []) :
    potential w'.store w.params.txQueryRemovalLimit.toNat
      < potential w.store w.params.txQueryRemovalLimit.toNat := by
  obtain ⟨qs, rfl, hlists, -, hlisting⟩ := txQueriesCleanup_lists h
  have hlisting := hlisting hlimit
  have hpos : 0 < w.params.txQueryRemovalLimit.toNat :=
    Nat.pos_of_ne_zero fun h0 => hlimit (UInt64.toNat_inj.mp h0)
  have hhashes := hkeys.length_markedHashes_le qs
  have hids := hkeys.length_markedIDs_le qs
  generalize w.params.txQueryRemovalLimit.toNat = L at *
  rcases lt_or_ge (hashCount w.store ((markedIDs w.store).take L)) L with hlt | hge
  · -- all that is listed is finished, the first query at least
    have hwhole := hlisting.eq_whole hlt
    obtain ⟨id, rest, hcons⟩ := exists_cons_of_ne_nil hmarks
    have hfirst : wholeRemoval w.store id ∈ qs := by
      rw [hwhole, hcons, take_cons hpos, map_cons]
      exact mem_cons_self
    have hfewer := hkeys.length_markedIDs_lt hfirst (by rw [hcons]; exact mem_cons_self) rfl
    have hceil := Nat.div_le_div_right (c := L) (show
      (markedHashes (qs.foldl removeTxQuery w.store)).length + L - 1
        ≤ (markedHashes w.store).length + L - 1 by omega)
    show potential (qs.foldl removeTxQuery w.store) L < potential w.store L
    simp only [potential]
    omega
  · have hdeleted : (deletedHashes w.store (qs.foldl removeTxQuery w.store)).length = L := by
      rw [hlists.length_deletedHashes hkeys, hlisting.sum, min_eq_left hge]
    have hceil := Nat.div_le_div_right (c := L) (show
      (markedHashes (qs.foldl removeTxQuery w.store)).length + L - 1 + L
        ≤ (markedHashes w.store).length + L - 1 by omega)
    rw [Nat.add_div_right _ hpos] at hceil
    show potential (qs.foldl removeTxQuery w.store) L < potential w.store L
    simp only [potential]
    omega

/-- What may happen between two calls: no query of `removed` gets a hash, and no query a mark. -/
structure Between (removed : List UInt64) (w w' : World ι) : Prop where
  limit : w'.params.txQueryRemovalLimit = w.params.txQueryRemovalLimit
  keys : WellKeyed w'.store
  marks : markedIDs w'.store = markedIDs w.store
  hashes : ∀ id ∈ removed, hashesOf w'.store id = hashesOf w.store id

/-- So many calls, with other things between them. -/
inductive Cleanups (removed : List UInt64) : ℕ → World ι → World ι → Prop
  | none {w : World ι} : Cleanups removed 0 w w
  | call {n : ℕ} {w w₁ w₂ w' : World ι} : txQueriesCleanup w = .ok w₁ → Between removed w₁ w₂ →
      Cleanups removed n w₂ w' → Cleanups removed (n + 1) w w'

/-- What is known about the removed queries between calls. -/
structure Pending (removed : List UInt64) (w : World ι) : Prop where
  keys : WellKeyed w.store
  marks : ∀ id ∈ markedIDs w.store, id ∈ removed
  rest : ∀ id ∈ removed, id ∈ markedIDs w.store ∨ hashesOf w.store id = []

variable {removed : List UInt64} {n : ℕ}

lemma Pending.call (hpending : Pending removed w) (h : txQueriesCleanup w = .ok w') :
    Pending removed w' := by
  obtain ⟨qs, rfl, hlists, -⟩ := txQueriesCleanup_lists h
  refine ⟨hpending.keys.foldl, ?_, ?_⟩
  · intro id hid
    exact hpending.marks id (hpending.keys.mem_markedIDs_foldl.mp hid).1
  · intro id hid
    rcases hpending.rest id hid with hmarked | hnil
    · by_cases hleft : id ∈ markedIDs (qs.foldl removeTxQuery w.store)
      · exact .inl hleft
      · exact .inr (hlists.hashesOf_of_unmarked hpending.keys hmarked hleft)
    · right
      rw [eq_nil_iff_forall_not_mem] at hnil ⊢
      exact fun hash hmem => hnil hash (mem_hashesOf_foldl.mp hmem).1

lemma Pending.between (hpending : Pending removed w) (h : Between removed w w') :
    Pending removed w' := by
  refine ⟨h.keys, ?_, ?_⟩
  · rw [h.marks]
    exact hpending.marks
  · intro id hid
    rw [h.marks, h.hashes id hid]
    exact hpending.rest id hid

lemma Pending.potential_between (hpending : Pending removed w) (h : Between removed w w')
    (limit : ℕ) : potential w'.store limit = potential w.store limit := by
  have hhashes : markedHashes w'.store = markedHashes w.store := by
    rw [markedHashes, markedHashes, h.marks]
    apply flatMap_congr
    intro id hid
    rw [h.hashes id (hpending.marks id hid)]
  rw [potential, potential, hhashes, h.marks]

lemma txQueriesCleanup_limit (h : txQueriesCleanup w = .ok w') :
    w'.params.txQueryRemovalLimit = w.params.txQueryRemovalLimit := by
  obtain ⟨qs, rfl, -⟩ := txQueriesCleanup_lists h
  rfl

lemma Cleanups.pending (h : Cleanups removed n w w') (hpending : Pending removed w) :
    Pending removed w' := by
  induction h with
  | none => exact hpending
  | call hcall hbetween _ ih => exact ih ((hpending.call hcall).between hbetween)

lemma potential_of_nil {limit : ℕ} (hlimit : limit ≠ 0) (h : markedIDs store = []) :
    potential store limit = 0 := by
  have hnone : markedHashes store = [] := by
    rw [markedHashes, h]
    rfl
  rw [potential, hnone, h, length_nil, Nat.zero_add]
  exact Nat.div_eq_of_lt (Nat.sub_one_lt hlimit)

lemma markedIDs_of_potential {limit : ℕ} (h : potential store limit = 0) : markedIDs store = [] :=
  eq_nil_of_length_eq_zero (Nat.eq_zero_of_add_eq_zero_left h)

/-- **Every call counts**, until there are no marks. -/
lemma Cleanups.potential_le (h : Cleanups removed n w w') (hpending : Pending removed w)
    (hlimit : w.params.txQueryRemovalLimit ≠ 0) :
    markedIDs w'.store = [] ∨ potential w'.store w.params.txQueryRemovalLimit.toNat + n
      ≤ potential w.store w.params.txQueryRemovalLimit.toNat := by
  induction h with
  | none => exact .inr le_rfl
  | @call n w w₁ w₂ w' hcall hbetween hrest ih =>
    have hpos : w.params.txQueryRemovalLimit.toNat ≠ 0 := fun h0 =>
      hlimit (UInt64.toNat_inj.mp h0)
    have hsame : w₂.params.txQueryRemovalLimit = w.params.txQueryRemovalLimit :=
      hbetween.limit.trans (txQueriesCleanup_limit hcall)
    have hpending₁ := hpending.call hcall
    have ih := ih (hpending₁.between hbetween) (by rw [hsame]; exact hlimit)
    rw [hsame, hpending₁.potential_between hbetween] at ih
    rcases ih with hnil | hle
    · exact .inl hnil
    · by_cases hmarks : markedIDs w.store = []
      · -- there were no marks before, so there are none now
        left
        have hmarks₁ : markedIDs w₁.store = [] := by
          obtain ⟨qs, rfl, -⟩ := txQueriesCleanup_lists hcall
          have hfew := hpending.keys.length_markedIDs_le qs
          rw [hmarks] at hfew
          exact eq_nil_of_length_eq_zero (Nat.le_zero.mp hfew)
        rw [potential_of_nil hpos hmarks₁] at hle
        exact markedIDs_of_potential (Nat.eq_zero_of_add_eq_zero_right (Nat.le_zero.mp hle))
      · right
        have hlt := potential_lt hpending.keys hcall hlimit hmarks
        omega

/-- **Enough calls leave nothing** of the removed queries. -/
lemma Cleanups.nothing_left (h : Cleanups (markedIDs w.store) n w w')
    (hkeys : WellKeyed w.store) (hlimit : w.params.txQueryRemovalLimit ≠ 0)
    (hn : potential w.store w.params.txQueryRemovalLimit.toNat ≤ n) :
    markedIDs w'.store = [] ∧ ∀ id ∈ markedIDs w.store, hashesOf w'.store id = [] := by
  have hpending : Pending (markedIDs w.store) w := ⟨hkeys, fun _ hid => hid, fun _ hid => .inl hid⟩
  have hmarks : markedIDs w'.store = [] := by
    rcases h.potential_le hpending hlimit with hnil | hle
    · exact hnil
    · have hzero : potential w'.store w.params.txQueryRemovalLimit.toNat = 0 := by omega
      exact markedIDs_of_potential hzero
  refine ⟨hmarks, ?_⟩
  intro id hid
  have hrest := (h.pending hpending).rest id hid
  rw [hmarks] at hrest
  exact hrest.resolve_left not_mem_nil

/-- A call that returns can be followed by others. -/
lemma exists_cleanups (removed : List UInt64) (n : ℕ) (hkeys : WellKeyed w.store)
    (hslice : 8 * (w.params.txQueryRemovalLimit.toNat / 10) ≤ 2 ^ 48)
    (hroom : markedIDs w.store = [] ∨ 24 * w.params.txQueryRemovalLimit.toNat ≤ 2 ^ 48) :
    ∃ w', Cleanups removed n w w' := by
  induction n generalizing w with
  | zero => exact ⟨w, .none⟩
  | succ n ih =>
    obtain ⟨w₁, hcall⟩ := txQueriesCleanup_isOk_iff.mpr ⟨hslice, hroom⟩
    have hsame := txQueriesCleanup_limit hcall
    obtain ⟨qs, hw₁, -⟩ := txQueriesCleanup_lists hcall
    have hstore : w₁.store = qs.foldl removeTxQuery w.store := by rw [hw₁]
    have hkeys₁ : WellKeyed w₁.store := by
      rw [hstore]
      exact hkeys.foldl
    have hroom₁ : markedIDs w₁.store = [] ∨ 24 * w₁.params.txQueryRemovalLimit.toNat ≤ 2 ^ 48 := by
      rw [hsame]
      refine hroom.imp_left fun hnil => ?_
      have hfew := hkeys.length_markedIDs_le qs
      rw [hnil, ← hstore] at hfew
      exact eq_nil_of_length_eq_zero (Nat.le_zero.mp hfew)
    obtain ⟨w', hrest⟩ := ih hkeys₁ (by rw [hsame]; exact hslice) hroom₁
    exact ⟨w', .call hcall ⟨rfl, hkeys₁, rfl, fun _ _ => rfl⟩ hrest⟩

/-! ### The purpose -/

/-- What the cleanup is for. -/
structure CleansUp (w : World ι) : Prop where
  returns : ∃ w', txQueriesCleanup w = .ok w'
  /-- A limit of zero is none. -/
  unlimited : ∀ w', txQueriesCleanup w = .ok w' → w.params.txQueryRemovalLimit = 0 →
    markedIDs w'.store = [] ∧ ∀ id ∈ markedIDs w.store, hashesOf w'.store id = []
  bounded : ∀ w', txQueriesCleanup w = .ok w' → w.params.txQueryRemovalLimit ≠ 0 →
    (deletedHashes w.store w'.store).length ≤ w.params.txQueryRemovalLimit.toNat
  precise : ∀ w', txQueriesCleanup w = .ok w' → w.params.txQueryRemovalLimit ≠ 0 →
    (deletedHashes w.store w'.store).length
      = min w.params.txQueryRemovalLimit.toNat (markedHashes w.store).length
  others : ∀ w', txQueriesCleanup w = .ok w' → ∀ id, id ∉ markedIDs w.store → ∀ hash,
    hash ∈ hashesOf w'.store id ↔ hash ∈ hashesOf w.store id
  marks : ∀ w', txQueriesCleanup w = .ok w' → ∀ id ∈ markedIDs w.store,
    id ∉ markedIDs w'.store → hashesOf w'.store id = []
  /-- So many calls can be made, and they leave nothing. -/
  complete : w.params.txQueryRemovalLimit ≠ 0 →
    ∀ n, potential w.store w.params.txQueryRemovalLimit.toNat ≤ n →
      (∃ w', Cleanups (markedIDs w.store) n w w')
      ∧ ∀ w', Cleanups (markedIDs w.store) n w w' →
        markedIDs w'.store = [] ∧ ∀ id ∈ markedIDs w.store, hashesOf w'.store id = []

lemma length_deletedHashes (hkeys : WellKeyed w.store) (h : txQueriesCleanup w = .ok w')
    (hlimit : w.params.txQueryRemovalLimit ≠ 0) :
    (deletedHashes w.store w'.store).length = min w.params.txQueryRemovalLimit.toNat
      (hashCount w.store ((markedIDs w.store).take w.params.txQueryRemovalLimit.toNat)) := by
  obtain ⟨qs, rfl, hlists, -, hlisting⟩ := txQueriesCleanup_lists h
  rw [hlists.length_deletedHashes hkeys, (hlisting hlimit).sum]

lemma hashCount_take_le (store : KVStore) (n : ℕ) :
    hashCount store ((markedIDs store).take n) ≤ (markedHashes store).length := by
  rw [length_markedHashes, hashCount, hashCount]
  apply List.Sublist.sum_le_sum ((take_sublist n _).map _)
  exact fun _ _ => Nat.zero_le _

lemma nothing_left_of_unlimited (hkeys : WellKeyed w.store) (h : txQueriesCleanup w = .ok w')
    (hlimit : w.params.txQueryRemovalLimit = 0) :
    markedIDs w'.store = [] ∧ ∀ id ∈ markedIDs w.store, hashesOf w'.store id = [] := by
  obtain ⟨qs, rfl, hlists, hwhole, -⟩ := txQueriesCleanup_lists h
  have hwhole := hwhole hlimit
  have hlisted : ∀ id ∈ markedIDs w.store, ∃ q ∈ qs, q.id = id ∧ q.completeRemoval = true := by
    intro id hid
    rw [hwhole]
    exact ⟨_, mem_map_of_mem hid, rfl, rfl⟩
  refine ⟨?_, fun id hid => hlists.hashesOf_eq_nil (hlisted id hid)⟩
  rw [eq_nil_iff_forall_not_mem]
  intro id hid
  obtain ⟨hmarked, hkept⟩ := hkeys.mem_markedIDs_foldl.mp hid
  obtain ⟨q, hq, hqid, hcomplete⟩ := hlisted id hmarked
  rw [hkept q hq hqid] at hcomplete
  cases hcomplete

/-- **The cleanup is bounded, precise and complete** if and only if the limit is not too large to
allocate for, and the first `limit` marked queries have as many hashes as can be deleted. -/
theorem cleans_up_iff (w : World ι) (hkeys : WellKeyed w.store) : CleansUp w
    ↔ 8 * (w.params.txQueryRemovalLimit.toNat / 10) ≤ 2 ^ 48
      ∧ (markedIDs w.store = [] ∨ 24 * w.params.txQueryRemovalLimit.toNat ≤ 2 ^ 48)
      ∧ (w.params.txQueryRemovalLimit = 0
        ∨ min w.params.txQueryRemovalLimit.toNat (markedHashes w.store).length
          ≤ hashCount w.store ((markedIDs w.store).take w.params.txQueryRemovalLimit.toNat)) := by
  constructor
  · intro h
    obtain ⟨w', hcall⟩ := h.returns
    obtain ⟨hslice, hroom⟩ := txQueriesCleanup_isOk_iff.mp h.returns
    refine ⟨hslice, hroom, ?_⟩
    by_cases hlimit : w.params.txQueryRemovalLimit = 0
    · exact .inl hlimit
    · right
      rw [← h.precise w' hcall hlimit, length_deletedHashes hkeys hcall hlimit]
      exact min_le_right _ _
  · rintro ⟨hslice, hroom, hprecise⟩
    constructor
    case returns => exact txQueriesCleanup_isOk_iff.mpr ⟨hslice, hroom⟩
    case unlimited =>
      intro w' hcall hlimit
      exact nothing_left_of_unlimited hkeys hcall hlimit
    case bounded =>
      intro w' hcall hlimit
      rw [length_deletedHashes hkeys hcall hlimit]
      exact min_le_left _ _
    case precise =>
      intro w' hcall hlimit
      have hle := hprecise.resolve_left hlimit
      have hfew := hashCount_take_le w.store w.params.txQueryRemovalLimit.toNat
      rw [length_deletedHashes hkeys hcall hlimit]
      omega
    case others =>
      intro w' hcall id hid hash
      obtain ⟨qs, rfl, hlists, -⟩ := txQueriesCleanup_lists hcall
      exact hlists.mem_hashesOf_unmarked hid
    case marks =>
      intro w' hcall id hid hgone
      obtain ⟨qs, rfl, hlists, -⟩ := txQueriesCleanup_lists hcall
      exact hlists.hashesOf_of_unmarked hkeys hid hgone
    case complete =>
      intro hlimit n hn
      refine ⟨exists_cleanups _ n hkeys hslice hroom, ?_⟩
      intro w' hcalls
      exact hcalls.nothing_left hkeys hlimit hn

lemma WellKeyed.set (h : WellKeyed store) (v : Bytes)
    (hk : (∃ id txHash, k = getSubmittedTransactionIDForQueryKey id txHash)
      ∨ ∃ id, k = getTxQueryToRemoveByIDKey id) : WellKeyed (store.set k v) := by
  intro k' hk'
  by_cases heq : k' = k
  · rw [heq]
    exact hk
  · rw [KVStore.has, get_set_of_ne (Ne.symm heq)] at hk'
    exact h k' hk'

/-- Two queries are marked; the first has no hash and the second has one. -/
def crowded (limit : UInt64) : World Unit :=
  { demoWorld [] with
    params := { demoParams [] with txQueryRemovalLimit := limit }
    store := ((KVStore.set ∅ (getTxQueryToRemoveByIDKey 1) []).set (getTxQueryToRemoveByIDKey 2) []).set
      (getSubmittedTransactionIDForQueryKey 2 (ascii "tx")) [] }

lemma wellKeyed_crowded (limit : UInt64) : WellKeyed (crowded limit).store := by
  apply WellKeyed.set
  · apply WellKeyed.set
    · apply WellKeyed.set
      · intro k hk
        cases hk
      · exact .inr ⟨1, rfl⟩
    · exact .inr ⟨2, rfl⟩
  · exact .inl ⟨2, _, rfl⟩

theorem cleans_up_iff_crowded : CleansUp (crowded 2) :=
  (cleans_up_iff (crowded 2) (wellKeyed_crowded 2)).mpr (by decide +kernel)

/-- The limit is one and there is one hash, but the call does not delete it; and no call returns
where the limit is large. -/
theorem crowded_out :
    (txQueriesCleanup (crowded 1)).map
        (fun w' => (deletedHashes (crowded 1).store w'.store).length) = .ok 0
      ∧ (markedHashes (crowded 1).store).length = 1
      ∧ WellKeyed (crowded 1).store ∧ ¬ CleansUp (crowded 1)
      ∧ ∀ w', txQueriesCleanup (crowded (2 ^ 63)) ≠ .ok w' := by
  refine ⟨by decide +kernel, by decide +kernel, wellKeyed_crowded 1, ?_, ?_⟩
  · intro h
    obtain ⟨w', hcall⟩ := h.returns
    have hprecise := h.precise w' hcall (by decide)
    rw [length_deletedHashes (wellKeyed_crowded 1) hcall (by decide)] at hprecise
    revert hprecise
    decide +kernel
  · intro w' h
    exact absurd (txQueriesCleanup_isOk_iff.mp ⟨w', h⟩).1 (by decide +kernel)

end MaanyDex.InterchainQueries
