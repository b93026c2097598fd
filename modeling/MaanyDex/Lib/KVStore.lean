/-
A key-value store over byte strings, iterated in ascending key order.

The contents are an extensional tree map, so that two stores with the same
bindings are equal.  A region is a set of keys, and `SameOn R s t` says that `s` and `t`
agree on it.
-/
import MaanyDex.Lib.Bytes

abbrev KVStore := Std.ExtTreeMap Bytes Bytes

namespace KVStore

open List

variable {s t u : KVStore} {k k' v p : Bytes}

/-- The value under `k`, `none` for Go's `nil`. -/
def get (s : KVStore) (k : Bytes) : Option Bytes := s[k]?

/-- Is there a value under `k`? -/
def has (s : KVStore) (k : Bytes) : Bool := (s.get k).isSome

def set (s : KVStore) (k v : Bytes) : KVStore := s.insert k v

def delete (s : KVStore) (k : Bytes) : KVStore := s.erase k

/-! ### Reading after writing -/

@[simp] lemma get_empty : get ∅ k = none := by
  simp [get]

@[simp] lemma get_set_self : (s.set k v).get k = some v := by
  simp [get, set]

lemma get_set_of_ne (h : k ≠ k') : (s.set k v).get k' = s.get k' := by
  simp [get, set, Std.ExtTreeMap.getElem?_insert, h]

lemma get_set : (s.set k v).get k' = if k = k' then some v else s.get k' := by
  split
  · rename_i h
    rw [← h, get_set_self]
  · rename_i h
    exact get_set_of_ne h

@[simp] lemma get_delete_self : (s.delete k).get k = none := by
  simp [get, delete]

lemma get_delete_of_ne (h : k ≠ k') : (s.delete k).get k' = s.get k' := by
  simp [get, delete, Std.ExtTreeMap.getElem?_erase, h]

lemma get_delete : (s.delete k).get k' = if k = k' then none else s.get k' := by
  split
  · rename_i h
    rw [← h, get_delete_self]
  · rename_i h
    exact get_delete_of_ne h

lemma has_eq_true : s.has k = true ↔ ∃ v, s.get k = some v := by
  rw [has, Option.isSome_iff_exists]

lemma has_eq_false : s.has k = false ↔ s.get k = none := by
  rw [has, Option.isSome_eq_false_iff, Option.isNone_iff_eq_none]

lemma get_foldl_delete {α : Type*} (f : α → Bytes) (l : List α) :
    (l.foldl (fun s x => s.delete (f x)) s).get k = if k ∈ l.map f then none else s.get k := by
  induction l generalizing s with
  | nil => rfl
  | cons x l ih =>
    rw [foldl_cons, ih, get_delete, map_cons]
    by_cases hk : k ∈ l.map f
    · rw [if_pos hk, if_pos (mem_cons_of_mem _ hk)]
    · by_cases hx : f x = k
      · simp [hx]
      · simp [hk, hx, Ne.symm hx]

/-! ### Prefix iteration -/

/-- The entries whose key starts with `p`, in ascending key order. -/
def iterate (s : KVStore) (p : Bytes) : List (Bytes × Bytes) :=
  s.toList.filter fun e => p.isPrefixOf e.1

lemma mem_iterate : (k, v) ∈ s.iterate p ↔ p <+: k ∧ s.get k = some v := by
  rw [iterate, mem_filter, Std.ExtTreeMap.mem_toList_iff_getElem?_eq_some,
    isPrefixOf_iff_prefix]
  exact and_comm

lemma iterate_eq_nil_iff : s.iterate p = [] ↔ ∀ k, p <+: k → s.get k = none := by
  rw [eq_nil_iff_forall_not_mem]
  constructor
  · intro h k hp
    rcases e : s.get k with - | v
    · rfl
    · exact absurd (mem_iterate.mpr ⟨hp, e⟩) (h (k, v))
  · rintro h ⟨k, v⟩ hm
    obtain ⟨hp, hg⟩ := mem_iterate.mp hm
    rw [h k hp] at hg
    exact absurd hg (by simp)

lemma get_foldl_delete_iterate :
    ((s.iterate p).foldl (fun s e => s.delete e.1) s).get k = if p <+: k then none else s.get k := by
  rw [get_foldl_delete]
  have hmem : k ∈ (s.iterate p).map Prod.fst ↔ p <+: k ∧ ∃ v, s.get k = some v := by
    simp only [mem_map, Prod.exists, exists_and_right, exists_eq_right, mem_iterate,
      exists_and_left]
  by_cases hk : p <+: k
  · rw [if_pos hk]
    split
    · rfl
    · rename_i hno
      rcases hget : s.get k with - | v
      · rfl
      · exact absurd (hmem.mpr ⟨hk, v, hget⟩) hno
  · rw [if_neg hk, if_neg fun h => hk (hmem.mp h).1]

lemma nodup_keys_iterate : ((s.iterate p).map Prod.fst).Nodup := by
  have h : (s.toList.map Prod.fst).Nodup := by
    rw [Std.ExtTreeMap.map_fst_toList_eq_keys]
    exact Std.ExtTreeMap.nodup_keys
  exact h.sublist (filter_sublist.map _)

/-- The keys under a prefix, without it, in ascending order: what the iterator of a prefix store
shows. -/
def suffixes (s : KVStore) (p : Bytes) : List Bytes :=
  (s.iterate p).map fun e => e.1.drop p.length

lemma mem_suffixes : k ∈ s.suffixes p ↔ s.has (p ++ k) = true := by
  rw [suffixes, has_eq_true, mem_map]
  constructor
  · rintro ⟨⟨k', v⟩, hmem, rfl⟩
    obtain ⟨⟨rest, rfl⟩, hget⟩ := mem_iterate.mp hmem
    refine ⟨v, ?_⟩
    rwa [drop_left]
  · rintro ⟨v, hget⟩
    exact ⟨(p ++ k, v), mem_iterate.mpr ⟨prefix_append p k, hget⟩, drop_left⟩

lemma nodup_suffixes : (s.suffixes p).Nodup := by
  have hmap : s.suffixes p = ((s.iterate p).map Prod.fst).map (·.drop p.length) := by
    rw [map_map]
    rfl
  rw [hmap]
  refine List.Nodup.map_on ?_ nodup_keys_iterate
  intro k hk k' hk' heq
  obtain ⟨⟨_, v⟩, hmem, rfl⟩ := mem_map.mp hk
  obtain ⟨⟨_, v'⟩, hmem', rfl⟩ := mem_map.mp hk'
  obtain ⟨⟨rest, rfl⟩, -⟩ := mem_iterate.mp hmem
  obtain ⟨⟨rest', rfl⟩, -⟩ := mem_iterate.mp hmem'
  rw [drop_left, drop_left] at heq
  rw [heq]

/-! ### Regions -/

/-- Two stores agree on every key of the region `R`. -/
def SameOn (R : Bytes → Prop) (s t : KVStore) : Prop := ∀ k, R k → t.get k = s.get k

variable {R : Bytes → Prop}

lemma SameOn.rfl : SameOn R s s := fun _ _ => Eq.refl _

lemma sameOn_set (h : ¬ R k) : SameOn R s (s.set k v) := by
  intro k' hk'
  refine get_set_of_ne ?_
  rintro e
  exact h (e ▸ hk')

lemma sameOn_delete (h : ¬ R k) : SameOn R s (s.delete k) := by
  intro k' hk'
  refine get_delete_of_ne ?_
  rintro e
  exact h (e ▸ hk')

lemma SameOn.iterate_eq (h : SameOn (p <+: ·) s t) : t.iterate p = s.iterate p := by
  have hsorted (u : KVStore) : (u.iterate p).Pairwise fun a b => compare a.1 b.1 = .lt :=
    Std.ExtTreeMap.ordered_keys_toList.sublist filter_sublist
  have hperm : (t.iterate p).Perm (s.iterate p) := by
    rw [perm_ext_iff_of_nodup nodup_keys_iterate.of_map nodup_keys_iterate.of_map]
    rintro ⟨k, v⟩
    rw [mem_iterate, mem_iterate]
    refine and_congr_right fun hk => ?_
    rw [h k hk]
  -- both lists are in ascending key order
  refine hperm.eq_of_pairwise (fun a b _ _ hab hba => ?_) (hsorted t) (hsorted s)
  have hswap : compare b.1 a.1 = .gt := Std.OrientedCmp.gt_iff_lt.mpr hab
  rw [hba] at hswap
  cases hswap

end KVStore
