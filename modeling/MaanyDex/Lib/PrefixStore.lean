/-
Range iteration below a prefix.

A prefix store shows the keys that start with a fixed prefix, without it.  `iterator` and
`reverseIterator` are its two range iterators with one open end: ascending from a start key, which
is included, and descending from an end key, which is not.  Both walk over a copy that was taken
when they were made, so that an iterator is the list of what it has still to show.

When keys encode an ordered type monotonically, the iterators follow the order of that type
(`iterator_eq_map`, `reverseIterator_eq_map`).
-/
import MaanyDex.Lib.Bytes

namespace PrefixStore

open List

variable {V : Type*} (s : Std.ExtTreeMap Bytes V)

/-- The entries under a prefix, without it, in ascending key order. -/
def entries (p : Bytes) : List (Bytes × V) :=
  (s.toList.filter fun e => p.isPrefixOf e.1).map fun e => (e.1.drop p.length, e.2)

/-- `Iterator(start, nil)`. -/
def iterator (p start : Bytes) : List (Bytes × V) :=
  (entries s p).filter fun e => compare start e.1 ≠ .gt

/-- `ReverseIterator(nil, stop)`. -/
def reverseIterator (p stop : Bytes) : List (Bytes × V) :=
  ((entries s p).filter fun e => compare e.1 stop = .lt).reverse

variable {s : Std.ExtTreeMap Bytes V} {p k : Bytes} {v : V}

lemma mem_entries : (k, v) ∈ entries s p ↔ s[p ++ k]? = some v := by
  rw [entries, mem_map]
  constructor
  · rintro ⟨⟨k', v'⟩, hmem, heq⟩
    obtain ⟨hmem, hp⟩ := mem_filter.mp hmem
    obtain ⟨rest, rfl⟩ := isPrefixOf_iff_prefix.mp hp
    obtain ⟨rfl, rfl⟩ := Prod.mk.inj heq
    rw [drop_left]
    exact Std.ExtTreeMap.mem_toList_iff_getElem?_eq_some.mp hmem
  · intro h
    refine ⟨(p ++ k, v), ?_, by rw [drop_left]⟩
    rw [mem_filter, isPrefixOf_iff_prefix]
    exact ⟨Std.ExtTreeMap.mem_toList_iff_getElem?_eq_some.mpr h, prefix_append p k⟩

lemma pairwise_entries : (entries s p).Pairwise fun a b => compare a.1 b.1 = .lt := by
  rw [entries, pairwise_map]
  have hsorted : (s.toList.filter fun e => p.isPrefixOf e.1).Pairwise
      fun a b => compare a.1 b.1 = .lt :=
    Std.ExtTreeMap.ordered_keys_toList.sublist filter_sublist
  refine hsorted.imp_of_mem ?_
  rintro ⟨a, v⟩ ⟨b, w⟩ ha hb hlt
  obtain ⟨x, rfl⟩ := isPrefixOf_iff_prefix.mp (mem_filter.mp ha).2
  obtain ⟨y, rfl⟩ := isPrefixOf_iff_prefix.mp (mem_filter.mp hb).2
  show compare ((p ++ x).drop p.length) ((p ++ y).drop p.length) = .lt
  rw [drop_left, drop_left, ← Bytes.compare_append_left p]
  exact hlt

/-! ### Keys that encode an order -/

section Encoded

variable {ι : Type*} [LinearOrder ι] {D : ι → Prop} {encode : ι → Bytes}

/-- `encode` keeps the order of the `i` with `D i`. -/
def OrderPreserving (D : ι → Prop) (encode : ι → Bytes) : Prop :=
  ∀ i j, D i → D j → compare (encode i) (encode j) = compare i j

/-- **The entries are the encoding of an ascending list**, when every key encodes something. -/
lemma entries_eq_map (hord : OrderPreserving D encode)
    (hkeys : ∀ k v, s[p ++ k]? = some v → ∃ i, D i ∧ k = encode i) :
    ∃ l : List (ι × V), entries s p = l.map (fun e => (encode e.1, e.2))
      ∧ l.Pairwise (fun a b => a.1 < b.1)
      ∧ ∀ i v, (i, v) ∈ l ↔ D i ∧ s[p ++ encode i]? = some v := by
  -- decode key by key
  have hrange : entries s p ∈ Set.range
      (List.map fun e : {e : ι × V // D e.1} => (encode e.1.1, e.1.2)) := by
    rw [Set.range_list_map]
    rintro ⟨k, v⟩ he
    obtain ⟨i, hi, rfl⟩ := hkeys k v (mem_entries.mp he)
    exact ⟨⟨(i, v), hi⟩, rfl⟩
  obtain ⟨l', hl'⟩ := hrange
  set l := l'.map Subtype.val with hdef
  have hl : entries s p = l.map fun e => (encode e.1, e.2) := by
    rw [← hl', hdef, map_map]
    rfl
  have hD : ∀ e ∈ l, D e.1 := by
    intro e he
    obtain ⟨e', -, rfl⟩ := mem_map.mp he
    exact e'.2
  refine ⟨l, hl, ?_, ?_⟩
  · have hsorted := pairwise_entries (s := s) (p := p)
    rw [hl, pairwise_map] at hsorted
    refine hsorted.imp_of_mem ?_
    intro a b ha hb hlt
    rw [hord _ _ (hD a ha) (hD b hb)] at hlt
    exact compare_lt_iff_lt.mp hlt
  · intro i v
    constructor
    · intro h
      refine ⟨hD _ h, mem_entries.mp ?_⟩
      rw [hl]
      exact mem_map.mpr ⟨(i, v), h, rfl⟩
    · rintro ⟨hi, h⟩
      have hmem := mem_entries.mpr h
      rw [hl] at hmem
      obtain ⟨⟨j, w⟩, hj, heq⟩ := mem_map.mp hmem
      obtain ⟨hkey, rfl⟩ := Prod.mk.inj heq
      -- the encoding is injective, because it keeps the order
      have hself : compare (encode i) (encode i) = .eq := Std.ReflCmp.compare_self
      have hcompare : compare j i = .eq := by
        rw [← hord j i (hD _ hj) hi, hkey, hself]
      rwa [← compare_eq_iff_eq.mp hcompare]

variable {l : List (ι × V)} {i : ι}

section

variable (hord : OrderPreserving D encode) (hl : entries s p = l.map fun e => (encode e.1, e.2))
  (hD : ∀ e ∈ l, D e.1) (hi : D i)

include hord hl hD hi

lemma iterator_eq_map :
    iterator s p (encode i) = (l.filter fun e => i ≤ e.1).map fun e => (encode e.1, e.2) := by
  rw [iterator, hl, filter_map]
  congr 1
  apply filter_congr
  intro e he
  show decide (compare (encode i) (encode e.1) ≠ .gt) = decide (i ≤ e.1)
  rw [hord _ _ hi (hD e he), decide_eq_decide, compare_le_iff_le]

lemma reverseIterator_eq_map :
    reverseIterator s p (encode i)
      = (l.filter fun e => e.1 < i).reverse.map fun e => (encode e.1, e.2) := by
  rw [reverseIterator, hl, filter_map, map_reverse]
  congr 2
  apply filter_congr
  intro e he
  show decide (compare (encode e.1) (encode i) = .lt) = decide (e.1 < i)
  rw [hord _ _ (hD e he) hi, decide_eq_decide, compare_lt_iff_lt]

end

end Encoded

end PrefixStore
