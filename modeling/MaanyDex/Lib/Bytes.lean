/-
Byte strings, and keys made by joining two parts with a separator.

A Go `string` or `[]byte` is a finite list of bytes.  Stores and packet maps
build composite keys by writing `a ++ [sep] ++ b` and take them apart again by
searching for a separator.  Two ways to take such a key apart matter:

* at the *first* separator (`splitFirst`): exact when `sep` is not in `a`
  (`splitFirst_append`), and only then;
* at the *last* separator: unambiguous when `sep` is not in the second part
  (`append_cons_inj_right`), which is how numeric suffixes are protected.
-/
import Mathlib

/-- A Go `string` or `[]byte`. -/
abbrev Bytes := List UInt8

instance : LawfulBEq Bytes := inferInstance

/-- The bytes of an ASCII literal. -/
def ascii (s : String) : Bytes := s.toList.map fun c => c.toUInt8

namespace Split

variable {α : Type*} [DecidableEq α]

/-! ### Splitting at the first separator -/

/-- Split a list at the first occurrence of `sep`, dropping that occurrence. -/
def splitFirst (sep : α) : List α → Option (List α × List α)
  | [] => none
  | x :: xs =>
    if x = sep then some ([], xs)
    else (splitFirst sep xs).map fun p => (x :: p.1, p.2)

lemma splitFirst_append {sep : α} {a : List α} (b : List α) (h : sep ∉ a) :
    splitFirst sep (a ++ sep :: b) = some (a, b) := by
  induction a with
  | nil => simp [splitFirst]
  | cons x a ih =>
    rw [List.mem_cons, not_or] at h
    simp [splitFirst, Ne.symm h.1, ih h.2]

lemma splitFirst_eq_some {sep : α} {s a b : List α}
    (h : splitFirst sep s = some (a, b)) : s = a ++ sep :: b ∧ sep ∉ a := by
  induction s generalizing a with
  | nil => simp [splitFirst] at h
  | cons x s ih =>
    rw [splitFirst] at h
    split at h
    · rename_i hx
      simp only [Option.some.injEq, Prod.mk.injEq] at h
      obtain ⟨rfl, rfl⟩ := h
      simp [hx]
    · rename_i hx
      obtain ⟨⟨a', b'⟩, hs, he⟩ := Option.map_eq_some_iff.mp h
      simp only [Prod.mk.injEq] at he
      obtain ⟨rfl, rfl⟩ := he
      obtain ⟨rfl, hn⟩ := ih hs
      refine ⟨rfl, ?_⟩
      rw [List.mem_cons, not_or]
      exact ⟨fun e => hx e.symm, hn⟩

lemma splitFirst_append_isSome (sep : α) (a b : List α) :
    ∃ p, splitFirst sep (a ++ sep :: b) = some p := by
  induction a with
  | nil => exact ⟨([], b), by simp [splitFirst]⟩
  | cons x a ih =>
    obtain ⟨p, hp⟩ := ih
    by_cases hx : x = sep
    · exact ⟨([], a ++ sep :: b), by simp [splitFirst, hx]⟩
    · exact ⟨(x :: p.1, p.2), by simp [splitFirst, hx, hp]⟩

/-! ### Joined keys -/

lemma append_cons_inj_left {sep : α} {a a' b b' : List α} (ha : sep ∉ a)
    (ha' : sep ∉ a') (h : a ++ sep :: b = a' ++ sep :: b') : a = a' ∧ b = b' := by
  have e := splitFirst_append b ha
  rw [h, splitFirst_append b' ha'] at e
  simp only [Option.some.injEq, Prod.mk.injEq] at e
  exact ⟨e.1.symm, e.2.symm⟩

omit [DecidableEq α] in
lemma append_cons_inj_right {sep : α} {a a' b b' : List α} (hb : sep ∉ b)
    (hb' : sep ∉ b') (h : a ++ sep :: b = a' ++ sep :: b') : a = a' ∧ b = b' := by
  classical
  have hr : b.reverse ++ sep :: a.reverse = b'.reverse ++ sep :: a'.reverse := by
    have := congrArg List.reverse h
    simpa using this
  obtain ⟨e₁, e₂⟩ := append_cons_inj_left (by simpa using hb) (by simpa using hb') hr
  exact ⟨List.reverse_injective e₂, List.reverse_injective e₁⟩

omit [DecidableEq α] in
lemma ne_append_of_take_ne {a p : List α} (h : a.take p.length ≠ p) (x : List α) : a ≠ p ++ x := by
  rintro rfl
  exact h (by simp)

omit [DecidableEq α] in
lemma append_ne_append {p q : List α} (i : ℕ) (hp : i < p.length) (hq : i < q.length)
    (h : p[i]? ≠ q[i]?) (x y : List α) : p ++ x ≠ q ++ y := by
  intro e
  have e' := congrArg (fun l => l[i]?) e
  simp only [List.getElem?_append_left hp, List.getElem?_append_left hq] at e'
  exact h e'

omit [DecidableEq α] in
lemma prefix_append_cons_iff {sep : α} {a b d : List α} (hd : sep ∉ d) :
    d <+: a ++ sep :: b ↔ d <+: a := by
  induction a generalizing d with
  | nil =>
    rcases d with - | ⟨x, d⟩
    · simp
    · have hx : x ≠ sep := fun h => hd (by simp [h])
      simp [List.cons_prefix_cons, hx]
  | cons y a ih =>
    rcases d with - | ⟨x, d⟩
    · simp
    · rw [List.cons_append, List.cons_prefix_cons, List.cons_prefix_cons,
        ih fun h => hd (List.mem_cons_of_mem _ h)]

end Split

namespace Bytes

/-! ### The order of keys -/

lemma compare_append_left (a b c : Bytes) : compare (a ++ b) (a ++ c) = compare b c := by
  induction a with
  | nil => rfl
  | cons x a ih =>
    show compare (x :: (a ++ b)) (x :: (a ++ c)) = _
    have hx : compare x x = .eq := Std.ReflCmp.compare_self
    rw [List.compare_cons_cons, hx, Ordering.eq_then, ih]

lemma compare_append {a a' : Bytes} (h : a.length = a'.length) (b b' : Bytes) :
    compare (a ++ b) (a' ++ b') = (compare a a').then (compare b b') := by
  induction a generalizing a' with
  | nil =>
    rw [List.length_nil, eq_comm, List.length_eq_zero_iff] at h
    subst h
    rfl
  | cons x a ih =>
    rcases a' with - | ⟨x', a'⟩
    · cases h
    · have hlength : a.length = a'.length := Nat.succ_inj.mp h
      show compare (x :: (a ++ b)) (x' :: (a' ++ b')) = _
      rw [List.compare_cons_cons, List.compare_cons_cons, ih hlength, Ordering.then_assoc]

lemma compare_total (a b : Bytes) : compare a b ≠ .gt ∨ compare b a ≠ .gt := by
  by_contra h
  push Not at h
  have hgt := Std.OrientedCmp.gt_iff_lt.mp h.1
  rw [hgt] at h
  exact absurd h.2 (by simp)

lemma compare_trans {a b c : Bytes} (h : compare a b ≠ .gt) (h' : compare b c ≠ .gt) :
    compare a c ≠ .gt := by
  apply Ordering.isLE_iff_ne_gt.mp
  exact Std.TransCmp.isLE_trans (Ordering.isLE_iff_ne_gt.mpr h) (Ordering.isLE_iff_ne_gt.mpr h')

lemma pairwise_insertionSort {α : Type*} (key : α → Bytes) (l : List α) :
    (l.insertionSort fun x y => compare (key x) (key y) ≠ .gt).Pairwise
      fun x y => compare (key x) (key y) ≠ .gt := by
  have : Std.Total fun x y => compare (key x) (key y) ≠ .gt := ⟨fun _ _ => compare_total _ _⟩
  have : IsTrans α fun x y => compare (key x) (key y) ≠ .gt := ⟨fun _ _ _ => compare_trans⟩
  exact List.pairwise_insertionSort _ _

end Bytes
