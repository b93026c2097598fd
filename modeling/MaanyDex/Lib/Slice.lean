/-
Slices with shared backing arrays, as in Go.

A slice is a window into an array: where it starts, how long it is, and how much of the
array it may still grow into.  `append` writes behind the window when there is room, and
otherwise copies everything to a new array; a slice of a slice shares the array:

    append s xs   is in place    iff   length + |xs| ≤ capacity
    s[lo:hi]      does not panic iff   lo ≤ hi ≤ capacity

So a slice that was cut out before an `append` sees what was written only when that was in
place (`read_append`), and cutting it longer than its array panics whatever the `append`
returned (`reslice_eq_none_iff`).
-/
import Mathlib

namespace Slice

variable {α : Type*}

/-- The arrays that were allocated, by number. -/
abbrev Memory (α : Type*) := List (List α)

/-- A window into an array. -/
structure Window where
  array : ℕ
  offset : ℕ
  length : ℕ
  capacity : ℕ

variable (mem : Memory α) (s : Window)

/-- The elements that a slice shows. -/
def read : List α :=
  ((mem.getD s.array []).drop s.offset).take s.length

/-- `make([]T, length, capacity)`. -/
def make (zero : α) (mem : Memory α) (length capacity : ℕ) : Window × Memory α :=
  (⟨mem.length, 0, length, capacity⟩, mem ++ [List.replicate capacity zero])

/-- Overwrite an array from position `i` on. -/
def overwrite (l : List α) (i : ℕ) (xs : List α) : List α :=
  l.take i ++ xs ++ l.drop (i + xs.length)

/-- `s[i] = x`; `none` for the panic beyond the length. -/
def write (i : ℕ) (x : α) : Option (Memory α) :=
  if i < s.length then some (mem.modify s.array fun l => overwrite l (s.offset + i) [x]) else none

/-- `s[lo:hi]`; `none` for the panic. -/
def reslice (lo hi : ℕ) : Option Window :=
  if lo ≤ hi ∧ hi ≤ s.capacity then some ⟨s.array, s.offset + lo, hi - lo, s.capacity - lo⟩ else none

/-- `append(s, xs...)`.  How much room a new array has is up to the runtime and not modelled. -/
def append (xs : List α) : Window × Memory α :=
  if s.length + xs.length ≤ s.capacity then
    ({ s with length := s.length + xs.length },
      mem.modify s.array fun l => overwrite l (s.offset + s.length) xs)
  else
    let contents := read mem s ++ xs
    (⟨mem.length, 0, contents.length, contents.length⟩, mem ++ [contents])

variable {mem : Memory α} {s : Window} {lo hi : ℕ}

lemma reslice_eq_none_iff : reslice s lo hi = none ↔ hi < lo ∨ s.capacity < hi := by
  unfold reslice
  split
  · simp only [reduceCtorEq, false_iff]
    omega
  · simp only [true_iff]
    omega

lemma reslice_eq_some (hlo : lo ≤ hi) (hhi : hi ≤ s.capacity) :
    reslice s lo hi = some ⟨s.array, s.offset + lo, hi - lo, s.capacity - lo⟩ :=
  if_pos ⟨hlo, hhi⟩

/-- The window lies within its array. -/
structure Valid (mem : Memory α) (s : Window) : Prop where
  array : s.array < mem.length
  length : s.length ≤ s.capacity
  capacity : s.offset + s.capacity ≤ (mem.getD s.array []).length

lemma getD_modify (f : List α → List α) (hs : s.array < mem.length) :
    (mem.modify s.array f).getD s.array [] = f (mem.getD s.array []) := by
  simp [List.getD_eq_getElem?_getD, hs]

lemma length_append (hs : Valid mem s) (xs : List α) :
    (append mem s xs).1.length = s.length + xs.length := by
  unfold append
  split
  · rfl
  · have hcap := hs.capacity
    have hlen := hs.length
    simp only [read, List.length_append, List.length_take, List.length_drop]
    omega

/-- **Appending in place** behind a slice: cut to its new length, the slice shows what was
appended. -/
lemma read_append {xs : List α} (hs : Valid mem s) (h : s.length + xs.length ≤ s.capacity) :
    read (append mem ⟨s.array, s.offset + s.length, 0, s.capacity - s.length⟩ xs).2
      ⟨s.array, s.offset, s.length + xs.length, s.capacity⟩ = read mem s ++ xs := by
  have hcap := hs.capacity
  unfold append
  rw [if_pos (by simp only; omega)]
  simp only [read]
  rw [getD_modify (s := s) _ hs.array]
  generalize mem.getD s.array [] = l at *
  rw [overwrite, add_zero, List.append_assoc, List.drop_append_of_le_length (by simp; omega),
    List.drop_take, Nat.add_sub_cancel_left, ← List.append_assoc, List.take_append_of_le_length]
  · exact List.take_of_length_le (by simp)
  · simp
    omega

end Slice
