/-
A heap of mutable cells.

Values that are handed around by reference share a cell: what is written through one reference is
read through the other.  A new cell is at the end of the heap, so it is none of the old ones:

    read (alloc h a).2 r = read h r                 for r of h
    read (write h r a) r' = if r = r' then a else read h r'

What a computation leaves alone is stated about the references that were valid before it.
-/
import Mathlib

/-- The values of the cells that were allocated. -/
structure Heap (α : Type*) where
  cells : List α

namespace Heap

variable {α : Type*}

/-- A reference is the number of its cell. -/
abbrev Ref := ℕ

/-- The reference was returned by an allocation. -/
def Valid (h : Heap α) (r : Ref) : Prop := r < h.cells.length

instance (h : Heap α) (r : Ref) : Decidable (h.Valid r) :=
  inferInstanceAs (Decidable (r < h.cells.length))

/-- The value behind a reference. -/
def read [Inhabited α] (h : Heap α) (r : Ref) : α := h.cells.getD r default

def alloc (h : Heap α) (a : α) : Ref × Heap α := (h.cells.length, ⟨h.cells ++ [a]⟩)

def write (h : Heap α) (r : Ref) (a : α) : Heap α := ⟨h.cells.set r a⟩

variable {h : Heap α} {r r' : Ref} {a : α}

@[simp] lemma valid_write : (h.write r a).Valid r' ↔ h.Valid r' := by
  show r' < (h.cells.set r a).length ↔ r' < h.cells.length
  rw [List.length_set]

lemma valid_alloc_self : (h.alloc a).2.Valid (h.alloc a).1 := by
  show h.cells.length < (h.cells ++ [a]).length
  simp

lemma Valid.alloc (hr : h.Valid r) : (h.alloc a).2.Valid r := by
  show r < (h.cells ++ [a]).length
  rw [List.length_append]
  exact Nat.lt_add_right 1 hr

lemma Valid.ne_alloc (hr : h.Valid r) : r ≠ (h.alloc a).1 := Nat.ne_of_lt hr

variable [Inhabited α]

@[simp] lemma read_alloc_self : (h.alloc a).2.read (h.alloc a).1 = a := by
  simp [alloc, read]

lemma Valid.read_alloc (hr : h.Valid r) : (h.alloc a).2.read r = h.read r := by
  have hlt : r < h.cells.length := hr
  simp [Heap.alloc, read, List.getElem?_append_left hlt]

lemma Valid.read_write_self (hr : h.Valid r) : (h.write r a).read r = a := by
  have hlt : r < h.cells.length := hr
  simp [write, read, hlt]

lemma read_write_of_ne (hne : r ≠ r') : (h.write r a).read r' = h.read r' := by
  simp [write, read, List.getElem?_set_ne hne]

end Heap
