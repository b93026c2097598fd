/-
Keyed records, each with an amount that is held for it.

An account that takes an amount when a record is written and pays it when the record is
erased has to hold the sum of the amounts of its records.  `held` is this sum; the lemmas
say how it changes when one record is written, replaced or erased.
-/
import Mathlib

namespace Deposits

open List

variable {κ ρ : Type*} [DecidableEq κ] {v : ρ → ℤ} {m : AList fun _ : κ => ρ} {k : κ} {r r' : ρ}

/-- The sum of the amounts of all records. -/
def held (v : ρ → ℤ) (m : AList fun _ : κ => ρ) : ℤ := (m.entries.map fun e => v e.2).sum

omit [DecidableEq κ] in
@[simp] lemma held_empty : held v (∅ : AList fun _ : κ => ρ) = 0 := rfl

lemma entries_perm (h : m.lookup k = some r) : m.entries.Perm (⟨k, r⟩ :: (m.erase k).entries) := by
  have hmem : k ∈ m.entries.keys := by
    apply AList.mem_keys.mp
    apply AList.lookup_isSome.mp
    rw [h]
    rfl
  obtain ⟨r', l₁, l₂, hl₁, hsplit, herase⟩ := exists_of_kerase hmem
  have hr : r' = r := by
    have hlookup : m.lookup k = some r' := by
      apply mem_dlookup m.nodupKeys
      rw [hsplit]
      simp
    exact Option.some.inj (hlookup.symm.trans h)
  have hentries : (m.erase k).entries = l₁ ++ l₂ := herase
  rw [hentries, hsplit, hr]
  exact perm_middle

lemma held_erase (h : m.lookup k = some r) : held v (m.erase k) = held v m - v r := by
  have hsum := ((entries_perm h).map fun e => v e.2).sum_eq
  rw [map_cons, sum_cons] at hsum
  unfold held
  rw [hsum]
  ring

lemma held_insert_new (h : m.lookup k = none) : held v (m.insert k r) = held v m + v r := by
  have hk : k ∉ m := AList.lookup_eq_none.mp h
  unfold held
  rw [AList.entries_insert_of_notMem hk, map_cons, sum_cons, add_comm]

lemma held_insert (h : m.lookup k = some r) : held v (m.insert k r') = held v m - v r + v r' := by
  have hentries : (m.insert k r').entries = ⟨k, r'⟩ :: (m.erase k).entries := rfl
  have herase := held_erase (v := v) h
  unfold held at herase ⊢
  rw [hentries, map_cons, sum_cons, herase]
  ring

lemma held_nonneg (h : ∀ k r, m.lookup k = some r → 0 ≤ v r) : 0 ≤ held v m := by
  apply sum_nonneg
  intro x hx
  obtain ⟨⟨k, r⟩, he, rfl⟩ := mem_map.mp hx
  exact h k r (Option.mem_def.mp (AList.mem_lookup_iff.mpr he))

/-- What is held for one record is not more than what is held. -/
lemma le_held (h : ∀ k r, m.lookup k = some r → 0 ≤ v r) (hr : m.lookup k = some r) :
    v r ≤ held v m := by
  have hrest : 0 ≤ held v (m.erase k) := by
    apply held_nonneg
    intro k' r' hr'
    by_cases hk : k' = k
    · rw [hk, AList.lookup_erase] at hr'
      cases hr'
    · rw [AList.lookup_erase_ne hk] at hr'
      exact h k' r' hr'
  rw [held_erase hr] at hrest
  exact sub_nonneg.mp hrest

/-- Replacing a record changes no field that the two have in common. -/
lemma map_entries_insert {β : Type*} {f : (Σ _ : κ, ρ) → β} (h : m.lookup k = some r)
    (hf : f ⟨k, r'⟩ = f ⟨k, r⟩) : ((m.insert k r').entries.map f).Perm (m.entries.map f) := by
  have hentries : (m.insert k r').entries = ⟨k, r'⟩ :: (m.erase k).entries := rfl
  rw [hentries, map_cons, hf]
  exact ((entries_perm h).map f).symm

end Deposits
