/-
A ledger of balances with a recorded total supply.

`Ledger α δ` holds, for accounts `α` and denominations `δ`, the balances and
the supply, together with the proof that the balances of any finite set of
accounts are covered by the supply.  Minting, burning and moving funds keep
that proof, so a ledger in which more is held than was issued cannot be built;
in particular the truncated subtractions below never truncate.
-/
import Mathlib

/-- Balances and supply, with the supply covering every finite set of
accounts. -/
structure Ledger (α δ : Type*) where
  balance : α → δ → ℕ
  supply : δ → ℕ
  covered : ∀ (S : Finset α) (d : δ), ∑ a ∈ S, balance a d ≤ supply d

namespace Ledger

variable {α δ : Type*} [DecidableEq α] [DecidableEq δ]

/-- `n` at the single place `(a, d)`. -/
def single (a : α) (d : δ) (n : ℕ) (a' : α) (d' : δ) : ℕ :=
  if a' = a ∧ d' = d then n else 0

@[simp] lemma single_self (a : α) (d : δ) (n : ℕ) : single a d n a d = n := by
  simp [single]

lemma single_le {a a' : α} {d d' : δ} {n : ℕ} {f : α → δ → ℕ} (h : n ≤ f a d) :
    single a d n a' d' ≤ f a' d' := by
  unfold single
  split
  · rename_i e
    rw [e.1, e.2]
    exact h
  · exact Nat.zero_le _

lemma sum_single (S : Finset α) (a : α) (d d' : δ) (n : ℕ) :
    ∑ x ∈ S, single a d n x d' = if a ∈ S ∧ d' = d then n else 0 := by
  by_cases hd : d' = d
  · simp [single, hd]
  · simp [single, hd]

omit [DecidableEq α] [DecidableEq δ] in
lemma balance_le_supply (L : Ledger α δ) (a : α) (d : δ) : L.balance a d ≤ L.supply d := by
  have h := L.covered {a} d
  rwa [Finset.sum_singleton] at h

def empty : Ledger α δ where
  balance _ _ := 0
  supply _ := 0
  covered _ _ := by simp

/-! ### Operations -/

/-- Issue `n` of `d` to `a`. -/
def mint (L : Ledger α δ) (a : α) (d : δ) (n : ℕ) : Ledger α δ where
  balance a' d' := L.balance a' d' + single a d n a' d'
  supply d' := L.supply d' + if d' = d then n else 0
  covered S d' := by
    rw [Finset.sum_add_distrib, sum_single]
    have h := L.covered S d'
    by_cases hd : d' = d
    · by_cases ha : a ∈ S
      · simp only [hd, ha, and_self, if_true]
        rw [hd] at h
        omega
      · simp only [hd, ha, and_true, if_true, if_false]
        rw [hd] at h
        omega
    · simp only [hd, and_false, if_false]
      omega

/-- Destroy `n` of `d` held by `a`. -/
def burn (L : Ledger α δ) (a : α) (d : δ) (n : ℕ) (h : n ≤ L.balance a d) : Ledger α δ where
  balance a' d' := L.balance a' d' - single a d n a' d'
  supply d' := L.supply d' - if d' = d then n else 0
  covered S d' := by
    have hle : ∀ x ∈ insert a S, single a d n x d' ≤ L.balance x d' := fun x _ => single_le h
    have hc := L.covered (insert a S) d'
    have hs : ∑ x ∈ S, (L.balance x d' - single a d n x d')
        ≤ ∑ x ∈ insert a S, (L.balance x d' - single a d n x d') :=
      Finset.sum_le_sum_of_subset (Finset.subset_insert a S)
    have ht := Finset.sum_tsub_distrib _ hle
    rw [sum_single] at ht
    simp only [Finset.mem_insert, true_or, true_and] at ht
    omega

/-- Move `n` of `d` from `a` to `b`. -/
def transfer (L : Ledger α δ) (a b : α) (d : δ) (n : ℕ) (h : n ≤ L.balance a d) : Ledger α δ :=
  (L.burn a d n h).mint b d n

/-! ### What each operation does -/

section

variable (L : Ledger α δ) {a b : α} {d : δ} {n : ℕ}

@[simp] lemma balance_mint (a' : α) (d' : δ) :
    (L.mint a d n).balance a' d' = L.balance a' d' + single a d n a' d' := rfl

@[simp] lemma supply_mint (d' : δ) :
    (L.mint a d n).supply d' = L.supply d' + if d' = d then n else 0 := rfl

lemma balance_burn (h : n ≤ L.balance a d) (a' : α) (d' : δ) :
    (L.burn a d n h).balance a' d' + single a d n a' d' = L.balance a' d' :=
  Nat.sub_add_cancel (single_le h)

lemma supply_burn (h : n ≤ L.balance a d) (d' : δ) :
    (L.burn a d n h).supply d' + (if d' = d then n else 0) = L.supply d' := by
  refine Nat.sub_add_cancel ?_
  split
  · rename_i e
    rw [e]
    exact h.trans (L.balance_le_supply a d)
  · exact Nat.zero_le _

lemma balance_transfer (h : n ≤ L.balance a d) (a' : α) (d' : δ) :
    (L.transfer a b d n h).balance a' d' + single a d n a' d'
      = L.balance a' d' + single b d n a' d' := by
  rw [transfer, balance_mint, ← L.balance_burn h a' d']
  omega

@[simp] lemma supply_transfer (h : n ≤ L.balance a d) (d' : δ) :
    (L.transfer a b d n h).supply d' = L.supply d' := by
  rw [transfer, supply_mint, L.supply_burn h d']

end

end Ledger
