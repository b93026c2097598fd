/-
Custodians that record what they owe.

A custodian `ι` keeps an account with assets `δ`, a record of the part of them that
belongs to its members, and a count of the shares that it has given out; the shares
themselves are issued elsewhere.  The books are in order (`Solvent`) when every account
covers its record, every share count agrees with what was issued, and nothing was issued
for custodians that do not exist yet.

A change of the books is harmless (`Keeps`) when no surplus shrinks and no share count
drifts.  Harmless changes compose (`Keeps.trans`) and keep the books in order
(`Keeps.solvent`).  There are three kinds: a custodian settles with somebody
(`Settles.keeps`), an account receives a gift (`Donates.keeps`), and a new custodian
opens (`Opens.keeps`).
-/
import Mathlib

namespace Custody

variable {ι δ : Type*}

/-- The books of all custodians. -/
structure Book (ι δ : Type*) where
  /-- The custodians that exist. -/
  opened : Set ι
  /-- What an account holds. -/
  held : ι → δ → ℤ
  /-- What a custodian says that it holds for its members. -/
  recorded : ι → δ → ℤ
  /-- How many shares a custodian says that it has given out. -/
  shares : ι → ℤ
  /-- How many shares of a custodian were issued. -/
  issued : ι → ℤ

/-- The books are in order. -/
structure Solvent (b : Book ι δ) : Prop where
  covered : ∀ i ∈ b.opened, ∀ d, b.recorded i d ≤ b.held i d
  matched : ∀ i ∈ b.opened, b.shares i = b.issued i
  fresh : ∀ i ∉ b.opened, b.issued i = 0

/-- A harmless change: no surplus shrinks, no share count drifts, and custodians that
open are covered and count exactly the shares issued for them. -/
structure Keeps (b b' : Book ι δ) : Prop where
  opened : b.opened ⊆ b'.opened
  surplus : ∀ i ∈ b.opened, ∀ d, b.held i d - b.recorded i d ≤ b'.held i d - b'.recorded i d
  drift : ∀ i ∈ b.opened, b'.shares i - b'.issued i = b.shares i - b.issued i
  covered : ∀ i ∈ b'.opened, i ∉ b.opened → ∀ d, b'.recorded i d ≤ b'.held i d
  counted : ∀ i ∈ b'.opened, i ∉ b.opened → b'.shares i = b'.issued i - b.issued i
  fresh : ∀ i ∉ b'.opened, b'.issued i = b.issued i

variable {b b₁ b' : Book ι δ} {i : ι}

protected lemma Keeps.refl (b : Book ι δ) : Keeps b b where
  opened := subset_rfl
  surplus _ _ _ := le_rfl
  drift _ _ := rfl
  covered _ h h' := absurd h h'
  counted _ h h' := absurd h h'
  fresh _ _ := rfl

protected lemma Keeps.trans (h : Keeps b b₁) (h' : Keeps b₁ b') : Keeps b b' where
  opened := h.opened.trans h'.opened
  surplus j hj d := (h.surplus j hj d).trans (h'.surplus j (h.opened hj) d)
  drift j hj := (h'.drift j (h.opened hj)).trans (h.drift j hj)
  covered j hj' hj d := by
    by_cases hj₁ : j ∈ b₁.opened
    · have e := h.covered j hj₁ hj d
      have e' := h'.surplus j hj₁ d
      omega
    · exact h'.covered j hj' hj₁ d
  counted j hj' hj := by
    by_cases hj₁ : j ∈ b₁.opened
    · have e := h.counted j hj₁ hj
      have e' := h'.drift j hj₁
      omega
    · have e := h.fresh j hj₁
      have e' := h'.counted j hj' hj₁
      omega
  fresh j hj := by
    have hj₁ : j ∉ b₁.opened := fun hj₁ => hj (h'.opened hj₁)
    rw [h'.fresh j hj, h.fresh j hj₁]

/-- **Harmless changes keep the books in order.** -/
lemma Keeps.solvent (h : Keeps b b') (hb : Solvent b) : Solvent b' where
  covered j hj' d := by
    by_cases hj : j ∈ b.opened
    · have e := h.surplus j hj d
      have e' := hb.covered j hj d
      omega
    · exact h.covered j hj' hj d
  matched j hj' := by
    by_cases hj : j ∈ b.opened
    · have e := h.drift j hj
      have e' := hb.matched j hj
      omega
    · have e := h.counted j hj' hj
      have e' := hb.fresh j hj
      omega
  fresh j hj' := by
    have hj : j ∉ b.opened := fun hj => hj' (h.opened hj)
    rw [h.fresh j hj', hb.fresh j hj]

/-! ### The kinds of changes -/

/-- The records of all custodians but `i` stay, and their accounts lose nothing. -/
structure Elsewhere (i : ι) (b b' : Book ι δ) : Prop where
  opened : ∀ j, j ≠ i → (j ∈ b'.opened ↔ j ∈ b.opened)
  held : ∀ j, j ≠ i → ∀ d, b.held j d ≤ b'.held j d
  recorded : ∀ j, j ≠ i → ∀ d, b'.recorded j d = b.recorded j d
  shares : ∀ j, j ≠ i → b'.shares j = b.shares j
  issued : ∀ j, j ≠ i → b'.issued j = b.issued j

/-- Custodian `i` receives `paid` and records `joined` of it, hands out `taken`, and
gives out `n` shares (takes back, if `n` is negative). -/
structure Settles (i : ι) (paid joined taken : δ → ℤ) (n : ℤ) (b b' : Book ι δ) : Prop
    extends Elsewhere i b b' where
  mem : i ∈ b.opened
  mem' : i ∈ b'.opened
  joined_le : ∀ d, joined d ≤ paid d
  held_self : ∀ d, b.held i d + paid d - taken d ≤ b'.held i d
  recorded_self : ∀ d, b'.recorded i d = b.recorded i d + joined d - taken d
  shares_self : b'.shares i = b.shares i + n
  issued_self : b'.issued i = b.issued i + n

lemma Settles.keeps {paid joined taken : δ → ℤ} {n : ℤ}
    (h : Settles i paid joined taken n b b') : Keeps b b' where
  opened j hj := by
    by_cases hji : j = i
    · rw [hji]
      exact h.mem'
    · exact (h.opened j hji).mpr hj
  surplus j hj d := by
    by_cases hji : j = i
    · subst hji
      have e := h.held_self d
      have e' := h.recorded_self d
      have e'' := h.joined_le d
      omega
    · have e := h.held j hji d
      have e' := h.recorded j hji d
      omega
  drift j hj := by
    by_cases hji : j = i
    · subst hji
      have e := h.shares_self
      have e' := h.issued_self
      omega
    · rw [h.shares j hji, h.issued j hji]
  covered j hj' hj := by
    by_cases hji : j = i
    · exact absurd (hji ▸ h.mem) hj
    · exact absurd ((h.opened j hji).mp hj') hj
  counted j hj' hj := by
    by_cases hji : j = i
    · exact absurd (hji ▸ h.mem) hj
    · exact absurd ((h.opened j hji).mp hj') hj
  fresh j hj' := by
    by_cases hji : j = i
    · exact absurd (hji ▸ h.mem') hj'
    · exact h.issued j hji

/-- Only accounts change, and none of them loses anything. -/
structure Donates (b b' : Book ι δ) : Prop where
  opened : b'.opened = b.opened
  held : ∀ j d, b.held j d ≤ b'.held j d
  recorded : b'.recorded = b.recorded
  shares : b'.shares = b.shares
  issued : b'.issued = b.issued

lemma Donates.keeps (h : Donates b b') : Keeps b b' where
  opened := h.opened.ge
  surplus j _ d := by
    have e := h.held j d
    rw [h.recorded]
    omega
  drift j _ := by rw [h.shares, h.issued]
  covered j hj' hj := absurd (h.opened ▸ hj') hj
  counted j hj' hj := absurd (h.opened ▸ hj') hj
  fresh j _ := by rw [h.issued]

/-- Custodian `i` opens with a covered record, and counts the shares issued for it. -/
structure Opens (i : ι) (b b' : Book ι δ) : Prop extends Elsewhere i b b' where
  not_mem : i ∉ b.opened
  mem' : i ∈ b'.opened
  covered_self : ∀ d, b'.recorded i d ≤ b'.held i d
  counted_self : b'.shares i = b'.issued i - b.issued i

lemma Opens.keeps (h : Opens i b b') : Keeps b b' where
  opened j hj := by
    have hji : j ≠ i := fun e => h.not_mem (e ▸ hj)
    exact (h.opened j hji).mpr hj
  surplus j hj d := by
    have hji : j ≠ i := fun e => h.not_mem (e ▸ hj)
    have e := h.held j hji d
    rw [h.recorded j hji]
    omega
  drift j hj := by
    have hji : j ≠ i := fun e => h.not_mem (e ▸ hj)
    rw [h.shares j hji, h.issued j hji]
  covered j hj' hj := by
    by_cases hji : j = i
    · rw [hji]
      exact h.covered_self
    · exact absurd ((h.opened j hji).mp hj') hj
  counted j hj' hj := by
    by_cases hji : j = i
    · rw [hji]
      exact h.counted_self
    · exact absurd ((h.opened j hji).mp hj') hj
  fresh j hj' := by
    have hji : j ≠ i := fun e => hj' (e ▸ h.mem')
    exact h.issued j hji

end Custody
