/-
A cache beside a transactional store.

An operation reads and writes a store `σ` and a cache `κ`, and answers `α`.  Rolling a
transaction back restores the store only: the cache keeps what the transaction did to it.

A relation between stores and caches is a *coherence* when every operation keeps it and no
answer depends on which of the coherent caches is there.  Then a cache that is coherent with
the store is transparent: whatever is executed next answers as it does with any other
coherent cache (`Coherence.exec_same`).  Committing keeps coherence; rolling back does when
the cache is coherent with the old store still (`Coherence.deliver`).
-/
import Mathlib

namespace SideCache

variable {σ κ ω α : Type*}

/-- Execute operations one after another, collecting the answers. -/
def exec (step : σ → κ → ω → (σ × κ) × α) : σ → κ → List ω → (σ × κ) × List α
  | s, k, [] => ((s, k), [])
  | s, k, o :: os =>
    let r := step s k o
    let rest := exec step r.1.1 r.1.2 os
    (rest.1, r.2 :: rest.2)

/-- Execute a transaction: when it is rolled back, the old store is put back. -/
def deliver (step : σ → κ → ω → (σ × κ) × α) (s : σ × κ) (os : List ω) (commits : Bool) : σ × κ :=
  let r := exec step s.1 s.2 os
  if commits then r.1 else (s.1, r.1.2)

/-- Operations keep `R`, and do not tell apart two caches that `R` relates to the store. -/
structure Coherence (step : σ → κ → ω → (σ × κ) × α) (R : σ → κ → Prop) : Prop where
  keeps : ∀ s k o, R s k → R (step s k o).1.1 (step s k o).1.2
  store : ∀ s k k' o, R s k → R s k' → (step s k o).1.1 = (step s k' o).1.1
  answer : ∀ s k k' o, R s k → R s k' → (step s k o).2 = (step s k' o).2

namespace Coherence

variable {step : σ → κ → ω → (σ × κ) × α} {R : σ → κ → Prop}

lemma exec_keeps (h : Coherence step R) {s : σ} {k : κ} {os : List ω} (hR : R s k) :
    R (exec step s k os).1.1 (exec step s k os).1.2 := by
  induction os generalizing s k with
  | nil => exact hR
  | cons o os ih => exact ih (h.keeps s k o hR)

/-- **Coherent caches cannot be told apart.** -/
lemma exec_same (h : Coherence step R) {s : σ} {k k' : κ} {os : List ω} (hR : R s k)
    (hR' : R s k') : (exec step s k os).2 = (exec step s k' os).2 := by
  induction os generalizing s k k' with
  | nil => rfl
  | cons o os ih =>
    have hstore := h.store s k k' o hR hR'
    have hrest : (exec step (step s k o).1.1 (step s k o).1.2 os).2
        = (exec step (step s k' o).1.1 (step s k' o).1.2 os).2 := by
      rw [hstore]
      exact ih (hstore ▸ h.keeps s k o hR) (h.keeps s k' o hR')
    show (step s k o).2 :: _ = (step s k' o).2 :: _
    rw [h.answer s k k' o hR hR', hrest]

/-- A transaction leaves a coherent cache, if what it did to the cache is coherent with the
old store in case that it is rolled back. -/
lemma deliver (h : Coherence step R) {s : σ × κ} {os : List ω} {commits : Bool}
    (hR : R s.1 s.2) (hback : commits = false → R s.1 (exec step s.1 s.2 os).1.2) :
    R (SideCache.deliver step s os commits).1 (SideCache.deliver step s os commits).2 := by
  cases commits with
  | true => exact h.exec_keeps hR
  | false => exact hback rfl

end Coherence

end SideCache
