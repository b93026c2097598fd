/-
Runs of a transactional system.

A step may fail; a failed step is rolled back, so the state after it is the
state before (`exec`).  A run folds `exec` over a list of events.  `Along C`
says that every event of a run meets a condition `C` in the state in which it
is executed.  The induction over runs is done here once (`run_invariant`,
`along_append`); a development proves what one successful step preserves.
-/
import Mathlib

namespace Run

variable {σ ε φ : Type*}

/-- Execute one event, keeping the old state when the step fails. -/
def exec (step : σ → ε → Except φ σ) (s : σ) (e : ε) : σ :=
  match step s e with
  | .ok s' => s'
  | .error _ => s

def run (step : σ → ε → Except φ σ) (s : σ) (es : List ε) : σ :=
  es.foldl (exec step) s

/-- Every event meets `C` in the state in which it is executed. -/
def Along (step : σ → ε → Except φ σ) (C : σ → ε → Prop) : σ → List ε → Prop
  | _, [] => True
  | s, e :: es => C s e ∧ Along step C (exec step s e) es

lemma bind_ok {α β : Type _} {x : Except φ α} {f : α → Except φ β} {b : β}
    (h : (x >>= f) = .ok b) : ∃ a, x = .ok a ∧ f a = .ok b := by
  rcases x with e | a
  · cases h
  · exact ⟨a, rfl, h⟩

variable {γ : Type _}

lemma bind2_ok {α β : Type _} {x : Except φ α} {f : α → Except φ β} {g : α → β → Except φ γ}
    {c : γ} (h : (x >>= fun a => f a >>= g a) = .ok c) :
    ∃ a b, x = .ok a ∧ f a = .ok b ∧ g a b = .ok c := by
  obtain ⟨a, ha, h⟩ := bind_ok h
  obtain ⟨b, hb, h⟩ := bind_ok h
  exact ⟨a, b, ha, hb, h⟩

lemma bind3_ok {α β δ : Type _} {x : Except φ α} {f : α → Except φ β}
    {g : α → β → Except φ γ} {k : α → β → γ → Except φ δ} {d : δ}
    (h : (x >>= fun a => f a >>= fun b => g a b >>= k a b) = .ok d) :
    ∃ a b c, x = .ok a ∧ f a = .ok b ∧ g a b = .ok c ∧ k a b c = .ok d := by
  obtain ⟨a, b, ha, hb, h⟩ := bind2_ok h
  obtain ⟨c, hc, h⟩ := bind_ok h
  exact ⟨a, b, c, ha, hb, hc, h⟩

lemma ok_bind {α β : Type _} (a : α) (f : α → Except φ β) : (Except.ok a >>= f) = f a := rfl

lemma error_bind {α β : Type _} (e : φ) (f : α → Except φ β) :
    (Except.error e >>= f) = .error e := rfl

lemma bind_unit_eq_ok {x y : Except φ Unit} :
    (x >>= fun _ => y) = .ok () ↔ x = .ok () ∧ y = .ok () := by
  rcases x with e | ⟨⟩
  · simp [error_bind]
  · simp [ok_bind]

lemma exists_ite_ok {α : Type*} {c : Prop} [Decidable c] {a : α} {e : φ} :
    (∃ r, (if c then Except.ok a else .error e) = Except.ok r) ↔ c := by
  split
  · rename_i h
    exact ⟨fun _ => h, fun _ => ⟨a, rfl⟩⟩
  · rename_i h
    refine ⟨?_, fun hc => absurd hc h⟩
    rintro ⟨_, hr⟩
    cases hr

lemma map_ok {α β : Type*} {x : Except φ α} {f : α → β} {b : β} (h : x.map f = .ok b) :
    ∃ a, x = .ok a ∧ f a = b := by
  rcases x with e | a
  · cases h
  · exact ⟨a, rfl, Except.ok.inj h⟩

lemma mapError_ok {α ψ : Type*} {x : Except φ α} {f : φ → ψ} {a : α}
    (h : x.mapError f = .ok a) : x = .ok a := by
  rcases x with e | b
  · cases h
  · cases h
    rfl

lemma ok_of_toOption {α β : Type*} {x : Except φ α} {f : α → β} {b : β}
    (h : x.toOption.map f = some b) : ∃ a, x = .ok a ∧ f a = b := by
  rcases x with e | a
  · cases h
  · exact ⟨a, rfl, Option.some.inj h⟩

variable {s s' : σ}

/-- What every successful round preserves, a loop preserves. -/
lemma foldlM_invariant {I : σ → Prop} {f : σ → ε → Except φ σ} {es : List ε} (h0 : I s)
    (hround : ∀ s e s', I s → f s e = .ok s' → I s') (h : es.foldlM f s = .ok s') : I s' := by
  induction es generalizing s with
  | nil =>
    cases h
    exact h0
  | cons e es ih =>
    rw [List.foldlM_cons] at h
    obtain ⟨s₁, hs₁, h⟩ := bind_ok h
    exact ih (hround s e s₁ h0 hs₁) h

lemma mapM_ok {α β : Type _} {f : α → Except φ β} {as : List α} {bs : List β}
    (h : as.mapM f = .ok bs) : List.Forall₂ (fun a b => f a = .ok b) as bs := by
  induction as generalizing bs with
  | nil =>
    cases h
    exact List.Forall₂.nil
  | cons a as ih =>
    rw [List.mapM_cons] at h
    obtain ⟨b, hb, h⟩ := bind_ok h
    obtain ⟨bs', hbs', h⟩ := bind_ok h
    cases h
    exact List.Forall₂.cons hb (ih hbs')

lemma mapM_ok_mem {α β : Type _} {f : α → Except φ β} {as : List α} {bs : List β}
    (h : as.mapM f = .ok bs) : ∀ a ∈ as, ∃ b, f a = .ok b := by
  have hall := mapM_ok h
  clear h
  induction hall with
  | nil => simp
  | cons hb _ ih =>
    rintro a (_ | ⟨_, ha⟩)
    · exact ⟨_, hb⟩
    · exact ih a ha

lemma mapM_ok_map {α β : Type _} {f : α → Except φ β} {g : α → β} {as : List α} {bs : List β}
    (h : as.mapM f = .ok bs) (hg : ∀ a ∈ as, ∀ b, f a = .ok b → b = g a) : bs = as.map g := by
  have hall := mapM_ok h
  clear h
  induction hall with
  | nil => rfl
  | cons hb _ ih =>
    rw [List.map_cons, hg _ (by simp) _ hb, ih fun a ha => hg a (by simp [ha])]

lemma mapM_eq_ok {α β : Type _} {f : α → Except φ β} {g : α → β} {as : List α}
    (h : ∀ a ∈ as, f a = .ok (g a)) : as.mapM f = .ok (as.map g) := by
  induction as with
  | nil => rfl
  | cons a as ih =>
    rw [List.mapM_cons, h a (by simp), ih fun a' ha' => h a' (by simp [ha'])]
    rfl

/-- What was put in front of a log. -/
def newer {α : Type*} (before after : List α) : List α := after.take (after.length - before.length)

@[simp] lemma newer_append {α : Type*} (new log : List α) : newer log (new ++ log) = new := by
  simp [newer]

@[simp] lemma newer_cons {α : Type*} (a : α) (log : List α) : newer log (a :: log) = [a] :=
  newer_append [a] log

@[simp] lemma newer_self {α : Type*} (log : List α) : newer log log = [] := by simp [newer]

lemma newer_trans {α : Type*} {l l₁ l₂ : List α} (h : l <:+ l₁) (h₁ : l₁ <:+ l₂) :
    newer l l₂ = newer l₁ l₂ ++ newer l l₁ := by
  obtain ⟨new, rfl⟩ := h
  obtain ⟨new₁, rfl⟩ := h₁
  rw [newer_append, newer_append, ← List.append_assoc, newer_append]

variable {step : σ → ε → Except φ σ} {C : σ → ε → Prop} {I : σ → Prop}

lemma exec_ok {e : ε} (h : step s e = .ok s') : exec step s e = s' := by
  simp [exec, h]

lemma exec_error {e : ε} {f : φ} (h : step s e = .error f) : exec step s e = s := by
  simp [exec, h]

@[simp] lemma run_nil (s : σ) : run step s [] = s := rfl

@[simp] lemma run_cons (s : σ) (e : ε) (es : List ε) :
    run step s (e :: es) = run step (exec step s e) es := rfl

lemma run_append (s : σ) (es fs : List ε) : run step s (es ++ fs) = run step (run step s es) fs :=
  List.foldl_append

lemma run_concat (s : σ) (es : List ε) (e : ε) :
    run step s (es ++ [e]) = exec step (run step s es) e := by
  rw [run_append]
  rfl

lemma along_append {es fs : List ε} :
    Along step C s (es ++ fs) ↔ Along step C s es ∧ Along step C (run step s es) fs := by
  induction es generalizing s with
  | nil => simp [Along]
  | cons e es ih => simp [Along, ih, and_assoc]

lemma along_and {C' : σ → ε → Prop} {es : List ε} :
    Along step (fun s e => C s e ∧ C' s e) s es ↔ Along step C s es ∧ Along step C' s es := by
  induction es generalizing s with
  | nil => simp [Along]
  | cons e es ih => simp [Along, ih, and_and_and_comm]

lemma along_of_forall {es : List ε} (h : ∀ e ∈ es, ∀ s, C s e) : Along step C s es := by
  induction es generalizing s with
  | nil => trivial
  | cons e es ih =>
    exact ⟨h e (by simp) s, ih fun e' he' => h e' (by simp [he'])⟩

/-- What every successful step preserves, `exec` preserves. -/
lemma exec_invariant {e : ε} (hI : I s)
    (hstep : ∀ s', step s e = .ok s' → I s') : I (exec step s e) := by
  rcases h : step s e with f | s'
  · rwa [exec_error h]
  · rw [exec_ok h]
    exact hstep s' h

/-- **Invariants over runs**: what every successful step preserves while `C`
holds is true after every run along which `C` holds. -/
lemma run_invariant {es : List ε} (h0 : I s)
    (hstep : ∀ s e s', I s → C s e → step s e = .ok s' → I s')
    (hC : Along step C s es) : I (run step s es) := by
  induction es generalizing s with
  | nil => exact h0
  | cons e es ih =>
    exact ih (exec_invariant h0 fun s' h => hstep s e s' h0 hC.1 h) hC.2

variable {m : σ → ℕ}

/-- **Measures over runs**: what every event adds at most, a run adds at most. -/
lemma run_measure {v : ε → ℕ} (hstep : ∀ s e s', step s e = .ok s' → m s' ≤ m s + v e) (s : σ)
    (es : List ε) : m (run step s es) ≤ m s + (es.map v).sum := by
  induction es generalizing s with
  | nil => exact le_rfl
  | cons e es ih =>
    have hexec : m (exec step s e) ≤ m s + v e := by
      rcases h : step s e with f | s'
      · rw [exec_error h]
        exact Nat.le_add_right _ _
      · rw [exec_ok h]
        exact hstep s e s' h
    have hrest := ih (exec step s e)
    rw [run_cons, List.map_cons, List.sum_cons]
    omega

lemma along_of_measure {v : ε → ℕ} {b : ℕ}
    (hstep : ∀ s e s', step s e = .ok s' → m s' ≤ m s + v e) {es : List ε}
    (h : m s + (es.map v).sum < b) : Along step (fun s e => m s + v e < b) s es := by
  induction es generalizing s with
  | nil => trivial
  | cons e es ih =>
    rw [List.map_cons, List.sum_cons] at h
    have hexec : m (exec step s e) ≤ m s + v e := run_measure hstep s [e]
    refine ⟨by omega, ih ?_⟩
    omega

/-- **Runs and views**: what is seen of a run is a run of what is seen. -/
lemma run_map {τ : Type*} {step' : τ → ε → Except φ τ} {f : σ → τ}
    (hstep : ∀ s e, (step s e).map f = step' (f s) e) (s : σ) (es : List ε) :
    f (run step s es) = run step' (f s) es := by
  induction es generalizing s with
  | nil => rfl
  | cons e es ih =>
    have hexec : f (exec step s e) = exec step' (f s) e := by
      rw [exec, exec, ← hstep]
      rcases step s e with f | s'
      · rfl
      · rfl
    rw [run_cons, run_cons, ih, hexec]

end Run
