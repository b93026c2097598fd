/-
Messages whose handlers call contracts back.

A handler can stop halfway and hand over to a contract.  Before the contract returns it may
send messages itself, among them those that the stopped handler is for.  What contracts do is
not known, so it is part of the input: a `Script` is the tree of everything that one call does.
A message that fails is rolled back and its sender goes on; only fatal failures end the whole
transaction.

What is shown about such a system is shown by an invariant that may speak of the messages that
are still pending (`Invariant`): it suffices to look at a handler up to the point where it calls
back and at what it does afterwards, never at the contract.
-/
import MaanyDex.Lib.Run

namespace Callbacks

/-! ### Scripts -/

/-- What a contract does: it returns, it fails, or it sends a message and goes on depending on
the outcome.  If the handler of the message calls a contract back, that one does `inner`. -/
inductive Script (μ : Type*) where
  | accept
  | reject
  | send (msg : μ) (inner onOk onErr : Script μ)

variable {σ μ κ φ : Type*}

/-- The sum of the weights of all messages. -/
def Script.weight (w : μ → ℕ) : Script μ → ℕ
  | .accept => 0
  | .reject => 0
  | .send msg inner onOk onErr => w msg + inner.weight w + onOk.weight w + onErr.weight w

/-! ### Systems -/

/-- Handlers, cut where they call back. -/
structure System (σ μ κ φ : Type*) where
  /-- Handle a message up to the call, or to the end if there is none. -/
  enter : σ → μ → Except φ (σ × Option κ)
  /-- What is done after the call. -/
  leave : κ → σ → Except φ σ
  /-- The failure of a contract. -/
  rejected : φ
  /-- How a failed call is reported. -/
  failed : κ → φ → φ
  /-- Failures that end the transaction. -/
  fatal : φ → Bool

variable (sys : System σ μ κ φ)

/-- Handle a message; a contract that is called back does `inner`. -/
def handle (inner : σ → Except φ σ) (s : σ) (msg : μ) : Except φ σ :=
  match sys.enter s msg with
  | .error e => .error e
  | .ok (s', none) => .ok s'
  | .ok (s', some k) =>
    match inner s' with
    | .error e => .error (sys.failed k e)
    | .ok s'' => sys.leave k s''

def exec : Script μ → σ → Except φ σ
  | .accept, s => .ok s
  | .reject, _ => .error sys.rejected
  | .send msg inner onOk onErr, s =>
    match handle sys (exec inner) s msg with
    | .ok s' => exec onOk s'
    | .error e => if sys.fatal e then .error e else exec onErr s

/-- A message that is sent: those that are pending then, and the state in which its handler
starts. -/
structure Visit (σ μ : Type*) where
  pending : List μ
  state : σ
  msg : μ

/-- All messages that are sent.  Those that are rolled back later are among them. -/
def visits : Script μ → List μ → σ → List (Visit σ μ)
  | .accept, _, _ => []
  | .reject, _, _ => []
  | .send msg inner onOk onErr, pending, s =>
    ⟨pending, s, msg⟩ ::
      ((match sys.enter s msg with
        | .ok (s', some _) => visits inner (msg :: pending) s'
        | _ => [])
      ++ match handle sys (exec sys inner) s msg with
        | .ok s' => visits onOk pending s'
        | .error e => if sys.fatal e then [] else visits onErr pending s)

variable {sys} {s s' : σ} {msg : μ} {inner : σ → Except φ σ}

lemma handle_ok (h : handle sys inner s msg = .ok s') :
    sys.enter s msg = .ok (s', none)
      ∨ ∃ k s₁ s₂, sys.enter s msg = .ok (s₁, some k) ∧ inner s₁ = .ok s₂
        ∧ sys.leave k s₂ = .ok s' := by
  unfold handle at h
  rcases henter : sys.enter s msg with e | ⟨s₁, - | k⟩
  · rw [henter] at h
    cases h
  · rw [henter] at h
    cases h
    exact .inl rfl
  · rw [henter] at h
    refine .inr ⟨k, s₁, ?_⟩
    rcases hinner : inner s₁ with e | s₂
    · simp only [hinner] at h
      cases h
    · simp only [hinner] at h
      exact ⟨s₂, rfl, rfl, h⟩

lemma handle_of_enter (h : sys.enter s msg = .ok (s', none)) : handle sys inner s msg = .ok s' := by
  rw [handle, h]

lemma exec_send {inner onOk onErr : Script μ} (h : handle sys (exec sys inner) s msg = .ok s') :
    exec sys (.send msg inner onOk onErr) s = exec sys onOk s' := by
  rw [exec, h]

/-- A script that sends goes on from the state of the message, or as if it had not sent it. -/
lemma exec_send_ok {inner onOk onErr : Script μ}
    (h : exec sys (.send msg inner onOk onErr) s = .ok s') :
    (∃ s₁, handle sys (exec sys inner) s msg = .ok s₁ ∧ exec sys onOk s₁ = .ok s')
      ∨ ∃ e, handle sys (exec sys inner) s msg = .error e ∧ sys.fatal e = false
        ∧ exec sys onErr s = .ok s' := by
  unfold exec at h
  rcases hhandle : handle sys (exec sys inner) s msg with e | s₁
  · rw [hhandle] at h
    simp only at h
    split at h
    · cases h
    · rename_i hfatal
      exact .inr ⟨e, rfl, Bool.eq_false_iff.mpr hfatal, h⟩
  · rw [hhandle] at h
    exact .inl ⟨s₁, rfl, h⟩

section Visits

variable {inner onOk onErr : Script μ} {pending : List μ} {v : Visit σ μ} {k : κ} {e : φ}

lemma mem_visits_self : ⟨pending, s, msg⟩ ∈ visits sys (.send msg inner onOk onErr) pending s :=
  List.mem_cons_self

lemma mem_visits_inner (h : sys.enter s msg = .ok (s', some k))
    (hv : v ∈ visits sys inner (msg :: pending) s') :
    v ∈ visits sys (.send msg inner onOk onErr) pending s := by
  apply List.mem_cons_of_mem
  apply List.mem_append_left
  rw [h]
  exact hv

lemma mem_visits_ok (h : handle sys (exec sys inner) s msg = .ok s')
    (hv : v ∈ visits sys onOk pending s') :
    v ∈ visits sys (.send msg inner onOk onErr) pending s := by
  apply List.mem_cons_of_mem
  apply List.mem_append_right
  rw [h]
  exact hv

lemma mem_visits_err (h : handle sys (exec sys inner) s msg = .error e)
    (hfatal : sys.fatal e = false) (hv : v ∈ visits sys onErr pending s) :
    v ∈ visits sys (.send msg inner onOk onErr) pending s := by
  apply List.mem_cons_of_mem
  apply List.mem_append_right
  rw [h]
  simp only [hfatal]
  exact hv

/-- Where a message comes from: it is the first one, or it is sent by the contract that the
first one calls, or after the first one. -/
lemma mem_visits_send (h : v ∈ visits sys (.send msg inner onOk onErr) pending s) :
    v = ⟨pending, s, msg⟩
      ∨ (∃ s' k, sys.enter s msg = .ok (s', some k) ∧ v ∈ visits sys inner (msg :: pending) s')
      ∨ (∃ s', handle sys (exec sys inner) s msg = .ok s' ∧ v ∈ visits sys onOk pending s')
      ∨ ∃ e, handle sys (exec sys inner) s msg = .error e ∧ sys.fatal e = false
        ∧ v ∈ visits sys onErr pending s := by
  rcases List.mem_cons.mp h with rfl | h
  · exact .inl rfl
  · rcases List.mem_append.mp h with h | h
    · split at h
      · rename_i s' k henter
        exact .inr (.inl ⟨s', k, henter, h⟩)
      · cases h
    · split at h
      · rename_i s' hhandle
        exact .inr (.inr (.inl ⟨s', hhandle, h⟩))
      · rename_i e hhandle
        split at h
        · cases h
        · rename_i hfatal
          exact .inr (.inr (.inr ⟨e, hhandle, Bool.eq_false_iff.mpr hfatal, h⟩))

end Visits

/-! ### Invariants -/

/-- `C` holds of every message that is sent. -/
def Meets (sys : System σ μ κ φ) (C : List μ → σ → μ → Prop) (script : Script μ)
    (pending : List μ) (s : σ) : Prop :=
  ∀ v ∈ visits sys script pending s, C v.pending v.state v.msg

lemma meets_true (script : Script μ) (pending : List μ) (s : σ) :
    Meets sys (fun _ _ _ => True) script pending s := fun _ _ => trivial

/-- `I` is kept by the handlers, cut where they call back, as long as the messages meet `C`. -/
structure Invariant (sys : System σ μ κ φ) (C : List μ → σ → μ → Prop) (I : List μ → σ → Prop) :
    Prop where
  done : ∀ {pending msg s s'}, I pending s → C pending s msg →
    sys.enter s msg = .ok (s', none) → I pending s'
  call : ∀ {pending msg s s' k}, I pending s → C pending s msg →
    sys.enter s msg = .ok (s', some k) → I (msg :: pending) s'
  back : ∀ {pending msg s s₁ s₂ s' k}, I pending s → C pending s msg →
    sys.enter s msg = .ok (s₁, some k) → I (msg :: pending) s₂ → sys.leave k s₂ = .ok s' →
    I pending s'

variable {C : List μ → σ → μ → Prop} {I : List μ → σ → Prop} {script : Script μ} {pending : List μ}

lemma Invariant.handle (h : Invariant sys C I) (hs : I pending s) (hC : C pending s msg)
    (hinner : ∀ k s₁ s₂, sys.enter s msg = .ok (s₁, some k) → I (msg :: pending) s₁ →
      inner s₁ = .ok s₂ → I (msg :: pending) s₂)
    (he : handle sys inner s msg = .ok s') : I pending s' := by
  rcases handle_ok he with hdone | ⟨k, s₁, s₂, hcall, hrun, hback⟩
  · exact h.done hs hC hdone
  · exact h.back hs hC hcall (hinner k s₁ s₂ hcall (h.call hs hC hcall) hrun) hback

/-- **Invariants and callbacks**: what the halves of the handlers keep, every script keeps,
whatever it does. -/
lemma Invariant.exec (h : Invariant sys C I) (hmeets : Meets sys C script pending s)
    (hs : I pending s) (he : exec sys script s = .ok s') : I pending s' := by
  induction script generalizing pending s s' with
  | accept =>
    cases he
    exact hs
  | reject => cases he
  | send msg inner onOk onErr ihInner ihOk ihErr =>
    rcases exec_send_ok he with ⟨s₁, hhandle, hok⟩ | ⟨e, hhandle, hfatal, herr⟩
    · refine ihOk (fun v hv => hmeets v (mem_visits_ok hhandle hv)) ?_ hok
      refine h.handle hs (hmeets _ mem_visits_self) (fun k s₁ s₂ hcall hI hrun => ?_) hhandle
      exact ihInner (fun v hv => hmeets v (mem_visits_inner hcall hv)) hI hrun
    · exact ihErr (fun v hv => hmeets v (mem_visits_err hhandle hfatal hv)) hs herr

/-- Every handler starts in a state of the invariant, also in the middle of others. -/
lemma Invariant.visits (h : Invariant sys C I) (hmeets : Meets sys C script pending s)
    (hs : I pending s) : ∀ v ∈ visits sys script pending s, I v.pending v.state := by
  induction script generalizing pending s with
  | accept => exact fun v hv => by cases hv
  | reject => exact fun v hv => by cases hv
  | send msg inner onOk onErr ihInner ihOk ihErr =>
    have hinner : ∀ k s₁, sys.enter s msg = .ok (s₁, some k) →
        Meets sys C inner (msg :: pending) s₁ :=
      fun k s₁ hcall v hv => hmeets v (mem_visits_inner hcall hv)
    have hself := hmeets _ mem_visits_self
    intro v hv
    rcases mem_visits_send hv with rfl | ⟨s₁, k, hcall, hv⟩ | ⟨s₁, hhandle, hv⟩ |
      ⟨e, hhandle, hfatal, hv⟩
    · exact hs
    · exact ihInner (hinner k s₁ hcall) (h.call hs hself hcall) v hv
    · refine ihOk (fun v hv => hmeets v (mem_visits_ok hhandle hv)) ?_ v hv
      exact h.handle hs hself (fun k s₁ s₂ hcall hI hrun => h.exec (hinner k s₁ hcall) hI hrun)
        hhandle
    · exact ihErr (fun v hv => hmeets v (mem_visits_err hhandle hfatal hv)) hs v hv

/-! ### Measures -/

section Measure

variable {m : σ → ℕ} {w : μ → ℕ}

section

variable (henter : ∀ {msg s s' k}, sys.enter s msg = .ok (s', k) → m s' ≤ m s + w msg)
  (hleave : ∀ {k s s'}, sys.leave k s = .ok s' → m s' ≤ m s)

include henter hleave

/-- **Measures and callbacks**: what handlers add at most, scripts add at most. -/
lemma exec_measure (he : exec sys script s = .ok s') : m s' ≤ m s + script.weight w := by
  induction script generalizing s s' with
  | accept =>
    cases he
    exact Nat.le_add_right _ _
  | reject => cases he
  | send msg inner onOk onErr ihInner ihOk ihErr =>
    unfold Script.weight
    rcases exec_send_ok he with ⟨s₁, hhandle, hok⟩ | ⟨e, -, -, herr⟩
    · have hok' := ihOk hok
      rcases handle_ok hhandle with hdone | ⟨k, s₂, s₃, hcall, hrun, hback⟩
      · have hin := henter hdone
        omega
      · have hin := henter hcall
        have hrun' := ihInner hrun
        have hout := hleave hback
        omega
    · have herr' := ihErr herr
      omega

lemma handle_measure
    (he : handle sys (exec sys script) s msg = .ok s') : m s' ≤ m s + w msg + script.weight w := by
  have hsend : exec sys (.send msg script .accept .reject) s = .ok s' := by
    unfold exec
    rw [he]
    rfl
  have hmeasure := exec_measure henter hleave hsend
  simp only [Script.weight] at hmeasure
  omega

lemma visits_measure : ∀ v ∈ visits sys script pending s, m v.state ≤ m s + script.weight w := by
  induction script generalizing pending s with
  | accept => exact fun v hv => by cases hv
  | reject => exact fun v hv => by cases hv
  | send msg inner onOk onErr ihInner ihOk ihErr =>
    intro v hv
    unfold Script.weight
    rcases mem_visits_send hv with rfl | ⟨s₁, k, hcall, hv⟩ | ⟨s₁, hhandle, hv⟩ | ⟨e, -, -, hv⟩
    · show m s ≤ _
      omega
    · have hin := henter hcall
      have hinner := ihInner v hv
      omega
    · have hsent := handle_measure henter hleave hhandle
      have hok := ihOk v hv
      omega
    · have herr := ihErr v hv
      omega

end

end Measure

/-! ### Records -/

section Records

variable {γ : Type*}

/-- Something that is written down about the messages: when the handler of one gets to its call
or its end, and when it ends after a call.  It is rolled back with the state. -/
structure Recorder (σ μ κ γ : Type*) where
  enter : σ → μ → γ → γ
  leave : κ → σ → γ → γ

/-- The same system, with the record as a part of its state. -/
def System.record (sys : System σ μ κ φ) (r : Recorder σ μ κ γ) : System (σ × γ) μ κ φ where
  enter s msg := (sys.enter s.1 msg).map fun out => ((out.1, r.enter s.1 msg s.2), out.2)
  leave k s := (sys.leave k s.1).map fun s' => (s', r.leave k s.1 s.2)
  rejected := sys.rejected
  failed := sys.failed
  fatal := sys.fatal

variable {r : Recorder σ μ κ γ} {t t' : σ × γ} {called : Option κ}

lemma enter_record (h : (sys.record r).enter t msg = .ok (t', called)) :
    sys.enter t.1 msg = .ok (t'.1, called) ∧ t'.2 = r.enter t.1 msg t.2 := by
  obtain ⟨⟨s', called'⟩, henter, heq⟩ := Run.map_ok h
  cases heq
  exact ⟨henter, rfl⟩

lemma leave_record {k : κ} (h : (sys.record r).leave k t = .ok t') :
    sys.leave k t.1 = .ok t'.1 ∧ t'.2 = r.leave k t.1 t.2 := by
  obtain ⟨s', hleave, heq⟩ := Run.map_ok h
  cases heq
  exact ⟨hleave, rfl⟩

lemma handle_record {inner' : σ × γ → Except φ (σ × γ)}
    (hinner : ∀ t, (inner' t).map Prod.fst = inner t.1) (t : σ × γ) (msg : μ) :
    (handle (sys.record r) inner' t msg).map Prod.fst = handle sys inner t.1 msg := by
  have henter' : (sys.record r).enter t msg
      = (sys.enter t.1 msg).map fun out => ((out.1, r.enter t.1 msg t.2), out.2) := rfl
  rw [handle, handle, henter']
  rcases sys.enter t.1 msg with e | ⟨s', - | k⟩
  · rfl
  · rfl
  · dsimp only [Except.map]
    rw [← hinner (s', r.enter t.1 msg t.2)]
    rcases inner' (s', r.enter t.1 msg t.2) with e | t₂
    · rfl
    · show ((sys.leave k t₂.1).map _).map _ = sys.leave k t₂.1
      rcases sys.leave k t₂.1 with e | s₃
      · rfl
      · rfl

/-- **A record changes nothing.** -/
lemma exec_record (script : Script μ) (t : σ × γ) :
    (exec (sys.record r) script t).map Prod.fst = exec sys script t.1 := by
  induction script generalizing t with
  | accept => rfl
  | reject => rfl
  | send msg inner onOk onErr ihInner ihOk ihErr =>
    rw [exec, exec, ← handle_record ihInner t msg]
    rcases handle (sys.record r) (exec (sys.record r) inner) t msg with e | t'
    · show (if sys.fatal e then _ else exec (sys.record r) onErr t).map Prod.fst
        = if sys.fatal e then _ else exec sys onErr t.1
      split
      · rfl
      · exact ihErr t
    · exact ihOk t'

lemma mem_visits_record {v : Visit (σ × γ) μ} (h : v ∈ visits (sys.record r) script pending t) :
    ⟨v.pending, v.state.1, v.msg⟩ ∈ visits sys script pending t.1 := by
  induction script generalizing pending t with
  | accept => cases h
  | reject => cases h
  | send msg inner onOk onErr ihInner ihOk ihErr =>
    rcases mem_visits_send h with rfl | ⟨t', k, hcall, hv⟩ | ⟨t', hhandle, hv⟩ |
      ⟨e, hhandle, hfatal, hv⟩
    · exact mem_visits_self
    · exact mem_visits_inner (enter_record hcall).1 (ihInner hv)
    · refine mem_visits_ok ?_ (ihOk hv)
      rw [← handle_record (exec_record (r := r) inner), hhandle]
      rfl
    · refine mem_visits_err ?_ hfatal (ihErr hv)
      rw [← handle_record (exec_record (r := r) inner), hhandle]
      rfl

end Records

end Callbacks
