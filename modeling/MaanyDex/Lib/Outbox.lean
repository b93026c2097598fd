/-
A retry protocol: claims that have to be reported by packets.

Claims `κ` are queued once and stay *pending* until a packet `π` sent for them is
acknowledged.  A claim is *in flight* from the moment a packet is sent for it; it
leaves this state when a packet routed to it is resolved, or when the packet has
been out for `T` seconds.  What is sent and resolved is kept in a log.

The protocol is a relation `Step T G` between states.  `G` limits the failures
that may be delivered.  With no limit, a claim leaves the queue only when a packet
that was sent for it is acknowledged (`Tracked.step`).  When a
failure is only ever delivered for the packet sent last, consecutive sends of a
claim are spaced: the first one has failed, or `T` seconds have passed
(`Spacing.step`).
-/
import Mathlib

namespace Outbox

open List

variable {κ π : Type*}

/-- What happened to packets. -/
inductive Entry (κ π : Type*) where
  | sent (c : κ) (p : π) (t : ℤ)
  | failed (p : π)
  | acked (p : π)
  deriving DecidableEq

/-! ### Histories -/

/-- `p`, sent at `t`, is the last packet sent for `c`; `since` is what happened
after it. -/
def LastSend (log : List (Entry κ π)) (c : κ) (p : π) (t : ℤ) (since : List (Entry κ π)) : Prop :=
  (∃ l, log = l ++ .sent c p t :: since) ∧ ∀ p' t', .sent c p' t' ∉ since

/-- Another packet was sent after `p` for the same claim. -/
def Superseded (log : List (Entry κ π)) (p : π) : Prop :=
  ∃ l c t l', log = l ++ .sent c p t :: l' ∧ ∃ p' t', .sent c p' t' ∈ l'

/-- Consecutive sends of a claim are separated by a failure of the first packet,
or by `T` seconds. -/
def Spaced (T : ℤ) (log : List (Entry κ π)) : Prop :=
  ∀ c p t between p' t' l l',
    log = l ++ .sent c p t :: (between ++ .sent c p' t' :: l') →
    (∀ q u, .sent c q u ∉ between) → .failed p ∈ between ∨ t + T ≤ t'

variable {T : ℤ} {log : List (Entry κ π)} {c c' : κ} {p p' : π} {t t' : ℤ}
  {since : List (Entry κ π)} {x : Entry κ π}

/-- The last send after one more event: that event, or the last send before. -/
lemma lastSend_concat (h : LastSend (log ++ [x]) c p t since) :
    x = .sent c p t ∧ since = [] ∨ ∃ since', since = since' ++ [x] ∧ LastSend log c p t since' := by
  obtain ⟨⟨l, e⟩, hno⟩ := h
  rcases eq_nil_or_concat since with rfl | ⟨since', y, rfl⟩
  · left
    have e' : log ++ [x] = l ++ [.sent c p t] := e
    exact ⟨(append_inj' e' rfl).2 |> singleton_inj.mp, rfl⟩
  · right
    have e' : log ++ [x] = (l ++ .sent c p t :: since') ++ [y] := by simpa using e
    obtain ⟨hlog, hy⟩ := append_inj' e' rfl
    obtain rfl := singleton_inj.mp hy
    refine ⟨since', concat_eq_append, ⟨l, hlog⟩, ?_⟩
    intro p' t' hmem
    refine hno p' t' ?_
    simp [hmem]

lemma lastSend_concat_of_ne (hx : ∀ p t, x ≠ .sent c p t)
    (h : LastSend (log ++ [x]) c p t since) :
    ∃ since', since = since' ++ [x] ∧ LastSend log c p t since' :=
  (lastSend_concat h).resolve_left fun h => hx p t h.1

lemma LastSend.mem (h : LastSend log c p t since) : .sent c p t ∈ log := by
  obtain ⟨⟨l, rfl⟩, -⟩ := h
  simp

lemma LastSend.eq_of_not_superseded (h : LastSend log c p t since)
    (hmem : .sent c p' t' ∈ log) (hs : ¬ Superseded log p') : p' = p := by
  obtain ⟨⟨l, rfl⟩, hno⟩ := h
  by_contra hne
  rcases mem_append.mp hmem with hl | hr
  · obtain ⟨a, b, rfl⟩ := append_of_mem hl
    exact hs ⟨a, c, t', b ++ .sent c p t :: since, by simp, p, t, by simp⟩
  · rcases mem_cons.mp hr with e | hr
    · simp only [Entry.sent.injEq] at e
      exact hne e.2.1
    · exact hno p' t' hr

/-- One more event keeps a history spaced if it is not an early send. -/
lemma Spaced.concat (h : Spaced T log)
    (hx : ∀ c p' t', x = .sent c p' t' → ∀ p t since, LastSend log c p t since →
      .failed p ∈ since ∨ t + T ≤ t') : Spaced T (log ++ [x]) := by
  intro c p t between p' t' l l' e hno
  rcases eq_nil_or_concat l' with rfl | ⟨l'', y, rfl⟩
  · -- the second send is the new event
    have e' : log ++ [x] = (l ++ .sent c p t :: between) ++ [.sent c p' t'] := by simpa using e
    obtain ⟨hlog, hxe⟩ := append_inj' e' rfl
    exact hx c p' t' (singleton_inj.mp hxe) p t between ⟨⟨l, hlog⟩, hno⟩
  · have e' : log ++ [x] = (l ++ .sent c p t :: (between ++ .sent c p' t' :: l'')) ++ [y] := by
      simpa using e
    obtain ⟨hlog, -⟩ := append_inj' e' rfl
    exact h c p t between p' t' l l'' hlog hno

/-! ### The protocol -/

/-- A state of the protocol. -/
@[ext]
structure Box (κ π : Type*) where
  claimed : Set κ
  pending : Set κ
  inflight : κ → Option ℤ
  route : π → Option κ
  now : ℤ
  log : List (Entry κ π)

variable [DecidableEq κ] [DecidableEq π] {G : List (Entry κ π) → π → Prop}

/-- The steps of the protocol.  A failure of a routed packet has to meet `G`; the
resolution of a packet without a route is only noted. -/
inductive Step (T : ℤ) (G : List (Entry κ π) → π → Prop) : Box κ π → Box κ π → Prop
  | enqueue {b : Box κ π} (c : κ) (hc : c ∉ b.claimed) :
      Step T G b { b with claimed := insert c b.claimed, pending := insert c b.pending }
  | tick {b : Box κ π} (t : ℤ) (ht : b.now ≤ t) : Step T G b { b with now := t }
  | expire {b : Box κ π} (c : κ) (t : ℤ) (hc : b.inflight c = some t) (ht : t + T ≤ b.now) :
      Step T G b { b with inflight := Function.update b.inflight c none }
  | send {b : Box κ π} (c : κ) (p : π) (hc : c ∈ b.pending) (hi : b.inflight c = none) :
      Step T G b { b with
        inflight := Function.update b.inflight c (some b.now)
        route := Function.update b.route p (some c)
        log := b.log ++ [.sent c p b.now] }
  | ack {b : Box κ π} (p : π) (c : κ) (hr : b.route p = some c) :
      Step T G b { b with
        pending := b.pending \ {c}
        inflight := Function.update b.inflight c none
        route := Function.update b.route p none
        log := b.log ++ [.acked p] }
  | fail {b : Box κ π} (p : π) (c : κ) (hr : b.route p = some c) (hG : G b.log p) :
      Step T G b { b with
        inflight := Function.update b.inflight c none
        route := Function.update b.route p none
        log := b.log ++ [.failed p] }
  | note {b : Box κ π} (p : π) (x : Entry κ π) (hr : b.route p = none)
      (hx : x = .acked p ∨ x = .failed p) : Step T G b { b with log := b.log ++ [x] }

/-- Any number of steps. -/
abbrev Steps (T : ℤ) (G : List (Entry κ π) → π → Prop) : Box κ π → Box κ π → Prop :=
  Relation.ReflTransGen (Step T G)

variable {b b' : Box κ π}

/-- What every step preserves, any number of steps preserves. -/
lemma Steps.invariant {I : Box κ π → Prop} (hstep : ∀ b b', I b → Step T G b b' → I b')
    (h : Steps T G b b') (h0 : I b) : I b' := by
  induction h with
  | refl => exact h0
  | tail _ hs ih => exact hstep _ _ ih hs

/-! ### Invariants -/

/-- Routes lead to claims that a packet was sent for, and only queued claims are
pending or sent. -/
structure Tracked (b : Box κ π) : Prop where
  route : ∀ p c, b.route p = some c → ∃ t, .sent c p t ∈ b.log
  pending : b.pending ⊆ b.claimed
  sent : ∀ c p t, .sent c p t ∈ b.log → c ∈ b.claimed

omit [DecidableEq κ] in
lemma route_of_update_none {r : π → Option κ} (h : Function.update r p none p' = some c) :
    r p' = some c := by
  by_cases hp : p' = p
  · subst hp
    rw [Function.update_self] at h
    cases h
  · rwa [Function.update_of_ne hp] at h

omit [DecidableEq κ] [DecidableEq π] in
/-- Routes that are left lead to claims of a longer history. -/
lemma Tracked.route_concat (h : Tracked b) (hr : b.route p = some c)
    (x : Entry κ π) : ∃ t, .sent c p t ∈ b.log ++ [x] := by
  obtain ⟨t, ht⟩ := h.route p c hr
  exact ⟨t, mem_append_left _ ht⟩

lemma Tracked.step (h : Tracked b) (hs : Step T G b b') : Tracked b' := by
  cases hs with
  | enqueue c hc =>
    refine ⟨h.route, Set.insert_subset_insert h.pending, ?_⟩
    intro c' p t hmem
    exact Set.mem_insert_of_mem _ (h.sent c' p t hmem)
  | tick t ht => exact ⟨h.route, h.pending, h.sent⟩
  | expire c t hc ht => exact ⟨h.route, h.pending, h.sent⟩
  | send c p hc hi =>
    refine ⟨?_, h.pending, ?_⟩
    · intro p' c' hr
      by_cases hp : p' = p
      · subst hp
        obtain rfl : c = c' := by simpa using hr
        exact ⟨b.now, by simp⟩
      · exact h.route_concat (by simpa [hp] using hr) _
    · intro c' p' t hmem
      rcases mem_append.mp hmem with hmem | hmem
      · exact h.sent c' p' t hmem
      · simp only [mem_singleton, Entry.sent.injEq] at hmem
        rw [hmem.1]
        exact h.pending hc
  | ack p c hr =>
    refine ⟨?_, fun c' hc' => h.pending hc'.1, ?_⟩
    · exact fun p' c' hr' => h.route_concat (route_of_update_none hr') _
    · intro c' p' t hmem
      exact h.sent c' p' t (by simpa using hmem)
  | fail p c hr hG =>
    refine ⟨?_, h.pending, ?_⟩
    · exact fun p' c' hr' => h.route_concat (route_of_update_none hr') _
    · intro c' p' t hmem
      exact h.sent c' p' t (by simpa using hmem)
  | note p x hr hx =>
    refine ⟨?_, h.pending, ?_⟩
    · exact fun p' c' hr' => h.route_concat hr' _
    · intro c' p' t hmem
      rcases hx with rfl | rfl
      · exact h.sent c' p' t (by simpa using hmem)
      · exact h.sent c' p' t (by simpa using hmem)

/-- The history is spaced, and a claim whose last packet is still out is in flight
since that packet was sent, unless `T` seconds have passed or it is settled. -/
structure Spacing (T : ℤ) (b : Box κ π) : Prop where
  spaced : Spaced T b.log
  last : ∀ c p t since, LastSend b.log c p t since → c ∈ b.pending →
    .failed p ∈ since ∨ b.inflight c = some t ∨ t + T ≤ b.now

/-- **Spacing**: kept by every step when failures are delivered only for packets
that were not superseded. -/
lemma Spacing.step (h : Spacing T b) (ht : Tracked b)
    (hs : Step T (fun log p => ¬ Superseded log p) b b') : Spacing T b' := by
  cases hs with
  | enqueue c hc =>
    refine ⟨h.spaced, ?_⟩
    intro c' p t since hl hp
    rcases hp with rfl | hp
    · -- a claim that was never queued was never sent
      exact absurd (ht.sent _ _ _ hl.mem) hc
    · exact h.last c' p t since hl hp
  | tick t htick =>
    refine ⟨h.spaced, ?_⟩
    intro c p t' since hl hp
    exact (h.last c p t' since hl hp).imp_right (.imp_right htick.trans')
  | expire c t hc hT =>
    refine ⟨h.spaced, ?_⟩
    intro c' p t' since hl hp
    rcases h.last c' p t' since hl hp with hf | hi | hT'
    · exact .inl hf
    · by_cases hcc : c' = c
      · subst hcc
        obtain rfl : t = t' := Option.some.inj (hc.symm.trans hi)
        exact .inr (.inr hT)
      · exact .inr (.inl (by simpa [hcc] using hi))
    · exact .inr (.inr hT')
  | send c p hc hi =>
    constructor
    · refine h.spaced.concat ?_
      intro c' p' t' e p₀ t₀ since hl
      obtain ⟨rfl, rfl, rfl⟩ : c = c' ∧ p = p' ∧ b.now = t' := by simpa using e
      rcases h.last c p₀ t₀ since hl hc with hf | hi' | hT
      · exact .inl hf
      · rw [hi] at hi'
        cases hi'
      · exact .inr hT
    · intro c' p' t' since hl hp
      by_cases hcc : c' = c
      · subst hcc
        rcases lastSend_concat hl with ⟨e, -⟩ | ⟨since', rfl, -⟩
        · obtain ⟨-, rfl⟩ : p = p' ∧ b.now = t' := by simpa using e
          exact .inr (.inl (by simp))
        · exact absurd (by simp) (hl.2 p b.now)
      · obtain ⟨since', rfl, hl'⟩ := lastSend_concat_of_ne (by simp [Ne.symm hcc]) hl
        exact (h.last c' p' t' since' hl' hp).imp (mem_append_left _)
          (.imp_left fun hi' => by simpa [hcc] using hi')
  | ack p c hr =>
    refine ⟨h.spaced.concat (by simp), ?_⟩
    intro c' p' t' since hl hp
    have hcc : c' ≠ c := hp.2
    obtain ⟨since', rfl, hl'⟩ := lastSend_concat_of_ne (by simp) hl
    exact (h.last c' p' t' since' hl' hp.1).imp (mem_append_left _)
      (.imp_left fun hi' => by simpa [hcc] using hi')
  | fail p c hr hG =>
    refine ⟨h.spaced.concat (by simp), ?_⟩
    intro c' p' t' since hl hp
    obtain ⟨since', rfl, hl'⟩ := lastSend_concat_of_ne (by simp) hl
    by_cases hcc : c' = c
    · -- the packet that failed is the one sent last
      subst hcc
      obtain ⟨t, hsent⟩ := ht.route p c' hr
      obtain rfl := hl'.eq_of_not_superseded hsent hG
      exact .inl (by simp)
    · exact (h.last c' p' t' since' hl' hp).imp (mem_append_left _)
        (.imp_left fun hi' => by simpa [hcc] using hi')
  | note p x hr hx =>
    have hne : ∀ c p t, x ≠ .sent c p t := by
      rcases hx with rfl | rfl
      · simp
      · simp
    refine ⟨h.spaced.concat fun c p' t' e => absurd e (hne c p' t'), ?_⟩
    intro c' p' t' since hl hp
    obtain ⟨since', rfl, hl'⟩ := lastSend_concat_of_ne (hne c') hl
    exact (h.last c' p' t' since' hl' hp).imp_left (mem_append_left _)

end Outbox
