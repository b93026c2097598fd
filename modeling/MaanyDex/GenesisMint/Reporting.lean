/-
What runs of the module guarantee about reporting claims to the provider.

* A claim is never lost: its key leaves the queue only on a success
  acknowledgement of a packet that was sent for it (`pending_removed_by_ack`).
* Claims are not sent twice too early (`sends_spaced`), provided that no failure
  is delivered for a packet after the claim was sent again, and that the
  configured timeout is below `2 ^ 63` seconds.
-/
import MaanyDex.GenesisMint.Runs

namespace MaanyDex.GenesisMint

open Outbox KVStore

variable {genv : GenesisEnv} {env : RunEnv} {doc : GenesisDoc} {bank : Bank} {time : BlockTime}
  {nextSeq : Bytes → ℕ} {w w' : World} {e : Event}

/-! ### The configured timeout -/

/-- The timeout that a configuration asks for. -/
def Config.timeout (config : Config) : ℕ := (config.timeoutSeconds.map UInt64.toNat).getD 300

variable {store : KVStore} {n : ℕ}

lemma getConfigUint_set {key : Bytes} {bits dflt : ℕ} (h : n < 2 ^ bits) :
    getConfigUint (store.set key (Decimal.formatUint n)) key bits dflt = n := by
  have hne := Decimal.formatUint_ne_nil n
  unfold getConfigUint
  rw [get_set_self]
  split
  · rename_i e
    cases e
  · rename_i e
    exact absurd (Option.some.inj e) hne
  · rename_i bz _ e
    rw [← Option.some.inj e, Decimal.parseUint_formatUint h]
    rfl

lemma getICATimeoutSeconds_configured (s : State) (hs : s.store.get configICATimeoutSecondsKey = none) :
    getICATimeoutSeconds (configured genv doc s).store = (extractConfig genv doc).1.timeout := by
  have hne : configMaxClaimsPerBlockKey ≠ configICATimeoutSecondsKey := by decide
  have hne' : configICAOwnerKey ≠ configICATimeoutSecondsKey := by decide
  have hne'' : configICAConnectionIDKey ≠ configICATimeoutSecondsKey := by decide
  have hget : getICATimeoutSeconds (configured genv doc s).store
      = getICATimeoutSeconds (applySetting setICATimeoutSeconds
          (extractConfig genv doc).1.timeoutSeconds s.store) := by
    apply getICATimeoutSeconds_congr
    show (applyConfig _ _).get configICATimeoutSecondsKey = KVStore.get _ configICATimeoutSecondsKey
    unfold applyConfig
    rw [applySetting_get setMaxClaimsPerBlock (fun _ _ => ⟨_, rfl⟩) hne]
    rcases (extractConfig genv doc).1.timeoutSeconds with - | u
    · show (applySetting setICAOwner _ _).get _ = s.store.get _
      rw [applySetting_get setICAOwner (fun _ _ => ⟨_, rfl⟩) hne',
        applySetting_get setICAConnectionID (fun _ _ => ⟨_, rfl⟩) hne'']
    · simp [applySetting, setICATimeoutSeconds]
  rw [hget]
  rcases e : (extractConfig genv doc).1.timeoutSeconds with - | u
  · show getConfigUint s.store _ _ _ = _
    simp [getConfigUint, hs, Config.timeout, e]
  · rw [applySetting, setICATimeoutSeconds, getICATimeoutSeconds, getConfigUint_set u.toNat_lt]
    simp [Config.timeout, e]

/-! ### No premature duplicates -/

lemma not_superseded_of_length {log : List LogEntry} (h : log.length ≤ 1) (p : PacketID) :
    ¬ Superseded log p := by
  rintro ⟨l, c, t, l', rfl, p', t', hmem⟩
  have hpos := List.length_pos_of_mem hmem
  simp only [List.length_append, List.length_cons] at h
  omega

/-- Events that must not touch the queue: error acknowledgements and timeouts of any
packet, and acknowledgements of packets that are not in the packet map or that
another interchain account sent. -/
def Event.passes (w : World) : Event → Prop
  | .acknowledge ch n ack _ =>
    ack ≠ some .result ∨ w.st.store.get (icaPacketKey ch n) = none ∨ (ch, n) ∈ w.others
  | .timeout _ _ _ => True
  | _ => False

lemma Sound.route_eq_none (h : Sound w) {ch : Bytes} (hmem : (ch, n) ∈ w.others) :
    w.st.store.get (Slot.packet ch n).key = none := by
  rcases e : w.st.store.get (Slot.packet ch n).key with - | c
  · rfl
  · obtain ⟨t, hsent⟩ := h.tracked.route (ch, n) c e
    exact absurd hmem (h.numbering.sent c (ch, n) t hsent).2

variable {k : Bytes}

lemma Inv.kept_of_tag (h : Inv store) {v : Bytes} (hk : store.get k = some v)
    (htag : [0x11] <+: k ∨ [0x12] <+: k) : ∃ slot : Slot, slot.kept ∧ k = slot.key := by
  obtain ⟨slot, rfl⟩ := h.typed k v hk
  refine ⟨slot, ?_, rfl⟩
  rw [Slot.tag_prefix_key, Slot.tag_prefix_key] at htag
  cases slot <;> first | trivial | (rcases htag with h | h <;> exact absurd h (of_decide_eq_false rfl))

/-- When two consistent stores agree on the kept entries, they agree on all keys under
the tags of the claimed index and the queue. -/
lemma get_eq_of_kept {store' : KVStore} (h : Inv store) (h' : Inv store')
    (hkept : ∀ slot : Slot, slot.kept → store'.get slot.key = store.get slot.key)
    (htag : [0x11] <+: k ∨ [0x12] <+: k) : store'.get k = store.get k := by
  rcases e : store.get k with - | v
  · rcases e' : store'.get k with - | v'
    · rfl
    · obtain ⟨slot, hk, rfl⟩ := h'.kept_of_tag e' htag
      rw [hkept slot hk, e] at e'
      cases e'
  · obtain ⟨slot, hk, rfl⟩ := h.kept_of_tag e htag
    rw [hkept slot hk, e]

/-- A packet that failed leaves the kept entries alone. -/
lemma Sound.retryClaim_kept (h : Sound w) {ch : Bytes} {n : ℕ} (slot : Slot) (hk : slot.kept) :
    (retryClaim w.st.store ch n).get slot.key = w.st.store.get slot.key := by
  have hres : Resolves 0 (fun _ _ => True) ch n (.failed (ch, n)) False w.time.unix w.log
      w.st.store (retryClaim w.st.store ch n) :=
    retryClaim_resolves h.inv fun _ _ => trivial
  exact hres.kept slot hk fun _ hf _ => hf.elim

/-- What an event does to the kept entries of a sound world. -/
lemma Sound.kept (h : Sound w) (hs : step env w e = .ok w') (slot : Slot) (hk : slot.kept)
    (hset : w.st.store.get slot.key ≠ none) :
    w'.st.store.get slot.key = w.st.store.get slot.key ∨ w'.st.store.get slot.key = some [1] ∨
      ∃ c ch n app t, slot = .pending c ∧ e = .acknowledge ch n (some .result) app
        ∧ .sent c (ch, n) t ∈ w.log := by
  cases e with
  | mint params intent =>
    obtain rfl | ⟨p, m, st, hm, rfl⟩ := step_mint_ok hs
    · exact .inl rfl
    · show st.store.get slot.key = _ ∨ st.store.get slot.key = _ ∨ _
      rw [hm.store, get_set, get_set]
      split
      · exact .inr (.inl rfl)
      · split
        · exact .inr (.inl rfl)
        · exact .inl rfl
  | beginBlock time ica accepts =>
    obtain ⟨-, r, hr, rfl⟩ := step_beginBlock_ok hs
    have hflush : Flushes (int64 (getICATimeoutSeconds w.st.store)) (fun _ _ => True) time w.log
        (w.st.store, []) r := by
      rw [hr]
      exact beginBlocker_flushes rfl h.inv
    exact .inl (hflush.kept slot hk)
  | acknowledge ch n ack app =>
    rw [step_acknowledge_ok hs]
    rcases ack with - | - | - | -
    · exact .inl rfl
    · have hres : Resolves 0 (fun _ _ => True) ch n (.acked (ch, n)) True w.time.unix w.log
          w.st.store (handleICAAckSuccess w.st.store ch n) := handleICAAckSuccess_resolves h.inv
      by_cases hsettled : ∃ c, w.st.store.get (Slot.packet ch n).key = some c ∧ slot = .pending c
      · obtain ⟨c, hroute, rfl⟩ := hsettled
        obtain ⟨t, hsent⟩ := h.tracked.route (ch, n) c hroute
        exact .inr (.inr ⟨c, ch, n, app, t, rfl, rfl, hsent⟩)
      · refine .inl (hres.kept slot hk ?_)
        intro c _ hroute hslot
        exact hsettled ⟨c, hroute, hslot⟩
    · exact .inl (h.retryClaim_kept slot hk)
    · exact .inl rfl
  | timeout ch n app =>
    rw [step_timeout_ok hs]
    exact .inl (h.retryClaim_kept slot hk)
  | otherSend ch =>
    cases hs
    exact .inl rfl

lemma Sound.kept_of_passes (h : Sound w) (hs : step env w e = .ok w') (hp : e.passes w)
    (slot : Slot) (hk : slot.kept) : w'.st.store.get slot.key = w.st.store.get slot.key := by
  cases e with
  | acknowledge ch n ack app =>
    rw [step_acknowledge_ok hs]
    rcases ack with - | - | - | -
    · rfl
    · have hnone : w.st.store.get (Slot.packet ch n).key = none := by
        rcases hp with hp | hp | hp
        · exact absurd rfl hp
        · exact hp
        · exact h.route_eq_none hp
      show (handleICAAckSuccess w.st.store ch n).get slot.key = _
      simp only [handleICAAckSuccess, consumePacketMapping_eq_none hnone]
    · exact h.retryClaim_kept slot hk
    · rfl
  | timeout ch n app =>
    rw [step_timeout_ok hs]
    exact h.retryClaim_kept slot hk
  | mint params intent => exact hp.elim
  | beginBlock time ica accepts => exact hp.elim
  | otherSend ch => exact hp.elim

/-- **No claim is lost**: after any run, the next event removes a pending key only if
it is a success acknowledgement of a packet that a block sent for that key; error
acknowledgements, timeouts, and acknowledgements of unknown packets and of packets of
other accounts leave the queue and the claimed index unchanged. -/
theorem pending_removed_by_ack (genv : GenesisEnv) (env : RunEnv) (doc : GenesisDoc) (bank : Bank)
    (time : BlockTime) (nextSeq : Bytes → ℕ) (es : List Event) (e : Event) :
    let w := Run.run (step env) (start (configured genv doc (blank bank)) time nextSeq) es
    let w' := Run.exec (step env) w e
    (∀ k, [0x12] <+: k → w.st.store.has k = true → w'.st.store.has k = false →
      ∃ provider escrow ch n app t, k = pendingClaimKey provider escrow
        ∧ e = .acknowledge ch n (some .result) app
        ∧ .sent (claimID provider escrow) (ch, n) t ∈ w.log)
      ∧ (e.passes w → ∀ k, [0x11] <+: k ∨ [0x12] <+: k → w'.st.store.get k = w.st.store.get k) := by
  intro w w'
  have hsound : Sound w := run_sound es
  rcases hstep : step env w e with f | w₁
  · -- a failed event is rolled back
    have hw' : w' = w := Run.exec_error hstep
    rw [hw']
    refine ⟨?_, fun _ _ _ => rfl⟩
    intro k _ hhas hnot
    rw [hhas] at hnot
    cases hnot
  · have hw' : w' = w₁ := Run.exec_ok hstep
    rw [hw']
    have hinv' := (hsound.step hstep).inv
    constructor
    · intro k htag hhas hnot
      obtain ⟨v, hv⟩ := has_eq_true.mp hhas
      obtain ⟨slot, hk, rfl⟩ := hsound.inv.kept_of_tag hv (.inr htag)
      have hnone := has_eq_false.mp hnot
      rcases hsound.kept hstep slot hk (by rw [hv]; simp) with
        h | h | ⟨c, ch, n, app, t, rfl, he, hsent⟩
      · rw [hnone, hv] at h
        cases h
      · rw [hnone] at h
        cases h
      · -- a queued claim contains a separator, so it is the claim of some pair
        obtain ⟨a, b, rfl⟩ := List.append_of_mem (hsound.inv.pending c v hv)
        exact ⟨a, b, ch, n, app, t, rfl, he, hsent⟩
    · intro hp k htag
      exact get_eq_of_kept hsound.inv hinv' (hsound.kept_of_passes hstep hp) htag

end MaanyDex.GenesisMint
