/-
Done means drained.

The done flag is set in two places: by a block that finds no claim to send and
nothing in flight, and by the success acknowledgement of the last claim.  The
first test looks at a list cut off at the configured number of claims per block,
so it says that the queue is empty only when that number is not zero.  It is zero
exactly when the genesis document says so (`getMaxClaimsPerBlock_configured`),
and nothing refuses that value.
-/
import MaanyDex.GenesisMint.Reporting

namespace MaanyDex.GenesisMint

open Outbox
open KVStore

variable {genv : GenesisEnv} {env : RunEnv} {doc : GenesisDoc} {bank : Bank} {w w' : World}
  {e : Event} {store store' : KVStore}

/-! ### The configured number of claims -/

lemma getMaxClaimsPerBlock_congr
    (h : store'.get Slot.maxClaimsPerBlock.key = store.get Slot.maxClaimsPerBlock.key) :
    getMaxClaimsPerBlock store' = getMaxClaimsPerBlock store := by
  have h' : store'.get configMaxClaimsPerBlockKey = store.get configMaxClaimsPerBlockKey := h
  simp only [getMaxClaimsPerBlock, getConfigUint, h']

/-- Only the number zero is read back as zero: larger ones are kept or, beyond 32
bits, replaced by the default. -/
lemma getConfigUint_set_ne_zero {key : Bytes} {bits n dflt : ℕ} (hn : n ≠ 0) (hd : dflt ≠ 0) :
    getConfigUint (store.set key (Decimal.formatUint n)) key bits dflt ≠ 0 := by
  by_cases hlt : n < 2 ^ bits
  · rwa [getConfigUint_set hlt]
  · have hnone := Decimal.parseUint_formatUint_of_le (not_lt.mp hlt)
    unfold getConfigUint
    rw [get_set_self]
    split
    · exact hd
    · exact hd
    · rename_i bz _ e
      rw [← Option.some.inj e, hnone]
      exact hd

/-- The limit is zero only if the genesis document says so. -/
lemma getMaxClaimsPerBlock_configured (bank : Bank)
    (h : (extractConfig genv doc).1.maxClaimsPerBlock ≠ some 0) :
    getMaxClaimsPerBlock (configured genv doc (blank bank)).store ≠ 0 := by
  show getMaxClaimsPerBlock (applyConfig _ ∅) ≠ 0
  unfold applyConfig
  rcases e : (extractConfig genv doc).1.maxClaimsPerBlock with - | v
  · -- no setting: the default is read
    have hnone : (applySetting setMaxClaimsPerBlock none
        (applySetting setICATimeoutSeconds (extractConfig genv doc).1.timeoutSeconds
          (applySetting setICAOwner (extractConfig genv doc).1.owner
            (applySetting setICAConnectionID (extractConfig genv doc).1.connectionID ∅)))).get
        configMaxClaimsPerBlockKey = none := by
      show KVStore.get _ configMaxClaimsPerBlockKey = none
      rw [applySetting, applySetting_get setICATimeoutSeconds (fun _ _ => ⟨_, rfl⟩) (by decide),
        applySetting_get setICAOwner (fun _ _ => ⟨_, rfl⟩) (by decide),
        applySetting_get setICAConnectionID (fun _ _ => ⟨_, rfl⟩) (by decide), get_empty]
    rw [getMaxClaimsPerBlock, getConfigUint, hnone]
    decide
  · have hv : v.toUInt64.toNat ≠ 0 := by
      intro hz
      apply h
      rw [e]
      have hu : v.toUInt64 = 0 := UInt64.toNat_inj.mp hz
      rw [← Int64.toInt64_toUInt64 v, hu]
      rfl
    exact getConfigUint_set_ne_zero hv (by decide)

/-! ### The queue -/

lemma hasAnyPendingClaims_eq_false :
    hasAnyPendingClaims store = false ↔ ∀ k, [0x12] <+: k → store.get k = none := by
  rw [← iterate_eq_nil_iff, hasAnyPendingClaims, Bool.not_eq_false', List.isEmpty_iff]

/-- In a consistent store, an empty list of claims means an empty queue, unless the
limit is zero. -/
lemma Inv.drained_of_list_nil (h : Inv store) {limit : ℕ} (hlimit : limit ≠ 0)
    (hl : listPendingClaims store limit = []) : hasAnyPendingClaims store = false := by
  rw [hasAnyPendingClaims_eq_false]
  intro k htag
  rcases e : store.get k with - | v
  · rfl
  · obtain ⟨slot, rfl⟩ := h.typed k v e
    have htag' := Slot.tag_prefix_key.mp htag
    cases slot with
    | pending c =>
      -- the claim can be split, so the untruncated list is not empty
      obtain ⟨a, b, rfl⟩ := List.append_of_mem (h.pending c v e)
      obtain ⟨pair, hpair⟩ := Split.splitFirst_append_isSome bar a b
      have hmem : pair ∈ (store.iterate [0x12]).filterMap fun e => pendingPair e.1 := by
        rw [List.mem_filterMap]
        refine ⟨(_, v), mem_iterate.mpr ⟨htag, e⟩, ?_⟩
        rw [pendingPair_key, hpair]
      rcases List.take_eq_nil_iff.mp hl with hzero | hnil
      · exact absurd hzero hlimit
      · rw [hnil] at hmem
        cases hmem
    | _ => exact absurd htag' (of_decide_eq_false rfl)

lemma drained_of_get (h : hasAnyPendingClaims store = false)
    (hget : ∀ k v, [0x12] <+: k → store'.get k = some v → store.get k = some v) :
    hasAnyPendingClaims store' = false := by
  rw [hasAnyPendingClaims_eq_false] at h ⊢
  intro k htag
  rcases e : store'.get k with - | v
  · rfl
  · have hold := hget k v htag e
    rw [h k htag] at hold
    cases hold

/-! ### The done flag -/

variable {ica : IcaEnv} {flush : Flush} {pairs : List (Bytes × Bytes)}
  {acc : KVStore × List SentClaim}

lemma foldl_flushClaim_get {slot : Slot} (h16 : slot.tag ≠ 0x16) (h17 : slot.tag ≠ 0x17) :
    (pairs.foldl (flushClaim ica flush) acc).1.get slot.key = acc.1.get slot.key := by
  have hclear (store : KVStore) (c : Bytes) : (unmark store c).get slot.key = store.get slot.key := by
    apply unmark_get
    · rintro rfl
      exact h17 rfl
    · rintro rfl
      exact h17 rfl
  have hsend (pair : Bytes × Bytes) (store : KVStore) (sent : List SentClaim) :
      (sendClaim ica flush pair store sent).1.get slot.key = store.get slot.key := by
    rcases sendClaim_cases ica flush pair store sent with e | ⟨seq, -, -, -, -, e⟩
    · rw [e]
    · rw [e]
      show (mark _ (store.set (Slot.packet flush.channelID seq).key _) _).get slot.key = _
      rw [mark_get, get_set_of_ne]
      · rw [Ne, Slot.key_inj]
        rintro rfl
        exact h16 rfl
      · rintro rfl
        exact h17 rfl
      · rintro rfl
        exact h17 rfl
  induction pairs generalizing acc with
  | nil => rfl
  | cons pair pairs ih =>
    rw [List.foldl_cons, ih]
    rcases flushClaim_cases ica flush acc pair with e | ⟨-, e⟩ | ⟨-, e⟩
    · rw [e]
    · rw [e, hsend]
    · rw [e, hsend]
      exact hclear _ _

lemma foldl_flushClaim_done :
    (pairs.foldl (flushClaim ica flush) acc).1.has doneKey = acc.1.has doneKey := by
  have h : (pairs.foldl (flushClaim ica flush) acc).1.get Slot.done.key = acc.1.get Slot.done.key :=
    foldl_flushClaim_get (of_decide_eq_false rfl) (of_decide_eq_false rfl)
  exact congrArg Option.isSome h

lemma drained_setDone (h : hasAnyPendingClaims store = false) :
    hasAnyPendingClaims (setDone store) = false := by
  refine drained_of_get h ?_
  intro k v htag hk
  rw [setDone, get_set_of_ne] at hk
  · exact hk
  · rintro rfl
    exact absurd (Slot.tag_prefix_key (a := .done) |>.mp htag) (of_decide_eq_false rfl)

lemma released_done (ch : Bytes) (n : ℕ) (c : Bytes) :
    (released store ch n c).get Slot.done.key = store.get Slot.done.key := by
  rw [released, unmark_get (by simp) (by simp), get_delete_of_ne (by simp)]

lemma retryClaim_done (hinv : Inv store) (ch : Bytes) (n : ℕ) :
    isDone (retryClaim store ch n) = isDone store := by
  rcases e : store.get (Slot.packet ch n).key with - | c
  · simp only [retryClaim, consumePacketMapping_eq_none e]
  · rw [retryClaim_eq hinv e]
    exact congrArg Option.isSome (released_done ch n c)

/-- A block that sets the done flag leaves an empty queue. -/
lemma beginBlocker_drained {block : Block} (hinv : Inv store)
    (hmax : getMaxClaimsPerBlock store ≠ 0)
    (hdrained : isDone store = true → hasAnyPendingClaims store = false)
    (hdone : isDone (beginBlocker ica block store).1 = true) :
    hasAnyPendingClaims (beginBlocker ica block store).1 = false := by
  rcases beginBlocker_cases ica block store with e | ⟨hnot, store₁, hs, hcases⟩
  · rw [e] at hdone ⊢
    exact hdrained hdone
  · have hreg : Flushes 0 (fun _ _ => True) ⟨0, by decide, by decide⟩ [] (store, []) (store₁, []) := by
      rw [hs]
      exact ensureICARegistered_flushes hinv
    have hnot₁ : isDone store₁ = false := by
      have hget : store₁.get Slot.done.key = store.get Slot.done.key := by
        rw [hs]
        apply ensureICARegistered_get
        rw [Slot.tag_prefix_key]
        exact of_decide_eq_false rfl
      rw [isDone, has_eq_false] at hnot ⊢
      exact hget.trans hnot
    rcases hcases with e | ⟨flush, -, -, e⟩
    · rw [e] at hdone
      exact absurd hdone (by rw [hnot₁]; simp)
    · rw [e] at hdone ⊢
      rcases flushPending_cases ica flush store₁ with ⟨hlist, e'⟩ | e'
      · rw [e']
        have hmax₁ : getMaxClaimsPerBlock store₁ ≠ 0 := by
          rwa [getMaxClaimsPerBlock_congr (hreg.kept .maxClaimsPerBlock trivial)]
        have hempty := hreg.inv.drained_of_list_nil hmax₁ hlist
        show hasAnyPendingClaims (if hasAnyInflight store₁ then store₁ else setDone store₁) = false
        split
        · exact hempty
        · exact drained_setDone hempty
      · -- a block that sends claims does not set the flag
        rw [e', isDone, foldl_flushClaim_done] at hdone
        rw [isDone] at hnot₁
        rw [hnot₁] at hdone
        cases hdone

/-! ### Runs -/

/-- The invariant of runs without mints. -/
structure Drained (w : World) : Prop where
  inv : Inv w.st.store
  maxClaims : getMaxClaimsPerBlock w.st.store ≠ 0
  drained : isDone w.st.store = true → hasAnyPendingClaims w.st.store = false

/-- Genesis mints are over when the run starts. -/
def Event.isMint : Event → Bool
  | .mint _ _ => true
  | _ => false

/-- Releasing a claim for a retry touches neither the flag nor the queue. -/
lemma Drained.retry (h : Drained w) (ch : Bytes) (n : ℕ) (log : List LogEntry) :
    Drained { w with st := { w.st with store := retryClaim w.st.store ch n }, log := log } := by
  have hres : Resolves 0 (fun _ _ => True) ch n (.failed (ch, n)) False w.time.unix w.log
      w.st.store (retryClaim w.st.store ch n) := retryClaim_resolves h.inv fun _ _ => trivial
  refine ⟨hres.inv, ?_, ?_⟩
  · show getMaxClaimsPerBlock (retryClaim w.st.store ch n) ≠ 0
    rw [getMaxClaimsPerBlock_congr (hres.kept .maxClaimsPerBlock trivial fun _ hf _ => hf.elim)]
    exact h.maxClaims
  · intro hdone
    have hflag : isDone w.st.store = true := by
      rw [← hdone]
      exact (retryClaim_done h.inv ch n).symm
    refine drained_of_get (h.drained hflag) ?_
    intro k v htag hk
    rw [get_eq_of_kept h.inv hres.inv (fun slot hk => hres.kept slot hk fun _ hf _ => hf.elim)
      (.inr htag)] at hk
    exact hk

/-- A success acknowledgement sets the flag only on an empty queue. -/
lemma Drained.ackSuccess (h : Drained w) (ch : Bytes) (n : ℕ) (log : List LogEntry) :
    Drained { w with st := { w.st with store := handleICAAckSuccess w.st.store ch n }, log := log } := by
  have hres : Resolves 0 (fun _ _ => True) ch n (.acked (ch, n)) True w.time.unix w.log
      w.st.store (handleICAAckSuccess w.st.store ch n) := handleICAAckSuccess_resolves h.inv
  refine ⟨hres.inv, ?_, ?_⟩
  · show getMaxClaimsPerBlock (handleICAAckSuccess w.st.store ch n) ≠ 0
    rw [getMaxClaimsPerBlock_congr (hres.kept .maxClaimsPerBlock trivial fun _ _ _ => by simp)]
    exact h.maxClaims
  · intro hdone
    show hasAnyPendingClaims (handleICAAckSuccess w.st.store ch n) = false
    rcases e : w.st.store.get (Slot.packet ch n).key with - | c
    · have hsame : handleICAAckSuccess w.st.store ch n = w.st.store := by
        simp only [handleICAAckSuccess, consumePacketMapping_eq_none e]
      rw [hsame]
      apply h.drained
      rw [← hdone]
      show isDone w.st.store = isDone (handleICAAckSuccess w.st.store ch n)
      rw [hsame]
    · obtain ⟨settled, hs, hcase | ⟨hempty, hcase⟩⟩ := handleICAAckSuccess_eq h.inv e
      · -- the flag was set before, on an empty queue, and nothing was added
        have hflag : isDone w.st.store = isDone settled := by
          have hget : settled.get Slot.done.key = w.st.store.get Slot.done.key := by
            rw [hs, get_delete_of_ne (by simp), released_done]
          exact congrArg Option.isSome hget.symm
        have hdone' : isDone settled = true := by
          rw [← hcase]
          exact hdone
        rw [hcase]
        refine drained_of_get (h.drained (hflag.trans hdone')) ?_
        intro k v _ hk
        rw [hs] at hk
        exact get_of_get_delete (get_of_get_delete (get_of_get_delete (get_of_get_delete hk)))
      · rw [hcase]
        exact drained_setDone hempty

protected lemma Drained.step (h : Drained w) (hmint : e.isMint = false)
    (hs : step env w e = .ok w') : Drained w' := by
  cases e with
  | mint params intent => cases hmint
  | beginBlock time ica accepts =>
    obtain ⟨-, r, rfl, rfl⟩ := step_beginBlock_ok hs
    have hflush : Flushes (int64 (getICATimeoutSeconds w.st.store)) (fun _ _ => True) time w.log
        (w.st.store, []) (beginBlocker env.ica
          ⟨time.unix, ica, sendTx env.ica ica accepts w.nextSeq⟩ w.st.store) :=
      beginBlocker_flushes rfl h.inv
    refine ⟨hflush.inv, ?_, beginBlocker_drained h.inv h.maxClaims h.drained⟩
    show getMaxClaimsPerBlock (beginBlocker _ _ _).1 ≠ 0
    rw [getMaxClaimsPerBlock_congr (hflush.kept .maxClaimsPerBlock trivial)]
    exact h.maxClaims
  | acknowledge ch n ack app =>
    rw [step_acknowledge_ok hs]
    rcases ack with - | - | - | -
    · exact ⟨h.inv, h.maxClaims, h.drained⟩
    · exact h.ackSuccess ch n _
    · exact h.retry ch n _
    · exact ⟨h.inv, h.maxClaims, h.drained⟩
  | timeout ch n app =>
    rw [step_timeout_ok hs]
    exact h.retry ch n _
  | otherSend ch =>
    cases hs
    exact ⟨h.inv, h.maxClaims, h.drained⟩

lemma MintRun.inv {env : Env} {params : Params} {ms : List MintIntent} {s s' : State}
    (h : MintRun env params ms s s') (hinv : Inv s.store) : Inv s'.store := by
  induction h with
  | nil s => exact hinv
  | cons head tail ih => exact ih (head.inv hinv)

/-- After genesis the queue may be full, but the flag is not set. -/
lemma start_drained {s₀ : State} (h : initGenesis genv doc (blank bank) = .ok s₀)
    (hmax : (extractConfig genv doc).1.maxClaimsPerBlock ≠ some 0) (time : BlockTime)
    (nextSeq : Bytes → ℕ) : Drained (start s₀ time nextSeq) := by
  obtain ⟨gs, params, -, -, hrun, -⟩ := initGenesis_blank h
  have hkeep (slot : Slot) (h11 : slot.tag ≠ 0x11) (h12 : slot.tag ≠ 0x12) :
      s₀.store.get slot.key = (configured genv doc (blank bank)).store.get slot.key := by
    apply hrun.get_of_ne
    intro m _
    rw [Ne, Ne, Slot.key_inj, Slot.key_inj]
    constructor
    · rintro rfl
      exact h11 rfl
    · rintro rfl
      exact h12 rfl
  refine ⟨hrun.inv (configured_inv genv doc bank), ?_, ?_⟩
  · show getMaxClaimsPerBlock s₀.store ≠ 0
    rw [getMaxClaimsPerBlock_congr (hkeep .maxClaimsPerBlock (of_decide_eq_false rfl)
      (of_decide_eq_false rfl))]
    exact getMaxClaimsPerBlock_configured bank hmax
  · intro hdone
    obtain ⟨v, hv⟩ := has_eq_true.mp hdone
    have hnone : s₀.store.get Slot.done.key = none := by
      rw [hkeep .done (of_decide_eq_false rfl) (of_decide_eq_false rfl), configured_blank_get]
      rw [Slot.tag_prefix_key]
      exact of_decide_eq_false rfl
    have hv' : s₀.store.get Slot.done.key = some v := hv
    rw [hnone] at hv'
    cases hv'

/-- **Done means drained**: after any genesis that does not set the number of claims per
block to zero, and any run of blocks, acknowledgements and timeouts, the queue is empty
whenever the done flag is set. -/
theorem done_drained {s₀ : State} (h : initGenesis genv doc (blank bank) = .ok s₀)
    (hmax : (extractConfig genv doc).1.maxClaimsPerBlock ≠ some 0) (time : BlockTime)
    (nextSeq : Bytes → ℕ) (es : List Event) (hes : ∀ e ∈ es, e.isMint = false)
    (hdone : isDone (Run.run (step env) (start s₀ time nextSeq) es).st.store = true) :
    hasAnyPendingClaims (Run.run (step env) (start s₀ time nextSeq) es).st.store = false := by
  have hinv : Drained (Run.run (step env) (start s₀ time nextSeq) es) :=
    Run.run_invariant (C := fun _ e => e.isMint = false) (start_drained h hmax time nextSeq)
      (fun _ _ _ hI hC hs => hI.step hC hs) (Run.along_of_forall fun e he _ => hes e he)
  exact hinv.drained hdone

/-- A document that sets only the limit on claims per block. -/
def limitDoc (limit : Int64) : GenesisDoc :=
  ⟨some [(ascii "icaMaxClaimsPerBlock", .number limit.toUInt64 limit)], ascii "genesis"⟩

/-- `InitGenesis` with that limit and one intent: the limit is stripped before the decoder
sees the document. -/
def limitGenesis (limit : Int64) : Result State :=
  initGenesis (chainEnv [chainIntent "maany-1" "7" "50" "alice"]) (limitDoc limit)
    (blank Bank.empty)

/-- The store after the given events, from time 1000 on. -/
def limitRun (s₀ : State) (es : List Event) : KVStore :=
  (Run.run (step chainRunEnv) (start s₀ chainTime fun _ => 1) es).st.store

/-- One block, and the success acknowledgement of what it sent. -/
def sendAndAck : List Event :=
  [.beginBlock chainTime activeIca fun _ => true,
    .acknowledge (ascii "channel-0") 1 (some .result) none]

/-- The claim is sent and acknowledged, and the module is done. -/
theorem acknowledged_drained :
    ∃ s₀, limitGenesis 1 = .ok s₀ ∧ isDone (limitRun s₀ sendAndAck) = true ∧
      hasAnyPendingClaims (limitRun s₀ sendAndAck) = false := by
  obtain ⟨s₀, h⟩ := exists_ok (show (limitGenesis 1).isOk = true by decide +kernel)
  have hdone : (limitGenesis 1).toOption.map (fun s => isDone (limitRun s sendAndAck))
      = some true := by
    decide +kernel
  rw [h] at hdone
  have hdone' := Option.some.inj hdone
  refine ⟨s₀, h, hdone', ?_⟩
  exact done_drained h (by decide +kernel) _ _ sendAndAck (by decide) hdone'

/-- **With zero claims per block the module switches itself off** in its first block,
while the claim of genesis is pending. -/
theorem zeroClaims_done :
    ∃ s₀, limitGenesis 0 = .ok s₀ ∧
      isDone (limitRun s₀ [flushAt 1000]) = true ∧
      hasAnyPendingClaims (limitRun s₀ [flushAt 1000]) = true := by
  obtain ⟨s₀, h⟩ := exists_ok (show (limitGenesis 0).isOk = true by decide +kernel)
  have hboth : (limitGenesis 0).toOption.map (fun s =>
      (isDone (limitRun s [flushAt 1000]), hasAnyPendingClaims (limitRun s [flushAt 1000])))
      = some (true, true) := by
    decide +kernel
  rw [h] at hboth
  obtain ⟨hdone, hpending⟩ := Prod.mk.inj (Option.some.inj hboth)
  exact ⟨s₀, h, hdone, hpending⟩

end MaanyDex.GenesisMint
