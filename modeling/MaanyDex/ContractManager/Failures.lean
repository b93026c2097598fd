/-
Failures are not lost, confused or delivered again, if contracts are careful.

An id is taken from the largest one that is still stored, so the id of a failure that was
resubmitted is given to the next one, unless a later failure is stored (`failures_confused`).  A
failure is removed only after the contract returns, so a contract that resubmits the failure
that is being delivered to it gets it again, and what is removed afterwards may be another
failure.
-/
import MaanyDex.ContractManager.Keeper

namespace MaanyDex.ContractManager

open List AList

variable {ι : Type} {chain : Chain ι} {w w' : World ι} {msg : Msg ι} {called : Option Callback}

/-! ### What messages do -/

/-- Where the failure is stored that a message resubmits. -/
def Msg.resubmits (chain : Chain ι) : Msg ι → Option (Bytes × UInt64)
  | .resubmitFailure req =>
    (chain.accAddressFromBech32 req.sender).map (chain.string ·, req.failureId)
  | .bindingResubmitFailure contractAddr failureId =>
    (chain.accAddressFromBech32 (chain.string contractAddr)).map (chain.string ·, failureId)
  | _ => none

/-- What a message does up to the call of a contract. -/
inductive Effect (chain : Chain ι) (w : World ι) : Msg ι → World ι → Option Callback → Prop
  /-- A failure is stored. -/
  | add {address sudoPayload errMsg : Bytes} :
      Effect chain w (.addContractFailure address sudoPayload errMsg)
        (storeFailure w (newFailure w address sudoPayload errMsg)) none
  /-- A failure is delivered again. -/
  | resubmit {msg : Msg ι} {address : Bytes} {id : UInt64} {failure : Failure} :
      msg.resubmits chain = some (address, id) →
      w.failures.lookup (address, id) = some failure →
      Effect chain w msg { w with redelivered := failure :: w.redelivered }
        (some (.resubmission address failure.id))
  /-- A contract is called. -/
  | execute : Effect chain w .execute w (some .contract)
  | elsewhere {outside : ι} :
      Effect chain w (.elsewhere outside) { w with outside := outside } none

variable {id : UInt64} {failure : Failure}

lemma getFailure_ok {contractAddr : Address}
    (h : getFailure chain w contractAddr id = .ok failure) :
    w.failures.lookup (chain.string contractAddr, id) = some failure := by
  unfold getFailure at h
  split at h
  · cases h
  · cases h
    assumption

lemma parseAddress_ok {s : Bytes} {text : String} {a : Address}
    (h : parseAddress chain s text = .ok a) : chain.accAddressFromBech32 s = some a := by
  unfold parseAddress at h
  split at h
  · cases h
  · cases h
    assumption

lemma MsgResubmitFailure.handle_ok {req : MsgResubmitFailure}
    (hresubmits : msg.resubmits chain = (Msg.resubmitFailure req : Msg ι).resubmits chain)
    (h : req.handle chain w = .ok (w', called)) : Effect chain w msg w' called := by
  obtain ⟨_, sender, _, -, hsender, -, h⟩ := Run.bind3_ok h
  obtain ⟨failure, _, hfailure, -, h⟩ := Run.bind2_ok h
  cases h
  refine .resubmit ?_ (getFailure_ok (Run.mapError_ok hfailure))
  rw [hresubmits, Msg.resubmits, parseAddress_ok hsender]
  rfl

/-- **What messages do**, up to the call of a contract. -/
lemma enter_ok (h : enter chain w msg = .ok (w', called)) : Effect chain w msg w' called := by
  cases msg with
  | addContractFailure address sudoPayload errMsg =>
    cases h
    exact .add
  | resubmitFailure req => exact MsgResubmitFailure.handle_ok rfl h
  | bindingResubmitFailure contractAddr failureId =>
    obtain ⟨_, _, -, -, h⟩ := Run.bind2_ok h
    exact MsgResubmitFailure.handle_ok rfl (Run.mapError_ok h)
  | execute =>
    cases h
    exact .execute
  | elsewhere outside =>
    cases h
    exact .elsewhere

/-! ### Ids -/

/-- A failure with the largest id that was given to the contract is still stored, and there is
a larger id. -/
def LastKept (w : World ι) (address : Bytes) : Prop :=
  ∀ f ∈ w.handed, f.address = address → ∃ g, w.failures.lookup (address, g.id) = some g
    ∧ f.id.toNat ≤ g.id.toNat ∧ g.id.toNat + 1 < 2 ^ 64

/-- Nothing is lost or confused.  While messages are pending, the failures that they deliver are
still stored. -/
structure Tracked (chain : Chain ι) (pending : List (Msg ι)) (w : World ι) : Prop where
  own : ∀ k f, w.failures.lookup k = some f → f.key = k
  stored : ∀ k f, w.failures.lookup k = some f → f ∈ w.handed
  distinct : (w.handed.map Failure.key).Nodup
  kept : ∀ f ∈ w.handed, w.failures.lookup f.key = some f ∨ f ∈ w.redelivered
  known : ∀ f ∈ w.redelivered, f ∈ w.handed
  once : w.redelivered.Nodup
  settled : ∀ f ∈ w.redelivered, w.failures.lookup f.key = none
    ∨ ∃ m ∈ pending, m.resubmits chain = some f.key
  delivered : ∀ m ∈ pending, ∀ k, m.resubmits chain = some k → ∃ f ∈ w.redelivered, f.key = k

variable {pending : List (Msg ι)}

variable {f : Failure}

lemma Tracked.eq_of_key (h : Tracked chain pending w) {g : Failure} (hf : f ∈ w.handed)
    (hg : g ∈ w.handed) (hkey : f.key = g.key) : f = g :=
  inj_on_of_nodup_map h.distinct hf hg hkey

variable {address : Bytes}

lemma mem_addressFailures :
    f ∈ addressFailures w address ↔ ∃ id, w.failures.lookup (address, id) = some f := by
  unfold addressFailures
  constructor
  · intro h
    obtain ⟨⟨⟨a, id⟩, f'⟩, he, rfl⟩ := mem_map.mp h
    obtain ⟨hentry, ha⟩ := mem_filter.mp he
    obtain rfl : a = address := of_decide_eq_true ha
    exact ⟨id, Option.mem_def.mp (mem_lookup_iff.mpr hentry)⟩
  · rintro ⟨id, hid⟩
    refine mem_map.mpr ⟨⟨(address, id), f⟩, mem_filter.mpr ⟨?_, ?_⟩, rfl⟩
    · exact mem_lookup_iff.mp (Option.mem_def.mpr hid)
    · exact decide_eq_true rfl

lemma Tracked.fresh (h : Tracked chain pending w) {sudoPayload errMsg : Bytes}
    (hlast : LastKept w address) :
    (newFailure w address sudoPayload errMsg).key ∉ w.handed.map Failure.key := by
  intro hmem
  obtain ⟨f, hf, hkey⟩ := mem_map.mp hmem
  have haddress : f.address = address := congrArg Prod.fst hkey
  have hid : f.id = getNextFailureIDKey w address := congrArg Prod.snd hkey
  obtain ⟨g, hg, hle, -⟩ := hlast f hf haddress
  have hgmem := mem_addressFailures.mpr ⟨g.id, hg⟩
  unfold getNextFailureIDKey at hid
  split at hid
  · rename_i val hval
    -- the stored failure with the largest id was given an id not smaller than the one of `f`
    obtain ⟨id, hstored⟩ := mem_addressFailures.mp (argmax_mem hval)
    have hvalkey : val.key = (address, id) := h.own _ _ hstored
    obtain ⟨g', -, hle', hlt⟩ := hlast val (h.stored _ _ hstored) (congrArg Prod.fst hvalkey)
    have hmax : g.id.toNat ≤ val.id.toNat :=
      le_of_mem_argmax (f := fun failure : Failure => failure.id.toNat) hgmem hval
    have hsucc : (val.id + 1).toNat = val.id.toNat + 1 := by
      rw [UInt64.toNat_add]
      exact Nat.mod_eq_of_lt (show val.id.toNat + 1 < 2 ^ 64 by omega)
    rw [hid, hsucc] at hle
    omega
  · rename_i hnone
    rw [argmax_eq_none.mp hnone] at hgmem
    cases hgmem

/-! ### Invariants -/

/-- What has to be true of a message: it does not resubmit a failure that is being delivered,
and the last failure of a contract is there when the next one is stored. -/
def Careful (chain : Chain ι) (pending : List (Msg ι)) (w : World ι) (msg : Msg ι) : Prop :=
  (∀ k, msg.resubmits chain = some k → ∀ m ∈ pending, m.resubmits chain ≠ some k)
    ∧ ∀ address sudoPayload errMsg, msg = .addContractFailure address sudoPayload errMsg →
      LastKept w address

lemma Tracked.store (h : Tracked chain pending w)
    (hfresh : failure.key ∉ w.handed.map Failure.key) :
    Tracked chain pending (storeFailure w failure) := by
  have hne : ∀ f ∈ w.handed, f.key ≠ failure.key := by
    intro f hf heq
    exact hfresh (heq ▸ mem_map_of_mem hf)
  have hlookup : ∀ f ∈ w.handed, (w.failures.insert failure.key failure).lookup f.key
      = w.failures.lookup f.key := fun f hf => lookup_insert_ne (hne f hf)
  have hcases : ∀ k f, (w.failures.insert failure.key failure).lookup k = some f →
      f = failure ∧ k = failure.key ∨ w.failures.lookup k = some f := by
    intro k f hf
    by_cases hk : k = failure.key
    · rw [hk, lookup_insert] at hf
      exact .inl ⟨(Option.some.inj hf).symm, hk⟩
    · rw [lookup_insert_ne hk] at hf
      exact .inr hf
  constructor
  · intro k f hf
    rcases hcases k f hf with ⟨rfl, rfl⟩ | hf
    · rfl
    · exact h.own k f hf
  · intro k f hf
    rcases hcases k f hf with ⟨rfl, rfl⟩ | hf
    · exact mem_cons_self
    · exact mem_cons_of_mem _ (h.stored k f hf)
  · exact nodup_cons.mpr ⟨hfresh, h.distinct⟩
  · intro f hf
    rcases mem_cons.mp hf with rfl | hf
    · exact .inl (lookup_insert _)
    · refine (h.kept f hf).imp_left fun hstored => ?_
      exact (hlookup f hf).trans hstored
  · exact fun f hf => mem_cons_of_mem _ (h.known f hf)
  · exact h.once
  · intro f hf
    refine (h.settled f hf).imp_left fun hnone => ?_
    exact (hlookup f (h.known f hf)).trans hnone
  · exact h.delivered

/-- A failure is delivered again: this was not done before, because it is stored and not
pending. -/
lemma Tracked.resubmit (h : Tracked chain pending w)
    (hresubmits : msg.resubmits chain = some (address, id))
    (hstored : w.failures.lookup (address, id) = some failure)
    (hcareful : ∀ m ∈ pending, m.resubmits chain ≠ some (address, id)) :
    Tracked chain (msg :: pending) { w with redelivered := failure :: w.redelivered } := by
  have hkey : failure.key = (address, id) := h.own _ _ hstored
  have hnew : failure ∉ w.redelivered := by
    intro hmem
    rcases h.settled failure hmem with hnone | ⟨m, hm, hpending⟩
    · rw [hkey, hstored] at hnone
      cases hnone
    · exact hcareful m hm (hpending.trans (congrArg some hkey))
  constructor
  · exact h.own
  · exact h.stored
  · exact h.distinct
  · exact fun f hf => (h.kept f hf).imp_right (mem_cons_of_mem _)
  · intro f hf
    rcases mem_cons.mp hf with rfl | hf
    · exact h.stored _ _ hstored
    · exact h.known f hf
  · exact nodup_cons.mpr ⟨hnew, h.once⟩
  · intro f hf
    rcases mem_cons.mp hf with rfl | hf
    · exact .inr ⟨msg, mem_cons_self, hresubmits.trans (congrArg some hkey.symm)⟩
    · exact (h.settled f hf).imp_right fun ⟨m, hm, hpending⟩ =>
        ⟨m, mem_cons_of_mem _ hm, hpending⟩
  · intro m hm k hk
    rcases mem_cons.mp hm with rfl | hm
    · rw [hresubmits] at hk
      exact ⟨failure, mem_cons_self, hkey.trans (Option.some.inj hk)⟩
    · obtain ⟨f, hf, hfk⟩ := h.delivered m hm k hk
      exact ⟨f, mem_cons_of_mem _ hf, hfk⟩

/-- After the call, the failure that was delivered is removed. -/
lemma Tracked.remove (h : Tracked chain (msg :: pending) w)
    (hresubmits : msg.resubmits chain = some (address, id)) :
    Tracked chain pending (removeFailure w address id) := by
  obtain ⟨failure, hredelivered, hkey⟩ := h.delivered msg mem_cons_self _ hresubmits
  have hstored : ∀ k f, (w.failures.erase (address, id)).lookup k = some f →
      w.failures.lookup k = some f := by
    intro k f hf
    by_cases hk : k = (address, id)
    · rw [hk, lookup_erase] at hf
      cases hf
    · rwa [lookup_erase_ne hk] at hf
  constructor
  · exact fun k f hf => h.own k f (hstored k f hf)
  · exact fun k f hf => h.stored k f (hstored k f hf)
  · exact h.distinct
  · intro f hf
    by_cases hk : f.key = (address, id)
    · -- it is the one that was delivered
      rw [h.eq_of_key hf (h.known failure hredelivered) (hk.trans hkey.symm)]
      exact .inr hredelivered
    · refine (h.kept f hf).imp_left fun hlookup => ?_
      exact (lookup_erase_ne hk).trans hlookup
  · exact h.known
  · exact h.once
  · intro f hf
    by_cases hk : f.key = (address, id)
    · exact .inl (hk ▸ lookup_erase _ _)
    · rcases h.settled f hf with hnone | ⟨m, hm, hpending⟩
      · exact .inl ((lookup_erase_ne hk).trans hnone)
      · rcases mem_cons.mp hm with rfl | hm
        · rw [hresubmits] at hpending
          exact absurd (Option.some.inj hpending).symm hk
        · exact .inr ⟨m, hm, hpending⟩
  · exact fun m hm => h.delivered m (mem_cons_of_mem _ hm)

lemma Tracked.cons_iff (hresubmits : msg.resubmits chain = none) :
    Tracked chain (msg :: pending) w ↔ Tracked chain pending w := by
  have hpending : ∀ k, (∃ m ∈ msg :: pending, m.resubmits chain = some k)
      ↔ ∃ m ∈ pending, m.resubmits chain = some k := by
    intro k
    simp [hresubmits]
  constructor
  · intro h
    exact { h with
      settled := fun f hf => (h.settled f hf).imp_right (hpending f.key).mp
      delivered := fun m hm => h.delivered m (mem_cons_of_mem _ hm) }
  · intro h
    refine { h with
      settled := fun f hf => (h.settled f hf).imp_right (hpending f.key).mpr
      delivered := fun m hm k hk => ?_ }
    · rcases mem_cons.mp hm with rfl | hm
      · rw [hresubmits] at hk
        cases hk
      · exact h.delivered m hm k hk

/-- **Careful contracts keep everything tracked.** -/
lemma tracked_invariant : Callbacks.Invariant (system chain) (Careful chain) (Tracked chain) where
  done h hC he := by
    cases enter_ok he with
    | add => exact h.store (h.fresh (hC.2 _ _ _ rfl))
    | elsewhere => exact { h with }
  call h hC he := by
    cases enter_ok he with
    | resubmit hresubmits hstored =>
      exact h.resubmit hresubmits hstored (hC.1 _ hresubmits)
    | execute => exact (Tracked.cons_iff rfl).mpr h
  back hs hC hcall h he := by
    cases enter_ok hcall with
    | @resubmit _ address id failure hresubmits hstored =>
      cases he
      have hid : failure.id = id := congrArg Prod.snd (hs.own _ _ hstored)
      rw [hid]
      exact h.remove hresubmits
    | execute =>
      cases he
      exact (Tracked.cons_iff rfl).mp h

/-! ### Runs -/

/-- What happened to the failures of a world until another one. -/
structure Since (w₁ w : World ι) : Prop where
  /-- An id is not given to another failure. -/
  same : ∀ f ∈ w₁.handed, ∀ g, w.failures.lookup f.key = some g → g = f
  /-- A failure disappears when it is resubmitted. -/
  kept : ∀ f, w₁.failures.lookup f.key = some f → w.failures.lookup f.key = some f
    ∨ f ∈ w.redelivered ∧ f ∉ w₁.redelivered
  /-- No failure is delivered again twice. -/
  once : ∀ f, w.redelivered.count f ≤ 1

/-- Everything is tracked, and the failures `old` are among those that were stored. -/
def TrackedSince (chain : Chain ι) (old : List Failure) (pending : List (Msg ι)) (w : World ι) :
    Prop :=
  Tracked chain pending w ∧ ∀ f ∈ old, f ∈ w.handed

lemma Effect.handed (h : Effect chain w msg w' called) (hf : f ∈ w.handed) : f ∈ w'.handed := by
  cases h with
  | add => exact mem_cons_of_mem _ hf
  | _ => exact hf

lemma leave_handed {callback : Callback} (h : leave callback w = .ok w') :
    w'.handed = w.handed := by
  cases callback with
  | contract =>
    cases h
    rfl
  | resubmission address id =>
    cases h
    rfl

lemma trackedSince_invariant (old : List Failure) :
    Callbacks.Invariant (system chain) (Careful chain) (TrackedSince chain old) where
  done h hC he := ⟨tracked_invariant.done h.1 hC he, fun f hf => (enter_ok he).handed (h.2 f hf)⟩
  call h hC he := ⟨tracked_invariant.call h.1 hC he, fun f hf => (enter_ok he).handed (h.2 f hf)⟩
  back hs hC hcall h he := by
    refine ⟨tracked_invariant.back hs.1 hC hcall h.1 he, fun f hf => ?_⟩
    rw [leave_handed he]
    exact h.2 f hf

lemma Tracked.since {w₁ : World ι} (h₁ : Tracked chain [] w₁) (h : Tracked chain pending w)
    (hold : ∀ f ∈ w₁.handed, f ∈ w.handed) : Since w₁ w where
  same f hf g hg := h.eq_of_key (h.stored _ _ hg) (hold f hf) (h.own _ _ hg)
  kept f hf := by
    refine (h.kept f (hold f (h₁.stored _ _ hf))).imp_right fun hredelivered => ⟨hredelivered, ?_⟩
    intro hbefore
    rcases h₁.settled f hbefore with hnone | ⟨m, hm, -⟩
    · rw [hf] at hnone
      cases hnone
    · cases hm
  once := nodup_iff_count_le_one.mp h.once

/-- Contracts are careful in a transaction. -/
def CarefulIn (chain : Chain ι) (w : World ι) (script : Callbacks.Script (Msg ι)) : Prop :=
  Callbacks.Meets (system chain) (Careful chain) script [] w

lemma Initial.tracked (h : Initial w) : Tracked chain [] w := by
  obtain ⟨hfailures, hhanded, hredelivered⟩ := h
  constructor
  · intro k f hf
    rw [hfailures, lookup_empty] at hf
    cases hf
  · intro k f hf
    rw [hfailures, lookup_empty] at hf
    cases hf
  · rw [hhanded]
    exact nodup_nil
  · intro f hf
    rw [hhanded] at hf
    cases hf
  · intro f hf
    rw [hredelivered] at hf
    cases hf
  · rw [hredelivered]
    exact nodup_nil
  · intro f hf
    rw [hredelivered] at hf
    cases hf
  · intro m hm
    cases hm

/-- **Failures are not lost, confused or delivered again**, in every run in which no contract
resubmits a failure that is being delivered to it, and in which the last failure of a contract
is still stored when its next one is.  This is true after every transaction, and whenever a
message is sent in the next one. -/
theorem failures_kept_apart (chain : Chain ι) {w₀ : World ι} (h₀ : Initial w₀)
    (es fs : List (Callbacks.Script (Msg ι)))
    (hcareful : Run.Along (step chain) (CarefulIn chain) w₀ (es ++ fs)) {w₁ w : World ι}
    (hw₁ : Run.run (step chain) w₀ es = w₁) (hw : Run.run (step chain) w₁ fs = w) :
    Since w₁ w ∧ ∀ script, CarefulIn chain w script →
      ∀ v ∈ Callbacks.visits (system chain) script [] w, Since w₁ v.state := by
  obtain ⟨hfirst, hsecond⟩ := Run.along_append.mp hcareful
  rw [hw₁] at hsecond
  have htracked : Tracked chain [] w₁ := by
    rw [← hw₁]
    exact Run.run_invariant h₀.tracked (fun s e s' hI hC he => tracked_invariant.exec hC hI he)
      hfirst
  have hsince : TrackedSince chain w₁.handed [] w := by
    rw [← hw]
    refine Run.run_invariant ⟨htracked, fun f hf => hf⟩ ?_ hsecond
    exact fun s e s' hI hC he => (trackedSince_invariant _).exec hC hI he
  refine ⟨htracked.since hsince.1 hsince.2, fun script hC v hv => ?_⟩
  obtain ⟨hv, hold⟩ := (trackedSince_invariant _).visits hC hsince v hv
  exact htracked.since hv hold

/-! ### Failures that are lost, confused or delivered again -/

/-- Every account is a contract. -/
def demoChain : Chain Unit where
  accAddressFromBech32 s := some (.account s)
  string
    | .account s => s
    | _ => []
  hasContractInfo _ _ := true

def demoWorld : World Unit where
  outside := ()
  failures := ∅
  handed := []
  redelivered := []

/-- A sudo call of the contract `dao` fails. -/
def failing (sudoPayload : String) : Callbacks.Script (Msg Unit) :=
  sudoLimitWrapper (ascii "dao") (ascii sudoPayload) (ascii "failed") .reject .accept .accept

/-- The contract `dao` resubmits a failure, and does `inner` when it is called. -/
def resubmitting (id : UInt64) (inner : Callbacks.Script (Msg Unit)) :
    Callbacks.Script (Msg Unit) :=
  .send (.bindingResubmitFailure (.account (ascii "dao")) id) inner .accept .reject

def demoFailure (id : UInt64) (sudoPayload : String) : Failure where
  address := ascii "dao"
  id := id
  sudoPayload := ascii sudoPayload
  error := ascii "failed"

/-- **Failures are confused**: the id of a failure that was resubmitted is given to the next one.
**Failures are delivered again**: a contract resubmits the failure that is being delivered.
**Failures are lost**: if a sudo call fails after that, its failure has the same id, and is
removed when the first resubmission is over. -/
theorem failures_confused :
    (Run.run (step demoChain) demoWorld
      [failing "ack", resubmitting 0 .accept, failing "timeout"]).handed
        = [demoFailure 0 "timeout", demoFailure 0 "ack"]
      ∧ (Run.run (step demoChain) demoWorld
        [failing "ack", resubmitting 0 (resubmitting 0 .accept)]).redelivered.count
          (demoFailure 0 "ack") = 2
      ∧ (Run.run (step demoChain) demoWorld
        [failing "ack", resubmitting 0
          (.send (.bindingResubmitFailure (.account (ascii "dao")) 0) .accept
            (failing "timeout") .reject)]).handed
        = [demoFailure 0 "timeout", demoFailure 0 "ack"]
      ∧ (Run.run (step demoChain) demoWorld
        [failing "ack", resubmitting 0
          (.send (.bindingResubmitFailure (.account (ascii "dao")) 0) .accept
            (failing "timeout") .reject)]).failures.keys = [] := by
  decide +kernel

lemma carefulIn_failing {w : World Unit} {sudoPayload : String}
    (hlast : LastKept w (ascii "dao")) : CarefulIn demoChain w (failing sudoPayload) := by
  intro v hv
  rcases Callbacks.mem_visits_send hv with rfl | ⟨_, _, _, hv⟩ | ⟨_, hok, _⟩ | ⟨_, _, _, hv⟩
  · refine ⟨fun k hk => ?_, fun _ _ _ heq => ?_⟩
    · cases hk
    · cases heq
  · cases hv
  · -- the contract fails
    cases hok
  · rcases Callbacks.mem_visits_send hv with rfl | ⟨_, _, _, hv⟩ | ⟨_, _, hv⟩ | ⟨_, _, _, hv⟩
    · refine ⟨fun k hk => ?_, fun _ _ _ heq => ?_⟩
      · cases hk
      · cases heq
        exact hlast
    · cases hv
    · cases hv
    · cases hv

lemma careful_resubmitting {pending : List (Msg Unit)} {w : World Unit}
    (h : ∀ m ∈ pending, m.resubmits demoChain ≠ some (ascii "dao", id)) :
    Careful demoChain pending w (.bindingResubmitFailure (.account (ascii "dao")) id) := by
  refine ⟨fun k hk => ?_, fun _ _ _ heq => ?_⟩
  · cases hk
    exact h
  · cases heq

lemma lastKept_of_forall
    (h : ∀ f ∈ w.handed, w.failures.lookup f.key = some f ∧ f.id.toNat + 1 < 2 ^ 64) :
    LastKept w address := by
  intro f hf haddress
  refine ⟨f, ?_, le_rfl, (h f hf).2⟩
  rw [← haddress]
  exact (h f hf).1

/-- Two calls fail; the contract resubmits the first failure, and the second one while it is
called. -/
theorem failures_kept_apart_nested :
    (Run.run (step demoChain) demoWorld
      [failing "ack", failing "timeout", resubmitting 0 (resubmitting 1 .accept)]).redelivered
        = [demoFailure 1 "timeout", demoFailure 0 "ack"]
      ∧ Since (Run.run (step demoChain) demoWorld [failing "ack", failing "timeout"])
        (Run.run (step demoChain) demoWorld
          [failing "ack", failing "timeout", resubmitting 0 (resubmitting 1 .accept)]) := by
  have h₀ : Initial demoWorld := ⟨rfl, rfl, rfl⟩
  have hcareful : Run.Along (step demoChain) (CarefulIn demoChain) demoWorld
      ([failing "ack", failing "timeout"] ++ [resubmitting 0 (resubmitting 1 .accept)]) := by
    refine ⟨?_, ?_, ?_, trivial⟩
    · exact carefulIn_failing (lastKept_of_forall (by decide))
    · exact carefulIn_failing (lastKept_of_forall (by decide +kernel))
    · intro v hv
      rcases Callbacks.mem_visits_send hv with rfl | ⟨_, _, _, hv⟩ | ⟨_, _, hv⟩ | ⟨_, _, _, hv⟩
      · exact careful_resubmitting fun m hm => by cases hm
      · rcases Callbacks.mem_visits_send hv with rfl | ⟨_, _, _, hv⟩ | ⟨_, _, hv⟩ | ⟨_, _, _, hv⟩
        · refine careful_resubmitting fun m hm => ?_
          -- the two ids are different
          rw [mem_singleton.mp hm]
          decide
        · cases hv
        · cases hv
        · cases hv
      · cases hv
      · cases hv
  exact ⟨by decide +kernel, (failures_kept_apart demoChain h₀ _ _ hcareful rfl rfl).1⟩

end MaanyDex.ContractManager
