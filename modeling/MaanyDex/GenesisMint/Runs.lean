/-
Runs of the module: genesis mints, blocks, acknowledgements and timeouts in any
order.

A world is the state of the module with the block time, the send sequence of
every channel, the packets of other interchain accounts, and the history of the
module's own packets.  `SendTx` may accept or refuse any claim; an accepted one
gets the next sequence of the active channel, as IBC assigns it.
Acknowledgements and timeouts may arrive for any channel and sequence.

Every step of a run is a sequence of steps of the retry protocol
(`step_refines`), so its invariants hold in every world that a run reaches
(`run_sound`).
-/
import MaanyDex.GenesisMint.Genesis
import MaanyDex.GenesisMint.Outbox

namespace MaanyDex.GenesisMint

open Outbox List KVStore

/-! ### Worlds -/

/-- The module on a chain, with its history. -/
structure World where
  st : State
  time : BlockTime
  /-- The next send sequence of a channel. -/
  nextSeq : Bytes → ℕ
  /-- Packets that other interchain accounts sent. -/
  others : List PacketID
  log : List LogEntry

/-- The collaborators of the module. -/
structure RunEnv where
  mints : Env
  ica : IcaEnv

/-- What can happen to the module. -/
inductive Event where
  | mint (params : Option Params) (intent : Option MintIntent)
  | beginBlock (time : BlockTime) (ica : IcaKeeper) (accepts : Bytes × Bytes → Bool)
  | acknowledge (channelID : Bytes) (sequence : ℕ) (ack : Option AckResponse) (app : Option Fault)
  | timeout (channelID : Bytes) (sequence : ℕ) (app : Option Fault)
  | otherSend (channelID : Bytes)

/-- `SendTx`: the packet goes out on the active channel of the owner, with the next
sequence. -/
def sendTx (env : IcaEnv) (ica : IcaKeeper) (accepts : Bytes × Bytes → Bool) (nextSeq : Bytes → ℕ)
    (sent : List SentClaim) (pair : Bytes × Bytes) (msg : MsgSendTx) : SendTxResult :=
  match (env.newControllerPortID msg.owner).bind (ica.getActiveChannelID msg.connectionID) with
  | none => .failed
  | some channelID =>
    if accepts pair then .accepted (some (nextSeq channelID + sent.length)) else .failed

/-- What an acknowledgement adds to the history. -/
def ackEntries (p : PacketID) : Option AckResponse → List LogEntry
  | some .result => [.acked p]
  | some .error => [.failed p]
  | _ => []

/-- One event; a failed one is rolled back. -/
def step (env : RunEnv) (w : World) : Event → Result World
  | .mint params intent => do
      let st ← processGenesisMint env.mints params intent true w.st
      .ok { w with st := st }
  | .beginBlock time ica accepts =>
    if time.unixNano < w.time.unixNano then .error (.err "block time goes back")
    else
      let r := beginBlocker env.ica
        ⟨time.unix, ica, sendTx env.ica ica accepts w.nextSeq⟩ w.st.store
      .ok { w with
        st := { w.st with store := r.1 }
        time := time
        nextSeq := fun ch => w.nextSeq ch + (r.2.filter fun c => c.channelID = ch).length
        log := w.log ++ sends time.unix r.2 }
  | .acknowledge ch n ack app => do
      let store ← onAcknowledgementPacket w.st.store ch n ack app
      .ok { w with st := { w.st with store := store }, log := w.log ++ ackEntries (ch, n) ack }
  | .timeout ch n app => do
      let store ← onTimeoutPacket w.st.store ch n app
      .ok { w with st := { w.st with store := store }, log := w.log ++ [.failed (ch, n)] }
  | .otherSend ch =>
    .ok { w with
      nextSeq := Function.update w.nextSeq ch (w.nextSeq ch + 1)
      others := (ch, w.nextSeq ch) :: w.others }

/-- The protocol state of a world. -/
def World.box (w : World) : Box Bytes PacketID := boxOf w.st.store w.time.unix w.log

/-- The configured timeout. -/
def World.timeout (w : World) : ℕ := getICATimeoutSeconds w.st.store

/-- The packet whose failure an event delivers. -/
def Event.fails : Event → Option PacketID
  | .acknowledge ch n (some .error) _ => some (ch, n)
  | .timeout ch n _ => some (ch, n)
  | _ => none

/-! ### Mints -/

section Mints

variable {env : Env} {params : Params} {m : MintIntent} {strict : Bool} {s s' : State}
  {now : ℤ} {log : List LogEntry} {T : ℤ} {G : List LogEntry → PacketID → Prop}

lemma Mints.inv (h : Mints env params m strict s s') (hinv : Inv s.store) : Inv s'.store := by
  have h₁ : Inv (s.store.set (Slot.claimed m.claim).key [1]) := hinv.set trivial
  rw [h.store]
  exact h₁.set (by simp [Writable, MintIntent.claim, claimID])

lemma Mints.step_enqueue (h : Mints env params m strict s s') :
    Step T G (boxOf s.store now log) (boxOf s'.store now log) := by
  have hbox : boxOf s'.store now log
      = { boxOf s.store now log with
          claimed := insert m.claim (boxOf s.store now log).claimed
          pending := insert m.claim (boxOf s.store now log).pending } := by
    rw [h.store]
    ext1
    · ext c
      by_cases hc : m.claim = c
      · simp [boxOf, get_set, hc]
      · simp [boxOf, get_set, hc, Ne.symm hc]
    · ext c
      by_cases hc : m.claim = c
      · simp [boxOf, hc]
      · simp [boxOf, get_set, hc, Ne.symm hc]
    · simp [boxOf, get_set]
    · simp [boxOf, get_set]
    · rfl
    · rfl
  rw [hbox]
  exact Step.enqueue m.claim fun hmem => hmem h.unclaimed

/-- A mint only writes to the claimed index and the queue. -/
lemma Mints.get_config (h : Mints env params m strict s s') {slot : Slot}
    (htag : slot.tag ≠ 0x11 ∧ slot.tag ≠ 0x12) : s'.store.get slot.key = s.store.get slot.key := by
  rw [h.store, get_set_of_ne, get_set_of_ne]
  · rw [Ne, Slot.key_inj]
    rintro rfl
    exact htag.1 rfl
  · rw [Ne, Slot.key_inj]
    rintro rfl
    exact htag.2 rfl

end Mints

/-! ### What one event does -/

section Step

variable {env : RunEnv} {w w' : World} {e : Event} {G : List LogEntry → PacketID → Prop}

lemma step_mint_ok {params : Option Params} {intent : Option MintIntent}
    (h : step env w (.mint params intent) = .ok w') :
    w' = w ∨ ∃ p m st, Mints env.mints p m true w.st st ∧ w' = { w with st := st } := by
  obtain ⟨st, hst, h⟩ := Run.bind_ok h
  cases h
  obtain ⟨m, -, ⟨-, rfl⟩ | ⟨p, -, hm⟩⟩ := processGenesisMint_ok hst
  · exact .inl rfl
  · exact .inr ⟨p, m, st, hm, rfl⟩

lemma step_beginBlock_ok {time : BlockTime} {ica : IcaKeeper} {accepts : Bytes × Bytes → Bool}
    (h : step env w (.beginBlock time ica accepts) = .ok w') :
    w.time.unix ≤ time.unix ∧ ∃ r, r = beginBlocker env.ica
        ⟨time.unix, ica, sendTx env.ica ica accepts w.nextSeq⟩ w.st.store ∧
      w' = { w with
        st := { w.st with store := r.1 }
        time := time
        nextSeq := fun ch => w.nextSeq ch + (r.2.filter fun c => c.channelID = ch).length
        log := w.log ++ sends time.unix r.2 } := by
  rw [step] at h
  split at h
  · cases h
  · rename_i hlt
    exact ⟨Int.ediv_le_ediv (by decide) (not_lt.mp hlt), _, rfl, (Except.ok.inj h).symm⟩

/-- The store after an acknowledgement that the wrapped application accepts. -/
def ackStore (store : KVStore) (ch : Bytes) (n : ℕ) : Option AckResponse → KVStore
  | some .result => handleICAAckSuccess store ch n
  | some .error => handleICAAckError store ch n
  | _ => store

variable {ch : Bytes} {n : ℕ} {app : Option Fault}

lemma step_acknowledge_ok {ack : Option AckResponse}
    (h : step env w (.acknowledge ch n ack app) = .ok w') :
    w' = { w with
      st := { w.st with store := ackStore w.st.store ch n ack }
      log := w.log ++ ackEntries (ch, n) ack } := by
  obtain ⟨store, hs, h⟩ := Run.bind_ok h
  cases h
  have hstore : store = ackStore w.st.store ch n ack := by
    rcases app with - | f
    · rcases ack with - | - | - | - <;> exact (Except.ok.inj hs).symm
    · cases hs
  rw [hstore]

lemma step_timeout_ok (h : step env w (.timeout ch n app) = .ok w') :
    w' = { w with
      st := { w.st with store := handleICATimeout w.st.store ch n }
      log := w.log ++ [.failed (ch, n)] } := by
  obtain ⟨store, hs, h⟩ := Run.bind_ok h
  cases h
  rcases app with - | f
  · cases hs
    rfl
  · cases hs

/-- What one event does to the world: steps of the protocol, under which the store
stays consistent and the configuration as it is. -/
structure Refines (G : List LogEntry → PacketID → Prop) (w w' : World) : Prop where
  steps : Steps (int64 w.timeout) G w.box w'.box
  inv : Inv w'.st.store
  timeout : w'.timeout = w.timeout

lemma Refines.refl (h : Inv w.st.store) : Refines G w w := ⟨Relation.ReflTransGen.refl, h, rfl⟩

lemma Resolves.refines {entry : LogEntry} {settles : Prop} {store' : KVStore}
    (h : Resolves (int64 w.timeout) G ch n entry settles w.time.unix w.log w.st.store store') :
    Refines G w { w with st := { w.st with store := store' }, log := w.log ++ [entry] } := by
  refine ⟨h.steps, h.inv, ?_⟩
  apply getICATimeoutSeconds_congr
  apply h.kept .icaTimeoutSeconds trivial
  intro c _ _
  simp

/-- **Refinement**: a successful event is a sequence of steps of the retry protocol. -/
lemma step_refines (hinv : Inv w.st.store) (h : step env w e = .ok w')
    (hG : ∀ p, e.fails = some p → G w.log p) : Refines G w w' := by
  cases e with
  | mint params intent =>
    obtain rfl | ⟨p, m, st, hm, rfl⟩ := step_mint_ok h
    · exact Refines.refl hinv
    · refine ⟨Relation.ReflTransGen.single hm.step_enqueue, hm.inv hinv, ?_⟩
      exact getICATimeoutSeconds_congr
        (hm.get_config ⟨of_decide_eq_false rfl, of_decide_eq_false rfl⟩)
  | beginBlock time ica accepts =>
    obtain ⟨hle, r, hr, rfl⟩ := step_beginBlock_ok h
    have hflush : Flushes (int64 (getICATimeoutSeconds w.st.store)) G time w.log
        (w.st.store, []) r := by
      rw [hr]
      exact beginBlocker_flushes rfl hinv
    have htick : Step (int64 w.timeout) G w.box (boxOf w.st.store time.unix w.log) :=
      Step.tick time.unix hle
    have hsteps := hflush.steps
    simp only [sends, map_nil, append_nil] at hsteps
    refine ⟨Relation.ReflTransGen.head htick hsteps, hflush.inv, ?_⟩
    exact getICATimeoutSeconds_congr (hflush.kept .icaTimeoutSeconds trivial)
  | acknowledge ch n ack app =>
    rw [step_acknowledge_ok h]
    -- an acknowledgement that cannot be read, or of an unknown kind, is passed on
    have hsame : Refines G w
        { w with st := { w.st with store := w.st.store }, log := w.log ++ [] } := by
      rw [append_nil]
      exact Refines.refl hinv
    rcases ack with - | - | - | -
    · exact hsame
    · exact (handleICAAckSuccess_resolves hinv).refines
    · exact (retryClaim_resolves hinv fun _ _ => hG _ rfl).refines
    · exact hsame
  | timeout ch n app =>
    rw [step_timeout_ok h]
    exact (retryClaim_resolves hinv fun _ _ => hG _ rfl).refines
  | otherSend ch =>
    cases h
    exact ⟨Relation.ReflTransGen.refl, hinv, rfl⟩

end Step

/-! ### Packet numbers -/

section Numbers

variable {env : IcaEnv} {ica : IcaKeeper} {accepts : Bytes × Bytes → Bool} {nextSeq : Bytes → ℕ}
  {flush : Flush} {acc : KVStore × List SentClaim}

/-- The claims sent so far in a block went out on one channel, with the sequences
that follow `base`. -/
def Numbered (channelID : Bytes) (base : ℕ) (sent : List SentClaim) : Prop :=
  ∀ c ∈ sent, c.channelID = channelID ∧ base ≤ c.sequence ∧ c.sequence < base + sent.length

variable {sent : List SentClaim} {pair : Bytes × Bytes}

lemma sendTx_accepted {msg : MsgSendTx} {seq : ℕ}
    {channelID : Bytes}
    (hch : (env.newControllerPortID msg.owner).bind (ica.getActiveChannelID msg.connectionID)
      = some channelID)
    (h : sendTx env ica accepts nextSeq sent pair msg = .accepted (some seq)) :
    seq = nextSeq channelID + sent.length := by
  unfold sendTx at h
  simp only [hch] at h
  split at h
  · cases h
    rfl
  · cases h

variable {store : KVStore}

section

variable (hsend : flush.block.sendTx = sendTx env ica accepts nextSeq)
  (hch : (env.newControllerPortID flush.owner).bind (ica.getActiveChannelID flush.connectionID)
    = some flush.channelID)

include hsend hch

lemma sendClaim_numbered (h : Numbered flush.channelID (nextSeq flush.channelID) sent) :
    Numbered flush.channelID (nextSeq flush.channelID) (sendClaim env flush pair store sent).2 := by
  rcases sendClaim_cases env flush pair store sent with e | ⟨seq, msg, howner, hconn, hseq, e⟩
  · rw [e]
    exact h
  · rw [e]
    rw [hsend] at hseq
    have hnum : seq = nextSeq flush.channelID + sent.length := by
      apply sendTx_accepted _ hseq
      rw [howner, hconn]
      exact hch
    intro c hc
    show c.channelID = _ ∧ _ ≤ c.sequence ∧ c.sequence < _ + (sent ++ [_]).length
    rw [length_append, length_singleton]
    rcases mem_append.mp hc with hc | hc
    · obtain ⟨h₁, h₂, h₃⟩ := h c hc
      exact ⟨h₁, h₂, by omega⟩
    · obtain rfl := mem_singleton.mp hc
      refine ⟨rfl, ?_, ?_⟩
      · show nextSeq flush.channelID ≤ seq
        omega
      · show seq < _
        omega

lemma foldl_flushClaim_numbered {pairs : List (Bytes × Bytes)}
    (h : Numbered flush.channelID (nextSeq flush.channelID) acc.2) :
    Numbered flush.channelID (nextSeq flush.channelID)
      (pairs.foldl (flushClaim env flush) acc).2 := by
  induction pairs generalizing acc with
  | nil => exact h
  | cons pair pairs ih =>
    apply ih
    rcases flushClaim_cases env flush acc pair with e | ⟨-, e⟩ | ⟨-, e⟩
    · rw [e]
      exact h
    · rw [e]
      exact sendClaim_numbered hsend hch h
    · rw [e]
      exact sendClaim_numbered hsend hch h

end

/-- The claims that a block sends take the next sequences of their channel. -/
lemma beginBlocker_numbered {now : ℤ} {c : SentClaim}
    (hc : c ∈ (beginBlocker env ⟨now, ica, sendTx env ica accepts nextSeq⟩ store).2) :
    nextSeq c.channelID ≤ c.sequence ∧ c.sequence < nextSeq c.channelID
      + ((beginBlocker env ⟨now, ica, sendTx env ica accepts nextSeq⟩ store).2.filter
          fun c' => c'.channelID = c.channelID).length := by
  have hall : ∃ ch, Numbered ch (nextSeq ch)
      (beginBlocker env ⟨now, ica, sendTx env ica accepts nextSeq⟩ store).2 := by
    rcases beginBlocker_cases env ⟨now, ica, sendTx env ica accepts nextSeq⟩ store with
      e | ⟨-, store₁, rfl, e | ⟨flush, hblock, hch, e⟩⟩
    · rw [e] at hc
      cases hc
    · rw [e] at hc
      cases hc
    · refine ⟨flush.channelID, ?_⟩
      rw [e]
      rcases flushPending_cases env flush
        (ensureICARegistered env ica store (getICAConnectionID store) (getICAOwner store)) with
        ⟨-, e⟩ | e
      · rw [e]
        intro c hc
        cases hc
      · rw [e]
        apply foldl_flushClaim_numbered (by rw [hblock]) hch
        intro c hc
        cases hc
  obtain ⟨ch, hnum⟩ := hall
  obtain ⟨rfl, hle, hlt⟩ := hnum c hc
  -- all claims of the block went out on this channel
  rw [filter_eq_self.mpr fun c' hc' => by simpa using (hnum c' hc').1]
  exact ⟨hle, hlt⟩

end Numbers

/-! ### Every reachable world is sound -/

/-- Packet numbers are assigned once: to the module or to others. -/
structure Numbering (w : World) : Prop where
  sent : ∀ c p t, .sent c p t ∈ w.log → p.2 < w.nextSeq p.1 ∧ p ∉ w.others
  others : ∀ p ∈ w.others, p.2 < w.nextSeq p.1

/-- The invariant of runs. -/
structure Sound (w : World) : Prop where
  inv : Inv w.st.store
  tracked : Tracked w.box
  numbering : Numbering w

section Sound

variable {env : RunEnv} {w w' : World} {e : Event}

variable {p : PacketID} {t : ℤ}

lemma mem_sends {c : Bytes} {now : ℤ} {sent : List SentClaim} (h : .sent c p t ∈ sends now sent) :
    ∃ s ∈ sent, p = (s.channelID, s.sequence) := by
  obtain ⟨s, hs, e⟩ := mem_map.mp h
  simp only [Outbox.Entry.sent.injEq] at e
  exact ⟨s, hs, e.2.1.symm⟩

lemma sent_of_append_ackEntries {c : Bytes} {q : PacketID} {ack : Option AckResponse}
    {log : List LogEntry} (h : .sent c p t ∈ log ++ ackEntries q ack) : .sent c p t ∈ log := by
  rcases mem_append.mp h with h | h
  · exact h
  · rcases ack with - | - | - | - <;> simp [ackEntries] at h

protected lemma Numbering.step (h : Numbering w) (hs : step env w e = .ok w') : Numbering w' := by
  cases e with
  | mint params intent =>
    obtain rfl | ⟨p, m, st, -, rfl⟩ := step_mint_ok hs
    · exact h
    · exact ⟨h.sent, h.others⟩
  | beginBlock time ica accepts =>
    obtain ⟨-, r, hr, rfl⟩ := step_beginBlock_ok hs
    constructor
    · intro c p t hmem
      rcases mem_append.mp hmem with hmem | hmem
      · obtain ⟨hlt, hno⟩ := h.sent c p t hmem
        exact ⟨hlt.trans_le (Nat.le_add_right _ _), hno⟩
      · -- a packet of this block is numbered beyond all earlier ones
        obtain ⟨s, hs, rfl⟩ := mem_sends hmem
        subst hr
        obtain ⟨hle, hlt⟩ := beginBlocker_numbered hs
        refine ⟨hlt, ?_⟩
        intro hother
        exact absurd (h.others _ hother) (not_lt.mpr hle)
    · intro p hp
      exact (h.others p hp).trans_le (Nat.le_add_right _ _)
  | acknowledge ch n ack app =>
    rw [step_acknowledge_ok hs]
    exact ⟨fun c p t hmem => h.sent c p t (sent_of_append_ackEntries hmem), h.others⟩
  | timeout ch n app =>
    rw [step_timeout_ok hs]
    refine ⟨fun c p t hmem => h.sent c p t ?_, h.others⟩
    simpa using hmem
  | otherSend ch =>
    cases hs
    have hgrow (ch' : Bytes) : w.nextSeq ch' ≤ Function.update w.nextSeq ch (w.nextSeq ch + 1) ch' := by
      by_cases hch : ch' = ch
      · subst hch
        simp
      · simp [hch]
    constructor
    · intro c p t hmem
      obtain ⟨hlt, hno⟩ := h.sent c p t hmem
      refine ⟨hlt.trans_le (hgrow _), ?_⟩
      intro hother
      rcases mem_cons.mp hother with rfl | hother
      · exact absurd hlt (lt_irrefl _)
      · exact hno hother
    · intro p hp
      rcases mem_cons.mp hp with rfl | hp
      · simp
      · exact (h.others p hp).trans_le (hgrow _)

protected lemma Sound.step (h : Sound w) (hs : step env w e = .ok w') : Sound w' := by
  have href : Refines (fun _ _ => True) w w' := step_refines h.inv hs fun _ _ => trivial
  exact {
    inv := href.inv
    tracked := href.steps.invariant (fun _ _ hI hstep => hI.step hstep) h.tracked
    numbering := h.numbering.step hs }

/-- The world at the start of a run. -/
def start (s : State) (time : BlockTime) (nextSeq : Bytes → ℕ) : World := ⟨s, time, nextSeq, [], []⟩

lemma applySetting_inv {α : Type} (set : KVStore → α → KVStore) (slot : Slot) {v : Option α}
    {store : KVStore} (hset : ∀ store a, ∃ bz, set store a = store.set slot.key bz)
    (hw : ∀ bz, Writable slot bz) (h : Inv store) : Inv (applySetting set v store) := by
  rcases v with - | a
  · exact h
  · obtain ⟨bz, e⟩ := hset store a
    rw [applySetting, e]
    exact h.set (hw bz)

/-- Before the first mint the store is consistent. -/
lemma configured_inv (env : GenesisEnv) (doc : GenesisDoc) (bank : Bank) :
    Inv (configured env doc (blank bank)).store := by
  have hempty : Inv ∅ := by
    refine ⟨?_, ?_, ?_, ?_⟩
    · intro k v h
      simp at h
    · intro c v h
      simp at h
    · intro ch n c h
      simp at h
    · intro c
      exact .inl ⟨get_empty, get_empty⟩
  have h₁ := applySetting_inv setICAConnectionID .icaConnectionID
    (v := (extractConfig env doc).1.connectionID) (fun _ _ => ⟨_, rfl⟩) (fun _ => trivial) hempty
  have h₂ := applySetting_inv setICAOwner .icaOwner
    (v := (extractConfig env doc).1.owner) (fun _ _ => ⟨_, rfl⟩) (fun _ => trivial) h₁
  have h₃ := applySetting_inv setICATimeoutSeconds .icaTimeoutSeconds
    (v := (extractConfig env doc).1.timeoutSeconds) (fun _ _ => ⟨_, rfl⟩) (fun _ => trivial) h₂
  exact applySetting_inv setMaxClaimsPerBlock .maxClaimsPerBlock
    (v := (extractConfig env doc).1.maxClaimsPerBlock) (fun _ _ => ⟨_, rfl⟩) (fun _ => trivial) h₃

/-- The start of a run, with nothing minted yet, is sound. -/
lemma start_sound (env : GenesisEnv) (doc : GenesisDoc) (bank : Bank) (time : BlockTime)
    (nextSeq : Bytes → ℕ) : Sound (start (configured env doc (blank bank)) time nextSeq) := by
  have hnone (slot : Slot) (h : slot.tag ≠ 0x15) :
      (configured env doc (blank bank)).store.get slot.key = none := by
    apply configured_blank_get
    rw [Slot.tag_prefix_key]
    exact h.symm
  refine ⟨configured_inv env doc bank, ⟨?_, ?_, ?_⟩, ⟨?_, ?_⟩⟩
  · intro p c hr
    have hroute : (configured env doc (blank bank)).store.get (Slot.packet p.1 p.2).key = some c := hr
    rw [hnone _ (of_decide_eq_false rfl)] at hroute
    cases hroute
  · intro c hc
    exact absurd (hnone (.pending c) (of_decide_eq_false rfl)) hc
  · intro c p t hmem
    cases hmem
  · intro c p t hmem
    cases hmem
  · intro p hp
    cases hp

/-- **Every world that a run reaches is sound.** -/
lemma run_sound {genv : GenesisEnv} {doc : GenesisDoc} {bank : Bank} {time : BlockTime}
    {nextSeq : Bytes → ℕ} (es : List Event) :
    Sound (Run.run (step env) (start (configured genv doc (blank bank)) time nextSeq) es) :=
  Run.run_invariant (C := fun _ _ => True) (start_sound genv doc bank time nextSeq)
    (fun _ _ _ h _ hs => h.step hs) (Run.along_of_forall fun _ _ _ => trivial)

end Sound

/-! ### A chain for concrete runs -/

/-- The functions of `ibc-go` on the inputs of concrete runs. -/
def chainIca : IcaEnv where
  newControllerPortID owner := if owner = [] then none else some (ascii "icacontroller-" ++ owner)
  metadataJSON controller host :=
    ascii "\x7b\"version\":\"ics27-1\",\"controller_connection_id\":\"" ++ controller
      ++ ascii "\",\"host_connection_id\":\"" ++ host
      ++ ascii "\",\"address\":\"\",\"encoding\":\"proto3\",\"tx_type\":\"sdk_multi_msg\"\x7d"
  marshalCosmosTx msgs :=
    some (msgs.foldl (fun bz msg => encField 1 (encField 2 msg.value (encField 1 msg.typeUrl [])) bz) [])
  chainID := ascii "maany-dex"

/-- The interchain account is registered and its channel is open. -/
def activeIca : IcaKeeper where
  getActiveChannelID _ _ := some (ascii "channel-0")
  getInterchainAccountAddress _ _ := some (ascii "maany1ica")
  getConnection _ := some (ascii "connection-0")
  registerInterchainAccount _ _ _ := true

/-- The collaborators of the module on a chain with one proven entry. -/
def chainRunEnv : RunEnv := ⟨(chainEnv []).toEnv, chainIca⟩

def unixTime (t : Fin (2 ^ 32)) : BlockTime := ⟨t * 10 ^ 9, by omega, by omega⟩

/-- A block in which every claim is accepted. -/
def flushAt (t : Fin (2 ^ 32)) : Event := .beginBlock (unixTime t) activeIca fun _ => true

def mintSeven : Event := .mint (some chainParams) (some (chainIntent "maany-1" "7" "50" "alice"))

def claimSeven : Bytes := ascii "maany-1|7"

def chainTime : BlockTime := unixTime 1000

/-- A chain whose module has the default configuration. -/
def chainStart : World :=
  start (configured (chainEnv []) chainDoc (blank Bank.empty)) chainTime fun _ => 1

end MaanyDex.GenesisMint
