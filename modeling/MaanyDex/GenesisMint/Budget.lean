/-
How many claims a block reports.

`BeginBlocker` lists the first `N` pending claims in store order and skips the
ones of them that wait for an acknowledgement.  The limit is applied before the
filter, so a waiting claim uses up a place.  With a channel and an account in
place and every `SendTx` accepted, the number of packets is

    number of sendable claims among the first N,

and this is the minimum of `N` and the number of all sendable claims exactly if
all of the first `N` are sendable or none of the others is
(`countP_take_eq_min_iff`).
-/
import MaanyDex.GenesisMint.Runs

namespace MaanyDex.GenesisMint

open List

/-- A limit before a filter loses nothing exactly if the filter keeps all that the
limit lets through, or nothing of what it cuts off. -/
lemma countP_take_eq_min_iff {α : Type*} (f : α → Bool) (n : ℕ) (l : List α) :
    (l.take n).countP f = min n (l.countP f)
      ↔ (∀ a ∈ l.take n, f a = true) ∨ ∀ a ∈ l.drop n, f a = false := by
  have hsplit : l.countP f = (l.take n).countP f + (l.drop n).countP f := by
    rw [← countP_append, take_append_drop]
  have hle : (l.take n).countP f ≤ (l.take n).length := countP_le_length
  have hlen : (l.take n).length = min n l.length := length_take
  have hdrop : (l.drop n).countP f ≤ l.length - n := by
    rw [← length_drop]
    exact countP_le_length
  have hall : (∀ a ∈ l.take n, f a = true) ↔ (l.take n).countP f = (l.take n).length :=
    countP_eq_length.symm
  have hnone : (∀ a ∈ l.drop n, f a = false) ↔ (l.drop n).countP f = 0 := by
    rw [countP_eq_zero]
    simp
  rw [hall, hnone]
  omega

/-! ### Claims that can be sent -/

/-- The pending claims in store order. -/
def pendingClaims (store : KVStore) : List (Bytes × Bytes) :=
  (store.iterate [0x12]).filterMap fun e => pendingPair e.1

/-- A claim that is not in flight, or whose marker has expired. -/
def sendable (now : ℤ) (store : KVStore) (pair : Bytes × Bytes) : Bool :=
  !isInflight store pair.1 pair.2
    || inflightExpired now store pair.1 pair.2 (getICATimeoutSeconds store)

variable {now : ℤ}

/-- Whether a claim can be sent is read from its two markers and the timeout. -/
lemma sendable_congr {store store' : KVStore} {pair : Bytes × Bytes}
    (hflag : store'.get (Slot.inflight (claimID pair.1 pair.2)).key
      = store.get (Slot.inflight (claimID pair.1 pair.2)).key)
    (hat : store'.get (Slot.inflightAt (claimID pair.1 pair.2)).key
      = store.get (Slot.inflightAt (claimID pair.1 pair.2)).key)
    (htimeout : store'.get Slot.icaTimeoutSeconds.key = store.get Slot.icaTimeoutSeconds.key) :
    sendable now store' pair = sendable now store pair := by
  have hflag' : store'.get (inflightKey pair.1 pair.2) = store.get (inflightKey pair.1 pair.2) :=
    hflag
  have hat' : store'.get (inflightAtKey pair.1 pair.2) = store.get (inflightAtKey pair.1 pair.2) :=
    hat
  simp only [sendable, isInflight, KVStore.has, inflightExpired, hflag', hat',
    getICATimeoutSeconds_congr htimeout]

lemma key_of_pendingPair {k : Bytes} {pair : Bytes × Bytes} (htag : [0x12] <+: k)
    (h : pendingPair k = some pair) : k = (Slot.pending (claimID pair.1 pair.2)).key := by
  obtain ⟨s, rfl⟩ := htag
  unfold pendingPair at h
  simp only at h
  split at h
  · rename_i hhead
    obtain ⟨hsplit, -⟩ := Split.splitFirst_eq_some h
    have hs : s = ascii "pclaim|" ++ claimID pair.1 pair.2 := by
      rw [← take_append_drop (ascii "pclaim|").length s]
      exact congrArg₂ (· ++ ·) hhead.2 hsplit
    rw [hs]
    rfl
  · cases h

lemma pairwise_pendingClaims (store : KVStore) :
    (pendingClaims store).Pairwise fun p q => claimID p.1 p.2 ≠ claimID q.1 q.2 := by
  have hkeys : (store.iterate [0x12]).Pairwise fun e e' => e.1 ≠ e'.1 :=
    pairwise_map.mp KVStore.nodup_keys_iterate
  rw [pendingClaims, pairwise_filterMap]
  refine hkeys.imp_of_mem ?_
  rintro ⟨k, v⟩ ⟨k', v'⟩ hm hm' hne p hp q hq heq
  apply hne
  show k = k'
  rw [key_of_pendingPair (KVStore.mem_iterate.mp hm).1 hp,
    key_of_pendingPair (KVStore.mem_iterate.mp hm').1 hq, heq]

/-! ### The loop -/

/-- Every claim that is tried is sent: the message is encoded, and `SendTx` returns a
response with the sequence of the packet. -/
structure Accepts (env : IcaEnv) (block : Block) : Prop where
  marshals : ∀ msg, ∃ data, env.marshalCosmosTx [msg] = some data
  accepted : ∀ sent pair msg, ∃ seq, block.sendTx sent pair msg = .accepted (some seq)

section Loop

variable {env : IcaEnv} {flush : Flush} {acc : KVStore × List SentClaim} {pair : Bytes × Bytes}
  {store : KVStore} {sent : List SentClaim}

lemma length_sendClaim (h : Accepts env flush.block) :
    (sendClaim env flush pair store sent).2.length = sent.length + 1 := by
  obtain ⟨data, hdata⟩ := h.marshals (buildProviderMarkClaimAny flush.icaAddr pair.2 env.chainID)
  obtain ⟨msg, hasked⟩ : ∃ msg, askedTx env flush pair store = some msg := by
    rw [askedTx, hdata]
    exact ⟨_, rfl⟩
  obtain ⟨seq, hseq⟩ := h.accepted sent pair msg
  rw [sendClaim_eq, hasked]
  simp only [hseq, length_append, length_singleton]

lemma length_flushClaim (h : Accepts env flush.block) :
    (flushClaim env flush acc pair).2.length
      = acc.2.length + if sendable flush.block.now acc.1 pair then 1 else 0 := by
  unfold flushClaim sendable
  by_cases hin : isInflight acc.1 pair.1 pair.2 = true
  · by_cases hexp : inflightExpired flush.block.now acc.1 pair.1 pair.2
        (getICATimeoutSeconds acc.1) = true
    · rw [if_pos hin, if_pos hexp, length_sendClaim h]
      simp [hexp]
    · rw [if_pos hin, if_neg hexp]
      simp [hin, hexp]
  · rw [if_neg hin, length_sendClaim h]
    simp [hin]

variable {slot : Slot}

section

variable (h₁ : slot ≠ .inflight (claimID pair.1 pair.2))
  (h₂ : slot ≠ .inflightAt (claimID pair.1 pair.2)) (h₃ : ∀ ch n, slot ≠ .packet ch n)

include h₁ h₂ h₃

lemma sendClaim_get :
    (sendClaim env flush pair store sent).1.get slot.key = store.get slot.key := by
  rcases sendClaim_cases env flush pair store sent with e | ⟨seq, -, -, -, -, e⟩
  · rw [e]
  · rw [e]
    show (mark flush.block.now (store.set (Slot.packet flush.channelID seq).key
      (claimID pair.1 pair.2)) (claimID pair.1 pair.2)).get slot.key = _
    rw [mark_get h₁ h₂]
    apply KVStore.get_set_of_ne
    intro heq
    exact h₃ _ _ (Slot.key_injective heq).symm

lemma flushClaim_get : (flushClaim env flush acc pair).1.get slot.key = acc.1.get slot.key := by
  rcases flushClaim_cases env flush acc pair with e | ⟨-, e⟩ | ⟨-, e⟩
  · rw [e]
  · rw [e, sendClaim_get h₁ h₂ h₃]
  · rw [e, sendClaim_get h₁ h₂ h₃]
    exact unmark_get h₁ h₂

end

/-- A turn of the loop does not change whether another claim can be sent. -/
lemma sendable_flushClaim {other : Bytes × Bytes}
    (hne : claimID pair.1 pair.2 ≠ claimID other.1 other.2) :
    sendable now (flushClaim env flush acc pair).1 other = sendable now acc.1 other := by
  apply sendable_congr
  · apply flushClaim_get <;> simp [hne.symm]
  · apply flushClaim_get <;> simp [hne.symm]
  · apply flushClaim_get <;> simp

lemma length_foldl_flushClaim (h : Accepts env flush.block) {pairs : List (Bytes × Bytes)}
    (hpairs : pairs.Pairwise fun p q => claimID p.1 p.2 ≠ claimID q.1 q.2) :
    (pairs.foldl (flushClaim env flush) acc).2.length
      = acc.2.length + pairs.countP (sendable flush.block.now acc.1) := by
  induction pairs generalizing acc with
  | nil => rfl
  | cons pair pairs ih =>
    obtain ⟨hhead, htail⟩ := pairwise_cons.mp hpairs
    have hrest : pairs.countP (sendable flush.block.now (flushClaim env flush acc pair).1)
        = pairs.countP (sendable flush.block.now acc.1) := by
      apply countP_congr
      intro other hmem
      rw [sendable_flushClaim (hhead other hmem)]
    rw [foldl_cons, ih htail, hrest, length_flushClaim h, countP_cons]
    omega

lemma length_flushPending (h : Accepts env flush.block) :
    (flushPending env flush store).2.length
      = ((pendingClaims store).take (getMaxClaimsPerBlock store)).countP
          (sendable flush.block.now store) := by
  have hlist : listPendingClaims store (getMaxClaimsPerBlock store)
      = (pendingClaims store).take (getMaxClaimsPerBlock store) := rfl
  rcases flushPending_cases env flush store with ⟨hnil, e⟩ | e
  · rw [e, ← hlist, hnil]
    rfl
  · rw [e, length_foldl_flushClaim h, hlist]
    · simp
    · rw [hlist]
      exact (pairwise_pendingClaims store).sublist (take_sublist _ _)

end Loop

/-! ### The block -/

/-- The channel of the interchain account is active and its address is known. -/
structure Active (env : IcaEnv) (block : Block) (store : KVStore) (portID channelID icaAddr : Bytes) :
    Prop where
  port : env.newControllerPortID (getICAOwner store) = some portID
  channel : block.ica.getActiveChannelID (getICAConnectionID store) portID = some channelID
  address : block.ica.getInterchainAccountAddress (getICAConnectionID store) portID = some icaAddr
  nonempty : icaAddr ≠ []

section Block

variable {env : IcaEnv} {block : Block} {store : KVStore} {portID channelID icaAddr : Bytes}

/-- With channel and account in place, a block that is not done flushes. -/
lemma beginBlocker_active (h : Active env block store portID channelID icaAddr)
    (hdone : isDone store = false) :
    beginBlocker env block store
      = flushPending env ⟨block, getICAOwner store, getICAConnectionID store, channelID, icaAddr⟩
          (ensureICARegistered env block.ica store (getICAConnectionID store)
            (getICAOwner store)) := by
  obtain ⟨b, bs, rfl⟩ := exists_cons_of_ne_nil h.nonempty
  simp [beginBlocker, hdone, h.port, h.channel, h.address]

/-- Registration does not change the queue, the markers or the configuration. -/
lemma ensureICARegistered_kept (env : IcaEnv) (ica : IcaKeeper) (store : KVStore)
    (conn owner : Bytes) :
    pendingClaims (ensureICARegistered env ica store conn owner) = pendingClaims store
      ∧ getMaxClaimsPerBlock (ensureICARegistered env ica store conn owner)
        = getMaxClaimsPerBlock store
      ∧ ∀ now, sendable now (ensureICARegistered env ica store conn owner) = sendable now store := by
  have hget (slot : Slot) (hslot : slot.tag ≠ 0x13) :
      (ensureICARegistered env ica store conn owner).get slot.key = store.get slot.key := by
    apply ensureICARegistered_get
    rw [Slot.tag_prefix_key]
    exact hslot.symm
  refine ⟨?_, ?_, fun now => funext fun pair => ?_⟩
  · have hsame : KVStore.SameOn ([0x12] <+: ·) store
        (ensureICARegistered env ica store conn owner) := by
      rintro k ⟨r, rfl⟩
      apply ensureICARegistered_get
      simp
    rw [pendingClaims, hsame.iterate_eq]
    rfl
  · have hmax := hget .maxClaimsPerBlock (of_decide_eq_false rfl)
    have hmax' : (ensureICARegistered env ica store conn owner).get configMaxClaimsPerBlockKey
        = store.get configMaxClaimsPerBlockKey := hmax
    simp only [getMaxClaimsPerBlock, getConfigUint, hmax']
  · exact sendable_congr (hget _ (of_decide_eq_false rfl)) (hget _ (of_decide_eq_false rfl))
      (hget _ (of_decide_eq_false rfl))

lemma length_beginBlocker (hactive : Active env block store portID channelID icaAddr)
    (hsend : Accepts env block) :
    (beginBlocker env block store).2.length
      = if isDone store then 0
        else ((pendingClaims store).take (getMaxClaimsPerBlock store)).countP
          (sendable block.now store) := by
  rcases hdone : isDone store with - | -
  · obtain ⟨hpending, hmax, hsendable⟩ := ensureICARegistered_kept env block.ica store
      (getICAConnectionID store) (getICAOwner store)
    rw [beginBlocker_active hactive hdone, length_flushPending hsend, hpending, hmax, hsendable]
    rfl
  · simp [beginBlocker, hdone]

/-- The block sends as many packets as the limit and the sendable claims allow. -/
def FullBudget (env : IcaEnv) (block : Block) (store : KVStore) : Prop :=
  (beginBlocker env block store).2.length
    = min (getMaxClaimsPerBlock store) ((pendingClaims store).countP (sendable block.now store))

/-- **The budget of a block.**  With an active channel, a known account and every `SendTx`
accepted, the block sends as many packets as it could exactly if, before the done flag is set, the
first `N` pending claims can all be sent or none of the later ones can; and after it, nothing can be
sent or the limit is zero. -/
theorem full_budget_iff (env : IcaEnv) (block : Block) (store : KVStore)
    (portID channelID icaAddr : Bytes)
    (hactive : Active env block store portID channelID icaAddr) (hsend : Accepts env block) :
    FullBudget env block store
      ↔ if isDone store then
          getMaxClaimsPerBlock store = 0
            ∨ ∀ pair ∈ pendingClaims store, sendable block.now store pair = false
        else
          (∀ pair ∈ (pendingClaims store).take (getMaxClaimsPerBlock store),
              sendable block.now store pair = true)
            ∨ ∀ pair ∈ (pendingClaims store).drop (getMaxClaimsPerBlock store),
                sendable block.now store pair = false := by
  unfold FullBudget
  rw [length_beginBlocker hactive hsend]
  split
  · have hnone : (∀ pair ∈ pendingClaims store, sendable block.now store pair = false)
        ↔ (pendingClaims store).countP (sendable block.now store) = 0 := by
      rw [countP_eq_zero]
      simp
    rw [hnone]
    omega
  · exact countP_take_eq_min_iff _ _ _

end Block

/-! ### A crowded queue -/

/-- A block that accepts every claim, with packet sequences from `base` on. -/
def acceptingBlock (now : ℤ) (base : ℕ) : Block where
  now := now
  ica := activeIca
  sendTx sent _ _ := .accepted (some (base + sent.length))

lemma acceptingBlock_accepts (now : ℤ) (base : ℕ) : Accepts chainIca (acceptingBlock now base) where
  marshals _ := ⟨_, rfl⟩
  accepted _ _ _ := ⟨_, rfl⟩

/-- The escrows `7` and `8` are queued, with one claim per block. -/
def queuedTwo : KVStore :=
  enqueuePendingClaim (enqueuePendingClaim (setMaxClaimsPerBlock ∅ 1) (ascii "maany-1") (ascii "7"))
    (ascii "maany-1") (ascii "8")

/-- The first block sends one claim, as it should. -/
theorem full_budget_iff_queuedTwo : FullBudget chainIca (acceptingBlock 1000 1) queuedTwo :=
  (full_budget_iff chainIca (acceptingBlock 1000 1) queuedTwo
    (ascii "icacontroller-mintburn-claims") (ascii "channel-0") (ascii "maany1ica")
    ⟨by decide +kernel, rfl, rfl, by decide⟩ (acceptingBlock_accepts 1000 1)).mpr
    (by decide +kernel)

/-- A hundred seconds later the claim of `7` still waits, and the claim of `8` is not sent although
nothing else uses the block. -/
theorem waiting_claim_blocks :
    ∃ store, store = (beginBlocker chainIca (acceptingBlock 1000 1) queuedTwo).1
      ∧ Active chainIca (acceptingBlock 1100 2) store (ascii "icacontroller-mintburn-claims")
          (ascii "channel-0") (ascii "maany1ica")
      ∧ Accepts chainIca (acceptingBlock 1100 2)
      ∧ isDone store = false
      ∧ getMaxClaimsPerBlock store = 1
      ∧ (pendingClaims store).countP (sendable 1100 store) = 1
      ∧ (beginBlocker chainIca (acceptingBlock 1100 2) store).2.length = 0 := by
  refine ⟨_, rfl, ⟨by decide +kernel, rfl, rfl, by decide⟩, acceptingBlock_accepts 1100 2, ?_, ?_,
    ?_, ?_⟩ <;> decide +kernel

end MaanyDex.GenesisMint
