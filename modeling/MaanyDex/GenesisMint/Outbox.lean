/-
The store of `x/genesismint` as a state of the retry protocol.

The joined string `provider|escrow` is the claim, a channel and a sequence are the
packet.  `boxOf` reads the claimed index, the pending queue, the in-flight time
stamps and the packet map off the store.  `Inv` says that the store only holds
entries of the module and that they are consistent: queued claims and mapped
claims contain a `|`, so that the readers of joined strings find the parts that
were written or at least parts with the same join, and the in-flight marker and
its time stamp come and go together.

Under `Inv`, the code makes steps of the protocol.
-/
import MaanyDex.GenesisMint.ClaimIds
import MaanyDex.Lib.Outbox

namespace MaanyDex.GenesisMint

open KVStore

open Outbox

/-! ### Block times -/

/-- A block time in nanoseconds.  Block times are protobuf time stamps, which lie between the
years 1 and 9999. -/
structure BlockTime where
  unixNano : ℤ
  lower : -62135596800 * 10 ^ 9 ≤ unixNano
  upper : unixNano < 253402300800 * 10 ^ 9

variable (t : BlockTime)

/-- `Unix`: the seconds, without the fraction. -/
def BlockTime.unix : ℤ := t.unixNano / 10 ^ 9

lemma BlockTime.unix_bounds : -62135596800 ≤ t.unix ∧ t.unix ≤ 253402300799 := by
  have := t.lower
  have := t.upper
  unfold unix
  omega

/-- Differences of block times fit into an `int64`. -/
lemma int64_sub (t u : BlockTime) : int64 (t.unix - u.unix) = t.unix - u.unix := by
  have := t.unix_bounds
  have := u.unix_bounds
  exact Int.bmod_eq_of_le (by omega) (by omega)

lemma parseInt_blockTime : Decimal.parseInt 64 (Decimal.formatInt t.unix) = some t.unix := by
  have := t.unix_bounds
  exact Decimal.parseInt_formatInt (by norm_num) (by omega) (by omega)

variable {n : ℕ}

/-- A timeout that an `int64` can hold is read as it is. -/
lemma int64_natCast (h : n < 2 ^ 63) : int64 n = n := Int.bmod_eq_of_le (by omega) (by omega)

/-! ### Consistent stores -/

/-- The store holds entries of the module only, and they are consistent. -/
structure Inv (store : KVStore) : Prop where
  typed : ∀ k v, store.get k = some v → ∃ slot : Slot, k = slot.key
  pending : ∀ c v, store.get (Slot.pending c).key = some v → bar ∈ c
  route : ∀ ch n c, store.get (Slot.packet ch n).key = some c → bar ∈ c
  inflight : ∀ c, store.get (Slot.inflight c).key = none
      ∧ store.get (Slot.inflightAt c).key = none ∨
    ∃ t : BlockTime, store.get (Slot.inflight c).key = some [1]
      ∧ store.get (Slot.inflightAt c).key = some (Decimal.formatInt t.unix)

/-- What may be written to an entry outside the in-flight markers. -/
def Writable : Slot → Bytes → Prop
  | .pending c, _ => bar ∈ c
  | .packet _ _, v => bar ∈ v
  | .inflight _, _ => False
  | .inflightAt _, _ => False
  | _, _ => True

section Inv

variable {store : KVStore} {slot : Slot} {v c : Bytes}

lemma Writable.key_ne (hw : Writable slot v) (c : Bytes) :
    slot.key ≠ (Slot.inflight c).key ∧ slot.key ≠ (Slot.inflightAt c).key := by
  constructor
  all_goals
    intro e
    obtain rfl := Slot.key_injective e
    exact hw

lemma Inv.set (h : Inv store) (hw : Writable slot v) : Inv (store.set slot.key v) := by
  constructor
  · intro k v' hk
    rw [get_set] at hk
    split at hk
    · rename_i e
      exact ⟨slot, e.symm⟩
    · exact h.typed k v' hk
  · intro c v' hk
    rw [get_set] at hk
    split at hk
    · rename_i e
      obtain rfl := Slot.key_injective e
      exact hw
    · exact h.pending c v' hk
  · intro ch n c hk
    rw [get_set] at hk
    split at hk
    · rename_i e
      obtain rfl := Slot.key_injective e
      cases hk
      exact hw
    · exact h.route ch n c hk
  · intro c
    obtain ⟨h₁, h₂⟩ := hw.key_ne c
    rw [get_set_of_ne h₁, get_set_of_ne h₂]
    exact h.inflight c

lemma get_of_get_delete {k k' : Bytes} (h : (store.delete k).get k' = some v) :
    store.get k' = some v := by
  rw [get_delete] at h
  split at h
  · cases h
  · exact h

lemma Inv.delete (h : Inv store) (hw : ∃ v, Writable slot v) : Inv (store.delete slot.key) := by
  obtain ⟨w, hw⟩ := hw
  refine ⟨fun k v hk => h.typed k v (get_of_get_delete hk),
    fun c v hk => h.pending c v (get_of_get_delete hk),
    fun ch n c hk => h.route ch n c (get_of_get_delete hk), ?_⟩
  intro c
  obtain ⟨h₁, h₂⟩ := hw.key_ne c
  rw [get_delete_of_ne h₁, get_delete_of_ne h₂]
  exact h.inflight c

/-- `setInflight`, by the claim. -/
def mark (now : ℤ) (store : KVStore) (c : Bytes) : KVStore :=
  (store.set (Slot.inflight c).key [1]).set (Slot.inflightAt c).key (Decimal.formatInt now)

/-- `clearInflight`, by the claim. -/
def unmark (store : KVStore) (c : Bytes) : KVStore :=
  (store.delete (Slot.inflight c).key).delete (Slot.inflightAt c).key

lemma mark_get {now : ℤ} (h₁ : slot ≠ .inflight c) (h₂ : slot ≠ .inflightAt c) :
    (mark now store c).get slot.key = store.get slot.key := by
  rw [mark, get_set_of_ne (by simpa using h₂.symm), get_set_of_ne (by simpa using h₁.symm)]

lemma unmark_get (h₁ : slot ≠ .inflight c) (h₂ : slot ≠ .inflightAt c) :
    (unmark store c).get slot.key = store.get slot.key := by
  rw [unmark, get_delete_of_ne (by simpa using h₂.symm), get_delete_of_ne (by simpa using h₁.symm)]

lemma Inv.mark (h : Inv store) (t : BlockTime) (c : Bytes) : Inv (mark t.unix store c) := by
  constructor
  · intro k v hk
    rw [GenesisMint.mark, get_set, get_set] at hk
    split at hk
    · rename_i e
      exact ⟨_, e.symm⟩
    · split at hk
      · rename_i e
        exact ⟨_, e.symm⟩
      · exact h.typed k v hk
  · intro c' v hk
    rw [mark_get (by simp) (by simp)] at hk
    exact h.pending c' v hk
  · intro ch n c' hk
    rw [mark_get (by simp) (by simp)] at hk
    exact h.route ch n c' hk
  · intro c'
    by_cases hc : c' = c
    · subst hc
      right
      refine ⟨t, ?_, get_set_self⟩
      rw [GenesisMint.mark, get_set_of_ne (by simp), get_set_self]
    · rw [mark_get (by simpa using hc) (by simp), mark_get (by simp) (by simpa using hc)]
      exact h.inflight c'

lemma Inv.unmark (h : Inv store) (c : Bytes) : Inv (unmark store c) := by
  constructor
  · intro k v hk
    exact h.typed k v (get_of_get_delete (get_of_get_delete hk))
  · intro c' v hk
    exact h.pending c' v (get_of_get_delete (get_of_get_delete hk))
  · intro ch n c' hk
    exact h.route ch n c' (get_of_get_delete (get_of_get_delete hk))
  · intro c'
    by_cases hc : c' = c
    · subst hc
      left
      refine ⟨?_, get_delete_self⟩
      rw [GenesisMint.unmark, get_delete_of_ne (by simp), get_delete_self]
    · rw [unmark_get (by simpa using hc) (by simp), unmark_get (by simp) (by simpa using hc)]
      exact h.inflight c'

end Inv

/-! ### The store as a protocol state -/

/-- A packet: its channel and its sequence. -/
abbrev PacketID := Bytes × ℕ

/-- What happened to the packets of the module. -/
abbrev LogEntry := Outbox.Entry Bytes PacketID

/-- The protocol state of a store. -/
def boxOf (store : KVStore) (now : ℤ) (log : List LogEntry) : Box Bytes PacketID where
  claimed := {c | store.get (Slot.claimed c).key ≠ none}
  pending := {c | store.get (Slot.pending c).key ≠ none}
  inflight c := (store.get (Slot.inflightAt c).key).bind (Decimal.parseInt 64)
  route p := store.get (Slot.packet p.1 p.2).key
  now := now
  log := log

/-- The entries that a protocol state is read from. -/
def Slot.observed : Slot → Prop
  | .claimed _ | .pending _ | .packet _ _ | .inflightAt _ => True
  | _ => False

section Box

variable {store store' : KVStore} {now : ℤ} {log : List LogEntry} {c : Bytes}
  {t : BlockTime} {T : ℤ} {G : List LogEntry → PacketID → Prop}

lemma boxOf_congr (h : ∀ slot : Slot, slot.observed → store'.get slot.key = store.get slot.key) :
    boxOf store' now log = boxOf store now log := by
  have hc (c) := h (.claimed c) trivial
  have hp (c) := h (.pending c) trivial
  have hi (c) := h (.inflightAt c) trivial
  have hr (ch n) := h (.packet ch n) trivial
  simp [boxOf, hc, hp, hi, hr]

/-- Removing the mark of a claim takes it out of flight. -/
lemma boxOf_unmark : boxOf (unmark store c) now log
    = { boxOf store now log with
        inflight := Function.update (boxOf store now log).inflight c none } := by
  ext1
  · simp [boxOf, unmark_get]
  · simp [boxOf, unmark_get]
  · funext c'
    by_cases hc : c' = c
    · subst hc
      simp [boxOf, unmark]
    · have hne : Slot.inflightAt c' ≠ .inflightAt c := by simpa using hc
      simp [boxOf, unmark_get (by simp) hne, hc]
  · funext p
    simp [boxOf, unmark_get]
  · rfl
  · rfl

/-- Mapping a packet and marking its claim is a send. -/
lemma boxOf_mark (ch : Bytes) (n : ℕ) :
    boxOf (mark t.unix (store.set (Slot.packet ch n).key c) c) t.unix
        (log ++ [.sent c (ch, n) t.unix])
      = { boxOf store t.unix log with
          inflight := Function.update (boxOf store t.unix log).inflight c (some t.unix)
          route := Function.update (boxOf store t.unix log).route (ch, n) (some c)
          log := log ++ [.sent c (ch, n) t.unix] } := by
  ext1
  · simp [boxOf, mark_get, get_set]
  · simp [boxOf, mark_get, get_set]
  · funext c'
    by_cases hc : c' = c
    · subst hc
      simp [boxOf, mark, parseInt_blockTime]
    · have hne : Slot.inflightAt c' ≠ .inflightAt c := by simpa using hc
      simp [boxOf, mark_get (by simp) hne, get_set, hc]
  · funext p
    obtain ⟨ch', n'⟩ := p
    by_cases hp : (ch', n') = (ch, n)
    · obtain ⟨rfl, rfl⟩ := Prod.mk.inj hp
      simp [boxOf, mark_get]
    · have hne : ¬ (ch = ch' ∧ n = n') := by
        rintro ⟨rfl, rfl⟩
        exact hp rfl
      simp [boxOf, mark_get, get_set, hne, hp]
  · rfl
  · rfl

/-- Consuming the map entry of a packet removes its route. -/
lemma boxOf_delete_packet (ch : Bytes) (n : ℕ) :
    boxOf (store.delete (Slot.packet ch n).key) now log
      = { boxOf store now log with
          route := Function.update (boxOf store now log).route (ch, n) none } := by
  ext1
  · simp [boxOf, get_delete]
  · simp [boxOf, get_delete]
  · simp [boxOf, get_delete]
  · funext p
    obtain ⟨ch', n'⟩ := p
    by_cases hp : (ch', n') = (ch, n)
    · obtain ⟨rfl, rfl⟩ := Prod.mk.inj hp
      simp [boxOf]
    · have hne : ¬ (ch = ch' ∧ n = n') := by
        rintro ⟨rfl, rfl⟩
        exact hp rfl
      simp [boxOf, get_delete, hne, hp]
  · rfl
  · rfl

/-- Deleting a pending claim takes it out of the queue. -/
lemma boxOf_delete_pending :
    boxOf (store.delete (Slot.pending c).key) now log
      = { boxOf store now log with pending := (boxOf store now log).pending \ {c} } := by
  ext1
  · simp [boxOf, get_delete]
  · ext c'
    by_cases hc : c = c'
    · subst hc
      simp [boxOf]
    · simp [boxOf, get_delete, hc, Ne.symm hc]
  · simp [boxOf, get_delete]
  · simp [boxOf, get_delete]
  · rfl
  · rfl

lemma Inv.inflight_eq_none (h : Inv store) {pair : Bytes × Bytes}
    (hi : isInflight store pair.1 pair.2 = false) :
    (boxOf store now log).inflight (claimID pair.1 pair.2) = none := by
  have hflag : store.get (Slot.inflight (claimID pair.1 pair.2)).key = none := has_eq_false.mp hi
  rcases h.inflight (claimID pair.1 pair.2) with ⟨-, hat⟩ | ⟨t, hflag', -⟩
  · simp [boxOf, hat]
  · rw [hflag] at hflag'
    cases hflag'

variable {limit : ℕ}

/-- An expired marker is in flight for at least the timeout. -/
lemma Inv.expired (h : Inv store) {pair : Bytes × Bytes}
    (he : inflightExpired t.unix store pair.1 pair.2 limit = true) :
    ∃ t₀, (boxOf store now log).inflight (claimID pair.1 pair.2) = some t₀
      ∧ t₀ + int64 limit ≤ t.unix := by
  have hkey : inflightAtKey pair.1 pair.2 = (Slot.inflightAt (claimID pair.1 pair.2)).key := rfl
  unfold inflightExpired at he
  rcases h.inflight (claimID pair.1 pair.2) with ⟨-, hat⟩ | ⟨t₀, -, hat⟩
  · simp [hkey, hat] at he
  · refine ⟨t₀.unix, by simp [boxOf, hat, parseInt_blockTime], ?_⟩
    rw [hkey, hat] at he
    split at he
    · rename_i e
      cases e
    · cases he
    · rename_i bz hbz e
      obtain rfl := Option.some.inj e
      rw [parseInt_blockTime] at he
      simp only [ge_iff_le, decide_eq_true_eq] at he
      rw [int64_sub] at he
      omega

/-! ### A block is a sequence of steps -/

/-- The log entries of the claims sent by a block. -/
def sends (now : ℤ) (sent : List SentClaim) : List LogEntry :=
  sent.map fun c => .sent (claimID c.providerChainID c.escrowID) (c.channelID, c.sequence) now

/-- The entries that blocks and acknowledgement errors leave alone: the claimed
index, the queue and the configuration. -/
def Slot.kept : Slot → Prop
  | .claimed _ | .pending _ => True
  | .icaConnectionID | .icaOwner | .icaTimeoutSeconds | .maxClaimsPerBlock => True
  | _ => False

/-- What a part of a block does to the store: steps of the protocol, which keep the
store consistent and leave the queue, the claimed index and the configuration
alone. -/
structure Flushes (T : ℤ) (G : List LogEntry → PacketID → Prop) (t : BlockTime)
    (log : List LogEntry) (acc acc' : KVStore × List SentClaim) : Prop where
  steps : Steps T G (boxOf acc.1 t.unix (log ++ sends t.unix acc.2))
    (boxOf acc'.1 t.unix (log ++ sends t.unix acc'.2))
  inv : Inv acc'.1
  kept : ∀ slot : Slot, slot.kept → acc'.1.get slot.key = acc.1.get slot.key

variable {acc : KVStore × List SentClaim}

lemma Flushes.refl (h : Inv acc.1) : Flushes T G t log acc acc :=
  ⟨Relation.ReflTransGen.refl, h, fun _ _ => rfl⟩

lemma Flushes.trans {acc₁ acc₂ : KVStore × List SentClaim} (h₁ : Flushes T G t log acc acc₁)
    (h₂ : Flushes T G t log acc₁ acc₂) : Flushes T G t log acc acc₂ := by
  refine ⟨h₁.steps.trans h₂.steps, h₂.inv, ?_⟩
  intro slot hk
  rw [h₂.kept slot hk, h₁.kept slot hk]

variable {env : IcaEnv} {flush : Flush} {pair : Bytes × Bytes} {sent : List SentClaim}

/-- Sending a pending claim that is not in flight. -/
lemma sendClaim_flushes (hnow : flush.block.now = t.unix) (hinv : Inv store)
    (hp : store.get (Slot.pending (claimID pair.1 pair.2)).key ≠ none)
    (hi : (boxOf store t.unix (log ++ sends t.unix sent)).inflight (claimID pair.1 pair.2) = none) :
    Flushes T G t log (store, sent) (sendClaim env flush pair store sent) := by
  rcases sendClaim_cases env flush pair store sent with e | ⟨seq, -, -, -, -, e⟩
  · rw [e]
    exact Flushes.refl hinv
  · rw [e]
    have hmark : markSent flush pair seq store = mark t.unix
        (store.set (Slot.packet flush.channelID seq).key (claimID pair.1 pair.2))
        (claimID pair.1 pair.2) := by
      rw [← hnow]
      rfl
    have hlog : log ++ sends t.unix (sent ++ [sentClaim env flush pair seq])
        = (log ++ sends t.unix sent)
          ++ [.sent (claimID pair.1 pair.2) (flush.channelID, seq) t.unix] := by
      simp [sends, sentClaim]
    have hmap : Inv (store.set (Slot.packet flush.channelID seq).key (claimID pair.1 pair.2)) :=
      hinv.set (by simp [Writable, claimID])
    constructor
    · show Steps T G _ (boxOf (markSent flush pair seq store) t.unix _)
      rw [hmark, hlog, boxOf_mark]
      exact Relation.ReflTransGen.single (Step.send _ _ hp hi)
    · show Inv (markSent flush pair seq store)
      rw [hmark]
      exact hmap.mark t _
    · intro slot hk
      show (markSent flush pair seq store).get slot.key = store.get slot.key
      rw [hmark, mark_get, get_set_of_ne]
      · rw [Ne, Slot.key_inj]
        rintro rfl
        exact hk
      · rintro rfl
        exact hk
      · rintro rfl
        exact hk

lemma clearInflight_flushes (hinv : Inv store)
    (he : inflightExpired t.unix store pair.1 pair.2 limit = true) :
    Flushes (int64 limit) G t log (store, sent) (clearInflight store pair.1 pair.2, sent) := by
  obtain ⟨t₀, hi, hT⟩ : ∃ t₀, (boxOf store t.unix (log ++ sends t.unix sent)).inflight
      (claimID pair.1 pair.2) = some t₀ ∧ t₀ + int64 limit ≤ t.unix := hinv.expired he
  have hunmark : clearInflight store pair.1 pair.2 = unmark store (claimID pair.1 pair.2) := rfl
  constructor
  · show Steps _ G _ (boxOf (clearInflight store pair.1 pair.2) t.unix _)
    rw [hunmark, boxOf_unmark]
    exact Relation.ReflTransGen.single (Step.expire _ t₀ hi hT)
  · exact hinv.unmark _
  · intro slot hk
    show (clearInflight store pair.1 pair.2).get slot.key = store.get slot.key
    rw [hunmark, unmark_get]
    · rintro rfl
      exact hk
    · rintro rfl
      exact hk

/-- The configured timeout is read from one entry. -/
lemma getICATimeoutSeconds_congr
    (h : store'.get Slot.icaTimeoutSeconds.key = store.get Slot.icaTimeoutSeconds.key) :
    getICATimeoutSeconds store' = getICATimeoutSeconds store := by
  have h' : store'.get configICATimeoutSecondsKey = store.get configICATimeoutSecondsKey := h
  simp only [getICATimeoutSeconds, getConfigUint, h']

lemma flushClaim_flushes (hnow : flush.block.now = t.unix)
    (hinv : Inv acc.1) (hp : acc.1.get (Slot.pending (claimID pair.1 pair.2)).key ≠ none) :
    Flushes (int64 (getICATimeoutSeconds acc.1)) G t log acc (flushClaim env flush acc pair) := by
  rcases flushClaim_cases env flush acc pair with e | ⟨hi, e⟩ | ⟨he, e⟩
  · rw [e]
    exact Flushes.refl hinv
  · rw [e]
    exact sendClaim_flushes hnow hinv hp (hinv.inflight_eq_none hi)
  · rw [e]
    rw [hnow] at he
    have hclear : Flushes (int64 (getICATimeoutSeconds acc.1)) G t log acc
        (clearInflight acc.1 pair.1 pair.2, acc.2) := clearInflight_flushes hinv he
    refine hclear.trans (sendClaim_flushes hnow hclear.inv ?_ ?_)
    · rwa [hclear.kept (.pending _) trivial]
    · -- the marker was just cleared
      have hunmark : clearInflight acc.1 pair.1 pair.2 = unmark acc.1 (claimID pair.1 pair.2) := rfl
      rw [hunmark, boxOf_unmark]
      simp

/-- The whole loop, over claims that are pending when it starts. -/
lemma foldl_flushClaim_flushes {pairs : List (Bytes × Bytes)} (acc : KVStore × List SentClaim)
    (hnow : flush.block.now = t.unix) (hinv : Inv acc.1)
    (hp : ∀ pair ∈ pairs, acc.1.get (Slot.pending (claimID pair.1 pair.2)).key ≠ none) :
    Flushes (int64 (getICATimeoutSeconds acc.1)) G t log acc
      (pairs.foldl (flushClaim env flush) acc) := by
  induction pairs generalizing acc with
  | nil => exact Flushes.refl hinv
  | cons pair pairs ih =>
    have hone : Flushes (int64 (getICATimeoutSeconds acc.1)) G t log acc
        (flushClaim env flush acc pair) :=
      flushClaim_flushes hnow hinv (hp pair List.mem_cons_self)
    have hT : getICATimeoutSeconds (flushClaim env flush acc pair).1 = getICATimeoutSeconds acc.1 :=
      getICATimeoutSeconds_congr (hone.kept _ trivial)
    rw [List.foldl_cons]
    refine hone.trans ?_
    rw [← hT]
    apply ih _ hone.inv
    intro pair' hmem
    rw [hone.kept (.pending _) trivial]
    exact hp pair' (List.mem_cons_of_mem _ hmem)

lemma Inv.pending_of_listed (h : Inv store) (hl : pair ∈ listPendingClaims store limit) :
    store.get (Slot.pending (claimID pair.1 pair.2)).key ≠ none := by
  obtain ⟨k, v, htag, hg, hk⟩ := exists_key_of_listed hl
  obtain ⟨slot, rfl⟩ := h.typed k v hg
  have htag' := Slot.tag_prefix_key.mp htag
  cases slot with
  | pending c =>
    rw [pendingPair_key] at hk
    obtain ⟨rfl, -⟩ := Split.splitFirst_eq_some hk
    show store.get (Slot.pending (pair.1 ++ bar :: pair.2)).key ≠ none
    rw [hg]
    simp
  | _ => exact absurd htag' (of_decide_eq_false rfl)

lemma setDone_get {slot : Slot} (h : slot ≠ .done) :
    (setDone store).get slot.key = store.get slot.key := by
  refine get_set_of_ne (k := Slot.done.key) ?_
  rw [Ne, Slot.key_inj]
  exact h.symm

lemma Inv.setDone (hinv : Inv store) : Inv (setDone store) := by
  have h : Inv (store.set Slot.done.key [1]) := hinv.set trivial
  exact h

lemma boxOf_setDone : boxOf (setDone store) now log = boxOf store now log := by
  apply boxOf_congr
  intro slot hs
  apply setDone_get
  rintro rfl
  exact hs

lemma setDone_flushes (hinv : Inv store) : Flushes T G t log (store, sent) (setDone store, sent) := by
  refine ⟨?_, hinv.setDone, ?_⟩
  · show Steps T G _ (boxOf (setDone store) t.unix _)
    rw [boxOf_setDone]
  · intro slot hk
    apply setDone_get
    rintro rfl
    exact hk

lemma ensureICARegistered_flushes {ica : IcaKeeper} {conn owner : Bytes} (hinv : Inv store) :
    Flushes T G t log (store, sent) (ensureICARegistered env ica store conn owner, sent) := by
  have hget (slot : Slot) (h : slot.tag ≠ 0x13) :
      (ensureICARegistered env ica store conn owner).get slot.key = store.get slot.key := by
    apply ensureICARegistered_get
    rw [Slot.tag_prefix_key]
    exact h.symm
  have hbox : boxOf (ensureICARegistered env ica store conn owner) t.unix
      (log ++ sends t.unix sent) = boxOf store t.unix (log ++ sends t.unix sent) := by
    apply boxOf_congr
    intro slot hs
    apply hget
    cases slot <;> first | exact of_decide_eq_false rfl | exact hs.elim
  constructor
  · show Steps T G _ (boxOf (ensureICARegistered env ica store conn owner) t.unix _)
    rw [hbox]
  · have hset : Inv (store.set (Slot.icaPending (claimID conn owner)).key [1]) := hinv.set trivial
    have hdel : Inv (store.delete (Slot.icaPending (claimID conn owner)).key) :=
      hinv.delete ⟨[], trivial⟩
    show Inv (ensureICARegistered env ica store conn owner)
    unfold ensureICARegistered
    split
    · exact hinv
    · split
      · split
        · exact hdel
        · exact hinv
      · split
        · exact hinv
        · split
          · exact hset
          · exact hinv
  · intro slot hk
    apply hget
    cases slot <;> first | exact of_decide_eq_false rfl | exact hk.elim

lemma flushPending_flushes (hnow : flush.block.now = t.unix) (hinv : Inv store) :
    Flushes (int64 (getICATimeoutSeconds store)) G t log (store, []) (flushPending env flush store) := by
  rcases flushPending_cases env flush store with ⟨-, e⟩ | e
  · rw [e]
    split
    · exact Flushes.refl hinv
    · exact setDone_flushes hinv
  · rw [e]
    exact foldl_flushClaim_flushes (store, []) hnow hinv
      fun pair hmem => hinv.pending_of_listed hmem

/-- **`BeginBlocker` refines the protocol.** -/
lemma beginBlocker_flushes {block : Block} (hnow : block.now = t.unix) (hinv : Inv store) :
    Flushes (int64 (getICATimeoutSeconds store)) G t log (store, []) (beginBlocker env block store) := by
  rcases beginBlocker_cases env block store with e | ⟨-, store₁, rfl, e⟩
  · rw [e]
    exact Flushes.refl hinv
  · have hreg : Flushes (int64 (getICATimeoutSeconds store)) G t log (store, [])
        (ensureICARegistered env block.ica store (getICAConnectionID store) (getICAOwner store),
          []) := ensureICARegistered_flushes hinv
    rcases e with e | ⟨flush, rfl, -, e⟩
    · rw [e]
      exact hreg
    · rw [e]
      refine hreg.trans ?_
      have hT := getICATimeoutSeconds_congr (hreg.kept .icaTimeoutSeconds trivial)
      simp only at hT
      rw [← hT]
      exact flushPending_flushes hnow hreg.inv

/-! ### Acknowledgements and timeouts are steps -/

variable {ch : Bytes}

lemma consumePacketMapping_eq (hinv : Inv store) (h : store.get (Slot.packet ch n).key = some c) :
    ∃ pair : Bytes × Bytes, claimID pair.1 pair.2 = c ∧
      consumePacketMapping store ch n = some (pair, store.delete (Slot.packet ch n).key) := by
  obtain ⟨a, b, rfl⟩ := List.append_of_mem (hinv.route ch n c h)
  obtain ⟨⟨p, e⟩, hs⟩ := Split.splitFirst_append_isSome bar a b
  refine ⟨(p, e), (Split.splitFirst_eq_some hs).1.symm, ?_⟩
  have h' : store.get (icaPacketKey ch n) = some (a ++ bar :: b) := h
  simp [consumePacketMapping, h', hs, Slot.key]

lemma consumePacketMapping_eq_none
    (h : store.get (Slot.packet ch n).key = none) : consumePacketMapping store ch n = none := by
  have h' : store.get (icaPacketKey ch n) = none := h
  simp [consumePacketMapping, h']

/-- The store after a mapped packet of `c` was resolved without success. -/
def released (store : KVStore) (ch : Bytes) (n : ℕ) (c : Bytes) : KVStore :=
  unmark (store.delete (Slot.packet ch n).key) c

lemma retryClaim_eq (hinv : Inv store) (h : store.get (Slot.packet ch n).key = some c) :
    retryClaim store ch n = released store ch n c := by
  obtain ⟨pair, rfl, e⟩ := consumePacketMapping_eq hinv h
  simp only [retryClaim, e]
  rfl

lemma Inv.released (hinv : Inv store) (ch : Bytes) (n : ℕ) (c : Bytes) :
    Inv (released store ch n c) := by
  have h : Inv (store.delete (Slot.packet ch n).key) := hinv.delete ⟨[bar], by simp [Writable]⟩
  exact h.unmark c

lemma boxOf_released : boxOf (released store ch n c) now log
    = { boxOf store now log with
        inflight := Function.update (boxOf store now log).inflight c none
        route := Function.update (boxOf store now log).route (ch, n) none } := by
  rw [released, boxOf_unmark, boxOf_delete_packet]

lemma released_get {slot : Slot} (hk : slot.kept) :
    (released store ch n c).get slot.key = store.get slot.key := by
  rw [released, unmark_get, get_delete_of_ne]
  · rw [Ne, Slot.key_inj]
    rintro rfl
    exact hk
  · rintro rfl
    exact hk
  · rintro rfl
    exact hk

/-- What resolving a packet does: a step of the protocol that is noted as `entry`,
and that leaves alone all kept entries but the pending claim of the packet, when
`settles` is set. -/
structure Resolves (T : ℤ) (G : List LogEntry → PacketID → Prop) (ch : Bytes) (n : ℕ)
    (entry : LogEntry) (settles : Prop) (now : ℤ) (log : List LogEntry)
    (store store' : KVStore) : Prop where
  steps : Steps T G (boxOf store now log) (boxOf store' now (log ++ [entry]))
  inv : Inv store'
  kept : ∀ slot : Slot, slot.kept →
    (∀ c, settles → store.get (Slot.packet ch n).key = some c → slot ≠ .pending c) →
    store'.get slot.key = store.get slot.key

/-- **Error acknowledgements and timeouts refine the protocol.** -/
lemma retryClaim_resolves (hinv : Inv store)
    (hG : ∀ c, store.get (Slot.packet ch n).key = some c → G log (ch, n)) :
    Resolves T G ch n (.failed (ch, n)) False now log store (retryClaim store ch n) := by
  rcases e : store.get (Slot.packet ch n).key with - | c
  · have hsame : retryClaim store ch n = store := by
      simp only [retryClaim, consumePacketMapping_eq_none e]
    rw [hsame]
    refine ⟨?_, hinv, fun _ _ _ => rfl⟩
    exact Relation.ReflTransGen.single (Step.note (ch, n) _ e (.inr rfl))
  · rw [retryClaim_eq hinv e]
    refine ⟨?_, hinv.released ch n c, fun _ hk _ => released_get hk⟩
    rw [boxOf_released]
    exact Relation.ReflTransGen.single (Step.fail (b := boxOf store now log) (ch, n) c e (hG c e))

/-- A successful acknowledgement of a mapped packet settles its claim; the done flag
is set when nothing is left. -/
lemma handleICAAckSuccess_eq (hinv : Inv store) (h : store.get (Slot.packet ch n).key = some c) :
    ∃ settled, settled = (released store ch n c).delete (Slot.pending c).key ∧
      (handleICAAckSuccess store ch n = settled ∨
        hasAnyPendingClaims settled = false ∧ handleICAAckSuccess store ch n = setDone settled) := by
  obtain ⟨pair, rfl, e⟩ := consumePacketMapping_eq hinv h
  refine ⟨_, rfl, ?_⟩
  have heq : handleICAAckSuccess store ch n =
      (let settled := (released store ch n (claimID pair.1 pair.2)).delete
        (Slot.pending (claimID pair.1 pair.2)).key
      if hasAnyPendingClaims settled || hasAnyInflight settled then settled else setDone settled) := by
    simp only [handleICAAckSuccess, e]
    rfl
  rw [heq]
  simp only
  split
  · exact .inl rfl
  · rename_i hnone
    refine .inr ⟨?_, rfl⟩
    rw [Bool.or_eq_true, not_or] at hnone
    exact Bool.eq_false_iff.mpr hnone.1

/-- **Success acknowledgements refine the protocol.** -/
lemma handleICAAckSuccess_resolves (hinv : Inv store) :
    Resolves T G ch n (.acked (ch, n)) True now log store (handleICAAckSuccess store ch n) := by
  rcases e : store.get (Slot.packet ch n).key with - | c
  · have hsame : handleICAAckSuccess store ch n = store := by
      simp only [handleICAAckSuccess, consumePacketMapping_eq_none e]
    rw [hsame]
    refine ⟨?_, hinv, fun _ _ _ => rfl⟩
    exact Relation.ReflTransGen.single (Step.note (ch, n) _ e (.inl rfl))
  · obtain ⟨settled, hs, hcases⟩ := handleICAAckSuccess_eq hinv e
    have hstep : Steps T G (boxOf store now log) (boxOf settled now (log ++ [.acked (ch, n)])) := by
      rw [hs, boxOf_delete_pending, boxOf_released]
      exact Relation.ReflTransGen.single (Step.ack (b := boxOf store now log) (ch, n) c e)
    have hsettled : Inv settled := by
      rw [hs]
      exact (hinv.released ch n c).delete ⟨[], hinv.route ch n c e⟩
    have hkept : ∀ slot : Slot, slot.kept → slot ≠ .pending c →
        settled.get slot.key = store.get slot.key := by
      intro slot hk hne
      rw [hs, get_delete_of_ne (by rw [Ne, Slot.key_inj]; exact hne.symm), released_get hk]
    rcases hcases with hcase | ⟨-, hcase⟩
    · rw [hcase]
      exact ⟨hstep, hsettled, fun slot hk hne => hkept slot hk (hne c trivial e)⟩
    · rw [hcase]
      refine ⟨?_, hsettled.setDone, ?_⟩
      · rw [boxOf_setDone]
        exact hstep
      · intro slot hk hne
        rw [← hkept slot hk (hne c trivial e)]
        apply setDone_get
        rintro rfl
        exact hk

end Box

end MaanyDex.GenesisMint
