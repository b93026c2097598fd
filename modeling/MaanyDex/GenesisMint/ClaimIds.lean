/-
Claim identifiers on their way through the store.

A pending claim is stored under `provider|escrow`, and a packet is mapped to the
same string.  Both readers, `listPendingClaims` and `consumePacketMapping`, split
at the first `|`.  They return the pair that was written exactly when the
provider chain id does not contain `|` (`faithfulIds_iff`).
-/
import MaanyDex.GenesisMint.BeginBlock

namespace MaanyDex.GenesisMint

open KVStore List

variable {store : KVStore} {provider escrow : Bytes}

/-- What `listPendingClaims` makes of the key of a pending claim. -/
@[simp] lemma pendingPair_key (c : Bytes) :
    pendingPair (Slot.pending c).key = Split.splitFirst bar c := by
  have hd : (Slot.pending c).key.drop 1 = ascii "pclaim|" ++ c := rfl
  simp only [pendingPair, hd, take_left, drop_left]
  rcases c with - | ⟨b, c⟩
  · rfl
  · simp

/-- The key of a pending claim is in the range that `listPendingClaims` visits. -/
lemma tag_pendingKey (c : Bytes) : [0x12] <+: (Slot.pending c).key := Slot.tag_prefix_key.mpr rfl

/-- The pairs written by `enqueuePendingClaim` and `mapPacketToEscrow` are the
pairs that are read back, and the message to the provider names the escrow. -/
structure FaithfulIds (env : IcaEnv) (provider escrow : Bytes) : Prop where
  listed : ∀ store limit, (store.iterate [0x12]).length < limit →
    (provider, escrow) ∈ listPendingClaims (enqueuePendingClaim store provider escrow) limit
  consumed : ∀ store channelID sequence, ∃ store',
    consumePacketMapping (mapPacketToEscrow store channelID sequence provider escrow)
      channelID sequence = some ((provider, escrow), store')
  reported : ∀ store block, hasAnyPendingClaims store = false →
    ∀ c ∈ (beginBlocker env block (enqueuePendingClaim store provider escrow)).2,
      ∃ sender, c.msg = buildProviderMarkClaimAny sender escrow env.chainID

variable {limit : ℕ} {pair : Bytes × Bytes}

lemma exists_key_of_listed (h : pair ∈ listPendingClaims store limit) :
    ∃ k v, [0x12] <+: k ∧ store.get k = some v ∧ pendingPair k = some pair := by
  obtain ⟨⟨k, v⟩, hm, hk⟩ := mem_filterMap.mp (mem_of_mem_take h)
  obtain ⟨hp, hg⟩ := mem_iterate.mp hm
  exact ⟨k, v, hp, hg, hk⟩

lemma bar_notMem_of_listed (h : (provider, escrow) ∈ listPendingClaims store limit) :
    bar ∉ provider := by
  obtain ⟨k, v, -, -, hk⟩ := exists_key_of_listed h
  unfold pendingPair at hk
  simp only at hk
  split at hk
  · exact (Split.splitFirst_eq_some hk).2
  · cases hk

lemma listed_of_get {c v : Bytes}
    (hg : store.get (Slot.pending c).key = some v) (hc : Split.splitFirst bar c = some pair)
    (hlimit : (store.iterate [0x12]).length ≤ limit) : pair ∈ listPendingClaims store limit := by
  have hlen : ((store.iterate [0x12]).filterMap fun e => pendingPair e.1).length ≤ limit :=
    (length_filterMap_le _ _).trans hlimit
  rw [listPendingClaims, take_of_length_le hlen, mem_filterMap]
  refine ⟨((Slot.pending c).key, v), mem_iterate.mpr ⟨tag_pendingKey c, hg⟩, ?_⟩
  rw [pendingPair_key, hc]

lemma length_iterate_enqueue :
    ((enqueuePendingClaim store provider escrow).iterate [0x12]).length
      ≤ (store.iterate [0x12]).length + 1 := by
  have hsub : ((enqueuePendingClaim store provider escrow).iterate [0x12]).map Prod.fst
      ⊆ pendingClaimKey provider escrow :: (store.iterate [0x12]).map Prod.fst := by
    intro k hk
    obtain ⟨⟨k', v⟩, hm, rfl⟩ := mem_map.mp hk
    obtain ⟨hp, hg⟩ := mem_iterate.mp hm
    rw [enqueuePendingClaim, get_set] at hg
    split at hg
    · rename_i e
      rw [← e]
      exact mem_cons_self
    · apply mem_cons_of_mem
      exact mem_map.mpr ⟨(k', v), mem_iterate.mpr ⟨hp, hg⟩, rfl⟩
  have hlen := (nodup_keys_iterate.subperm hsub).length_le
  simpa using hlen

/-- When nothing else is pending, every claim that a block sends comes from the
entry just queued. -/
lemma sent_of_single {env : IcaEnv} {block : Block} {c : SentClaim}
    (hempty : hasAnyPendingClaims store = false)
    (hc : c ∈ (beginBlocker env block (enqueuePendingClaim store provider escrow)).2) :
    ∃ pair flush seq, Split.splitFirst bar (claimID provider escrow) = some pair
      ∧ c = sentClaim env flush pair seq := by
  have hnil : store.iterate [0x12] = [] := by simpa [hasAnyPendingClaims] using hempty
  rcases beginBlocker_cases env block (enqueuePendingClaim store provider escrow) with
    e | ⟨-, store₁, rfl, e | ⟨flush, -, -, e⟩⟩
  · rw [e] at hc
    cases hc
  · rw [e] at hc
    cases hc
  · rw [e] at hc
    obtain ⟨pair, hlist, seq, rfl⟩ := mem_flushPending hc
    refine ⟨pair, flush, seq, ?_, rfl⟩
    obtain ⟨k, v, hp, hg, hk⟩ := exists_key_of_listed hlist
    -- registration does not write under the tag of pending claims
    have h13 : ¬ [0x13] <+: k := by
      rintro ⟨r, rfl⟩
      simp at hp
    rw [ensureICARegistered_get h13, enqueuePendingClaim, get_set,
      iterate_eq_nil_iff.mp hnil k hp] at hg
    split at hg
    · rename_i ek
      rw [← ek] at hk
      exact (pendingPair_key _).symm.trans hk
    · cases hg

/-- **Faithful claim identifiers**: for every provider chain id and every escrow id,
the identifiers survive if and only if the provider chain id does not contain `|`. -/
theorem faithfulIds_iff (env : IcaEnv) (provider escrow : Bytes) :
    FaithfulIds env provider escrow ↔ bar ∉ provider := by
  constructor
  · intro h
    exact bar_notMem_of_listed (h.listed ∅ (KVStore.iterate ∅ [0x12]).length.succ
      (Nat.lt_succ_self _))
  · intro hbar
    have hsplit : Split.splitFirst bar (claimID provider escrow) = some (provider, escrow) :=
      Split.splitFirst_append escrow hbar
    constructor
    · intro store limit hlimit
      exact listed_of_get get_set_self hsplit
        (length_iterate_enqueue.trans (Nat.succ_le_of_lt hlimit))
    · intro store channelID sequence
      refine ⟨(mapPacketToEscrow store channelID sequence provider escrow).delete
        (icaPacketKey channelID sequence), ?_⟩
      simp only [consumePacketMapping, mapPacketToEscrow, get_set_self, hsplit, Option.getD_some]
    · intro store block hempty c hc
      obtain ⟨pair, flush, seq, hpair, rfl⟩ := sent_of_single hempty hc
      obtain rfl : (provider, escrow) = pair := Option.some.inj (hsplit.symm.trans hpair)
      exact ⟨flush.icaAddr, rfl⟩

/-- Parameters that `ValidateBasic` accepts, with a `|` in the provider chain id. -/
def splitProvider : Params where
  providerClientId := ascii "07-tendermint-0"
  providerChainId := ascii "maany|1"
  allowedProviderDenom := ascii "umaany"
  mintDenom := ascii "umaany"
  genesisTrustedRoot := none
  useGenesisTrustedRoot := false

/-- The claim of escrow `7` comes back as escrow `1|7` of another provider. -/
theorem splitProvider_misreported :
    splitProvider.validateBasic = .ok ()
      ∧ listPendingClaims (enqueuePendingClaim ∅ splitProvider.providerChainId (ascii "7")) 10
          = [(ascii "maany", ascii "1|7")]
      ∧ ∀ env, ¬ FaithfulIds env splitProvider.providerChainId (ascii "7") := by
  refine ⟨by decide, by decide +kernel, ?_⟩
  intro env h
  have hbar := bar_notMem_of_listed (h.listed ∅ 1 (by decide))
  exact hbar (by decide)

end MaanyDex.GenesisMint
