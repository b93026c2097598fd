/-
The arithmetic of the timeout.

The configured timeout is a `uint64` number of seconds `T`.  The watchdog
converts it to `int64` and compares it with the elapsed seconds; `SendTx` is
given `uint64(time.Duration(T) * time.Second)`, that is `T * 10 ^ 9` modulo
`2 ^ 64`.  No bound is checked when the value is stored, so

* the watchdog counts seconds right exactly for `T < 2 ^ 63` (`inflightExpired_iff`);
* the timeout of the packet is right exactly for `T * 10 ^ 9 < 2 ^ 64`
  (`relativeTimeout_iff`).

The watchdog drops the fractions of both block times, and the packet does not.  So the watchdog
can be early by a part of a second.
-/
import MaanyDex.GenesisMint.Reporting

namespace MaanyDex.GenesisMint

variable (env : IcaEnv)

/-! ### A claim in flight -/

/-- The store in which the timeout was configured and the claim was sent later. -/
def waiting (store : KVStore) (T : UInt64) (pair : Bytes × Bytes) (started : BlockTime) : KVStore :=
  setInflight started.unix (setICATimeoutSeconds store T) pair.1 pair.2

section Waiting

variable {env} {store : KVStore} {T : UInt64} {pair : Bytes × Bytes} {started now : BlockTime}

lemma getICATimeoutSeconds_waiting :
    getICATimeoutSeconds (waiting store T pair started) = T.toNat := by
  have hkeep : (waiting store T pair started).get Slot.icaTimeoutSeconds.key
      = (setICATimeoutSeconds store T).get Slot.icaTimeoutSeconds.key :=
    mark_get (c := claimID pair.1 pair.2) (by simp) (by simp)
  rw [getICATimeoutSeconds_congr hkeep, setICATimeoutSeconds, getICATimeoutSeconds,
    getConfigUint_set T.toNat_lt]

/-- The watchdog compares the elapsed seconds with the converted timeout. -/
lemma inflightExpired_waiting :
    inflightExpired now.unix (waiting store T pair started) pair.1 pair.2
        (getICATimeoutSeconds (waiting store T pair started)) = true
      ↔ int64 T.toNat ≤ now.unix - started.unix := by
  have hat : (waiting store T pair started).get (inflightAtKey pair.1 pair.2)
      = some (Decimal.formatInt started.unix) := KVStore.get_set_self
  rw [getICATimeoutSeconds_waiting]
  unfold inflightExpired
  rw [hat]
  rcases hf : Decimal.formatInt started.unix with - | ⟨b, bs⟩
  · exact absurd hf (Decimal.formatInt_ne_nil _)
  · have hparse : Decimal.parseInt 64 (b :: bs) = some started.unix := by
      rw [← hf]
      exact parseInt_blockTime started
    simp [hparse, int64_sub]

lemma int64_neg {n : ℕ} (h : 2 ^ 63 ≤ n) (hlt : n < 2 ^ 64) : int64 n < 0 := by
  apply (Int.bmod_neg_iff (by omega) (by omega)).mpr
  exact .inr (by omega)

/-- **The watchdog** is right exactly for timeouts that an `int64` can hold. -/
lemma inflightExpired_iff (store : KVStore) (T : UInt64) (pair : Bytes × Bytes)
    (hlater : started.unix ≤ now.unix) :
    (inflightExpired now.unix (waiting store T pair started) pair.1 pair.2
        (getICATimeoutSeconds (waiting store T pair started)) = true
      ↔ (T.toNat : ℤ) ≤ now.unix - started.unix)
      ↔ T.toNat < 2 ^ 63 := by
  rw [inflightExpired_waiting]
  constructor
  · intro h
    by_contra hbig
    have hneg : int64 T.toNat < 0 := int64_neg (by omega) T.toNat_lt
    -- a negative limit has expired at once, long before the real one
    have hreal := h.mp (by omega)
    have := started.unix_bounds
    have := now.unix_bounds
    omega
  · intro hT
    rw [int64_natCast hT]

/-- **The timeout of the packet** is right exactly if the nanoseconds fit. -/
lemma relativeTimeout_iff (flush : Flush) (store : KVStore) (T : UInt64) (pair : Bytes × Bytes)
    (started : BlockTime) (hmarshal : ∀ msg, ∃ data, env.marshalCosmosTx [msg] = some data) :
    (∃ msg, askedTx env flush pair (waiting store T pair started) = some msg
        ∧ msg.relativeTimeout = T.toNat * 10 ^ 9)
      ↔ T.toNat * 10 ^ 9 < 2 ^ 64 := by
  obtain ⟨data, hdata⟩ := hmarshal (buildProviderMarkClaimAny flush.icaAddr pair.2 env.chainID)
  have hasked : askedTx env flush pair (waiting store T pair started)
      = some ⟨flush.owner, flush.connectionID, data, T.toNat * 10 ^ 9 % 2 ^ 64⟩ := by
    rw [askedTx, hdata, getICATimeoutSeconds_waiting]
    rfl
  constructor
  · rintro ⟨msg, hmsg, hexact⟩
    rw [hasked] at hmsg
    cases hmsg
    rw [← hexact]
    exact Nat.mod_lt _ (by norm_num)
  · intro hT
    exact ⟨_, hasked, Nat.mod_eq_of_lt hT⟩

end Waiting

/-- What the timeout arithmetic is for: the watchdog fires after `T` seconds, the packet
carries `T` seconds in nanoseconds, and so a claim is not sent again before the
packet of the first attempt has timed out. -/
structure TimeoutExact (flush : Flush) (store : KVStore) (T : UInt64) (pair : Bytes × Bytes)
    (started now : BlockTime) : Prop where
  expired : inflightExpired now.unix (waiting store T pair started) pair.1 pair.2
      (getICATimeoutSeconds (waiting store T pair started)) = true
    ↔ (T.toNat : ℤ) * 10 ^ 9 ≤ now.unixNano - started.unixNano
  relative : ∃ msg, askedTx env flush pair (waiting store T pair started) = some msg
    ∧ msg.relativeTimeout = T.toNat * 10 ^ 9
  patient : inflightExpired now.unix (waiting store T pair started) pair.1 pair.2
      (getICATimeoutSeconds (waiting store T pair started)) = true →
    ∀ msg, askedTx env flush pair (waiting store T pair started) = some msg →
      (msg.relativeTimeout : ℤ) ≤ now.unixNano - started.unixNano

/-- **Timeouts.**  For every stored timeout, every claim, every start and every later block time,
the arithmetic is exact if and only if the timeout in nanoseconds fits in a `uint64`, and the
fraction of the start does not make the watchdog early. -/
theorem timeout_exact_iff (flush : Flush) (store : KVStore) (T : UInt64) (pair : Bytes × Bytes)
    (started now : BlockTime) (hmarshal : ∀ msg, ∃ data, env.marshalCosmosTx [msg] = some data)
    (hlater : started.unixNano ≤ now.unixNano) :
    TimeoutExact env flush store T pair started now ↔ T.toNat * 10 ^ 9 < 2 ^ 64
      ∧ (now.unix - started.unix = T.toNat →
        started.unixNano % 10 ^ 9 ≤ now.unixNano % 10 ^ 9) := by
  have hwatch := inflightExpired_iff store T pair (Int.ediv_le_ediv (by decide) hlater)
  have hpacket := relativeTimeout_iff flush store T pair started hmarshal
  have hstarted : started.unix = started.unixNano / 10 ^ 9 := rfl
  have hnow : now.unix = now.unixNano / 10 ^ 9 := rfl
  constructor
  · intro h
    have hT := hpacket.mp h.relative
    refine ⟨hT, fun hsame => ?_⟩
    have helapsed := h.expired.mp ((hwatch.mpr (by omega)).mpr hsame.ge)
    omega
  · rintro ⟨hT, hfraction⟩
    have hexpired := hwatch.mpr (by omega)
    -- more seconds than `T` leave room for any fractions
    have hexact : (T.toNat : ℤ) ≤ now.unix - started.unix
        ↔ (T.toNat : ℤ) * 10 ^ 9 ≤ now.unixNano - started.unixNano := by omega
    obtain ⟨msg, hasked, hrelative⟩ := hpacket.mpr hT
    refine ⟨hexpired.trans hexact, ⟨msg, hasked, hrelative⟩, ?_⟩
    intro hexp msg' hasked'
    cases hasked.symm.trans hasked'
    rw [hrelative]
    exact_mod_cast hexact.mp (hexpired.mp hexp)

/-! ### Concrete timeouts -/

/-- A flush over the account of the concrete chain. -/
def chainFlush : Flush :=
  ⟨⟨1000, activeIca, fun _ _ _ => .failed⟩, ascii "mintburn-claims", ascii "connection-0",
    ascii "channel-0", ascii "maany1ica"⟩

/-- The longest timeout that works: a little over 584 years. -/
theorem timeout_exact_iff_longest :
    TimeoutExact chainIca chainFlush ∅ 18446744073 (ascii "maany-1", ascii "7")
      ⟨1000900 * 10 ^ 6, by decide, by decide⟩ ⟨1300100 * 10 ^ 6, by decide, by decide⟩ :=
  (timeout_exact_iff chainIca chainFlush ∅ 18446744073 (ascii "maany-1", ascii "7")
    ⟨1000900 * 10 ^ 6, by decide, by decide⟩ ⟨1300100 * 10 ^ 6, by decide, by decide⟩
    (fun _ => ⟨_, rfl⟩) (by decide)).mpr (by decide)

/-- What the watchdog says, and the timeout of the packet. -/
def watchdog (T : UInt64) (started now : BlockTime) : Bool × Option ℕ :=
  let store := waiting ∅ T (ascii "maany-1", ascii "7") started
  (inflightExpired now.unix store (ascii "maany-1") (ascii "7") (getICATimeoutSeconds store),
    (askedTx chainIca chainFlush (ascii "maany-1", ascii "7") store).map (·.relativeTimeout))

/-- One second more, and the packet times out in under a third of a second.  A timeout of
`2 ^ 63 + 1` seconds has expired in the block that sends the claim, and the packet lives on for
another second.  One of 300 seconds has expired after 299.2. -/
theorem timeout_wraps :
    watchdog 18446744074 chainTime chainTime = (false, some 290448384)
    ∧ watchdog 9223372036854775809 chainTime chainTime = (true, some 1000000000)
    ∧ watchdog 300 ⟨1000900 * 10 ^ 6, by decide, by decide⟩ ⟨1300100 * 10 ^ 6, by decide, by decide⟩
      = (true, some 300000000000) := by
  decide +kernel

end MaanyDex.GenesisMint
