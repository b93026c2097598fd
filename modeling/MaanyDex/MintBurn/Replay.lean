/-
Packets that are delivered again and again.

The receive handler mints a packet at most once, whatever is delivered in whatever order, and
what it mints in a run of deliveries is the sum over the packets that it answered itself with
success.  Which these are is read off the handler: with a wrapped application that accepts
nothing (`noApp`), only the privileged path can answer with success (`mintedAmount`).
-/
import MaanyDex.MintBurn.Backing

namespace MaanyDex.MintBurn

open List

variable {env : Env} {s s' : State} {packet : Packet} {amt : ℤ}

/-! ### Identities -/

/-- What a packet is on the receiving chain. -/
structure Identity where
  destinationPort : Bytes
  destinationChannel : Bytes
  sequence : ℕ
  deriving DecidableEq

def Packet.identity (packet : Packet) : Identity where
  destinationPort := packet.destinationPort
  destinationChannel := packet.destinationChannel
  sequence := packet.sequence

variable {p q : Packet}

lemma proofID_eq (h : p.identity = q.identity) : proofID p = proofID q := by
  have hport : p.destinationPort = q.destinationPort := congrArg Identity.destinationPort h
  have hchannel : p.destinationChannel = q.destinationChannel :=
    congrArg Identity.destinationChannel h
  have hsequence : p.sequence = q.sequence := congrArg Identity.sequence h
  rw [proofID, proofID, hport, hchannel, hsequence]

/-- **On one port, proofs identify packets.** -/
lemma proofID_inj (hport : p.destinationPort = q.destinationPort)
    (h : proofID p = proofID q) : p.identity = q.identity := by
  have hslash : ∀ n, (47 : UInt8) ∉ Decimal.formatUint n := by
    intro n hmem
    exact absurd (Decimal.formatUint_digit hmem) (by decide)
  have hjoined : ∀ r : Packet, proofID r
      = (r.destinationPort ++ ascii "/" ++ r.destinationChannel)
        ++ 47 :: Decimal.formatUint r.sequence := by
    intro r
    rw [proofID, append_assoc (r.destinationPort ++ ascii "/" ++ r.destinationChannel)]
    rfl
  rw [hjoined p, hjoined q] at h
  obtain ⟨hpath, hsequence⟩ := Split.append_cons_inj_right (hslash _) (hslash _) h
  rw [hport] at hpath
  unfold Packet.identity
  rw [hport, append_cancel_left hpath, Decimal.formatUint_injective hsequence]

/-! ### The privileged path -/

/-- An application that accepts nothing. -/
def noApp : IBCModule where
  onChanOpenAck _ _ := .error (.err "no application")
  onChanOpenConfirm _ _ := .error (.err "no application")
  onChanCloseInit _ _ := .error (.err "no application")
  onChanCloseConfirm _ _ := .error (.err "no application")
  onRecvPacket _ _ := .error (.err "no application")
  onAcknowledgementPacket _ _ _ := .error (.err "no application")
  onTimeoutPacket _ _ := .error (.err "no application")
  recv_minted h := by cases h

/-- The middleware around another application. -/
def Env.around (env : Env) (app : IBCModule) : Env := { env with app := app }

/-- The amount of a packet that the privileged path answers with success. -/
def mintedAmount (env : Env) (s : State) (packet : Packet) : Option ℤ :=
  match onRecvPacket (env.around noApp) s packet with
  | .ok (_, some (.result _)) => do
      let data ← env.unmarshalPacketData packet.data
      env.newIntFromString data.amount
  | _ => none

variable {data : FungibleTokenPacketData} {rcpt : Address}

lemma MintReady.around
    (h : MintReady env s packet data rcpt amt) (app : IBCModule) :
    MintReady (env.around app) s packet data rcpt amt :=
  ⟨⟨h.decoded, h.port, h.allowed, h.client⟩, h.unpaused, h.fresh, h.receiver, h.amount,
    h.positive, h.denom, h.room, h.unblocked, h.countable⟩

/-- **What is minted is not forwarded**: the answer is the same around every application. -/
lemma onRecvPacket_around
    (h : MintReady env s packet data rcpt amt)
    (hbase : resolveBaseDenom env.toIbc packet data.denom
      ∈ (getParams env.toKeeperEnv s.store).allowedBaseDenoms) (app : IBCModule) :
    onRecvPacket (env.around app) s packet = onRecvPacket env s packet := by
  rw [onRecvPacket_of_mintReady (h.around app) hbase, onRecvPacket_of_mintReady h hbase]
  rfl

lemma mintReady_of_noApp {bz : Bytes}
    (h : onRecvPacket (env.around noApp) s packet = .ok (s', some (.result bz))) :
    ∃ data rcpt amt, MintReady env s packet data rcpt amt
      ∧ resolveBaseDenom env.toIbc packet data.denom
        ∈ (getParams env.toKeeperEnv s.store).allowedBaseDenoms := by
  have hno : ∀ {ack : Option Acknowledgement},
      forwardRecv (env.around noApp) s packet ≠ .ok (s', ack) := by
    intro ack hf
    obtain ⟨happ, -⟩ := forwardRecv_ok hf
    cases happ
  rcases onRecvPacket_off_providerPath h with ⟨msg, hmsg⟩ | hf | ⟨data, hpath, hp⟩
  · cases hmsg
  · exact absurd hf hno
  · rcases receivePrivileged_ok hpath hp with ⟨msg, hmsg⟩ | hf | ⟨rcpt, amt, hmint, -⟩
    · cases hmsg
    · exact absurd hf hno
    · exact ⟨data, rcpt, amt, hmint.toMintReady.around env.app, hmint.base⟩

lemma mintedAmount_of_mintReady
    (h : MintReady env s packet data rcpt amt)
    (hbase : resolveBaseDenom env.toIbc packet data.denom
      ∈ (getParams env.toKeeperEnv s.store).allowedBaseDenoms) :
    mintedAmount env s packet = some amt := by
  obtain ⟨b, store, hmint, -, -⟩ := mintMirrored_of_mintReady (h.around noApp)
  unfold mintedAmount
  rw [onRecvPacket_of_mintReady (h.around noApp) hbase, hmint]
  show (do
    let data ← env.unmarshalPacketData packet.data
    env.newIntFromString data.amount) = some amt
  rw [h.decoded]
  exact h.amount

lemma mintedAmount_eq_some (h : mintedAmount env s packet = some amt) :
    ∃ data rcpt, MintReady env s packet data rcpt amt
      ∧ resolveBaseDenom env.toIbc packet data.denom
        ∈ (getParams env.toKeeperEnv s.store).allowedBaseDenoms := by
  have hanswer := h
  unfold mintedAmount at hanswer
  split at hanswer
  · rename_i s' bz hok
    obtain ⟨data, rcpt, amt', hready, hbase⟩ := mintReady_of_noApp hok
    rw [mintedAmount_of_mintReady hready hbase] at h
    cases h
    exact ⟨data, rcpt, hready, hbase⟩
  · cases hanswer

/-! ### One delivery -/

lemma dexNativeDenom_eq (h : s'.store.get keyParams = s.store.get keyParams) :
    (getParams env.toKeeperEnv s'.store).dexNativeDenom
      = (getParams env.toKeeperEnv s.store).dexNativeDenom := by
  rw [getParams_eq h]

/-- A packet is minted: the amount is issued, its proof is consumed, and nothing else changes
that matters for the next one. -/
structure Mint (env : Env) (s s' : State) (packet : Packet) (amt : ℤ) : Prop where
  fresh : hasProof s.store (proofID packet) = false
  port : packet.destinationPort = transferPort
  issued : s'.bank.minted moduleName (getParams env.toKeeperEnv s.store).dexNativeDenom
    = s.bank.minted moduleName (getParams env.toKeeperEnv s.store).dexNativeDenom + amt.toNat
  params : s'.store.get keyParams = s.store.get keyParams
  proofs : ∀ id, hasProof s'.store id = true ↔ hasProof s.store id = true ∨ id = proofID packet

lemma mint_of_mintedAmount (h : mintedAmount env s packet = some amt) :
    ∃ s', recvPacket env s packet = .ok s' ∧ Mint env s s' packet amt := by
  obtain ⟨data, rcpt, hready, hbase⟩ := mintedAmount_eq_some h
  obtain ⟨s', hs', hmint⟩ := recvPacket_of_mintReady hready hbase
  obtain ⟨-, hsame⟩ := addMirrorSupply_ok hmint.counted
  refine ⟨s', hs', hready.fresh, hready.port, ?_, ?_, fun id => ?_⟩
  · rw [hmint.minted.minted]
    simp
  · rw [hsame _ keyParams_ne_mirrorSupply]
    exact consumeProof_sameOn _ _ (keyParams_ne_proof _)
  · have hget : s'.store.get (keyProofPrefix ++ id)
        = (consumeProof s.store (proofID packet)).get (keyProofPrefix ++ id) :=
      hsame _ (keyMirrorSupply_ne_proof id).symm
    rw [hasProof, hasProof, KVStore.has, KVStore.has, hget, consumeProof, KVStore.get_set]
    by_cases hid : id = proofID packet
    · simp [hid]
    · simp [hid, Ne.symm hid]

/-- **Nothing else mints**: a packet that is forwarded or rejected issues nothing and consumes no
proof. -/
lemma recvPacket_of_none (h : mintedAmount env s packet = none)
    (hs' : recvPacket env s packet = .ok s') :
    s'.store = s.store ∧ ∀ d, s'.bank.minted moduleName d = s.bank.minted moduleName d := by
  rcases recvPacket_cases hs' with rfl | ⟨-, b, ack, happ, -, rfl⟩ | ⟨data, rcpt, amt, hmint, -⟩
  · exact ⟨rfl, fun _ => rfl⟩
  · exact ⟨rfl, env.app.recv_minted happ⟩
  · rw [mintedAmount_of_mintReady hmint.toMintReady hmint.base] at h
    cases h

/-! ### Runs -/

/-- The packets that are minted in a run, with their amounts. -/
def mintedLog (env : Env) : State → List Packet → List (Identity × ℤ)
  | _, [] => []
  | s, packet :: packets =>
    (mintedAmount env s packet).toList.map (packet.identity, ·)
      ++ mintedLog env (Run.exec (recvPacket env) s packet) packets

/-- What a run of deliveries leaves behind. -/
structure Accounted (env : Env) (s : State) (packets : List Packet) : Prop where
  /-- Every identity is minted at most once. -/
  once : ((mintedLog env s packets).map Prod.fst).Nodup
  /-- What is issued is what was minted. -/
  issued : (Run.run (recvPacket env) s packets).bank.minted moduleName
      (getParams env.toKeeperEnv s.store).dexNativeDenom
    = s.bank.minted moduleName (getParams env.toKeeperEnv s.store).dexNativeDenom
      + ((mintedLog env s packets).map fun e => e.2.toNat).sum
  /-- Proofs are consumed by what was minted. -/
  proofs : ∀ packet : Packet, packet.destinationPort = transferPort →
    (hasProof (Run.run (recvPacket env) s packets).store (proofID packet) = true
      ↔ hasProof s.store (proofID packet) = true
        ∨ packet.identity ∈ (mintedLog env s packets).map Prod.fst)
  /-- Nothing is minted whose proof was consumed before. -/
  fresh : ∀ packet : Packet, packet.identity ∈ (mintedLog env s packets).map Prod.fst →
    hasProof s.store (proofID packet) = false ∧ packet.destinationPort = transferPort

/-- **Deliveries are accounted for**, by induction on the run. -/
lemma accounted (env : Env) (s : State) (packets : List Packet) : Accounted env s packets := by
  induction packets generalizing s with
  | nil =>
    refine ⟨nodup_nil, rfl, fun packet _ => ?_, fun packet hmem => ?_⟩
    · simp [mintedLog]
    · cases hmem
  | cons p packets ih =>
    have ih := ih (Run.exec (recvPacket env) s p)
    rcases hamount : mintedAmount env s p with - | amt
    · -- nothing happens to the store and to what is issued
      have hsame : (Run.exec (recvPacket env) s p).store = s.store
          ∧ ∀ d, (Run.exec (recvPacket env) s p).bank.minted moduleName d
            = s.bank.minted moduleName d := by
        rcases hstep : recvPacket env s p with f | s'
        · rw [Run.exec_error hstep]
          exact ⟨rfl, fun _ => rfl⟩
        · rw [Run.exec_ok hstep]
          exact recvPacket_of_none hamount hstep
      have hlog : mintedLog env s (p :: packets)
          = mintedLog env (Run.exec (recvPacket env) s p) packets := by
        rw [mintedLog, hamount]
        rfl
      obtain ⟨honce, hissued, hproofs, hfresh⟩ := ih
      rw [hsame.1] at hissued hproofs hfresh
      rw [hsame.2] at hissued
      exact ⟨by rw [hlog]; exact honce, by rw [hlog]; exact hissued,
        by rw [hlog]; exact hproofs, by rw [hlog]; exact hfresh⟩
    · obtain ⟨s', hs', hmint⟩ := mint_of_mintedAmount hamount
      rw [Run.exec_ok hs'] at ih
      have hlog : mintedLog env s (p :: packets)
          = (p.identity, amt) :: mintedLog env s' packets := by
        rw [mintedLog, hamount, Run.exec_ok hs']
        rfl
      obtain ⟨honce, hissued, hproofs, hfresh⟩ := ih
      have hrun : Run.run (recvPacket env) s (p :: packets)
          = Run.run (recvPacket env) s' packets := by
        rw [Run.run_cons, Run.exec_ok hs']
      rw [dexNativeDenom_eq hmint.params, hmint.issued] at hissued
      refine ⟨?_, ?_, fun q hq => ?_, fun q hq => ?_⟩
      · rw [hlog, map_cons, nodup_cons]
        refine ⟨fun hmem => ?_, honce⟩
        have hconsumed := (hmint.proofs (proofID p)).mpr (.inr rfl)
        rw [(hfresh p hmem).1] at hconsumed
        cases hconsumed
      · rw [hlog, hrun, hissued, map_cons, sum_cons, add_assoc]
      · rw [hlog, hrun, hproofs q hq, hmint.proofs, map_cons, mem_cons, or_assoc]
        refine or_congr_right (or_congr_left ⟨fun heq => ?_, proofID_eq⟩)
        exact proofID_inj (hq.trans hmint.port.symm) heq
      · rw [hlog, map_cons, mem_cons] at hq
        rcases hq with hq | hq
        · rw [proofID_eq hq]
          exact ⟨hmint.fresh, (congrArg Identity.destinationPort hq).trans hmint.port⟩
        · obtain ⟨hno, hport⟩ := hfresh q hq
          refine ⟨?_, hport⟩
          by_contra hyes
          rw [(hmint.proofs _).mpr (.inl (by simpa using hyes))] at hno
          cases hno

/-- **Replays.**  In every run of deliveries, every packet identity is minted at most once, what
`mintburn` issues of its native denomination is the sum of the amounts of the identities that the
privileged path answered with success, and the proofs that are consumed are theirs.  A packet that
is minted is not forwarded: the answer is the same whatever the wrapped application would do.  A
packet that is not minted issues nothing and consumes no proof. -/
theorem minted_once_per_identity (env : Env) (s : State) (packets : List Packet) :
    ((mintedLog env s packets).map Prod.fst).Nodup
      ∧ (Run.run (recvPacket env) s packets).bank.minted moduleName
          (getParams env.toKeeperEnv s.store).dexNativeDenom
        = s.bank.minted moduleName (getParams env.toKeeperEnv s.store).dexNativeDenom
          + ((mintedLog env s packets).map fun e => e.2.toNat).sum
      ∧ (∀ packet : Packet, packet.destinationPort = transferPort →
        (hasProof (Run.run (recvPacket env) s packets).store (proofID packet) = true
          ↔ hasProof s.store (proofID packet) = true
            ∨ packet.identity ∈ (mintedLog env s packets).map Prod.fst))
      ∧ ∀ packet s₁, s₁ = Run.run (recvPacket env) s packets →
        (∀ amt, mintedAmount env s₁ packet = some amt →
          ∀ app, onRecvPacket (env.around app) s₁ packet = onRecvPacket env s₁ packet)
        ∧ (mintedAmount env s₁ packet = none → ∀ s₂, recvPacket env s₁ packet = .ok s₂ →
          s₂.store = s₁.store
            ∧ ∀ d, s₂.bank.minted moduleName d = s₁.bank.minted moduleName d) := by
  obtain ⟨honce, hissued, hproofs, -⟩ := accounted env s packets
  refine ⟨honce, hissued, hproofs, fun packet s₁ _ => ⟨fun amt hamt app => ?_, ?_⟩⟩
  · obtain ⟨data, rcpt, hready, hbase⟩ := mintedAmount_eq_some hamt
    exact onRecvPacket_around hready hbase app
  · exact fun hnone s₂ hs₂ => recvPacket_of_none hnone hs₂

/-- A packet that is delivered twice is minted once. -/
theorem minted_once_per_identity_twice :
    (Run.run (recvPacket relayEnv) (chainState chainStore Bank.empty)
      [relayedVoucherPacket, relayedVoucherPacket]).bank.minted moduleName (ascii "umaany") = 5 := by
  have hrun := (minted_once_per_identity relayEnv (chainState chainStore Bank.empty)
    [relayedVoucherPacket, relayedVoucherPacket]).2.1
  have hlog : mintedLog relayEnv (chainState chainStore Bank.empty)
      [relayedVoucherPacket, relayedVoucherPacket] = [(relayedVoucherPacket.identity, 5)] := by
    decide +kernel
  rw [hlog] at hrun
  exact hrun

end MaanyDex.MintBurn
