/-
What the packet handlers of `x/mintburn` can do, said once.

A committed receive has three outcomes (`recvPacket_cases`): nothing is kept,
the wrapped application's effect is kept, or the packet is minted; it is minted
whenever all checks pass (`recvPacket_of_mintReady`).  An acknowledgement is
handled by the wrapped application alone or is preceded by a burn from escrow
(`onAcknowledgementPacket_cases`).
-/
import MaanyDex.MintBurn.Middleware

namespace MaanyDex.MintBurn

/-! ### What a committed receive can do -/

variable {env : Env} {s s' : State} {packet : Packet}

/-- The packet arrived over an allow-listed transfer channel on the provider's
client. -/
structure ProviderPath (env : Env) (s : State) (packet : Packet)
    (data : FungibleTokenPacketData) : Prop where
  decoded : env.unmarshalPacketData packet.data = some data
  port : packet.destinationPort = transferPort
  allowed : isAllowedChannel s.store packet.destinationChannel = true
  client : ∃ ch connID hops conn,
    s.channels packet.destinationPort packet.destinationChannel = some ch ∧
    ch.connectionHops = connID :: hops ∧ s.connections connID = some conn ∧
    s.provider = some conn.clientId

/-- Every check of the receive path passes, apart from the one on the base
denomination: the module is not paused, the packet is fresh, receiver and
amount are readable, and the coin can be issued to the receiver. -/
structure MintReady (env : Env) (s : State) (packet : Packet)
    (data : FungibleTokenPacketData) (rcpt : Address) (amt : ℤ) : Prop
    extends ProviderPath env s packet data where
  unpaused : (getParams env.toKeeperEnv s.store).pause = false
  fresh : hasProof s.store (proofID packet) = false
  receiver : env.accAddressFromBech32 data.receiver = some rcpt
  amount : env.newIntFromString data.amount = some amt
  positive : 0 < amt
  denom : env.validDenom (getParams env.toKeeperEnv s.store).dexNativeDenom = true
  room : s.bank.supply (getParams env.toKeeperEnv s.store).dexNativeDenom + amt.toNat < 2 ^ 256
  unblocked : env.blockedAddr rcpt = false
  countable : |getMirrorSupply env.toKeeperEnv s.store + amt| < 2 ^ 256

lemma getMirrorSupply_consumeProof (store : KVStore) (id : Bytes) :
    getMirrorSupply env.toKeeperEnv (consumeProof store id)
      = getMirrorSupply env.toKeeperEnv store :=
  getMirrorSupply_eq (consumeProof_sameOn id _ (keyMirrorSupply_ne_proof id))

variable {data : FungibleTokenPacketData}

lemma onRecvPacket_of_providerPath (h : ProviderPath env s packet data) :
    onRecvPacket env s packet = receivePrivileged env s packet data := by
  obtain ⟨ch, connID, hops, conn, hch, hhops, hconn, hcl⟩ := h.client
  rw [onRecvPacket, h.decoded]
  show (if packet.destinationPort ≠ transferPort then _ else _) = _
  rw [if_neg (not_not.mpr h.port), if_neg (by simp [h.allowed]), hch]
  simp only [hhops, hconn, if_pos hcl]

variable {ack : Option Acknowledgement}

/-- Off the provider's path the handler rejects or forwards. -/
lemma onRecvPacket_off_providerPath (h : onRecvPacket env s packet = .ok (s', ack)) :
    (∃ msg, ack = some (.error msg)) ∨ forwardRecv env s packet = .ok (s', ack) ∨
    ∃ data, ProviderPath env s packet data ∧
      receivePrivileged env s packet data = .ok (s', ack) := by
  unfold onRecvPacket at h
  rcases e₁ : env.unmarshalPacketData packet.data with - | data
  · simp only [e₁, reject, Except.ok.injEq, Prod.mk.injEq] at h
    exact .inl ⟨_, h.2.symm⟩
  simp only [e₁] at h
  split at h
  · exact .inr (.inl h)
  rename_i hport
  split at h
  · exact .inr (.inl h)
  rename_i hallowed
  rcases e₂ : s.channels packet.destinationPort packet.destinationChannel with - | ch
  · simp only [e₂, reject, Except.ok.injEq, Prod.mk.injEq] at h
    exact .inl ⟨_, h.2.symm⟩
  rcases e₃ : ch.connectionHops with - | ⟨connID, hops⟩
  · simp [e₂, e₃] at h
  rcases e₄ : s.connections connID with - | conn
  · simp only [e₂, e₃, e₄, reject, Except.ok.injEq, Prod.mk.injEq] at h
    exact .inl ⟨_, h.2.symm⟩
  simp only [e₂, e₃, e₄] at h
  split at h
  · rename_i hcl
    exact .inr (.inr ⟨data, ⟨e₁, not_not.mp hport, by simpa using hallowed,
      ch, connID, hops, conn, e₂, e₃, e₄, hcl⟩, h⟩)
  · simp only [reject, Except.ok.injEq, Prod.mk.injEq] at h
    exact .inl ⟨_, h.2.symm⟩

variable {rcpt : Address} {amt : ℤ}

lemma mintMirrored_ok {denom : Denom}
    (h : mintMirrored env s packet denom rcpt amt = .ok (s', ack)) :
    (∃ msg, ack = some (.error msg)) ∨
    (env.validDenom denom = true ∧ ack = some (.result [1]) ∧
      ∃ b store, mintTokens env.toKeeperEnv s.bank rcpt ⟨denom, amt⟩ = (b, none) ∧
        addMirrorSupply env.toKeeperEnv (consumeProof s.store (proofID packet)) amt
          = .ok store ∧ s' = { s with store := store, bank := b }) := by
  unfold mintMirrored at h
  rcases e₁ : newCoin env.toSdk denom amt with f | c
  · simp [e₁] at h
  obtain ⟨rfl, hd, -⟩ := newCoin_ok e₁
  rcases e₂ : mintTokens env.toKeeperEnv s.bank rcpt ⟨denom, amt⟩ with ⟨b, - | f⟩
  · rcases e₃ : addMirrorSupply env.toKeeperEnv (consumeProof s.store (proofID packet)) amt
      with f | store
    · simp [e₁, e₂, e₃] at h
    · simp only [e₁, e₂, e₃, Except.ok.injEq, Prod.mk.injEq] at h
      exact .inr ⟨hd, h.2.symm, b, store, rfl, rfl, h.1.symm⟩
  · -- an error of the bank becomes an error acknowledgement, a panic goes through
    cases f with
    | panic msg => simp [e₁, e₂] at h
    | err msg =>
      simp only [e₁, e₂, reject, Except.ok.injEq, Prod.mk.injEq] at h
      exact .inl ⟨_, h.2.symm⟩
    | errf fmt arg =>
      simp only [e₁, e₂, reject, Except.ok.injEq, Prod.mk.injEq] at h
      exact .inl ⟨_, h.2.symm⟩

/-- A receive that mints, and everything it writes: the coin for the receiver,
the consumed proof, and the mirror supply. -/
structure MintsOnRecv (env : Env) (s s' : State) (packet : Packet)
    (data : FungibleTokenPacketData) (rcpt : Address) (amt : ℤ) : Prop
    extends MintReady env s packet data rcpt amt where
  base : resolveBaseDenom env.toIbc packet data.denom
    ∈ (getParams env.toKeeperEnv s.store).allowedBaseDenoms
  minted : Bank.Minted moduleName rcpt
    [⟨(getParams env.toKeeperEnv s.store).dexNativeDenom, amt⟩] s.bank s'.bank
  counted : addMirrorSupply env.toKeeperEnv (consumeProof s.store (proofID packet)) amt
    = .ok s'.store

lemma mintReady_of_ok {b : Bank}
    {store : KVStore} (hpath : ProviderPath env s packet data)
    (hpause : (getParams env.toKeeperEnv s.store).pause = false)
    (hproof : hasProof s.store (proofID packet) = false)
    (hrcpt : env.accAddressFromBech32 data.receiver = some rcpt)
    (hamt : env.newIntFromString data.amount = some amt) (hpos : 0 < amt)
    (hd : env.validDenom (getParams env.toKeeperEnv s.store).dexNativeDenom = true)
    (hmint : mintTokens env.toKeeperEnv s.bank rcpt
      ⟨(getParams env.toKeeperEnv s.store).dexNativeDenom, amt⟩ = (b, none))
    (hadd : addMirrorSupply env.toKeeperEnv (consumeProof s.store (proofID packet)) amt
      = .ok store) : MintReady env s packet data rcpt amt := by
  obtain ⟨hroom, hblk⟩ := (mintTokens_succeeds_iff hd hpos).mp ⟨b, hmint⟩
  have hcount : |getMirrorSupply env.toKeeperEnv s.store + amt| < 2 ^ 256 := by
    rw [addMirrorSupply, getMirrorSupply_consumeProof] at hadd
    rcases e : checkInt (getMirrorSupply env.toKeeperEnv s.store + amt) with f | next
    · rw [e] at hadd
      cases hadd
    · exact (checkInt_ok e).2
  exact ⟨hpath, hpause, hproof, hrcpt, hamt, hpos, hd, hroom, hblk, hcount⟩

lemma forwardRecv_ok (h : forwardRecv env s packet = .ok (s', ack)) :
    env.app.onRecvPacket s.bank packet = .ok (s'.bank, ack) ∧ s' = { s with bank := s'.bank } := by
  unfold forwardRecv at h
  rcases e : env.app.onRecvPacket s.bank packet with f | ⟨b, ack'⟩
  · rw [e] at h
    cases h
  · rw [e] at h
    cases h
    exact ⟨rfl, rfl⟩

lemma receivePrivileged_ok (hpath : ProviderPath env s packet data)
    (h : receivePrivileged env s packet data = .ok (s', ack)) :
    (∃ msg, ack = some (.error msg)) ∨ forwardRecv env s packet = .ok (s', ack) ∨
    ∃ rcpt amt, MintsOnRecv env s s' packet data rcpt amt ∧
      s' = { s with store := s'.store, bank := s'.bank } := by
  unfold receivePrivileged at h
  simp only [reject] at h
  split at h
  · cases h
    exact .inl ⟨_, rfl⟩
  rename_i hpause
  split at h
  · exact .inr (.inl h)
  rename_i hbase
  split at h
  · cases h
    exact .inl ⟨_, rfl⟩
  rename_i hproof
  rcases e₁ : env.accAddressFromBech32 data.receiver with - | rcpt
  · rw [e₁] at h
    cases h
    exact .inl ⟨_, rfl⟩
  rcases e₂ : env.newIntFromString data.amount with - | amt
  · simp only [e₁, e₂] at h
    cases h
    exact .inl ⟨_, rfl⟩
  simp only [e₁, e₂] at h
  split at h
  · cases h
    exact .inl ⟨_, rfl⟩
  rename_i hamt
  have hpos : 0 < amt := not_le.mp hamt
  rcases mintMirrored_ok h with herr | ⟨hd, -, b, store, hmint, hadd, rfl⟩
  · exact .inl herr
  have hready := mintReady_of_ok hpath (by simpa using hpause) (by simpa using hproof) e₁ e₂
    hpos hd hmint hadd
  exact .inr (.inr ⟨rcpt, amt, ⟨hready, not_not.mp hbase, mintTokens_ok hd hpos hmint, hadd⟩,
    rfl⟩)

/-- **The three outcomes of a receive**: nothing is kept, the wrapped
application's effect on the bank is kept, or the packet is minted. -/
lemma recvPacket_cases (h : recvPacket env s packet = .ok s') :
    s' = s ∨
    (onRecvPacket env s packet = forwardRecv env s packet ∧
      ∃ b ack, env.app.onRecvPacket s.bank packet = .ok (b, ack) ∧
        (∀ msg, ack ≠ some (.error msg)) ∧ s' = { s with bank := b }) ∨
    (∃ data rcpt amt, MintsOnRecv env s s' packet data rcpt amt ∧
      s' = { s with store := s'.store, bank := s'.bank }) := by
  unfold recvPacket at h
  rcases e : onRecvPacket env s packet with f | ⟨s₁, ack⟩
  · simp [e] at h
  rw [e] at h
  -- an error acknowledgement keeps nothing, everything else keeps `s₁`
  have hkeep : s' = s ∨ (s' = s₁ ∧ ∀ msg, ack ≠ some (.error msg)) := by
    rcases ack with - | (bz | msg | -)
    · exact .inr ⟨by simpa using h.symm, by simp⟩
    · exact .inr ⟨by simpa using h.symm, by simp⟩
    · exact .inl (by simpa using h.symm)
    · exact .inl (by simpa using h.symm)
  rcases hkeep with rfl | ⟨rfl, hne⟩
  · exact .inl rfl
  have hfwd : forwardRecv env s packet = .ok (s', ack) → ∃ b ack,
      env.app.onRecvPacket s.bank packet = .ok (b, ack) ∧
      (∀ msg, ack ≠ some (.error msg)) ∧ s' = { s with bank := b } :=
    fun hf => ⟨_, _, (forwardRecv_ok hf).1, hne, (forwardRecv_ok hf).2⟩
  rcases onRecvPacket_off_providerPath e with ⟨msg, hm⟩ | hf | ⟨data, hpath, hp⟩
  · exact absurd hm (hne msg)
  · exact .inr (.inl ⟨hf.symm, hfwd hf⟩)
  · rcases receivePrivileged_ok hpath hp with ⟨msg, hm⟩ | hf | ⟨rcpt, amt, hmint⟩
    · exact absurd hm (hne msg)
    · exact .inr (.inl ⟨hf.symm, hfwd hf⟩)
    · exact .inr (.inr ⟨data, rcpt, amt, hmint⟩)

lemma onRecvPacket_of_mintReady
    (h : MintReady env s packet data rcpt amt)
    (hbase : resolveBaseDenom env.toIbc packet data.denom
      ∈ (getParams env.toKeeperEnv s.store).allowedBaseDenoms) :
    onRecvPacket env s packet
      = mintMirrored env s packet (getParams env.toKeeperEnv s.store).dexNativeDenom rcpt amt := by
  rw [onRecvPacket_of_providerPath h.toProviderPath]
  simp [receivePrivileged, h.unpaused, hbase, h.fresh, h.receiver, h.amount, not_le.mpr h.positive]

lemma mintMirrored_of_mintReady (h : MintReady env s packet data rcpt amt) :
    ∃ b store, mintMirrored env s packet (getParams env.toKeeperEnv s.store).dexNativeDenom rcpt amt
        = .ok ({ s with store := store, bank := b }, some (.result [1]))
      ∧ mintTokens env.toKeeperEnv s.bank rcpt
        ⟨(getParams env.toKeeperEnv s.store).dexNativeDenom, amt⟩ = (b, none)
      ∧ addMirrorSupply env.toKeeperEnv (consumeProof s.store (proofID packet)) amt = .ok store := by
  obtain ⟨b, hb⟩ : ∃ b, mintTokens env.toKeeperEnv s.bank rcpt
      ⟨(getParams env.toKeeperEnv s.store).dexNativeDenom, amt⟩ = (b, none) :=
    (mintTokens_succeeds_iff h.denom h.positive).mpr ⟨h.room, h.unblocked⟩
  obtain ⟨store, hstore⟩ : ∃ store, addMirrorSupply env.toKeeperEnv
      (consumeProof s.store (proofID packet)) amt = .ok store := by
    rw [addMirrorSupply, getMirrorSupply_consumeProof, checkInt, if_pos h.countable]
    exact ⟨_, rfl⟩
  have hcoin : newCoin env.toSdk (getParams env.toKeeperEnv s.store).dexNativeDenom amt
      = .ok ⟨(getParams env.toKeeperEnv s.store).dexNativeDenom, amt⟩ := by
    simp [newCoin, h.denom, h.positive.le]
  refine ⟨b, store, ?_, hb, hstore⟩
  simp [mintMirrored, hcoin, hb, hstore]

lemma recvPacket_of_mintReady
    (h : MintReady env s packet data rcpt amt)
    (hbase : resolveBaseDenom env.toIbc packet data.denom
      ∈ (getParams env.toKeeperEnv s.store).allowedBaseDenoms) :
    ∃ s', recvPacket env s packet = .ok s' ∧ MintsOnRecv env s s' packet data rcpt amt := by
  obtain ⟨b, store, hmint, hb, hstore⟩ := mintMirrored_of_mintReady h
  refine ⟨{ s with store := store, bank := b }, ?_, h, hbase, mintTokens_ok h.denom h.positive hb,
    hstore⟩
  rw [recvPacket, onRecvPacket_of_mintReady h hbase, hmint]

/-! ### What an acknowledgement can do -/

variable {acknowledgement : Bytes}

/-- The handler reaches the burn: a success acknowledgement, over an allow-listed
transfer channel, of a packet that resolves to `umaany`. -/
structure BurnReady (env : Env) (s : State) (packet : Packet) (acknowledgement : Bytes)
    (data : FungibleTokenPacketData) (amt : ℤ) : Prop where
  success : ∃ bz, env.unmarshalAck acknowledgement = some (.result bz)
  decoded : env.unmarshalPacketData packet.data = some data
  port : packet.sourcePort = transferPort
  allowed : isAllowedChannel s.store packet.sourceChannel = true
  base : resolveBaseDenom env.toIbc packet data.denom = umaany
  amount : env.newIntFromString data.amount = some amt
  positive : 0 < amt

lemma onAcknowledgementPacket_of_burnReady (h : BurnReady env s packet acknowledgement data amt) :
    onAcknowledgementPacket env s packet acknowledgement
      = burnMirrored env s packet umaany amt acknowledgement := by
  obtain ⟨bz, hbz⟩ := h.success
  simp [onAcknowledgementPacket, hbz, h.decoded, h.port, h.allowed, h.base, h.amount,
    not_le.mpr h.positive]

lemma onAcknowledgementPacket_of_not_burnReady
    (h : ∀ data amt, ¬ BurnReady env s packet acknowledgement data amt) :
    onAcknowledgementPacket env s packet acknowledgement
      = forwardAck env s packet acknowledgement := by
  unfold onAcknowledgementPacket
  rcases e₁ : env.unmarshalAck acknowledgement with - | (bz | msg | -)
  · rfl
  · rcases e₂ : env.unmarshalPacketData packet.data with - | data
    · rfl
    simp only
    split
    · rfl
    rename_i hch
    rw [not_or, not_not, Bool.not_eq_false] at hch
    split
    · rfl
    rename_i hbase
    rcases e₃ : env.newIntFromString data.amount with - | amt
    · rfl
    simp only
    split
    · rfl
    rename_i hamt
    exact absurd ⟨⟨bz, e₁⟩, e₂, hch.1, hch.2, not_not.mp hbase, e₃, not_le.mp hamt⟩ (h data amt)
  · rfl
  · rfl

/-- **The outcomes of an acknowledgement**: either the wrapped application alone
handles it, which on the burn path means that the escrow account does not hold
the amount, or the coin is first burned from escrow and counted down. -/
lemma onAcknowledgementPacket_cases
    (h : onAcknowledgementPacket env s packet acknowledgement = .ok s') :
    (forwardAck env s packet acknowledgement = .ok s' ∧
      ∀ data amt, BurnReady env s packet acknowledgement data amt →
        s.bank.balance (.escrow packet.sourcePort packet.sourceChannel) umaany < amt.toNat) ∨
    ∃ data amt b store, BurnReady env s packet acknowledgement data amt ∧
      Bank.Burned moduleName (.escrow packet.sourcePort packet.sourceChannel)
        [⟨umaany, amt⟩] s.bank b ∧
      subMirrorSupply env.toKeeperEnv s.store amt = .ok store ∧
      forwardAck env { s with store := store, bank := b } packet acknowledgement = .ok s' := by
  by_cases hready : ∃ data amt, BurnReady env s packet acknowledgement data amt
  · obtain ⟨data, amt, hr⟩ := hready
    rw [onAcknowledgementPacket_of_burnReady hr, burnMirrored] at h
    rcases e₁ : newCoin env.toSdk umaany amt with f | c
    · simp [e₁] at h
    obtain ⟨rfl, hd, -⟩ := newCoin_ok e₁
    rcases @burnEscrowedTokens_cases env.toKeeperEnv s.bank
        (.escrow packet.sourcePort packet.sourceChannel) ⟨umaany, amt⟩ hd hr.positive
      with ⟨b, e₂, -, hburn⟩ | ⟨f, e₂, hlt⟩
    · rcases e₃ : subMirrorSupply env.toKeeperEnv s.store amt with f | store
      · simp [e₁, e₂, e₃] at h
      · simp only [e₁, e₂, e₃] at h
        exact .inr ⟨data, amt, b, store, hr, hburn, e₃, h⟩
    · refine .inl ⟨?_, ?_⟩
      · -- a failed burn is swallowed, a panic is not
        cases f with
        | panic msg => simp [e₁, e₂] at h
        | err msg => simpa [e₁, e₂] using h
        | errf fmt arg => simpa [e₁, e₂] using h
      · intro data' amt' hr'
        have hdata := hr.decoded.symm.trans hr'.decoded
        cases hdata
        have hamt := hr.amount.symm.trans hr'.amount
        cases hamt
        exact hlt
  · have hno : ∀ data amt, ¬ BurnReady env s packet acknowledgement data amt :=
      fun data amt hr => hready ⟨data, amt, hr⟩
    rw [onAcknowledgementPacket_of_not_burnReady hno] at h
    exact .inl ⟨h, fun data amt hr => absurd hr (hno data amt)⟩

lemma forwardAck_ok (h : forwardAck env s packet acknowledgement = .ok s') :
    env.app.onAcknowledgementPacket s.bank packet acknowledgement = .ok s'.bank ∧
      s' = { s with bank := s'.bank } := by
  unfold forwardAck at h
  rcases e : env.app.onAcknowledgementPacket s.bank packet acknowledgement with f | b
  · rw [e] at h
    cases h
  · rw [e] at h
    cases h
    exact ⟨rfl, rfl⟩

lemma onTimeoutPacket_ok (h : onTimeoutPacket env s packet = .ok s') :
    env.app.onTimeoutPacket s.bank packet = .ok s'.bank ∧ s' = { s with bank := s'.bank } := by
  unfold onTimeoutPacket at h
  rcases e : env.app.onTimeoutPacket s.bank packet with f | b
  · rw [e] at h
    cases h
  · rw [e] at h
    cases h
    exact ⟨rfl, rfl⟩

end MaanyDex.MintBurn
