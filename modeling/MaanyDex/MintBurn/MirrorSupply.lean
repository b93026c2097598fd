/-
The mirror supply: what the module has minted and not yet burned.

Minting counts up by `dex_native_denom`, burning counts down by the hard-coded
`umaany` and clamps at zero.  The two agree when `dex_native_denom` is `umaany`
and `umaany` enters circulation through the receive path alone.  The invariant
that carries this is that the counter *is* the supply of `umaany`
(`MirrorInv.supply`): a burn takes coins out of an escrow account, which holds
no more than the supply, so the clamp is out of reach.
-/
import MaanyDex.MintBurn.Escrow

namespace MaanyDex.MintBurn

variable {ibc : Ibc} {app : TransferApp ibc} {params : Params} {w w' : World} {packet : Packet}

/-! ### Bank effects that do not touch the mirrored token -/

/-- Neither the supply of `umaany` nor what the module issued or destroyed of it
changes. -/
structure Neutral (b b' : Bank) : Prop where
  supply : b'.supply umaany = b.supply umaany
  minted : b'.minted moduleName umaany = b.minted moduleName umaany
  burned : b'.burned moduleName umaany = b.burned moduleName umaany

variable {b b' : Bank}

lemma Neutral.of_eq (h : b' = b) : Neutral b b' := by
  rw [h]
  exact ⟨rfl, rfl, rfl⟩

variable {src dst : Address}

lemma neutral_of_sent {cs : Coins} (h : Bank.Sent src dst cs b b') : Neutral b b' :=
  ⟨h.supply umaany, h.minted _ _, h.burned _ _⟩

variable {c : Coin}

lemma neutral_of_minted (hc : c.denom ≠ umaany)
    (h : Bank.Minted transferModule dst [c] b b') : Neutral b b' := by
  refine ⟨?_, ?_, h.burned _ _⟩
  · rw [h.supply]
    simp [hc]
  · rw [h.minted, if_neg (by decide), Nat.add_zero]

lemma neutral_of_burned (hc : c.denom ≠ umaany)
    (h : Bank.Burned transferModule src [c] b b') : Neutral b b' := by
  refine ⟨?_, h.minted _ _, ?_⟩
  · have e := h.supply umaany
    simpa [hc] using e
  · rw [h.burned, if_neg (by decide), Nat.add_zero]

variable {port : Bytes}

lemma localDenom_ne_of_source {channel : Bytes} {denom : Denom} (hport : port = transferPort)
    (h : ibc.receiverChainIsSource port channel denom = true) : ibc.localDenom denom ≠ umaany := by
  intro e
  rw [localDenom_eq_umaany e, hport, receiverChainIsSource_umaany] at h
  cases h

lemma localDenom_ne_of_slash {rest : Bytes} :
    ibc.localDenom (port ++ ascii "/" ++ rest) ≠ umaany := by
  intro e
  have hmem : (47 : UInt8) ∈ umaany := by
    have hslash : (47 : UInt8) ∈ ascii "/" := by decide
    rw [← localDenom_eq_umaany e]
    exact List.mem_append_left _ (List.mem_append_right _ hslash)
  revert hmem
  decide

lemma neutral_of_refunded (hport : packet.sourcePort = transferPort)
    (h : Refunded ibc packet b b') : Neutral b b' := by
  obtain ⟨data, amt, sender, -, -, h⟩ := h
  split at h
  · rename_i hsrc
    exact neutral_of_minted (localDenom_ne_of_source hport hsrc) h
  · exact neutral_of_sent h

lemma neutral_of_received (h : Received ibc packet b b') : Neutral b b' := by
  obtain ⟨data, amt, receiver, -, h⟩ := h
  split at h
  · obtain ⟨denom, hs⟩ := h
    exact neutral_of_sent hs
  · refine neutral_of_minted ?_ h
    show ibc.localDenom _ ≠ umaany
    rw [List.append_assoc, List.append_assoc]
    exact localDenom_ne_of_slash

lemma neutral_of_send {sender : Address} (hport : packet.sourcePort = transferPort)
    (h : sendTransfer ibc b sender packet = .ok b') : Neutral b b' := by
  obtain ⟨data, amt, -, -, -, heff⟩ := sendTransfer_ok h
  split at heff
  · rename_i hsrc
    exact neutral_of_burned (localDenom_ne_of_source hport hsrc) heff
  · exact neutral_of_sent heff

/-! ### The invariant -/

/-- The stored mirror supply. -/
def mirror (ibc : Ibc) (w : World) : ℤ := getMirrorSupply ibc.toKeeperEnv w.state.store

def mintedTotal (w : World) (d : Denom) : ℕ := w.state.bank.minted moduleName d

def burnedTotal (w : World) (d : Denom) : ℕ := w.state.bank.burned moduleName d

/-- The counter is the supply, and both are what was minted and not burned. -/
structure MirrorInv (ibc : Ibc) (params : Params) (w : World) : Prop where
  escrow : EscrowInv ibc w
  params_eq : getParams ibc.toKeeperEnv w.state.store = params
  supply : mirror ibc w = w.state.bank.supply umaany
  issued : (w.state.bank.supply umaany : ℤ) = mintedTotal w umaany - burnedTotal w umaany

lemma MirrorInv.of_neutral (h : MirrorInv ibc params w) (hescrow : EscrowInv ibc w')
    (hbank : Neutral w.state.bank w'.state.bank)
    (hparams : w'.state.store.get keyParams = w.state.store.get keyParams)
    (hmirror : w'.state.store.get keyMirrorSupply = w.state.store.get keyMirrorSupply) :
    MirrorInv ibc params w' := by
  refine ⟨hescrow, ?_, ?_, ?_⟩
  · rw [getParams_eq hparams, h.params_eq]
  · rw [mirror, getMirrorSupply_eq hmirror, hbank.supply]
    exact h.supply
  · rw [mintedTotal, burnedTotal, hbank.supply, hbank.minted, hbank.burned]
    exact h.issued

variable {s' : State} {bz : Bytes} {data : FungibleTokenPacketData} {amt : ℤ} {store : KVStore}

section Burn

variable (h : MirrorInv ibc params w) (hr : BurnReady app.env w.state packet bz data amt)
  (hburn : Bank.Burned moduleName (.escrow packet.sourcePort packet.sourceChannel)
    [⟨umaany, amt⟩] w.state.bank b)
  (hsub : subMirrorSupply ibc.toKeeperEnv w.state.store amt = .ok store)
  (hf : forwardAck app.env { w.state with store := store, bank := b } packet bz = .ok s')

include h hr hburn hsub hf

lemma mirror_of_burn :
    s'.store = store ∧ s'.bank = b ∧ amt ≤ mirror ibc w ∧
      getMirrorSupply ibc.toKeeperEnv store = mirror ibc w - amt := by
  obtain ⟨happ, hs'⟩ := forwardAck_ok hf
  have hstore : s'.store = store := by rw [hs']
  have hbank : s'.bank = b := by
    rcases app.ack_ok happ with ⟨hb, -⟩ | ⟨-, msg, hmsg⟩
    · exact hb
    · obtain ⟨r, hres⟩ := hr.success
      exact absurd (hres.symm.trans hmsg) (by simp)
  -- the burned coins were in escrow, hence part of the supply, which is the counter
  have hle : amt ≤ mirror ibc w := by
    have hpos := hr.positive
    have hbal := hburn.balance (.escrow packet.sourcePort packet.sourceChannel) umaany
    have hsup := w.state.bank.ledger.balance_le_supply
      (.escrow packet.sourcePort packet.sourceChannel) umaany
    simp only [total_cons, total_nil, if_true, Nat.add_zero] at hbal
    rw [h.supply]
    simp only [Bank.balance, Bank.supply] at hbal ⊢
    omega
  refine ⟨hstore, hbank, hle, ?_⟩
  rw [(subMirrorSupply_ok hsub).1, max_eq_right (by have := hle; unfold mirror at this; omega)]
  rfl

lemma mirrorInv_of_burn
    (hescrow : EscrowInv ibc { w with state := s', commitments := w.commitments.erase packet }) :
    MirrorInv ibc params { w with state := s', commitments := w.commitments.erase packet } := by
  obtain ⟨hstore, hbank, hle, hmirror⟩ := mirror_of_burn h hr hburn hsub hf
  have hpos := hr.positive
  have hsup := hburn.supply umaany
  have hbd := hburn.burned moduleName umaany
  have hmt := hburn.minted moduleName umaany
  simp only [total_cons, total_nil, if_true, Nat.add_zero] at hsup hbd
  have hold := h.supply
  have hiss := h.issued
  simp only [mintedTotal, burnedTotal] at hiss
  refine ⟨hescrow, ?_, ?_, ?_⟩
  · show getParams ibc.toKeeperEnv s'.store = params
    rw [hstore, getParams_eq ((subMirrorSupply_ok hsub).2 _ keyParams_ne_mirrorSupply), h.params_eq]
  · show getMirrorSupply ibc.toKeeperEnv s'.store = s'.bank.supply umaany
    rw [hstore, hbank, hmirror]
    omega
  · show (s'.bank.supply umaany : ℤ) = s'.bank.minted moduleName umaany
      - s'.bank.burned moduleName umaany
    rw [hbank]
    omega

end Burn

lemma mirrorInv_of_mint {rcpt : Address} (hdenom : params.dexNativeDenom = umaany)
    (h : MirrorInv ibc params w) (hescrow : EscrowInv ibc { w with state := s' })
    (hm : MintsOnRecv app.env w.state s' packet data rcpt amt) :
    MirrorInv ibc params { w with state := s' } := by
  have hparams : getParams app.env.toKeeperEnv w.state.store = params := h.params_eq
  have hpos := hm.positive
  have hmint := hm.minted
  rw [hparams, hdenom] at hmint
  have hsup := hmint.supply umaany
  have hmt := hmint.minted moduleName umaany
  have hbd := hmint.burned moduleName umaany
  simp only [total_cons, total_nil, if_true, Nat.add_zero] at hsup hmt
  obtain ⟨hcount, hsame⟩ := addMirrorSupply_ok hm.counted
  rw [getMirrorSupply_consumeProof] at hcount
  have hold := h.supply
  have hiss := h.issued
  simp only [mirror] at hold
  simp only [mintedTotal, burnedTotal] at hiss
  refine ⟨hescrow, ?_, ?_, ?_⟩
  · -- neither the consumed proof nor the counter is where the parameters are
    have hkey : s'.store.get keyParams = w.state.store.get keyParams :=
      (hsame _ keyParams_ne_mirrorSupply).trans
        (consumeProof_sameOn (proofID packet) _ (keyParams_ne_proof _))
    show getParams ibc.toKeeperEnv s'.store = params
    rw [getParams_eq hkey, h.params_eq]
  · show getMirrorSupply ibc.toKeeperEnv s'.store = s'.bank.supply umaany
    have hcount' : getMirrorSupply ibc.toKeeperEnv s'.store
        = getMirrorSupply ibc.toKeeperEnv w.state.store + amt := hcount
    omega
  · show (s'.bank.supply umaany : ℤ) = s'.bank.minted moduleName umaany
      - s'.bank.burned moduleName umaany
    omega

lemma step_mirrorInv {e : Event} (hdenom : params.dexNativeDenom = umaany)
    (hI : MirrorInv ibc params w) (hpath : ReturnPath app w e) (hsend : UnambiguousSend ibc e)
    (h : step app w e = .ok w') : MirrorInv ibc params w' := by
  have hescrow := step_escrowInv hI.escrow hpath hsend h
  cases e with
  | send sender channel destPort destChannel data =>
    rw [step] at h
    split at h
    · cases h
    obtain ⟨b, hb, hw⟩ := Run.bind_ok h
    cases hw
    exact hI.of_neutral hescrow (neutral_of_send rfl hb) rfl rfl
  | ack packet bz =>
    obtain ⟨hmem, s', hs, rfl⟩ := step_ack_ok h
    rcases onAcknowledgementPacket_cases hs with
      ⟨hf, -⟩ | ⟨data, amt, b, store, hr, hburn, hsub, hf⟩
    · obtain ⟨happ, hs'⟩ := forwardAck_ok hf
      have hstore : s'.store = w.state.store := by rw [hs']
      refine hI.of_neutral hescrow ?_ (by rw [hstore]) (by rw [hstore])
      rcases app.ack_ok happ with ⟨hb, -⟩ | ⟨hrefund, -⟩
      · exact Neutral.of_eq hb
      · exact neutral_of_refunded (hI.escrow.wellSent packet hmem).port hrefund
    · exact mirrorInv_of_burn hI hr hburn hsub hf hescrow
  | timeout packet =>
    rw [step] at h
    split at h
    · rename_i hmem
      obtain ⟨s', hs, hw⟩ := Run.bind_ok h
      cases hw
      obtain ⟨happ, hs'⟩ := onTimeoutPacket_ok hs
      have hstore : s'.store = w.state.store := by rw [hs']
      exact hI.of_neutral hescrow
        (neutral_of_refunded (hI.escrow.wellSent packet hmem).port (app.timeout_ok happ))
        (by rw [hstore]) (by rw [hstore])
    · cases h
  | recv packet =>
    obtain ⟨s', hs, hw⟩ := Run.bind_ok h
    cases hw
    rcases recvPacket_cases hs with rfl | ⟨-, b, ack, happ, hne, rfl⟩ | ⟨data, rcpt, amt, hm, -⟩
    · exact hI
    · refine hI.of_neutral hescrow ?_ rfl rfl
      rcases app.recv_ok happ hne with hb | hr
      · exact Neutral.of_eq hb
      · exact neutral_of_received hr
    · exact mirrorInv_of_mint hdenom hI hescrow hm
  | bankSend sender dst coin =>
    rw [step] at h
    split at h
    · cases h
    obtain ⟨b, hb, hw⟩ := Run.bind_ok h
    cases hw
    exact hI.of_neutral hescrow (neutral_of_sent (Bank.sendCoins_ok hb)) rfl rfl
  | chan callback portID channelID =>
    obtain ⟨s', hs, hw⟩ := Run.bind_ok h
    cases hw
    obtain ⟨hbank, hsame⟩ := onChan_ok hs
    refine hI.of_neutral hescrow (Neutral.of_eq hbank) (hsame _ ?_) (hsame _ ?_)
    · rintro ⟨channelID, hkey⟩
      exact keyParams_ne_allowedChan _ hkey
    · rintro ⟨channelID, hkey⟩
      exact keyMirrorSupply_ne_allowedChan _ hkey
  | core channels connections providerClientID =>
    cases h
    exact hI.of_neutral hescrow (Neutral.of_eq rfl) rfl rfl

/-! ### The run theorem -/

/-- A chain at its start: accepted parameters are stored, nothing is mirrored
yet, nothing was minted or burned, and nothing is in flight. -/
structure Fresh (ibc : Ibc) (params : Params) (w : World) : Prop where
  valid : params.validate = .ok ()
  params_eq : getParams ibc.toKeeperEnv w.state.store = params
  unmirrored : w.state.store.get keyMirrorSupply = none
  events : w.state.bank.events = []
  commitments : w.commitments = []

/-- The acknowledgement is a success, over an allow-listed channel, of a packet
that transferred `amt` of `denom` itself. -/
structure AcksTransferOf (ibc : Ibc) (w : World) (packet : Packet) (bz : Bytes) (denom : Denom)
    (amt : ℤ) : Prop where
  success : ∃ r, ibc.unmarshalAck bz = some (.result r)
  allowed : isAllowedChannel w.state.store packet.sourceChannel = true
  transfer : ∃ data, ibc.unmarshalPacketData packet.data = some data ∧ data.denom = denom ∧
    ibc.newIntFromString data.amount = some amt

/-- A successful acknowledgement of `umaany` over an allow-listed channel reaches
the burn. -/
lemma burnReady_of_acks (app : TransferApp ibc) (hI : EscrowInv ibc w)
    (hmem : packet ∈ w.commitments) (h : AcksTransferOf ibc w packet bz umaany amt) :
    ∃ data, BurnReady app.env w.state packet bz data amt := by
  obtain ⟨data, hdata, hdenom, hamt⟩ := h.transfer
  have hport := (hI.wellSent packet hmem).port
  obtain ⟨data', amt', hdata', hamt', hpos⟩ := (hI.wellSent packet hmem).readable
  cases hdata.symm.trans hdata'
  cases hamt.symm.trans hamt'
  refine ⟨data, h.success, hdata, hport, h.allowed, ?_, hamt, hpos⟩
  have hsrc := receiverChainIsSource_umaany ibc packet.sourceChannel
  rw [← hport] at hsrc
  have hbare := ibc.parseDenomTrace_base umaany (ibc.parseDenomTrace_bare umaany (by decide))
  show resolveBaseDenom ibc packet data.denom = umaany
  rw [resolveBaseDenom, hdenom, hsrc]
  exact hbare

lemma amount_le_escrow (hI : EscrowInv ibc w) (hmem : packet ∈ w.commitments)
    (hr : BurnReady app.env w.state packet bz data amt) :
    amt.toNat ≤ w.state.bank.balance (.escrow packet.sourcePort packet.sourceChannel) umaany := by
  have hc := escrowedCoin_of_burnReady (hI.unambiguous packet hmem) hr
  have howed := owed_of_escrowedCoin hc packet.sourcePort packet.sourceChannel umaany
  simp only [if_true, total_cons, total_nil, Nat.add_zero] at howed
  have hsum := @outstanding_erase ibc packet w.commitments hmem packet.sourcePort
    packet.sourceChannel umaany
  have hcov := hI.covered packet.sourcePort packet.sourceChannel umaany
  omega

lemma burned_of_forwardAck (hI : EscrowInv ibc w)
    (hmem : packet ∈ w.commitments) (hf : forwardAck app.env w.state packet bz = .ok s') :
    s'.bank.burned moduleName umaany = w.state.bank.burned moduleName umaany := by
  rcases app.ack_ok (forwardAck_ok hf).1 with ⟨hb, -⟩ | ⟨hrefund, -⟩
  · rw [hb]
  · exact (neutral_of_refunded (hI.wellSent packet hmem).port hrefund).burned

lemma burned_of_ack (hI : MirrorInv ibc params w) (h : step app w (.ack packet bz) = .ok w')
    (hack : AcksTransferOf ibc w packet bz umaany amt) :
    burnedTotal w' umaany = burnedTotal w umaany + amt.toNat := by
  obtain ⟨hmem, s', hs, rfl⟩ := step_ack_ok h
  rcases onAcknowledgementPacket_cases hs with
    ⟨hf, hlow⟩ | ⟨data, amt', b, store, hr, hburn, hsub, hf⟩
  · -- without a burn the escrow account would hold too little, but it covers the packet
    obtain ⟨data, hr⟩ := burnReady_of_acks app hI.escrow hmem hack
    exact absurd (amount_le_escrow hI.escrow hmem hr) (not_le.mpr (hlow data amt hr))
  · obtain ⟨data', hdata', -, hamt'⟩ := hack.transfer
    cases hr.decoded.symm.trans hdata'
    cases hr.amount.symm.trans hamt'
    have hbd := hburn.burned moduleName umaany
    simp only [total_cons, total_nil, if_true, Nat.add_zero] at hbd
    show s'.bank.burned moduleName umaany = w.state.bank.burned moduleName umaany + amt.toNat
    rw [(mirror_of_burn hI hr hburn hsub hf).2.1, hbd]

lemma burn_le_mirror (hI : MirrorInv ibc params w) (h : step app w (.ack packet bz) = .ok w') :
    (burnedTotal w' umaany : ℤ) - burnedTotal w umaany ≤ mirror ibc w := by
  obtain ⟨hmem, s', hs, rfl⟩ := step_ack_ok h
  show (s'.bank.burned moduleName umaany : ℤ) - w.state.bank.burned moduleName umaany ≤ _
  rcases onAcknowledgementPacket_cases hs with
    ⟨hf, -⟩ | ⟨data, amt, b, store, hr, hburn, hsub, hf⟩
  · rw [burned_of_forwardAck hI.escrow hmem hf, sub_self, hI.supply]
    exact Int.natCast_nonneg _
  · obtain ⟨-, hbank, hle, -⟩ := mirror_of_burn hI hr hburn hsub hf
    have hbd := hburn.burned moduleName umaany
    simp only [total_cons, total_nil, if_true, Nat.add_zero] at hbd
    have hpos := hr.positive
    rw [hbank, hbd]
    omega

/-- **Mirror-supply accounting**: on every run from a fresh chain whose native
denomination is `umaany`, in which `umaany` enters circulation through receives
only and is the only denomination sent that resolves to `umaany`, the stored
mirror supply is what was minted less what was burned, every acknowledged
transfer of the native denomination over an allow-listed channel is burned, and
no burn exceeds the stored mirror supply, so that the clamp is never taken. -/
theorem mirrorSupply_along_runs (app : TransferApp ibc) (params : Params) (w₀ : World)
    (es : List Event) (hfresh : Fresh ibc params w₀)
    (hpath : Run.Along (step app) (ReturnPath app) w₀ es)
    (hdenom : params.dexNativeDenom = umaany)
    (hsupply : w₀.state.bank.supply umaany = 0) (hsend : ∀ e ∈ es, UnambiguousSend ibc e) :
    mirror ibc (Run.run (step app) w₀ es)
      = mintedTotal (Run.run (step app) w₀ es) params.dexNativeDenom
        - burnedTotal (Run.run (step app) w₀ es) params.dexNativeDenom ∧
    ∀ packet bz w', step app (Run.run (step app) w₀ es) (.ack packet bz) = .ok w' →
      (∀ amt, AcksTransferOf ibc (Run.run (step app) w₀ es) packet bz params.dexNativeDenom amt →
        burnedTotal w' params.dexNativeDenom
          = burnedTotal (Run.run (step app) w₀ es) params.dexNativeDenom + amt.toNat) ∧
      (burnedTotal w' params.dexNativeDenom : ℤ)
        - burnedTotal (Run.run (step app) w₀ es) params.dexNativeDenom
        ≤ mirror ibc (Run.run (step app) w₀ es) := by
  have hstart : MirrorInv ibc params w₀ := by
    refine ⟨escrowInv_of_nil hfresh.commitments, hfresh.params_eq, ?_, ?_⟩
    · simp [mirror, getMirrorSupply, hfresh.unmirrored, hsupply]
    · simp [mintedTotal, burnedTotal, Bank.minted, Bank.burned, hfresh.events, hsupply]
  have hI : MirrorInv ibc params (Run.run (step app) w₀ es) := by
    apply Run.run_invariant (C := fun w e => ReturnPath app w e ∧ UnambiguousSend ibc e) hstart
    · intro w e w' hI hC h
      exact step_mirrorInv hdenom hI hC.1 hC.2 h
    · exact Run.along_and.mpr ⟨hpath, Run.along_of_forall fun e he _ => hsend e he⟩
  rw [hdenom]
  refine ⟨hI.supply.trans hI.issued, ?_⟩
  intro packet bz w' h
  exact ⟨fun amt hack => burned_of_ack hI h hack, burn_le_mirror hI h⟩

/-! ### Where the accounting breaks -/

/-- 7 of the provider's `stake` for Alice. -/
def incomingTransfer : FungibleTokenPacketData where
  denom := ascii "stake"
  amount := ascii "7"
  sender := ascii "maany1alice"
  receiver := ascii "dex1alice"

def incomingTransferJson : Bytes :=
  ascii ("\x7b\"denom\":\"stake\",\"amount\":\"7\"," ++
    "\"sender\":\"maany1alice\",\"receiver\":\"dex1alice\"\x7d")

def udexTransfer : FungibleTokenPacketData := { nativeTransfer with denom := ascii "udex" }

def udexTransferJson : Bytes :=
  ascii ("\x7b\"denom\":\"udex\",\"amount\":\"7\"," ++
    "\"sender\":\"dex1alice\",\"receiver\":\"maany1alice\"\x7d")

/-- Parameters with another native denomination; `Params.Validate` accepts
them. -/
def udexParams : Params := { defaultParams with dexNativeDenom := ascii "udex" }

def udexParamsJson : Bytes :=
  ascii ("\x7b\"authority\":\"\",\"pause\":false,\"allowed_base_denoms\":[\"stake\"]," ++
    "\"provider_chain_ids\":[\"maany-mainnet\"],\"dex_native_denom\":\"udex\"\x7d")

/-- The chain of the examples. -/
def mirrorIbc : Ibc :=
  chainIbc [(incomingTransferJson, incomingTransfer), (nativeTransferJson, nativeTransfer),
    (udexTransferJson, udexTransfer)] [(udexParamsJson, udexParams)]

/-- A world in which Alice holds 7 of `d`, issued by another module. -/
def aliceHolds (store : KVStore) (d : Denom) : World where
  state := chainState store {
    ledger := Ledger.empty.mint (.account (ascii "dex1alice")) d 7
    events := []
    bounded := by
      intro d'
      simp only [Ledger.supply_mint, Ledger.empty]
      split <;> norm_num }
  nextSequence _ := 1
  commitments := []

/-- The chain whose native denomination is `udex`. -/
def udexWorld : World := aliceHolds (chainStore.set keyParams udexParamsJson) (ascii "udex")

/-- The chain with default parameters, and `umaany` issued at genesis. -/
def genesisWorld : World := aliceHolds chainStore umaany

def udexSend : Event :=
  .send (.account (ascii "dex1alice")) (ascii "channel-0") transferPort (ascii "channel-3")
    udexTransferJson

/-- A run of the example chain. -/
def mirrorRun (w : World) (es : List Event) : World := Run.run (step (ics20 mirrorIbc)) w es

/-- Two ways to break the accounting.  When `dex_native_denom` is `udex`, an
acknowledged transfer of it is not burned; and `umaany` that genesis issued is
burned without ever having been counted, so that the counter is clamped. -/
theorem mirrorSupply_breaks :
    (Fresh mirrorIbc udexParams udexWorld ∧
      AcksTransferOf mirrorIbc (mirrorRun udexWorld [udexSend])
        ⟨1, transferPort, ascii "channel-0", transferPort, ascii "channel-3", udexTransferJson⟩
        successAck udexParams.dexNativeDenom 7 ∧
      (mirrorRun udexWorld [udexSend, ackOf 1 udexTransferJson]).commitments = [] ∧
      burnedTotal (mirrorRun udexWorld [udexSend, ackOf 1 udexTransferJson])
          udexParams.dexNativeDenom
        ≠ burnedTotal (mirrorRun udexWorld [udexSend]) udexParams.dexNativeDenom + 7) ∧
    (Fresh mirrorIbc defaultParams genesisWorld ∧
      mirror mirrorIbc (mirrorRun genesisWorld [nativeSend, ackOf 1 nativeTransferJson])
        ≠ mintedTotal (mirrorRun genesisWorld [nativeSend, ackOf 1 nativeTransferJson])
            defaultParams.dexNativeDenom
          - burnedTotal (mirrorRun genesisWorld [nativeSend, ackOf 1 nativeTransferJson])
            defaultParams.dexNativeDenom) := by
  refine ⟨⟨?_, ?_, ?_, ?_⟩, ?_, ?_⟩
  · exact ⟨by decide, by decide +kernel, by decide, rfl, rfl⟩
  · exact ⟨⟨[1], by decide⟩, by decide +kernel, udexTransfer, by decide +kernel, rfl,
      by decide +kernel⟩
  · decide +kernel
  · decide +kernel
  · exact ⟨by decide, by decide, by decide, rfl, rfl⟩
  · decide +kernel

/-- The provider's 7 `stake`, received. -/
def incomingRecv : Event :=
  .recv ⟨1, transferPort, ascii "channel-3", transferPort, ascii "channel-0", incomingTransferJson⟩

/-- The same chain without the genesis issue: `umaany` comes from the provider. -/
def emptyWorld : World := ⟨chainState chainStore Bank.empty, fun _ => 1, []⟩

/-- There the accounting is exact, with 7 `umaany` minted, sent and burned. -/
theorem mirrorSupply_example :
    (mintedTotal (mirrorRun emptyWorld [incomingRecv, nativeSend, ackOf 1 nativeTransferJson])
        defaultParams.dexNativeDenom = 7 ∧
      burnedTotal (mirrorRun emptyWorld [incomingRecv, nativeSend, ackOf 1 nativeTransferJson])
        defaultParams.dexNativeDenom = 7) ∧
    mirror mirrorIbc (mirrorRun emptyWorld [incomingRecv, nativeSend, ackOf 1 nativeTransferJson])
      = mintedTotal (mirrorRun emptyWorld [incomingRecv, nativeSend, ackOf 1 nativeTransferJson])
          defaultParams.dexNativeDenom
        - burnedTotal (mirrorRun emptyWorld [incomingRecv, nativeSend, ackOf 1 nativeTransferJson])
          defaultParams.dexNativeDenom := by
  have hin : mirrorIbc.unmarshalPacketData incomingTransferJson = some incomingTransfer := by decide
  refine ⟨by decide +kernel, (mirrorSupply_along_runs (ics20 mirrorIbc) defaultParams emptyWorld
    [incomingRecv, nativeSend, ackOf 1 nativeTransferJson] ⟨by decide, by decide, by decide, rfl, rfl⟩
    ⟨?_, trivial, trivial, trivial⟩ rfl rfl ?_).1⟩
  · intro _ data hdata
    cases hin.symm.trans hdata
    decide
  · intro e he
    simp only [List.mem_cons, List.not_mem_nil, or_false] at he
    rcases he with rfl | rfl | rfl
    · trivial
    · exact unambiguousSend_native (by decide +kernel)
    · trivial

end MaanyDex.MintBurn
