/-
Escrow safety of the return path.

On a success acknowledgement the middleware burns `umaany` from the channel's
escrow account whenever the packet's *base* denomination is `umaany`.  A packet
that carries a voucher with that base has put the voucher in escrow, not
`umaany`, so its burn eats into what other packets escrowed
(`voucher_ack_robs_escrow`).

The invariant `Covered` says that each escrow account holds at least what the
unresolved packets of its channel put there.
-/
import MaanyDex.MintBurn.Ics20

namespace MaanyDex.MintBurn

variable {ibc : Ibc} {app : TransferApp ibc} {w w' : World} {packet : Packet}

/-! ### What unresolved packets are owed -/

/-- What one packet put into the escrow account of `(port, channel)`. -/
def owed (ibc : Ibc) (port channel : Bytes) (d : Denom) (packet : Packet) : ℕ :=
  if packet.sourcePort = port ∧ packet.sourceChannel = channel then
    total (ibc.escrowedCoin packet).toList d
  else 0

/-- What a list of packets put there. -/
def outstanding (ibc : Ibc) (packets : List Packet) (port channel : Bytes) (d : Denom) : ℕ :=
  (packets.map (owed ibc port channel d)).sum

@[simp] lemma outstanding_cons (packets : List Packet) (port channel : Bytes) (d : Denom) :
    outstanding ibc (packet :: packets) port channel d
      = owed ibc port channel d packet + outstanding ibc packets port channel d := by
  simp [outstanding]

variable {packets : List Packet}

lemma outstanding_erase (h : packet ∈ packets) (port channel : Bytes)
    (d : Denom) :
    owed ibc port channel d packet + outstanding ibc (packets.erase packet) port channel d
      = outstanding ibc packets port channel d :=
  List.sum_map_erase (owed ibc port channel d) h

lemma owed_of_escrowedCoin {c : Coin} (h : ibc.escrowedCoin packet = some c)
    (port channel : Bytes) (d : Denom) :
    owed ibc port channel d packet
      = if Address.escrow port channel = .escrow packet.sourcePort packet.sourceChannel
        then total [c] d else 0 := by
  simp only [owed, h, Option.toList_some, Address.escrow.injEq, eq_comm]

/-- Every escrow account holds what the packets put there. -/
def Covered (ibc : Ibc) (packets : List Packet) (b : Bank) : Prop :=
  ∀ port channel d, outstanding ibc packets port channel d ≤ b.balance (.escrow port channel) d

/-- No escrow account loses. -/
def EscrowGrows (b b' : Bank) : Prop :=
  ∀ port channel d, b.balance (.escrow port channel) d ≤ b'.balance (.escrow port channel) d

/-- No escrow account loses more than the packet put there. -/
def EscrowPays (ibc : Ibc) (packet : Packet) (b b' : Bank) : Prop :=
  ∀ port channel d, b.balance (.escrow port channel) d
    ≤ b'.balance (.escrow port channel) d + owed ibc port channel d packet

variable {b b' : Bank}

lemma EscrowGrows.pays (h : EscrowGrows b b') : EscrowPays ibc packet b b' :=
  fun port channel d => (h port channel d).trans (Nat.le_add_right _ _)

lemma Covered.grows (h : Covered ibc packets b) (hb : EscrowGrows b b') : Covered ibc packets b' :=
  fun port channel d => (h port channel d).trans (hb port channel d)

lemma Covered.resolve (h : Covered ibc packets b) (hmem : packet ∈ packets)
    (hb : EscrowPays ibc packet b b') : Covered ibc (packets.erase packet) b' := by
  intro port channel d
  have h₁ := h port channel d
  have h₂ := hb port channel d
  have h₃ := @outstanding_erase ibc packet packets hmem port channel d
  omega

/-! ### Bank effects seen from escrow -/

variable {src dst : Address} {cs : Coins}

lemma escrowGrows_of_sent (hsrc : ∀ port channel, src ≠ .escrow port channel)
    (h : Bank.Sent src dst cs b b') : EscrowGrows b b' := by
  intro port channel d
  have e := h.balance (.escrow port channel) d
  rw [if_neg (hsrc port channel).symm] at e
  omega

variable {m : Bytes}

lemma escrowGrows_of_minted (h : Bank.Minted m dst cs b b') : EscrowGrows b b' := by
  intro port channel d
  rw [h.balance]
  exact Nat.le_add_right _ _

lemma escrowGrows_of_burned (hsrc : ∀ port channel, src ≠ .escrow port channel)
    (h : Bank.Burned m src cs b b') : EscrowGrows b b' := by
  intro port channel d
  have e := h.balance (.escrow port channel) d
  rw [if_neg (hsrc port channel).symm] at e
  omega

lemma user_ne_escrow {a : Address} (h : a.isUser = true) (port channel : Bytes) :
    a ≠ .escrow port channel := by
  rintro rfl
  cases h

lemma escrowPays_of_refunded (h : Refunded ibc packet b b') : EscrowPays ibc packet b b' := by
  obtain ⟨data, amt, sender, hdata, hamt, h⟩ := h
  split at h
  · exact (escrowGrows_of_minted h).pays
  · rename_i hsrc
    have hc : ibc.escrowedCoin packet = some ⟨ibc.localDenom data.denom, amt⟩ := by
      simp [Ibc.escrowedCoin, hdata, hamt, hsrc]
    intro port channel d
    have e := h.balance (.escrow port channel) d
    rw [owed_of_escrowedCoin hc]
    omega

/-! ### The burn of an acknowledgement -/

/-- The code resolves the packet to `umaany` only when it carries `umaany`. -/
def Unambiguous (ibc : Ibc) (packet : Packet) : Prop :=
  ∀ data, ibc.unmarshalPacketData packet.data = some data →
    resolveBaseDenom ibc packet data.denom = umaany → data.denom = umaany

variable {s : State} {bz : Bytes}

/-- An unambiguous packet on the burn path has escrowed the very coin that is
burned. -/
lemma escrowedCoin_of_burnReady {data : FungibleTokenPacketData}
    {amt : ℤ} (hu : Unambiguous ibc packet) (h : BurnReady app.env s packet bz data amt) :
    ibc.escrowedCoin packet = some ⟨umaany, amt⟩ := by
  have hdata : ibc.unmarshalPacketData packet.data = some data := h.decoded
  have hamt : ibc.newIntFromString data.amount = some amt := h.amount
  have hdenom : data.denom = umaany := hu data hdata h.base
  have hsrc := receiverChainIsSource_umaany ibc packet.sourceChannel
  rw [← h.port] at hsrc
  simp [Ibc.escrowedCoin, hdata, hamt, hdenom, hsrc, localDenom_umaany]

variable {s' : State}

/-- What a successful acknowledgement handler does to the bank: a success leaves
it alone or burns the packet's own coin from its own escrow account, anything
else leaves it alone or refunds. -/
lemma onAcknowledgementPacket_bank (hu : Unambiguous ibc packet)
    (h : onAcknowledgementPacket app.env s packet bz = .ok s') :
    s'.bank = s.bank ∨
    (∃ c, ibc.escrowedCoin packet = some c ∧ Bank.Burned moduleName
      (.escrow packet.sourcePort packet.sourceChannel) [c] s.bank s'.bank) ∨
    (Refunded ibc packet s.bank s'.bank ∧ ∃ msg, ibc.unmarshalAck bz = some (.error msg)) := by
  rcases onAcknowledgementPacket_cases h with ⟨hf, -⟩ | ⟨data, amt, b, store, hr, hburn, -, hf⟩
  · rcases app.ack_ok (forwardAck_ok hf).1 with ⟨hb, -⟩ | hrefund
    · exact .inl hb
    · exact .inr (.inr hrefund)
  · refine .inr (.inl ⟨_, escrowedCoin_of_burnReady hu hr, ?_⟩)
    rcases app.ack_ok (forwardAck_ok hf).1 with ⟨hb, -⟩ | ⟨-, msg, hmsg⟩
    · rw [hb]
      exact hburn
    · -- the acknowledgement was a success, so ICS-20 does not refund
      obtain ⟨r, hres⟩ := hr.success
      exact absurd (hres.symm.trans hmsg) (by simp)

lemma escrowPays_of_acknowledgement (hu : Unambiguous ibc packet)
    (h : onAcknowledgementPacket app.env s packet bz = .ok s') :
    EscrowPays ibc packet s.bank s'.bank := by
  rcases onAcknowledgementPacket_bank hu h with hb | ⟨c, hc, hburn⟩ | ⟨hrefund, -⟩
  · intro port channel d
    rw [hb]
    exact Nat.le_add_right _ _
  · intro port channel d
    have e := hburn.balance (.escrow port channel) d
    rw [owed_of_escrowedCoin hc]
    omega
  · exact escrowPays_of_refunded hrefund

/-! ### The invariant -/

variable (app) in
/-- The events of the return path: packets received meanwhile may be minted or
turned into vouchers, but those handed on to ICS-20 do not bring coins back out
of escrow. -/
def ReturnPath (w : World) : Event → Prop
  | .recv packet => onRecvPacket app.env w.state packet = forwardRecv app.env w.state packet →
      ∀ data, ibc.unmarshalPacketData packet.data = some data →
        ibc.receiverChainIsSource packet.sourcePort packet.sourceChannel data.denom = false
  | _ => True

/-- `umaany` is the only denomination sent that the code resolves to `umaany`. -/
def UnambiguousSend (ibc : Ibc) : Event → Prop
  | .send _ channel destPort destChannel data =>
    ∀ n, Unambiguous ibc ⟨n, transferPort, channel, destPort, destChannel, data⟩
  | _ => True

/-- A packet as sends create them: from the transfer port, with a readable
positive amount. -/
structure WellSent (ibc : Ibc) (packet : Packet) : Prop where
  port : packet.sourcePort = transferPort
  readable : ∃ data amt, ibc.unmarshalPacketData packet.data = some data ∧
    ibc.newIntFromString data.amount = some amt ∧ 0 < amt

/-- The invariant: escrow accounts cover the unresolved packets, which are well
formed and unambiguous. -/
structure EscrowInv (ibc : Ibc) (w : World) : Prop where
  covered : Covered ibc w.commitments w.state.bank
  wellSent : ∀ packet ∈ w.commitments, WellSent ibc packet
  unambiguous : ∀ packet ∈ w.commitments, Unambiguous ibc packet

lemma EscrowInv.of_bank (h : EscrowInv ibc w)
    (hb : EscrowGrows w.state.bank s'.bank) : EscrowInv ibc { w with state := s' } :=
  ⟨h.covered.grows hb, h.wellSent, h.unambiguous⟩

lemma EscrowInv.resolve (h : EscrowInv ibc w) (hmem : packet ∈ w.commitments)
    (hb : EscrowPays ibc packet w.state.bank s'.bank) :
    EscrowInv ibc { w with state := s', commitments := w.commitments.erase packet } :=
  ⟨h.covered.resolve hmem hb, fun p hp => h.wellSent p (List.mem_of_mem_erase hp),
    fun p hp => h.unambiguous p (List.mem_of_mem_erase hp)⟩

lemma escrowGrows_of_recv (hpath : ReturnPath app w (.recv packet))
    (h : recvPacket app.env w.state packet = .ok s') : EscrowGrows w.state.bank s'.bank := by
  rcases recvPacket_cases h with rfl | ⟨hon, b, ack, happ, hne, rfl⟩ | ⟨data, rcpt, amt, hm, -⟩
  · exact fun _ _ _ => le_rfl
  · rcases app.recv_ok happ hne with rfl | ⟨data, amt, receiver, hdata, hr⟩
    · exact fun _ _ _ => le_rfl
    · rw [if_neg (by simp [hpath hon data hdata])] at hr
      exact escrowGrows_of_minted hr
  · exact escrowGrows_of_minted hm.minted

lemma covered_of_send {sender : Address}
    (hsender : sender.isUser = true) (hcov : Covered ibc packets b)
    (h : sendTransfer ibc b sender packet = .ok b') : Covered ibc (packet :: packets) b' := by
  obtain ⟨data, amt, hdata, hamt, -, heff⟩ := sendTransfer_ok h
  intro port channel d
  rw [outstanding_cons]
  have hc := hcov port channel d
  split at heff
  · -- a returning voucher escrows nothing
    rename_i hsrc
    have hnone : ibc.escrowedCoin packet = none := by
      simp [Ibc.escrowedCoin, hdata, hamt, hsrc]
    have hg := escrowGrows_of_burned (user_ne_escrow hsender) heff port channel d
    simp only [owed, hnone, Option.toList_none, total_nil, ite_self]
    omega
  · rename_i hsrc
    have hcoin : ibc.escrowedCoin packet = some ⟨ibc.localDenom data.denom, amt⟩ := by
      simp [Ibc.escrowedCoin, hdata, hamt, hsrc]
    have e := heff.balance (.escrow port channel) d
    rw [if_neg (user_ne_escrow hsender port channel).symm] at e
    rw [owed_of_escrowedCoin hcoin]
    omega

lemma step_escrowInv {e : Event} (hI : EscrowInv ibc w) (hpath : ReturnPath app w e)
    (hsend : UnambiguousSend ibc e) (h : step app w e = .ok w') : EscrowInv ibc w' := by
  cases e with
  | send sender channel destPort destChannel data =>
    rw [step] at h
    split at h
    · cases h
    rename_i huser
    obtain ⟨b, hb, hw⟩ := Run.bind_ok h
    cases hw
    refine ⟨covered_of_send (by simpa using huser) hI.covered hb, ?_, ?_⟩
    · intro p hp
      rcases List.mem_cons.mp hp with rfl | hp
      · obtain ⟨data, amt, hdata, hamt, hpos, -⟩ := sendTransfer_ok hb
        exact ⟨rfl, data, amt, hdata, hamt, hpos⟩
      · exact hI.wellSent p hp
    · intro p hp
      rcases List.mem_cons.mp hp with rfl | hp
      · exact hsend _
      · exact hI.unambiguous p hp
  | ack packet bz =>
    obtain ⟨hmem, s', hs, rfl⟩ := step_ack_ok h
    exact hI.resolve hmem (escrowPays_of_acknowledgement (hI.unambiguous packet hmem) hs)
  | timeout packet =>
    rw [step] at h
    split at h
    · rename_i hmem
      obtain ⟨s', hs, hw⟩ := Run.bind_ok h
      cases hw
      exact hI.resolve hmem (escrowPays_of_refunded (app.timeout_ok (onTimeoutPacket_ok hs).1))
    · cases h
  | recv packet =>
    obtain ⟨s', hs, hw⟩ := Run.bind_ok h
    cases hw
    exact hI.of_bank (escrowGrows_of_recv hpath hs)
  | bankSend sender dst coin =>
    rw [step] at h
    split at h
    · cases h
    rename_i huser
    obtain ⟨b, hb, hw⟩ := Run.bind_ok h
    cases hw
    have hg : EscrowGrows w.state.bank b :=
      escrowGrows_of_sent (user_ne_escrow (by simpa using huser)) (Bank.sendCoins_ok hb)
    exact ⟨hI.covered.grows hg, hI.wellSent, hI.unambiguous⟩
  | chan callback portID channelID =>
    obtain ⟨s', hs, hw⟩ := Run.bind_ok h
    cases hw
    apply hI.of_bank
    rw [(onChan_ok hs).1]
    exact fun _ _ _ => le_rfl
  | core channels connections providerClientID =>
    cases h
    exact hI.of_bank fun _ _ _ => le_rfl

lemma escrowInv_of_nil (h : w.commitments = []) : EscrowInv ibc w := by
  refine ⟨?_, ?_, ?_⟩
  · intro port channel d
    rw [h]
    exact Nat.zero_le _
  · rw [h]
    intro packet hp
    cases hp
  · rw [h]
    intro packet hp
    cases hp

/-- **Escrow safety of the return path**: in every run that starts without
unresolved packets and in which `umaany` is the only denomination sent that
resolves to `umaany`, every escrow account holds what the unresolved packets put
there, and a success acknowledgement burns nothing or exactly the coin that its
own packet put in escrow. -/
theorem escrow_covered_along_runs (app : TransferApp ibc) (w₀ : World) (es : List Event)
    (h₀ : w₀.commitments = []) (hpath : Run.Along (step app) (ReturnPath app) w₀ es)
    (hsend : ∀ e ∈ es, UnambiguousSend ibc e) :
    Covered ibc (Run.run (step app) w₀ es).commitments (Run.run (step app) w₀ es).state.bank ∧
    ∀ packet bz w', step app (Run.run (step app) w₀ es) (.ack packet bz) = .ok w' →
      (∃ r, ibc.unmarshalAck bz = some (.result r)) →
      w'.state.bank = (Run.run (step app) w₀ es).state.bank ∨
      ∃ c, ibc.escrowedCoin packet = some c ∧
        Bank.Burned moduleName (.escrow packet.sourcePort packet.sourceChannel) [c]
          (Run.run (step app) w₀ es).state.bank w'.state.bank := by
  have hI : EscrowInv ibc (Run.run (step app) w₀ es) := by
    apply Run.run_invariant (C := fun w e => ReturnPath app w e ∧ UnambiguousSend ibc e)
      (escrowInv_of_nil h₀)
    · intro w e w' hI hC h
      exact step_escrowInv hI hC.1 hC.2 h
    · exact Run.along_and.mpr ⟨hpath, Run.along_of_forall fun e he _ => hsend e he⟩
  refine ⟨hI.covered, ?_⟩
  intro packet bz w' h ⟨r, hr⟩
  obtain ⟨hmem, s', hs, rfl⟩ := step_ack_ok h
  rcases onAcknowledgementPacket_bank (hI.unambiguous packet hmem) hs with
    hb | hburn | ⟨-, msg, hmsg⟩
  · exact .inl hb
  · exact .inr hburn
  · exact absurd (hr.symm.trans hmsg) (by simp)

/-! ### Two packets of different denominations -/

def nativeTransfer : FungibleTokenPacketData where
  denom := umaany
  amount := ascii "7"
  sender := ascii "dex1alice"
  receiver := ascii "maany1alice"

/-- Bob sends 7 of a voucher whose base denomination is `umaany`. -/
def voucherTransfer : FungibleTokenPacketData where
  denom := ascii "transfer/channel-5/umaany"
  amount := ascii "7"
  sender := ascii "dex1bob"
  receiver := ascii "maany1bob"

def nativeTransferJson : Bytes :=
  ascii ("\x7b\"denom\":\"umaany\",\"amount\":\"7\"," ++
    "\"sender\":\"dex1alice\",\"receiver\":\"maany1alice\"\x7d")

def voucherTransferJson : Bytes :=
  ascii ("\x7b\"denom\":\"transfer/channel-5/umaany\",\"amount\":\"7\"," ++
    "\"sender\":\"dex1bob\",\"receiver\":\"maany1bob\"\x7d")

/-- The chain on which the two transfers are made. -/
def escrowIbc : Ibc :=
  chainIbc [(nativeTransferJson, nativeTransfer), (voucherTransferJson, voucherTransfer)] []

/-- Alice holds 7 `umaany`, Bob 7 of the voucher. -/
def escrowBank : Bank where
  ledger := (Ledger.empty.mint (.account (ascii "dex1alice")) umaany 7).mint
    (.account (ascii "dex1bob")) (ascii "ibc/" ++ voucherDigest) 7
  events := []
  bounded d := by
    simp only [Ledger.supply_mint, Ledger.empty]
    split <;> split <;> norm_num

def escrowWorld : World := ⟨chainState chainStore escrowBank, fun _ => 1, []⟩

def nativeSend : Event :=
  .send (.account (ascii "dex1alice")) (ascii "channel-0") transferPort (ascii "channel-3")
    nativeTransferJson

def voucherSend : Event :=
  .send (.account (ascii "dex1bob")) (ascii "channel-0") transferPort (ascii "channel-3")
    voucherTransferJson

/-- The success acknowledgement of the packet with a given number. -/
def ackOf (sequence : ℕ) (data : Bytes) : Event :=
  .ack ⟨sequence, transferPort, ascii "channel-0", transferPort, ascii "channel-3", data⟩ successAck

/-- The acknowledgement of Bob's voucher burns the `umaany` that Alice's packet
still has in escrow. -/
theorem voucher_ack_robs_escrow :
    Run.Along (step (ics20 escrowIbc)) (ReturnPath (ics20 escrowIbc)) escrowWorld
      [nativeSend, voucherSend, ackOf 2 voucherTransferJson] ∧
    ¬ Covered escrowIbc
      (Run.run (step (ics20 escrowIbc)) escrowWorld
        [nativeSend, voucherSend, ackOf 2 voucherTransferJson]).commitments
      (Run.run (step (ics20 escrowIbc)) escrowWorld
        [nativeSend, voucherSend, ackOf 2 voucherTransferJson]).state.bank := by
  constructor
  · exact ⟨trivial, trivial, trivial, trivial⟩
  · intro h
    have hbad := h transferPort (ascii "channel-0") umaany
    revert hbad
    decide +kernel

lemma unambiguousSend_native {ibc : Ibc}
    (h : ibc.unmarshalPacketData nativeTransferJson = some nativeTransfer) :
    UnambiguousSend ibc nativeSend := by
  intro n data hdata _
  cases h.symm.trans hdata
  rfl

/-- Without Bob's voucher the escrow account covers Alice's packet, and its
acknowledgement burns what it put there. -/
theorem native_send_covered :
    Covered escrowIbc
      (Run.run (step (ics20 escrowIbc)) escrowWorld [nativeSend]).commitments
      (Run.run (step (ics20 escrowIbc)) escrowWorld [nativeSend]).state.bank ∧
    ∃ w' c, step (ics20 escrowIbc) (Run.run (step (ics20 escrowIbc)) escrowWorld [nativeSend])
        (ackOf 1 nativeTransferJson) = .ok w' ∧
      Bank.Burned moduleName (.escrow transferPort (ascii "channel-0")) [c]
        (Run.run (step (ics20 escrowIbc)) escrowWorld [nativeSend]).state.bank w'.state.bank := by
  have hruns := escrow_covered_along_runs (ics20 escrowIbc) escrowWorld [nativeSend] rfl
    ⟨trivial, trivial⟩ (by simpa using unambiguousSend_native (by decide))
  -- the acknowledgement takes 7 `umaany` out of circulation
  have hsupply : (step (ics20 escrowIbc) (Run.run (step (ics20 escrowIbc)) escrowWorld [nativeSend])
        (ackOf 1 nativeTransferJson)).toOption.map (·.state.bank.supply umaany) = some 0
      ∧ (Run.run (step (ics20 escrowIbc)) escrowWorld [nativeSend]).state.bank.supply umaany = 7 := by
    decide +kernel
  refine ⟨hruns.1, ?_⟩
  rcases hstep : step (ics20 escrowIbc) (Run.run (step (ics20 escrowIbc)) escrowWorld [nativeSend])
    (ackOf 1 nativeTransferJson) with f | w'
  · rw [hstep] at hsupply
    cases hsupply.1
  rw [hstep] at hsupply
  rcases hruns.2 _ _ w' hstep ⟨[1], by decide⟩ with hsame | ⟨c, -, hburned⟩
  · have hzero : w'.state.bank.supply umaany = 0 := Option.some.inj hsupply.1
    rw [hsame, hsupply.2] at hzero
    cases hzero
  · exact ⟨w', c, rfl, hburned⟩

end MaanyDex.MintBurn
