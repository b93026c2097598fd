/-
The fee account holds what the records say, in every run.

The invariant ties three things together: the balance of the account and the records; the
records and the packets that are not resolved, which carry what their senders locked; and
all identities and the numbering of IBC core, because a new record must not replace an old
one.
-/
import MaanyDex.FeeRefunder.Relaying
import MaanyDex.Lib.Deposits

namespace MaanyDex.FeeRefunder

open List Run AList

/-! ### Numbering -/

/-- IBC core has given out the identity. -/
structure Numbered (next : AList fun _ : Bytes × Bytes => ℕ) (id : PacketID) : Prop
    extends id.Proper where
  given : ∃ n, next.lookup (id.portId, id.channelId) = some n ∧ id.sequence < n

variable {next next' : AList fun _ : Bytes × Bytes => ℕ} {id : PacketID} {port channel : Bytes}
  {n : ℕ}

lemma Numbered.mono (h : Numbered next id)
    (hle : ∀ pc n, next.lookup pc = some n → ∃ n', next'.lookup pc = some n' ∧ n ≤ n') :
    Numbered next' id := by
  obtain ⟨n, hn, hlt⟩ := h.given
  obtain ⟨n', hn', hnn'⟩ := hle _ n hn
  exact ⟨h.toProper, n', hn', hlt.trans_le hnn'⟩

variable {pc : Bytes × Bytes}

/-- Counting on, or opening a channel, keeps what was given out. -/
lemma le_insert (h : ∀ n', next.lookup pc = some n' → n' ≤ n) :
    ∀ pc' n', next.lookup pc' = some n' →
      ∃ n'', (next.insert pc n).lookup pc' = some n'' ∧ n' ≤ n'' := by
  intro pc' n' hn'
  by_cases hpc : pc' = pc
  · subst hpc
    exact ⟨n, lookup_insert _, h n' hn'⟩
  · rw [lookup_insert_ne hpc]
    exact ⟨n', hn', le_rfl⟩

lemma Numbered.ne (h : Numbered next id) (hn : next.lookup (port, channel) = some n) :
    id ≠ ⟨channel, port, n⟩ := by
  rintro rfl
  obtain ⟨n', hn', hlt⟩ := h.given
  rw [hn] at hn'
  cases hn'
  exact absurd hlt (lt_irrefl _)

/-! ### The invariant -/

variable {chain : Chain}

/-- Packets whose handlers distribute fees. -/
def Packet.ofContract (chain : Chain) (p : Packet) : Bool :=
  match p.data with
  | .fungibleToken _ sender _ _ => (chain.accAddressFromBech32 sender).any chain.hasContractInfo
  | .interchainAccount _ _ => true

/-- The sender of a transfer is not the fee account. -/
def Packet.Foreign (chain : Chain) (p : Packet) : Prop :=
  ∀ token sender receiver memo, p.data = .fungibleToken token sender receiver memo →
    chain.accAddressFromBech32 sender ≠ some feeAccount

/-- What is held for the records. -/
def heldFor (s : State) (d : Denom) : ℤ :=
  Deposits.held (fun info : FeeInfo => info.fee.totalOf d) s.feeInfos

/-- The fees of contracts are in custody. -/
structure Custody (chain : Chain) (w : World) : Prop where
  balance : ∀ d, (w.fees.bank.balance feeAccount d : ℤ) = heldFor w.fees d + w.donated d
  channels : ∀ port channel n, w.nextSequenceSend.lookup (port, channel) = some n → 59 ∉ channel
  records : ∀ k info, w.fees.feeInfos.lookup k = some info →
    k = getFeePacketKey info.packetId ∧ Numbered w.nextSequenceSend info.packetId
      ∧ ∀ d, info.fee.totalOf d = net info.fee.ackFee d + net info.fee.timeoutFee d
  numbered : ∀ e ∈ w.commitments, Numbered w.nextSequenceSend e.1.id
  foreign : ∀ e ∈ w.commitments, e.1.Foreign chain
  unlocked : ∀ p, (p, none) ∈ w.commitments → p.ofContract chain = false
  locked : ∀ p payer fee, (p, some (payer, fee)) ∈ w.commitments →
    p.ofContract chain = true
      ∧ w.fees.feeInfos.lookup (getFeePacketKey p.id) = some ⟨chain.bech32 payer, p.id, fee⟩
  distinct : (w.commitments.map (·.1.id)).Nodup

variable {w w' : World}

lemma Initial.custody (h : Initial w) : Custody chain w where
  balance d := by
    rw [h.balance, heldFor, h.feeInfos]
    simp
  channels := h.channels
  records k info hinfo := by
    rw [h.feeInfos] at hinfo
    cases hinfo
  numbered e he := by
    rw [h.commitments] at he
    cases he
  foreign e he := by
    rw [h.commitments] at he
    cases he
  unlocked p hp := by
    rw [h.commitments] at hp
    cases hp
  locked p payer fee hp := by
    rw [h.commitments] at hp
    cases hp
  distinct := by
    rw [h.commitments]
    exact nodup_nil

section

variable (h : Custody chain w)

include h

lemma Custody.lookup_next (hn : w.nextSequenceSend.lookup (port, channel) = some n)
    (hlt : n < 2 ^ 64) : w.fees.feeInfos.lookup (getFeePacketKey ⟨channel, port, n⟩) = none := by
  rcases hinfo : w.fees.feeInfos.lookup (getFeePacketKey ⟨channel, port, n⟩) with - | info
  · rfl
  · obtain ⟨hkey, hnumbered, -⟩ := h.records _ info hinfo
    have hproper : PacketID.Proper ⟨channel, port, n⟩ := ⟨h.channels port channel n hn, hlt⟩
    have heq := getFeePacketKey_inj hproper hnumbered.toProper hkey
    exact absurd heq.symm (hnumbered.ne hn)

/-- The bank and the donations move together, and nothing else changes. -/
lemma Custody.donate (bank : Bank) (δ : Denom → ℤ)
    (hbank : ∀ d, (bank.balance feeAccount d : ℤ) = w.fees.bank.balance feeAccount d + δ d) :
    Custody chain { w with
      fees := { w.fees with bank := bank }
      donated := fun d => w.donated d + δ d } where
  __ := h
  balance d := by
    show (bank.balance feeAccount d : ℤ) = heldFor w.fees d + (w.donated d + δ d)
    rw [hbank, h.balance]
    ring

lemma Custody.renumber {m : ℕ}
    (hle : ∀ n', w.nextSequenceSend.lookup pc = some n' → n' ≤ m) (hpc : 59 ∉ pc.2) :
    Custody chain { w with nextSequenceSend := w.nextSequenceSend.insert pc m } where
  __ := h
  channels port channel n hn := by
    by_cases heq : (port, channel) = pc
    · rw [← heq] at hpc
      exact hpc
    · have hn' : (w.nextSequenceSend.insert pc m).lookup (port, channel) = some n := hn
      rw [lookup_insert_ne heq] at hn'
      exact h.channels port channel n hn'
  records k info hinfo := by
    obtain ⟨hkey, hnumbered, htotal⟩ := h.records k info hinfo
    exact ⟨hkey, hnumbered.mono (le_insert hle), htotal⟩
  numbered e he := (h.numbered e he).mono (le_insert hle)

/-- A record is written under a new identity, and its fees come in. -/
lemma Custody.lock (fees : State) (info : FeeInfo)
    (hid : Numbered w.nextSequenceSend info.packetId)
    (hnew : w.fees.feeInfos.lookup (getFeePacketKey info.packetId) = none)
    (hinfos : fees.feeInfos = w.fees.feeInfos.insert (getFeePacketKey info.packetId) info)
    (htotal : ∀ d, info.fee.totalOf d = net info.fee.ackFee d + net info.fee.timeoutFee d)
    (hbank : ∀ d, (fees.bank.balance feeAccount d : ℤ)
      = w.fees.bank.balance feeAccount d + info.fee.totalOf d) :
    Custody chain { w with fees := fees } where
  __ := h
  balance d := by
    have hheld : heldFor fees d = heldFor w.fees d + info.fee.totalOf d := by
      unfold heldFor
      rw [hinfos, Deposits.held_insert_new hnew]
    show (fees.bank.balance feeAccount d : ℤ) = heldFor fees d + w.donated d
    rw [hbank, h.balance, hheld]
    ring
  records k info' hk := by
    have hk' : fees.feeInfos.lookup k = some info' := hk
    rw [hinfos] at hk'
    by_cases heq : k = getFeePacketKey info.packetId
    · subst heq
      rw [lookup_insert] at hk'
      cases hk'
      exact ⟨rfl, hid, htotal⟩
    · rw [lookup_insert_ne heq] at hk'
      exact h.records k info' hk'
  locked p payer fee hp := by
    obtain ⟨hcontract, hrecord⟩ := h.locked p payer fee hp
    refine ⟨hcontract, ?_⟩
    show fees.feeInfos.lookup _ = _
    rw [hinfos, lookup_insert_ne, hrecord]
    intro heq
    rw [heq, hnew] at hrecord
    cases hrecord

lemma Custody.commit (p : Packet) (locked : Option (Address × Fee))
    (hid : Numbered w.nextSequenceSend p.id) (hnew : ∀ e ∈ w.commitments, e.1.id ≠ p.id)
    (hforeign : p.Foreign chain) (hnone : locked = none → p.ofContract chain = false)
    (hsome : ∀ payer fee, locked = some (payer, fee) → p.ofContract chain = true
      ∧ w.fees.feeInfos.lookup (getFeePacketKey p.id) = some ⟨chain.bech32 payer, p.id, fee⟩) :
    Custody chain { w with commitments := (p, locked) :: w.commitments } where
  __ := h
  numbered e he := by
    rcases mem_cons.mp he with rfl | he
    · exact hid
    · exact h.numbered e he
  foreign e he := by
    rcases mem_cons.mp he with rfl | he
    · exact hforeign
    · exact h.foreign e he
  unlocked q hq := by
    rcases mem_cons.mp hq with heq | hq
    · cases heq
      exact hnone rfl
    · exact h.unlocked q hq
  locked q payer fee hq := by
    rcases mem_cons.mp hq with heq | hq
    · cases heq
      exact hsome payer fee rfl
    · exact h.locked q payer fee hq
  distinct := by
    show ((p, locked) :: w.commitments |>.map (·.1.id)).Nodup
    rw [map_cons, nodup_cons]
    refine ⟨fun hmem => ?_, h.distinct⟩
    obtain ⟨e, he, heq⟩ := mem_map.mp hmem
    exact hnew e he heq

lemma Custody.forget (p : Packet) :
    Custody chain { w with commitments := w.commitments.filter fun e => e.1 ≠ p } where
  __ := h
  numbered e he := h.numbered e (mem_filter.mp he).1
  foreign e he := h.foreign e (mem_filter.mp he).1
  unlocked q hq := h.unlocked q (mem_filter.mp hq).1
  locked q payer fee hq := h.locked q payer fee (mem_filter.mp hq).1
  distinct := h.distinct.sublist (filter_sublist.map _)

lemma Custody.ne_of_mem_filter {e e' : Packet × Option (Address × Fee)} (he : e ∈ w.commitments)
    (he' : e' ∈ w.commitments.filter fun e' => e'.1 ≠ e.1) : e'.1.id ≠ e.1.id := by
  obtain ⟨hmem, hne⟩ := mem_filter.mp he'
  intro heq
  have hsame : e' = e := inj_on_of_nodup_map h.distinct hmem he heq
  rw [hsame] at hne
  simp at hne

/-- A record that belongs to no packet any more is erased, and its fees go out. -/
lemma Custody.unlock (fees : State) (info : FeeInfo)
    (hrecord : w.fees.feeInfos.lookup (getFeePacketKey info.packetId) = some info)
    (hgone : ∀ e ∈ w.commitments, e.1.id ≠ info.packetId)
    (hinfos : fees.feeInfos = w.fees.feeInfos.erase (getFeePacketKey info.packetId))
    (hbank : ∀ d, (fees.bank.balance feeAccount d : ℤ)
      = w.fees.bank.balance feeAccount d - info.fee.totalOf d) :
    Custody chain { w with fees := fees } where
  __ := h
  balance d := by
    have hheld : heldFor fees d = heldFor w.fees d - info.fee.totalOf d := by
      unfold heldFor
      rw [hinfos, Deposits.held_erase hrecord]
    show (fees.bank.balance feeAccount d : ℤ) = heldFor fees d + w.donated d
    rw [hbank, h.balance, hheld]
    ring
  records k info' hk := by
    have hk' : fees.feeInfos.lookup k = some info' := hk
    rw [hinfos] at hk'
    by_cases heq : k = getFeePacketKey info.packetId
    · subst heq
      rw [lookup_erase] at hk'
      cases hk'
    · rw [lookup_erase_ne heq] at hk'
      exact h.records k info' hk'
  locked p payer fee hp := by
    obtain ⟨hcontract, hlookup⟩ := h.locked p payer fee hp
    refine ⟨hcontract, ?_⟩
    show fees.feeInfos.lookup _ = _
    rw [hinfos, lookup_erase_ne, hlookup]
    -- the packets that are left have other identities, hence other keys
    intro hkey
    obtain ⟨-, hnumbered, -⟩ := h.records _ info hrecord
    exact hgone _ hp (getFeePacketKey_inj (h.numbered _ hp).toProper hnumbered.toProper hkey)

end

/-! ### Sending -/

lemma getNextSequenceSend_ok (h : getNextSequenceSend w port channel = .ok n) :
    w.nextSequenceSend.lookup (port, channel) = some n := by
  unfold getNextSequenceSend at h
  split at h
  · cases h
  · cases h
    assumption

variable {data : PacketData} {locked : Option (Address × Fee)}

lemma sendPacket_ok (h : sendPacket w port channel data locked = .ok w') :
    ∃ n, w.nextSequenceSend.lookup (port, channel) = some n ∧ n < 2 ^ 64
      ∧ w' = { w with
        nextSequenceSend := w.nextSequenceSend.insert (port, channel) (n + 1)
        commitments := (⟨port, channel, n, data⟩, locked) :: w.commitments } := by
  obtain ⟨n, _, hn, hlt, h⟩ := bind2_ok h
  cases h
  exact ⟨n, getNextSequenceSend_ok hn, of_decide_eq_true (ensure_ok hlt), rfl⟩

/-- The channel of the next packet, after counting on. -/
lemma Custody.count (h : Custody chain w)
    (hn : w.nextSequenceSend.lookup (port, channel) = some n) (hlt : n < 2 ^ 64) :
    Custody chain { w with
        nextSequenceSend := w.nextSequenceSend.insert (port, channel) (n + 1) }
      ∧ Numbered (w.nextSequenceSend.insert (port, channel) (n + 1)) ⟨channel, port, n⟩ := by
  have hchannel := h.channels port channel n hn
  constructor
  · refine h.renumber (fun n' hn' => ?_) hchannel
    rw [hn] at hn'
    cases hn'
    exact Nat.le_succ n
  · exact ⟨⟨hchannel, hlt⟩, n + 1, lookup_insert _, Nat.lt_succ_self n⟩

variable {bank : Bank}

/-- **A packet without fees is sent.**  ICS-20 may have moved coins of others. -/
lemma Custody.sendUnlocked (h : Custody chain w)
    (hbank : ∀ d, bank.balance feeAccount d = w.fees.bank.balance feeAccount d)
    (hforeign : ∀ n, (⟨port, channel, n, data⟩ : Packet).Foreign chain)
    (hcontract : ∀ n, (⟨port, channel, n, data⟩ : Packet).ofContract chain = false)
    (hsend : sendPacket { w with fees := { w.fees with bank := bank } } port channel data none
      = .ok w') : Custody chain w' := by
  obtain ⟨n, hn, hlt, rfl⟩ := sendPacket_ok hsend
  obtain ⟨hnext, hid⟩ := h.count hn hlt
  have hdonate := hnext.donate bank (fun _ => 0) fun d => by simp [hbank]
  have hcommit := hdonate.commit ⟨port, channel, n, data⟩ none hid
    (fun e he => (h.numbered e he).ne hn) (hforeign n) (fun _ => hcontract n)
    (fun _ _ heq => by cases heq)
  simpa using hcommit

variable {payer : Address} {fee : Fee}

/-- **A packet with fees is sent**: the record is under the number that the packet gets. -/
lemma Custody.sendLocked (h : Custody chain w) {fees : State} {found : Bool}
    (hpayer : payer ≠ feeAccount)
    (hn : w.nextSequenceSend.lookup (port, channel) = some n)
    (hlock : lockFees chain.toEnv found w.fees payer ⟨channel, port, n⟩ fee = .ok fees)
    (hbank : ∀ d, bank.balance feeAccount d = fees.bank.balance feeAccount d)
    (hforeign : (⟨port, channel, n, data⟩ : Packet).Foreign chain)
    (hcontract : (⟨port, channel, n, data⟩ : Packet).ofContract chain = true)
    (hsend : sendPacket { w with fees := { fees with bank := bank } } port channel data
      (some (payer, fee)) = .ok w') : Custody chain w' := by
  obtain ⟨n', hn', hlt, rfl⟩ := sendPacket_ok hsend
  obtain rfl : n = n' := Option.some.inj (hn.symm.trans hn')
  obtain ⟨hinfos, htotal, cs, hcs, hflows⟩ := lockFees_ok hlock
  obtain ⟨hnext, hid⟩ := h.count hn hlt
  have hpaid : ∀ d, (bank.balance feeAccount d : ℤ)
      = w.fees.bank.balance feeAccount d + fee.totalOf d := by
    intro d
    rw [hbank, hflows.balance, transferred_dst hpayer.symm, hcs]
  have hlocked := hnext.lock { fees with bank := bank }
    ⟨chain.bech32 payer, ⟨channel, port, n⟩, fee⟩ hid (h.lookup_next hn hlt) hinfos
    htotal hpaid
  refine hlocked.commit ⟨port, channel, n, data⟩ (some (payer, fee)) hid
    (fun e he => (h.numbered e he).ne hn) hforeign (fun heq => by cases heq)
    fun payer' fee' heq => ?_
  cases heq
  refine ⟨hcontract, ?_⟩
  show fees.feeInfos.lookup _ = _
  rw [hinfos]
  exact lookup_insert _

variable {a : Address}

lemma ne_feeAccount_of_isUser (h : a.isUser = true) : a ≠ feeAccount := by
  rintro rfl
  cases h

lemma parseAddress_ok {bz : Bytes} {desc : String}
    (h : parseAddress chain bz desc = .ok a) : chain.accAddressFromBech32 bz = some a := by
  unfold parseAddress at h
  split at h
  · cases h
  · cases h
    assumption

lemma Custody.transfer (h : Custody chain w) {msg : MsgTransfer}
    (huser : (chain.accAddressFromBech32 msg.sender).any (·.isUser) = true)
    (ht : transfer chain w msg = .ok w') : Custody chain w' := by
  obtain ⟨a, _, n, hsender, -, hn, ht⟩ := bind3_ok ht
  obtain ⟨fees, bank, hfees, hbank, ht⟩ := bind2_ok ht
  have hsender' := parseAddress_ok hsender
  rw [hsender'] at huser
  have ha : a ≠ feeAccount := ne_feeAccount_of_isUser huser
  have hother : chain.accAddressFromBech32 msg.sender ≠ some feeAccount := by
    rw [hsender']
    exact fun heq => ha (Option.some.inj heq)
  have hforeign : ∀ n, (⟨msg.sourcePort, msg.sourceChannel, n,
      .fungibleToken msg.token msg.sender msg.receiver msg.memo⟩ : Packet).Foreign chain := by
    intro n token sender receiver memo heq
    cases heq
    exact hother
  have hcontract : ∀ n, (⟨msg.sourcePort, msg.sourceChannel, n,
      .fungibleToken msg.token msg.sender msg.receiver msg.memo⟩ : Packet).ofContract chain
        = chain.hasContractInfo a := by
    intro n
    show (chain.accAddressFromBech32 msg.sender).any chain.hasContractInfo = _
    rw [hsender']
    rfl
  have hkept := chain.transfer_feeAccount hbank hother
  rcases hinfo : chain.hasContractInfo a with - | -
  · rw [hinfo] at hfees ht
    cases hfees
    exact h.sendUnlocked hkept hforeign (fun n => (hcontract n).trans hinfo) ht
  · rw [hinfo] at hfees ht
    exact h.sendLocked ha (getNextSequenceSend_ok hn) (mapError_ok hfees) hkept (hforeign n)
      ((hcontract n).trans hinfo) ht

lemma Custody.submitTx (h : Custody chain w) {msg : MsgSubmitTx}
    (ht : submitTx chain w msg = .ok w') : Custody chain w' := by
  obtain ⟨_, a, _, -, -, hinfo, ht⟩ := bind3_ok ht
  obtain ⟨_, channelID, n, -, -, hn, ht⟩ := bind3_ok ht
  obtain ⟨fees, _, hfees, -, ht⟩ := bind2_ok ht
  have ha : a ≠ feeAccount :=
    ne_feeAccount_of_isUser (chain.isUser_of_hasContractInfo a (ensure_ok hinfo))
  refine h.sendLocked ha (getNextSequenceSend_ok hn) (mapError_ok hfees) (fun _ => rfl) ?_ rfl ht
  intro token sender receiver memo heq
  cases heq

/-! ### Resolving -/

/-- The fees of `p` are paid out of the bank `b`, `paid` to the relayer and `returned` to the
payer, and its record is erased, and nothing else. -/
structure Settles (w w' : World) (p : Packet) (b : Bank) (payer relayer : Address)
    (paid returned : Coins) : Prop where
  flows : Flows (fun a d => transferred feeAccount relayer paid a d
    + transferred feeAccount payer returned a d) (fun _ => 0) b w'.fees.bank
  erased : w'.fees.feeInfos.lookup (getFeePacketKey p.id) = none
  others : ∀ k, k ≠ getFeePacketKey p.id → w'.fees.feeInfos.lookup k = w.fees.feeInfos.lookup k

variable {p : Packet} {b : Bank} {fees : State} {relayer : Address}

variable {pays returns : Fee → Coins}

/-- **A packet with fees is resolved.** -/
lemma Custody.resolveLocked (h : Custody chain w) {e e' : String}
    (hp : (p, some (payer, fee)) ∈ w.commitments)
    (hb : ∀ d, b.balance feeAccount d = w.fees.bank.balance feeAccount d)
    (hsum : ∀ d, net (pays fee) d + net (returns fee) d = net fee.ackFee d + net fee.timeoutFee d)
    (hd : distributeFees chain.toEnv pays returns e e' { w.fees with bank := b } relayer p.id
      = .ok fees) :
    Custody chain (resolve w p fees)
      ∧ Settles w (resolve w p fees) p b payer relayer (pays fee) (returns fee) := by
  obtain ⟨-, hrecord⟩ := h.locked p payer fee hp
  obtain ⟨info, payer', hinfo, hpayer, hrelayer, hpayer', hinfos, hflows⟩ := distributeFees_ok hd
  have hinfo' : w.fees.feeInfos.lookup (getFeePacketKey p.id) = some info := hinfo
  rw [hrecord] at hinfo'
  cases hinfo'
  have hpayer'' : payer = payer' := by
    rw [chain.accAddressFromBech32_bech32] at hpayer
    exact Option.some.inj hpayer
  subst hpayer''
  obtain ⟨-, -, htotal⟩ := h.records _ _ hrecord
  have hbank : ∀ d, (fees.bank.balance feeAccount d : ℤ)
      = w.fees.bank.balance feeAccount d - fee.totalOf d := by
    intro d
    have hflow := hflows.balance feeAccount d
    rw [transferred_src hrelayer.symm, transferred_src hpayer'.symm] at hflow
    have hb' : (b.balance feeAccount d : ℤ) = w.fees.bank.balance feeAccount d := by
      exact_mod_cast hb d
    have hsum' := hsum d
    have htotal' : fee.totalOf d = net fee.ackFee d + net fee.timeoutFee d := htotal d
    have hflow' : (fees.bank.balance feeAccount d : ℤ)
        = b.balance feeAccount d + (-net (pays fee) d + -net (returns fee) d) := hflow
    linarith
  refine ⟨?_, hflows, ?_, ?_⟩
  · refine (h.forget p).unlock fees ⟨chain.bech32 payer, p.id, fee⟩ hrecord (fun e he => ?_) hinfos
      hbank
    exact h.ne_of_mem_filter hp he
  · show fees.feeInfos.lookup _ = none
    rw [hinfos]
    exact lookup_erase _ _
  · intro k hk
    show fees.feeInfos.lookup k = _
    rw [hinfos]
    exact lookup_erase_ne hk

lemma Custody.resolveUnlocked (h : Custody chain w)
    (hb : ∀ d, b.balance feeAccount d = w.fees.bank.balance feeAccount d) :
    Custody chain (resolve w p { w.fees with bank := b }) := by
  have hdonate := (h.forget p).donate b (fun _ => 0) fun d => by simp [hb]
  simpa [resolve] using hdonate

variable {acknowledgement : Bytes} {s s' : State}

/-- The handlers of acknowledgements distribute the fees of contracts, and those only. -/
lemma onAcknowledgementPacket_ok
    (h : onAcknowledgementPacket chain s p acknowledgement relayer = .ok s') :
    ∃ b, applicationAck chain s.bank p acknowledgement = .ok b
      ∧ (p.ofContract chain = false ∧ s' = { s with bank := b }
        ∨ p.ofContract chain = true
          ∧ distributeAcknowledgementFee chain.toEnv { s with bank := b } relayer p.id = .ok s') := by
  obtain ⟨b, hb, h⟩ := bind_ok h
  refine ⟨b, hb, ?_⟩
  unfold Packet.ofContract
  rcases hdata : p.data with ⟨token, sender, receiver, memo⟩ | ⟨msgs, memo⟩
  · rw [hdata] at h
    obtain ⟨_, a, -, hsender, h⟩ := bind2_ok h
    simp only [parseAddress_ok hsender, Option.any_some]
    rcases hinfo : chain.hasContractInfo a with - | -
    · rw [hinfo] at h
      cases h
      exact .inl ⟨rfl, rfl⟩
    · rw [hinfo] at h
      obtain ⟨s₁, _, hs₁, -, h⟩ := bind2_ok h
      cases h
      exact .inr ⟨rfl, hs₁⟩
  · rw [hdata] at h
    obtain ⟨_, _, _, -, -, -, h⟩ := bind3_ok h
    exact .inr ⟨rfl, h⟩

lemma onTimeoutPacket_ok (h : onTimeoutPacket chain s p relayer = .ok s') :
    ∃ b, applicationTimeout chain s.bank p = .ok b
      ∧ (p.ofContract chain = false ∧ s' = { s with bank := b }
        ∨ p.ofContract chain = true
          ∧ distributeTimeoutFee chain.toEnv { s with bank := b } relayer p.id = .ok s') := by
  obtain ⟨b, hb, h⟩ := bind_ok h
  refine ⟨b, hb, ?_⟩
  unfold Packet.ofContract
  rcases hdata : p.data with ⟨token, sender, receiver, memo⟩ | ⟨msgs, memo⟩
  · rw [hdata] at h
    obtain ⟨a, hsender, h⟩ := bind_ok h
    simp only [parseAddress_ok hsender, Option.any_some]
    rcases hinfo : chain.hasContractInfo a with - | -
    · rw [hinfo] at h
      cases h
      exact .inl ⟨rfl, rfl⟩
    · rw [hinfo] at h
      obtain ⟨_, -, h⟩ := bind_ok h
      exact .inr ⟨rfl, h⟩
  · rw [hdata] at h
    obtain ⟨_, _, -, -, h⟩ := bind2_ok h
    exact .inr ⟨rfl, h⟩

/-- The wrapped applications leave the fee account alone. -/
lemma applicationAck_feeAccount
    (hforeign : p.Foreign chain) (h : applicationAck chain bank p acknowledgement = .ok b) :
    ∀ d, b.balance feeAccount d = bank.balance feeAccount d := by
  unfold applicationAck at h
  rcases hdata : p.data with ⟨token, sender, receiver, memo⟩ | ⟨msgs, memo⟩
  · rw [hdata] at h
    exact chain.onAcknowledgementPacket_feeAccount (mapError_ok h)
      (hforeign token sender receiver memo hdata)
  · rw [hdata] at h
    cases h
    exact fun _ => rfl

lemma applicationTimeout_feeAccount (hforeign : p.Foreign chain)
    (h : applicationTimeout chain bank p = .ok b) :
    ∀ d, b.balance feeAccount d = bank.balance feeAccount d := by
  unfold applicationTimeout at h
  rcases hdata : p.data with ⟨token, sender, receiver, memo⟩ | ⟨msgs, memo⟩
  · rw [hdata] at h
    exact chain.onTimeoutPacket_feeAccount (mapError_ok h)
      (hforeign token sender receiver memo hdata)
  · rw [hdata] at h
    cases h
    exact fun _ => rfl

lemma Custody.resolve (h : Custody chain w) {e e' : String} (hmem : p ∈ w.commitments.map (·.1))
    (hb : p.Foreign chain → ∀ d, b.balance feeAccount d = w.fees.bank.balance feeAccount d)
    (hsum : ∀ fee d,
      net (pays fee) d + net (returns fee) d = net fee.ackFee d + net fee.timeoutFee d)
    (hcases : p.ofContract chain = false ∧ fees = { w.fees with bank := b }
      ∨ p.ofContract chain = true
        ∧ distributeFees chain.toEnv pays returns e e' { w.fees with bank := b } relayer p.id
          = .ok fees) :
    Custody chain (resolve w p fees)
      ∧ ∀ payer fee, (p, some (payer, fee)) ∈ w.commitments →
        Settles w (FeeRefunder.resolve w p fees) p b payer relayer (pays fee) (returns fee) := by
  have hlocked : ∀ payer fee, (p, some (payer, fee)) ∈ w.commitments →
      Custody chain (FeeRefunder.resolve w p fees) ∧ Settles w (FeeRefunder.resolve w p fees) p b
        payer relayer (pays fee) (returns fee) := by
    intro payer fee hp
    have his := (h.locked p payer fee hp).1
    rcases hcases with ⟨hcontract, -⟩ | ⟨-, hd⟩
    · rw [his] at hcontract
      cases hcontract
    · exact h.resolveLocked hp (hb (h.foreign _ hp)) (hsum fee) hd
  refine ⟨?_, fun payer fee hp => (hlocked payer fee hp).2⟩
  obtain ⟨⟨p, - | ⟨payer, fee⟩⟩, hp, rfl⟩ := mem_map.mp hmem
  · rcases hcases with ⟨-, rfl⟩ | ⟨hcontract, -⟩
    · exact h.resolveUnlocked (hb (h.foreign _ hp))
    · rw [h.unlocked p hp] at hcontract
      cases hcontract
  · exact (hlocked payer fee hp).1

/-- **An acknowledgement is handled**: the fees of a contract are paid. -/
lemma Custody.ack (h : Custody chain w)
    (he : step chain w (.ack p acknowledgement relayer) = .ok w') :
    Custody chain w'
      ∧ ∀ payer fee, (p, some (payer, fee)) ∈ w.commitments →
        ∃ b, applicationAck chain w.fees.bank p acknowledgement = .ok b
          ∧ Settles w w' p b payer relayer fee.ackFee fee.timeoutFee := by
  obtain ⟨_, fees, hmem, hack, he⟩ := bind2_ok he
  cases he
  obtain ⟨b, happ, hcases⟩ := onAcknowledgementPacket_ok hack
  obtain ⟨hcustody, hsettles⟩ := h.resolve (of_decide_eq_true (ensure_ok hmem))
    (fun hforeign => applicationAck_feeAccount hforeign happ) (fun _ _ => rfl) hcases
  exact ⟨hcustody, fun payer fee hp => ⟨b, happ, hsettles payer fee hp⟩⟩

/-- **A timeout is handled**: the two fees change places. -/
lemma Custody.timeout (h : Custody chain w) (he : step chain w (.timeout p relayer) = .ok w') :
    Custody chain w'
      ∧ ∀ payer fee, (p, some (payer, fee)) ∈ w.commitments →
        ∃ b, applicationTimeout chain w.fees.bank p = .ok b
          ∧ Settles w w' p b payer relayer fee.timeoutFee fee.ackFee := by
  obtain ⟨_, fees, hmem, htimeout, he⟩ := bind2_ok he
  cases he
  obtain ⟨b, happ, hcases⟩ := onTimeoutPacket_ok htimeout
  obtain ⟨hcustody, hsettles⟩ := h.resolve (of_decide_eq_true (ensure_ok hmem))
    (fun hforeign => applicationTimeout_feeAccount hforeign happ) (fun _ _ => add_comm _ _) hcases
  exact ⟨hcustody, fun payer fee hp => ⟨b, happ, hsettles payer fee hp⟩⟩

/-! ### Runs -/

/-- Nothing of a custody reads the parameters or the channels that ICS-27 chose. -/
lemma Custody.configure (h : Custody chain w) (minFee : Fee) (maxMessages : ℕ)
    (activeChannels : AList fun _ : Bytes × Bytes => Bytes) :
    Custody chain { w with
      fees := { w.fees with minFee := minFee }
      activeChannels := activeChannels
      maxMessages := maxMessages } where
  __ := h

/-- **Every transaction keeps the fees in custody.** -/
lemma Custody.step (h : Custody chain w) {e : Event} (he : step chain w e = .ok w') :
    Custody chain w' := by
  cases e with
  | openChannel port channel =>
    obtain ⟨_, _, hname, hnew, he⟩ := bind2_ok he
    cases he
    refine h.renumber (fun n' hn' => ?_) (of_decide_eq_true (ensure_ok hname))
    -- a channel that is there is not opened again
    have hfound := ensure_ok hnew
    unfold channelFound at hfound
    rw [hn'] at hfound
    cases hfound
  | setActiveChannel connection port channel =>
    cases he
    exact h.configure _ _ _
  | transfer msg =>
    obtain ⟨_, huser, he⟩ := bind_ok he
    exact h.transfer (ensure_ok huser) he
  | submitTx msg => exact h.submitTx he
  | ack p acknowledgement relayer => exact (h.ack he).1
  | timeout p relayer => exact (h.timeout he).1
  | bankSend src dst coins =>
    obtain ⟨_, bank, huser, hsend, he⟩ := bind2_ok he
    cases he
    have hsrc := ne_feeAccount_of_isUser (ensure_ok huser)
    refine h.donate bank _ fun d => ?_
    rw [(sendCoins_flows hsend).balance]
    congr 1
    split
    · rename_i hdst
      subst hdst
      exact transferred_dst hsrc.symm coins d
    · rename_i hdst
      exact transferred_other hsrc.symm (fun heq => hdst heq.symm) coins d
  | updateParams minFee maxMessages =>
    obtain ⟨_, -, he⟩ := bind_ok he
    cases he
    exact h.configure _ _ _

/-- **The fees stay in custody along every run.** -/
lemma Initial.run_custody (h : Initial w) (es : List Event) :
    Custody chain (Run.run (step chain) w es) :=
  run_invariant (C := fun _ _ => True) h.custody (fun _ _ _ hI _ he => hI.step he)
    (along_of_forall fun _ _ _ => trivial)

lemma Custody.getFeeInfo (h : Custody chain w) (hp : p ∈ w.commitments.map (·.1))
    (hcontract : p.ofContract chain = true) (bank : Bank) :
    ∃ payer fee, (p, some (payer, fee)) ∈ w.commitments
      ∧ getFeeInfo { w.fees with bank := bank } p.id = .ok ⟨chain.bech32 payer, p.id, fee⟩ := by
  obtain ⟨⟨p, - | ⟨payer, fee⟩⟩, hmem, rfl⟩ := mem_map.mp hp
  · rw [h.unlocked p hmem] at hcontract
    cases hcontract
  · refine ⟨payer, fee, hmem, ?_⟩
    unfold FeeRefunder.getFeeInfo
    rw [(h.locked p payer fee hmem).2]

/-- **Relayer fees are in custody.**  After every run the fee account holds what the records
say and what was donated; the handlers find a record for every packet of a contract, whatever
ICS-20 did to the bank before; and whoever resolves such a packet gets the one fee, the payer
gets the other one back, and only the record of the packet is erased. -/
theorem relayer_fees_in_custody (chain : Chain) {w₀ : World} (h₀ : Initial w₀)
    (es : List Event) {w : World} (hw : Run.run (step chain) w₀ es = w) :
    (∀ d, (w.fees.bank.balance feeAccount d : ℤ) = heldFor w.fees d + w.donated d)
      ∧ (∀ p ∈ w.commitments.map (·.1), p.ofContract chain = true → ∀ bank, ∃ payer fee,
          (p, some (payer, fee)) ∈ w.commitments
            ∧ getFeeInfo { w.fees with bank := bank } p.id = .ok ⟨chain.bech32 payer, p.id, fee⟩)
      ∧ (∀ p payer fee acknowledgement relayer w', (p, some (payer, fee)) ∈ w.commitments →
          step chain w (.ack p acknowledgement relayer) = .ok w' →
          ∃ b, applicationAck chain w.fees.bank p acknowledgement = .ok b
            ∧ Settles w w' p b payer relayer fee.ackFee fee.timeoutFee)
      ∧ ∀ p payer fee relayer w', (p, some (payer, fee)) ∈ w.commitments →
          step chain w (.timeout p relayer) = .ok w' →
          ∃ b, applicationTimeout chain w.fees.bank p = .ok b
            ∧ Settles w w' p b payer relayer fee.timeoutFee fee.ackFee := by
  subst hw
  have h : Custody chain _ := h₀.run_custody es
  refine ⟨h.balance, fun p hp hc bank => h.getFeeInfo hp hc bank, ?_, ?_⟩
  · intro p payer fee acknowledgement relayer w' hp he
    exact (h.ack he).2 payer fee hp
  · intro p payer fee relayer w' hp he
    exact (h.timeout he).2 payer fee hp

/-! ### A chain -/

/-- Addresses of a chain for concrete runs, with a byte for their kind. -/
def writeAddress : Address → Bytes
  | .account bz => 0 :: bz
  | .escrow port channel => 1 :: (List.replicate port.length 1 ++ 0 :: (port ++ channel))
  | .moduleAccount name => 2 :: name
  | .pool id => 3 :: List.replicate id 0

def readAddress : Bytes → Option Address
  | 0 :: bz => some (.account bz)
  | 1 :: bz =>
    let n := (bz.takeWhile (· = 1)).length
    let names := bz.drop (n + 1)
    some (.escrow (names.take n) (names.drop n))
  | 2 :: name => some (.moduleAccount name)
  | 3 :: zeros => some (.pool zeros.length)
  | _ => none

lemma readAddress_writeAddress (a : Address) : readAddress (writeAddress a) = some a := by
  cases a with
  | account bz => rfl
  | escrow port channel =>
    have hn : ((List.replicate port.length (1 : UInt8) ++ 0 :: (port ++ channel)).takeWhile
        (· = 1)).length = port.length := by
      rw [takeWhile_append_of_pos fun b hb => by simp [eq_of_mem_replicate hb]]
      simp
    simp only [writeAddress, readAddress, hn]
    have hdrop : (List.replicate port.length (1 : UInt8) ++ 0 :: (port ++ channel)).drop
        (port.length + 1) = port ++ channel := by
      rw [← drop_drop, drop_left' (by simp)]
      rfl
    rw [hdrop, take_left, drop_left]
  | moduleAccount name => rfl
  | pool id => simp [writeAddress, readAddress]

/-- Coins that others exchange are none of the fee account's. -/
lemma sendCoins_feeAccount {sdk : Sdk} {src dst : Address} {cs : Coins}
    (h : bank.sendCoins sdk src dst cs = .ok b) (hsrc : src ≠ feeAccount) (hdst : dst ≠ feeAccount)
    (d : Denom) : b.balance feeAccount d = bank.balance feeAccount d := by
  have hflow := (sendCoins_flows h).balance feeAccount d
  rw [transferred_other hsrc.symm hdst.symm, add_zero] at hflow
  exact_mod_cast hflow

/-- The SDK, with these addresses. -/
def demoEnv : Env where
  toSdk := { chainSdk with accAddressFromBech32 := readAddress }
  bech32 := writeAddress
  accAddressFromBech32_bech32 := readAddress_writeAddress
  blockedAddr_feeAccount := rfl

/-- ICS-20 between the sender and the escrow account. -/
def moveToken (bank : Bank) (sender : Bytes) (src dst : Address → Address) (token : Coin) :
    Result Bank :=
  match readAddress sender with
  | none => .error (.err "invalid address")
  | some a => bank.sendCoins demoEnv.toSdk (src a) (dst a) [token]

lemma moveToken_feeAccount {sender : Bytes} {src dst : Address → Address}
    {token : Coin} (hsrc : ∀ a, a ≠ feeAccount → src a ≠ feeAccount)
    (hdst : ∀ a, a ≠ feeAccount → dst a ≠ feeAccount)
    (h : moveToken bank sender src dst token = .ok b) (hother : readAddress sender ≠ some feeAccount)
    (d : Denom) : b.balance feeAccount d = bank.balance feeAccount d := by
  unfold moveToken at h
  rcases ha : readAddress sender with - | a
  · rw [ha] at h
    cases h
  · rw [ha] at h hother
    have hne : a ≠ feeAccount := fun heq => hother (congrArg some heq)
    exact sendCoins_feeAccount h (hsrc a hne) (hdst a hne) d

lemma isUser_of_contract (a : Address) (ha : decide (a = .account (ascii "contract")) = true) :
    a.isUser = true := by
  rw [of_decide_eq_true ha]
  rfl

/-- A chain with one contract; every acknowledgement is a success. -/
def demoChain : Chain where
  toEnv := demoEnv
  hasContractInfo a := a = .account (ascii "contract")
  isUser_of_hasContractInfo := isUser_of_contract
  validateBasic _ := .ok ()
  transfer bank msg :=
    moveToken bank msg.sender (fun a => a) (fun _ => .escrow msg.sourcePort msg.sourceChannel) msg.token
  transfer_feeAccount h hother :=
    moveToken_feeAccount (fun _ ha => ha) (fun _ _ => by simp [feeAccount]) h hother
  onAcknowledgementPacket bank _ _ _ := .ok bank
  onAcknowledgementPacket_feeAccount h _ d := by
    cases h
    rfl
  onTimeoutPacket bank p sender :=
    match p.data with
    | .fungibleToken token _ _ _ =>
      moveToken bank sender (fun _ => .escrow p.sourcePort p.sourceChannel) (fun a => a) token
    | .interchainAccount _ _ => .ok bank
  onTimeoutPacket_feeAccount {bank b' p sender} h hother d := by
    split at h
    · exact moveToken_feeAccount (fun _ _ => by simp [feeAccount]) (fun _ ha => ha) h hother d
    · cases h
      rfl
  unmarshalsAck _ := true
  preparesCallback _ _ := true
  sendTx _ := .ok ()

/-- The contract has 100 `untrn`. -/
def demoBank : Bank where
  ledger := Ledger.empty.mint (.account (ascii "contract")) (ascii "untrn") 100
  events := []
  bounded d := by
    simp only [Ledger.supply_mint, Ledger.empty]
    split <;> norm_num

def demoFee : Fee := ⟨[], [⟨ascii "untrn", 3⟩], [⟨ascii "untrn", 2⟩]⟩

def demoWorld : World where
  fees := ⟨demoBank, ∅, ⟨[], [⟨ascii "untrn", 1⟩], [⟨ascii "untrn", 1⟩]⟩⟩
  nextSequenceSend := ∅
  activeChannels := ∅
  maxMessages := 16
  commitments := []
  donated _ := 0

lemma demoWorld_initial : Initial demoWorld where
  feeInfos := rfl
  commitments := rfl
  channels port channel n h := by cases h
  balance d := by
    show ((Ledger.balance _ feeAccount d : ℕ) : ℤ) = 0
    simp [demoWorld, demoBank, Ledger.empty, Ledger.single, feeAccount]

def demoTransfer : MsgTransfer :=
  ⟨ascii "transfer", ascii "channel-0", ⟨ascii "untrn", 10⟩,
    writeAddress (.account (ascii "contract")), ascii "cosmos1bob", 1, [], demoFee⟩

def demoPacket (n : ℕ) : Packet :=
  ⟨ascii "transfer", ascii "channel-0", n, .fungibleToken demoTransfer.token demoTransfer.sender
    demoTransfer.receiver demoTransfer.memo⟩

/-- Three transfers, one of them acknowledged and one timed out, and a donation. -/
def demoEvents : List Event :=
  [.openChannel (ascii "transfer") (ascii "channel-0"), .transfer demoTransfer,
    .transfer demoTransfer, .transfer demoTransfer,
    .ack (demoPacket 2) [] (.account (ascii "relayer")),
    .bankSend (.account (ascii "contract")) feeAccount [⟨ascii "untrn", 1⟩],
    .timeout (demoPacket 1) (.account (ascii "relayer"))]

/-- The relayer got 3 and 2, and the account holds 5 for the third packet and the donation. -/
theorem relayer_fees_in_custody_demoEvents :
    (Run.run (step demoChain) demoWorld demoEvents).fees.bank.balance
        (.account (ascii "relayer")) (ascii "untrn") = 5
      ∧ (Run.run (step demoChain) demoWorld demoEvents).fees.bank.balance feeAccount
        (ascii "untrn") = 6
      ∧ (∀ d, ((Run.run (step demoChain) demoWorld demoEvents).fees.bank.balance feeAccount d : ℤ)
        = heldFor (Run.run (step demoChain) demoWorld demoEvents).fees d
          + (Run.run (step demoChain) demoWorld demoEvents).donated d) :=
  ⟨by decide +kernel, by decide +kernel,
    (relayer_fees_in_custody demoChain demoWorld_initial demoEvents rfl).1⟩

end MaanyDex.FeeRefunder
