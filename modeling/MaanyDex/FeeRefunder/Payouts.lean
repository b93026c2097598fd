/-
The fees of a contract's packet can be paid.

The fee account holds what the records say (`Custody`).  That is enough to pay for one of them if
nothing in the sum is negative: fees are checked before they are locked, and donations are sent
by the bank.  The sender of a packet is the one who locked its fees, and the handlers find it
again, from the port of an interchain account or from the data of a transfer.
-/
import MaanyDex.FeeRefunder.Custody

namespace MaanyDex.FeeRefunder

open Run

variable {chain : Chain} {w w' : World} {p : Packet}

/-! ### Senders -/

/-- The sender of a packet is the contract. -/
def Packet.SentBy (chain : Chain) (p : Packet) (contract : Address) : Prop :=
  match p.data with
  | .fungibleToken _ sender _ _ => chain.accAddressFromBech32 sender = some contract
  | .interchainAccount _ _ => ∃ interchainAccountId,
      p.sourcePort = icaPort chain contract interchainAccountId

/-- The owner of an interchain account is found whatever the id of the account is, also if there
is a dot in it: there is none in the address. -/
lemma icaOwnerFromPort_icaPort (hdot : ∀ a, 46 ∉ chain.bech32 a) (contract : Address)
    (interchainAccountId : Bytes) :
    icaOwnerFromPort chain (icaPort chain contract interchainAccountId) = .ok contract := by
  have hprefix : controllerPortPrefix.isPrefixOf (icaPort chain contract interchainAccountId) := by
    rw [List.isPrefixOf_iff_prefix]
    exact List.prefix_append _ _
  have hdrop : (icaPort chain contract interchainAccountId).drop controllerPortPrefix.length
      = chain.bech32 contract ++ 46 :: interchainAccountId := List.drop_left
  unfold icaOwnerFromPort
  dsimp only
  rw [if_pos hprefix, hdrop, Split.splitFirst_append _ (hdot contract)]
  unfold parseAddress
  simp only [chain.accAddressFromBech32_bech32]

/-! ### The invariant -/

/-- What was locked can be paid. -/
structure Payable (chain : Chain) (w : World) : Prop where
  records : ∀ k info, w.fees.feeInfos.lookup k = some info →
    isValid chain.toSdk info.fee.ackFee = true ∧ isValid chain.toSdk info.fee.timeoutFee = true
  donated : ∀ d, 0 ≤ w.donated d
  senders : ∀ p payer fee, (p, some (payer, fee)) ∈ w.commitments →
    chain.hasContractInfo payer = true ∧ p.SentBy chain payer

lemma Initial.payable (h : Initial w) : Payable chain w where
  records k info hinfo := by
    rw [h.feeInfos] at hinfo
    cases hinfo
  donated d := by
    rw [← h.balance d]
    exact Int.natCast_nonneg _
  senders p payer fee hp := by
    rw [h.commitments] at hp
    cases hp

lemma Payable.forget (h : Payable chain w)
    (hrecords : ∀ k info, w'.fees.feeInfos.lookup k = some info →
      w.fees.feeInfos.lookup k = some info)
    (hdonated : ∀ d, w.donated d ≤ w'.donated d)
    (hcommitments : ∀ e ∈ w'.commitments, e ∈ w.commitments) : Payable chain w' where
  records k info hinfo := h.records k info (hrecords k info hinfo)
  donated d := (h.donated d).trans (hdonated d)
  senders p payer fee hp := h.senders p payer fee (hcommitments _ hp)

lemma Fee.validate_ok {sdk : Sdk} {fee : Fee} {u : Unit} (h : fee.validate sdk = .ok u) :
    isValid sdk fee.ackFee = true ∧ isValid sdk fee.timeoutFee = true := by
  obtain ⟨_, herrs, -⟩ := bind_ok h
  have hnil := of_decide_eq_true (ensure_ok herrs)
  obtain ⟨hack, htimeout⟩ := List.append_eq_nil_iff.mp hnil
  constructor
  · by_contra hnot
    rw [if_neg hnot] at hack
    cases hack
  · by_contra hnot
    rw [if_neg hnot] at htimeout
    cases htimeout

variable {fees : State} {bank : Bank} {port channel : Bytes} {data : PacketData}

/-- **A packet is sent**, and its fees are locked. -/
lemma Payable.sendLocked (h : Payable chain w) {payer : Address}
    {fee : Fee} {found : Bool} {id : PacketID}
    (hlock : lockFees chain.toEnv found w.fees payer id fee = .ok fees)
    (hvalid : isValid chain.toSdk fee.ackFee = true ∧ isValid chain.toSdk fee.timeoutFee = true)
    (hcontract : chain.hasContractInfo payer = true)
    (hsender : ∀ n, (⟨port, channel, n, data⟩ : Packet).SentBy chain payer)
    (hsend : sendPacket { w with fees := { fees with bank := bank } } port channel data
      (some (payer, fee)) = .ok w') : Payable chain w' := by
  obtain ⟨n, -, -, rfl⟩ := sendPacket_ok hsend
  obtain ⟨hinfos, -⟩ := lockFees_ok hlock
  refine ⟨fun k info hinfo => ?_, h.donated, fun q payer' fee' hq => ?_⟩
  · have hinfo' : fees.feeInfos.lookup k = some info := hinfo
    rw [hinfos] at hinfo'
    by_cases hk : k = getFeePacketKey id
    · rw [hk, AList.lookup_insert] at hinfo'
      rw [← Option.some.inj hinfo']
      exact hvalid
    · rw [AList.lookup_insert_ne hk] at hinfo'
      exact h.records k info hinfo'
  · rcases List.mem_cons.mp hq with heq | hq
    · cases heq
      exact ⟨hcontract, hsender n⟩
    · exact h.senders q payer' fee' hq

lemma Payable.sendUnlocked (h : Payable chain w)
    (hsend : sendPacket { w with fees := { w.fees with bank := bank } } port channel data none
      = .ok w') : Payable chain w' := by
  obtain ⟨n, -, -, rfl⟩ := sendPacket_ok hsend
  refine ⟨h.records, h.donated, fun q payer fee hq => ?_⟩
  rcases List.mem_cons.mp hq with heq | hq
  · cases heq
  · exact h.senders q payer fee hq

lemma Payable.transfer (h : Payable chain w) {msg : MsgTransfer}
    (ht : transfer chain w msg = .ok w') : Payable chain w' := by
  obtain ⟨a, _, n, hsender, hvalidate, -, ht⟩ := bind3_ok ht
  obtain ⟨fees, bank, hfees, -, ht⟩ := bind2_ok ht
  rcases hinfo : chain.hasContractInfo a with - | -
  · rw [hinfo] at hfees ht
    cases hfees
    exact h.sendUnlocked ht
  · rw [hinfo] at hfees ht hvalidate
    obtain ⟨_, hvalid, -⟩ := bind_ok (mapError_ok hvalidate)
    refine h.sendLocked (mapError_ok hfees) (Fee.validate_ok hvalid) hinfo ?_ ht
    exact fun _ => parseAddress_ok hsender

lemma Payable.submitTx (h : Payable chain w) {msg : MsgSubmitTx}
    (ht : submitTx chain w msg = .ok w') : Payable chain w' := by
  obtain ⟨_, a, _, hvalidate, -, hinfo, ht⟩ := bind3_ok ht
  obtain ⟨_, channelID, n, -, -, -, ht⟩ := bind3_ok ht
  obtain ⟨fees, _, hfees, -, ht⟩ := bind2_ok ht
  obtain ⟨_, hvalid, -⟩ := bind_ok (mapError_ok hvalidate)
  refine h.sendLocked (mapError_ok hfees) (Fee.validate_ok hvalid) (ensure_ok hinfo) ?_ ht
  exact fun _ => ⟨msg.interchainAccountId, rfl⟩

variable {pays returns : Fee → Coins} {e' : String}

lemma Payable.resolve (h : Payable chain w) {relayer : Address} {e : String} {contract : Prop}
    (hcases : ¬contract ∧ fees = { w.fees with bank := bank }
      ∨ contract ∧ distributeFees chain.toEnv pays returns e e' { w.fees with bank := bank }
          relayer p.id = .ok fees) : Payable chain (resolve w p fees) := by
  refine h.forget (fun k info hinfo => ?_) (fun _ => le_rfl) fun e he => ?_
  · rcases hcases with ⟨-, rfl⟩ | ⟨-, hd⟩
    · exact hinfo
    · obtain ⟨_, _, -, -, -, -, hinfos, -⟩ := distributeFees_ok hd
      have hinfo' : fees.feeInfos.lookup k = some info := hinfo
      rw [hinfos] at hinfo'
      by_cases hk : k = getFeePacketKey p.id
      · rw [hk, AList.lookup_erase] at hinfo'
        cases hinfo'
      · rwa [AList.lookup_erase_ne hk] at hinfo'
  · exact (List.mem_filter.mp he).1

/-- **Every transaction keeps what was locked payable.** -/
lemma Payable.step (h : Payable chain w) {e : Event} (he : step chain w e = .ok w') :
    Payable chain w' := by
  cases e with
  | openChannel port channel =>
    obtain ⟨_, _, -, -, he⟩ := bind2_ok he
    cases he
    exact ⟨h.records, h.donated, h.senders⟩
  | setActiveChannel connection port channel =>
    cases he
    exact ⟨h.records, h.donated, h.senders⟩
  | transfer msg =>
    obtain ⟨_, -, he⟩ := bind_ok he
    exact h.transfer he
  | submitTx msg => exact h.submitTx he
  | ack p acknowledgement relayer =>
    obtain ⟨_, fees, -, hack, he⟩ := bind2_ok he
    cases he
    obtain ⟨b, -, hcases⟩ := onAcknowledgementPacket_ok hack
    exact h.resolve (hcases.imp_left fun hc => ⟨Bool.eq_false_iff.mp hc.1, hc.2⟩)
  | timeout p relayer =>
    obtain ⟨_, fees, -, htimeout, he⟩ := bind2_ok he
    cases he
    obtain ⟨b, -, hcases⟩ := onTimeoutPacket_ok htimeout
    exact h.resolve (hcases.imp_left fun hc => ⟨Bool.eq_false_iff.mp hc.1, hc.2⟩)
  | bankSend src dst coins =>
    obtain ⟨_, bank, -, hsend, he⟩ := bind2_ok he
    cases he
    refine h.forget (fun _ _ hinfo => hinfo) (fun d => ?_) fun _ he => he
    have hnonneg : 0 ≤ net coins d := net_nonneg (fun c hc =>
      (isValid_pos (Bank.sendCoins_isValid hsend) c hc).le) d
    show w.donated d ≤ w.donated d + if dst = feeAccount then net coins d else 0
    split
    · omega
    · omega
  | updateParams minFee maxMessages =>
    obtain ⟨_, -, he⟩ := bind_ok he
    cases he
    exact ⟨h.records, h.donated, h.senders⟩

/-- **What was locked stays payable along every run.** -/
lemma Initial.run_payable (h : Initial w) (es : List Event) :
    Payable chain (Run.run (FeeRefunder.step chain) w es) :=
  run_invariant (C := fun _ _ => True) h.payable (fun _ _ _ hI _ he => hI.step he)
    (along_of_forall fun _ _ _ => trivial)

/-! ### Payouts -/

variable {payer relayer : Address} {fee : Fee}

lemma Custody.total_le (h : Custody chain w) (hpay : Payable chain w)
    (hp : (p, some (payer, fee)) ∈ w.commitments) (d : Denom) :
    net fee.ackFee d + net fee.timeoutFee d ≤ w.fees.bank.balance feeAccount d := by
  have hnonneg : ∀ k info, w.fees.feeInfos.lookup k = some info → 0 ≤ info.fee.totalOf d := by
    intro k info hinfo
    obtain ⟨-, -, htotal⟩ := h.records k info hinfo
    obtain ⟨hack, htimeout⟩ := hpay.records k info hinfo
    have hack' := net_nonneg (fun c hc => (isValid_pos hack c hc).le) d
    have htimeout' := net_nonneg (fun c hc => (isValid_pos htimeout c hc).le) d
    rw [htotal d]
    omega
  obtain ⟨-, hrecord⟩ := h.locked p payer fee hp
  obtain ⟨-, -, htotal⟩ := h.records _ _ hrecord
  have hheld : fee.totalOf d ≤ heldFor w.fees d :=
    Deposits.le_held (v := fun info : FeeInfo => info.fee.totalOf d) hnonneg hrecord
  have hdonated := hpay.donated d
  have htotal' : fee.totalOf d = net fee.ackFee d + net fee.timeoutFee d := htotal d
  rw [h.balance d]
  omega

lemma distributeFee_of_le (bank : Bank) {receiver : Address} {coins : Coins}
    (hblocked : chain.blockedAddr receiver = false) (hvalid : isValid chain.toSdk coins = true)
    (hle : ∀ d, net coins d ≤ bank.balance feeAccount d) :
    ∃ bank', distributeFee chain.toEnv bank receiver coins = .ok bank'
      ∧ ∀ d, (bank'.balance feeAccount d : ℤ) = bank.balance feeAccount d - net coins d := by
  obtain ⟨bank', hsend⟩ : ∃ bank', bank.sendCoins chain.toSdk feeAccount receiver coins
      = .ok bank' := sendCoins_of_le hvalid hle
  have hne : feeAccount ≠ receiver := by
    rintro rfl
    rw [chain.blockedAddr_feeAccount] at hblocked
    cases hblocked
  refine ⟨bank', ?_, fun d => ?_⟩
  · unfold distributeFee Bank.sendCoinsFromModuleToAccount
    rw [if_neg (Bool.eq_false_iff.mp hblocked)]
    show (bank.sendCoins chain.toSdk feeAccount receiver coins).mapError _ = _
    rw [hsend]
    rfl
  · rw [(sendCoins_flows hsend).balance, transferred_src hne]
    ring

/-- **The fees of a packet are paid**, if the relayer may receive coins. -/
lemma Custody.distributeFees (h : Custody chain w) (hpay : Payable chain w)
    (hp : (p, some (payer, fee)) ∈ w.commitments) {e : String}
    (hsum : ∀ d, net (pays fee) d + net (returns fee) d = net fee.ackFee d + net fee.timeoutFee d)
    (hpays : isValid chain.toSdk (pays fee) = true)
    (hreturns : isValid chain.toSdk (returns fee) = true)
    (hrelayer : chain.blockedAddr relayer = false) (hpayer : chain.blockedAddr payer = false) :
    ∃ fees, FeeRefunder.distributeFees chain.toEnv pays returns e e' w.fees relayer p.id
      = .ok fees := by
  have htotal := h.total_le hpay hp
  have hreturns' : ∀ d, 0 ≤ net (returns fee) d :=
    net_nonneg fun c hc => (isValid_pos hreturns c hc).le
  obtain ⟨bank, hbank, hleft⟩ := distributeFee_of_le w.fees.bank hrelayer hpays fun d => by
      have hd := htotal d
      have hd' := hsum d
      have hd'' := hreturns' d
      omega
  obtain ⟨bank', hbank', -⟩ := distributeFee_of_le bank hpayer hreturns fun d => by
    have hd := htotal d
    have hd' := hsum d
    rw [hleft d]
    omega
  obtain ⟨-, hrecord⟩ := h.locked p payer fee hp
  have hinfo : FeeRefunder.getFeeInfo w.fees p.id = .ok ⟨chain.bech32 payer, p.id, fee⟩ := by
    unfold FeeRefunder.getFeeInfo
    rw [hrecord]
  have haddress : mustAccAddressFromBech32 chain.toEnv (chain.bech32 payer) = .ok payer := by
    unfold mustAccAddressFromBech32
    rw [chain.accAddressFromBech32_bech32]
  refine ⟨removeFeeInfo { w.fees with bank := bank' } p.id, ?_⟩
  unfold FeeRefunder.distributeFees
  rw [hinfo]
  show ((distributeFee chain.toEnv w.fees.bank relayer (pays fee)).mapError _ >>= _) = _
  rw [hbank]
  show (mustAccAddressFromBech32 chain.toEnv (chain.bech32 payer) >>= _) = _
  rw [haddress]
  show ((distributeFee chain.toEnv bank payer (returns fee)).mapError _ >>= _) = _
  rw [hbank']
  rfl

end MaanyDex.FeeRefunder
