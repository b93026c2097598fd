/-
Who can make `mintburn` issue coins.

Only the channel callbacks write the allow-list, and only for a channel on the provider's client.
So a coin is issued only for a packet over a channel that was opened earlier in the run, on the
client that was the provider's then, and that is listed and on the provider's client now.
-/
import MaanyDex.MintBurn.MirrorSupply

namespace MaanyDex.MintBurn

open Run

/-- The transfer channel runs on the provider's client. -/
def OnProvider (s : State) (channelID : Bytes) : Prop :=
  ∃ ch connID hops conn, s.channels transferPort channelID = some ch ∧
    ch.connectionHops = connID :: hops ∧ s.connections connID = some conn ∧
    s.provider = some conn.clientId

def ChanCallback.isOpening : ChanCallback → Bool
  | .openAck | .openConfirm => true
  | .closeInit | .closeConfirm => false

variable {ibc : Ibc} {app : TransferApp ibc} {w w' : World} {e : Event} {s s' : State}
  {packet : Packet} {portID channelID c : Bytes}

variable (app) in
/-- The event is a callback of the transfer channel on the provider's client, it succeeds, and the
channel is listed after it if and only if it was opened. -/
def Writes (w : World) (channelID : Bytes) (e : Event) (opening : Bool) : Prop :=
  ∃ cb w', cb.isOpening = opening ∧ e = .chan cb transferPort channelID
    ∧ OnProvider w.state channelID ∧ step app w e = .ok w'
    ∧ isAllowedChannel w'.state.store channelID = opening

lemma Refunded.minted {b b' : Bank} (h : Refunded ibc packet b b') (d : Denom) :
    b'.minted moduleName d = b.minted moduleName d := by
  obtain ⟨data, amt, sender, -, -, h⟩ := h
  split at h
  · rw [Bank.Minted.minted h, if_neg (by decide), Nat.add_zero]
  · exact Bank.Sent.minted h _ d

lemma forwardAck_minted {bz : Bytes} (h : forwardAck app.env s packet bz = .ok s') :
    s'.store = s.store ∧ ∀ d, s'.bank.minted moduleName d = s.bank.minted moduleName d := by
  obtain ⟨hbank, hs'⟩ := forwardAck_ok h
  refine ⟨by rw [hs'], fun d => ?_⟩
  rcases app.ack_ok hbank with ⟨hsame, -⟩ | ⟨hrefund, -⟩
  · rw [hsame]
  · exact hrefund.minted d

lemma isAllowedChannel_eq {store store' : KVStore}
    (h : KVStore.SameOn (· ≠ keyMirrorSupply) store store') (c : Bytes) :
    isAllowedChannel store' c = isAllowedChannel store c :=
  congrArg Option.isSome (h _ (keyMirrorSupply_ne_allowedChan c).symm)

lemma onChan_allowed {cb : ChanCallback} (h : onChan app.env s portID channelID cb = .ok s')
    (hc : isAllowedChannel s'.store c ≠ isAllowedChannel s.store c) :
    portID = transferPort ∧ channelID = c ∧ OnProvider s c
      ∧ isAllowedChannel s'.store c = cb.isOpening := by
  have hs : handleChannelIdStorage s portID channelID cb.isOpening = .ok s' := by
    cases cb <;>
    · obtain ⟨_, _, hs, -, h⟩ := bind2_ok h
      cases h
      exact hs
  have hkey : keyAllowedChan ++ channelID = keyAllowedChan ++ c → channelID = c :=
    List.append_cancel_left
  -- of the branches of `HandleChannelIdStorage`, one writes an entry
  unfold handleChannelIdStorage at hs
  unfold isAllowedChannel KVStore.has at *
  unfold OnProvider
  grind [KVStore.get_set, KVStore.get_delete]

/-- The event is a packet over a listed transfer channel on the provider's client. -/
def ProviderPacket (s : State) (e : Event) (packet : Packet) : Prop :=
  e = .recv packet ∧ packet.destinationPort = transferPort
    ∧ isAllowedChannel s.store packet.destinationChannel = true
    ∧ OnProvider s packet.destinationChannel

variable (app) in
/-- What a step can do with the module's authority: issue coins for a packet from the provider, and
list or drop a channel on the provider's client. -/
structure Authorized (w w' : World) (e : Event) : Prop where
  issues : ∀ d, w'.state.bank.minted moduleName d ≠ w.state.bank.minted moduleName d →
    ∃ packet, ProviderPacket w.state e packet
  lists : ∀ c, isAllowedChannel w'.state.store c ≠ isAllowedChannel w.state.store c →
    Writes app w c e (isAllowedChannel w'.state.store c)

lemma authorized_of_eq
    (hissued : ∀ d, w'.state.bank.minted moduleName d = w.state.bank.minted moduleName d)
    (hlist : ∀ c, isAllowedChannel w'.state.store c = isAllowedChannel w.state.store c) :
    Authorized app w w' e where
  issues d hne := absurd (hissued d) hne
  lists c hne := absurd (hlist c) hne

lemma step_authorized (h : step app w e = .ok w') : Authorized app w w' e := by
  cases e with
  | send sender channel destPort destChannel data =>
    rw [step] at h
    split at h
    · cases h
    obtain ⟨b, hb, hw⟩ := bind_ok h
    cases hw
    refine authorized_of_eq (fun d => ?_) fun _ => rfl
    obtain ⟨data, amt, -, -, -, hsent⟩ := sendTransfer_ok hb
    split at hsent
    · exact Bank.Burned.minted hsent _ d
    · exact Bank.Sent.minted hsent _ d
  | ack packet bz =>
    obtain ⟨-, s', hs, rfl⟩ := step_ack_ok h
    rcases onAcknowledgementPacket_cases hs with ⟨hf, -⟩ | ⟨data, amt, b, store, -, hburn, hsub, hf⟩
    · obtain ⟨hstore, hissued⟩ := forwardAck_minted hf
      exact authorized_of_eq hissued fun c => congrArg (isAllowedChannel · c) hstore
    · obtain ⟨hstore, hissued⟩ := forwardAck_minted hf
      refine authorized_of_eq (fun d => (hissued d).trans (hburn.minted _ d)) fun c => ?_
      exact hstore ▸ isAllowedChannel_eq (subMirrorSupply_ok hsub).2 c
  | timeout packet =>
    rw [step] at h
    split at h
    · obtain ⟨s', hs, hw⟩ := bind_ok h
      cases hw
      obtain ⟨hbank, hs'⟩ := onTimeoutPacket_ok hs
      exact authorized_of_eq (app.timeout_ok hbank).minted fun c => by rw [hs']
    · cases h
  | recv packet =>
    obtain ⟨s', hs, hw⟩ := bind_ok h
    cases hw
    rcases recvPacket_cases hs with rfl | ⟨-, b, ack, happ, -, rfl⟩ | ⟨data, rcpt, amt, hm, -⟩
    · exact authorized_of_eq (fun _ => rfl) fun _ => rfl
    · exact authorized_of_eq (app.recv_minted happ) fun _ => rfl
    · have hclient := hm.client
      rw [hm.port] at hclient
      refine ⟨fun d _ => ⟨packet, rfl, hm.port, hm.allowed, hclient⟩, fun c hne => absurd ?_ hne⟩
      rw [isAllowedChannel_eq (addMirrorSupply_ok hm.counted).2, isAllowedChannel, KVStore.has,
        consumeProof_sameOn _ _ (fun hkey => by cases hkey)]
      rfl
  | bankSend sender dst coin =>
    rw [step] at h
    split at h
    · cases h
    obtain ⟨b, hb, hw⟩ := bind_ok h
    cases hw
    exact authorized_of_eq ((Bank.sendCoins_ok hb).minted _) fun _ => rfl
  | chan callback portID channelID =>
    obtain ⟨s', hs, hw⟩ := bind_ok h
    cases hw
    refine ⟨fun d hne => absurd (by rw [(onChan_ok hs).1]) hne, fun c hne => ?_⟩
    obtain ⟨rfl, rfl, hon, hlisted⟩ := onChan_allowed hs hne
    exact ⟨callback, _, hlisted.symm, rfl, hon, h, rfl⟩
  | core channels connections providerClientID =>
    cases h
    exact authorized_of_eq (fun _ => rfl) fun _ => rfl

variable (app) in
lemma exec_authorized (w : World) (e : Event) : Authorized app w (Run.exec (step app) w e) e := by
  rcases hstep : step app w e with f | w'
  · rw [exec_error hstep]
    exact authorized_of_eq (fun _ => rfl) fun _ => rfl
  · rw [exec_ok hstep]
    exact step_authorized hstep

section Run

variable {w₀ : World} (h₀ : ∀ c, isAllowedChannel w₀.state.store c = false) (es : List Event)

include h₀

lemma opens_of_allowed (hc : isAllowedChannel (Run.run (step app) w₀ es).state.store c = true) :
    ∃ es₁ e es₂, es = es₁ ++ e :: es₂ ∧ Writes app (Run.run (step app) w₀ es₁) c e true := by
  induction es using List.reverseRecOn with
  | nil => simp [h₀] at hc
  | append_singleton es e ih =>
    by_cases hbefore : isAllowedChannel (Run.run (step app) w₀ es).state.store c = true
    · obtain ⟨es₁, e', es₂, rfl, hopens⟩ := ih hbefore
      exact ⟨es₁, e', es₂ ++ [e], by simp, hopens⟩
    · have hopens := (exec_authorized app (Run.run (step app) w₀ es) e).lists c
      rw [← run_concat, hc] at hopens
      exact ⟨es, e, [], rfl, hopens (Ne.symm hbefore)⟩

/-- **Issuing takes the provider's channel.**  In a run from an empty allow-list, only callbacks of
transfer channels on the provider's client write it.  If an event makes the module issue coins, it
is a packet to the transfer port over a listed channel on the provider's client, and that channel was
opened, and thereby listed, earlier in the run on the client that was the provider's then. -/
theorem issues_over_provider_channel :
    (∀ c, isAllowedChannel (Run.run (step app) w₀ (es ++ [e])).state.store c
        ≠ isAllowedChannel (Run.run (step app) w₀ es).state.store c →
      Writes app (Run.run (step app) w₀ es) c e
        (isAllowedChannel (Run.run (step app) w₀ (es ++ [e])).state.store c))
      ∧ ∀ d, (Run.run (step app) w₀ (es ++ [e])).state.bank.minted moduleName d
          ≠ (Run.run (step app) w₀ es).state.bank.minted moduleName d →
        ∃ packet, ProviderPacket (Run.run (step app) w₀ es).state e packet
          ∧ ∃ es₁ e₁ es₂, es = es₁ ++ e₁ :: es₂
            ∧ Writes app (Run.run (step app) w₀ es₁) packet.destinationChannel e₁ true := by
  have hstep := exec_authorized app (Run.run (step app) w₀ es) e
  rw [← run_concat] at hstep
  refine ⟨hstep.lists, fun d hissued => ?_⟩
  obtain ⟨packet, hpacket⟩ := hstep.issues d hissued
  exact ⟨packet, hpacket, opens_of_allowed h₀ es hpacket.2.2.1⟩

end Run

/-- The chain before its channel to the provider is opened. -/
def unopenedWorld : World := ⟨chainState ∅ Bank.empty, fun _ => 1, []⟩

def channelConfirm : Event := .chan .openConfirm transferPort (ascii "channel-0")

/-- The channel is opened and listed, and then a packet over it issues coins. -/
theorem issues_over_provider_channel_confirmed :
    Writes (ics20 mirrorIbc) unopenedWorld (ascii "channel-0") channelConfirm true
      ∧ ∃ packet,
        ProviderPacket (mirrorRun unopenedWorld [channelConfirm]).state incomingRecv packet
        ∧ ∃ es₁ e₁ es₂, [channelConfirm] = es₁ ++ e₁ :: es₂
          ∧ Writes (ics20 mirrorIbc) (mirrorRun unopenedWorld es₁) packet.destinationChannel e₁
            true := by
  have hlists : isAllowedChannel (mirrorRun unopenedWorld [channelConfirm]).state.store
      (ascii "channel-0") = true := by
    decide +kernel
  have hissued : (mirrorRun unopenedWorld [channelConfirm, incomingRecv]).state.bank.minted
      moduleName umaany ≠ (mirrorRun unopenedWorld [channelConfirm]).state.bank.minted
        moduleName umaany := by
    decide +kernel
  have hempty : ∀ c, isAllowedChannel unopenedWorld.state.store c = false := fun c => by
    simp [unopenedWorld, chainState, isAllowedChannel, KVStore.has]
  refine ⟨?_, (issues_over_provider_channel hempty [channelConfirm]).2 umaany hissued⟩
  have hwrites := (issues_over_provider_channel hempty []).1 (ascii "channel-0")
    (hlists.trans_ne (by simp [Run.run, hempty]))
  exact hlists ▸ hwrites

end MaanyDex.MintBurn
