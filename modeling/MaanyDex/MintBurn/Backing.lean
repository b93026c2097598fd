/-
What backs a mirrored mint.

The receive handler is meant to mirror tokens of the provider chain.  It looks
at the base denomination only, after all hops of the path are stripped, so a
voucher that a third chain issued and the provider merely relays passes the
check when its base is on the list.  `backedMint_iff` says exactly for which
packets the handler is right: those that reach the mint with an allow-listed
base must carry no hop.
-/
import MaanyDex.MintBurn.Ics20

namespace MaanyDex.MintBurn

variable {env : Env} {s : State} {packet : Packet}

/-- The receive issues the mirrored native denomination. -/
def Mints (env : Env) (s : State) (packet : Packet) : Prop :=
  ∃ s', recvPacket env s packet = .ok s' ∧
    s.bank.minted moduleName (getParams env.toKeeperEnv s.store).dexNativeDenom
      < s'.bank.minted moduleName (getParams env.toKeeperEnv s.store).dexNativeDenom

/-- The denomination names a token native to the sending chain: it did not come
from here, and its path has no hop. -/
def NativeToSender (env : Env) (packet : Packet) (data : FungibleTokenPacketData) : Prop :=
  env.receiverChainIsSource packet.sourcePort packet.sourceChannel data.denom = false ∧
    (env.parseDenomTrace data.denom).path = []

/-- A mint is backed by a token native to the sending chain whose base
denomination is allow-listed. -/
def BackedMint (env : Env) (s : State) (packet : Packet) : Prop :=
  Mints env s packet → ∃ data, env.unmarshalPacketData packet.data = some data ∧
    NativeToSender env packet data ∧
    (env.parseDenomTrace data.denom).baseDenom
      ∈ (getParams env.toKeeperEnv s.store).allowedBaseDenoms

lemma mints_iff : Mints env s packet ↔ ∃ data rcpt amt,
    MintReady env s packet data rcpt amt ∧ resolveBaseDenom env.toIbc packet data.denom
      ∈ (getParams env.toKeeperEnv s.store).allowedBaseDenoms := by
  constructor
  · rintro ⟨s', hs', hlt⟩
    rcases recvPacket_cases hs' with rfl | ⟨-, b, ack, happ, -, rfl⟩ | ⟨data, rcpt, amt, hm, -⟩
    · exact absurd hlt (lt_irrefl _)
    · -- the wrapped application does not issue in the name of the module
      rw [env.app.recv_minted happ] at hlt
      exact absurd hlt (lt_irrefl _)
    · exact ⟨data, rcpt, amt, hm.toMintReady, hm.base⟩
  · rintro ⟨data, rcpt, amt, hready, hbase⟩
    obtain ⟨s', hs', hm⟩ := recvPacket_of_mintReady hready hbase
    refine ⟨s', hs', ?_⟩
    have hpos := hready.positive
    rw [hm.minted.minted]
    simp only [if_true, total_cons, total_nil]
    omega

/-- **Which mints are backed**: for every packet, parameters and state, a mint is
backed if and only if a packet that passes all other checks and whose resolved
base is allow-listed carries a denomination without a hop. -/
theorem backedMint_iff (env : Env) (s : State) (packet : Packet) :
    BackedMint env s packet ↔ ∀ data rcpt amt, MintReady env s packet data rcpt amt →
      resolveBaseDenom env.toIbc packet data.denom
        ∈ (getParams env.toKeeperEnv s.store).allowedBaseDenoms →
      NativeToSender env packet data := by
  constructor
  · intro h data rcpt amt hready hbase
    obtain ⟨data', hdata, hnative, -⟩ := h (mints_iff.mpr ⟨data, rcpt, amt, hready, hbase⟩)
    have e := hready.decoded.symm.trans hdata
    cases e
    exact hnative
  · intro h hmints
    obtain ⟨data, rcpt, amt, hready, hbase⟩ := mints_iff.mp hmints
    have hnative := h data rcpt amt hready hbase
    refine ⟨data, hready.decoded, hnative, ?_⟩
    rwa [resolveBaseDenom, hnative.1] at hbase

/-! ### A relayed voucher -/

/-- A voucher of a third chain, relayed by the provider. -/
def relayedVoucher : FungibleTokenPacketData where
  denom := ascii "transfer/channel-9/stake"
  amount := ascii "5"
  sender := ascii "maany1provider"
  receiver := ascii "dex1receiver"

def relayedVoucherJson : Bytes :=
  ascii ("\x7b\"denom\":\"transfer/channel-9/stake\",\"amount\":\"5\"," ++
    "\"sender\":\"maany1provider\",\"receiver\":\"dex1receiver\"\x7d")

/-- The packet that brings it from the provider's `channel-3` to our `channel-0`. -/
def relayedVoucherPacket : Packet where
  sequence := 1
  sourcePort := transferPort
  sourceChannel := ascii "channel-3"
  destinationPort := transferPort
  destinationChannel := ascii "channel-0"
  data := relayedVoucherJson

/-- A chain with the default parameters, which list `stake`. -/
def relayEnv : Env := (ics20 (chainIbc [(relayedVoucherJson, relayedVoucher)] [])).env

lemma relayedVoucher_mintReady : MintReady relayEnv (chainState chainStore Bank.empty)
    relayedVoucherPacket relayedVoucher (.account (ascii "dex1receiver")) 5 where
  decoded := by decide
  port := rfl
  allowed := by decide
  client := ⟨⟨[ascii "connection-0"]⟩, ascii "connection-0", [], ⟨ascii "07-tendermint-0"⟩,
    rfl, rfl, rfl, by decide⟩
  unpaused := by decide
  fresh := by decide
  receiver := rfl
  amount := by decide +kernel
  positive := by decide
  denom := by decide
  room := by decide
  unblocked := rfl
  countable := by decide

/-- The provider's own `stake` would be backed; the third chain's is minted all
the same. -/
theorem relayedVoucher_not_backed :
    ¬ BackedMint relayEnv (chainState chainStore Bank.empty) relayedVoucherPacket := by
  intro h
  obtain ⟨data, hdata, ⟨-, hpath⟩, -⟩ := h (mints_iff.mpr
    ⟨relayedVoucher, _, 5, relayedVoucher_mintReady, by decide⟩)
  have e := relayedVoucher_mintReady.decoded.symm.trans hdata
  cases e
  exact absurd hpath (by decide)

end MaanyDex.MintBurn
