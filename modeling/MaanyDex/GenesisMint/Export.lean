/-
`ExportGenesis` of `x/genesismint`, and restarts from exported state.

Follows `module/module.go` and `types/genesis.go`.  `ExportGenesis` does not
look at the store: it writes a state with empty parameters, no intents and no
claimed ids.  `InitGenesis` validates the parameters first, and empty ones do
not pass, so the export initialises no store at all.
-/
import MaanyDex.GenesisMint.Genesis
import MaanyDex.MintBurn.Genesis

namespace MaanyDex.GenesisMint

/-! ### The export -/

/-- The zero value of `types.Params`. -/
def zeroParams : Params := ⟨[], [], [], [], none, false⟩

/-- The state that `ExportGenesis` writes. -/
def exportedGenesis : GenesisState := ⟨some zeroParams, [], []⟩

/-- The encoder of `ExportGenesis`. -/
structure ExportEnv extends GenesisEnv where
  /-- `cdc.MustMarshalJSON`. -/
  marshalGenesis : GenesisState → GenesisDoc
  /-- The exported document has no ICA configuration and decodes to what was
  encoded. -/
  unmarshal_marshal : genesisOf toGenesisEnv (marshalGenesis exportedGenesis) = some exportedGenesis

def exportGenesis (env : ExportEnv) (_ : State) : GenesisDoc := env.marshalGenesis exportedGenesis

/-- A fresh store initialised from the export has every claim of the state. -/
def ClaimsKept (env : ExportEnv) (bank : Bank) (s : State) : Prop :=
  ∃ s', initGenesis env.toGenesisEnv (exportGenesis env s) (blank bank) = .ok s'
    ∧ ∀ provider escrow, isClaimed s.store provider escrow = true →
      isClaimed s'.store provider escrow = true

/-! ### Restarts -/

/-- Empty parameters do not pass the validation, whatever the state was. -/
lemma initGenesis_exportGenesis (env : ExportEnv) (s t : State) :
    initGenesis env.toGenesisEnv (exportGenesis env s) t
      = .error (.panic "genesismint genesis validate: params: provider client/chain id required") := by
  unfold initGenesis exportGenesis
  rw [env.unmarshal_marshal]
  rfl

lemma isClaimed_eq_true {store : KVStore} {provider escrow : Bytes} :
    isClaimed store provider escrow = true
      ↔ store.get (Slot.claimed (claimID provider escrow)).key ≠ none := by
  rw [Option.ne_none_iff_exists']
  exact KVStore.has_eq_true

/-- **What a genesis claims**: on a fresh store, the intents.  The ids listed in
`ClaimedEscrowIds` make no difference. -/
lemma initGenesis_claimed {env : GenesisEnv} {doc : GenesisDoc} {bank : Bank} {gs : GenesisState}
    {s' : State} (hgs : genesisOf env doc = some gs)
    (h : initGenesis env doc (blank bank) = .ok s') (provider escrow : Bytes) :
    isClaimed s'.store provider escrow = true
      ↔ ∃ m ∈ gs.intents, m.claim = claimID provider escrow := by
  obtain ⟨gs', params, hgs', -, hrun, -, hall⟩ := initGenesis_blank h
  cases hgs.symm.trans hgs'
  rw [isClaimed_eq_true]
  constructor
  · intro hclaimed
    by_contra hnone
    push Not at hnone
    -- a key that no intent names is as it was before the first of them
    apply hclaimed
    rw [hrun.get_of_ne, configured_blank_get]
    · rw [Slot.tag_prefix_key]
      exact of_decide_eq_false rfl
    · intro m hm
      have hmem : m ∈ gs.intents := (List.mem_filter.mp (mem_firstOfEachEscrow hm).1).1
      constructor
      · intro heq
        exact hnone m hmem (Slot.claimed.inj (Slot.key_injective heq)).symm
      · intro heq
        cases Slot.key_injective heq
  · rintro ⟨m, hm, hclaim⟩
    have hmem : some m ∈ gs.mints := by
      simpa [GenesisState.intents] using hm
    obtain ⟨m', heq, hget⟩ := hall _ hmem
    cases heq
    rw [← hclaim]
    exact hget

/-- **Restarts lose the guards.**  No state of `genesismint` can be restarted from its export.  A
state of `mintburn` keeps its guards exactly if it has none: no proof is consumed, nothing is
mirrored and no channel is allow-listed (its parameters being valid).  And what a genesis lists in
`ClaimedEscrowIds` is claimed only if it is also an intent. -/
theorem guards_after_restart (env : ExportEnv) (burn : MintBurn.GenesisEnv) :
    (∀ bank s, ¬ ClaimsKept env bank s)
      ∧ (∀ store, MintBurn.GuardsKept burn store
          ↔ (MintBurn.getParams burn.toKeeperEnv store).validate = .ok ()
            ∧ (∀ id, MintBurn.hasProof store id = false)
            ∧ MintBurn.getMirrorSupply burn.toKeeperEnv store = 0
            ∧ ∀ c, MintBurn.isAllowedChannel store c = false)
      ∧ ∀ doc bank gs s', genesisOf env.toGenesisEnv doc = some gs →
          initGenesis env.toGenesisEnv doc (blank bank) = .ok s' →
          ∀ provider escrow, isClaimed s'.store provider escrow = true
            ↔ ∃ m ∈ gs.intents, m.claim = claimID provider escrow := by
  refine ⟨?_, ?_, ?_⟩
  · rintro bank s ⟨s', h, -⟩
    rw [initGenesis_exportGenesis] at h
    cases h
  · intro store
    exact MintBurn.guardsKept_iff
  · intro doc bank gs s' hgs h provider escrow
    exact initGenesis_claimed hgs h provider escrow

/-! ### A concrete restart -/

/-- What `ExportGenesis` writes on the concrete chain. -/
def exportDoc : GenesisDoc := ⟨some [], ascii "export"⟩

/-- A genesis with one intent, which also lists an id as claimed. -/
def listingGenesis : GenesisState :=
  ⟨some chainParams, [some (chainIntent "maany-1" "7" "50" "alice")], [ascii "8"]⟩

/-- The collaborators for a start from `listingGenesis` and a restart. -/
def restartEnv : ExportEnv where
  toGenesisEnv := chainGenesis [(chainDoc, listingGenesis), (exportDoc, exportedGenesis)]
    [chainMembership]
  marshalGenesis _ := exportDoc
  unmarshal_marshal := by decide

/-- A start from `listingGenesis` does not claim the id that is listed. -/
theorem guards_after_restart_listed :
    ∃ s, initGenesis restartEnv.toGenesisEnv chainDoc (blank Bank.empty) = .ok s
      ∧ isClaimed s.store (ascii "maany-1") (ascii "7") = true
      ∧ isClaimed s.store (ascii "maany-1") (ascii "8") = false := by
  obtain ⟨s, hs⟩ := exists_ok (x := initGenesis restartEnv.toGenesisEnv chainDoc
    (blank Bank.empty)) (by decide +kernel)
  have hclaimed := (guards_after_restart restartEnv MintBurn.relayGenesis).2.2 chainDoc Bank.empty
    listingGenesis s (by decide) hs (ascii "maany-1")
  refine ⟨s, hs, (hclaimed _).mpr (by decide), ?_⟩
  rw [← Bool.not_eq_true, hclaimed]
  decide

/-- The escrow `7` is minted at genesis and the chain cannot be restarted.  A packet is minted by
`mintburn`, and after a restart its proof is free again, with nothing mirrored and the channel
closed. -/
theorem restart_forgets :
    (∃ s, initGenesis restartEnv.toGenesisEnv chainDoc (blank Bank.empty) = .ok s
      ∧ isClaimed s.store (ascii "maany-1") (ascii "7") = true
      ∧ ∀ bank, ¬ ClaimsKept restartEnv bank s)
    ∧ ∃ store store', store = (Run.run (MintBurn.recvPacket MintBurn.relayEnv)
        (MintBurn.chainState MintBurn.chainStore Bank.empty) [MintBurn.relayedVoucherPacket]).store
      ∧ MintBurn.initGenesis MintBurn.relayGenesis ∅
          (MintBurn.exportGenesis MintBurn.relayGenesis store) = .ok store'
      ∧ (MintBurn.hasProof store (MintBurn.proofID MintBurn.relayedVoucherPacket),
          MintBurn.getMirrorSupply MintBurn.relayEnv.toKeeperEnv store,
          MintBurn.isAllowedChannel store (ascii "channel-0")) = (true, 5, true)
      ∧ (MintBurn.hasProof store' (MintBurn.proofID MintBurn.relayedVoucherPacket),
          MintBurn.getMirrorSupply MintBurn.relayEnv.toKeeperEnv store',
          MintBurn.isAllowedChannel store' (ascii "channel-0")) = (false, 0, false) := by
  constructor
  · obtain ⟨s, hs⟩ := exists_ok (x := initGenesis restartEnv.toGenesisEnv chainDoc
      (blank Bank.empty)) (by decide +kernel)
    refine ⟨s, hs, ?_, ?_⟩
    · have hgs : genesisOf restartEnv.toGenesisEnv chainDoc = some listingGenesis := by
        decide
      exact (initGenesis_claimed hgs hs _ _).mpr (by decide)
    · rintro bank ⟨s', h, -⟩
      rw [initGenesis_exportGenesis] at h
      cases h
  · refine ⟨_, KVStore.set ∅ MintBurn.keyParams (ascii "params"), rfl, ?_, ?_, ?_⟩
    · exact MintBurn.initGenesis_exportGenesis.mpr ⟨by decide +kernel, rfl⟩
    · decide +kernel
    · decide +kernel

end MaanyDex.GenesisMint
