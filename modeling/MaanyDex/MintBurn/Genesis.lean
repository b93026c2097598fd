/-
Genesis of `x/mintburn`: what is exported and what is read back.

Follows `keeper/genesis.go`, `types/genesis.go`, `SetParams` of
`keeper/keeper.go` and the JSON wrappers of `module/module.go`.  The genesis
state has one field, the parameters.  The store has three more kinds of entry
(proofs, allow-listed channels, the mirror supply), and `InitGenesis` on a fresh
store writes none of them.
-/
import MaanyDex.MintBurn.Replay

namespace MaanyDex.MintBurn

open KVStore

/-! ### Export and import -/

structure GenesisState where
  params : Params

def defaultGenesis : GenesisState := ⟨defaultParams⟩

def GenesisState.validate (gs : GenesisState) : Result Unit := gs.params.validate

/-- The JSON encoder and decoder that genesis goes through. -/
structure GenesisEnv extends KeeperEnv where
  /-- `json.Marshal` of the parameters, which have no field that it refuses. -/
  marshalParams : Params → Bytes
  /-- `json.Marshal` of the genesis state. -/
  marshalGenesis : GenesisState → Bytes
  /-- `json.Unmarshal` into a `GenesisState`. -/
  unmarshalGenesis : Bytes → Option GenesisState
  /-- Parameters that a store holds were decoded from JSON (or are the defaults), so
  their strings are valid UTF-8 and come back as they were. -/
  unmarshal_marshal (store : KVStore) :
    unmarshalGenesis (marshalGenesis ⟨getParams toKeeperEnv store⟩)
      = some ⟨getParams toKeeperEnv store⟩

variable (env : GenesisEnv) (store : KVStore)

def setParams (p : Params) : Result KVStore := do
  p.validate.mapError (.raise "")
  return store.set keyParams (env.marshalParams p)

/-- `Keeper.InitGenesis`. -/
def keeperInitGenesis (gs : Option GenesisState) : Result KVStore := do
  let gs := gs.getD defaultGenesis
  gs.validate.mapError (.raise "")
  setParams env store gs.params

/-- `Keeper.ExportGenesis`. -/
def keeperExportGenesis : GenesisState := ⟨getParams env.toKeeperEnv store⟩

def initGenesis (data : Bytes) : Result KVStore :=
  match env.unmarshalGenesis data with
  | none => .error (.panic "json")
  | some gs => keeperInitGenesis env store (some gs)

def exportGenesis : Bytes := env.marshalGenesis (keeperExportGenesis env store)

/-- The guards of a store are in the store that its export initialises: every
consumed proof, the mirror supply and the allow-listed channels. -/
structure Guarded (store store' : KVStore) : Prop where
  proofs : ∀ id, hasProof store id = true → hasProof store' id = true
  mirrorSupply : getMirrorSupply env.toKeeperEnv store' = getMirrorSupply env.toKeeperEnv store
  channels : ∀ c, isAllowedChannel store' c = isAllowedChannel store c

/-- A fresh store initialised from the export keeps the guards. -/
def GuardsKept : Prop :=
  ∃ store', initGenesis env ∅ (exportGenesis env store) = .ok store' ∧ Guarded env store store'

/-! ### What the round trip keeps -/

variable {env} {store store' : KVStore}

/-- The import is the validation of the parameters, and writes nothing else. -/
lemma initGenesis_exportGenesis :
    initGenesis env ∅ (exportGenesis env store) = .ok store'
      ↔ (getParams env.toKeeperEnv store).validate = .ok ()
        ∧ store' = set ∅ keyParams (env.marshalParams (getParams env.toKeeperEnv store)) := by
  unfold initGenesis exportGenesis
  rw [keeperExportGenesis, env.unmarshal_marshal]
  show keeperInitGenesis env ∅ (some _) = .ok store' ↔ _
  constructor
  · intro h
    obtain ⟨_, _, hv, _, h⟩ := Run.bind2_ok h
    cases h
    exact ⟨Run.mapError_ok hv, rfl⟩
  · rintro ⟨hv, rfl⟩
    have hv' : GenesisState.validate ⟨getParams env.toKeeperEnv store⟩ = .ok () := hv
    simp only [keeperInitGenesis, setParams, Option.getD_some, hv, hv']
    rfl

section Fresh

variable (bz : Bytes)

lemma hasProof_params (id : Bytes) : hasProof (set ∅ keyParams bz) id = false := by
  apply has_eq_false.mpr
  rw [get_set_of_ne (keyParams_ne_proof id), get_empty]

lemma isAllowedChannel_params (c : Bytes) : isAllowedChannel (set ∅ keyParams bz) c = false := by
  apply has_eq_false.mpr
  rw [get_set_of_ne (keyParams_ne_allowedChan c), get_empty]

lemma getMirrorSupply_params (env : KeeperEnv) : getMirrorSupply env (set ∅ keyParams bz) = 0 := by
  unfold getMirrorSupply
  rw [get_set_of_ne keyParams_ne_mirrorSupply, get_empty]

end Fresh

/-- **The round trip of `mintburn`** keeps the guards exactly of a store that guards
nothing: no proof is consumed, nothing is mirrored, no channel is allow-listed. -/
lemma guardsKept_iff :
    GuardsKept env store
      ↔ (getParams env.toKeeperEnv store).validate = .ok ()
        ∧ (∀ id, hasProof store id = false)
        ∧ getMirrorSupply env.toKeeperEnv store = 0
        ∧ ∀ c, isAllowedChannel store c = false := by
  constructor
  · rintro ⟨store', h, hkept⟩
    obtain ⟨hv, rfl⟩ := initGenesis_exportGenesis.mp h
    refine ⟨hv, fun id => ?_, ?_, fun c => ?_⟩
    · -- a consumed proof would have to be in the fresh store
      by_contra hid
      have hlost := hkept.proofs id (by simpa using hid)
      rw [hasProof_params] at hlost
      cases hlost
    · rw [← hkept.mirrorSupply, getMirrorSupply_params]
    · rw [← hkept.channels, isAllowedChannel_params]
  · rintro ⟨hv, hproofs, hsupply, hchannels⟩
    refine ⟨_, initGenesis_exportGenesis.mpr ⟨hv, rfl⟩, ?_, ?_, ?_⟩
    · intro id hid
      rw [hproofs] at hid
      cases hid
    · rw [hsupply, getMirrorSupply_params]
    · intro c
      rw [hchannels, isAllowedChannel_params]

/-! ### A concrete chain -/

/-- A chain whose parameters are never set. -/
def relayGenesis : GenesisEnv where
  toKeeperEnv := relayEnv.toKeeperEnv
  marshalParams _ := ascii "params"
  marshalGenesis _ := ascii "genesis"
  unmarshalGenesis _ := some defaultGenesis
  unmarshal_marshal store := by
    have hparams : getParams relayEnv.toKeeperEnv store = defaultParams := by
      unfold getParams
      split
      · rfl
      · exact ite_self _
    rw [hparams]
    rfl

end MaanyDex.MintBurn
