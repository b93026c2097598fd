/-
`InitGenesis` of `x/genesismint`.

Follows `module/module.go`.  The ICA configuration is taken out of the JSON
object `params` before the rest is decoded as a `GenesisState`; it is applied
unvalidated, and then every intent is processed with strict proofs.  The JSON
decoder of the SDK and `fmt.Sscan` are fields of `GenesisEnv`.
-/
import MaanyDex.GenesisMint.Keeper

namespace MaanyDex.GenesisMint

open KVStore List

/-! ### The genesis document -/

/-- A JSON value as `json.Unmarshal` leaves it in an `any`.  A number is given by
what Go's conversions to `uint64` and `int` make of the `float64`. -/
inductive JsonValue where
  | string (s : Bytes)
  | number (toUint64 : UInt64) (toInt : Int64)
  | other
  deriving DecidableEq

/-- The members of a JSON object. -/
abbrev JsonObject := List (Bytes × JsonValue)

/-- The genesis document of the module: the members of `params`, if it is an
object, and everything else. -/
structure GenesisDoc where
  params : Option JsonObject
  rest : Bytes
  deriving DecidableEq

/-- The collaborators of `InitGenesis`. -/
structure GenesisEnv extends Env where
  /-- `fmt.Sscan` into a `uint64`. -/
  sscanUint : Bytes → Option UInt64
  /-- `fmt.Sscan` into an `int`. -/
  sscanInt : Bytes → Option Int64
  /-- `cdc.UnmarshalJSON` into a `GenesisState`. -/
  unmarshalGenesis : GenesisDoc → Option GenesisState

/-- The ICA configuration found in `params`. -/
structure Config where
  connectionID : Option Bytes
  owner : Option Bytes
  timeoutSeconds : Option UInt64
  maxClaimsPerBlock : Option Int64

/-- `delete(pMap, key)`. -/
def JsonObject.erase (obj : JsonObject) (key : Bytes) : JsonObject :=
  obj.filter fun member => member.1 ≠ key

/-- The first of the keys that holds a non-empty string is taken and removed. -/
def takeString : List Bytes → JsonObject → Option Bytes × JsonObject
  | [], obj => (none, obj)
  | key :: keys, obj =>
    match obj.lookup key with
    | some (.string (b :: bs)) => (some (b :: bs), obj.erase key)
    | _ => takeString keys obj

/-- The first of the keys that is present is removed, and read if it can be. -/
def takeNumber {α : Type} (read : JsonValue → Option α) :
    List Bytes → JsonObject → Option α × JsonObject
  | [], obj => (none, obj)
  | key :: keys, obj =>
    match obj.lookup key with
    | some v => (read v, obj.erase key)
    | none => takeNumber read keys obj

variable (env : GenesisEnv)

/-- A timeout in seconds. -/
def readUint : JsonValue → Option UInt64
  | .number u _ => some u
  | .string s => env.sscanUint s
  | .other => none

/-- A number of claims. -/
def readInt : JsonValue → Option Int64
  | .number _ i => some i
  | .string s => env.sscanInt s
  | .other => none

variable (doc : GenesisDoc)

/-- Take the ICA configuration out of the document. -/
def extractConfig : Config × GenesisDoc :=
  match doc.params with
  | none => (⟨none, none, none, none⟩, doc)
  | some obj =>
    let (conn, obj) := takeString
      [ascii "ica_controller_connection_id", ascii "icaControllerConnectionId"] obj
    let (owner, obj) := takeString [ascii "ica_owner", ascii "icaOwner"] obj
    let (timeout, obj) := takeNumber (readUint env)
      [ascii "ica_tx_timeout_seconds", ascii "icaTxTimeoutSeconds"] obj
    let (maxClaims, obj) := takeNumber (readInt env)
      [ascii "ica_max_claims_per_block", ascii "icaMaxClaimsPerBlock",
        ascii "icaMaxClaimPerBlock"] obj
    (⟨conn, owner, timeout, maxClaims⟩, { doc with params := some obj })

/-- Apply one setting if it was found. -/
def applySetting {α : Type} (set : KVStore → α → KVStore) (v : Option α) (store : KVStore) :
    KVStore :=
  match v with
  | none => store
  | some v => set store v

/-- Apply the configuration that was found. -/
def applyConfig (config : Config) (store : KVStore) : KVStore :=
  applySetting setMaxClaimsPerBlock config.maxClaimsPerBlock <|
  applySetting setICATimeoutSeconds config.timeoutSeconds <|
  applySetting setICAOwner config.owner <|
  applySetting setICAConnectionID config.connectionID store

/-- The loop of `InitGenesis` over the intents. -/
def processMints (env : Env) (params : Option Params) (mints : List (Option MintIntent))
    (s : State) : Result State :=
  mints.foldlM (fun s m => (processGenesisMint env params m true s).mapError
    (.raise "genesismint: escrow_id=%s: ")) s

/-- The genesis state a document decodes to once the ICA configuration is out. -/
def genesisOf : Option GenesisState :=
  env.unmarshalGenesis (extractConfig env doc).2

/-- The state in which the intents are processed. -/
def configured (s : State) : State :=
  { s with store := applyConfig (extractConfig env doc).1 s.store }

def initGenesis (s : State) : Result State :=
  match genesisOf env doc with
  | none => .error (.panic "UnmarshalJSON")
  | some gs => do
    gs.validate.mapError (.raise "genesismint genesis validate: ")
    processMints env.toEnv gs.params gs.mints (configured env doc s)

/-- A chain before its genesis: the bank may already hold what other modules
issued. -/
def blank (bank : Bank) : State := ⟨∅, bank, []⟩

/-! ### What is minted -/

/-- The first intent of every escrow id not yet `seen`. -/
def firstOfEachEscrow : List Bytes → List MintIntent → List MintIntent
  | _, [] => []
  | seen, m :: ms =>
    if m.escrowId ∈ seen then firstOfEachEscrow seen ms
    else m :: firstOfEachEscrow (m.escrowId :: seen) ms

/-- The intents that name the provider of the parameters. -/
def ofProvider (params : Params) (ms : List MintIntent) : List MintIntent :=
  ms.filter fun m => m.providerChainId = params.providerChainId

/-- The intents whose processing emits `genesismint_minted`. -/
def mintTrace (env : Env) (params : Option Params) : State → List (Option MintIntent) →
    List MintIntent
  | _, [] => []
  | s, m :: ms =>
    match processGenesisMint env params m true s with
    | .error _ => []
    | .ok s' =>
      if s.events.length < s'.events.length then m.toList ++ mintTrace env params s' ms
      else mintTrace env params s' ms

/-- `s'` is `s` after the intents of the list were minted one after the other. -/
inductive MintRun (env : Env) (params : Params) : List MintIntent → State → State → Prop
  | nil (s : State) : MintRun env params [] s s
  | cons {m : MintIntent} {ms : List MintIntent} {s s₁ s' : State}
      (head : Mints env params m true s s₁) (tail : MintRun env params ms s₁ s') :
      MintRun env params (m :: ms) s s'

section FirstOfEachEscrow

variable {seen : List Bytes} {m : MintIntent} {ms : List MintIntent}

lemma mem_firstOfEachEscrow (h : m ∈ firstOfEachEscrow seen ms) : m ∈ ms ∧ m.escrowId ∉ seen := by
  induction ms generalizing seen with
  | nil => cases h
  | cons m' ms ih =>
    rw [firstOfEachEscrow] at h
    split at h
    · obtain ⟨hm, hs⟩ := ih h
      exact ⟨mem_cons_of_mem _ hm, hs⟩
    · rename_i hseen
      rcases mem_cons.mp h with rfl | h
      · exact ⟨mem_cons_self, hseen⟩
      · obtain ⟨hm, hs⟩ := ih h
        exact ⟨mem_cons_of_mem _ hm, fun hmem => hs (mem_cons_of_mem _ hmem)⟩

lemma pairwise_firstOfEachEscrow :
    (firstOfEachEscrow seen ms).Pairwise fun m m' => m.escrowId ≠ m'.escrowId := by
  induction ms generalizing seen with
  | nil => exact List.Pairwise.nil
  | cons m ms ih =>
    rw [firstOfEachEscrow]
    split
    · exact ih
    · refine List.Pairwise.cons ?_ ih
      intro m' hm' e
      apply (mem_firstOfEachEscrow hm').2
      rw [e]
      exact mem_cons_self

end FirstOfEachEscrow

/-! ### The store and the bank after a run of mints -/

section MintRun

variable {env : Env} {params : Params} {m : MintIntent} {ms : List MintIntent}
  {mints : List (Option MintIntent)} {s s' : State} {k : Bytes}

variable {strict : Bool}

lemma Mints.get_claimed (h : Mints env params m strict s s') (c : Bytes) :
    s'.store.get (Slot.claimed c).key
      = if m.claim = c then some [1] else s.store.get (Slot.claimed c).key := by
  rw [h.store, get_set_of_ne (by simp), get_set]
  simp

lemma MintRun.get_of_ne (h : MintRun env params ms s s')
    (hk : ∀ m ∈ ms, k ≠ (Slot.claimed m.claim).key ∧ k ≠ (Slot.pending m.claim).key) :
    s'.store.get k = s.store.get k := by
  induction h with
  | nil s => rfl
  | cons head tail ih =>
    rw [ih fun m hm => hk m (mem_cons_of_mem _ hm), head.store]
    obtain ⟨hc, hp⟩ := hk _ mem_cons_self
    rw [get_set_of_ne hp.symm, get_set_of_ne hc.symm]

/-- A key that is set stays set: mints only write `1`. -/
lemma MintRun.get_one (h : MintRun env params ms s s') (hk : s.store.get k = some [1]) :
    s'.store.get k = some [1] := by
  induction h with
  | nil s => exact hk
  | cons head tail ih =>
    apply ih
    rw [head.store, get_set, get_set, hk]
    simp

lemma MintRun.get_of_mem (h : MintRun env params ms s s') (hm : m ∈ ms) :
    s'.store.get (Slot.claimed m.claim).key = some [1]
      ∧ s'.store.get (Slot.pending m.claim).key = some [1] := by
  induction h with
  | nil s => cases hm
  | cons head tail ih =>
    rcases mem_cons.mp hm with rfl | hm
    · constructor
      · apply tail.get_one
        rw [head.store, get_set_of_ne (by simp), get_set_self]
      · apply tail.get_one
        rw [head.store, get_set_self]
    · exact ih hm

/-- Every account gains the amounts of the mints that name it. -/
lemma MintRun.balance (h : MintRun env params ms s s') (a : Address) (d : Denom) :
    s'.bank.balance a d = s.bank.balance a d
      + if params.mintDenom = d then
          ((ms.filter fun m => recipientOf env m = some a).map (amountOf env)).sum
        else 0 := by
  induction h with
  | nil s => simp
  | @cons m ms s s₁ s' head tail ih =>
    obtain ⟨rcpt, coins, hr, ht, hb, -⟩ := head.paid
    rw [ih, hb.balance, ht]
    by_cases hd : params.mintDenom = d
    · by_cases ha : a = rcpt
      · subst ha
        simp [hd, hr, Nat.add_assoc]
      · have ha' : recipientOf env m ≠ some a := by
          rw [hr]
          intro e
          exact ha (Option.some.inj e).symm
        simp [hd, ha, ha']
    · simp [hd]

/-! ### From the loop to the run of mints -/

variable {intent : Option MintIntent} {p : Option Params}

lemma processMints_cons (h : processMints env p (intent :: mints) s = .ok s') :
    ∃ s₁, processGenesisMint env p intent true s = .ok s₁ ∧ processMints env p mints s₁ = .ok s' := by
  unfold processMints at h
  rw [foldlM_cons] at h
  obtain ⟨s₁, h₁, h⟩ := Run.bind_ok h
  exact ⟨s₁, Run.mapError_ok h₁, h⟩

/-- What the loop needs to know of the claimed index: under the provider of the
parameters it holds the escrow ids seen so far. -/
def Seen (params : Params) (seen : List Bytes) (s : State) : Prop :=
  ∀ e, s.store.get (Slot.claimed (claimID params.providerChainId e)).key ≠ none ↔ e ∈ seen

lemma Mints.seen {seen : List Bytes} (h : Mints env params m true s s')
    (hs : Seen params seen s) : Seen params (m.escrowId :: seen) s' := by
  intro e
  rw [h.get_claimed, MintIntent.claim, h.provider, mem_cons, ← hs e]
  by_cases he : m.escrowId = e
  · simp [he]
  · simp [he, Ne.symm he]

/-- An unclaimed intent of the right provider has not been seen. -/
lemma Mints.notMem_seen {seen : List Bytes} (h : Mints env params m true s s')
    (hs : Seen params seen s) : m.escrowId ∉ seen := by
  rw [← hs, not_not, ← h.provider]
  exact h.unclaimed

lemma Mints.events_length (h : Mints env params m true s s') :
    s.events.length < s'.events.length := by
  obtain ⟨rcpt, coins, -, -, -, he⟩ := h.paid
  simp [he]

/-- **What `InitGenesis` mints**: the loop over the intents is a run of mints of
the first intent of every escrow id under the provider of the parameters. -/
lemma processMints_ok {seen : List Bytes} (hs : Seen params seen s)
    (h : processMints env (some params) mints s = .ok s') :
    MintRun env params (firstOfEachEscrow seen (ofProvider params (mints.filterMap id))) s s'
      ∧ mintTrace env (some params) s mints
        = firstOfEachEscrow seen (ofProvider params (mints.filterMap id)) := by
  induction mints generalizing s seen with
  | nil =>
    cases h
    exact ⟨MintRun.nil _, rfl⟩
  | cons intent mints ih =>
    obtain ⟨s₁, h₁, hrest⟩ := processMints_cons h
    obtain ⟨m, rfl, ⟨hc, rfl⟩ | ⟨p, hp, hm⟩⟩ := processGenesisMint_ok h₁
    · -- the claim is recorded: seen already, or of another provider
      obtain ⟨hrun, htrace⟩ := ih hs hrest
      have hskip : firstOfEachEscrow seen (ofProvider params ((some m :: mints).filterMap id))
          = firstOfEachEscrow seen (ofProvider params (mints.filterMap id)) := by
        by_cases hp : m.providerChainId = params.providerChainId
        · have hmem : m.escrowId ∈ seen := by
            rw [← hs, ← hp]
            exact hc
          simp [ofProvider, firstOfEachEscrow, hp, hmem]
        · simp [ofProvider, hp]
      rw [hskip]
      exact ⟨hrun, by simpa [mintTrace, h₁] using htrace⟩
    · cases hp
      obtain ⟨hrun, htrace⟩ := ih (hm.seen hs) hrest
      have htake : firstOfEachEscrow seen (ofProvider params ((some m :: mints).filterMap id))
          = m :: firstOfEachEscrow (m.escrowId :: seen)
              (ofProvider params (mints.filterMap id)) := by
        simp [ofProvider, firstOfEachEscrow, hm.provider, hm.notMem_seen hs]
      rw [htake]
      exact ⟨MintRun.cons hm hrun, by simpa [mintTrace, h₁, hm.events_length] using htrace⟩

/-- One call keeps recorded claims and records its own. -/
lemma processGenesisMint_claims (h : processGenesisMint env p intent true s = .ok s') :
    (∀ c, s.store.get (Slot.claimed c).key ≠ none → s'.store.get (Slot.claimed c).key ≠ none)
      ∧ ∃ m, intent = some m ∧ s'.store.get (Slot.claimed m.claim).key ≠ none := by
  obtain ⟨m, rfl, ⟨hc, rfl⟩ | ⟨p, -, hm⟩⟩ := processGenesisMint_ok h
  · exact ⟨fun _ hc => hc, m, rfl, hc⟩
  · constructor
    · intro c hc
      rw [hm.get_claimed]
      split
      · simp
      · exact hc
    · refine ⟨m, rfl, ?_⟩
      rw [hm.get_claimed, if_pos rfl]
      simp

/-- Once an intent of the list was processed, its claim is recorded for good. -/
lemma processMints_claimed (h : processMints env p mints s = .ok s') :
    (∀ c, s.store.get (Slot.claimed c).key ≠ none → s'.store.get (Slot.claimed c).key ≠ none)
      ∧ ∀ intent ∈ mints, ∃ m, intent = some m ∧ s'.store.get (Slot.claimed m.claim).key ≠ none := by
  induction mints generalizing s with
  | nil =>
    cases h
    exact ⟨fun _ hc => hc, by simp⟩
  | cons intent mints ih =>
    obtain ⟨s₁, h₁, hrest⟩ := processMints_cons h
    obtain ⟨hkeep₁, m, hm, hclaim⟩ := processGenesisMint_claims h₁
    obtain ⟨hkeep, hall⟩ := ih hrest
    constructor
    · intro c hc
      exact hkeep c (hkeep₁ c hc)
    · intro intent' hmem
      rcases mem_cons.mp hmem with rfl | hmem
      · exact ⟨m, hm, hkeep _ hclaim⟩
      · exact hall intent' hmem

lemma processGenesisMint_claimed (h : s.store.get (Slot.claimed m.claim).key ≠ none) :
    processGenesisMint env p (some m) strict s = .ok s := by
  have hc : isClaimed s.store m.providerChainId m.escrowId = true :=
    has_eq_true.mpr (Option.ne_none_iff_exists'.mp h)
  simp [processGenesisMint, hc]

end MintRun

/-! ### The whole of `InitGenesis` -/

lemma validate_ok {gs : GenesisState} (h : gs.validate = .ok ()) :
    ∃ params, gs.params = some params ∧ params.validateBasic = .ok () := by
  unfold GenesisState.validate at h
  rcases e : gs.params with - | params
  · simp [e] at h
  · simp only [e] at h
    obtain ⟨_, hv, -⟩ := Run.bind_ok h
    exact ⟨params, rfl, Run.mapError_ok hv⟩

variable {doc : GenesisDoc}

lemma initGenesis_ok {env : GenesisEnv} {s s' : State} (h : initGenesis env doc s = .ok s') :
    ∃ gs params, genesisOf env doc = some gs ∧ gs.params = some params
      ∧ processMints env.toEnv (some params) gs.mints (configured env doc s) = .ok s' := by
  unfold initGenesis at h
  rcases e : genesisOf env doc with - | gs
  · simp [e] at h
  · simp only [e] at h
    obtain ⟨_, hv, h⟩ := Run.bind_ok h
    obtain ⟨params, hp, -⟩ := validate_ok (Run.mapError_ok hv)
    rw [hp] at h
    exact ⟨gs, params, rfl, hp, h⟩

variable {store : KVStore}

lemma applySetting_get {α : Type} (set : KVStore → α → KVStore) {key k : Bytes} {v : Option α}
    (hset : ∀ store a, ∃ bz, set store a = store.set key bz)
    (hk : key ≠ k) : (applySetting set v store).get k = store.get k := by
  rcases v with - | a
  · rfl
  · obtain ⟨bz, e⟩ := hset store a
    rw [applySetting, e, get_set_of_ne hk]

lemma applyConfig_get {config : Config} {k : Bytes} (hk : ¬ [0x15] <+: k) :
    (applyConfig config store).get k = store.get k := by
  have hne (rest : Bytes) : (0x15 : UInt8) :: rest ≠ k := by
    rintro rfl
    exact hk ⟨rest, rfl⟩
  unfold applyConfig
  rw [applySetting_get setMaxClaimsPerBlock (fun _ _ => ⟨_, rfl⟩) (hne _),
    applySetting_get setICATimeoutSeconds (fun _ _ => ⟨_, rfl⟩) (hne _),
    applySetting_get setICAOwner (fun _ _ => ⟨_, rfl⟩) (hne _),
    applySetting_get setICAConnectionID (fun _ _ => ⟨_, rfl⟩) (hne _)]

variable {bank : Bank}

lemma configured_blank_get {env : GenesisEnv} {k : Bytes}
    (hk : ¬ [0x15] <+: k) : (configured env doc (blank bank)).store.get k = none := by
  show (applyConfig _ ∅).get k = none
  rw [applyConfig_get hk, get_empty]

/-- **Genesis**: from a blank chain, `InitGenesis` is the configuration followed
by a run of mints. -/
lemma initGenesis_blank {env : GenesisEnv} {s' : State}
    (h : initGenesis env doc (blank bank) = .ok s') :
    ∃ gs params, genesisOf env doc = some gs ∧ gs.params = some params
      ∧ MintRun env.toEnv params (firstOfEachEscrow [] (ofProvider params gs.intents))
          (configured env doc (blank bank)) s'
      ∧ mintTrace env.toEnv (some params) (configured env doc (blank bank)) gs.mints
          = firstOfEachEscrow [] (ofProvider params gs.intents)
      ∧ ∀ intent ∈ gs.mints, ∃ m, intent = some m
          ∧ s'.store.get (Slot.claimed m.claim).key ≠ none := by
  obtain ⟨gs, params, hgs, hp, h⟩ := initGenesis_ok h
  have hseen : Seen params [] (configured env doc (blank bank)) := by
    intro e
    rw [configured_blank_get (by rw [Slot.tag_prefix_key]; exact of_decide_eq_false rfl)]
    simp
  obtain ⟨hrun, htrace⟩ := processMints_ok hseen h
  exact ⟨gs, params, hgs, hp, hrun, htrace, (processMints_claimed h).2⟩

/-! ### A chain for concrete runs -/

/-- The collaborators of `InitGenesis` on the inputs of concrete runs: the
documents that occur with what they decode to, and the memberships that the
verifier accepts.  No consensus state is there at genesis. -/
def chainGenesis (docs : List (GenesisDoc × GenesisState))
    (memberships : List (Bytes × Bytes × Bytes × Bytes × Bytes)) : GenesisEnv where
  toSdk := chainSdk
  getClientConsensusState _ _ _ := none
  verifyMembership proof root storeName key value :=
    (proof, root, storeName, key, value) ∈ memberships
  sscanUint s := (Decimal.parseUint 64 s).map UInt64.ofNat
  sscanInt s := (Decimal.parseInt 64 s).map Int64.ofInt
  unmarshalGenesis doc := docs.lookup doc

/-- Parameters with a trusted root. -/
def chainParams : Params where
  providerClientId := ascii "07-tendermint-0"
  providerChainId := ascii "maany-1"
  allowedProviderDenom := ascii "umaany"
  mintDenom := ascii "umaany"
  genesisTrustedRoot := some ⟨1, 3, ascii "root"⟩
  useGenesisTrustedRoot := true

/-- An intent proven against the trusted root, for an entry under the key
`esc`. -/
def chainIntent (provider escrowId amount recipient : String) : MintIntent where
  merkleProof := some (ascii "proof")
  proofHeightRevisionNumber := 1
  proofHeightRevisionHeight := 3
  keyPath := [ascii "mintburn", ascii "657363"]
  value := ascii "NTA="
  providerChainId := ascii provider
  amountDenom := ascii "umaany"
  amountValue := ascii amount
  escrowId := ascii escrowId
  recipient := ascii recipient

/-- The one membership that the provider's state has: `50` under `esc`. -/
def chainMembership : Bytes × Bytes × Bytes × Bytes × Bytes :=
  (ascii "proof", ascii "root", ascii "mintburn", ascii "esc", ascii "50")

/-- A genesis with the given intents. -/
def chainGenesisState (mints : List MintIntent) : GenesisState :=
  ⟨some chainParams, mints.map some, []⟩

/-- A document without ICA configuration. -/
def chainDoc : GenesisDoc := ⟨some [], ascii "genesis"⟩

/-- The collaborators for a genesis with the given intents. -/
def chainEnv (mints : List MintIntent) : GenesisEnv :=
  chainGenesis [(chainDoc, chainGenesisState mints)] [chainMembership]

lemma exists_ok {α : Type _} {x : Result α} (h : x.isOk = true) : ∃ a, x = .ok a := by
  rcases x with e | a
  · cases h
  · exact ⟨a, rfl⟩

end MaanyDex.GenesisMint
