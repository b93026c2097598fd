/-
The caches of `x/poolmanager`: `create_pool.go`, `store.go` and `BeginBlock`.

The keeper has two maps in memory, of the modules of pools and of the taker fee share
agreements.  They are no part of the store, so a transaction that is rolled back leaves
behind what it wrote to them.  As long as they agree with the store (`Coherent`), nobody can
tell whether they were built before or now; that includes the gas, since a hit charges what
the read of the store did (`getPoolModule_eq`, `getPoolType_eq`).

Two things break the agreement: an agreement that is set by a transaction that is rolled
back, and the lookup of a pool by the transaction that creates it, when that is rolled back
(`rolled_back_writes_stay`).

There are no cosmwasm pools in this application, hence no alloyed pools: their map is empty,
and `BeginBlock` reads the agreements in every block.
-/
import MaanyDex.PoolManager.Keys
import MaanyDex.Lib.SideCache

namespace MaanyDex.PoolManager

open AList

open Gamm (PoolType)

/-! ### Routes -/

/-- The modules that serve pools. -/
inductive PoolModule where
  | gamm
  | concentratedLiquidity
  | cosmwasmpool
  deriving DecidableEq

/-- `routes`, as `NewKeeper` fills it. -/
def routes : PoolType → Option PoolModule
  | .balancer => some .gamm
  | .stableswap => some .gamm
  | .concentrated => some .concentratedLiquidity
  | .cosmWasm => some .cosmwasmpool

/-- `FailedToFindRouteError` and `UndefinedRouteError`, and the panic of an id without key. -/
inductive RouteError where
  | failedToFindRoute (poolId : ℕ)
  | undefinedRoute (poolType : PoolType) (poolId : ℕ)
  | noKey (panic : Fault)
  deriving DecidableEq

/-- The encoding of a `ModuleRoute` without id; the field of the type is omitted when it
is zero. -/
def marshalModuleRoute : PoolType → Bytes
  | .balancer => []
  | .stableswap => [8, 1]
  | .concentrated => [8, 2]
  | .cosmWasm => [8, 3]

/-! ### Gas -/

/-- `ReadCostFlat` of `KVGasConfig`. -/
def readCostFlat : ℕ := 1000

/-- `ReadCostPerByte` of `KVGasConfig`. -/
def readCostPerByte : ℕ := 3

/-- One call of `ConsumeGas`. -/
structure Charge where
  amount : ℕ
  descriptor : String
  deriving DecidableEq

def chargeMockReadGas (gasFlat gasKey gasVal : ℕ) : List Charge :=
  [⟨gasFlat, "ReadFlat"⟩, ⟨gasKey, "ReadPerByte"⟩, ⟨gasVal, "ReadPerByte"⟩]

/-- What `Get` of a store charges. -/
def readGas (key value : Bytes) : List Charge :=
  [⟨readCostFlat, "ReadFlat"⟩, ⟨readCostPerByte * key.length, "ReadPerByte"⟩,
    ⟨readCostPerByte * value.length, "ReadPerByte"⟩]

/-! ### The store and the caches -/

structure TakerFeeShareAgreement where
  denom : Denom
  skimPercent : Dec
  skimAddress : Bytes
  deriving DecidableEq

/-- `KeyTakerFeeShare`: agreements are stored under their own denominations. -/
structure AgreementStore where
  entries : AList fun _ : Denom => TakerFeeShareAgreement
  keyed : ∀ d a, entries.lookup d = some a → a.denom = d

namespace AgreementStore

def empty : AgreementStore := ⟨∅, fun _ _ h => by cases h⟩

def set (as : AgreementStore) (a : TakerFeeShareAgreement) : AgreementStore where
  entries := as.entries.insert a.denom a
  keyed d a' h := by
    by_cases hd : d = a.denom
    · subst hd
      rw [lookup_insert] at h
      cases h
      rfl
    · rw [lookup_insert_ne hd] at h
      exact as.keyed d a' h

end AgreementStore

/-- The part of the store of `x/poolmanager` that the caches mirror. -/
structure Store where
  /-- `KeyNextGlobalPoolId`. -/
  nextPoolId : ℕ
  /-- `SwapModuleRouterPrefix`. -/
  poolRoutes : AList fun _ : ℕ => PoolType
  agreements : AgreementStore

structure PoolModuleCacheValue where
  pooltype : PoolType
  module : PoolModule
  gasFlat : ℕ
  gasKey : ℕ
  gasValue : ℕ

/-- The maps in memory. -/
structure Caches where
  cachedPoolModules : AList fun _ : ℕ => PoolModuleCacheValue
  cachedTakerFeeShareAgreementMap : AList fun _ : Denom => TakerFeeShareAgreement

/-- The modes in which handlers are executed. -/
inductive ExecMode where
  | simulate
  | finalize
  deriving DecidableEq

variable (st : Store) (k : Caches)

def getPoolRouteRaw (poolId : ℕ) : Except RouteError PoolType × List Charge :=
  match formatModuleRouteKey poolId with
  | .error e => (.error (.noKey e), [])
  | .ok key =>
    match st.poolRoutes.lookup poolId with
    | none => (.error (.failedToFindRoute poolId), readGas key [])
    | some t => (.ok t, readGas key (marshalModuleRoute t))

def setPoolRoute (poolId : ℕ) (poolType : PoolType) : Store × Caches :=
  ({ st with poolRoutes := st.poolRoutes.insert poolId poolType },
    { k with cachedPoolModules := k.cachedPoolModules.erase poolId })

def getPoolType (poolId : ℕ) : Except RouteError PoolType × List Charge :=
  match k.cachedPoolModules.lookup poolId with
  | none => getPoolRouteRaw st poolId
  | some v => (.ok v.pooltype, chargeMockReadGas v.gasFlat v.gasKey v.gasValue)

def getPoolModule (mode : ExecMode) (poolId : ℕ) :
    Caches × Except RouteError PoolModule × List Charge :=
  match k.cachedPoolModules.lookup poolId with
  | some v => (k, .ok v.module, chargeMockReadGas v.gasFlat v.gasKey v.gasValue)
  | none =>
    match formatModuleRouteKey poolId with
    | .error e => (k, .error (.noKey e), [])
    | .ok key =>
      match st.poolRoutes.lookup poolId with
      | none => (k, .error (.failedToFindRoute poolId), readGas key [])
      | some t =>
        let gas := readGas key (marshalModuleRoute t)
        match routes t with
        | none => (k, .error (.undefinedRoute t poolId), gas)
        | some swapModule =>
          let v : PoolModuleCacheValue :=
            { pooltype := t
              module := swapModule
              gasFlat := readCostFlat
              gasKey := readCostPerByte * key.length
              gasValue := readCostPerByte * (marshalModuleRoute t).length }
          let k := if mode = .finalize then
              { k with cachedPoolModules := k.cachedPoolModules.insert poolId v }
            else k
          (k, .ok swapModule, gas)

def getTakerFeeShareAgreementFromDenom (denom : Denom) : Option TakerFeeShareAgreement :=
  k.cachedTakerFeeShareAgreementMap.lookup denom

/-- `SetTakerFeeShareAgreementForDenom`; there is no alloyed pool to recalculate. -/
def setTakerFeeShareAgreementForDenom (takerFeeShare : TakerFeeShareAgreement) : Store × Caches :=
  ({ st with agreements := st.agreements.set takerFeeShare },
    { k with cachedTakerFeeShareAgreementMap :=
        k.cachedTakerFeeShareAgreementMap.insert takerFeeShare.denom takerFeeShare })

/-- `getAllTakerFeeShareAgreementsMap`: the values in the order of the iteration, each under
the denomination that it names. -/
def getAllTakerFeeShareAgreementsMap : AList fun _ : Denom => TakerFeeShareAgreement :=
  st.agreements.entries.entries.foldl (fun m e => m.insert e.2.denom e.2) ∅

/-- What creating a pool does to the store and the caches: `getNextPoolIdAndIncrement`, the
check of the id and `SetPoolRoute`. -/
def createPool (poolType : PoolType) : (Store × Caches) × Option ℕ :=
  let poolId := st.nextPoolId
  let st := { st with nextPoolId := poolId + 1 }
  if 99999999999 ≤ poolId then ((st, k), none) else (setPoolRoute st k poolId poolType, some poolId)

def beginBlock : Caches :=
  { k with cachedTakerFeeShareAgreementMap := getAllTakerFeeShareAgreementsMap st }

/-- Caches that were just built from the store; modules are cached when they are asked for. -/
def rebuilt : Caches := ⟨∅, getAllTakerFeeShareAgreementsMap st⟩

/-! ### Transactions -/

/-- What transactions do to the caches. -/
inductive Op where
  | createPool (poolType : PoolType)
  | getPoolModule (poolId : ℕ)
  | getPoolType (poolId : ℕ)
  | setTakerFeeShareAgreement (takerFeeShare : TakerFeeShareAgreement)
  | getTakerFeeShareAgreement (denom : Denom)

/-- What the callers see. -/
inductive Answer where
  | created (poolId : Option ℕ)
  | module (r : Except RouteError PoolModule) (gas : List Charge)
  | poolType (r : Except RouteError PoolType) (gas : List Charge)
  | agreementSet
  | agreement (r : Option TakerFeeShareAgreement)
  deriving DecidableEq

def step (mode : ExecMode) : Op → (Store × Caches) × Answer
  | .createPool t =>
    let r := createPool st k t
    (r.1, .created r.2)
  | .getPoolModule id =>
    let r := getPoolModule st k mode id
    ((st, r.1), .module r.2.1 r.2.2)
  | .getPoolType id =>
    let r := getPoolType st k id
    ((st, k), .poolType r.1 r.2)
  | .setTakerFeeShareAgreement a => (setTakerFeeShareAgreementForDenom st k a, .agreementSet)
  | .getTakerFeeShareAgreement d =>
    ((st, k), .agreement (getTakerFeeShareAgreementFromDenom k d))

/-- A transaction; what is simulated is never committed. -/
structure Tx where
  mode : ExecMode
  ops : List Op
  committed : Bool

inductive Event where
  | tx (t : Tx)
  | beginBlock

/-- The answers of operations that are executed in the given state. -/
def answers (s : Store × Caches) (mode : ExecMode) (ops : List Op) : List Answer :=
  (SideCache.exec (fun st k => step st k mode) s.1 s.2 ops).2

/-- One event. -/
def handle (s : Store × Caches) : Event → Except Empty (Store × Caches)
  | .tx t => .ok (SideCache.deliver (fun st k => step st k t.mode) s t.ops
      (t.committed && t.mode = .finalize))
  | .beginBlock => .ok (s.1, beginBlock s.1 s.2)

/-! ### Coherence -/

/-- The caches hold what the store says. -/
structure Coherent (st : Store) (k : Caches) : Prop where
  modules : ∀ id v, k.cachedPoolModules.lookup id = some v →
    st.poolRoutes.lookup id = some v.pooltype ∧ routes v.pooltype = some v.module
      ∧ ∃ key, formatModuleRouteKey id = .ok key
        ∧ chargeMockReadGas v.gasFlat v.gasKey v.gasValue
          = readGas key (marshalModuleRoute v.pooltype)
  agreements : ∀ d, k.cachedTakerFeeShareAgreementMap.lookup d = st.agreements.entries.lookup d

variable {st k} {mode : ExecMode}

lemma getPoolModule_eq (h : Coherent st k) (id : ℕ) :
    (getPoolModule st k mode id).2 = (getPoolModule st (rebuilt st) mode id).2 := by
  unfold getPoolModule
  rw [show (rebuilt st).cachedPoolModules.lookup id = none from rfl]
  rcases hk : k.cachedPoolModules.lookup id with - | v
  · rcases formatModuleRouteKey id with - | key
    · rfl
    · rcases st.poolRoutes.lookup id with - | t
      · rfl
      · cases t <;> rfl
  · obtain ⟨hroute, hmodule, key, hkey, hgas⟩ := h.modules id v hk
    simp only [hkey, hroute, hmodule, hgas]

lemma getPoolType_eq (h : Coherent st k) (id : ℕ) :
    getPoolType st k id = getPoolRouteRaw st id := by
  unfold getPoolType
  rcases hk : k.cachedPoolModules.lookup id with - | v
  · rfl
  · obtain ⟨hroute, -, key, hkey, hgas⟩ := h.modules id v hk
    simp only [getPoolRouteRaw, hkey, hroute, hgas]

/-- A lookup caches at most the entry of the pool that it looks up. -/
lemma getPoolModule_caches (id : ℕ) :
    (getPoolModule st k mode id).1 = k ∨
      mode = .finalize ∧ ∃ key t m v, formatModuleRouteKey id = .ok key
        ∧ st.poolRoutes.lookup id = some t ∧ routes t = some m
        ∧ v = ⟨t, m, readCostFlat, readCostPerByte * key.length,
            readCostPerByte * (marshalModuleRoute t).length⟩
        ∧ (getPoolModule st k mode id).1
          = { k with cachedPoolModules := k.cachedPoolModules.insert id v } := by
  unfold getPoolModule
  rcases k.cachedPoolModules.lookup id with - | v
  · rcases formatModuleRouteKey id with - | key
    · exact .inl rfl
    · rcases hroute : st.poolRoutes.lookup id with - | t
      · exact .inl rfl
      · -- all types have a module
        cases mode with
        | simulate =>
          left
          cases t <;> rfl
        | finalize =>
          right
          cases t <;> exact ⟨rfl, key, _, _, _, rfl, rfl, rfl, rfl, rfl⟩
  · exact .inl rfl

variable {id : ℕ}

/-- Caching the entry of a pool that has a route keeps the caches coherent. -/
lemma Coherent.lookup {st' : Store} (h : Coherent st k)
    (hroute : ∀ t, st'.poolRoutes.lookup id = some t → st.poolRoutes.lookup id = some t) :
    Coherent st (getPoolModule st' k mode id).1 := by
  rcases @getPoolModule_caches st' k mode id with hk | ⟨-, key, t, m, v, hkey, ht, hm, hv, hk⟩
  · rw [hk]
    exact h
  · rw [hk]
    refine ⟨fun id' v' hv' => ?_, h.agreements⟩
    by_cases hid : id' = id
    · subst hid
      rw [lookup_insert] at hv'
      cases hv'
      subst hv
      exact ⟨hroute t ht, hm, key, hkey, rfl⟩
    · rw [lookup_insert_ne hid] at hv'
      exact h.modules id' v' hv'

variable {t : PoolType}

lemma Coherent.setPoolRoute (h : Coherent st k) :
    Coherent (setPoolRoute st k id t).1 (setPoolRoute st k id t).2 := by
  refine ⟨fun id' v hv => ?_, h.agreements⟩
  -- the entry of the pool is gone, and the others have their routes
  by_cases hid : id' = id
  · subst hid
    have hnone : (k.cachedPoolModules.erase id').lookup id' = none := lookup_erase _ _
    rw [show (PoolManager.setPoolRoute st k id' t).2.cachedPoolModules
      = k.cachedPoolModules.erase id' from rfl, hnone] at hv
    cases hv
  · have hv' : k.cachedPoolModules.lookup id' = some v := by
      rw [← lookup_erase_ne hid]
      exact hv
    obtain ⟨hroute, hrest⟩ := h.modules id' v hv'
    refine ⟨?_, hrest⟩
    show (st.poolRoutes.insert id t).lookup id' = _
    rw [lookup_insert_ne hid, hroute]

/-- Creating a pool uses up an id, and writes the route if the id is not too large; the
caches have no say in it. -/
lemma createPool_cases (st : Store) (t : PoolType) :
    (∀ k, createPool st k t = (({ st with nextPoolId := st.nextPoolId + 1 }, k), none)) ∨
      ∀ k, createPool st k t
        = (setPoolRoute { st with nextPoolId := st.nextPoolId + 1 } k st.nextPoolId t,
            some st.nextPoolId) := by
  by_cases hid : 99999999999 ≤ st.nextPoolId
  · exact .inl fun k => if_pos hid
  · exact .inr fun k => if_neg hid

lemma Coherent.createPool (h : Coherent st k) :
    Coherent (createPool st k t).1.1 (createPool st k t).1.2 := by
  have h' : Coherent { st with nextPoolId := st.nextPoolId + 1 } k := ⟨h.modules, h.agreements⟩
  rcases createPool_cases st t with heq | heq
  · rw [heq]
    exact h'
  · rw [heq]
    exact h'.setPoolRoute

variable {a : TakerFeeShareAgreement}

lemma Coherent.setTakerFeeShareAgreement (h : Coherent st k) :
    Coherent (setTakerFeeShareAgreementForDenom st k a).1
      (setTakerFeeShareAgreementForDenom st k a).2 := by
  refine ⟨h.modules, fun d => ?_⟩
  show (k.cachedTakerFeeShareAgreementMap.insert a.denom a).lookup d
    = (st.agreements.entries.insert a.denom a).lookup d
  by_cases hd : d = a.denom
  · subst hd
    rw [lookup_insert, lookup_insert]
  · rw [lookup_insert_ne hd, lookup_insert_ne hd, h.agreements]

/-- What `createPool` does to the store and answers does not depend on the caches. -/
lemma createPool_congr (k k' : Caches) (t : PoolType) :
    (createPool st k t).1.1 = (createPool st k' t).1.1
      ∧ (createPool st k t).2 = (createPool st k' t).2 := by
  rcases createPool_cases st t with heq | heq
  · rw [heq k, heq k']
    exact ⟨rfl, rfl⟩
  · rw [heq k, heq k']
    exact ⟨rfl, rfl⟩

/-- **Operations keep the caches coherent, and answer the same with all coherent caches.** -/
lemma coherence (mode : ExecMode) : SideCache.Coherence (fun st k => step st k mode) Coherent where
  keeps st k o h := by
    cases o with
    | createPool t => exact h.createPool
    | getPoolModule id => exact h.lookup fun _ ht => ht
    | getPoolType id => exact h
    | setTakerFeeShareAgreement a => exact h.setTakerFeeShareAgreement
    | getTakerFeeShareAgreement d => exact h
  store st k k' o _ _ := by
    cases o with
    | createPool t => exact (createPool_congr k k' t).1
    | getPoolModule id => rfl
    | getPoolType id => rfl
    | setTakerFeeShareAgreement a => rfl
    | getTakerFeeShareAgreement d => rfl
  answer st k k' o h h' := by
    cases o with
    | createPool t => exact congrArg Answer.created (createPool_congr k k' t).2
    | getPoolModule id =>
      have heq := (@getPoolModule_eq st k mode h id).trans (getPoolModule_eq h' id).symm
      show Answer.module _ _ = Answer.module _ _
      rw [heq]
    | getPoolType id =>
      have heq := (getPoolType_eq h id).trans (getPoolType_eq h' id).symm
      show Answer.poolType _ _ = Answer.poolType _ _
      rw [heq]
    | setTakerFeeShareAgreement a => rfl
    | getTakerFeeShareAgreement d =>
      show Answer.agreement (k.cachedTakerFeeShareAgreementMap.lookup d)
        = Answer.agreement (k'.cachedTakerFeeShareAgreementMap.lookup d)
      rw [h.agreements, h'.agreements]

/-! ### Building the caches -/

/-- Reading values one by one into a map, each under the key that it carries, gives the map
that was read. -/
lemma lookup_foldl_insert {l : List (Sigma fun _ : Denom => TakerFeeShareAgreement)}
    (hnodup : l.NodupKeys) (hkeyed : ∀ e ∈ l, e.2.denom = e.1)
    (m : AList fun _ : Denom => TakerFeeShareAgreement) (d : Denom) :
    (l.foldl (fun m e => m.insert e.2.denom e.2) m).lookup d = (l.dlookup d).or (m.lookup d) := by
  induction l generalizing m with
  | nil => rfl
  | cons e l ih =>
    obtain ⟨hfresh, hnodup'⟩ := List.nodupKeys_cons.mp hnodup
    have he : e.2.denom = e.1 := hkeyed e (by simp)
    rw [List.foldl_cons, ih hnodup' fun e' he' => hkeyed e' (by simp [he']), he]
    by_cases hd : d = e.1
    · subst hd
      have hnone : l.dlookup e.1 = none := List.dlookup_eq_none.mpr hfresh
      rw [hnone, lookup_insert, List.dlookup_cons_eq]
      rfl
    · rw [lookup_insert_ne hd, List.dlookup_cons_ne _ _ hd]

lemma lookup_getAllTakerFeeShareAgreementsMap (d : Denom) :
    (getAllTakerFeeShareAgreementsMap st).lookup d = st.agreements.entries.lookup d := by
  have hkeyed : ∀ e ∈ st.agreements.entries.entries, e.2.denom = e.1 := by
    intro e he
    refine st.agreements.keyed e.1 e.2 ?_
    exact List.mem_dlookup st.agreements.entries.nodupKeys he
  have := lookup_foldl_insert st.agreements.entries.nodupKeys hkeyed ∅ d
  rw [lookup_empty, Option.or_none] at this
  exact this

lemma rebuilt_coherent (st : Store) : Coherent st (rebuilt st) where
  modules _ _ h := by cases h
  agreements := lookup_getAllTakerFeeShareAgreementsMap

lemma Coherent.beginBlock (h : Coherent st k) : Coherent st (beginBlock st k) where
  modules := h.modules
  agreements := lookup_getAllTakerFeeShareAgreementsMap

/-! ### Rolling back -/

/-- A transaction looks up a pool that it created itself; `first` is the next id when it
begins, and `next` the next id now. -/
def looksUpOwnPool (first : ℕ) : ℕ → List Op → Bool
  | _, [] => false
  | next, .createPool _ :: ops => looksUpOwnPool first (next + 1) ops
  | next, .getPoolModule id :: ops => (first ≤ id && id < next) || looksUpOwnPool first next ops
  | next, .getPoolType _ :: ops => looksUpOwnPool first next ops
  | next, .setTakerFeeShareAgreement _ :: ops => looksUpOwnPool first next ops
  | next, .getTakerFeeShareAgreement _ :: ops => looksUpOwnPool first next ops

/-- An event whose writes to the caches are committed, or which writes nothing to them that
the store does not have: it sets only agreements that are there already, and does not cache
the modules of pools that it creates. -/
def LeavesNoTrace (s : Store × Caches) : Event → Prop
  | .beginBlock => True
  | .tx t => t.committed = true ∧ t.mode = .finalize ∨
      (∀ a, .setTakerFeeShareAgreement a ∈ t.ops →
          s.1.agreements.entries.lookup a.denom = some a)
        ∧ (t.mode = .simulate ∨ looksUpOwnPool s.1.nextPoolId s.1.nextPoolId t.ops = false)

variable {w : Store}

lemma Coherent.forget (h : Coherent st k) (id : ℕ) :
    Coherent st { k with cachedPoolModules := k.cachedPoolModules.erase id } := by
  refine ⟨fun id' v hv => h.modules id' v ?_, h.agreements⟩
  by_cases hid : id' = id
  · subst hid
    have hnone : (k.cachedPoolModules.erase id').lookup id' = none := lookup_erase _ _
    cases hnone.symm.trans hv
  · rw [← lookup_erase_ne hid]
    exact hv

lemma Coherent.repeatAgreement (h : Coherent st k)
    (ha : st.agreements.entries.lookup a.denom = some a) :
    Coherent st { k with cachedTakerFeeShareAgreementMap :=
      k.cachedTakerFeeShareAgreementMap.insert a.denom a } := by
  refine ⟨h.modules, fun d => ?_⟩
  show (k.cachedTakerFeeShareAgreementMap.insert a.denom a).lookup d = _
  by_cases hd : d = a.denom
  · subst hd
    rw [lookup_insert, ha]
  · rw [lookup_insert_ne hd, h.agreements]

/-- **What a transaction without traces does to the caches agrees with the store that it
began with.**  `w` is its own view of the store, which has more routes: those of the pools
that it created. -/
lemma Coherent.rolledBack {ops : List Op} (h : Coherent st k)
    (hnext : st.nextPoolId ≤ w.nextPoolId)
    (hroutes : ∀ id, id < st.nextPoolId ∨ w.nextPoolId ≤ id →
      w.poolRoutes.lookup id = st.poolRoutes.lookup id)
    (hset : ∀ a, .setTakerFeeShareAgreement a ∈ ops → st.agreements.entries.lookup a.denom = some a)
    (hown : mode = .simulate ∨ looksUpOwnPool st.nextPoolId w.nextPoolId ops = false) :
    Coherent st (SideCache.exec (fun st k => step st k mode) w k ops).1.2 := by
  induction ops generalizing w k with
  | nil => exact h
  | cons o ops ih =>
    have hset' : ∀ a, .setTakerFeeShareAgreement a ∈ ops →
        st.agreements.entries.lookup a.denom = some a :=
      fun a ha => hset a (List.mem_cons_of_mem _ ha)
    cases o with
    | createPool t =>
      show Coherent st (SideCache.exec _ (PoolManager.createPool w k t).1.1
        (PoolManager.createPool w k t).1.2 ops).1.2
      have hnext' : st.nextPoolId ≤ w.nextPoolId + 1 := Nat.le_succ_of_le hnext
      have hroutes' : ∀ id, id < st.nextPoolId ∨ w.nextPoolId + 1 ≤ id →
          w.poolRoutes.lookup id = st.poolRoutes.lookup id :=
        fun id hid => hroutes id (hid.imp_right Nat.le_of_succ_le)
      rcases createPool_cases w t with heq | heq
      · rw [heq]
        exact ih h hnext' hroutes' hset' hown
      · rw [heq]
        refine ih (h.forget _) hnext' (fun id hid => ?_) hset' hown
        show (w.poolRoutes.insert w.nextPoolId t).lookup id = _
        -- the new route is one of those that do not count
        have hid' : id < st.nextPoolId ∨ w.nextPoolId + 1 ≤ id := hid
        have hne : id ≠ w.nextPoolId := by omega
        rw [lookup_insert_ne hne]
        exact hroutes' id hid'
    | getPoolModule id =>
      show Coherent st (SideCache.exec _ w (PoolManager.getPoolModule w k mode id).1 ops).1.2
      rcases hown with rfl | hown
      · rcases @getPoolModule_caches w k .simulate id with hk | ⟨hmode, -⟩
        · rw [hk]
          exact ih h hnext hroutes hset' (.inl rfl)
        · cases hmode
      · obtain ⟨hother, hown'⟩ := Bool.or_eq_false_iff.mp hown
        refine ih (h.lookup fun t ht => ?_) hnext hroutes hset' (.inr hown')
        rw [← hroutes id, ht]
        simp only [Bool.and_eq_false_iff, decide_eq_false_iff_not] at hother
        omega
    | getPoolType id => exact ih h hnext hroutes hset' hown
    | setTakerFeeShareAgreement a =>
      exact ih (h.repeatAgreement (hset a (by simp))) hnext hroutes hset' hown
    | getTakerFeeShareAgreement d => exact ih h hnext hroutes hset' hown

lemma Coherent.handle {s s' : Store × Caches} {e : Event} (h : Coherent s.1 s.2)
    (he : LeavesNoTrace s e) (hs : handle s e = .ok s') : Coherent s'.1 s'.2 := by
  cases e with
  | beginBlock =>
    cases hs
    exact h.beginBlock
  | tx t =>
    cases hs
    refine (coherence t.mode).deliver h fun hback => ?_
    rcases he with ⟨hcommitted, hmode⟩ | ⟨hset, hown⟩
    · rw [hcommitted, hmode] at hback
      cases hback
    · exact h.rolledBack le_rfl (fun _ _ => rfl) hset hown

/-- **The caches are transparent** in every run over events that leave no trace: whatever is
executed next is answered, and charged for, as with caches that were just built from the
committed store. -/
theorem caches_transparent (st : Store) (es : List Event)
    (hes : Run.Along handle LeavesNoTrace (st, rebuilt st) es) (mode : ExecMode) (ops : List Op) :
    answers (Run.run handle (st, rebuilt st) es) mode ops
      = answers ((Run.run handle (st, rebuilt st) es).1,
          rebuilt (Run.run handle (st, rebuilt st) es).1) mode ops := by
  have hcoherent : Coherent (Run.run handle (st, rebuilt st) es).1
      (Run.run handle (st, rebuilt st) es).2 := by
    apply Run.run_invariant (I := fun s : Store × Caches => Coherent s.1 s.2) _ _ hes
    · exact rebuilt_coherent st
    · intro s e s' hs he h
      exact hs.handle he h
  exact (coherence mode).exec_same hcoherent (rebuilt_coherent _)

def emptyStore : Store := ⟨1, ∅, .empty⟩

/-- A tenth of the taker fees of `foo`. -/
def fooAgreement : TakerFeeShareAgreement := ⟨ascii "foo", ⟨10 ^ 17⟩, ascii "dex1alice"⟩

/-- A pool that was created and looked up by a transaction that failed is still there for
`GetPoolModule` and `GetPoolType`, and so is an agreement that such a transaction set.  With
new caches they are not. -/
theorem rolled_back_writes_stay :
    (answers (Run.run handle (emptyStore, rebuilt emptyStore)
          [.tx ⟨.finalize, [.createPool .balancer, .getPoolModule 1], false⟩])
        .finalize [.getPoolModule 1, .getPoolType 1]
      = [.module (.ok .gamm) (readGas (moduleRouteKey 1) []),
          .poolType (.ok .balancer) (readGas (moduleRouteKey 1) [])])
    ∧ (answers (Run.run handle (emptyStore, rebuilt emptyStore)
          [.tx ⟨.finalize, [.setTakerFeeShareAgreement fooAgreement], false⟩])
        .finalize [.getTakerFeeShareAgreement (ascii "foo")] = [.agreement (some fooAgreement)])
    ∧ answers (emptyStore, rebuilt emptyStore) .finalize
        [.getPoolModule 1, .getPoolType 1, .getTakerFeeShareAgreement (ascii "foo")]
      = [.module (.error (.failedToFindRoute 1)) (readGas (moduleRouteKey 1) []),
          .poolType (.error (.failedToFindRoute 1)) (readGas (moduleRouteKey 1) []),
          .agreement none] := by
  decide +kernel

/-- A transaction that creates and looks up a pool is committed; another one that looks up
the pool and creates a second one is rolled back. -/
def committedPool : List Event :=
  [.tx ⟨.finalize, [.createPool .stableswap, .getPoolModule 1,
      .setTakerFeeShareAgreement fooAgreement], true⟩,
    .beginBlock, .tx ⟨.finalize, [.getPoolModule 1, .createPool .balancer], false⟩]

theorem caches_transparent_committedPool :
    answers (Run.run handle (emptyStore, rebuilt emptyStore) committedPool) .finalize
        [.getPoolModule 1, .getPoolModule 2]
      = [.module (.ok .gamm) (readGas (moduleRouteKey 1) [8, 1]),
          .module (.error (.failedToFindRoute 2)) (readGas (moduleRouteKey 2) [])]
    ∧ answers (Run.run handle (emptyStore, rebuilt emptyStore) committedPool) .finalize
        [.getPoolModule 1, .getPoolModule 2]
      = answers ((Run.run handle (emptyStore, rebuilt emptyStore) committedPool).1,
          rebuilt (Run.run handle (emptyStore, rebuilt emptyStore) committedPool).1) .finalize
        [.getPoolModule 1, .getPoolModule 2] := by
  refine ⟨by decide +kernel, caches_transparent emptyStore committedPool ?_ _ _⟩
  refine ⟨Or.inl ⟨rfl, rfl⟩, trivial, Or.inr ⟨?_, Or.inr ?_⟩, trivial⟩
  · intro a ha
    simp at ha
  · decide +kernel

end MaanyDex.PoolManager
