/-
Shares of taker fees: `x/poolmanager/store.go` and `processShareAgreements` of `taker_fee.go`.

A denomination may have an agreement to get a percentage of taker fees.  What it got is kept
in accumulators, one for every denomination in which fees are charged.  The share denomination
of an alloyed pool stands for the assets of the pool: each of them has its percentage in the
proportion of what it is of the liquidity, after normalisation.

The queries to the contract of the pool and the other keepers are fields of `Contracts`.
-/
import MaanyDex.PoolManager.Caches
import MaanyDex.Lib.BigIntText
import MaanyDex.Lib.KVStore
import MaanyDex.Lib.Protobuf

namespace MaanyDex.PoolManager

open Gamm (PoolType)

/-! ### Keys -/

def keySeparator : Bytes := ascii "|"

def takerFeeSkimAccrualPrefix : Bytes := [10]

def keyRegisteredAlloyPool : Bytes := [12]

def keyTakerFeeShareDenomAccrualForTakerFeeChargedDenom
    (takerFeeShareDenom takerFeeChargedDenom : Denom) : Bytes :=
  takerFeeSkimAccrualPrefix ++ keySeparator ++ takerFeeShareDenom ++ keySeparator
    ++ takerFeeChargedDenom

def keyTakerFeeShareDenomAccrualForAllDenoms (takerFeeShareDenom : Denom) : Bytes :=
  takerFeeSkimAccrualPrefix ++ keySeparator ++ takerFeeShareDenom

def formatRegisteredAlloyPoolKey (poolId : ℕ) (alloyedDenom : Denom) : Bytes :=
  keyRegisteredAlloyPool ++ keySeparator ++ Decimal.formatUint poolId ++ keySeparator
    ++ alloyedDenom

def formatRegisteredAlloyPoolKeyPoolIdOnly (poolId : ℕ) : Bytes :=
  keyRegisteredAlloyPool ++ keySeparator ++ Decimal.formatUint poolId

/-! ### Accumulators -/

/-- `proto.Marshal` of an `IntProto`. -/
def marshalIntProto (i : ℤ) : Bytes := Protobuf.encodeBytes 1 (BigIntText.marshalText i)

/-- `proto.Unmarshal` of an `IntProto`. -/
def unmarshalIntProto (bz : Bytes) : Result ℤ :=
  match (Protobuf.decode bz).bind (Protobuf.field? 1) with
  | some (.bytes text) =>
    match BigIntText.unmarshalText text with
    | some i => do
        ensure (i.natAbs < 2 ^ 256) (.err "integer out of range")
        .ok i
    | none => .error (.errf "math/big: cannot unmarshal %q into a *big.Int" text)
  | _ => .error (.err "proto: IntProto")

variable (store : KVStore) (takerFeeShareDenom takerFeeChargedDenom : Denom)

/-- `GetTakerFeeShareDenomsToAccruedValue`, `none` for `NoAccruedValueError`. -/
def getTakerFeeShareDenomsToAccruedValue : Result (Option ℤ) :=
  match store.get (keyTakerFeeShareDenomAccrualForTakerFeeChargedDenom takerFeeShareDenom
    takerFeeChargedDenom) with
  | none => .ok none
  | some bz => (unmarshalIntProto bz).map some

def setTakerFeeShareDenomsToAccruedValue (accruedValue : ℤ) : KVStore :=
  store.set (keyTakerFeeShareDenomAccrualForTakerFeeChargedDenom takerFeeShareDenom
    takerFeeChargedDenom) (marshalIntProto accruedValue)

def increaseTakerFeeShareDenomsToAccruedValue (additiveValue : ℤ) : Result KVStore := do
  let accruedValueBefore ←
    getTakerFeeShareDenomsToAccruedValue store takerFeeShareDenom takerFeeChargedDenom
  let accruedValueAfter ← checkedInt (accruedValueBefore.getD 0 + additiveValue)
  .ok (setTakerFeeShareDenomsToAccruedValue store takerFeeShareDenom takerFeeChargedDenom
    accruedValueAfter)

/-- Delete what an iterator over the prefix shows. -/
def deleteAll (start : Bytes) : KVStore :=
  (store.iterate start).foldl (fun store e => store.delete e.1) store

def deleteAllTakerFeeShareAccumulatorsForTakerFeeShareDenom
    (takerFeeShareDenom : Denom) : KVStore :=
  deleteAll store (keyTakerFeeShareDenomAccrualForAllDenoms takerFeeShareDenom)

/-! ### Alloyed pools -/

structure AlloyContractTakerFeeShareState where
  contractAddress : Bytes
  takerFeeShareAgreements : List TakerFeeShareAgreement

/-- What the keeper asks others for. -/
structure Contracts where
  /-- `GetPool`: the type and the address of a pool. -/
  getPool : ℕ → Result (PoolType × Bytes)
  /-- `AccAddress.String`. -/
  accAddressString : Bytes → Bytes
  /-- The query `get_share_denom`. -/
  queryShareDenom : Bytes → Result Denom
  /-- `queryTotalPoolLiquidity`. -/
  queryTotalPoolLiquidity : Bytes → Result (List Coin)
  /-- `queryAssetConfigs`: denominations with their normalisation factors. -/
  queryAssetConfigs : Bytes → Result (List (Denom × Bytes))
  /-- `osmomath.NewDecFromStr`. -/
  newDecFromStr : Bytes → Result Dec
  /-- `proto.Marshal` of the state of an alloyed pool. -/
  marshal : AlloyContractTakerFeeShareState → Bytes

/-- The store and the maps in memory that concern alloyed pools. -/
structure ShareState where
  store : KVStore
  cachedTakerFeeShareAgreementMap : AList fun _ : Denom => TakerFeeShareAgreement
  cachedRegisteredAlloyPoolByAlloyDenomMap : AList fun _ : Denom => AlloyContractTakerFeeShareState

variable (math : Math) (k : Contracts)

/-- A part of the name of a share denomination. -/
def checkPart (format : String) (expected actual : Bytes) : Result Unit :=
  ensure (actual = expected) (.errf format actual)

def queryAndCheckAlloyedDenom (contractAddr : Bytes) : Result Denom := do
  let alloyedDenom ← k.queryShareDenom contractAddr
  match alloyedDenom.splitOn 47 with
  | [p₀, p₁, p₂, _] => do
      checkPart "part 0 of alloyedDenom should be 'factory', but got '%s'" (ascii "factory") p₀
      checkPart "part 1 of alloyedDenom should be the contract, but got '%s'"
        (k.accAddressString contractAddr) p₁
      checkPart "part 2 of alloyedDenom should be 'alloyed', but got '%s'" (ascii "alloyed") p₂
      .ok alloyedDenom
  | parts => .error (.errf "invalid format for alloyedDenom, expected 4 parts but got %d"
      (Decimal.formatUint parts.length))

def createNormalizationFactorsMap (assetConfigs : List (Denom × Bytes)) :
    Result (AList fun _ : Denom => Dec) :=
  assetConfigs.foldlM (fun m config => do
    let factor ← k.newDecFromStr config.2
    .ok (m.insert config.1 factor)) ∅

/-- An amount divided by the normalisation factor of its denomination; a decimal that is not in
the map is a nil pointer. -/
def normalizedAmount (normalizationFactors : AList fun _ : Denom => Dec) (coin : Coin) :
    Result Dec :=
  match normalizationFactors.lookup coin.denom with
  | none => .error (.panic "invalid memory address or nil pointer dereference")
  | some normalizationFactor => Dec.quo math (Dec.ofInt coin.amount) normalizationFactor

variable (agreements : AList fun _ : Denom => TakerFeeShareAgreement)

/-- The first loop of `calculateTakerFeeShareAgreements`: the total liquidity, and the assets that
have an agreement. -/
def totalAlloyedLiquidity
    (normalizationFactors : AList fun _ : Denom => Dec) (totalPoolLiquidity : List Coin) :
    Result (Dec × List (Coin × TakerFeeShareAgreement)) :=
  totalPoolLiquidity.foldlM (fun acc coin => do
    let amount ← normalizedAmount math normalizationFactors coin
    let total ← Dec.add math acc.1 amount
    match agreements.lookup coin.denom with
    | none => .ok (total, acc.2)
    | some agreement => .ok (total, acc.2 ++ [(coin, agreement)])) (Dec.zero, [])

def calculateTakerFeeShareAgreements
    (totalPoolLiquidity : List Coin) (normalizationFactors : AList fun _ : Denom => Dec) :
    Result (List TakerFeeShareAgreement) := do
  let (total, assetsWithShareAgreement) ←
    totalAlloyedLiquidity math agreements normalizationFactors totalPoolLiquidity
  ensure (!total.isZero) (.err "totalAlloyedLiquidity is zero")
  assetsWithShareAgreement.mapM fun asset => do
    let amount ← normalizedAmount math normalizationFactors asset.1
    let proportion ← Dec.quo math amount total
    let scaledSkim ← Dec.mul math proportion asset.2.skimPercent
    .ok ⟨asset.1.denom, scaledSkim, asset.2.skimAddress⟩

def snapshotTakerFeeShareAlloyComposition (contractAddr : Bytes) :
    Result (List TakerFeeShareAgreement) := do
  let totalPoolLiquidity ← k.queryTotalPoolLiquidity contractAddr
  let assetConfigs ← k.queryAssetConfigs contractAddr
  let normalizationFactors ← createNormalizationFactorsMap k assetConfigs
  calculateTakerFeeShareAgreements math agreements totalPoolLiquidity normalizationFactors

def setRegisteredAlloyedPool (s : ShareState) (poolId : ℕ) : Result ShareState := do
  let (poolType, contractAddr) ← k.getPool poolId
  ensure (poolType = .cosmWasm)
    (.errf "pool with id %d is not a CosmWasmPool" (Decimal.formatUint poolId))
  let alloyedDenom ← queryAndCheckAlloyedDenom k contractAddr
  let takerFeeShareAgreements ← snapshotTakerFeeShareAlloyComposition math k
    s.cachedTakerFeeShareAgreementMap contractAddr
  let registeredAlloyedPool : AlloyContractTakerFeeShareState :=
    ⟨k.accAddressString contractAddr, takerFeeShareAgreements⟩
  let bz := k.marshal registeredAlloyedPool
  -- a pool may have been registered with another denomination
  let store := deleteAll s.store (formatRegisteredAlloyPoolKeyPoolIdOnly poolId)
  .ok { s with
    store := store.set (formatRegisteredAlloyPoolKey poolId alloyedDenom) bz
    cachedRegisteredAlloyPoolByAlloyDenomMap :=
      s.cachedRegisteredAlloyPoolByAlloyDenomMap.insert alloyedDenom registeredAlloyedPool }

/-! ### Skimming -/

def validatePercentage (percentage : Dec) : Result Unit :=
  ensure (percentage ≤ Dec.one && Dec.zero ≤ percentage)
    (.err "invalid taker fee share percentage: %s, must be between 0 and 1")

/-- The percentages of agreements, added up. -/
def percentageOfTakerFeeToSkim (shareAgreements : List TakerFeeShareAgreement) : Result Dec :=
  shareAgreements.foldlM (fun acc agreement => Dec.add math acc agreement.skimPercent) Dec.zero

def amountToSkim (takerFeeCoin : Coin) (agreement : TakerFeeShareAgreement) : Result ℤ := do
  let amount ← Dec.mul math (Dec.ofInt takerFeeCoin.amount) agreement.skimPercent
  amount.truncateInt

/-- The inner loop of `processShareAgreements`. -/
def skimCoin (store : KVStore) (shareAgreements : List TakerFeeShareAgreement)
    (takerFeeCoin : Coin) : Result KVStore :=
  shareAgreements.foldlM (fun store agreement => do
    let amount ← amountToSkim math takerFeeCoin agreement
    increaseTakerFeeShareDenomsToAccruedValue store agreement.denom takerFeeCoin.denom amount) store

def processShareAgreements (store : KVStore) (shareAgreements : List TakerFeeShareAgreement)
    (totalTakerFees : Coins) : Result KVStore :=
  if shareAgreements = [] then .ok store
  else do
    let percentage ← percentageOfTakerFeeToSkim math shareAgreements
    validatePercentage percentage
    totalTakerFees.foldlM (fun store coin => skimCoin math store shareAgreements coin) store

end MaanyDex.PoolManager
