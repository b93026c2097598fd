/-
Weighted pools: what they are, how they are created, and how their weights change
(`pool-models/balancer`).

A pool is well formed (`Wf`) when its assets have different denominations, positive
balances and positive weights, when the recorded total weight is the sum of the weights,
and when its spread factor lies in `[0, 1)`.

Times and durations are nanoseconds.
-/
import MaanyDex.Gamm.Cfmm

namespace MaanyDex.Gamm.Balancer

open Run

/-! ### Pools -/

structure PoolAsset where
  token : Coin
  weight : ℤ
  deriving DecidableEq

structure SmoothWeightChangeParams where
  startTime : ℤ
  duration : ℤ
  initialPoolWeights : List PoolAsset
  targetPoolWeights : List PoolAsset
  deriving DecidableEq

structure PoolParams where
  swapFee : Dec
  exitFee : Dec
  smoothWeightChangeParams : Option SmoothWeightChangeParams
  deriving DecidableEq

/-- `Pool`.  The address is set once, from the id. -/
structure Pool where
  address : Address
  id : ℕ
  address_eq : address = .pool id
  poolParams : PoolParams
  futurePoolGovernor : Bytes
  totalShares : Coin
  poolAssets : List PoolAsset
  totalWeight : ℤ
  deriving DecidableEq

/-- The balances that a list of assets records. -/
def tokens (assets : List PoolAsset) : Coins := assets.map (·.token)

structure Pool.Wf (p : Pool) : Prop where
  nodup : ((tokens p.poolAssets).map (·.denom)).Nodup
  amounts : ∀ a ∈ p.poolAssets, 0 < a.token.amount
  weights : ∀ a ∈ p.poolAssets, 0 < a.weight
  totalWeight : p.totalWeight = (p.poolAssets.map (·.weight)).sum
  swapFee_nonneg : 0 ≤ p.poolParams.swapFee.raw
  swapFee_lt : p.poolParams.swapFee.raw < Dec.unit

variable (env : Env)

/-! ### Validation -/

def guaranteedWeightPrecision : ℤ := 2 ^ 30

def maxUserSpecifiedWeight : ℤ := 2 ^ 20

def PoolAsset.validateWeight (a : PoolAsset) : Result Unit :=
  ensure (0 < a.weight) (.err "a token's weight in the pool must be greater than 0")

def validateUserSpecifiedWeight (weight : ℤ) : Result Unit := do
  ensure (0 < weight) (.err "token weight should be greater than 0")
  ensure (weight < maxUserSpecifiedWeight)
    (.err "user specified token weight should be less than 2^20")

def sortPoolAssetsByDenom (assets : List PoolAsset) : List PoolAsset :=
  assets.insertionSort fun a a' => compare a.token.denom a'.token.denom ≠ .gt

/-- The loop of `validateUserSpecifiedPoolAssets`, with the denominations seen so far. -/
def validateAssets (seen : List Denom) : List PoolAsset → Result Unit
  | [] => .ok ()
  | asset :: rest => do
      validateUserSpecifiedWeight asset.weight
      ensure (env.validDenom asset.token.denom && 0 < asset.token.amount) (.err "invalid coins")
      ensure (asset.token.denom ∉ seen) (wrapErr "pool asset already exists"
        "pool should have at least 2 assets, as they must be swapping between at least two assets")
      validateAssets (asset.token.denom :: seen) rest

def validateUserSpecifiedPoolAssets (assets : List PoolAsset) : Result Unit := do
  ensure (minNumOfAssetsInPool ≤ assets.length) errTooFewPoolAssets
  ensure (assets.length ≤ maxNumOfAssetsInPool) errTooManyPoolAssets
  validateAssets env [] assets

variable (params : SmoothWeightChangeParams)

/-- The part of `PoolParams.Validate` about smooth weight changes. -/
def SmoothWeightChangeParams.validate (poolWeights : List PoolAsset) : Result Unit := do
  let targetWeights := params.targetPoolWeights
  ensure (targetWeights.length = poolWeights.length)
    (.err "pool params' LBP doesn't have same number of params as underlying pool")
  targetWeights.forM fun v => validateUserSpecifiedWeight v.weight
  ensure ((sortPoolAssetsByDenom targetWeights).map (·.token.denom)
      = (sortPoolAssetsByDenom poolWeights).map (·.token.denom))
    (.err "pool params' LBP params has an invalid denomination")
  ensure (0 < params.duration)
    (.err "params.SmoothWeightChangeParams must have a positive duration")

def PoolParams.validate (params : PoolParams) (poolWeights : List PoolAsset) : Result Unit := do
  ensure (!params.exitFee.isNegative) (.err "exit fee is negative")
  ensure (params.exitFee < Dec.one) (.err "exit fee should be lesser than 1 (100%)")
  ensure (!params.swapFee.isNegative) (.err "spread factor is negative")
  ensure (params.swapFee < Dec.one) (.err "spread factor should be lesser than 1 (100%)")
  match params.smoothWeightChangeParams with
  | some smooth => smooth.validate poolWeights
  | none => .ok ()

/-! ### Creation -/

/-- The loop of `SetInitialPoolAssets`: check the assets and scale their weights. -/
def scaleAssets (seen : List Denom) : List PoolAsset → Result (List PoolAsset)
  | [] => .ok []
  | asset :: rest => do
      ensure (0 < asset.token.amount) (.err "can't add the zero or negative balance of token")
      asset.validateWeight
      ensure (asset.token.denom ∉ seen) (.err "same PoolAsset already exists")
      let weight ← checkedInt (asset.weight * guaranteedWeightPrecision)
      let rest ← scaleAssets (asset.token.denom :: seen) rest
      .ok ({ asset with weight := weight } :: rest)

/-- `SetInitialPoolAssets`, on a pool without assets. -/
def setInitialPoolAssets (p : Pool) (assets : List PoolAsset) : Result Pool := do
  let scaled ← scaleAssets [] assets
  let totalWeight ← checkedSum (·.weight) scaled
  .ok { p with poolAssets := sortPoolAssetsByDenom scaled, totalWeight := totalWeight }

/-- `GuaranteedWeightPrecision` times a target weight of the user. -/
def scaleTarget (v : PoolAsset) : Result PoolAsset := do
  validateUserSpecifiedWeight v.weight
  let weight ← checkedInt (v.weight * guaranteedWeightPrecision)
  .ok { v with weight := weight }

/-- The part of `setInitialPoolParams` about smooth weight changes. -/
def SmoothWeightChangeParams.init
    (sortedAssets : List PoolAsset) (curBlockTime : ℤ) :
    Result SmoothWeightChangeParams := do
  let targets ← (sortPoolAssetsByDenom params.targetPoolWeights).mapM scaleTarget
  .ok {
    -- `Unix` is in whole seconds, rounded down
    startTime := if params.startTime / 10 ^ 9 ≤ 0 then curBlockTime / 10 ^ 9 * 10 ^ 9
      else params.startTime
    duration := params.duration
    initialPoolWeights := sortedAssets.map fun v => ⟨⟨v.token.denom, 0⟩, v.weight⟩
    targetPoolWeights := targets }

def setInitialPoolParams (p : Pool) (params : PoolParams) (sortedAssets : List PoolAsset)
    (curBlockTime : ℤ) : Result Pool :=
  match params.smoothWeightChangeParams with
  | none => .ok { p with poolParams := params }
  | some smooth => do
      let smooth ← smooth.init sortedAssets curBlockTime
      .ok { p with poolParams := { params with smoothWeightChangeParams := some smooth } }

def newBalancerPool (poolId : ℕ) (params : PoolParams) (assets : List PoolAsset)
    (futureGovernor : Bytes) (blockTime : ℤ) : Result Pool := do
  let totalShares ← newCoin env.toSdk (getPoolShareDenom poolId) initPoolSharesSupply
  let p ← setInitialPoolAssets {
    address := newPoolAddress poolId
    id := poolId
    address_eq := newPoolAddress_eq poolId
    poolParams := ⟨Dec.zero, Dec.zero, none⟩
    totalWeight := 0
    totalShares := totalShares
    poolAssets := []
    futurePoolGovernor := futureGovernor } assets
  params.validate p.poolAssets
  setInitialPoolParams p params p.poolAssets blockTime

/-! ### Changing weights -/

/-- `subPoolAssetWeights` and `addPoolAssetWeights`: combine the weights of two lists of
assets with the same denominations. -/
def zipWeights (op : ℤ → ℤ → ℤ) : List PoolAsset → List PoolAsset → Result (List PoolAsset)
  | [], [] => .ok []
  | a :: as, b :: bs => do
      ensure (a.token.denom = b.token.denom) (.panic "called with invalid input")
      let weight ← checkedInt (op a.weight b.weight)
      let rest ← zipWeights op as bs
      .ok (⟨a.token, weight⟩ :: rest)
  | _, _ => .error (.panic "called with invalid input, len(base) != len(other)")

def subPoolAssetWeights : List PoolAsset → List PoolAsset → Result (List PoolAsset) :=
  zipWeights (· - ·)

def addPoolAssetWeights : List PoolAsset → List PoolAsset → Result (List PoolAsset) :=
  zipWeights (· + ·)

def poolAssetsMulDec (base : List PoolAsset) (d : Dec) : Result (List PoolAsset) :=
  base.mapM fun asset => do
    let product ← Dec.mulInt env.math d asset.weight
    let newWeight ← product.roundInt
    .ok ⟨asset.token, newWeight⟩

/-- The loop of `updateAllWeights`. -/
def setWeights : List PoolAsset → List PoolAsset → Result (List PoolAsset)
  | [], [] => .ok []
  | asset :: rest, new :: news => do
      ensure (asset.token.denom = new.token.denom)
        (.panic "updateAllWeights called with invalid input")
      ensure (0 < new.weight) (.panic "updateAllWeights: Tried to set an invalid weight")
      let rest ← setWeights rest news
      .ok ({ asset with weight := new.weight } :: rest)
  | _, _ => .error (.panic
      "updateAllWeights called with invalid input, len(newWeights) != len(existingWeights)")

def updateAllWeights (p : Pool) (newWeights : List PoolAsset) : Result Pool := do
  let assets ← setWeights p.poolAssets newWeights
  let totalWeight ← checkedSum (·.weight) assets
  .ok { p with poolAssets := assets, totalWeight := totalWeight }

/-- `Time.Sub`, which saturates. -/
def timeSub (t u : ℤ) : ℤ := max (-2 ^ 63) (min (2 ^ 63 - 1) (t - u))

def milliseconds (d : ℤ) : ℤ := d.tdiv (10 ^ 6)

/-- The weights between start and end of a smooth change: the initial ones, plus the part
of the difference to the targets that corresponds to the time elapsed. -/
def interpolatedWeights (percentDurationElapsed : Dec) : Result (List PoolAsset) :=
  if Dec.one ≤ percentDurationElapsed then .ok params.targetPoolWeights
  else do
    let totalWeightsDiff ← subPoolAssetWeights params.targetPoolWeights params.initialPoolWeights
    let scaledDiff ← poolAssetsMulDec env totalWeightsDiff percentDurationElapsed
    addPoolAssetWeights params.initialPoolWeights scaledDiff

def pokePool (p : Pool) (blockTime : ℤ) : Result Pool :=
  match p.poolParams.smoothWeightChangeParams with
  | none => .ok p
  | some params =>
    if blockTime ≤ params.startTime then .ok p
    else if params.startTime + params.duration < blockTime then do
      let p ← updateAllWeights p params.targetPoolWeights
      .ok { p with poolParams := { p.poolParams with smoothWeightChangeParams := none } }
    else do
      let percentDurationElapsed ←
        Dec.quoInt (Dec.ofInt (milliseconds (timeSub blockTime params.startTime)))
          (milliseconds params.duration)
      let weights ← interpolatedWeights env params percentDurationElapsed
      updateAllWeights p weights

/-! ### Poking changes weights only -/

variable {env} {p p' : Pool}

/-- `p'` is `p` with other weights. -/
structure Reweighted (p p' : Pool) : Prop where
  id : p'.id = p.id
  totalShares : p'.totalShares = p.totalShares
  tokens : tokens p'.poolAssets = tokens p.poolAssets
  swapFee : p'.poolParams.swapFee = p.poolParams.swapFee
  exitFee : p'.poolParams.exitFee = p.poolParams.exitFee

variable {assets news assets' : List PoolAsset}

lemma setWeights_ok (h : setWeights assets news = .ok assets') :
    tokens assets' = tokens assets ∧ ∀ a ∈ assets', 0 < a.weight := by
  induction assets generalizing news assets' with
  | nil =>
    rcases news with - | ⟨new, news⟩
    · cases h
      simp [tokens]
    · cases h
  | cons asset rest ih =>
    rcases news with - | ⟨new, news⟩
    · cases h
    · obtain ⟨_, _, rest', -, hpos, hrest, h⟩ := bind3_ok h
      cases h
      obtain ⟨htokens, hweights⟩ := ih hrest
      refine ⟨congrArg (asset.token :: ·) htokens, ?_⟩
      intro a ha
      rcases List.mem_cons.mp ha with rfl | ha
      · exact of_decide_eq_true (ensure_ok hpos)
      · exact hweights a ha

lemma amounts_of_tokens_eq (h : tokens assets' = tokens assets)
    (hpos : ∀ a ∈ assets, 0 < a.token.amount) : ∀ a ∈ assets', 0 < a.token.amount := by
  intro a ha
  have hmem : a.token ∈ tokens assets := h ▸ List.mem_map_of_mem ha
  obtain ⟨b, hb, hba⟩ := List.mem_map.mp hmem
  rw [← hba]
  exact hpos b hb

lemma updateAllWeights_ok (hp : p.Wf)
    (h : updateAllWeights p news = .ok p') : Reweighted p p' ∧ p'.Wf := by
  obtain ⟨assets, totalWeight, hassets, htotal, h⟩ := bind2_ok h
  cases h
  obtain ⟨htokens, hweights⟩ := setWeights_ok hassets
  refine ⟨⟨rfl, rfl, htokens, rfl, rfl⟩, ?_⟩
  exact {
    nodup := htokens ▸ hp.nodup
    amounts := amounts_of_tokens_eq htokens hp.amounts
    weights := hweights
    totalWeight := checkedSum_ok htotal
    swapFee_nonneg := hp.swapFee_nonneg
    swapFee_lt := hp.swapFee_lt }

variable {blockTime : ℤ}

/-- **Poking changes weights only.** -/
lemma pokePool_ok (hp : p.Wf) (h : pokePool env p blockTime = .ok p') :
    Reweighted p p' ∧ p'.Wf := by
  unfold pokePool at h
  split at h
  · cases h
    exact ⟨⟨rfl, rfl, rfl, rfl, rfl⟩, hp⟩
  · split at h
    · cases h
      exact ⟨⟨rfl, rfl, rfl, rfl, rfl⟩, hp⟩
    · split at h
      · -- the change is over: its parameters are dropped as well
        obtain ⟨p₁, hp₁, h⟩ := bind_ok h
        cases h
        obtain ⟨hsame, hwf⟩ := updateAllWeights_ok hp hp₁
        exact ⟨⟨hsame.id, hsame.totalShares, hsame.tokens, hsame.swapFee,
          hsame.exitFee⟩, ⟨hwf.nodup, hwf.amounts, hwf.weights, hwf.totalWeight,
          hwf.swapFee_nonneg, hwf.swapFee_lt⟩⟩
      · obtain ⟨_, weights, -, -, h⟩ := bind2_ok h
        exact updateAllWeights_ok hp h

/-- Poking does not change who a pool is, well formed or not. -/
lemma pokePool_id (h : pokePool env p blockTime = .ok p') : p'.id = p.id := by
  have key : ∀ {q news}, updateAllWeights p news = .ok q → q.id = p.id := fun h => by
    obtain ⟨_, _, -, -, h⟩ := bind2_ok h
    cases h
    rfl
  unfold pokePool at h
  split at h
  · cases h
    rfl
  · split at h
    · cases h
      rfl
    · split at h
      · obtain ⟨q, hq, h⟩ := bind_ok h
        cases h
        have hid := key hq
        exact hid
      · obtain ⟨_, _, -, -, h⟩ := bind2_ok h
        exact key h

/-! ### Pools are created well formed -/

lemma scaleAssets_ok {seen : List Denom} {scaled : List PoolAsset}
    (h : scaleAssets seen assets = .ok scaled) :
    tokens scaled = tokens assets ∧ (∀ a ∈ scaled, 0 < a.token.amount ∧ 0 < a.weight)
      ∧ ((tokens scaled).map (·.denom)).Nodup ∧ ∀ d ∈ (tokens scaled).map (·.denom), d ∉ seen := by
  induction assets generalizing seen scaled with
  | nil =>
    cases h
    simp [tokens]
  | cons asset rest ih =>
    obtain ⟨_, _, _, hamount, hweight, hseen, h⟩ := bind3_ok h
    obtain ⟨weight, rest', hscale, hrest, h⟩ := bind2_ok h
    cases h
    obtain ⟨htokens, hpos, hnodup, hfresh⟩ := ih hrest
    have hweight' : 0 < asset.weight := of_decide_eq_true (ensure_ok hweight)
    refine ⟨congrArg (asset.token :: ·) htokens, ?_, ?_, ?_⟩
    · intro a ha
      rcases List.mem_cons.mp ha with rfl | ha
      · refine ⟨of_decide_eq_true (ensure_ok hamount), ?_⟩
        show 0 < weight
        rw [checkedInt_ok hscale, guaranteedWeightPrecision]
        positivity
      · exact hpos a ha
    · -- the denomination of this asset was added to those seen
      refine List.nodup_cons.mpr ⟨fun hmem => ?_, hnodup⟩
      exact hfresh _ hmem (by simp)
    · intro d hd
      rcases List.mem_cons.mp hd with rfl | hd
      · exact of_decide_eq_true (ensure_ok hseen)
      · exact fun hin => hfresh d hd (by simp [hin])

structure Created (poolId : ℕ) (params : PoolParams) (assets : List PoolAsset) (p : Pool) :
    Prop where
  id : p.id = poolId
  totalShares : p.totalShares = ⟨getPoolShareDenom poolId, initPoolSharesSupply⟩
  tokens : (tokens p.poolAssets).Perm (tokens assets)
  exitFee : p.poolParams.exitFee = params.exitFee
  wf : p.Wf

variable {params : PoolParams}

lemma PoolParams.validate_ok {weights : List PoolAsset} {u : Unit}
    (h : params.validate weights = .ok u) :
    0 ≤ params.swapFee.raw ∧ params.swapFee.raw < Dec.unit := by
  obtain ⟨_, _, -, -, h⟩ := bind2_ok h
  obtain ⟨_, _, hneg, hone, -⟩ := bind2_ok h
  have hneg' := ensure_ok hneg
  simp only [Dec.isNegative, Bool.not_eq_true', decide_eq_false_iff_not, not_lt] at hneg'
  exact ⟨hneg', of_decide_eq_true (ensure_ok hone)⟩

lemma setInitialPoolAssets_ok (h : setInitialPoolAssets p assets = .ok p') :
    ∃ sorted totalWeight, p' = { p with poolAssets := sorted, totalWeight := totalWeight }
      ∧ (tokens sorted).Perm (tokens assets) ∧ ((tokens sorted).map (·.denom)).Nodup
      ∧ (∀ a ∈ sorted, 0 < a.token.amount ∧ 0 < a.weight)
      ∧ totalWeight = (sorted.map (·.weight)).sum := by
  obtain ⟨scaled, totalWeight, hscaled, htotal, h⟩ := bind2_ok h
  cases h
  obtain ⟨htokens, hpos, hnodup, -⟩ := scaleAssets_ok hscaled
  have hperm : (sortPoolAssetsByDenom scaled).Perm scaled := List.perm_insertionSort _ _
  refine ⟨_, _, rfl, ?_, ?_, ?_, ?_⟩
  · rw [← htokens]
    exact hperm.map _
  · exact ((hperm.map _).map _).nodup_iff.mpr hnodup
  · exact fun a ha => hpos a (hperm.mem_iff.mp ha)
  · rw [checkedSum_ok htotal]
    exact (hperm.map _).sum_eq.symm

/-- **Pools are created well formed**, with the balances of the message and the initial
supply of shares. -/
lemma newBalancerPool_ok {poolId : ℕ} {governor : Bytes}
    (h : newBalancerPool env poolId params assets governor blockTime = .ok p) :
    Created poolId params assets p := by
  obtain ⟨shares, p₁, _, hshares, hp₁, hvalid, h⟩ := bind3_ok h
  obtain ⟨rfl, -, -⟩ := newCoin_ok hshares
  obtain ⟨hfee, hfee'⟩ := PoolParams.validate_ok hvalid
  obtain ⟨sorted, totalWeight, rfl, hperm, hnodup, hpos, htotal⟩ := setInitialPoolAssets_ok hp₁
  -- the parameters are set as they were given, up to the schedule of weights
  have hset : ∃ smooth, p = {
      address := .pool poolId
      id := poolId
      address_eq := rfl
      poolParams := { params with smoothWeightChangeParams := smooth }
      totalWeight := totalWeight
      totalShares := ⟨getPoolShareDenom poolId, initPoolSharesSupply⟩
      poolAssets := sorted
      futurePoolGovernor := governor } := by
    rcases hs : params.smoothWeightChangeParams with - | smooth
    · simp only [setInitialPoolParams, hs] at h
      cases h
      exact ⟨none, by rw [← hs]⟩
    · simp only [setInitialPoolParams, hs] at h
      obtain ⟨smooth', -, h⟩ := bind_ok h
      cases h
      exact ⟨some smooth', rfl⟩
  obtain ⟨smooth, rfl⟩ := hset
  refine ⟨rfl, rfl, hperm, rfl, ?_⟩
  exact ⟨hnodup, fun a ha => (hpos a ha).1, fun a ha => (hpos a ha).2, htotal, hfee, hfee'⟩

/-- A pool of `n` bar and `n` foo with equal weights. -/
def evenReserves (n : ℤ) : Pool where
  address := .pool 1
  id := 1
  address_eq := rfl
  poolParams := ⟨Dec.zero, Dec.zero, none⟩
  futurePoolGovernor := []
  totalShares := ⟨getPoolShareDenom 1, initPoolSharesSupply⟩
  poolAssets := [⟨⟨ascii "bar", n⟩, guaranteedWeightPrecision⟩,
    ⟨⟨ascii "foo", n⟩, guaranteedWeightPrecision⟩]
  totalWeight := 2 * guaranteedWeightPrecision

end MaanyDex.Gamm.Balancer
