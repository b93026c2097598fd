/-
Stableswap pools (`pool-models/stableswap`).

Reserves are scaled, and a swap solves `x y (x ^ 2 + y ^ 2 + w) = k` for the final reserve of
one asset by binary search.  Whatever the search returns, the record is updated by adding
what came in and subtracting what goes out, and the update panics when the number of
assets changes.  So nothing is ever dropped, and every move is recorded exactly.
-/
import MaanyDex.Gamm.Cfmm

namespace MaanyDex.Gamm.Stableswap

open Osmomath Run

structure PoolParams where
  swapFee : Dec
  exitFee : Dec

/-- `Pool`.  The address is set once, from the id. -/
structure Pool where
  id : ℕ
  address : Address
  address_eq : address = .pool id
  poolParams : PoolParams
  totalShares : Coin
  poolLiquidity : Coins
  scalingFactors : List ℕ
  scalingFactorController : Bytes
  futurePoolGovernor : Bytes

variable (p : Pool)

/-- What the keeper sees of a stableswap pool. -/
def Pool.view : PoolView where
  id := p.id
  address := p.address
  totalShares := p.totalShares
  liquidity := net p.poolLiquidity

structure Pool.Wf (p : Pool) : Prop where
  nodup : (p.poolLiquidity.map (·.denom)).Nodup
  amounts : ∀ c ∈ p.poolLiquidity, 0 < c.amount

variable (env : Env)

/-! ### Validation and creation -/

def PoolParams.validate (params : PoolParams) : Result Unit := do
  ensure (!params.exitFee.isNegative) (.err "exit fee is negative")
  ensure (params.exitFee < Dec.one) (.err "exit fee should be lesser than 1 (100%)")
  ensure (!params.swapFee.isNegative) (.err "spread factor is negative")
  ensure (params.swapFee < Dec.one) (.err "spread factor should be lesser than 1 (100%)")

variable (scalingFactors : List ℕ)

def validateScalingFactors (numAssets : ℕ) : Result Unit := do
  ensure (scalingFactors.length = numAssets)
    (.err "pool liquidity and scaling factors must have same length")
  ensure (scalingFactors.all fun f => 0 < int64OfUint64 f)
    (.err "scaling factors cannot be 0 or use more than 63 bits")

def stableswapMinScaledAmtPerAsset : ℤ := 1

def stableswapMaxScaledAmtPerAsset : ℤ := 10 ^ 34

/-- The check of one asset in `validatePoolLiquidity`. -/
def validateAsset (asset : Coin × ℕ) : Result Unit := do
  let scaledAmount ← intQuo asset.1.amount (int64OfUint64 asset.2)
  ensure (scaledAmount ≤ stableswapMaxScaledAmtPerAsset)
    (.err "post-scaled pool assets can not exceed 10^34")
  ensure (stableswapMinScaledAmtPerAsset ≤ scaledAmount)
    (.err "post-scaled pool assets can not be less than 1")

def validatePoolLiquidity (liquidity : Coins) (scalingFactors : List ℕ) : Result Unit := do
  ensure (liquidity.length = scalingFactors.length)
    (.err "liquidity count must match scaling factor count")
  ensure (minNumOfAssetsInPool ≤ liquidity.length) errTooFewPoolAssets
  ensure (liquidity.length ≤ maxNumOfAssetsInPool) errTooManyPoolAssets
  ensure (liquidity = sortCoins liquidity) (.err "unsorted initial pool liquidity")
  (liquidity.zip scalingFactors).forM validateAsset

def scalingFactorMultiplier : ℕ := 1

def applyScalingFactorMultiplier : Result (List ℕ) :=
  scalingFactors.mapM fun f => do
    let scaled := f * scalingFactorMultiplier % 2 ^ 64
    ensure (f ≤ scaled) (.err "scaling factors cannot be 0 or use more than 63 bits")
    .ok scaled

/-- Without scaling factors, every asset has factor one. -/
def defaultScalingFactors (liquidity : Coins) : List ℕ :=
  if scalingFactors = [] then liquidity.map fun _ => 1 else scalingFactors

def newStableswapPool (poolId : ℕ) (params : PoolParams) (initialLiquidity : Coins)
    (scalingFactors : List ℕ) (scalingFactorController futureGovernor : Bytes) :
    Result Pool := do
  let scalingFactors ←
    applyScalingFactorMultiplier (defaultScalingFactors scalingFactors initialLiquidity)
  validateScalingFactors scalingFactors initialLiquidity.length
  validatePoolLiquidity initialLiquidity scalingFactors
  validateFutureGovernor env futureGovernor
  let totalShares ← newCoin env.toSdk (getPoolShareDenom poolId) initPoolSharesSupply
  .ok {
    address := newPoolAddress poolId
    id := poolId
    address_eq := newPoolAddress_eq poolId
    poolParams := params
    totalShares := totalShares
    poolLiquidity := initialLiquidity
    scalingFactors := scalingFactors
    scalingFactorController := scalingFactorController
    futurePoolGovernor := futureGovernor }

/-! ### Reserves -/

/-- `GetScalingFactorByDenom`; the factors follow the order of the liquidity. -/
def getScalingFactorByDenom (denom : Denom) : ℕ :=
  match (p.poolLiquidity.zip p.scalingFactors).find? fun asset => asset.1.denom = denom with
  | some asset => asset.2
  | none => 0

def scaleCoin (input : Coin) (round : RoundingDirection) : Result BigDec :=
  divIntByU64ToBigDec input.amount (getScalingFactorByDenom p input.denom) round

def getDescaledPoolAmt (denom : Denom) (amount : BigDec) : Result Dec := do
  let descaled ← amount.mulInt64 (int64OfUint64 (getScalingFactorByDenom p denom))
  .ok descaled.toDec

/-- The arrays that `reorderReservesAndScalingFactors` fills. -/
structure Reordered where
  first : Option (Coin × ℕ)
  second : Option (Coin × ℕ)
  rest : List (Coin × ℕ)

/-- One round of `reorderReservesAndScalingFactors`, for a pool of `n` assets. -/
def reorderAsset (n : ℕ) (first second : Denom) (acc : Reordered) (asset : Coin × ℕ) :
    Result Reordered :=
  if asset.1.denom = first then .ok { acc with first := some asset }
  else if asset.1.denom = second then .ok { acc with second := some asset }
  else if acc.rest.length + 2 = n then
    .error (.err "one of denom not found in pool liquidity")
  else .ok { acc with rest := acc.rest ++ [asset] }

/-- `reorderReservesAndScalingFactors`.  Slots that stay empty have factor zero, which the
caller rejects. -/
def reorderReservesAndScalingFactors (first second : Denom) : Result (List (Coin × ℕ)) := do
  let n := p.poolLiquidity.length
  let acc ← (p.poolLiquidity.zip p.scalingFactors).foldlM (reorderAsset n first second)
    ⟨none, none, []⟩
  match acc.first, acc.second with
  | some a, some b => do
      ensure (acc.rest.length + 2 = n) (.err "scaling factors cannot be 0 or use more than 63 bits")
      .ok (a :: b :: acc.rest)
  | _, _ => .error (.err "scaling factors cannot be 0 or use more than 63 bits")

/-- `scaledSortedPoolReserves`; the first two reserves are those of the two assets. -/
def scaledSortedPoolReserves (first second : Denom) (round : RoundingDirection) :
    Result (List BigDec) := do
  let reordered ← reorderReservesAndScalingFactors p first second
  validateScalingFactors (reordered.map (·.2)) reordered.length
  reordered.mapM fun asset => divIntByU64ToBigDec asset.1.amount asset.2 round

/-! ### The value function: `amm.go` -/

variable (xReserve yReserve wSumSquares : BigDec)

def cfmmConstantMultiNoVY : Result BigDec := do
  ensure (xReserve.isPositive && yReserve.isPositive && !wSumSquares.isNegative)
    (.panic "invalid input: reserves must be positive")
  let x2 ← xReserve.mul xReserve
  let y2 ← yReserve.mul yReserve
  let sum ← x2.add y2
  let sum ← sum.add wSumSquares
  xReserve.mul sum

def cfmmConstantMultiNoV : Result BigDec := do
  let k ← cfmmConstantMultiNoVY xReserve yReserve wSumSquares
  k.mul yReserve

def targetKCalculator (x0 y0 w yf : BigDec) : Result BigDec := do
  let startK ← cfmmConstantMultiNoV x0 y0 w
  let yfRemoved ← startK.quo yf
  let yf2 ← yf.mul yf
  let innerTerm ← yf2.add w
  let x02 ← x0.mul x0
  let innerTerm ← innerTerm.add x02
  let constantTerm ← innerTerm.mul x0
  yfRemoved.sub constantTerm

/-- The coefficients that `iterKCalculator` computes beforehand. -/
def iterKCoefficients (x0 w yf : BigDec) : Result (BigDec × BigDec) := do
  let quadraticCoeff ← x0.mulInt64 3
  let linear ← quadraticCoeff.mul x0
  let linear ← linear.add w
  let yf2 ← yf.mul yf
  let linear ← linear.add yf2
  .ok (quadraticCoeff, linear.neg)

/-- The function that `iterKCalculator` returns. -/
def iterK (x0 quadraticCoeff linearCoeff xf : BigDec) : Result BigDec := do
  let xOut ← x0.sub xf
  let res ← xOut.neg.add quadraticCoeff
  let res ← res.mul xOut
  let res ← res.add linearCoeff
  res.mul xOut

def deriveUpperLowerXFinalReserveBounds (xReserve yReserve wSumSquares yFinal : BigDec) :
    Result (BigDec × BigDec) := do
  let k0 ← cfmmConstantMultiNoV xReserve yFinal wSumSquares
  let k ← cfmmConstantMultiNoV xReserve yReserve wSumSquares
  ensure (!k0.isZero && !k.isZero) (.panic "k should never be zero")
  let kRatio ← k0.quo k
  if kRatio < BigDec.one then do
    let bound ← xReserve.quo kRatio
    .ok (xReserve, bound.ceil)
  else if BigDec.one < kRatio then .ok (BigDec.zero, xReserve)
  else .ok (xReserve, xReserve)

def solveCFMMBinarySearchMulti (xReserve yReserve wSumSquares yIn : BigDec) : Result BigDec := do
  ensure (xReserve.isPositive && yReserve.isPositive && !wSumSquares.isNegative)
    (.panic "invalid input: reserves and input must be positive")
  ensure (yIn.abs < yReserve) (.panic "cannot input more than pool reserves")
  let yFinal ← yReserve.add yIn
  let (xLowEst, xHighEst) ←
    deriveUpperLowerXFinalReserveBounds xReserve yReserve wSumSquares yFinal
  let targetK ← targetKCalculator xReserve yReserve wSumSquares yFinal
  let (quadraticCoeff, linearCoeff) ← iterKCoefficients xReserve wSumSquares yFinal
  let xEst ← binarySearchBigDec (iterK xReserve quadraticCoeff linearCoeff) targetK
    ⟨none, some ⟨10 ^ 6⟩, .up⟩ 256 xLowEst xHighEst
  let xOut ← xReserve.sub xEst
  ensure (xOut.abs < xReserve) (.panic "invalid output: greater than full pool reserves")
  .ok xOut

def solveCfmm (xReserve yReserve : BigDec) (remReserves : List BigDec) (yIn : BigDec) :
    Result BigDec := do
  let wSumSquares ← remReserves.foldlM (fun w r => do
    let r2 ← r.mul r
    w.add r2) BigDec.zero
  solveCFMMBinarySearchMulti xReserve yReserve wSumSquares yIn

def oneMinus (spreadFactor : Dec) : Result BigDec := do
  let d ← Dec.sub env.math Dec.one spreadFactor
  .ok (BigDec.ofDec d)

variable (p : Pool) (tokenIn : Coin)

/-- The unexported `calcOutAmtGivenIn`. -/
def calcOutAmtDec (tokenOutDenom : Denom) (spreadFactor : Dec) : Result Dec := do
  let reserves ← scaledSortedPoolReserves p tokenIn.denom tokenOutDenom .down
  match reserves with
  | tokenInSupply :: tokenOutSupply :: remReserves => do
      let tokenInDec ← scaleCoin p tokenIn .down
      let ratio ← oneMinus env spreadFactor
      let ammIn ← tokenInDec.mul ratio
      let cfmmOut ← solveCfmm tokenOutSupply tokenInSupply remReserves ammIn
      getDescaledPoolAmt p tokenOutDenom cfmmOut
  | _ => .error (.panic "index out of range")

/-- The unexported `calcInAmtGivenOut`. -/
def calcInAmtDec (tokenOut : Coin) (tokenInDenom : Denom) (spreadFactor : Dec) : Result Dec := do
  let reserves ← scaledSortedPoolReserves p tokenInDenom tokenOut.denom .down
  match reserves with
  | tokenInSupply :: tokenOutSupply :: remReserves => do
      let tokenOutAmount ← scaleCoin p tokenOut .up
      let cfmmIn ← solveCfmm tokenInSupply tokenOutSupply remReserves tokenOutAmount.neg
      let ratio ← oneMinus env spreadFactor
      let inAmt ← cfmmIn.neg.quoRoundUpMut ratio
      getDescaledPoolAmt p tokenInDenom inAmt
  | _ => .error (.panic "index out of range")

/-! ### Swaps -/

def updatePoolLiquidityForSwap (tokensIn tokensOut : Coins) : Result Pool := do
  let added ← coinsAdd p.poolLiquidity tokensIn
  let liquidity ← coinsSub env.toSdk added tokensOut
  ensure (liquidity.length = p.poolLiquidity.length)
    (.panic "updatePoolLiquidityForSwap changed number of tokens in pool")
  .ok { p with poolLiquidity := liquidity }

variable (tokensIn : Coins)

def calcOutAmtGivenIn (tokenOutDenom : Denom) (spreadFactor : Dec) : Result Coin :=
  match tokensIn with
  | [tokenIn] => do
      let outAmtDec ← calcOutAmtDec env p tokenIn tokenOutDenom spreadFactor
      let tokenOutAmt ← outAmtDec.truncateInt
      ensure (0 < tokenOutAmt) (errInvalidMathApprox "token amount must be positive")
      newCoin env.toSdk tokenOutDenom tokenOutAmt
  | _ => .error (.err "stableswap CalcOutAmtGivenIn: tokenIn is of wrong length")

def swapOutAmtGivenIn (tokenOutDenom : Denom) (spreadFactor : Dec) : Result (Coin × Pool) := do
  let liquidity ← coinsAdd p.poolLiquidity tokensIn
  validatePoolLiquidity liquidity p.scalingFactors
  let tokenOut ← calcOutAmtGivenIn env p tokensIn tokenOutDenom spreadFactor
  let tokensOut ← newCoins env.toSdk [tokenOut]
  let p ← updatePoolLiquidityForSwap env p tokensIn tokensOut
  .ok (tokenOut, p)

def calcInAmtGivenOut (tokensOut : Coins) (tokenInDenom : Denom) (spreadFactor : Dec) :
    Result Coin :=
  match tokensOut with
  | [tokenOut] => do
      let amt ← calcInAmtDec env p tokenOut tokenInDenom spreadFactor
      let tokenInAmt ← amt.ceil.truncateInt
      ensure (0 < tokenInAmt) (errInvalidMathApprox "token amount must be positive")
      newCoin env.toSdk tokenInDenom tokenInAmt
  | _ => .error (.err "stableswap CalcInAmtGivenOut: tokenOut is of wrong length")

def swapInAmtGivenOut (tokensOut : Coins) (tokenInDenom : Denom) (spreadFactor : Dec) :
    Result (Coin × Pool) := do
  let tokenIn ← calcInAmtGivenOut env p tokensOut tokenInDenom spreadFactor
  let liquidity ← coinsAdd p.poolLiquidity [tokenIn]
  validatePoolLiquidity liquidity p.scalingFactors
  let tokensIn ← newCoins env.toSdk [tokenIn]
  let p ← updatePoolLiquidityForSwap env p tokensIn tokensOut
  .ok (tokenIn, p)

/-! ### Exits -/

def exitPool (exitingShares : ℤ) (exitFee : Dec) : Result (Coins × Pool) := do
  let exitingCoins ←
    calcExitPool env.math p.totalShares.amount p.poolLiquidity exitingShares exitFee
  let postExitLiquidity ← coinsSub env.toSdk p.poolLiquidity exitingCoins
  validatePoolLiquidity postExitLiquidity p.scalingFactors
  let p ← updatePoolLiquidityForSwap env p [] exitingCoins
  let amount ← checkedInt (p.totalShares.amount - exitingShares)
  .ok (exitingCoins, { p with totalShares := ⟨p.totalShares.denom, amount⟩ })

/-! ### Joins -/

def updatePoolForJoin (newShares : ℤ) : Result Pool := do
  let liquidity ← coinsAdd p.poolLiquidity tokensIn
  ensure (liquidity.length = p.poolLiquidity.length)
    (.panic "updatePoolForJoin changed number of tokens in pool")
  let amount ← checkedInt (p.totalShares.amount + newShares)
  .ok { p with poolLiquidity := liquidity, totalShares := ⟨p.totalShares.denom, amount⟩ }

def copy : Result Pool := do
  let liquidity ← newCoins env.toSdk p.poolLiquidity
  .ok { p with poolLiquidity := liquidity }

def singleAssetJoinSpreadFactorRatio (tokenInDenom : Denom) : Result Dec :=
  match p.poolLiquidity with
  | first :: second :: _ => do
      let tokenOut := if first.denom = tokenInDenom then second else first
      let scaledLiquidity ← scaledSortedPoolReserves p tokenInDenom tokenOut.denom .down
      let total ← scaledLiquidity.foldlM BigDec.add BigDec.zero
      match scaledLiquidity with
      | tokenIn :: _ => do
          let ratio ← tokenIn.quo total
          Dec.sub env.math Dec.one ratio.toDec
      | [] => .error (.panic "index out of range")
  | _ => .error (.panic "index out of range")

/-- What one gets for `sharesIn` shares after `tokenIn` was added to the pool and all
exited coins were swapped back to its denomination. -/
def estimateCoinOutGivenShares (sharesIn : ℤ) : Result ℤ := do
  let p ← copy env p
  let coins ← newCoins env.toSdk [tokenIn]
  let p ← updatePoolForJoin p coins sharesIn
  let (exitedCoins, p) ← exitPool env p sharesIn Dec.zero
  swapAllCoinsToSingleAsset env.toSdk
    (fun p coins => swapOutAmtGivenIn env p coins tokenIn.denom Dec.zero) p exitedCoins
    tokenIn.denom

variable (spreadFactor : Dec)

def calcSingleAssetJoinShares : Result ℤ := do
  let applicableRatio ← singleAssetJoinSpreadFactorRatio env p tokenIn.denom
  let fee ← Dec.mul env.math spreadFactor applicableRatio
  let oneMinusSpreadFactor ← Dec.sub env.math Dec.one fee
  let afterFee ← Dec.mul env.math (Dec.ofInt tokenIn.amount) oneMinusSpreadFactor
  let tokenInAmtAfterFee ← afterFee.truncateInt
  let tokenIn ← newCoin env.toSdk tokenIn.denom tokenInAmtAfterFee
  binarySearchSingleAssetJoin env.math env.toSdk p.totalShares.amount p.poolLiquidity tokenIn
    (estimateCoinOutGivenShares env p tokenIn)

/-- The shares and the part of `tokensIn` that `joinPoolSharesInternal` computes. -/
def joinShares : Result (ℤ × Coins) :=
  if tokensIn.length = 1 ∧ tokensIn.all fun c => 1 < c.amount then
    match tokensIn with
    | [tokenIn] => do
        let numShares ← calcSingleAssetJoinShares env p tokenIn spreadFactor
        .ok (numShares, tokensIn)
    | _ => .error (.panic "index out of range")
  else do
    ensure (tokensIn.length = p.poolLiquidity.length)
      (.err "stableswap pool only supports LP'ing with one asset, or all assets in pool")
    let (numShares, remCoins) ←
      maximalExactRatioJoin env.math p.totalShares.amount p.poolLiquidity tokensIn
    let tokensJoined ← coinsSub env.toSdk tokensIn remCoins
    .ok (numShares, tokensJoined)

/-- `joinPoolSharesInternal`, `JoinPool`. -/
def joinPool : Result (ℤ × Pool) := do
  let subset ← denomsSubsetOf env.toSdk tokensIn p.poolLiquidity
  ensure subset (.err "attempted joining pool with assets that do not exist in pool")
  let (numShares, tokensJoined) ← joinShares env p tokensIn spreadFactor
  let p ← updatePoolForJoin p tokensJoined numShares
  validatePoolLiquidity p.poolLiquidity p.scalingFactors
  .ok (numShares, p)

def calcJoinPoolNoSwapShares : Result (ℤ × Coins) := do
  ensure (tokensIn.length = p.poolLiquidity.length)
    (.err "no-swap joins require LP'ing with all assets in pool")
  let subset ← denomsSubsetOf env.toSdk tokensIn p.poolLiquidity
  ensure subset (.err "no-swap joins require LP'ing with all assets in pool")
  let (numShares, remainingTokensIn) ←
    maximalExactRatioJoin env.math p.totalShares.amount p.poolLiquidity tokensIn
  let tokensJoined ← coinsSub env.toSdk tokensIn remainingTokensIn
  let more ← isAnyGT env.toSdk tokensJoined tokensIn
  ensure (!more) (.err "an error has occurred, more coins joined than token In")
  .ok (numShares, tokensJoined)

def joinPoolNoSwap : Result (ℤ × Pool) := do
  let (newShares, tokensJoined) ← calcJoinPoolNoSwapShares env p tokensIn
  let p ← updatePoolForJoin p tokensJoined newShares
  .ok (newShares, p)

/-! ### Every move is recorded exactly -/

variable {env} {p p' : Pool} {n : ℤ}

lemma newStableswapPool_ok {poolId : ℕ} {params : PoolParams} {liquidity : Coins}
    {scalingFactors : List ℕ} {controller governor : Bytes}
    (h : newStableswapPool env poolId params liquidity scalingFactors controller governor = .ok p) :
    p.view = ⟨poolId, .pool poolId, ⟨getPoolShareDenom poolId, initPoolSharesSupply⟩, net liquidity⟩
      ∧ p.poolLiquidity = liquidity := by
  obtain ⟨_, _, _, -, -, -, h⟩ := bind3_ok h
  obtain ⟨_, shares, -, hshares, h⟩ := bind2_ok h
  cases h
  obtain ⟨rfl, -, -⟩ := newCoin_ok hshares
  exact ⟨rfl, rfl⟩

variable {tokensIn tokensOut : Coins}

lemma updatePoolLiquidityForSwap_ok
    (h : updatePoolLiquidityForSwap env p tokensIn tokensOut = .ok p') :
    Moved (fun d => net tokensIn d - net tokensOut d) 0 p.view p'.view ∧ p'.Wf
      ∧ p'.totalShares = p.totalShares := by
  obtain ⟨added, liquidity, _, hadd, hsub, -, h⟩ := bind3_ok h
  cases h
  obtain ⟨hnet, hnodup, hpos, -⟩ := coinsSub_ok hsub
  refine ⟨⟨rfl, ?_, fun d => ?_⟩, ⟨hnodup, hpos⟩, rfl⟩
  · show p.totalShares = ⟨p.totalShares.denom, p.totalShares.amount + 0⟩
    rw [add_zero]
  · show net liquidity d = net p.poolLiquidity d + _
    rw [hnet, (coinsAdd_ok hadd).1]
    ring

variable {c : Coin} {denom : Denom} {spreadFactor : Dec}

/-- **Swaps for an exact amount in are recorded exactly.** -/
lemma swapOutAmtGivenIn_ok
    (h : swapOutAmtGivenIn env p tokensIn denom spreadFactor = .ok (c, p')) :
    Moved (fun d => net tokensIn d - net [c] d) 0 p.view p'.view ∧ p'.Wf
      ∧ calcOutAmtGivenIn env p tokensIn denom spreadFactor = .ok c := by
  obtain ⟨_, _, _, -, -, hcalc, h⟩ := bind3_ok h
  obtain ⟨tokensOut, _, hout, hupd, h⟩ := bind2_ok h
  cases h
  obtain ⟨hmoved, hwf, -⟩ := updatePoolLiquidityForSwap_ok hupd
  refine ⟨?_, hwf, hcalc⟩
  rw [show (fun d => net tokensIn d - net [c] d) = fun d => net tokensIn d - net tokensOut d from
    funext fun d => by rw [(newCoins_ok hout).1]]
  exact hmoved

lemma calcInAmtGivenOut_ok (h : calcInAmtGivenOut env p tokensOut denom spreadFactor = .ok c) :
    c.denom = denom ∧ 0 < c.amount := by
  unfold calcInAmtGivenOut at h
  split at h
  · obtain ⟨_, _, _, -, -, hpos, h⟩ := bind3_ok h
    obtain ⟨rfl, -, -⟩ := newCoin_ok h
    exact ⟨rfl, of_decide_eq_true (ensure_ok hpos)⟩
  · cases h

/-- **Swaps for an exact amount out are recorded exactly.** -/
lemma swapInAmtGivenOut_ok
    (h : swapInAmtGivenOut env p tokensOut denom spreadFactor = .ok (c, p')) :
    Moved (fun d => net [c] d - net tokensOut d) 0 p.view p'.view ∧ p'.Wf
      ∧ calcInAmtGivenOut env p tokensOut denom spreadFactor = .ok c := by
  obtain ⟨_, _, _, hcalc, -, -, h⟩ := bind3_ok h
  obtain ⟨tokensIn, _, hin, hupd, h⟩ := bind2_ok h
  cases h
  obtain ⟨hmoved, hwf, -⟩ := updatePoolLiquidityForSwap_ok hupd
  refine ⟨?_, hwf, hcalc⟩
  rw [show (fun d => net [c] d - net tokensOut d) = fun d => net tokensIn d - net tokensOut d from
    funext fun d => by rw [(newCoins_ok hin).1]]
  exact hmoved

/-- **Exits are recorded exactly.** -/
lemma exitPool_ok {coins : Coins} {exitFee : Dec}
    (h : exitPool env p n exitFee = .ok (coins, p')) :
    Moved (fun d => -net coins d) (-n) p.view p'.view ∧ p'.Wf := by
  obtain ⟨_, _, _, -, -, -, h⟩ := bind3_ok h
  obtain ⟨p₁, amount, hupd, hamount, h⟩ := bind2_ok h
  cases h
  obtain ⟨hmoved, hwf, hshares⟩ := updatePoolLiquidityForSwap_ok hupd
  refine ⟨⟨hmoved.id, ?_, fun d => ?_⟩, ⟨hwf.nodup, hwf.amounts⟩⟩
  · show (⟨p₁.totalShares.denom, amount⟩ : Coin) = ⟨p.totalShares.denom, p.totalShares.amount + -n⟩
    rw [checkedInt_ok hamount, hshares, ← sub_eq_add_neg]
  · have hd := hmoved.liquidity d
    rw [net_nil, zero_sub] at hd
    exact hd

lemma updatePoolForJoin_ok (hp : p.Wf)
    (hin : ∀ c ∈ tokensIn, 0 ≤ c.amount) (h : updatePoolForJoin p tokensIn n = .ok p') :
    Moved (net tokensIn) n p.view p'.view ∧ p'.Wf := by
  obtain ⟨liquidity, _, amount, hadd, -, hamount, h⟩ := bind3_ok h
  cases h
  obtain ⟨hnet, hnodup, hne⟩ := coinsAdd_ok hadd
  refine ⟨⟨rfl, ?_, hnet⟩, ⟨hnodup, fun c hc => ?_⟩⟩
  · show (⟨p.totalShares.denom, amount⟩ : Coin) = _
    rw [checkedInt_ok hamount]
    rfl
  · -- a sum of amounts that are not negative, and no zeros are kept
    have hnonneg : 0 ≤ net liquidity c.denom := by
      rw [hnet]
      exact add_nonneg (net_nonneg (fun c hc => (hp.amounts c hc).le) _) (net_nonneg hin _)
    rw [net_eq_of_mem hnodup hc] at hnonneg
    exact lt_of_le_of_ne hnonneg (hne c hc).symm

variable {joined : Coins}

lemma joinShares_ok (hin : ∀ c ∈ tokensIn, 0 ≤ c.amount)
    (h : joinShares env p tokensIn spreadFactor = .ok (n, joined)) :
    (∀ d, net joined d ≤ net tokensIn d) ∧ ∀ c ∈ joined, 0 ≤ c.amount := by
  unfold joinShares at h
  split at h
  · split at h
    · obtain ⟨_, -, h⟩ := bind_ok h
      cases h
      exact ⟨fun d => le_rfl, hin⟩
    · cases h
  · obtain ⟨_, ⟨_, remaining⟩, -, -, h⟩ := bind2_ok h
    obtain ⟨_, hsub, h⟩ := bind_ok h
    cases h
    obtain ⟨hnet, -, hpos, hrem⟩ := coinsSub_ok hsub
    refine ⟨fun d => ?_, fun c hc => (hpos c hc).le⟩
    have := hrem d
    rw [hnet]
    omega

/-- **Joins record at most what was supplied.** -/
lemma joinPool_ok (hp : p.Wf)
    (hin : ∀ c ∈ tokensIn, 0 ≤ c.amount) (h : joinPool env p tokensIn spreadFactor = .ok (n, p')) :
    ∃ joined, (∀ d, joined d ≤ net tokensIn d) ∧ Moved joined n p.view p'.view ∧ p'.Wf := by
  obtain ⟨_, _, ⟨_, joined⟩, -, -, hcalc, h⟩ := bind3_ok h
  obtain ⟨_, _, hupd, -, h⟩ := bind2_ok h
  cases h
  obtain ⟨hle, hnonneg⟩ := joinShares_ok hin hcalc
  exact ⟨net joined, hle, updatePoolForJoin_ok hp hnonneg hupd⟩

/-- A join without swaps is a join in the ratio of the pool, with what remains taken off. -/
lemma calcJoinPoolNoSwapShares_spec
    (h : calcJoinPoolNoSwapShares env p tokensIn = .ok (n, joined)) :
    tokensIn.length = p.poolLiquidity.length
      ∧ ∃ rem, maximalExactRatioJoin env.math p.totalShares.amount p.poolLiquidity tokensIn
          = .ok (n, rem)
        ∧ coinsSub env.toSdk tokensIn rem = .ok joined := by
  obtain ⟨_, _, _, hlength, -, -, h⟩ := bind3_ok h
  obtain ⟨⟨n', rem⟩, hjoin, h⟩ := bind_ok h
  obtain ⟨joined', _, _, hsub, -, -, h⟩ := bind3_ok h
  cases h
  exact ⟨of_decide_eq_true (ensure_ok hlength), rem, hjoin, hsub⟩

lemma calcJoinPoolNoSwapShares_ok
    (h : calcJoinPoolNoSwapShares env p tokensIn = .ok (n, joined)) :
    (∀ d, net joined d ≤ net tokensIn d) ∧ ∀ c ∈ joined, 0 ≤ c.amount := by
  obtain ⟨-, rem, -, hsub⟩ := calcJoinPoolNoSwapShares_spec h
  exact coinsSub_le hsub

lemma joinPoolNoSwap_ok (hp : p.Wf) (h : joinPoolNoSwap env p tokensIn = .ok (n, p')) :
    ∃ joined, (∀ d, joined d ≤ net tokensIn d) ∧ Moved joined n p.view p'.view ∧ p'.Wf := by
  obtain ⟨⟨_, joined⟩, hcalc, h⟩ := bind_ok h
  obtain ⟨_, hupd, h⟩ := bind_ok h
  cases h
  obtain ⟨hle, hnonneg⟩ := calcJoinPoolNoSwapShares_ok hcalc
  exact ⟨net joined, hle, updatePoolForJoin_ok hp hnonneg hupd⟩

end MaanyDex.Gamm.Stableswap
