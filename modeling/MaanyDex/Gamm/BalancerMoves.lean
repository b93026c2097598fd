/-
Swaps, joins and exits of weighted pools (`pool-models/balancer/pool.go` and `amm.go`).

Amounts follow from the value function of the pool, which every move of one asset solves
through `solveConstantFunctionInvariant`.  The record of the pool is then updated in one
of two ways: by adding what came in, or by overwriting the balances that are listed.
Lists of coins do not contain zeros, so overwriting cannot set a balance to zero.
-/
import MaanyDex.Gamm.Balancer
import MaanyDex.Osmomath.Pow

namespace MaanyDex.Gamm.Balancer

open Osmomath
open Dec (ofInt)

variable (env : Env) (p : Pool)

/-- What the keeper sees of a weighted pool. -/
def Pool.view : PoolView where
  id := p.id
  address := p.address
  totalShares := p.totalShares
  liquidity := net (tokens p.poolAssets)

/-! ### Looking up assets -/

variable (assets : List PoolAsset)

/-- `getPoolAssetByDenom`; also a lookup in the map of `getPoolAssetsByDenom`. -/
def getPoolAssetByDenom (denom : Denom) : Option PoolAsset :=
  assets.find? fun asset => asset.token.denom = denom

/-- The loop of `sort.Search`: the least index in `[i, j)` at which `f` holds, if `f` is
monotone, and `j` if there is none. -/
def sortSearch (f : ℕ → Bool) : ℕ → ℕ → ℕ → ℕ
  | 0, i, _ => i
  | fuel + 1, i, j =>
    if i < j then
      let h := (i + j) / 2
      if f h then sortSearch f fuel i h else sortSearch f fuel (h + 1) j
    else i

def getPoolAssetAndIndex (denom : Denom) : Result (ℕ × PoolAsset) := do
  ensure (denom ≠ []) (.err "you tried to find the PoolAsset with empty denom")
  let n := assets.length
  -- the interval shrinks in every round, so `n` rounds are enough
  let i := sortSearch (fun i => assets[i]?.any fun a => compare a.token.denom denom ≠ .lt) n 0 n
  match assets[i]? with
  | none => .error (errDenomNotFoundInPool "can't find the PoolAsset")
  | some asset => do
      ensure (asset.token.denom = denom) (errDenomNotFoundInPool "can't find the PoolAsset")
      .ok (i, asset)

def parsePoolAssetsByDenoms (tokenADenom tokenBDenom : Denom) : Result (PoolAsset × PoolAsset) :=
  match getPoolAssetByDenom p.poolAssets tokenADenom,
    getPoolAssetByDenom p.poolAssets tokenBDenom with
  | some assetA, some assetB => .ok (assetA, assetB)
  | _, _ => .error (.err "does not exist in the pool")

def parsePoolAssets (tokensA : Coins) (tokenBDenom : Denom) :
    Result (Coin × PoolAsset × PoolAsset) :=
  match tokensA with
  | [tokenA] => do
      let (assetA, assetB) ← parsePoolAssetsByDenoms p tokenA.denom tokenBDenom
      .ok (tokenA, assetA, assetB)
  | _ => .error (.err "expected tokensB to be of length one")

/-! ### The record -/

/-- `poolAssetsCoins`, `GetTotalPoolLiquidity`. -/
def poolAssetsCoins : Result Coins :=
  assets.foldlM (fun coins asset => coinsAdd coins [asset.token]) []

def updatePoolAssetBalance (coin : Coin) : Result Pool := do
  let (i, existingAsset) ← getPoolAssetAndIndex p.poolAssets coin.denom
  ensure (0 < coin.amount) (.err "can't set the pool's balance of a token to be zero or negative")
  .ok { p with poolAssets := p.poolAssets.set i { existingAsset with token := coin } }

def updatePoolAssetBalances (coins : Coins) : Result Pool := do
  ensure (isValid env.toSdk coins) (.err "provided coins are invalid")
  coins.foldlM updatePoolAssetBalance p

/-- One round of `addToPoolAssetBalances`. -/
def addToPoolAssetBalance (coin : Coin) : Result Pool := do
  let (i, poolAsset) ← getPoolAssetAndIndex p.poolAssets coin.denom
  let amount ← checkedInt (poolAsset.token.amount + coin.amount)
  .ok { p with poolAssets :=
    p.poolAssets.set i { poolAsset with token := ⟨poolAsset.token.denom, amount⟩ } }

def addToPoolAssetBalances (coins : Coins) : Result Pool :=
  coins.foldlM addToPoolAssetBalance p

def increaseLiquidity (sharesOut : ℤ) (coinsIn : Coins) : Result Pool := do
  let p ← addToPoolAssetBalances p coinsIn
  let amount ← checkedInt (p.totalShares.amount + sharesOut)
  .ok { p with totalShares := ⟨p.totalShares.denom, amount⟩ }

/-! ### The value function -/

/-- `y ^ weightRatio` in `solveConstantFunctionInvariant`. -/
def invariantPower (tokenBalanceFixedBefore tokenBalanceFixedAfter tokenWeightFixed
    tokenWeightUnknown : Dec) : Result Dec := do
  let weightRatio ← Dec.quo env.math tokenWeightFixed tokenWeightUnknown
  let y ← Dec.quo env.math tokenBalanceFixedBefore tokenBalanceFixedAfter
  pow env.math y weightRatio

def solveConstantFunctionInvariant (tokenBalanceFixedBefore tokenBalanceFixedAfter
    tokenWeightFixed tokenBalanceUnknownBefore tokenWeightUnknown : Dec) : Result Dec := do
  let yToWeightRatio ← invariantPower env tokenBalanceFixedBefore tokenBalanceFixedAfter
    tokenWeightFixed tokenWeightUnknown
  let paranthetical ← Dec.sub env.math Dec.one yToWeightRatio
  Dec.mul env.math paranthetical tokenBalanceUnknownBefore

def feeRatio (normalizedWeight spreadFactor : Dec) : Result Dec := do
  let rest ← Dec.sub env.math Dec.one normalizedWeight
  let fee ← Dec.mul env.math rest spreadFactor
  Dec.sub env.math Dec.one fee

def calcPoolSharesOutGivenSingleAssetIn (tokenBalanceIn normalizedTokenWeightIn poolShares
    tokenAmountIn spreadFactor : Dec) : Result Dec := do
  let ratio ← feeRatio env normalizedTokenWeightIn spreadFactor
  let tokenAmountInAfterFee ← Dec.mul env.math tokenAmountIn ratio
  let after ← Dec.add env.math tokenBalanceIn tokenAmountInAfterFee
  let poolAmountOut ← solveConstantFunctionInvariant env after tokenBalanceIn
    normalizedTokenWeightIn poolShares Dec.one
  .ok poolAmountOut.neg

def calcSingleAssetInGivenPoolSharesOut (tokenBalanceIn normalizedTokenWeightIn
    totalPoolSharesSupply sharesAmountOut spreadFactor : Dec) : Result Dec := do
  let after ← Dec.add env.math totalPoolSharesSupply sharesAmountOut
  let tokenAmountIn ← solveConstantFunctionInvariant env after totalPoolSharesSupply Dec.one
    tokenBalanceIn normalizedTokenWeightIn
  let ratio ← feeRatio env normalizedTokenWeightIn spreadFactor
  Dec.quo env.math tokenAmountIn.neg ratio

def calcPoolSharesInGivenSingleAssetOut (tokenBalanceOut normalizedTokenWeightOut
    totalPoolSharesSupply tokenAmountOut spreadFactor exitFee : Dec) : Result Dec := do
  let ratio ← feeRatio env normalizedTokenWeightOut spreadFactor
  let tokenAmountOutFeeIncluded ← Dec.quo env.math tokenAmountOut ratio
  let after ← Dec.sub env.math tokenBalanceOut tokenAmountOutFeeIncluded
  let sharesIn ← solveConstantFunctionInvariant env after tokenBalanceOut
    normalizedTokenWeightOut totalPoolSharesSupply Dec.one
  let oneSubExitFee ← Dec.sub env.math Dec.one exitFee
  Dec.quo env.math sharesIn oneSubExitFee

/-! ### Swaps -/

/-- `applySwap`, for one coin each way. -/
def applySwap (tokenIn tokenOut : Coin) : Result Pool := do
  let (inPoolAsset, outPoolAsset) ← parsePoolAssetsByDenoms p tokenIn.denom tokenOut.denom
  let inAmount ← checkedInt (inPoolAsset.token.amount + tokenIn.amount)
  let outAmount ← checkedInt (outPoolAsset.token.amount - tokenOut.amount)
  let coins ← newCoins env.toSdk
    [⟨inPoolAsset.token.denom, inAmount⟩, ⟨outPoolAsset.token.denom, outAmount⟩]
  updatePoolAssetBalances env p coins

/-- The balance of the asset paid in, after a swap whose fee stays with the trader. -/
def poolPostSwapInBalance (poolAssetIn : PoolAsset) (tokenIn : Coin) (spreadFactor : Dec) :
    Result Dec := do
  let ratio ← Dec.sub env.math Dec.one spreadFactor
  let tokenAmountInAfterFee ← Dec.mul env.math (ofInt tokenIn.amount) ratio
  Dec.add env.math tokenAmountInAfterFee (ofInt poolAssetIn.token.amount)

variable (tokensIn : Coins)

def calcOutAmtGivenIn (tokenOutDenom : Denom) (spreadFactor : Dec) : Result Coin := do
  let (tokenIn, poolAssetIn, poolAssetOut) ← parsePoolAssets p tokensIn tokenOutDenom
  let after ← poolPostSwapInBalance env poolAssetIn tokenIn spreadFactor
  let tokenAmountOut ← solveConstantFunctionInvariant env (ofInt poolAssetIn.token.amount)
    after (ofInt poolAssetIn.weight) (ofInt poolAssetOut.token.amount)
    (ofInt poolAssetOut.weight)
  let tokenAmountOutInt ← tokenAmountOut.truncateInt
  ensure (0 < tokenAmountOutInt) (errInvalidMathApprox "token amount must be positive")
  newCoin env.toSdk tokenOutDenom tokenAmountOutInt

/-- The power that `CalcOutAmtGivenIn` computes. -/
def swapPower (tokenIn : Coin) (tokenOutDenom : Denom) (spreadFactor : Dec) : Result Dec := do
  let (poolAssetIn, poolAssetOut) ← parsePoolAssetsByDenoms p tokenIn.denom tokenOutDenom
  let after ← poolPostSwapInBalance env poolAssetIn tokenIn spreadFactor
  invariantPower env (ofInt poolAssetIn.token.amount) after (ofInt poolAssetIn.weight)
    (ofInt poolAssetOut.weight)

def swapOutAmtGivenIn (tokenOutDenom : Denom) (spreadFactor : Dec) : Result (Coin × Pool) := do
  let tokenOut ← calcOutAmtGivenIn env p tokensIn tokenOutDenom spreadFactor
  match tokensIn with
  | [tokenIn] => do
      let p ← applySwap env p tokenIn tokenOut
      .ok (tokenOut, p)
  | _ => .error (.err "expected tokensB to be of length one")

def calcInAmtGivenOut (tokensOut : Coins) (tokenInDenom : Denom) (spreadFactor : Dec) :
    Result Coin := do
  let (tokenOut, poolAssetOut, poolAssetIn) ← parsePoolAssets p tokensOut tokenInDenom
  let before := ofInt poolAssetOut.token.amount
  let after ← Dec.sub env.math before (ofInt tokenOut.amount)
  let tokenAmountIn ← solveConstantFunctionInvariant env before after
    (ofInt poolAssetOut.weight) (ofInt poolAssetIn.token.amount)
    (ofInt poolAssetIn.weight)
  let ratio ← Dec.sub env.math Dec.one spreadFactor
  let tokenAmountInBeforeFee ← Dec.quo env.math tokenAmountIn.neg ratio
  let tokenInAmt ← tokenAmountInBeforeFee.ceil.truncateInt
  ensure (0 < tokenInAmt) (errInvalidMathApprox "token amount must be positive")
  newCoin env.toSdk tokenInDenom tokenInAmt

def swapInAmtGivenOut (tokensOut : Coins) (tokenInDenom : Denom) (spreadFactor : Dec) :
    Result (Coin × Pool) := do
  let tokenIn ← calcInAmtGivenOut env p tokensOut tokenInDenom spreadFactor
  match tokensOut with
  | [tokenOut] => do
      let p ← applySwap env p tokenIn tokenOut
      .ok (tokenIn, p)
  | _ => .error (.err "expected tokensA to be of length one")

/-! ### Joins -/

/-- `getPoolAssetsByDenom`; the map is the list of assets, which must not repeat a
denomination. -/
def getPoolAssetsByDenom (poolAssets : List PoolAsset) : Result (List PoolAsset) := do
  ensure ((tokens poolAssets).map (·.denom)).Nodup (.err "repeating pool assets not allowed")
  .ok poolAssets

variable (poolAssetsByDenom : List PoolAsset)

def ensureDenomInPool (tokensIn : Coins) : Result Unit :=
  ensure (tokensIn.all fun coin => (getPoolAssetByDenom poolAssetsByDenom coin.denom).isSome)
    (errDenomNotFoundInPool "input denoms must already exist in the pool")

/-- One round of `updateIntermediaryPoolAssetsLiquidity`. -/
def updateIntermediaryPoolAsset (coin : Coin) : Result (List PoolAsset) := do
  let i := poolAssetsByDenom.findIdx fun asset => asset.token.denom = coin.denom
  match poolAssetsByDenom[i]? with
  | none => .error (.err "failed to update interim liquidity - pool asset does not exist")
  | some asset => do
      let amount ← checkedInt (asset.token.amount + coin.amount)
      .ok (poolAssetsByDenom.set i { asset with token := ⟨asset.token.denom, amount⟩ })

def updateIntermediaryPoolAssetsLiquidity (liquidity : Coins)
    (poolAssetsByDenom : List PoolAsset) : Result (List PoolAsset) :=
  liquidity.foldlM updateIntermediaryPoolAsset poolAssetsByDenom

/-- `calcSingleAssetJoin`; an asset that is missing from the map is a zero value, whose
weight cannot be read. -/
def calcSingleAssetJoin (tokenIn : Coin) (spreadFactor : Dec)
    (tokenInPoolAsset : Option PoolAsset) (totalShares : ℤ) : Result ℤ := do
  let _ ← getPoolAssetAndIndex p.poolAssets tokenIn.denom
  ensure (p.totalWeight ≠ 0) (.err "pool misconfigured, total weight = 0")
  match tokenInPoolAsset with
  | none => .error (.panic "invalid memory address or nil pointer dereference")
  | some asset => do
      let normalizedWeight ← Dec.quo env.math (ofInt asset.weight) (ofInt p.totalWeight)
      let shares ← calcPoolSharesOutGivenSingleAssetIn env (ofInt asset.token.amount)
        normalizedWeight (ofInt totalShares) (ofInt tokenIn.amount) spreadFactor
      shares.truncateInt

/-- One round of `calcJoinSingleAssetTokensIn`. -/
def joinSingleAsset (totalShares : ℤ) (poolAssetsByDenom : List PoolAsset)
    (spreadFactor : Dec) (acc : ℤ × Coins) (coin : Coin) : Result (ℤ × Coins) := do
  let shares ← checkedInt (totalShares + acc.1)
  let newShares ← calcSingleAssetJoin env p coin spreadFactor
    (getPoolAssetByDenom poolAssetsByDenom coin.denom) shares
  let totalNewLiquidity ← coinsAdd acc.2 [coin]
  let totalNewShares ← checkedInt (acc.1 + newShares)
  .ok (totalNewShares, totalNewLiquidity)

def calcJoinSingleAssetTokensIn (totalShares : ℤ)
    (poolAssetsByDenom : List PoolAsset) (spreadFactor : Dec) : Result (ℤ × Coins) :=
  tokensIn.foldlM (joinSingleAsset env p totalShares poolAssetsByDenom spreadFactor) (0, [])

def calcJoinPoolNoSwapShares : Result (ℤ × Coins) := do
  let poolAssetsByDenom ← getPoolAssetsByDenom p.poolAssets
  ensureDenomInPool poolAssetsByDenom tokensIn
  ensure (tokensIn.length = p.poolAssets.length)
    (.err "no-swap joins require LP'ing with all assets in pool")
  let liquidity ← poolAssetsCoins p.poolAssets
  let (numShares, remainingTokensIn) ←
    maximalExactRatioJoin env.math p.totalShares.amount liquidity tokensIn
  let tokensJoined ← coinsSub env.toSdk tokensIn remainingTokensIn
  let more ← isAnyGT env.toSdk tokensJoined tokensIn
  ensure (!more) (.err "an error has occurred, more coins joined than token In")
  .ok (numShares, tokensJoined)

/-- The steps of `CalcJoinPoolShares` after the join without swaps: join every coin that
is left on its own. -/
def joinRemaining (tokensIn : Coins)
    (spreadFactor : Dec) (numShares : ℤ) (tokensJoined : Coins) : Result (ℤ × Coins) := do
  let poolAssetsByDenom ← updateIntermediaryPoolAssetsLiquidity tokensJoined poolAssetsByDenom
  let newTotalShares ← checkedInt (p.totalShares.amount + numShares)
  let remainingTokensIn ← coinsSub env.toSdk tokensIn tokensJoined
  let (newNumSharesFromRemaining, newLiquidityFromRemaining) ←
    calcJoinSingleAssetTokensIn env p remainingTokensIn newTotalShares poolAssetsByDenom
      spreadFactor
  let numShares ← checkedInt (numShares + newNumSharesFromRemaining)
  let tokensJoined ← coinsAdd tokensJoined newLiquidityFromRemaining
  let more ← isAnyGT env.toSdk tokensJoined tokensIn
  ensure (!more) (.err "an error has occurred, more coins joined than token In")
  .ok (numShares, tokensJoined)

def calcJoinPoolShares (spreadFactor : Dec) : Result (ℤ × Coins) := do
  let poolAssetsByDenom ← getPoolAssetsByDenom p.poolAssets
  ensureDenomInPool poolAssetsByDenom tokensIn
  match tokensIn with
  | [tokenIn] => do
      let numShares ← calcSingleAssetJoin env p tokenIn spreadFactor
        (getPoolAssetByDenom poolAssetsByDenom tokenIn.denom) p.totalShares.amount
      .ok (numShares, [tokenIn])
  | _ => do
      ensure (tokensIn.length = p.poolAssets.length)
        (.err "balancer pool only supports LP'ing with one asset or all assets in pool")
      let (numShares, tokensJoined) ← calcJoinPoolNoSwapShares env p tokensIn
      let more ← isAnyGT env.toSdk tokensJoined tokensIn
      ensure (!more) (.err "an error has occurred, more coins joined than tokens passed in")
      if coinsEqual tokensJoined tokensIn then .ok (numShares, tokensJoined)
      else joinRemaining env p poolAssetsByDenom tokensIn spreadFactor numShares tokensJoined

def joinPool (spreadFactor : Dec) : Result (ℤ × Pool) := do
  let (numShares, newLiquidity) ← calcJoinPoolShares env p tokensIn spreadFactor
  let p ← increaseLiquidity p numShares newLiquidity
  .ok (numShares, p)

def joinPoolNoSwap : Result (ℤ × Pool) := do
  let (numShares, tokensJoined) ← calcJoinPoolNoSwapShares env p tokensIn
  let p ← increaseLiquidity p numShares tokensJoined
  .ok (numShares, p)

def calcTokenInShareAmountOut (tokenInDenom : Denom) (shareOutAmount : ℤ)
    (spreadFactor : Dec) : Result ℤ := do
  let (_, poolAssetIn) ← getPoolAssetAndIndex p.poolAssets tokenInDenom
  let normalizedWeight ← Dec.quo env.math (ofInt poolAssetIn.weight) (ofInt p.totalWeight)
  let tokenIn ← calcSingleAssetInGivenPoolSharesOut env (ofInt poolAssetIn.token.amount)
    normalizedWeight (ofInt p.totalShares.amount) (ofInt shareOutAmount) spreadFactor
  let tokenInAmount ← tokenIn.ceil.truncateInt
  ensure (0 < tokenInAmount) (errNotPositiveRequireAmount "token amount must be positive")
  .ok tokenInAmount

/-! ### Exits -/

/-- `exitPool`: the record and the shares after an exit. -/
def applyExit (exitingCoins : Coins) (exitingShares : ℤ) : Result Pool := do
  let liquidity ← poolAssetsCoins p.poolAssets
  let balances ← coinsSub env.toSdk liquidity exitingCoins
  let p ← updatePoolAssetBalances env p balances
  let amount ← checkedInt (p.totalShares.amount - exitingShares)
  let totalShares ← newCoin env.toSdk p.totalShares.denom amount
  .ok { p with totalShares := totalShares }

def exitPool (exitingShares : ℤ) (exitFee : Dec) : Result (Coins × Pool) := do
  let liquidity ← poolAssetsCoins p.poolAssets
  let exitingCoins ← calcExitPool env.math p.totalShares.amount liquidity exitingShares exitFee
  let p ← applyExit env p exitingCoins exitingShares
  .ok (exitingCoins, p)

def exitSwapExactAmountOut (tokenOut : Coin) (shareInMaxAmount : ℤ) : Result (ℤ × Pool) := do
  let (_, poolAssetOut) ← getPoolAssetAndIndex p.poolAssets tokenOut.denom
  let normalizedWeight ←
    Dec.quo env.math (ofInt poolAssetOut.weight) (ofInt p.totalWeight)
  let shares ← calcPoolSharesInGivenSingleAssetOut env (ofInt poolAssetOut.token.amount)
    normalizedWeight (ofInt p.totalShares.amount) (ofInt tokenOut.amount)
    p.poolParams.swapFee p.poolParams.exitFee
  let sharesIn ← shares.truncateInt
  ensure (0 < sharesIn) (errNotPositiveRequireAmount "shares amount must be positive")
  ensure (sharesIn ≤ shareInMaxAmount)
    (errLimitMaxAmount "resulted shares is larger than the max amount")
  let coins ← newCoins env.toSdk [tokenOut]
  let p ← applyExit env p coins sharesIn
  .ok (sharesIn, p)

end MaanyDex.Gamm.Balancer
