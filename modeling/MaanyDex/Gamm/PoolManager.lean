/-
Routing and pool creation: `x/poolmanager/router.go`, `taker_fee.go` and `create_pool.go`.

A swap for an exact amount in goes through its route hop by hop; the taker fee is taken off
the input of every hop.  A swap for an exact amount out is first estimated from the last hop
to the first, with the taker fee added at every hop, and then executed from the first to the
last.  The chain runs with `x/gamm` as its only pool module: the keepers of the other pool
types are nil.
-/
import MaanyDex.PoolManager.Keys

namespace MaanyDex.Gamm

variable (env : Env) (ctx : Ctx)

/-- `takerfeetypes.ModuleName`. -/
def takerFeeModuleName : Bytes := ascii "takerfee"

structure SwapAmountInRoute where
  poolId : ℕ
  tokenOutDenom : Denom
  deriving DecidableEq

structure SwapAmountOutRoute where
  poolId : ℕ
  tokenInDenom : Denom
  deriving DecidableEq

/-- `SwapAmountInRoutes.Validate`, `SwapAmountOutRoutes.Validate`; both modules have them,
with different errors for empty routes. -/
def validateRoutes (errEmptyRoutes : Fault) (denoms : List Denom) : Result Unit := do
  ensure (!denoms.isEmpty) errEmptyRoutes
  ensure (denoms.all env.validDenom) (.err "invalid denom")

/-- `ErrEmptyRoutes` of `x/poolmanager`. -/
def errEmptyRoutes : Fault := .err "provided empty routes"

variable (s : State)

def getPoolModuleAndPool (poolId : ℕ) : Result Pool := do
  -- the route is read under its key
  let _ ← PoolManager.formatModuleRouteKey poolId
  match s.poolRoutes.lookup poolId with
  | none => .error (.err "failed to find route for pool id")
  | some .balancer | some .stableswap => getPoolAndPoke env ctx s poolId
  | some .concentrated | some .cosmWasm =>
    .error (.panic "invalid memory address or nil pointer dereference")

/-! ### Taker fees -/

variable (tokenIn : Coin)

/-- `CalcTakerFeeExactIn`: what is left of the input, and the fee. -/
def calcTakerFeeExactIn (takerFee : Dec) : Result (Coin × Coin) := do
  let takerFeeFactor ← Dec.sub env.math Dec.one takerFee
  let amount ← Dec.mulInt env.math takerFeeFactor tokenIn.amount
  let after ← amount.truncateInt
  let fee ← checkedInt (tokenIn.amount - after)
  .ok (⟨tokenIn.denom, after⟩, ⟨tokenIn.denom, fee⟩)

/-- `CalcTakerFeeExactOut`: the input with the fee, and the fee. -/
def calcTakerFeeExactOut (takerFee : Dec) : Result (Coin × Coin) := do
  let takerFeeFactor ← Dec.sub env.math Dec.one takerFee
  let amount ← Dec.quo env.math (Dec.ofInt tokenIn.amount) takerFeeFactor
  let after ← amount.ceil.truncateInt
  let fee ← checkedInt (after - tokenIn.amount)
  .ok (⟨tokenIn.denom, after⟩, ⟨tokenIn.denom, fee⟩)

variable (sender : Address)

/-- The part of `chargeTakerFee` for senders that pay the fee, given how it is computed. -/
def payTakerFee (amounts : Result (Coin × Coin)) : Result (Coin × Coin × State) := do
  let (tokenInAfterTakerFee, takerFeeCoin) ← amounts
  let coins ← newCoins env.toSdk [takerFeeCoin]
  let bank ← s.bank.sendCoinsFromAccountToModule env.toSdk sender takerFeeModuleName coins
  .ok (tokenInAfterTakerFee, takerFeeCoin, { s with bank := bank })

def chargeTakerFee (tokenOutDenom : Denom) (sender : Address)
    (exactIn : Bool) : Result (Coin × Coin × State) :=
  if ctx.reducedFeeWhitelist sender then .ok (tokenIn, ⟨tokenIn.denom, 0⟩, s)
  else
    let takerFee := ctx.takerFee tokenIn.denom tokenOutDenom
    payTakerFee env s sender
      (if exactIn then calcTakerFeeExactIn env tokenIn takerFee
        else calcTakerFeeExactOut env tokenIn takerFee)

/-! ### Swaps for an exact amount in -/

/-- `SwapExactAmountIn` of the pool manager: one hop, with its taker fee. -/
def swapHopIn (poolId : ℕ) (tokenIn : Coin) (tokenOutDenom : Denom)
    (tokenOutMinAmount : ℤ) : Result (ℤ × Coin × State) := do
  let p ← getPoolModuleAndPool env ctx s poolId
  let (tokenInAfterSubTakerFee, takerFeeCharged, s) ←
    chargeTakerFee env ctx s tokenIn tokenOutDenom sender true
  let (tokenOutAmount, _, s) ← swapExactAmountIn env s sender p tokenInAfterSubTakerFee
    tokenOutDenom tokenOutMinAmount p.getSpreadFactor
  .ok (tokenOutAmount, takerFeeCharged, s)

/-- The loop of `RouteExactAmountIn`, with the last output and the fees so far. -/
def routeIn (sender : Address) (tokenOutMinAmount : ℤ) :
    List SwapAmountInRoute → State → Coin → ℤ → Coins → Result (ℤ × State)
  | [], s, _, tokenOutAmount, _ => .ok (tokenOutAmount, s)
  | step :: rest, s, tokenIn, _, totalTakerFeesCharged => do
      -- the limit of the sender is for the last hop only
      let outMinAmount := if rest = [] then tokenOutMinAmount else 1
      let (tokenOutAmount, takerFeeCharged, s) ←
        swapHopIn env ctx s sender step.poolId tokenIn step.tokenOutDenom outMinAmount
      let tokenIn ← newCoin env.toSdk step.tokenOutDenom tokenOutAmount
      let totalTakerFeesCharged ← coinsAdd totalTakerFeesCharged [takerFeeCharged]
      routeIn sender tokenOutMinAmount rest s tokenIn tokenOutAmount totalTakerFeesCharged

variable (route : List SwapAmountInRoute)

def routeExactAmountIn (tokenIn : Coin) (tokenOutMinAmount : ℤ) : Result (ℤ × State) := do
  validateRoutes env errEmptyRoutes (route.map (·.tokenOutDenom))
  routeIn env ctx sender tokenOutMinAmount route s tokenIn 0 []

/-- The loop of `multihopEstimateOutGivenExactAmountInInternal`, with taker fees. -/
def estimateOut (s : State) : List SwapAmountInRoute → Coin → ℤ → Result ℤ
  | [], _, tokenOutAmount => .ok tokenOutAmount
  | step :: rest, tokenIn, _ => do
      let p ← getPoolModuleAndPool env ctx s step.poolId
      let (actualTokenIn, _) ←
        calcTakerFeeExactIn env tokenIn (ctx.takerFee tokenIn.denom step.tokenOutDenom)
      let tokenOut ← calcOutAmtGivenIn env p actualTokenIn step.tokenOutDenom p.getSpreadFactor
      ensure (0 < tokenOut.amount) (.err "token amount must be positive")
      estimateOut s rest ⟨step.tokenOutDenom, tokenOut.amount⟩ tokenOut.amount

def multihopEstimateOutGivenExactAmountIn (tokenIn : Coin) : Result ℤ := do
  validateRoutes env errEmptyRoutes (route.map (·.tokenOutDenom))
  estimateOut env ctx s route tokenIn 0

/-! ### Swaps for an exact amount out -/

/-- One round of `createMultihopExpectedSwapOuts`: the input of a hop, with the taker fee. -/
def expectedIn (step : SwapAmountOutRoute) (tokenOut : Coin) : Result Coin := do
  let p ← getPoolModuleAndPool env ctx s step.poolId
  let tokenIn ← calcInAmtGivenOut env p tokenOut step.tokenInDenom p.getSpreadFactor
  let (tokenInAfterTakerFee, _) ←
    calcTakerFeeExactOut env tokenIn (ctx.takerFee step.tokenInDenom tokenOut.denom)
  .ok tokenInAfterTakerFee

/-- The loop of `createMultihopExpectedSwapOuts`, from the last hop to the first. -/
def expectedIns (s : State) : List SwapAmountOutRoute → Coin → Result (List Coin)
  | [], _ => .ok []
  | step :: rest, tokenOut => do
      let ins ← expectedIns s rest tokenOut
      let tokenIn ← expectedIn env ctx s step (ins.headD tokenOut)
      .ok (tokenIn :: ins)

variable (route : List SwapAmountOutRoute)

def createMultihopExpectedSwapOuts (tokenOut : Coin) : Result (List ℤ) := do
  let ins ← expectedIns env ctx s route tokenOut
  .ok (ins.map (·.amount))

def multihopEstimateInGivenExactAmountOut (tokenOut : Coin) : Result ℤ := do
  validateRoutes env errEmptyRoutes (route.map (·.tokenInDenom))
  let insExpected ← createMultihopExpectedSwapOuts env ctx s route tokenOut
  .ok (insExpected.headD 0)

/-- One round of `RouteExactAmountOut`: swap for `tokenOut`, then charge the taker fee. -/
def swapHopOut (step : SwapAmountOutRoute) (limit : ℤ)
    (tokenOut : Coin) : Result (Coin × Coin × State) := do
  let p ← getPoolModuleAndPool env ctx s step.poolId
  let (curTokenInAmount, _, s) ← swapExactAmountOut env ctx s sender p step.tokenInDenom limit
    tokenOut p.getSpreadFactor
  let tokenIn ← newCoin env.toSdk step.tokenInDenom curTokenInAmount
  chargeTakerFee env ctx s tokenIn tokenOut.denom sender false

/-- What a hop of `RouteExactAmountOut` has to pay out: the input of the next one. -/
def hopTokenOut (rest : List SwapAmountOutRoute) (insExpected : List ℤ) (tokenOut : Coin) :
    Result Coin :=
  match rest with
  | [] => .ok tokenOut
  | next :: _ =>
    match insExpected with
    | n :: _ => newCoin env.toSdk next.tokenInDenom n
    | [] => .error (.panic "index out of range")

/-- The loop of `RouteExactAmountOut`; it returns what each hop took, with its fee. -/
def routeOut (sender : Address) (tokenOut : Coin) :
    List SwapAmountOutRoute → List ℤ → State → Coins → Result (List ℤ × State)
  | [], _, s, _ => .ok ([], s)
  | step :: rest, limit :: insExpected, s, totalTakerFeesCharged => do
      let out ← hopTokenOut env rest insExpected tokenOut
      let (tokenInAfterAddTakerFee, takerFeeCharged, s) ←
        swapHopOut env ctx s sender step limit out
      let totalTakerFeesCharged ← coinsAdd totalTakerFeesCharged [takerFeeCharged]
      let (ins, s) ← routeOut sender tokenOut rest insExpected s totalTakerFeesCharged
      .ok (tokenInAfterAddTakerFee.amount :: ins, s)
  | _ :: _, [], _, _ => .error (.panic "index out of range")

/-- `RouteExactAmountOut`.  The limit of the sender takes the place of the first estimate,
and the result is what the first hop took. -/
def routeExactAmountOut (tokenInMaxAmount : ℤ) (tokenOut : Coin) : Result (ℤ × State) := do
  validateRoutes env errEmptyRoutes (route.map (·.tokenInDenom))
  let insExpected ← createMultihopExpectedSwapOuts env ctx s route tokenOut
  let (ins, s) ← routeOut env ctx sender tokenOut route (tokenInMaxAmount :: insExpected.tail) s []
  .ok (ins.headD 0, s)

/-! ### Creating pools -/

/-- The messages that create pools. -/
inductive CreatePoolMsg where
  /-- `MsgCreateBalancerPool`. -/
  | balancer (sender : Address) (poolParams : Balancer.PoolParams)
      (poolAssets : List Balancer.PoolAsset) (futurePoolGovernor : Bytes)
  /-- `MsgCreateStableswapPool`. -/
  | stableswap (sender : Address) (poolParams : Stableswap.PoolParams)
      (initialPoolLiquidity : Coins) (scalingFactors : List ℕ) (futurePoolGovernor : Bytes)
      (scalingFactorController : Bytes)

namespace CreatePoolMsg

def getPoolType : CreatePoolMsg → PoolType
  | balancer .. => .balancer
  | stableswap .. => .stableswap

def poolCreator : CreatePoolMsg → Address
  | balancer sender .. => sender
  | stableswap sender .. => sender

def initialLiquidity : CreatePoolMsg → Coins
  | balancer _ _ assets _ => sortCoins (Balancer.tokens assets)
  | stableswap _ _ liquidity .. => liquidity

/-- `Validate`, without the check that the sender is an address. -/
def validate : CreatePoolMsg → Result Unit
  | balancer _ params assets governor => do
      Balancer.validateUserSpecifiedPoolAssets env assets
      params.validate assets
      validateFutureGovernor env governor
  | stableswap _ params liquidity factors governor controller => do
      params.validate
      if factors ≠ [] then Stableswap.validateScalingFactors factors liquidity.length
      Stableswap.validatePoolLiquidity liquidity
        (Stableswap.defaultScalingFactors factors liquidity)
      ensure (controller = [] || (env.accAddressFromBech32 controller).isSome)
        (.err "decoding bech32 failed")
      validateFutureGovernor env governor

/-- `CreatePool` of the message: the pool with the given id. -/
def createPool (poolId : ℕ) : CreatePoolMsg → Result Pool
  | balancer _ params assets governor =>
    (Balancer.newBalancerPool env poolId params assets governor ctx.blockTime).map .balancer
  | stableswap _ params liquidity factors governor controller =>
    (Stableswap.newStableswapPool env poolId params liquidity factors controller governor).map
      .stableswap

end CreatePoolMsg

def maxPoolId : ℕ := 99999999999

/-- `createPoolZeroLiquidityNoCreationFee`.  The counter is a `uint64`, which the limit on
pool ids keeps from overflowing. -/
def createPoolZeroLiquidityNoCreationFee (msg : CreatePoolMsg) : Result (Pool × State) := do
  msg.validate env
  let poolId := s.nextPoolId
  let s := { s with nextPoolId := poolId + 1 }
  ensure (poolId < maxPoolId) (.err "next pool ID is greater than max pool ID")
  let p ← msg.createPool env ctx poolId
  let s := { s with poolRoutes := s.poolRoutes.insert poolId msg.getPoolType }
  ensure (p.view.id = poolId) (.err "Pool was attempted to be created with incorrect pool ID.")
  let s ← initializePool env s p msg.poolCreator
  ensure (ctx.canCreateModuleAccount p.view.address) (.err "creating pool module account")
  .ok (p, s)

def createPool (msg : CreatePoolMsg) : Result (ℕ × State) := do
  let (p, s) ← createPoolZeroLiquidityNoCreationFee env ctx s msg
  let bank ← s.bank.sendCoins env.toSdk msg.poolCreator p.view.address msg.initialLiquidity
  .ok (p.view.id, { s with bank := bank })

end MaanyDex.Gamm
