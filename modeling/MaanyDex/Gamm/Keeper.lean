/-
The keeper of `x/gamm`: pools behind one interface, the store, and the operations of
`keeper/swap.go`, `keeper/share.go`, `keeper/pool_service.go` and
`keeper/total_liquidity.go`.

A pool is loaded, poked, moved, and written back, and the bank settles what the move asks
for.  The code passes pools as pointers; operations that change one return it.

The store of `x/poolmanager` is part of the state, since both modules share one
transaction.  One field is not part of the code: `swaps` is the history of the swaps for an
exact amount in, with the pools as they were before.
-/
import MaanyDex.Gamm.BalancerEffects
import MaanyDex.Gamm.Stableswap

namespace MaanyDex.Gamm

/-! ### Pools -/

/-- `CFMMPoolI`: the pools of the module. -/
inductive Pool where
  | balancer (p : Balancer.Pool)
  | stableswap (p : Stableswap.Pool)

namespace Pool

/-- What the keeper sees of a pool. -/
def view : Pool → PoolView
  | balancer p => p.view
  | stableswap p => p.view

lemma view_address (p : Pool) : p.view.address = .pool p.view.id := by
  cases p with
  | balancer p => exact p.address_eq
  | stableswap p => exact p.address_eq

def Wf : Pool → Prop
  | balancer p => p.Wf
  | stableswap p => p.Wf

def getSpreadFactor : Pool → Dec
  | balancer p => p.poolParams.swapFee
  | stableswap p => p.poolParams.swapFee

def getExitFee : Pool → Dec
  | balancer p => p.poolParams.exitFee
  | stableswap p => p.poolParams.exitFee

def getTotalPoolLiquidity : Pool → Result Coins
  | balancer p => Balancer.poolAssetsCoins p.poolAssets
  | stableswap p => .ok p.poolLiquidity

variable (env : Env)

/-- `PokePool`, for the pools that have it. -/
def poke (blockTime : ℤ) : Pool → Result Pool
  | balancer p => (Balancer.pokePool env p blockTime).map balancer
  | stableswap p => .ok (stableswap p)

def calcOutAmtGivenIn (tokensIn : Coins) (tokenOutDenom : Denom) (spreadFactor : Dec) :
    Pool → Result Coin
  | balancer p => Balancer.calcOutAmtGivenIn env p tokensIn tokenOutDenom spreadFactor
  | stableswap p => Stableswap.calcOutAmtGivenIn env p tokensIn tokenOutDenom spreadFactor

def swapOutAmtGivenIn (tokensIn : Coins) (tokenOutDenom : Denom) (spreadFactor : Dec) :
    Pool → Result (Coin × Pool)
  | balancer p => (Balancer.swapOutAmtGivenIn env p tokensIn tokenOutDenom spreadFactor).map
      (Prod.map id balancer)
  | stableswap p => (Stableswap.swapOutAmtGivenIn env p tokensIn tokenOutDenom spreadFactor).map
      (Prod.map id stableswap)

def calcInAmtGivenOut (tokensOut : Coins) (tokenInDenom : Denom) (spreadFactor : Dec) :
    Pool → Result Coin
  | balancer p => Balancer.calcInAmtGivenOut env p tokensOut tokenInDenom spreadFactor
  | stableswap p => Stableswap.calcInAmtGivenOut env p tokensOut tokenInDenom spreadFactor

def swapInAmtGivenOut (tokensOut : Coins) (tokenInDenom : Denom) (spreadFactor : Dec) :
    Pool → Result (Coin × Pool)
  | balancer p => (Balancer.swapInAmtGivenOut env p tokensOut tokenInDenom spreadFactor).map
      (Prod.map id balancer)
  | stableswap p => (Stableswap.swapInAmtGivenOut env p tokensOut tokenInDenom spreadFactor).map
      (Prod.map id stableswap)

def joinPool (tokensIn : Coins) (spreadFactor : Dec) : Pool → Result (ℤ × Pool)
  | balancer p => (Balancer.joinPool env p tokensIn spreadFactor).map (Prod.map id balancer)
  | stableswap p => (Stableswap.joinPool env p tokensIn spreadFactor).map (Prod.map id stableswap)

def joinPoolNoSwap (tokensIn : Coins) : Pool → Result (ℤ × Pool)
  | balancer p => (Balancer.joinPoolNoSwap env p tokensIn).map (Prod.map id balancer)
  | stableswap p => (Stableswap.joinPoolNoSwap env p tokensIn).map (Prod.map id stableswap)

def exitPool (exitingShares : ℤ) (exitFee : Dec) : Pool → Result (Coins × Pool)
  | balancer p => (Balancer.exitPool env p exitingShares exitFee).map (Prod.map id balancer)
  | stableswap p => (Stableswap.exitPool env p exitingShares exitFee).map (Prod.map id stableswap)

/-- The power that a swap for an exact amount in computes is not positive.  Only weighted
pools compute powers. -/
def Underflows (tokenIn : Coin) (tokenOutDenom : Denom) (spreadFactor : Dec) : Pool → Prop
  | balancer p => ∃ power,
      Balancer.swapPower env p tokenIn tokenOutDenom spreadFactor = .ok power ∧ power.raw ≤ 0
  | stableswap _ => False

instance (tokenIn : Coin) (tokenOutDenom : Denom) (spreadFactor : Dec) (p : Pool) :
    Decidable (p.Underflows env tokenIn tokenOutDenom spreadFactor) :=
  match p with
  | balancer p =>
    match h : Balancer.swapPower env p tokenIn tokenOutDenom spreadFactor with
    | .ok power => decidable_of_iff (power.raw ≤ 0)
        ⟨fun hle => ⟨power, h, hle⟩, fun ⟨_, h', hle⟩ => by cases h.symm.trans h'; exact hle⟩
    | .error _ => isFalse fun ⟨_, h', _⟩ => by cases h.symm.trans h'
  | stableswap _ => isFalse id

end Pool

/-! ### The store -/

inductive PoolType where
  | balancer
  | stableswap
  | concentrated
  | cosmWasm
  deriving DecidableEq

/-- A call of `SwapExactAmountIn`. -/
structure SwapCall where
  pool : Pool
  tokenIn : Coin
  tokenOutDenom : Denom
  spreadFactor : Dec

/-- `KeyPrefixPools`: pools are stored under their own ids. -/
structure PoolStore where
  entries : AList fun _ : ℕ => Pool
  keyed : ∀ id p, entries.lookup id = some p → p.view.id = id

namespace PoolStore

def empty : PoolStore := ⟨∅, fun _ _ h => by cases h⟩

def lookup (ps : PoolStore) (id : ℕ) : Option Pool := ps.entries.lookup id

def set (ps : PoolStore) (p : Pool) : PoolStore where
  entries := ps.entries.insert p.view.id p
  keyed id q h := by
    by_cases hid : id = p.view.id
    · subst hid
      rw [AList.lookup_insert] at h
      cases h
      rfl
    · rw [AList.lookup_insert_ne hid] at h
      exact ps.keyed id q h

variable {ps : PoolStore} {id : ℕ} {p : Pool}

lemma id_eq (h : ps.lookup id = some p) : p.view.id = id := ps.keyed id p h

@[simp] lemma lookup_set_self (ps : PoolStore) (p : Pool) : (ps.set p).lookup p.view.id = some p :=
  AList.lookup_insert _

lemma lookup_set_of_ne (h : id ≠ p.view.id) : (ps.set p).lookup id = ps.lookup id :=
  AList.lookup_insert_ne h

end PoolStore

/-- The stores of `x/gamm` and `x/poolmanager`, and the bank. -/
structure State where
  bank : Bank
  pools : PoolStore
  /-- `KeyTotalLiquidity`. -/
  denomLiquidity : AList fun _ : Denom => ℤ
  /-- `KeyNextGlobalPoolId`. -/
  nextPoolId : ℕ
  /-- `SwapModuleRouterPrefix`. -/
  poolRoutes : AList fun _ : ℕ => PoolType
  /-- The history of swaps for an exact amount in. -/
  swaps : List SwapCall

/-- What a transaction finds besides the stores: the time of the block, the taker fee of
each pair of denominations, and who does not pay it. -/
structure Ctx where
  blockTime : ℤ
  takerFee : Denom → Denom → Dec
  reducedFeeWhitelist : Address → Bool
  /-- `CanCreateModuleAccountAtAddr`. -/
  canCreateModuleAccount : Address → Bool

def moduleName : Bytes := ascii "gamm"

variable (env : Env) (ctx : Ctx) (s : State)

/-- `GetPoolAndPoke`, `GetPool`, `GetCFMMPool`: all pools are active. -/
def getPoolAndPoke (poolId : ℕ) : Result Pool :=
  match s.pools.lookup poolId with
  | none => .error (.err "pool does not exist")
  | some p => p.poke env ctx.blockTime

variable (p : Pool)

def setPool : State :=
  { s with pools := s.pools.set p }

def getDenomLiquidity (denom : Denom) : ℤ :=
  (s.denomLiquidity.lookup denom).getD 0

/-- One round of `RecordTotalLiquidityIncrease`. -/
def recordDenomLiquidityIncrease (coin : Coin) : Result State := do
  let amount ← checkedInt (getDenomLiquidity s coin.denom + coin.amount)
  .ok { s with denomLiquidity := s.denomLiquidity.insert coin.denom amount }

def recordTotalLiquidityIncrease (coins : Coins) : Result State :=
  coins.foldlM recordDenomLiquidityIncrease s

/-- `GetTotalLiquidity`; the iteration is in the order of the denominations. -/
def getTotalLiquidity : Result Coins :=
  (s.denomLiquidity.entries.insertionSort fun e e' => compare e.1 e'.1 ≠ .gt).foldlM
    (fun coins e => do
      let coin ← newCoin env.toSdk e.1 e.2
      coinsAdd coins [coin]) []

/-! ### Shares: `share.go` -/

def mintPoolShareToAccount (addr : Address) (amount : ℤ) : Result State := do
  let coin ← newCoin env.toSdk (getPoolShareDenom p.view.id) amount
  let amt ← newCoins env.toSdk [coin]
  let bank ← s.bank.mintCoins env.toSdk moduleName amt
  let bank ← bank.sendCoinsFromModuleToAccount env.toSdk moduleName addr amt
  .ok { s with bank := bank }

def burnPoolShareFromAccount (addr : Address) (amount : ℤ) : Result State := do
  let coin ← newCoin env.toSdk (getPoolShareDenom p.view.id) amount
  let bank ← s.bank.sendCoinsFromAccountToModule env.toSdk addr moduleName [coin]
  let bank ← bank.burnCoins env.toSdk moduleName [coin]
  .ok { s with bank := bank }

def applyJoinPoolStateChange (joiner : Address) (numShares : ℤ)
    (joinCoins : Coins) : Result State := do
  let bank ← s.bank.sendCoins env.toSdk joiner p.view.address joinCoins
  let s ← mintPoolShareToAccount env { s with bank := bank } p joiner numShares
  .ok (setPool s p)

def applyExitPoolStateChange (exiter : Address) (numShares : ℤ)
    (exitCoins : Coins) : Result State := do
  let bank ← s.bank.sendCoins env.toSdk p.view.address exiter exitCoins
  let s ← burnPoolShareFromAccount env { s with bank := bank } p exiter numShares
  .ok (setPool s p)

/-! ### Swaps: `swap.go` -/

variable (sender : Address)

def updatePoolForSwap (tokenIn tokenOut : Coin) : Result State := do
  let s := setPool s p
  let bank ← s.bank.sendCoins env.toSdk sender p.view.address [tokenIn]
  let bank ← bank.sendCoins env.toSdk p.view.address sender [tokenOut]
  .ok { s with bank := bank }

def swapExactAmountIn (s : State) (sender : Address) (p : Pool) (tokenIn : Coin)
    (tokenOutDenom : Denom) (tokenOutMinAmount : ℤ) (spreadFactor : Dec) :
    Result (ℤ × Pool × State) := do
  ensure (tokenIn.denom ≠ tokenOutDenom) (.err "cannot trade same denomination in and out")
  let half ← Dec.quoInt p.getSpreadFactor 2
  ensure (half ≤ spreadFactor)
    (.err "given spread factor must be greater than or equal to half of the pool's spread factor")
  let (tokenOut, p') ← p.swapOutAmtGivenIn env [tokenIn] tokenOutDenom spreadFactor
  ensure (0 < tokenOut.amount) (errInvalidMathApprox "token amount must be positive")
  ensure (tokenOutMinAmount ≤ tokenOut.amount) (errLimitMinAmount "token is lesser than min amount")
  let s ← updatePoolForSwap env { s with swaps := s.swaps ++ [⟨p, tokenIn, tokenOutDenom,
    spreadFactor⟩] } p' sender tokenIn tokenOut
  .ok (tokenOut.amount, p', s)

def swapExactAmountOut (s : State) (sender : Address) (p : Pool) (tokenInDenom : Denom)
    (tokenInMaxAmount : ℤ) (tokenOut : Coin) (spreadFactor : Dec) :
    Result (ℤ × Pool × State) := do
  ensure (tokenInDenom ≠ tokenOut.denom) (.err "cannot trade same denomination in and out")
  let stored ← getPoolAndPoke env ctx s p.view.id
  let liquidity ← stored.getTotalPoolLiquidity
  let poolOutBal ← amountOf env.toSdk liquidity tokenOut.denom
  ensure (tokenOut.amount < poolOutBal)
    (wrapErr "can't get more tokens out than there are tokens in the pool"
      "tx is trying to get more tokens out of the pool than exist")
  let (tokenIn, p') ← p.swapInAmtGivenOut env [tokenOut] tokenInDenom spreadFactor
  ensure (0 < tokenIn.amount) (errInvalidMathApprox "token amount is zero or negative")
  ensure (tokenIn.amount ≤ tokenInMaxAmount)
    (errLimitMaxAmount "Swap requires an amount, which is greater than the amount given")
  let s ← updatePoolForSwap env s p' sender tokenIn tokenOut
  .ok (tokenIn.amount, p', s)

def calcOutAmtGivenIn (p : Pool) (tokenIn : Coin) (tokenOutDenom : Denom) (spreadFactor : Dec) :
    Result Coin := do
  let tokensIn ← newCoins env.toSdk [tokenIn]
  p.calcOutAmtGivenIn env tokensIn tokenOutDenom spreadFactor

def calcInAmtGivenOut (p : Pool) (tokenOut : Coin) (tokenInDenom : Denom) (spreadFactor : Dec) :
    Result Coin := do
  let tokensOut ← newCoins env.toSdk [tokenOut]
  p.calcInAmtGivenOut env tokensOut tokenInDenom spreadFactor

/-! ### Joins and exits: `pool_service.go` -/

/-- `InitializePool`, up to the metadata of the share denomination. -/
def initializePool : Result State := do
  ensure p.getExitFee.isZero (.err "can not create pool with non zero exit fee")
  let s ← mintPoolShareToAccount env s p sender p.view.totalShares.amount
  let s := setPool s p
  let liquidity ← p.getTotalPoolLiquidity
  recordTotalLiquidityIncrease s liquidity

/-- One round of `getMaximalNoSwapLPAmount`. -/
def neededCoin (shareRatio : Dec) (coin : Coin) : Result Coin := do
  let product ← Dec.mul env.math (Dec.ofInt coin.amount) shareRatio
  let neededAmt ← product.ceil.roundInt
  ensure (0 < neededAmt) (errInvalidMathApprox "Too few shares out wanted")
  .ok ⟨coin.denom, neededAmt⟩

def getMaximalNoSwapLPAmount (shareOutAmount : ℤ) : Result Coins := do
  let shareRatio ← Dec.quoInt (Dec.ofInt shareOutAmount) p.view.totalShares.amount
  ensure (0 < shareRatio.raw) (errInvalidMathApprox "Too few shares out wanted. ")
  let poolLiquidity ← p.getTotalPoolLiquidity
  poolLiquidity.foldlM (fun neededLpLiquidity coin => do
    let needed ← neededCoin env shareRatio coin
    coinsAdd neededLpLiquidity [needed]) []

/-- The comparison of `JoinPoolNoSwap` with the limits of the sender. -/
def checkTokenInMaxs (neededLpLiquidity tokenInMaxs : Coins) : Result Unit :=
  if tokenInMaxs = [] then .ok ()
  else do
    let subset ← denomsSubsetOf env.toSdk neededLpLiquidity tokenInMaxs
    ensure subset (errLimitMaxAmount
      "TokenInMaxs does not include all the tokens that are part of the target pool")
    let subset ← denomsSubsetOf env.toSdk tokenInMaxs neededLpLiquidity
    ensure subset (errDenomNotFoundInPool
      "TokenInMaxs includes tokens that are not part of the target pool")
    let covered ← isAllGTE env.toSdk tokenInMaxs neededLpLiquidity
    ensure covered (errLimitMaxAmount
      "TokenInMaxs is less than the needed LP liquidity to this JoinPoolNoSwap")

def joinPoolNoSwap (s : State) (sender : Address) (poolId : ℕ) (shareOutAmount : ℤ)
    (tokenInMaxs : Coins) : Result (Coins × ℤ × State) := do
  let p ← getPoolAndPoke env ctx s poolId
  let neededLpLiquidity ← getMaximalNoSwapLPAmount env p shareOutAmount
  checkTokenInMaxs env neededLpLiquidity tokenInMaxs
  let (sharesOut, p) ← p.joinPoolNoSwap env neededLpLiquidity
  let s ← applyJoinPoolStateChange env s p sender sharesOut neededLpLiquidity
  .ok (neededLpLiquidity, sharesOut, s)

def joinSwapExactAmountIn (s : State) (sender : Address) (poolId : ℕ) (tokensIn : Coins)
    (shareOutMinAmount : ℤ) : Result (ℤ × State) := do
  let p ← getPoolAndPoke env ctx s poolId
  let (sharesOut, p) ← p.joinPool env tokensIn p.getSpreadFactor
  ensure (shareOutMinAmount ≤ sharesOut) (errLimitMinAmount "too much slippage")
  ensure (0 < sharesOut) (errInvalidMathApprox "share amount is zero or negative")
  let s ← applyJoinPoolStateChange env s p sender sharesOut tokensIn
  .ok (sharesOut, s)

/-- `JoinSwapShareAmountOut`; only weighted pools have the extension. -/
def joinSwapShareAmountOut (s : State) (sender : Address) (poolId : ℕ) (tokenInDenom : Denom)
    (shareOutAmount tokenInMaxAmount : ℤ) : Result (ℤ × State) := do
  let p ← getPoolAndPoke env ctx s poolId
  match p with
  | .stableswap _ => .error (.err "pool does not support this kind of join")
  | .balancer p => do
      let tokenInAmount ← Balancer.calcTokenInShareAmountOut env p tokenInDenom shareOutAmount
        p.poolParams.swapFee
      ensure (tokenInAmount ≤ tokenInMaxAmount)
        (errLimitMaxAmount "resulted tokens is larger than the max amount")
      let coin ← newCoin env.toSdk tokenInDenom tokenInAmount
      let tokenIn ← newCoins env.toSdk [coin]
      let p ← Balancer.increaseLiquidity p shareOutAmount tokenIn
      let s ← applyJoinPoolStateChange env s (.balancer p) sender shareOutAmount tokenIn
      .ok (tokenInAmount, s)

/-- The comparison of `ExitPool` with the limits of the sender. -/
def checkTokenOutMins (exitCoins tokenOutMins : Coins) : Result Unit := do
  let subset ← denomsSubsetOf env.toSdk tokenOutMins exitCoins
  ensure subset (errLimitMinAmount "Exit pool returned less than the minimum tokens out")
  let more ← isAnyGT env.toSdk tokenOutMins exitCoins
  ensure (!more) (errLimitMinAmount "Exit pool returned less than the minimum tokens out")

def exitPool (s : State) (sender : Address) (poolId : ℕ) (shareInAmount : ℤ)
    (tokenOutMins : Coins) : Result (Coins × State) := do
  let p ← getPoolAndPoke env ctx s poolId
  ensure (shareInAmount < p.view.totalShares.amount) (errInvalidMathApprox
    "Trying to exit >= the number of shares contained in the pool.")
  ensure (0 < shareInAmount) (errInvalidMathApprox "Trying to exit a negative amount of shares")
  let (exitCoins, p) ← p.exitPool env shareInAmount p.getExitFee
  checkTokenOutMins env exitCoins tokenOutMins
  let s ← applyExitPoolStateChange env s p sender shareInAmount exitCoins
  .ok (exitCoins, s)

/-- One round of `ExitSwapShareAmountIn`: swap an exited coin, on the same pool object. -/
def swapExited (tokenOutDenom : Denom) (spreadFactor : Dec)
    (acc : ℤ × Pool × State) (coin : Coin) : Result (ℤ × Pool × State) :=
  if coin.denom = tokenOutDenom then .ok acc
  else do
    let (swapOut, p, s) ←
      swapExactAmountIn env acc.2.2 sender acc.2.1 coin tokenOutDenom 0 spreadFactor
    let tokenOutAmount ← checkedInt (acc.1 + swapOut)
    .ok (tokenOutAmount, p, s)

def exitSwapShareAmountIn (s : State) (sender : Address) (poolId : ℕ) (tokenOutDenom : Denom)
    (shareInAmount tokenOutMinAmount : ℤ) : Result (ℤ × State) := do
  let (exitCoins, s) ← exitPool env ctx s sender poolId shareInAmount []
  let p ← getPoolAndPoke env ctx s poolId
  let exited ← amountOf env.toSdk exitCoins tokenOutDenom
  let (tokenOutAmount, _, s) ←
    exitCoins.foldlM (swapExited env sender tokenOutDenom p.getSpreadFactor) (exited, p, s)
  ensure (tokenOutMinAmount ≤ tokenOutAmount)
    (errLimitMinAmount "Provided LP shares yield too few tokens out")
  .ok (tokenOutAmount, s)

/-- `ExitSwapExactAmountOut`; only weighted pools have the extension. -/
def exitSwapExactAmountOut (s : State) (sender : Address) (poolId : ℕ) (tokenOut : Coin)
    (shareInMaxAmount : ℤ) : Result (ℤ × State) := do
  let p ← getPoolAndPoke env ctx s poolId
  match p with
  | .stableswap _ => .error (.err "pool does not support this kind of exit")
  | .balancer p => do
      let (shareInAmount, p) ← Balancer.exitSwapExactAmountOut env p tokenOut shareInMaxAmount
      let s ← applyExitPoolStateChange env s (.balancer p) sender shareInAmount [tokenOut]
      .ok (shareInAmount, s)

end MaanyDex.Gamm
