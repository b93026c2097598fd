/-
The messages of `x/gamm` that move liquidity (`types/msgs.go`, `keeper/msg_server.go`), and
transactions.

A transaction is signed by the sender of its message, is checked without state, and is
committed only if the handler returns no error.  Pool accounts have no key, so nobody signs
for them.  What else a transaction sees, the time of the block and the fee parameters, may
be different every time.
-/
import MaanyDex.Gamm.PoolManager

namespace MaanyDex.Gamm

def errNotPositiveCriteria : Fault := .err "min out amount or max in amount should be positive"

inductive Msg where
  /-- `MsgCreateBalancerPool`, `MsgCreateStableswapPool`. -/
  | createPool (msg : CreatePoolMsg)
  /-- `MsgJoinPool`. -/
  | joinPool (sender : Address) (poolId : ℕ) (shareOutAmount : ℤ) (tokenInMaxs : Coins)
  /-- `MsgJoinSwapExternAmountIn`. -/
  | joinSwapExternAmountIn (sender : Address) (poolId : ℕ) (tokenIn : Coin)
      (shareOutMinAmount : ℤ)
  /-- `MsgJoinSwapShareAmountOut`. -/
  | joinSwapShareAmountOut (sender : Address) (poolId : ℕ) (tokenInDenom : Denom)
      (shareOutAmount tokenInMaxAmount : ℤ)
  /-- `MsgExitPool`. -/
  | exitPool (sender : Address) (poolId : ℕ) (shareInAmount : ℤ) (tokenOutMins : Coins)
  /-- `MsgExitSwapExternAmountOut`. -/
  | exitSwapExternAmountOut (sender : Address) (poolId : ℕ) (tokenOut : Coin)
      (shareInMaxAmount : ℤ)
  /-- `MsgExitSwapShareAmountIn`. -/
  | exitSwapShareAmountIn (sender : Address) (poolId : ℕ) (tokenOutDenom : Denom)
      (shareInAmount tokenOutMinAmount : ℤ)
  /-- `MsgSwapExactAmountIn`. -/
  | swapExactAmountIn (sender : Address) (routes : List SwapAmountInRoute) (tokenIn : Coin)
      (tokenOutMinAmount : ℤ)
  /-- `MsgSwapExactAmountOut`. -/
  | swapExactAmountOut (sender : Address) (routes : List SwapAmountOutRoute)
      (tokenInMaxAmount : ℤ) (tokenOut : Coin)
  /-- The message of the bank; anybody may be paid, pools as well. -/
  | send (sender recipient : Address) (amount : Coins)

def isPoolAccount : Address → Bool
  | .pool _ => true
  | _ => false

variable (env : Env) (ctx : Ctx)

namespace Msg

/-- `GetSigners`. -/
def signer : Msg → Address
  | createPool msg => msg.poolCreator
  | joinPool sender .. => sender
  | joinSwapExternAmountIn sender .. => sender
  | joinSwapShareAmountOut sender .. => sender
  | exitPool sender .. => sender
  | exitSwapExternAmountOut sender .. => sender
  | exitSwapShareAmountIn sender .. => sender
  | swapExactAmountIn sender .. => sender
  | swapExactAmountOut sender .. => sender
  | send sender .. => sender

/-- `ValidateBasic`, for messages whose sender is an address. -/
def validateBasic : Msg → Result Unit
  | createPool msg => msg.validate env
  | joinPool _ _ shareOutAmount tokenInMaxs => do
      ensure (0 < shareOutAmount) (errNotPositiveRequireAmount "share out amount")
      ensure (isValid env.toSdk tokenInMaxs) (.err "invalid coins")
  | joinSwapExternAmountIn _ _ tokenIn shareOutMinAmount => do
      ensure (isValid env.toSdk [tokenIn]) (.err "invalid coins")
      ensure (0 < shareOutMinAmount) errNotPositiveCriteria
  | joinSwapShareAmountOut _ _ tokenInDenom shareOutAmount tokenInMaxAmount => do
      ensure (env.validDenom tokenInDenom) (.err "invalid denom")
      ensure (0 < shareOutAmount) (errNotPositiveRequireAmount "share out amount")
      ensure (0 < tokenInMaxAmount) errNotPositiveCriteria
  | exitPool _ _ shareInAmount tokenOutMins => do
      ensure (0 < shareInAmount) (errNotPositiveRequireAmount "share in amount")
      ensure (isValid env.toSdk tokenOutMins) (.err "invalid coins")
  | exitSwapExternAmountOut _ _ tokenOut shareInMaxAmount => do
      ensure (isValid env.toSdk [tokenOut]) (.err "invalid coins")
      ensure (0 < shareInMaxAmount) errNotPositiveCriteria
  | exitSwapShareAmountIn _ _ tokenOutDenom shareInAmount tokenOutMinAmount => do
      ensure (env.validDenom tokenOutDenom) (.err "invalid denom")
      ensure (0 < shareInAmount) (errNotPositiveRequireAmount "share in amount")
      ensure (0 < tokenOutMinAmount) errNotPositiveCriteria
  | swapExactAmountIn _ routes tokenIn tokenOutMinAmount => do
      validateRoutes env (.err "routes not defined") (routes.map (·.tokenOutDenom))
      ensure (isValid env.toSdk [tokenIn]) (.err "invalid coins")
      ensure (0 < tokenOutMinAmount) errNotPositiveCriteria
  | swapExactAmountOut _ routes tokenInMaxAmount tokenOut => do
      validateRoutes env (.err "routes not defined") (routes.map (·.tokenInDenom))
      ensure (isValid env.toSdk [tokenOut]) (.err "invalid coins")
      ensure (0 < tokenInMaxAmount) errNotPositiveCriteria
  | send _ _ amount => ensure (isValid env.toSdk amount) (.err "invalid coins")

/-- The message servers, up to the responses. -/
def handle (s : State) : Msg → Result State
  | createPool msg => (Gamm.createPool env ctx s msg).map (·.2)
  | joinPool sender poolId shareOutAmount tokenInMaxs =>
    (joinPoolNoSwap env ctx s sender poolId shareOutAmount tokenInMaxs).map (·.2.2)
  | joinSwapExternAmountIn sender poolId tokenIn shareOutMinAmount =>
    (joinSwapExactAmountIn env ctx s sender poolId [tokenIn] shareOutMinAmount).map (·.2)
  | joinSwapShareAmountOut sender poolId tokenInDenom shareOutAmount tokenInMaxAmount =>
    (Gamm.joinSwapShareAmountOut env ctx s sender poolId tokenInDenom shareOutAmount
      tokenInMaxAmount).map (·.2)
  | exitPool sender poolId shareInAmount tokenOutMins =>
    (Gamm.exitPool env ctx s sender poolId shareInAmount tokenOutMins).map (·.2)
  | exitSwapExternAmountOut sender poolId tokenOut shareInMaxAmount =>
    (exitSwapExactAmountOut env ctx s sender poolId tokenOut shareInMaxAmount).map (·.2)
  | exitSwapShareAmountIn sender poolId tokenOutDenom shareInAmount tokenOutMinAmount =>
    (Gamm.exitSwapShareAmountIn env ctx s sender poolId tokenOutDenom shareInAmount
      tokenOutMinAmount).map (·.2)
  | swapExactAmountIn sender routes tokenIn tokenOutMinAmount =>
    (routeExactAmountIn env ctx s sender routes tokenIn tokenOutMinAmount).map (·.2)
  | swapExactAmountOut sender routes tokenInMaxAmount tokenOut =>
    (routeExactAmountOut env ctx s sender routes tokenInMaxAmount tokenOut).map (·.2)
  | send sender recipient amount => do
      let bank ← s.bank.sendCoins env.toSdk sender recipient amount
      .ok { s with bank := bank }

end Msg

/-- A transaction, with what it finds. -/
structure Tx where
  ctx : Ctx
  msg : Msg

def deliverTx (s : State) (tx : Tx) : Result State := do
  ensure (!isPoolAccount tx.msg.signer) (.err "signature verification failed")
  tx.msg.validateBasic env
  tx.msg.handle env tx.ctx s

/-- States in which no pool was ever created: no shares are in circulation. -/
structure Initial (s : State) : Prop where
  pools : s.pools = .empty
  denomLiquidity : s.denomLiquidity = ∅
  swaps : s.swaps = []
  shares : ∀ id, s.bank.supply (getPoolShareDenom id) = 0

/-! ### A chain to run -/

/-- The collaborators of concrete runs. -/
def chainEnv : Env where
  toSdk := chainSdk
  math := chainMath
  parsesDuration _ := true

/-- Nothing is charged for trading, except what `takerFee` says. -/
def chainCtx (takerFee : Denom → Denom → Dec) : Ctx where
  blockTime := 0
  takerFee := takerFee
  reducedFeeWhitelist a := a = .account (ascii "dex1carol")
  canCreateModuleAccount _ := true

/-- A bank in which `holders` own what is listed, issued by other modules. -/
def chainBank : List (Address × Coin) → Bank
  | [] => Bank.empty
  | (a, c) :: holders =>
    let b := chainBank holders
    if h : b.ledger.supply c.denom + c.amount.toNat < 2 ^ 256 then {
      ledger := b.ledger.mint a c.denom c.amount.toNat
      events := b.events
      bounded := by
        intro d
        rw [Ledger.supply_mint]
        split
        · rename_i e
          rw [e]
          exact h
        · exact b.bounded d }
    else b

/-- The chain before any pool is created. -/
def chainState (holders : List (Address × Coin)) : State where
  bank := chainBank holders
  pools := .empty
  denomLiquidity := ∅
  nextPoolId := 1
  poolRoutes := ∅
  swaps := []

variable {holders : List (Address × Coin)}

lemma supply_chainBank {d : Denom}
    (h : ∀ e ∈ holders, e.2.denom ≠ d) : (chainBank holders).supply d = 0 := by
  induction holders with
  | nil => rfl
  | cons e holders ih =>
    obtain ⟨a, c⟩ := e
    have hrest := ih fun e he => h e (by simp [he])
    have hne : d ≠ c.denom := Ne.symm (h (a, c) (by simp))
    rw [chainBank]
    split
    · show (Ledger.mint _ _ _ _).supply d = 0
      rw [Ledger.supply_mint, if_neg hne]
      exact hrest
    · exact hrest

lemma initial_chainState
    (h : ∀ e ∈ holders, e.2.denom.head? ≠ some 103) : Initial (chainState holders) where
  pools := rfl
  denomLiquidity := rfl
  swaps := rfl
  shares id := by
    refine supply_chainBank fun e he heq => h e he ?_
    rw [heq]
    rfl

/-- Alice, who creates pools and trades. -/
def alice : Address := .account (ascii "dex1alice")

/-- A weighted pool without fees. -/
def createBalancer (assets : List Balancer.PoolAsset) : Msg :=
  .createPool (.balancer alice ⟨Dec.zero, Dec.zero, none⟩ assets [])

def swapFor (tokenIn : Coin) (tokenOutDenom : Denom) : Msg :=
  .swapExactAmountIn alice [⟨1, tokenOutDenom⟩] tokenIn 1

/-- A run of the chain without taker fees. -/
def chainRun (s : State) (msgs : List Msg) : State :=
  Run.run (deliverTx chainEnv) s (msgs.map (Tx.mk (chainCtx fun _ _ => Dec.zero)))

/-- Carol, who is on the whitelist. -/
def carol : Address := .account (ascii "dex1carol")

/-- Two pools, from `foo` to `bar` and from `bar` to `baz`. -/
def twoPools : State :=
  chainRun (chainState [(alice, ⟨ascii "foo", 10 ^ 6⟩), (alice, ⟨ascii "bar", 10 ^ 6⟩),
      (alice, ⟨ascii "baz", 10 ^ 6⟩), (carol, ⟨ascii "foo", 10 ^ 6⟩)])
    [createBalancer [⟨⟨ascii "foo", 1000⟩, 1⟩, ⟨⟨ascii "bar", 1000⟩, 1⟩],
      createBalancer [⟨⟨ascii "bar", 1000⟩, 1⟩, ⟨⟨ascii "baz", 1000⟩, 1⟩]]

/-- A taker fee of a tenth for all pairs. -/
def tenthCtx : Ctx := chainCtx fun _ _ => ⟨10 ^ 17⟩

end MaanyDex.Gamm
