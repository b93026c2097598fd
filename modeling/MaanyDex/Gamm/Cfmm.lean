/-
What all pool models of `x/gamm` share: the errors of the module and
`pool-models/internal/cfmm_common/lp.go`.

The functions of that file are methods on an interface; here they take the values that
they ask the pool for, its total shares and its liquidity.
-/
import MaanyDex.Osmomath.BinarySearch
import MaanyDex.Sdk.Coins

namespace MaanyDex.Gamm

open Osmomath

/-! ### Errors -/

/-- `errorsmod.Wrapf`, without the arguments of the format. -/
def wrapErr (desc root : String) : Fault := .err (desc ++ ": " ++ root)

variable (desc : String)

def errInvalidMathApprox : Fault := wrapErr desc "invalid calculated result"

def errLimitMaxAmount : Fault :=
  wrapErr desc "calculated amount is larger than max amount"

def errLimitMinAmount : Fault :=
  wrapErr desc "calculated amount is lesser than min amount"

def errDenomNotFoundInPool : Fault := wrapErr desc "denom does not exist in pool"

def errNotPositiveRequireAmount : Fault :=
  wrapErr desc "required amount should be positive"

def errTooFewPoolAssets : Fault :=
  .err "pool should have at least 2 assets, as they must be swapping between at least two assets"

def errTooManyPoolAssets : Fault :=
  .err "pool has too many assets (currently capped at 8 assets for both balancer and stableswap)"

abbrev newPoolAddress (poolId : ℕ) : Address := .pool poolId

lemma newPoolAddress_eq (poolId : ℕ) : newPoolAddress poolId = .pool poolId := rfl

/-! ### Shares -/

def getPoolShareDenom (poolId : ℕ) : Denom := ascii "gamm/pool/" ++ Decimal.formatUint poolId

lemma getPoolShareDenom_inj {id id' : ℕ} :
    getPoolShareDenom id = getPoolShareDenom id' ↔ id = id' := by
  rw [getPoolShareDenom, getPoolShareDenom, List.append_cancel_left_eq]
  exact Decimal.formatUint_injective.eq_iff

def oneShare : ℤ := 10 ^ 18

def initPoolSharesSupply : ℤ := oneShare * 100

def minNumOfAssetsInPool : ℕ := 2

def maxNumOfAssetsInPool : ℕ := 8

/-- What the keeper sees of a pool: who it is, its shares, and its record of what it
holds. -/
structure PoolView where
  id : ℕ
  address : Address
  totalShares : Coin
  liquidity : Denom → ℤ

/-- The record of a pool changes by `delta` and its count of shares by `n`. -/
structure Moved (delta : Denom → ℤ) (n : ℤ) (v v' : PoolView) : Prop where
  id : v'.id = v.id
  totalShares : v'.totalShares = ⟨v.totalShares.denom, v.totalShares.amount + n⟩
  liquidity : ∀ d, v'.liquidity d = v.liquidity d + delta d

/-- The collaborators of the pools. -/
structure Env extends Sdk where
  math : Math
  /-- `time.ParseDuration` returns no error. -/
  parsesDuration : Bytes → Bool

/-- `ValidateFutureGovernor`: nobody, an address, a lock duration, or a token and a lock
duration. -/
def validateFutureGovernor (env : Env) (governor : Bytes) : Result Unit :=
  let invalid : Fault := .err "invalid future governor"
  if governor = [] then .ok ()
  else if (env.accAddressFromBech32 governor).isSome then .ok ()
  else match governor.splitOn 44 with
    | [lockTime] => ensure (env.parsesDuration lockTime) invalid
    | [lpToken, lockTime] => do
        ensure (env.validDenom lpToken) invalid
        ensure (env.parsesDuration lockTime) invalid
    | _ => .error invalid

variable (math : Math) (sdk : Sdk)

/-! ### Exits -/

/-- The loop of `CalcExitPool`: the part `shareOutRatio` of each asset, rounded down;
assets of which nothing is left by that are skipped. -/
def exitedCoins (shareOutRatio : Dec) : Coins → Result Coins
  | [] => .ok []
  | asset :: rest => do
      let share ← Dec.mulInt math shareOutRatio asset.amount
      let exitAmt ← share.truncateInt
      if exitAmt ≤ 0 then exitedCoins shareOutRatio rest
      else do
        ensure (exitAmt < asset.amount) (.err "too many shares out")
        let coins ← exitedCoins shareOutRatio rest
        .ok (⟨asset.denom, exitAmt⟩ :: coins)

/-- `exitingShares * (1 - exitFee)`, as `CalcExitPool` computes it. -/
def refundedShares (exitingShares : ℤ) (exitFee : Dec) : Result Dec :=
  if exitFee.isZero then .ok (Dec.ofInt exitingShares)
  else do
    let oneSubExitFee ← Dec.sub math Dec.one exitFee
    Dec.mulInt math oneSubExitFee exitingShares

variable (totalShares : ℤ) (poolLiquidity : Coins)

def calcExitPool (exitingShares : ℤ) (exitFee : Dec) : Result Coins := do
  ensure (exitingShares < totalShares) (errLimitMaxAmount "cannot exit all shares in a pool")
  let refunded ← refundedShares math exitingShares exitFee
  let shareOutRatio ← Dec.quoInt refunded totalShares
  exitedCoins math shareOutRatio poolLiquidity

/-! ### Joins -/

/-- `LegacyMaxSortableDec`. -/
def maxSortableDec : Dec := ⟨10 ^ 36⟩

/-- The remainder of one coin of `MaximalExactRatioJoin`, added to those before it. -/
def addRemainder (minShareRatio : Dec) (remCoins : Coins) (entry : Coin × Dec) : Result Coins :=
  if entry.2 = minShareRatio then .ok remCoins
  else do
    let used ← Dec.mulInt math minShareRatio
      (amountOfNoDenomValidation poolLiquidity entry.1.denom)
    let usedAmount ← used.ceil.truncateInt
    let newAmt ← checkedInt (entry.1.amount - usedAmount)
    if newAmt = 0 then .ok remCoins else coinsAdd remCoins [⟨entry.1.denom, newAmt⟩]

/-- `MaximalExactRatioJoin`: the shares for the part of `tokensIn` that keeps the ratio of
the pool, and the rest of `tokensIn`. -/
def maximalExactRatioJoin (poolLiquidity tokensIn : Coins) : Result (ℤ × Coins) := do
  let coinShareRatios ← tokensIn.mapM fun coin =>
    Dec.quoInt (Dec.ofInt coin.amount) (amountOfNoDenomValidation poolLiquidity coin.denom)
  let minShareRatio := coinShareRatios.foldl (fun m r => if r < m then r else m) maxSortableDec
  let maxShareRatio := coinShareRatios.foldl (fun m r => if m < r then r else m) Dec.zero
  ensure (minShareRatio ≠ maxSortableDec) (.err "unexpected error in MaximalExactRatioJoin")
  let shares ← Dec.mulInt math minShareRatio totalShares
  let numShares ← shares.truncateInt
  if minShareRatio = maxShareRatio then .ok (numShares, [])
  else do
    let remCoins ← (tokensIn.zip coinShareRatios).foldlM
      (addRemainder math poolLiquidity minShareRatio) []
    .ok (numShares, remCoins)

/-- `BinarySearchSingleAssetJoin`; `estimateCoinOutGivenShares` depends on the pool. -/
def binarySearchSingleAssetJoin (tokenIn : Coin)
    (estimateCoinOutGivenShares : ℤ → Result ℤ) : Result ℤ := do
  let existingTokenLiquidity ← amountOf sdk poolLiquidity tokenIn.denom
  let product ← checkedInt (totalShares * tokenIn.amount)
  let ratio ← Dec.quoInt (Dec.ofInt product) existingTokenLiquidity
  let upperBound ← ratio.ceil.truncateInt
  binarySearch math estimateCoinOutGivenShares tokenIn.amount ⟨some Dec.one, none, .down⟩ 300 0
    upperBound

/-- `SwapAllCoinsToSingleAsset`, on a pool with the given swap method. -/
def swapAllCoinsToSingleAsset {P : Type} (swapOutAmtGivenIn : P → Coins → Result (Coin × P))
    (pool : P) (inTokens : Coins) (swapToDenom : Denom) : Result ℤ := do
  let (_, tokenOutAmt) ← inTokens.foldlM
    (fun (acc : P × ℤ) coin =>
      if coin.denom = swapToDenom then .ok acc
      else do
        let coins ← newCoins sdk [coin]
        let (tokenOut, pool) ← swapOutAmtGivenIn acc.1 coins
        let sum ← checkedInt (acc.2 + tokenOut.amount)
        .ok (pool, sum))
    (pool, amountOfNoDenomValidation inTokens swapToDenom)
  .ok tokenOutAmt

/-! ### What an exit pays -/

variable {math} {liquidity coins : Coins}

lemma exitedCoins_ok {ratio : Dec}
    (hpos : ∀ c ∈ liquidity, 0 < c.amount) (h : exitedCoins math ratio liquidity = .ok coins) :
    (∀ c ∈ coins, 0 < c.amount) ∧ ∀ d, net coins d ≤ net liquidity d
      ∧ (d ∈ liquidity.map (·.denom) → net coins d < net liquidity d) := by
  induction liquidity generalizing coins with
  | nil =>
    cases h
    simp
  | cons asset rest ih =>
    have hasset := hpos asset (by simp)
    have hrest : ∀ c ∈ rest, 0 < c.amount := fun c hc => hpos c (by simp [hc])
    obtain ⟨share, exitAmt, -, -, h⟩ := Run.bind2_ok h
    -- whether the asset is skipped or not, strictly less of it is paid than there is
    have hlt : ∃ n coins', n < asset.amount ∧ exitedCoins math ratio rest = .ok coins'
        ∧ (∀ d, net coins d = (if asset.denom = d then n else 0) + net coins' d)
        ∧ ∀ c ∈ coins, c ∈ coins' ∨ 0 < c.amount := by
      split at h
      · refine ⟨0, coins, hasset, h, fun d => ?_, fun c hc => .inl hc⟩
        simp
      · rename_i hexit
        obtain ⟨_, coins', hlt, hcoins', h⟩ := Run.bind2_ok h
        cases h
        refine ⟨exitAmt, coins', of_decide_eq_true (ensure_ok hlt), hcoins', fun d => ?_, ?_⟩
        · rw [net_cons]
        · intro c hc
          rcases List.mem_cons.mp hc with rfl | hc
          · exact .inr (not_le.mp hexit)
          · exact .inl hc
    obtain ⟨n, coins', hn, hcoins', hnet, hmem⟩ := hlt
    obtain ⟨hpos', hle⟩ := ih hrest hcoins'
    refine ⟨fun c hc => (hmem c hc).elim (hpos' c) id, fun d => ?_⟩
    obtain ⟨hled, hltd⟩ := hle d
    rw [hnet, net_cons, List.map_cons, List.mem_cons]
    constructor
    · split <;> omega
    · rintro (rfl | hd)
      · rw [if_pos rfl, if_pos rfl]
        omega
      · have := hltd hd
        split <;> omega

/-- **An exit never pays all that the pool has of an asset.** -/
lemma calcExitPool_ok {totalShares exitingShares : ℤ} {exitFee : Dec}
    (hpos : ∀ c ∈ liquidity, 0 < c.amount)
    (h : calcExitPool math totalShares liquidity exitingShares exitFee = .ok coins) :
    ∀ d ∈ liquidity.map (·.denom), net coins d < net liquidity d := by
  obtain ⟨_, _, _, -, -, -, h⟩ := Run.bind3_ok h
  intro d hd
  exact ((exitedCoins_ok hpos h).2 d).2 hd

end MaanyDex.Gamm
