/-
`x/globalfee`: the parameters and the fee check before a transaction is executed
(`ante/fee.go`, `ante/fee_utils.go`).

A requirement is a list of coins, one for every denomination in which fees can be paid.  In a block
it is the global one; in the mempool the local prices of the node are added, denomination by
denomination, but they bring no new denominations.  A requirement of zero is not a small one:
whoever pays in such a denomination pays enough, and so does whoever pays nothing.
-/
import MaanyDex.Sdk.Coins

namespace MaanyDex.GlobalFee

/-! ### Parameters -/

structure DecCoin where
  denom : Denom
  amount : Dec

structure Params where
  minimumGasPrices : List DecCoin
  bypassMinFeeMsgTypes : List Bytes
  maxTotalBypassMinFeeMsgGasUsage : UInt64

variable (sdk : Sdk)

/-- One round of `DecCoins.Validate`, with the denominations so far. -/
def validateDecCoinsFrom (lowDenom : Option Denom) (seenDenoms : List Denom) :
    List DecCoin → Result Unit
  | [] => .ok ()
  | coin :: coins => do
      ensure (coin.denom ∉ seenDenoms) (.errf "duplicate denomination %s" coin.denom)
      ensure (sdk.validDenom coin.denom) (.errf "invalid denom: %s" coin.denom)
      -- the first denomination has none before it
      ensure (lowDenom.all fun low => compare low coin.denom = .lt)
        (.errf "denomination %s is not sorted" coin.denom)
      ensure (!coin.amount.isNegative) (.err "coin amount is negative")
      validateDecCoinsFrom (some coin.denom) (coin.denom :: seenDenoms) coins

/-- `DecCoins.Validate`. -/
def validateDecCoins (coins : List DecCoin) : Result Unit :=
  validateDecCoinsFrom sdk none [] coins

/-- `validateBypassMinFeeMsgTypes`; the URLs of messages start with a slash. -/
def validateBypassMinFeeMsgTypes (bypassMinFeeMsgTypes : List Bytes) : Result Unit :=
  bypassMinFeeMsgTypes.forM fun msgType => do
    ensure (msgType ≠ []) (.err "invalid empty bypass msg type")
    ensure (ascii "/" <+: msgType) (.errf "invalid bypass msg type name %s" msgType)

def Params.validateBasic (p : Params) : Result Unit := do
  validateDecCoins sdk p.minimumGasPrices
  validateBypassMinFeeMsgTypes p.bypassMinFeeMsgTypes

/-! ### Requirements -/

/-- What the decorator reads of a transaction; messages are the URLs of their types. -/
structure FeeTx where
  fee : Coins
  gas : UInt64
  msgs : List Bytes

/-- What the decorator reads of the context. -/
structure Ctx where
  isCheckTx : Bool
  minGasPrices : List DecCoin

variable (math : Math)

/-- The fee for one price; gas is an `int64` from here on. -/
def requiredFee (gas : UInt64) (gp : DecCoin) : Result Coin := do
  let fee ← Dec.mul math gp.amount (Dec.ofInt gas.toInt64.toInt)
  let amount ← fee.ceil.roundInt
  newCoin sdk gp.denom amount

def requiredFees (gas : UInt64) (prices : List DecCoin) : Result Coins := do
  let fees ← prices.mapM (requiredFee sdk math gas)
  .ok (sortCoins fees)

def defaultDenom : Denom := ascii "ummany"

variable (params : Params)

def getGlobalFee (gas : UInt64) : Result Coins :=
  requiredFees sdk math gas
    (if params.minimumGasPrices = [] then [⟨defaultDenom, Dec.zero⟩] else params.minimumGasPrices)

def getMinGasPrice (ctx : Ctx) (gas : UInt64) : Result Coins :=
  if ctx.minGasPrices.all (·.amount.isZero) then .ok []
  else requiredFees sdk math gas ctx.minGasPrices

def find (coins : Coins) (denom : Denom) : Option Coin :=
  match coins with
  | [] => none
  | [coin] => if coin.denom = denom then some coin else none
  | c₀ :: c₁ :: rest =>
    let midIdx := (c₀ :: c₁ :: rest).length / 2
    match (c₀ :: c₁ :: rest)[midIdx]? with
    | none => none
    | some coin =>
      if compare denom coin.denom = .lt then find ((c₀ :: c₁ :: rest).take midIdx) denom
      else if denom = coin.denom then some coin
      else find ((c₀ :: c₁ :: rest).drop (midIdx + 1)) denom
termination_by coins.length
decreasing_by
  · simp only [List.length_take, List.length_cons]
    omega
  · simp only [List.length_drop, List.length_cons]
    omega

/-- The requirement for one denomination, with local prices. -/
def combinedFee (minGasPrices : Coins) (fee : Coin) : Coin :=
  match find minGasPrices fee.denom with
  | some c => if fee.amount < c.amount then c else fee
  | none => fee

def combinedFeeRequirement (globalFees minGasPrices : Coins) : Result Coins :=
  if globalFees = [] then .error (.err "global fee cannot be empty: not found")
  else if minGasPrices = [] then .ok globalFees
  else .ok (sortCoins (globalFees.map (combinedFee minGasPrices)))

def getTxFeeRequired (ctx : Ctx) (params : Params) (gas : UInt64) : Result Coins := do
  let globalFees ← getGlobalFee sdk math params gas
  if ctx.isCheckTx then do
    let localFees ← getMinGasPrice sdk math ctx gas
    combinedFeeRequirement globalFees localFees
  else .ok globalFees

/-! ### The check -/

/-- `getNonZeroFees`: what is required, and the denominations in which nothing is. -/
def getNonZeroFees (fees : Coins) : Coins × List Denom :=
  (sortCoins (fees.filter fun gf => gf.amount ≠ 0),
    (fees.filter fun gf => gf.amount = 0).map (·.denom))

def splitCoinsByDenoms (feeCoins : Coins) (denoms : List Denom) : Coins × Coins :=
  (sortCoins (feeCoins.filter fun fc => fc.denom ∉ denoms),
    sortCoins (feeCoins.filter fun fc => fc.denom ∈ denoms))

/-- `Coins.IsAnyGTE`: some amount is at least a non-zero amount of the same denomination. -/
def isAnyGTE (cs cs' : Coins) : Result Bool :=
  if cs'.isEmpty then .ok false
  else do
    let reaches ← cs.mapM fun c => do
      let n ← amountOf sdk cs' c.denom
      .ok (decide (n ≤ c.amount) && n ≠ 0)
    .ok (reaches.any id)

def containsOnlyBypassMinFeeMsgs (msgs : List Bytes) : Bool :=
  msgs.all (· ∈ params.bypassMinFeeMsgTypes)

def coinsString (coins : Coins) : Bytes :=
  (ascii ",").intercalate (coins.map fun c => Decimal.formatInt c.amount ++ c.denom)

/-- The fee and what is required, as errors show them. -/
def gotRequired (fee : Coins) (sep : String) (feeRequired : Coins) : Bytes :=
  coinsString fee ++ ascii sep ++ coinsString feeRequired

/-- `AnteHandle` once the requirement is known, up to the next decorator. -/
def checkFee (tx : FeeTx) (feeRequired : Coins) : Result Unit := do
  ensure (tx.fee.length ≤ feeRequired.length)
    (.errf "fee is not a subset of required fees; got %s: invalid coins"
      (gotRequired tx.fee ", required: " feeRequired))
  let feeCoins := sortCoins tx.fee
  let (nonZeroCoinFeesReq, zeroCoinFeesDenomReq) := getNonZeroFees feeRequired
  let (feeCoinsNonZeroDenom, feeCoinsZeroDenom) := splitCoinsByDenoms feeCoins zeroCoinFeesDenomReq
  let subset ← denomsSubsetOf sdk feeCoinsNonZeroDenom nonZeroCoinFeesReq
  ensure subset (.errf "fee is not a subset of required fees; got %s: insufficient fee"
    (gotRequired feeCoins ", required: " feeRequired))
  let doesNotExceedMaxGasUsage := decide (tx.gas ≤ params.maxTotalBypassMinFeeMsgGasUsage)
  let allBypassMsgs := containsOnlyBypassMinFeeMsgs params tx.msgs
  if allBypassMsgs && doesNotExceedMaxGasUsage then .ok ()
  else if feeCoins = [] then
    ensure (zeroCoinFeesDenomReq ≠ []) (.errf "insufficient fees; got: %s: insufficient fee"
      (gotRequired feeCoins " required: " feeRequired))
  else if feeCoinsZeroDenom ≠ [] then .ok ()
  else do
    let enough ← isAnyGTE sdk feeCoinsNonZeroDenom nonZeroCoinFeesReq
    ensure enough (
      if allBypassMsgs && !doesNotExceedMaxGasUsage then
        .err ("Insufficient fees; bypass-min-fee-msg-types with gas consumption "
          ++ toString tx.gas.toNat ++ " exceeds the maximum allowed gas value of "
          ++ toString params.maxTotalBypassMinFeeMsgGasUsage.toNat ++ ".: insufficient fee")
      else .errf "Insufficient fees; got: %s: insufficient fee"
        (gotRequired feeCoins " required: " feeRequired))

/-- `FeeDecorator.AnteHandle`, up to the next decorator. -/
def anteHandle (ctx : Ctx) (params : Params) (tx : FeeTx) (simulate : Bool) : Result Unit :=
  if simulate then .ok ()
  else do
    let feeRequired ← getTxFeeRequired sdk math ctx params tx.gas
    checkFee sdk params tx feeRequired

end MaanyDex.GlobalFee
