/-
`x/feeburner`: at the end of every block the fees on the redistribution account are burned, if
they are in the native denomination, and sent to the treasury otherwise.

The bank is seen from the redistribution account: `balances` are the entries of this account in
the store of the bank, by denomination.  Burning and sending coins that are there is assumed to
succeed.
-/
import MaanyDex.Sdk.Coins

namespace MaanyDex.FeeBurner

variable (sdk : Sdk)

/-- `ConsumerRedistributeName`. -/
def redistribution : Address := .moduleAccount (ascii "cons_redistribute")

/-! ### Parameters -/

/-- `Params`; nothing reads the reserve address. -/
structure Params where
  neutronDenom : Denom
  treasuryAddress : Bytes

def Params.validate (p : Params) : Result Unit := do
  ensure (p.neutronDenom ≠ []) (.err "NeutronDenom must not be empty")
  ensure (p.treasuryAddress = [] || (sdk.accAddressFromBech32 p.treasuryAddress).isSome)
    (.err "invalid Reserve address")

/-- The state of the module, and the redistribution account.  The last field is kept for the
record: the coins that `RecordBurnedFees` was called for, the last one first. -/
structure World where
  params : Params
  /-- `KeyBurnedFees`; an empty denomination stands for nothing recorded. -/
  total : Coin
  balances : Std.ExtTreeMap Denom ℕ
  burned : List Coin

/-! ### The account -/

variable (w : World)

def getAllBalances : Coins := w.balances.toList.map fun e => ⟨e.1, e.2⟩

variable (balances : Std.ExtTreeMap Denom ℕ)

/-- `setBalance`: zero balances are not stored. -/
def setBalance (d : Denom) (n : ℕ) : Std.ExtTreeMap Denom ℕ :=
  if n = 0 then balances.erase d else balances.insert d n

/-- Take a coin from the account. -/
def subCoin (c : Coin) : Result (Std.ExtTreeMap Denom ℕ) := do
  ensure (c.amount.toNat ≤ balances.getD c.denom 0) (.err "insufficient funds")
  .ok (setBalance balances c.denom (balances.getD c.denom 0 - c.amount.toNat))

/-- Put a coin on the account. -/
def addCoin (c : Coin) : Std.ExtTreeMap Denom ℕ :=
  setBalance balances c.denom (balances.getD c.denom 0 + c.amount.toNat)

/-- `BurnCoins` of the module. -/
def burnCoins (cs : Coins) : Result World := do
  let balances ← cs.foldlM subCoin w.balances
  .ok { w with balances := balances }

/-- `SendCoins` from the account to `dst`; the account may be `dst` itself. -/
def sendCoins (dst : Address) (cs : Coins) : Result World := do
  let balances ← cs.foldlM subCoin w.balances
  .ok { w with balances := if dst = redistribution then cs.foldl addCoin balances else balances }

/-! ### Burning -/

def getTotalBurnedNeutronsAmount : Result Coin :=
  if w.total.denom = [] then newCoin sdk w.params.neutronDenom 0 else .ok w.total

def coinAdd (c c' : Coin) : Result Coin := do
  ensure (c.denom = c'.denom) (.panic "invalid coin denominations")
  let amount ← checkedInt (c.amount + c'.amount)
  .ok ⟨c.denom, amount⟩

def recordBurnedFees (amount : Coin) : Result World := do
  let total ← getTotalBurnedNeutronsAmount sdk w
  let total ← coinAdd total amount
  .ok { w with total := total, burned := amount :: w.burned }

/-- Burn a balance in the native denomination. -/
def burnNative (balance : Coin) : Result World := do
  let w ← (burnCoins w [balance]).mapError
    (.raise "failed to burn NTRN tokens during fee processing: ")
  recordBurnedFees sdk w balance

/-- One round of the loop of `BurnAndDistribute`. -/
def processBalance (params : Params) (acc : World × Coins) (balance : Coin) :
    Result (World × Coins) :=
  if balance.amount = 0 then .ok acc
  else if balance.denom = params.neutronDenom then (burnNative sdk acc.1 balance).map (·, acc.2)
  else .ok (acc.1, acc.2 ++ [balance])

/-- What `BurnAndDistribute` does with the other coins.  Without a treasury they are burned, too,
but not recorded. -/
def distribute (params : Params) (w : World) (fundsForReserve : Coins) : Result World :=
  if fundsForReserve = [] then .ok w
  else
    match sdk.accAddressFromBech32 params.treasuryAddress with
    | none => (burnCoins w fundsForReserve).mapError
        (.raise "failed to burn tokens during fee processing: ")
    | some addr => (sendCoins w addr fundsForReserve).mapError
        (.raise "failed sending funds to Reserve: ")

def burnAndDistribute : Result World := do
  let acc ← (getAllBalances w).foldlM (processBalance sdk w.params) (w, [])
  distribute sdk w.params acc.1 acc.2

/-! ### Runs -/

inductive Event where
  /-- The account receives fees. -/
  | receive (coins : Coins)
  | setParams (params : Params)
  /-- `EndBlock`. -/
  | endBlock

/-- One event.  Only the end of a block can panic; then the chain stops. -/
def step : Event → Result World
  | .receive coins => do
      ensure (isValid sdk coins) (.err "invalid coins")
      .ok { w with balances := coins.foldl addCoin w.balances }
  | .setParams params => do
      params.validate sdk
      .ok { w with params := params }
  | .endBlock => burnAndDistribute sdk w

/-- Nothing was burned yet. -/
structure Initial (w : World) : Prop where
  params : w.params.validate sdk = .ok ()
  total : w.total = ⟨[], 0⟩
  balances : w.balances = ∅
  burned : w.burned = []

end MaanyDex.FeeBurner
