/-
Estimates of a trade by its price impact: `EstimateTradeBasedOnPriceImpactBalancerPool` and its
two siblings in `x/poolmanager/router.go`.

The amount of the request is tried first.  If its price deviates too much, a bisection of
`1, …, amount` looks for the gap between the amounts that respect the limit and those that do
not, and returns the amount that was *tried last*.  That amount is next to the gap, on the one
side or the other: which one depends on nothing but the gap and the amount of the request
(`Bisection.path`).  So the limit is respected exactly if the bisection does not end above the gap
(`price_impact_respected_iff`).
-/
import MaanyDex.Lib.Bisection
import MaanyDex.Sdk.Dec

namespace MaanyDex.PoolManager

open Bisection Run

/-! ### Trades of a pool -/

/-- How `CalcOutAmtGivenIn` fails: with an error, of which is asked whether it is
`ErrInvalidMathApprox` and what its text is, or with a panic, of which is asked whether it is out
of gas. -/
inductive CalcFault where
  | err (isInvalidMathApprox : Bool) (text : Bytes)
  | panic (isOutOfGas : Bool) (msg : String)

/-- `status.Error(codes.Internal, err.Error())`; a panic stays one. -/
def CalcFault.internal : CalcFault → Fault
  | .err _ text => .errf "rpc error: code = Internal desc = %s" text
  | .panic _ msg => .panic msg

/-- A pool and its module at the block of a query. -/
structure QuotedPool where
  /-- `swapModule.CalcOutAmtGivenIn(ctx, poolI, tokenIn, tokenOutDenom, spreadFactor)`. -/
  calcOutAmtGivenIn : Coin → Denom → Dec → Except CalcFault Coin
  /-- `poolI.GetSpreadFactor(ctx)`. -/
  spreadFactor : Dec

/-- The fields of `EstimateTradeBasedOnPriceImpactRequest` that are read, with the prices that
are derived from the others. -/
structure EstimateRequest where
  fromCoin : Coin
  toCoinDenom : Denom
  spotPrice : Dec
  adjustedMaxPriceImpact : Dec

/-- `EstimateTradeBasedOnPriceImpactResponse`. -/
structure EstimateResponse where
  inputCoin : Coin
  outputCoin : Coin
  deriving DecidableEq

variable (sdk : Sdk) (math : Math)

def int64 (i : ℤ) : Result ℤ :=
  if -2 ^ 63 ≤ i ∧ i < 2 ^ 63 then .ok i else .error (.panic "Int64() out of bound")

def calculatePriceDeviation (currFromCoin tokenOut : Coin) (spotPrice : Dec) : Result Dec := do
  let amount ← int64 currFromCoin.amount
  let currTradePrice ← Dec.quoInt (Dec.ofInt amount) tokenOut.amount
  let diff ← Dec.sub math currTradePrice spotPrice
  let priceDeviation ← Dec.quo math diff spotPrice
  return priceDeviation.abs

/-- The pools that have an estimate. -/
inductive PoolKind where
  | balancer
  | stableSwap
  | concentratedLiquidity

/-- What a trial says: the amount respects the limit, it is too large, or the trade is empty. -/
inductive Trial where
  | within
  | tooLarge
  | empty

variable (pool : QuotedPool) (req : EstimateRequest)

/-- The comparison of the price with the limit. -/
def compareImpact (currFromCoin tokenOut : Coin) : Result Trial := do
  let priceDeviation ← calculatePriceDeviation math currFromCoin tokenOut req.spotPrice
  return if priceDeviation ≤ req.adjustedMaxPriceImpact then .within else .tooLarge

variable (currFromCoin : Coin)

/-- A trial trade of a balancer pool: no trade if its mathematics fails or nothing is paid. -/
def tryBalancer : Result Trial :=
  match pool.calcOutAmtGivenIn currFromCoin req.toCoinDenom .zero with
  | .error (.err true _) => .ok .empty
  | .error fault => .error fault.internal
  | .ok tokenOut =>
    if tokenOut.amount = 0 then .ok .empty else compareImpact math req currFromCoin tokenOut

/-- `osmoutils.ApplyFuncIfNoError`: a panic becomes an error, unless it is out of gas. -/
def applyFuncIfNoError (result : Except CalcFault Coin) : Result (Except Bytes Coin) :=
  match result with
  | .ok tokenOut => .ok (.ok tokenOut)
  | .error (.err _ text) => .ok (.error text)
  | .error (.panic true msg) => .error (.panic msg)
  | .error (.panic false _) => .ok (.error (ascii "panic occurred during execution"))

/-- A trial trade of a stableswap pool: an amount that makes it panic is too large, any other
error means that it is too small. -/
def tryStableSwap : Result Trial := do
  match ← applyFuncIfNoError (pool.calcOutAmtGivenIn currFromCoin req.toCoinDenom .zero) with
  | .error text => return if ascii "panic" <:+: text then .tooLarge else .empty
  | .ok tokenOut => compareImpact math req currFromCoin tokenOut

/-- A trial trade of a concentrated liquidity pool: an error means that the amount is too large,
and no trade is worth nothing. -/
def tryConcentratedLiquidity : Result Trial :=
  match pool.calcOutAmtGivenIn currFromCoin req.toCoinDenom .zero with
  | .error (.err _ _) => .ok .tooLarge
  | .error (.panic _ msg) => .error (.panic msg)
  | .ok tokenOut =>
    if tokenOut.amount = 0 then .ok .empty else compareImpact math req currFromCoin tokenOut

/-- The trial trades. -/
def trial : PoolKind → Coin → Result Trial
  | .balancer => tryBalancer math pool req
  | .stableSwap => tryStableSwap math pool req
  | .concentratedLiquidity => tryConcentratedLiquidity math pool req

/-! ### The estimates -/

/-- The response with two zero coins. -/
def emptyTrade : Result EstimateResponse := do
  let inputCoin ← newCoin sdk req.fromCoin.denom 0
  let outputCoin ← newCoin sdk req.toCoinDenom 0
  return ⟨inputCoin, outputCoin⟩

/-- The trade with the spread factor of the pool. -/
def quote (inputCoin : Coin) : Result EstimateResponse :=
  match pool.calcOutAmtGivenIn inputCoin req.toCoinDenom pool.spreadFactor with
  | .ok tokenOut => .ok ⟨inputCoin, tokenOut⟩
  | .error fault => .error fault.internal

/-- The trade as it is requested; the mathematics of a balancer pool may fail here once more. -/
def quoteRequested : PoolKind → Result EstimateResponse
  | .balancer =>
    match pool.calcOutAmtGivenIn req.fromCoin req.toCoinDenom pool.spreadFactor with
    | .error (.err true _) => emptyTrade sdk req
    | .error fault => .error fault.internal
    | .ok tokenOut => .ok ⟨req.fromCoin, tokenOut⟩
  | _ => quote pool req req.fromCoin

variable (kind : PoolKind)

/-- One turn of the loop: the new bounds and the coin that was tried. -/
def turn (lowAmount highAmount : ℤ) : Result (Option (ℤ × ℤ × Coin)) := do
  let sum ← checkedInt (lowAmount + highAmount)
  let midAmount := sum.tdiv 2
  let currFromCoin ← newCoin sdk req.fromCoin.denom midAmount
  match ← trial math pool req kind currFromCoin with
  | .empty => return none
  | .within => return some (← checkedInt (midAmount + 1), highAmount, currFromCoin)
  | .tooLarge => return some (lowAmount, ← checkedInt (midAmount - 1), currFromCoin)

/-- An amount that the loop tries, and what the trial says. -/
structure Tried (amount : ℤ) (t : Trial) : Prop where
  small : 2 * amount < 2 ^ 256
  denom : sdk.validDenom req.fromCoin.denom = true
  outcome : trial math pool req kind ⟨req.fromCoin.denom, amount⟩ = .ok t

variable {sdk math pool req kind} {low high low' high' amount : ℤ} {coin : Coin} {t : Trial}

lemma turn_ok (h : turn sdk math pool req kind low high = .ok (some (low', high', coin))) :
    coin = ⟨req.fromCoin.denom, mid low high⟩
      ∧ (Tried sdk math pool req kind (mid low high) .within
          ∧ low' = mid low high + 1 ∧ high' = high
        ∨ Tried sdk math pool req kind (mid low high) .tooLarge
          ∧ low' = low ∧ high' = mid low high - 1) := by
  obtain ⟨sum, hsum, hcoin⟩ := bind_ok h
  have hlt := checkedInt_lt hsum
  cases checkedInt_ok hsum
  obtain ⟨c, hc, htrial⟩ := bind_ok hcoin
  obtain ⟨rfl, hdenom, -⟩ := newCoin_ok hc
  obtain ⟨t, ht, hnext⟩ := bind_ok htrial
  have htried : Tried sdk math pool req kind (mid low high) t := by
    have hspec := mid_spec low high
    exact ⟨by omega, hdenom, ht⟩
  rcases t with _ | _ | _
  · obtain ⟨l, hl, hres⟩ := bind_ok hnext
    cases checkedInt_ok hl
    cases hres
    exact ⟨rfl, Or.inl ⟨htried, rfl, rfl⟩⟩
  · obtain ⟨l, hl, hres⟩ := bind_ok hnext
    cases checkedInt_ok hl
    cases hres
    exact ⟨rfl, Or.inr ⟨htried, rfl, rfl⟩⟩
  · cases hnext

lemma turn_eq (hlow : 1 ≤ low) (hle : low ≤ high) (hsmall : 2 * mid low high < 2 ^ 256)
    (hdenom : sdk.validDenom req.fromCoin.denom = true) :
    turn sdk math pool req kind low high
      = (trial math pool req kind ⟨req.fromCoin.denom, mid low high⟩ >>= fun t =>
          match t with
          | .empty => .ok none
          | .within => .ok (some (mid low high + 1, high, ⟨req.fromCoin.denom, mid low high⟩))
          | .tooLarge => .ok (some (low, mid low high - 1, ⟨req.fromCoin.denom, mid low high⟩))) := by
  have hspec := mid_spec low high
  have hbounds := mid_bounds hle
  have hsum : checkedInt (low + high) = .ok (low + high) := checkedInt_eq_ok (by omega)
  have hcoin : newCoin sdk req.fromCoin.denom ((low + high).tdiv 2)
      = .ok ⟨req.fromCoin.denom, mid low high⟩ := by
    have hnonneg : ¬mid low high < 0 := by omega
    rw [newCoin, if_neg (by simp [hdenom])]
    exact if_neg hnonneg
  have hsucc : checkedInt ((low + high).tdiv 2 + 1) = .ok (mid low high + 1) :=
    checkedInt_eq_ok (show (mid low high + 1).natAbs < _ by omega)
  have hpred : checkedInt ((low + high).tdiv 2 - 1) = .ok (mid low high - 1) :=
    checkedInt_eq_ok (show (mid low high - 1).natAbs < _ by omega)
  rw [turn, hsum, ok_bind]
  dsimp only
  rw [hcoin, ok_bind]
  congr 1
  funext t
  rcases t with _ | _ | _
  · dsimp only
    rw [hsucc]
    rfl
  · dsimp only
    rw [hpred]
    rfl
  · rfl

lemma Tried.turn_within (h : Tried sdk math pool req kind (mid low high) .within)
    (hlow : 1 ≤ low) (hle : low ≤ high) :
    turn sdk math pool req kind low high
      = .ok (some (mid low high + 1, high, ⟨req.fromCoin.denom, mid low high⟩)) := by
  rw [turn_eq hlow hle h.small h.denom, h.outcome]
  rfl

lemma Tried.turn_tooLarge (h : Tried sdk math pool req kind (mid low high) .tooLarge)
    (hlow : 1 ≤ low) (hle : low ≤ high) :
    turn sdk math pool req kind low high
      = .ok (some (low, mid low high - 1, ⟨req.fromCoin.denom, mid low high⟩)) := by
  rw [turn_eq hlow hle h.small h.denom, h.outcome]
  rfl

variable (sdk math pool req kind)

/-- The loop: the upper bound at its end and the coin that was tried last, or nothing when a
trial says that the trade is empty. -/
def search (lowAmount highAmount : ℤ) (currFromCoin : Coin) : Result (Option (ℤ × Coin)) :=
  if _hle : lowAmount ≤ highAmount then
    match _hturn : turn sdk math pool req kind lowAmount highAmount with
    | .error fault => .error fault
    | .ok none => .ok none
    | .ok (some (low, high, coin)) => search low high coin
  else .ok (some (highAmount, currFromCoin))
termination_by (highAmount + 1 - lowAmount).toNat
decreasing_by
  have hbounds := mid_bounds _hle
  obtain ⟨-, ⟨-, rfl, rfl⟩ | ⟨-, rfl, rfl⟩⟩ := turn_ok _hturn <;> omega

/-- What the three estimates have in common. -/
def estimate : Result EstimateResponse := do
  match ← trial math pool req kind req.fromCoin with
  | .empty => emptyTrade sdk req
  | .within => quoteRequested sdk pool req kind
  | .tooLarge =>
    match ← search sdk math pool req kind 1 req.fromCoin.amount req.fromCoin with
    | none => emptyTrade sdk req
    | some (highAmount, currFromCoin) =>
      if highAmount = 0 then emptyTrade sdk req else quote pool req currFromCoin

def estimateTradeBasedOnPriceImpactBalancerPool : Result EstimateResponse :=
  estimate sdk math pool req .balancer

def estimateTradeBasedOnPriceImpactStableSwapPool : Result EstimateResponse :=
  estimate sdk math pool req .stableSwap

def estimateTradeBasedOnPriceImpactConcentratedLiquidity : Result EstimateResponse :=
  estimate sdk math pool req .concentratedLiquidity

/-- The switch at the end of `Querier.EstimateTradeBasedOnPriceImpact`. -/
def estimateTradeBasedOnPriceImpact : Result EstimateResponse :=
  match kind with
  | .balancer => estimateTradeBasedOnPriceImpactBalancerPool sdk math pool req
  | .stableSwap => estimateTradeBasedOnPriceImpactStableSwapPool sdk math pool req
  | .concentratedLiquidity => estimateTradeBasedOnPriceImpactConcentratedLiquidity sdk math pool req

/-! ### The loop -/

variable {sdk math pool req kind}

lemma estimateTradeBasedOnPriceImpact_eq :
    estimateTradeBasedOnPriceImpact sdk math pool req kind = estimate sdk math pool req kind := by
  cases kind <;> rfl

/-- What is tried on the way to the gap above `cut` is as it has to be. -/
def Leads (sdk : Sdk) (math : Math) (pool : QuotedPool) (req : EstimateRequest) (kind : PoolKind)
    (cut low high : ℤ) : Prop :=
  ∀ p ∈ path cut low high, Tried sdk math pool req kind p (if p ≤ cut then .within else .tooLarge)

variable {cut : ℤ}

lemma leads_of_lt (h : high < low) : Leads sdk math pool req kind cut low high := by
  unfold Leads
  rw [path_of_lt h]
  exact fun p hp => absurd hp List.not_mem_nil

lemma leads_of_mid_le (hle : low ≤ high) (hmid : mid low high ≤ cut) :
    Leads sdk math pool req kind cut low high
      ↔ Tried sdk math pool req kind (mid low high) .within
        ∧ Leads sdk math pool req kind cut (mid low high + 1) high := by
  unfold Leads
  rw [path_of_mid_le hle hmid, List.forall_mem_cons, if_pos hmid]

lemma leads_of_lt_mid (hle : low ≤ high) (hmid : cut < mid low high) :
    Leads sdk math pool req kind cut low high
      ↔ Tried sdk math pool req kind (mid low high) .tooLarge
        ∧ Leads sdk math pool req kind cut low (mid low high - 1) := by
  unfold Leads
  rw [path_of_lt_mid hle hmid, List.forall_mem_cons, if_neg (not_le.mpr hmid)]

lemma search_of_lt (h : high < low) :
    search sdk math pool req kind low high coin = .ok (some (high, coin)) := by
  rw [search, dif_neg (not_le.mpr h)]

lemma search_of_turn {coin' : Coin} (hle : low ≤ high)
    (h : turn sdk math pool req kind low high = .ok (some (low', high', coin'))) :
    search sdk math pool req kind low high coin
      = search sdk math pool req kind low' high' coin' := by
  rw [search, dif_pos hle]
  split
  · rename_i hturn
    cases h.symm.trans hturn
  · rename_i hturn
    cases h.symm.trans hturn
  · rename_i hturn
    cases h.symm.trans hturn
    rfl

/-- A loop that finds something goes on after its first turn. -/
lemma exists_turn {found : ℤ × Coin} (hle : low ≤ high)
    (h : search sdk math pool req kind low high coin = .ok (some found)) :
    ∃ low' high' coin', turn sdk math pool req kind low high = .ok (some (low', high', coin')) := by
  rw [search, dif_pos hle] at h
  split at h
  · cases h
  · cases h
  · rename_i low' high' coin' hturn
    exact ⟨low', high', coin', hturn⟩

/-- **The loop finds the gap it leads to**, and its last coin is the last one on the path. -/
lemma search_eq_ok_iff (hlow : 1 ≤ low) (hle : low ≤ high + 1) :
    search sdk math pool req kind low high ⟨req.fromCoin.denom, amount⟩ = .ok (some (cut, coin))
      ↔ low ≤ cut + 1 ∧ cut ≤ high ∧ Leads sdk math pool req kind cut low high
        ∧ coin = ⟨req.fromCoin.denom, (path cut low high).getLastD amount⟩ := by
  -- by induction on the width of the interval, which each turn shrinks
  induction hwidth : (high + 1 - low).toNat using Nat.strong_induction_on
    generalizing low high amount with
  | _ width ih =>
    rcases lt_or_ge high low with hlt | hge
    · rw [search_of_lt hlt, path_of_lt hlt]
      constructor
      · intro h
        cases h
        exact ⟨by omega, le_rfl, leads_of_lt hlt, rfl⟩
      · rintro ⟨hcut, hcut', -, rfl⟩
        obtain rfl : cut = high := by omega
        rfl
    · have hbounds := mid_bounds hge
      constructor
      · intro h
        obtain ⟨low', high', coin', hturn⟩ := exists_turn hge h
        rw [search_of_turn hge hturn] at h
        obtain ⟨rfl, ⟨htried, hlow', hhigh'⟩ | ⟨htried, hlow', hhigh'⟩⟩ := turn_ok hturn <;>
          rw [hlow', hhigh'] at h
        · obtain ⟨hcut, hcut', hleads, rfl⟩ := (ih _ (by omega) (by omega) (by omega) rfl).mp h
          have hmid : mid low high ≤ cut := by omega
          refine ⟨by omega, hcut', (leads_of_mid_le hge hmid).mpr ⟨htried, hleads⟩, ?_⟩
          rw [path_of_mid_le hge hmid, List.getLastD_cons]
        · obtain ⟨hcut, hcut', hleads, rfl⟩ := (ih _ (by omega) hlow (by omega) rfl).mp h
          have hmid : cut < mid low high := by omega
          refine ⟨hcut, by omega, (leads_of_lt_mid hge hmid).mpr ⟨htried, hleads⟩, ?_⟩
          rw [path_of_lt_mid hge hmid, List.getLastD_cons]
      · rintro ⟨hcut, hcut', hleads, rfl⟩
        rcases le_or_gt (mid low high) cut with hmid | hmid
        · obtain ⟨htried, hnext⟩ := (leads_of_mid_le hge hmid).mp hleads
          rw [search_of_turn hge (htried.turn_within hlow hge)]
          refine (ih _ (by omega) (by omega) (by omega) rfl).mpr ⟨by omega, hcut', hnext, ?_⟩
          rw [path_of_mid_le hge hmid, List.getLastD_cons]
        · obtain ⟨htried, hnext⟩ := (leads_of_lt_mid hge hmid).mp hleads
          rw [search_of_turn hge (htried.turn_tooLarge hlow hge)]
          refine (ih _ (by omega) hlow (by omega) rfl).mpr ⟨hcut, by omega, hnext, ?_⟩
          rw [path_of_lt_mid hge hmid, List.getLastD_cons]

/-! ### The limit -/

variable (math pool req)

/-- The deviation of the price of a trade without a fee. -/
def deviation (coin : Coin) : Result Dec :=
  match pool.calcOutAmtGivenIn coin req.toCoinDenom .zero with
  | .error fault => .error fault.internal
  | .ok tokenOut => calculatePriceDeviation math coin tokenOut req.spotPrice

/-- The deviation is at most the limit. -/
def Respects (coin : Coin) : Prop :=
  ∃ d, deviation math pool req coin = .ok d ∧ d ≤ req.adjustedMaxPriceImpact

variable {math pool req} {tokenOut : Coin}

lemma calculatePriceDeviation_ne_ok {spotPrice d : Dec}
    (h : tokenOut.amount = 0) : calculatePriceDeviation math coin tokenOut spotPrice ≠ .ok d := by
  intro hd
  obtain ⟨i, price, -, hquo, -⟩ := bind2_ok hd
  exact (Dec.quoInt_ok hquo).1 h

lemma compareImpact_eq_within_iff :
    compareImpact math req coin tokenOut = .ok .within
      ↔ ∃ d, calculatePriceDeviation math coin tokenOut req.spotPrice = .ok d
        ∧ d ≤ req.adjustedMaxPriceImpact := by
  constructor
  · intro h
    obtain ⟨d, hd, hres⟩ := bind_ok h
    refine ⟨d, hd, ?_⟩
    by_contra hnot
    rw [if_neg hnot] at hres
    cases hres
  · rintro ⟨d, hd, hle⟩
    rw [compareImpact, hd, ok_bind, if_pos hle]
    rfl

lemma trial_eq_within_iff :
    trial math pool req kind coin = .ok .within ↔ Respects math pool req coin := by
  unfold Respects deviation
  rcases kind with _ | _ | _
  · show tryBalancer math pool req coin = .ok .within ↔ _
    unfold tryBalancer
    rcases pool.calcOutAmtGivenIn coin req.toCoinDenom .zero with (⟨_ | _, _⟩ | _) | tokenOut
    · simp
    · simp
    · simp
    · by_cases hzero : tokenOut.amount = 0
      · simp [hzero, calculatePriceDeviation_ne_ok hzero]
      · simp only [if_neg hzero, compareImpact_eq_within_iff]
  · show tryStableSwap math pool req coin = .ok .within ↔ _
    unfold tryStableSwap
    rcases pool.calcOutAmtGivenIn coin req.toCoinDenom .zero with (_ | ⟨_ | _, _⟩) | tokenOut
    · simp only [applyFuncIfNoError, ok_bind]
      split_ifs <;> simp [pure, Except.pure]
    · simp only [applyFuncIfNoError, ok_bind]
      split_ifs <;> simp [pure, Except.pure]
    · simp [applyFuncIfNoError, error_bind]
    · simp only [applyFuncIfNoError, ok_bind, compareImpact_eq_within_iff]
  · show tryConcentratedLiquidity math pool req coin = .ok .within ↔ _
    unfold tryConcentratedLiquidity
    rcases pool.calcOutAmtGivenIn coin req.toCoinDenom .zero with (_ | _) | tokenOut
    · simp
    · simp
    · by_cases hzero : tokenOut.amount = 0
      · simp [hzero, calculatePriceDeviation_ne_ok hzero]
      · simp only [if_neg hzero, compareImpact_eq_within_iff]

lemma not_respects_of_tooLarge (h : trial math pool req kind coin = .ok .tooLarge) :
    ¬Respects math pool req coin := by
  intro hrespects
  rw [trial_eq_within_iff.mpr hrespects] at h
  cases h

variable {resp : EstimateResponse}

lemma emptyTrade_ok (h : emptyTrade sdk req = .ok resp) : resp.inputCoin.amount = 0 := by
  obtain ⟨inputCoin, outputCoin, hin, -, hresp⟩ := bind2_ok h
  obtain ⟨rfl, -⟩ := newCoin_ok hin
  cases hresp
  rfl

/-- The pool has a price for the trade with its fee. -/
def Quoted (pool : QuotedPool) (req : EstimateRequest) (coin : Coin) : Prop :=
  ∃ out, pool.calcOutAmtGivenIn coin req.toCoinDenom pool.spreadFactor = .ok out

lemma quote_ok (h : quote pool req coin = .ok resp) :
    resp.inputCoin = coin ∧ Quoted pool req coin := by
  unfold quote at h
  split at h
  · rename_i out hout
    cases h
    exact ⟨rfl, out, hout⟩
  · cases h

lemma quoteRequested_ok (h : quoteRequested sdk pool req kind = .ok resp)
    (hne : resp.inputCoin.amount ≠ 0) : resp.inputCoin = req.fromCoin := by
  rcases kind with _ | _ | _
  · unfold quoteRequested at h
    dsimp only at h
    split at h
    · exact absurd (emptyTrade_ok h) hne
    · cases h
    · cases h
      rfl
  · exact (quote_ok h).1
  · exact (quote_ok h).1

lemma estimate_ok (h : estimate sdk math pool req kind = .ok resp)
    (hne : resp.inputCoin.amount ≠ 0) :
    Respects math pool req req.fromCoin ∧ resp.inputCoin = req.fromCoin
      ∨ trial math pool req kind req.fromCoin = .ok .tooLarge
        ∧ Quoted pool req resp.inputCoin
        ∧ ∃ cut, cut ≠ 0
          ∧ search sdk math pool req kind 1 req.fromCoin.amount req.fromCoin
            = .ok (some (cut, resp.inputCoin)) := by
  obtain ⟨t, ht, hrest⟩ := bind_ok h
  rcases t with _ | _ | _
  · exact .inl ⟨trial_eq_within_iff.mp ht, quoteRequested_ok hrest hne⟩
  · obtain ⟨found, hfound, hlast⟩ := bind_ok hrest
    rcases found with - | ⟨cut, coin⟩
    · exact absurd (emptyTrade_ok hlast) hne
    · dsimp only at hlast
      split at hlast
      · exact absurd (emptyTrade_ok hlast) hne
      · rename_i hcut
        obtain ⟨rfl, hquoted⟩ := quote_ok hlast
        exact .inr ⟨ht, hquoted, cut, hcut, hfound⟩
  · exact absurd (emptyTrade_ok hrest) hne

/-- And the coin that the loop tried last is an estimate, if the pool has a price for it. -/
lemma estimate_of_search (ht : trial math pool req kind req.fromCoin = .ok .tooLarge)
    (hcut : cut ≠ 0) (hquoted : Quoted pool req coin)
    (hsearch : search sdk math pool req kind 1 req.fromCoin.amount req.fromCoin
      = .ok (some (cut, coin))) :
    ∃ out, estimate sdk math pool req kind = .ok ⟨coin, out⟩ := by
  obtain ⟨out, hout⟩ := hquoted
  refine ⟨out, ?_⟩
  rw [estimate, ht, ok_bind]
  dsimp only
  rw [hsearch, ok_bind]
  dsimp only
  rw [if_neg hcut, quote, hout]

/-- The deviation is monotone in the amount, up to that of the request.  An amount that the pool
refuses as too large has no deviation; larger amounts then have none either. -/
structure MonotoneDeviation (math : Math) (pool : QuotedPool) (req : EstimateRequest)
    (kind : PoolKind) : Prop where
  le : ∀ a b d e, 1 ≤ a → a ≤ b → b ≤ req.fromCoin.amount →
    deviation math pool req ⟨req.fromCoin.denom, a⟩ = .ok d →
    deviation math pool req ⟨req.fromCoin.denom, b⟩ = .ok e → d ≤ e
  refused : ∀ a b e, 1 ≤ a → a ≤ b → b ≤ req.fromCoin.amount →
    trial math pool req kind ⟨req.fromCoin.denom, a⟩ = .ok .tooLarge →
    deviation math pool req ⟨req.fromCoin.denom, b⟩ = .ok e →
    ∃ d, deviation math pool req ⟨req.fromCoin.denom, a⟩ = .ok d

/-- What is larger than an amount that is too large is too large. -/
lemma MonotoneDeviation.not_respects {a b : ℤ} (h : MonotoneDeviation math pool req kind)
    (ha : 1 ≤ a) (hab : a ≤ b) (hb : b ≤ req.fromCoin.amount)
    (htrial : trial math pool req kind ⟨req.fromCoin.denom, a⟩ = .ok .tooLarge) :
    ¬Respects math pool req ⟨req.fromCoin.denom, b⟩ := by
  rintro ⟨e, he, hle⟩
  obtain ⟨d, hd⟩ := h.refused a b e ha hab hb htrial he
  have hde : d.raw ≤ e.raw := h.le a b d e ha hab hb hd he
  exact not_respects_of_tooLarge htrial ⟨d, hd, hde.trans hle⟩

/-- The bisection leads to a gap and ends above it; or the amount is negative, and the loop does
not run at all. -/
def Overshoots (sdk : Sdk) (math : Math) (pool : QuotedPool) (req : EstimateRequest)
    (kind : PoolKind) : Prop :=
  trial math pool req kind req.fromCoin = .ok .tooLarge
    ∧ (req.fromCoin.amount < 0 ∧ Quoted pool req req.fromCoin
      ∨ ∃ cut, 0 < cut ∧ cut < req.fromCoin.amount
        ∧ Leads sdk math pool req kind cut 1 req.fromCoin.amount
        ∧ (path cut 1 req.fromCoin.amount).getLastD req.fromCoin.amount = cut + 1
        ∧ Quoted pool req ⟨req.fromCoin.denom, cut + 1⟩)

/-- The coin that the loop tries last is next to a gap, unless the amount is negative. -/
lemma search_request_ok (ht : trial math pool req kind req.fromCoin = .ok .tooLarge)
    (hcut : cut ≠ 0)
    (h : search sdk math pool req kind 1 req.fromCoin.amount req.fromCoin
      = .ok (some (cut, coin))) :
    req.fromCoin.amount < 0 ∧ coin = req.fromCoin
      ∨ 0 < cut ∧ cut < req.fromCoin.amount
        ∧ Leads sdk math pool req kind cut 1 req.fromCoin.amount
        ∧ (coin = ⟨req.fromCoin.denom, cut⟩
          ∨ coin = ⟨req.fromCoin.denom, cut + 1⟩
            ∧ (path cut 1 req.fromCoin.amount).getLastD req.fromCoin.amount = cut + 1) := by
  rcases lt_or_ge req.fromCoin.amount 0 with hneg | hnonneg
  · rw [search_of_lt (by omega)] at h
    have hcoin := congrArg Prod.snd (Option.some.inj (Except.ok.inj h))
    exact .inl ⟨hneg, hcoin.symm⟩
  · obtain ⟨hlow, hhigh, hleads, rfl⟩ := (search_eq_ok_iff le_rfl (by omega)).mp h
    have hpos : 0 < cut := by omega
    -- the amount of the request was tried before, and it was too large
    have hlt : cut < req.fromCoin.amount := by
      refine hhigh.lt_of_ne fun heq => ?_
      have htried := hleads cut (mem_path_cut hpos hhigh)
      rw [if_pos le_rfl, heq] at htried
      cases ht.symm.trans htried.outcome
    refine .inr ⟨hpos, hlt, hleads, ?_⟩
    rcases getLastD_path (show 1 ≤ req.fromCoin.amount by omega) (by omega) hhigh
      req.fromCoin.amount with hlast | hlast <;> rw [hlast]
    · exact .inl rfl
    · exact .inr ⟨rfl, rfl⟩

lemma Leads.within (h : Leads sdk math pool req kind cut 1 high) (hpos : 0 < cut)
    (hlt : cut < high) : Tried sdk math pool req kind cut .within := by
  have htried := h cut (mem_path_cut hpos hlt.le)
  rwa [if_pos le_rfl] at htried

lemma Leads.tooLarge (h : Leads sdk math pool req kind cut 1 high) (hpos : 0 < cut)
    (hlt : cut < high) : Tried sdk math pool req kind (cut + 1) .tooLarge := by
  have htried := h (cut + 1) (mem_path_succ (by omega) (by omega))
  rwa [if_neg (by omega)] at htried

/-- **The price impact is respected** if and only if the bisection does not end above the gap; and
if the deviation is monotone, no larger amount respects it in any case. -/
theorem price_impact_respected_iff (sdk : Sdk) (math : Math) (pool : QuotedPool)
    (req : EstimateRequest) (kind : PoolKind) :
    ((∀ resp, estimateTradeBasedOnPriceImpact sdk math pool req kind = .ok resp →
        resp.inputCoin.amount ≠ 0 → Respects math pool req resp.inputCoin)
      ∧ (MonotoneDeviation math pool req kind →
        ∀ resp, estimateTradeBasedOnPriceImpact sdk math pool req kind = .ok resp →
          resp.inputCoin.amount ≠ 0 →
          ∀ a, resp.inputCoin.amount < a → a ≤ req.fromCoin.amount →
            ¬Respects math pool req ⟨req.fromCoin.denom, a⟩))
      ↔ ¬Overshoots sdk math pool req kind := by
  rw [estimateTradeBasedOnPriceImpact_eq]
  constructor
  · rintro ⟨hlimit, -⟩ ⟨ht, ⟨hneg, hquoted⟩ | ⟨cut, hpos, hlt, hleads, hlast, hquoted⟩⟩
    · obtain ⟨out, hout⟩ := estimate_of_search ht hneg.ne hquoted (search_of_lt (by omega))
      exact not_respects_of_tooLarge ht (hlimit _ hout hneg.ne)
    · have hsearch : search sdk math pool req kind 1 req.fromCoin.amount req.fromCoin
          = .ok (some (cut, ⟨req.fromCoin.denom, cut + 1⟩)) :=
        (search_eq_ok_iff le_rfl (by omega)).mpr ⟨by omega, hlt.le, hleads, by rw [hlast]⟩
      obtain ⟨out, hout⟩ := estimate_of_search ht hpos.ne' hquoted hsearch
      exact not_respects_of_tooLarge (hleads.tooLarge hpos hlt).outcome
        (hlimit _ hout (show cut + 1 ≠ 0 by omega))
  · intro hnot
    refine ⟨fun resp h hne => ?_, fun hmono resp h hne a hlt hle => ?_⟩
    · rcases estimate_ok h hne with ⟨hrespects, heq⟩ | ⟨ht, hquoted, cut, hcut, hsearch⟩
      · rwa [heq]
      · rcases search_request_ok ht hcut hsearch with
          ⟨hneg, heq⟩ | ⟨hpos, hcutlt, hleads, heq | ⟨heq, hlast⟩⟩ <;> rw [heq] at hquoted ⊢
        · exact absurd ⟨ht, Or.inl ⟨hneg, hquoted⟩⟩ hnot
        · exact trial_eq_within_iff.mp (hleads.within hpos hcutlt).outcome
        · exact absurd ⟨ht, Or.inr ⟨cut, hpos, hcutlt, hleads, hlast, hquoted⟩⟩ hnot
    · rcases estimate_ok h hne with ⟨-, heq⟩ | ⟨ht, -, cut, hcut, hsearch⟩
      · rw [heq] at hlt
        omega
      · rcases search_request_ok ht hcut hsearch with
          ⟨hneg, heq⟩ | ⟨hpos, hcutlt, hleads, heq⟩
        · rw [heq] at hlt
          omega
        · -- the amount above the gap is too large, and so is what is larger
          have hge : cut + 1 ≤ a := by
            rcases heq with heq | ⟨heq, -⟩ <;> rw [heq] at hlt <;> dsimp only at hlt <;> omega
          exact hmono.not_respects (by omega) hge hle (hleads.tooLarge hpos hcutlt).outcome

/-- A pool that pays one coin, whatever it gets. -/
def stingyPool : QuotedPool where
  calcOutAmtGivenIn _ denom _ := .ok ⟨denom, 1⟩
  spreadFactor := .zero

/-- Two coins are offered at a price of one, with an impact of a half. -/
def twoForOne : EstimateRequest where
  fromCoin := ⟨ascii "foo", 2⟩
  toCoinDenom := ascii "bar"
  spotPrice := .one
  adjustedMaxPriceImpact := ⟨Dec.unit / 2⟩

/-- One coin for one would respect the limit, but two are estimated, with an impact of one. -/
theorem estimate_overshoots :
    deviation chainMath stingyPool twoForOne ⟨ascii "foo", 1⟩ = .ok .zero
      ∧ deviation chainMath stingyPool twoForOne ⟨ascii "foo", 2⟩ = .ok .one
      ∧ ∀ kind, estimateTradeBasedOnPriceImpact chainSdk chainMath stingyPool twoForOne kind
        = .ok ⟨⟨ascii "foo", 2⟩, ⟨ascii "bar", 1⟩⟩ := by
  refine ⟨by decide +kernel, by decide +kernel, ?_⟩
  intro kind
  cases kind <;> decide +kernel

end MaanyDex.PoolManager
