/-
Routes: what is estimated, and what is executed.

A hop writes one pool (`Untouched`), so a route over distinct pools finds each of them as
it was before the route began.  For senders that pay taker fees both executors therefore
return what the estimators say.
-/
import MaanyDex.Gamm.KeeperEffects
import MaanyDex.Gamm.Messages

namespace MaanyDex.Gamm

open List FixedPoint

open Run (bind_ok bind2_ok bind3_ok)

variable {env : Env} {ctx : Ctx} {s s₀ s₁ s' : State} {p p' : Pool} {n : ℤ} {sender : Address}
  {tokenIn tokenOut after fee : Coin} {denom : Denom}

/-! ### Hops write one pool -/

/-- Nothing about other pools than `id` is written. -/
structure Untouched (id : ℕ) (s s' : State) : Prop where
  routes : s'.poolRoutes = s.poolRoutes
  pools : ∀ j, j ≠ id → s'.pools.lookup j = s.pools.lookup j

variable {id : ℕ}

lemma Untouched.getPoolModuleAndPool_eq {j : ℕ} (h : Untouched id s s') (hj : j ≠ id) :
    getPoolModuleAndPool env ctx s' j = getPoolModuleAndPool env ctx s j := by
  simp only [getPoolModuleAndPool, getPoolAndPoke, h.routes, h.pools j hj]

lemma getPoolModuleAndPool_id (h : getPoolModuleAndPool env ctx s id = .ok p) : p.view.id = id := by
  replace h := getPoolModuleAndPool_ok h
  unfold getPoolAndPoke at h
  split at h
  · cases h
  · rename_i q hq
    exact (Pool.poke_id h).trans (PoolStore.id_eq hq)

lemma Traded.untouched (h : Traded env sender p' tokenIn tokenOut s s') :
    Untouched p'.view.id s s' := by
  refine ⟨by rw [h.state]; rfl, fun j hj => ?_⟩
  rw [h.state]
  exact PoolStore.lookup_set_of_ne hj

/-! ### One hop -/

lemma newCoins_of_isValid {c : Coin} (h : isValid env.toSdk [c] = true) :
    newCoins env.toSdk [c] = .ok [c] :=
  newCoins_singleton (isValid_denom h c (by simp)) (isValid_pos h c (by simp))

variable {tokenOutMinAmount : ℤ}

/-- **A hop of a swap for an exact amount in**: what it pays is what the estimate says for
the input without the fee. -/
lemma swapHopIn_ok {poolId : ℕ}
    (h : swapHopIn env ctx s sender poolId tokenIn denom tokenOutMinAmount = .ok (n, fee, s')) :
    Untouched poolId s s' ∧ 0 < n ∧ ∃ p after s₁ c,
      getPoolModuleAndPool env ctx s poolId = .ok p
      ∧ chargeTakerFee env ctx s tokenIn denom sender true = .ok (after, fee, s₁)
      ∧ calcOutAmtGivenIn env p after denom p.getSpreadFactor = .ok c ∧ c.amount = n := by
  obtain ⟨p, ⟨after, fee', s₁⟩, hp, hfee, h⟩ := bind2_ok h
  obtain ⟨⟨n', p', s₂⟩, hswap, h⟩ := bind_ok h
  cases h
  obtain ⟨c, hn, hpos, -, hswap, htraded⟩ := swapExactAmountIn_ok hswap
  obtain ⟨hcalc, hid⟩ := Pool.swapOutAmtGivenIn_calc hswap
  obtain ⟨hs₁, -⟩ := chargeTakerFee_ok hfee
  have huntouched : Untouched poolId s s' := by
    have := htraded.untouched
    rw [hid, getPoolModuleAndPool_id hp, hs₁] at this
    exact ⟨this.routes, this.pools⟩
  refine ⟨huntouched, hpos, p, after, s₁, c, hp, hfee, ?_, hn⟩
  rw [calcOutAmtGivenIn, newCoins_of_isValid htraded.validIn]
  exact hcalc

variable {limit : ℤ} {step : SwapAmountOutRoute}

/-- **A hop of a swap for an exact amount out**: what the pool asks for is what the estimate
says, and is within the limit; the fee comes on top. -/
lemma swapHopOut_ok (h : swapHopOut env ctx s sender step limit tokenOut = .ok (after, fee, s')) :
    Untouched step.poolId s s' ∧ ∃ p p' s₁ c,
      getPoolModuleAndPool env ctx s step.poolId = .ok p ∧ p'.view.id = step.poolId
      ∧ calcInAmtGivenOut env p tokenOut step.tokenInDenom p.getSpreadFactor = .ok c
      ∧ c.denom = step.tokenInDenom ∧ 0 < c.amount ∧ c.amount ≤ limit
      ∧ Traded env sender p' c tokenOut s s₁
      ∧ chargeTakerFee env ctx s₁ c tokenOut.denom sender false = .ok (after, fee, s') := by
  obtain ⟨p, ⟨n, p', s₁⟩, hp, hswap, h⟩ := bind2_ok h
  obtain ⟨tokenIn, hcoin, h⟩ := bind_ok h
  obtain ⟨c, hn, hpos, hmax, -, -, hswap, htraded⟩ := swapExactAmountOut_ok hswap
  obtain ⟨hcalc, hid⟩ := Pool.swapInAmtGivenOut_calc hswap
  obtain ⟨hdenom, -⟩ := Pool.calcInAmtGivenOut_ok hcalc
  obtain ⟨rfl, -, -⟩ := newCoin_ok hcoin
  obtain ⟨hs', -⟩ := chargeTakerFee_ok h
  have hc : c = ⟨step.tokenInDenom, n⟩ := by rw [← hdenom, ← hn]
  have hid' : p'.view.id = step.poolId := hid.trans (getPoolModuleAndPool_id hp)
  have huntouched : Untouched step.poolId s s' := by
    have := htraded.untouched
    rw [hid'] at this
    rw [hs']
    exact ⟨this.routes, this.pools⟩
  refine ⟨huntouched, p, p', s₁, c, hp, hid', ?_, hdenom, hn ▸ hpos, hn ▸ hmax, htraded, hc ▸ h⟩
  rw [calcInAmtGivenOut, newCoins_of_isValid htraded.validOut]
  exact hcalc

variable {exactIn : Bool}

lemma chargeTakerFee_of_not_whitelisted (hnot : ctx.reducedFeeWhitelist sender = false)
    (h : chargeTakerFee env ctx s tokenIn denom sender exactIn = .ok (after, fee, s')) :
    (if exactIn then calcTakerFeeExactIn env tokenIn (ctx.takerFee tokenIn.denom denom)
      else calcTakerFeeExactOut env tokenIn (ctx.takerFee tokenIn.denom denom))
        = .ok (after, fee) := by
  rw [chargeTakerFee, hnot] at h
  obtain ⟨⟨after', fee'⟩, hfee, h⟩ := bind_ok h
  obtain ⟨_, _, -, -, h⟩ := bind2_ok h
  cases h
  exact hfee

lemma chargeTakerFee_of_whitelisted (hwhite : ctx.reducedFeeWhitelist sender = true)
    (h : chargeTakerFee env ctx s tokenIn denom sender exactIn = .ok (after, fee, s')) :
    after = tokenIn := by
  rw [chargeTakerFee, hwhite] at h
  cases h
  rfl

lemma chargeTakerFee_nonneg
    (h : chargeTakerFee env ctx s tokenIn denom sender exactIn = .ok (after, fee, s')) :
    0 ≤ fee.amount := by
  unfold chargeTakerFee at h
  split at h
  · cases h
    exact le_rfl
  · obtain ⟨⟨after', fee'⟩, -, h⟩ := bind_ok h
    obtain ⟨coins, _, hcoins, -, h⟩ := bind2_ok h
    cases h
    obtain ⟨-, hpos, hperm⟩ := newCoins_ok hcoins
    by_contra hneg
    exact hneg (hpos fee (hperm.mem_iff.mpr (by simp; omega))).le

/-! ### Estimates equal execution -/

/-- The pools of the rest of a route are as they were, after a hop on another one. -/
lemma Untouched.same_rest {ι : Type*} {f : ι → ℕ} {step : ι} {rest : List ι}
    (h : Untouched (f step) s s₁) (hnodup : ((step :: rest).map f).Nodup)
    (hsame : ∀ e ∈ step :: rest,
      getPoolModuleAndPool env ctx s (f e) = getPoolModuleAndPool env ctx s₀ (f e)) :
    ∀ e ∈ rest, getPoolModuleAndPool env ctx s₁ (f e) = getPoolModuleAndPool env ctx s₀ (f e) := by
  intro e he
  rw [map_cons, nodup_cons] at hnodup
  have hne : f e ≠ f step := fun heq => hnodup.1 (heq ▸ mem_map_of_mem he)
  rw [h.getPoolModuleAndPool_eq hne, hsame e (by simp [he])]

variable {fees : Coins}

/-- The loop of `RouteExactAmountIn` follows the estimate on any state `s₀` that has the same
pools. -/
lemma routeIn_estimateOut {out : ℤ} {route : List SwapAmountInRoute}
    (hnot : ctx.reducedFeeWhitelist sender = false)
    (hnodup : (route.map (·.poolId)).Nodup)
    (hsame : ∀ step ∈ route, getPoolModuleAndPool env ctx s step.poolId
      = getPoolModuleAndPool env ctx s₀ step.poolId)
    (h : routeIn env ctx sender tokenOutMinAmount route s tokenIn out fees = .ok (n, s')) :
    estimateOut env ctx s₀ route tokenIn out = .ok n := by
  induction route generalizing s tokenIn out fees with
  | nil =>
    cases h
    rfl
  | cons step rest ih =>
    obtain ⟨⟨out₁, fee, s₁⟩, hhop, h⟩ := bind_ok h
    obtain ⟨tokenIn₁, fees₁, hcoin, -, h⟩ := bind2_ok h
    obtain ⟨huntouched, hpos, p, after, s₂, c, hp, hfee, hcalc, hn⟩ := swapHopIn_ok hhop
    obtain ⟨rfl, -, -⟩ := newCoin_ok hcoin
    have hrest := ih (nodup_cons.mp hnodup).2 (huntouched.same_rest hnodup hsame) h
    have hfee' := chargeTakerFee_of_not_whitelisted hnot hfee
    rw [if_pos rfl] at hfee'
    rw [hsame step (by simp)] at hp
    simp only [estimateOut, hp, hfee', hcalc, hn, hpos, ensure, decide_true, if_true, bind,
      Except.bind]
    exact hrest

lemma expectedIn_ok (h : expectedIn env ctx s step tokenOut = .ok after) :
    after.denom = step.tokenInDenom ∧ ∃ p c fee,
      getPoolModuleAndPool env ctx s step.poolId = .ok p
      ∧ calcInAmtGivenOut env p tokenOut step.tokenInDenom p.getSpreadFactor = .ok c
      ∧ calcTakerFeeExactOut env c (ctx.takerFee step.tokenInDenom tokenOut.denom)
        = .ok (after, fee) := by
  obtain ⟨p, c, ⟨after', fee⟩, hp, hc, hfee, h⟩ := bind3_ok h
  cases h
  refine ⟨?_, p, c, fee, hp, hc, hfee⟩
  obtain ⟨_, -, hcalc⟩ := bind_ok hc
  obtain ⟨hdenom, -⟩ := Pool.calcInAmtGivenOut_ok hcalc
  obtain ⟨_, _, -, -, hfee⟩ := bind2_ok hfee
  obtain ⟨_, _, -, -, hfee⟩ := bind2_ok hfee
  cases hfee
  exact hdenom

variable {route : List SwapAmountOutRoute} {ins : Coins}

/-- The estimates have the denominations of their hops. -/
lemma expectedIns_denoms (h : expectedIns env ctx s route tokenOut = .ok ins) :
    ins.map (·.denom) = route.map (·.tokenInDenom) := by
  induction route generalizing ins with
  | nil =>
    cases h
    rfl
  | cons step rest ih =>
    obtain ⟨ins₁, tokenIn, hins₁, hin, h⟩ := bind2_ok h
    cases h
    rw [map_cons, map_cons, ih hins₁, (expectedIn_ok hin).1]

lemma hopTokenOut_ok {rest : List SwapAmountOutRoute} {out : Coin}
    (hins : expectedIns env ctx s₀ rest tokenOut = .ok ins)
    (h : hopTokenOut env rest (ins.map (·.amount)) tokenOut = .ok out) :
    out = ins.headD tokenOut := by
  have hdenoms := expectedIns_denoms hins
  cases rest with
  | nil =>
    cases hins
    cases h
    rfl
  | cons next rest =>
    cases ins with
    | nil => cases hdenoms
    | cons c ins =>
      obtain ⟨rfl, -, -⟩ := newCoin_ok h
      have hd : c.denom = next.tokenInDenom := (List.cons.inj hdenoms).1
      show (⟨next.tokenInDenom, c.amount⟩ : Coin) = c
      rw [← hd]

/-- **A hop compared with its estimate.**  The pool asks for the same; senders that are not
on the whitelist pay the estimate, and the others what the pool asks for. -/
lemma swapHopOut_expectedIn {expected : Coin} (hsame : getPoolModuleAndPool env ctx s step.poolId
      = getPoolModuleAndPool env ctx s₀ step.poolId)
    (hexp : expectedIn env ctx s₀ step tokenOut = .ok expected)
    (h : swapHopOut env ctx s sender step limit tokenOut = .ok (after, fee, s')) :
    ∃ c fee', 0 < c.amount ∧ c.amount ≤ limit
      ∧ calcTakerFeeExactOut env c (ctx.takerFee step.tokenInDenom tokenOut.denom)
        = .ok (expected, fee')
      ∧ after = (if ctx.reducedFeeWhitelist sender then c else expected)
      ∧ (ctx.reducedFeeWhitelist sender = false → 0 ≤ fee'.amount)
      ∧ ∃ p, getPoolModuleAndPool env ctx s₀ step.poolId = .ok p
        ∧ calcInAmtGivenOut env p tokenOut step.tokenInDenom p.getSpreadFactor = .ok c := by
  obtain ⟨-, p, c, fee', hp, hc, hfee'⟩ := expectedIn_ok hexp
  obtain ⟨-, p₁, -, s₁, c₁, hp₁, -, hc₁, hdenom, hpos, hle, -, hfee⟩ := swapHopOut_ok h
  rw [hsame, hp] at hp₁
  cases hp₁
  rw [hc] at hc₁
  cases hc₁
  refine ⟨c, fee', hpos, hle, hfee', ?_⟩
  rcases hw : ctx.reducedFeeWhitelist sender with - | -
  · have hpaid := chargeTakerFee_of_not_whitelisted hw hfee
    rw [if_neg Bool.false_ne_true, hdenom, hfee'] at hpaid
    cases hpaid
    exact ⟨rfl, fun _ => chargeTakerFee_nonneg hfee, p, hp, hc⟩
  · exact ⟨chargeTakerFee_of_whitelisted hw hfee, nofun, p, hp, hc⟩

/-- What the first pool of a route asks for, without the taker fee, and the rate of that fee. -/
def firstAsked (env : Env) (ctx : Ctx) (s : State) :
    List SwapAmountOutRoute → Coin → Result (ℤ × Dec)
  | [], _ => .error errEmptyRoutes
  | step :: rest, tokenOut => do
      let ins ← expectedIns env ctx s rest tokenOut
      let p ← getPoolModuleAndPool env ctx s step.poolId
      let asked ← calcInAmtGivenOut env p (ins.headD tokenOut) step.tokenInDenom p.getSpreadFactor
      .ok (asked.amount, ctx.takerFee step.tokenInDenom (ins.headD tokenOut).denom)

/-- The first hop of `RouteExactAmountOut`, on the state before the swap. -/
lemma routeExactAmountOut_first {tokenInMaxAmount : ℤ}
    (h : routeExactAmountOut env ctx s sender route tokenInMaxAmount tokenOut = .ok (n, s')) :
    ∃ c quote fee rate, multihopEstimateInGivenExactAmountOut env ctx s route tokenOut
        = .ok quote.amount
      ∧ firstAsked env ctx s route tokenOut = .ok (c.amount, rate)
      ∧ 0 < c.amount ∧ c.amount ≤ tokenInMaxAmount
      ∧ calcTakerFeeExactOut env c rate = .ok (quote, fee)
      ∧ n = (if ctx.reducedFeeWhitelist sender then c else quote).amount
      ∧ (ctx.reducedFeeWhitelist sender = false → 0 ≤ fee.amount) := by
  obtain ⟨_, insExpected, ⟨ins, s₁⟩, hvalid, hcreate, hloop, h⟩ := bind3_ok h
  cases h
  have hestimate : multihopEstimateInGivenExactAmountOut env ctx s route tokenOut
      = .ok (insExpected.headD 0) := by
    simp only [multihopEstimateInGivenExactAmountOut, hvalid, hcreate, bind, Except.bind]
  obtain ⟨coins, hcoins, hcreate⟩ := bind_ok hcreate
  cases hcreate
  cases route with
  | nil => cases hvalid
  | cons step rest =>
    obtain ⟨insRest, quote, hinsRest, hquote, hcoins⟩ := bind2_ok hcoins
    cases hcoins
    obtain ⟨out, ⟨after, fee, s₂⟩, hout, hhop, hloop⟩ := bind2_ok hloop
    obtain ⟨_, ⟨insLater, s₃⟩, -, -, hloop⟩ := bind2_ok hloop
    cases hloop
    rw [hopTokenOut_ok hinsRest hout] at hhop
    obtain ⟨c, fee', hpos, hle, hfee, hafter, hnonneg, p, hp, hc⟩ :=
      swapHopOut_expectedIn rfl hquote hhop
    refine ⟨c, quote, fee', _, hestimate, ?_, hpos, hle, hfee, hafter ▸ rfl, hnonneg⟩
    simp only [firstAsked, hinsRest, hp, hc, bind, Except.bind]

/-- **Estimates equal execution**, for senders that pay taker fees and routes over distinct
pools. -/
theorem routes_match_estimates (s : State) (hnot : ctx.reducedFeeWhitelist sender = false) :
    (∀ (route : List SwapAmountInRoute) (tokenIn : Coin) (tokenOutMinAmount n : ℤ) (s' : State),
      (route.map (·.poolId)).Nodup →
      routeExactAmountIn env ctx s sender route tokenIn tokenOutMinAmount = .ok (n, s') →
      multihopEstimateOutGivenExactAmountIn env ctx s route tokenIn = .ok n) ∧
    (∀ (route : List SwapAmountOutRoute) (tokenInMaxAmount : ℤ) (tokenOut : Coin) (n : ℤ)
      (s' : State), (route.map (·.poolId)).Nodup →
      routeExactAmountOut env ctx s sender route tokenInMaxAmount tokenOut = .ok (n, s') →
      multihopEstimateInGivenExactAmountOut env ctx s route tokenOut = .ok n) := by
  constructor
  · intro route tokenIn tokenOutMinAmount n s' hnodup h
    obtain ⟨_, hvalid, h⟩ := bind_ok h
    simp only [multihopEstimateOutGivenExactAmountIn, hvalid, bind, Except.bind]
    exact routeIn_estimateOut hnot hnodup (fun _ _ => rfl) h
  · intro route tokenInMaxAmount tokenOut n s' _ h
    -- only the first hop matters, so the pools need not be distinct here
    obtain ⟨c, quote, fee, rate, hquote, -, -, -, -, hn, -⟩ := routeExactAmountOut_first h
    rw [hnot, if_neg Bool.false_ne_true] at hn
    rw [hn]
    exact hquote

/-- Alice trades over two pools at the estimates. -/
theorem routes_match_estimates_twoPools :
    multihopEstimateOutGivenExactAmountIn chainEnv tenthCtx twoPools
        [⟨1, ascii "bar"⟩, ⟨2, ascii "baz"⟩] ⟨ascii "foo", 100⟩ = .ok 68
      ∧ multihopEstimateInGivenExactAmountOut chainEnv tenthCtx twoPools
        [⟨1, ascii "foo"⟩, ⟨2, ascii "bar"⟩] ⟨ascii "baz", 100⟩ = .ok 159 := by
  obtain ⟨hin, hout⟩ := @routes_match_estimates chainEnv tenthCtx alice twoPools (by decide)
  obtain ⟨⟨n, s'⟩, hroute, rfl⟩ := Run.ok_of_toOption (show (routeExactAmountIn chainEnv tenthCtx
    twoPools alice [⟨1, ascii "bar"⟩, ⟨2, ascii "baz"⟩] ⟨ascii "foo", 100⟩ 1).toOption.map (·.1)
      = some 68 by decide +kernel)
  obtain ⟨⟨m, s''⟩, hroute', rfl⟩ := Run.ok_of_toOption (show (routeExactAmountOut chainEnv tenthCtx
    twoPools alice [⟨1, ascii "foo"⟩, ⟨2, ascii "bar"⟩] 200 ⟨ascii "baz", 100⟩).toOption.map (·.1)
      = some 159 by decide +kernel)
  exact ⟨hin _ _ _ _ _ (by decide) hroute, hout _ _ _ _ _ (by decide) hroute'⟩

/-! ### What a route for an exact amount out leaves behind -/

variable {takerFee : Dec}

lemma calcTakerFeeExactOut_ok (h : calcTakerFeeExactOut env tokenIn takerFee = .ok (after, fee)) :
    after.denom = tokenIn.denom ∧ fee = ⟨tokenIn.denom, after.amount - tokenIn.amount⟩
      ∧ Dec.unit - takerFee.raw ≠ 0
      ∧ after.amount = FixedPoint.ceil Dec.unit
        (FixedPoint.quo Dec.unit (tokenIn.amount * Dec.unit) (Dec.unit - takerFee.raw)) := by
  obtain ⟨factor, amount, hfactor, hamount, h⟩ := bind2_ok h
  obtain ⟨after', fee', hafter, hfee, h⟩ := bind2_ok h
  cases h
  have hfactor' : factor.raw = Dec.unit - takerFee.raw := Dec.sub_ok hfactor
  obtain ⟨hne, hquo⟩ := Dec.quo_ok hamount
  rw [hfactor'] at hne hquo
  refine ⟨rfl, by rw [checkedInt_ok hfee], hne, ?_⟩
  show after' = _
  rw [Dec.truncateInt_ok hafter, Dec.ceil, Int.mul_tdiv_cancel _ (by decide), hquo]
  rfl

/-- A rate above one would make the result negative. -/
lemma calcTakerFeeExactOut_factor_pos (hpos : 0 < tokenIn.amount)
    (hle : tokenIn.amount ≤ after.amount)
    (h : calcTakerFeeExactOut env tokenIn takerFee = .ok (after, fee)) :
    0 < Dec.unit - takerFee.raw := by
  obtain ⟨-, -, hne, hafter⟩ := calcTakerFeeExactOut_ok h
  refine lt_of_le_of_ne (not_lt.mp fun hneg => ?_) hne.symm
  have hnonpos : after.amount ≤ 0 := by
    rw [hafter]
    apply (ceil_le_iff Dec.unit_pos).mpr
    rw [zero_mul]
    exact quo_nonpos_of_neg (by positivity) hneg.le
  omega

lemma calcTakerFeeExactOut_eq_iff (hpos : 0 < tokenIn.amount)
    (hle : tokenIn.amount ≤ after.amount)
    (h : calcTakerFeeExactOut env tokenIn takerFee = .ok (after, fee)) :
    after.amount = tokenIn.amount ↔ takerFee.raw ≤ 0 := by
  obtain ⟨-, -, -, hafter⟩ := calcTakerFeeExactOut_ok h
  have hunit := Dec.unit_pos_int
  have hiff : after.amount ≤ tokenIn.amount ↔ FixedPoint.quo Dec.unit
      (tokenIn.amount * Dec.unit) (Dec.unit - takerFee.raw) ≤ tokenIn.amount * Dec.unit := by
    rw [hafter]
    exact ceil_le_iff Dec.unit_pos
  have hwhole : (0 : ℤ) ≤ tokenIn.amount * Dec.unit := by positivity
  constructor
  · intro heq
    by_contra hfee
    have hquo := hiff.mp heq.le
    have hunit_le : (Dec.unit : ℤ) ≤ tokenIn.amount * Dec.unit := by nlinarith
    have hlt := lt_quo_of_lt_unit Dec.unit_pos hunit_le
      (calcTakerFeeExactOut_factor_pos hpos hle h) (by omega)
    omega
  · intro hfee
    have hquo := quo_le_of_unit_le Dec.unit_pos hwhole
      (show (Dec.unit : ℤ) ≤ Dec.unit - takerFee.raw by omega)
    exact le_antisymm (hiff.mpr hquo) hle

/-- **The limit on what is paid in** holds for what the pool asks for.  With the taker fee it holds
exactly for senders on the whitelist, for a first pair without a fee, and if the part of the limit
that the fee leaves covers what the first pool asks for. -/
theorem routeExactAmountOut_le_iff {route : List SwapAmountOutRoute} {tokenInMaxAmount : ℤ}
    (h : routeExactAmountOut env ctx s sender route tokenInMaxAmount tokenOut = .ok (n, s')) :
    ∃ asked rate, firstAsked env ctx s route tokenOut = .ok (asked, rate)
      ∧ (n ≤ tokenInMaxAmount ↔ ctx.reducedFeeWhitelist sender = true ∨ rate.raw ≤ 0
        ∨ asked * Dec.unit ≤ tokenInMaxAmount * (Dec.unit - rate.raw)) := by
  obtain ⟨c, quote, fee, rate, -, hasked, hpos, hle, hfee, hn, hnonneg⟩ :=
    routeExactAmountOut_first h
  refine ⟨c.amount, rate, hasked, ?_⟩
  rw [hn]
  rcases hw : ctx.reducedFeeWhitelist sender with - | -
  · rw [if_neg Bool.false_ne_true]
    obtain ⟨-, hcoin, -, hgross⟩ := calcTakerFeeExactOut_ok hfee
    have hmore : c.amount ≤ quote.amount := by
      have := hnonneg hw
      rw [hcoin] at this
      exact sub_nonneg.mp this
    rcases le_or_gt rate.raw 0 with hfree | hrate
    · rw [(calcTakerFeeExactOut_eq_iff hpos hmore hfee).mpr hfree]
      exact iff_of_true hle (.inr (.inl hfree))
    · rw [hgross, ceil_quo_le_iff Dec.unit_pos hpos.le
        (calcTakerFeeExactOut_factor_pos hpos hmore hfee) (by omega)]
      simp [hrate]
  · exact iff_of_true hle (.inl rfl)

/-- Alice allows 112 `foo` and pays 125: what the pool asks for, and the fee. -/
theorem limit_exceeded_by_fee :
    (routeExactAmountOut chainEnv tenthCtx twoPools alice [⟨1, ascii "foo"⟩] 112
      ⟨ascii "bar", 100⟩).toOption.map (·.1) = some 125 := by
  decide +kernel

/-- With a limit of 125 she is within it. -/
theorem routeExactAmountOut_le_125 :
    ∃ n s', routeExactAmountOut chainEnv tenthCtx twoPools alice [⟨1, ascii "foo"⟩] 125
      ⟨ascii "bar", 100⟩ = .ok (n, s') ∧ n ≤ 125 := by
  obtain ⟨⟨n, s'⟩, hroute, -⟩ := Run.ok_of_toOption (show (routeExactAmountOut chainEnv tenthCtx
    twoPools alice [⟨1, ascii "foo"⟩] 125 ⟨ascii "bar", 100⟩).toOption.map (·.1) = some 125
      by decide +kernel)
  obtain ⟨asked, rate, hasked, hiff⟩ := routeExactAmountOut_le_iff hroute
  have htenth : firstAsked chainEnv tenthCtx twoPools [⟨1, ascii "foo"⟩] ⟨ascii "bar", 100⟩
      = .ok (112, ⟨10 ^ 17⟩) := by decide +kernel
  cases htenth.symm.trans hasked
  exact ⟨n, s', hroute, hiff.mpr (.inr (.inr (by decide)))⟩

/-- Accounts that trade: nobody signs for pools, or for the collector of taker fees. -/
def isTrader : Address → Bool
  | .pool _ => false
  | .moduleAccount name => name ≠ takerFeeModuleName
  | _ => true

lemma chargeTakerFee_total
    (h : chargeTakerFee env ctx s tokenIn denom sender false = .ok (after, fee, s')) :
    after.denom = tokenIn.denom ∧ ∀ d, net [after] d = net [tokenIn] d + net [fee] d := by
  rcases hw : ctx.reducedFeeWhitelist sender with - | -
  · have hpaid := chargeTakerFee_of_not_whitelisted hw h
    obtain ⟨hdenom, rfl, -, -⟩ := calcTakerFeeExactOut_ok hpaid
    refine ⟨hdenom, fun d => ?_⟩
    simp only [net_cons, net_nil, hdenom]
    split <;> ring
  · rw [chargeTakerFee, hw] at h
    cases h
    refine ⟨rfl, fun d => ?_⟩
    simp

/-- **A hop takes what it reports and gives what it was asked for.** -/
lemma swapHopOut_balance (hsender : isTrader sender = true)
    (h : swapHopOut env ctx s sender step limit tokenOut = .ok (after, fee, s')) (d : Denom) :
    (s'.bank.balance sender d : ℤ) = s.bank.balance sender d + net [tokenOut] d
      - net [⟨step.tokenInDenom, after.amount⟩] d := by
  obtain ⟨-, p, p', s₁, c, -, -, -, hdenom, -, -, htraded, hfee⟩ := swapHopOut_ok h
  obtain ⟨-, hflows⟩ := chargeTakerFee_ok hfee
  obtain ⟨hafter, htotal⟩ := chargeTakerFee_total hfee
  have hpool : sender ≠ p'.view.address := by
    rw [p'.view_address]
    rintro rfl
    cases hsender
  have hcollector : sender ≠ .moduleAccount takerFeeModuleName := by
    rintro rfl
    exact absurd hsender (by decide)
  have hcoin : (⟨step.tokenInDenom, after.amount⟩ : Coin) = after := by
    rw [← hdenom, ← hafter]
  rw [hflows.balance, htraded.flows.balance, transferred_src hpool, transferred_dst hpool,
    transferred_src hcollector, hcoin, htotal]
  ring

/-- Coins of the given denominations. -/
def coinsOf (route : List SwapAmountOutRoute) (amounts : List ℤ) : Coins :=
  List.zipWith (fun step n => ⟨step.tokenInDenom, n⟩) route amounts

/-- **The loop of `RouteExactAmountOut`**: what is received on the way is what was expected,
and what is paid is what is reported. -/
lemma routeOut_balance {limits ins : List ℤ} (hsender : isTrader sender = true)
    (h : routeOut env ctx sender tokenOut (step :: route) (limit :: limits) s fees = .ok (ins, s'))
    (d : Denom) :
    (s'.bank.balance sender d : ℤ) = s.bank.balance sender d + net [tokenOut] d
      + net (coinsOf route limits) d - net (coinsOf (step :: route) ins) d := by
  induction route generalizing s step limit limits ins fees with
  | nil =>
    obtain ⟨out, ⟨after, fee, s₁⟩, hout, hhop, h⟩ := bind2_ok h
    obtain ⟨_, ⟨ins₁, s₂⟩, -, hrest, h⟩ := bind2_ok h
    cases h
    cases hrest
    cases hout
    rw [swapHopOut_balance hsender hhop d]
    simp [coinsOf]
  | cons next rest ih =>
    cases limits with
    | nil =>
      obtain ⟨out, hout, h⟩ := bind_ok h
      cases hout
    | cons limit' limits =>
      obtain ⟨out, ⟨after, fee, s₁⟩, hout, hhop, h⟩ := bind2_ok h
      obtain ⟨_, ⟨ins₁, s₂⟩, -, hrest, h⟩ := bind2_ok h
      cases h
      obtain ⟨rfl, -, -⟩ := newCoin_ok hout
      rw [ih hrest, swapHopOut_balance hsender hhop d]
      simp only [coinsOf, zipWith_cons_cons, net_cons, net_nil]
      ring

/-- The taker fees of the hops of a route that ends with `last`. -/
def hopFees (ctx : Ctx) : List SwapAmountOutRoute → Denom → List Dec
  | [], _ => []
  | step :: rest, last =>
    ctx.takerFee step.tokenInDenom ((rest.head?.map (·.tokenInDenom)).getD last)
      :: hopFees ctx rest last

lemma headD_denom (h : expectedIns env ctx s route tokenOut = .ok ins) :
    (ins.headD tokenOut).denom = (route.head?.map (·.tokenInDenom)).getD tokenOut.denom := by
  have hdenoms := expectedIns_denoms h
  cases route with
  | nil =>
    cases h
    rfl
  | cons step rest =>
    cases ins with
    | nil => cases hdenoms
    | cons c ins => exact (List.cons.inj hdenoms).1

/-- **What the hops take, compared with the estimates**: the same, unless a whitelisted
sender is spared a positive fee. -/
lemma routeOut_eq_expectedIns_iff {expected : Coins}
    {ins : List ℤ} (hnodup : (route.map (·.poolId)).Nodup)
    (hsame : ∀ step ∈ route, getPoolModuleAndPool env ctx s step.poolId
      = getPoolModuleAndPool env ctx s₀ step.poolId)
    (hexp : expectedIns env ctx s₀ route tokenOut = .ok expected)
    (h : routeOut env ctx sender tokenOut route (expected.map (·.amount)) s fees = .ok (ins, s')) :
    ins.length = route.length ∧ (ins = expected.map (·.amount) ↔
      ctx.reducedFeeWhitelist sender = false
        ∨ ∀ f ∈ hopFees ctx route tokenOut.denom, f.raw ≤ 0) := by
  induction route generalizing s expected ins fees with
  | nil =>
    cases hexp
    cases h
    simp [hopFees]
  | cons step rest ih =>
    obtain ⟨later, e, hlater, he, hexp⟩ := bind2_ok hexp
    cases hexp
    obtain ⟨out, ⟨after, fee, s₁⟩, hout, hhop, h⟩ := bind2_ok h
    obtain ⟨_, ⟨ins₁, s₂⟩, -, hrest, h⟩ := bind2_ok h
    cases h
    rw [hopTokenOut_ok hlater hout] at hhop
    obtain ⟨huntouched, -⟩ := swapHopOut_ok hhop
    obtain ⟨c, fee', hpos, hle, hfee, hafter, -, -⟩ :=
      swapHopOut_expectedIn (hsame step (by simp)) he hhop
    obtain ⟨hlength, hiff⟩ :=
      ih (nodup_cons.mp hnodup).2 (huntouched.same_rest hnodup hsame) hlater hrest
    have hfirst := calcTakerFeeExactOut_eq_iff hpos hle hfee
    rw [headD_denom hlater] at hfirst
    refine ⟨by simp [hlength], ?_⟩
    show after.amount :: ins₁ = e.amount :: later.map (·.amount) ↔ _
    rw [List.cons.injEq, hiff, hafter, hopFees, forall_mem_cons, ← hfirst]
    rcases ctx.reducedFeeWhitelist sender with - | -
    · simp
    · simp [eq_comm]

lemma coinsOf_net_inj {ns ms : List ℤ}
    (hnodup : (route.map (·.tokenInDenom)).Nodup) (hns : ns.length = route.length)
    (hms : ms.length = route.length) :
    (∀ d, net (coinsOf route ns) d = net (coinsOf route ms) d) ↔ ns = ms := by
  constructor
  · intro h
    induction route generalizing ns ms with
    | nil => rw [length_eq_zero_iff.mp hns, length_eq_zero_iff.mp hms]
    | cons step rest ih =>
      obtain ⟨n, ns, rfl⟩ := exists_cons_of_length_eq_add_one hns
      obtain ⟨m, ms, rfl⟩ := exists_cons_of_length_eq_add_one hms
      rw [map_cons, nodup_cons] at hnodup
      -- the denomination of the first hop does not occur again
      have hfresh : ∀ ls, net (coinsOf rest ls) step.tokenInDenom = 0 := fun ls => by
        refine net_eq_zero_of_notMem fun hmem => hnodup.1 ?_
        rw [coinsOf, map_zipWith] at hmem
        obtain ⟨i, hi, hget⟩ := mem_iff_getElem.mp hmem
        rw [getElem_zipWith] at hget
        exact hget ▸ mem_map_of_mem (getElem_mem _)
      have hhead : n = m := by
        have hd := h step.tokenInDenom
        simp only [coinsOf, zipWith_cons_cons, net_cons, if_pos] at hd
        have e := hfresh ns
        have e' := hfresh ms
        simp only [coinsOf] at e e'
        omega
      subst hhead
      congr 1
      refine ih hnodup.2 (by simpa using hns) (by simpa using hms) fun d => ?_
      have hd := h d
      simp only [coinsOf, zipWith_cons_cons, net_cons] at hd
      simp only [coinsOf]
      omega
  · rintro rfl d
    rfl

/-- **No residue in the denominations on the way**: a swap for an exact amount out changes
the balances of the sender by exactly `tokenOut` and what it returns, for senders that pay
taker fees; for the others exactly when no hop after the first has a positive fee. -/
theorem routeExactAmountOut_exact_iff {step : SwapAmountOutRoute} {rest : List SwapAmountOutRoute}
    {tokenInMaxAmount : ℤ} (hsender : isTrader sender = true)
    (hpools : ((step :: rest).map (·.poolId)).Nodup)
    (hdenoms : (rest.map (·.tokenInDenom)).Nodup)
    (h : routeExactAmountOut env ctx s sender (step :: rest) tokenInMaxAmount tokenOut
      = .ok (n, s')) :
    (∀ d, (s'.bank.balance sender d : ℤ) = s.bank.balance sender d
        - net [⟨step.tokenInDenom, n⟩] d + net [tokenOut] d) ↔
      ctx.reducedFeeWhitelist sender = false
        ∨ ∀ f ∈ hopFees ctx rest tokenOut.denom, f.raw ≤ 0 := by
  obtain ⟨_, insExpected, ⟨ins, s₁⟩, -, hcreate, hloop, h⟩ := bind3_ok h
  cases h
  obtain ⟨coins, hcoins, hcreate⟩ := bind_ok hcreate
  cases hcreate
  obtain ⟨later, quote, hlater, -, hcoins⟩ := bind2_ok hcoins
  cases hcoins
  have hbalance := routeOut_balance hsender hloop
  obtain ⟨out, ⟨after, fee, s₂⟩, hout, hhop, hloop⟩ := bind2_ok hloop
  obtain ⟨_, ⟨insLater, s₃⟩, -, hrest, hloop⟩ := bind2_ok hloop
  cases hloop
  obtain ⟨huntouched, -⟩ := swapHopOut_ok hhop
  obtain ⟨hlength, hiff⟩ := routeOut_eq_expectedIns_iff (nodup_cons.mp hpools).2
    (huntouched.same_rest hpools fun _ _ => rfl) hlater hrest
  have hlength' : (later.map (·.amount)).length = rest.length := by
    have := congrArg List.length (expectedIns_denoms hlater)
    simpa using this
  rw [← hiff, eq_comm, ← coinsOf_net_inj hdenoms hlength' hlength]
  refine forall_congr' fun d => ?_
  rw [hbalance d]
  show _ = _ - net [⟨step.tokenInDenom, after.amount⟩] d + _ ↔ _
  simp only [coinsOf, tail_cons, map_cons, zipWith_cons_cons, net_cons, net_nil]
  constructor
  · intro e
    omega
  · intro e
    omega

/-- Carol pays no fees, but buys 125 `bar` for the second hop, which needs 112: she is left
with 13. -/
theorem whitelisted_keeps_residue :
    twoPools.bank.balance carol (ascii "bar") = 0
      ∧ (routeExactAmountOut chainEnv tenthCtx twoPools carol
        [⟨1, ascii "foo"⟩, ⟨2, ascii "bar"⟩] 200 ⟨ascii "baz", 100⟩).toOption.map
          (fun r => r.2.bank.balance carol (ascii "bar")) = some 13 := by
  decide +kernel

/-- Alice pays the fees, and is left with nothing. -/
theorem routeExactAmountOut_exact_twoPools :
    ∃ n s', routeExactAmountOut chainEnv tenthCtx twoPools alice
        [⟨1, ascii "foo"⟩, ⟨2, ascii "bar"⟩] 200 ⟨ascii "baz", 100⟩ = .ok (n, s')
      ∧ ∀ d, (s'.bank.balance alice d : ℤ) = twoPools.bank.balance alice d
        - net [⟨ascii "foo", n⟩] d + net [⟨ascii "baz", 100⟩] d := by
  obtain ⟨⟨n, s'⟩, hroute, -⟩ := Run.ok_of_toOption (show (routeExactAmountOut chainEnv tenthCtx
    twoPools alice [⟨1, ascii "foo"⟩, ⟨2, ascii "bar"⟩] 200 ⟨ascii "baz", 100⟩).toOption.map (·.1)
      = some 159 by decide +kernel)
  exact ⟨n, s', hroute, (routeExactAmountOut_exact_iff (by decide) (by decide) (by decide)
    hroute).mpr (.inl (by decide))⟩

end MaanyDex.Gamm
