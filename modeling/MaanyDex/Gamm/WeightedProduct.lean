/-
When a swap keeps the weighted product of the pool.

For reserves `x` and `y` with weights `wx` and `wy`, a trade is fair if it does not lower
`x ^ wx * y ^ wy`.  The exact amounts are

  y * (1 - (x / (x + a)) ^ (wx / wy))      paid out for `a` of `x`      (`exactOut`)
  x * ((y / (y - a)) ^ (wy / wx) - 1)      paid in for `a` of `y`       (`exactIn`)

and the code rounds what it pays out down and what it takes up, but only after a quotient,
a power and a product with 18 digits.  Their error is multiplied by the reserve, so it can
exceed the rounding (`product_lost`).
-/
import MaanyDex.Gamm.Messages
import MaanyDex.Osmomath.PowError

namespace MaanyDex.Gamm.Balancer

open FixedPoint Run Dec

open Osmomath
open Dec (ulp unit)

/-! ### Fair trades -/

/-- What may be paid out for `a` of an asset. -/
noncomputable def exactOut (x y a w : ℝ) : ℝ := y * (1 - (x / (x + a)) ^ w)

/-- What has to be paid in for `a` of an asset. -/
noncomputable def exactIn (x y a w : ℝ) : ℝ := x * ((y / (y - a)) ^ w - 1)

lemma product_le_product {x x' y y' : ℝ} {wx wy : ℕ} (hx : 0 < x) (hx' : 0 < x') (hy : 0 < y)
    (hwy : 0 < wy) (h : y * (x / x') ^ ((wx : ℝ) / wy) ≤ y') :
    x ^ wx * y ^ wy ≤ x' ^ wx * y' ^ wy := by
  have hratio : 0 ≤ x / x' := (div_pos hx hx').le
  have hpow : ((x / x') ^ ((wx : ℝ) / wy)) ^ wy = (x / x') ^ wx := by
    rw [← Real.rpow_natCast, ← Real.rpow_mul hratio,
      div_mul_cancel₀ _ (by exact_mod_cast hwy.ne'), Real.rpow_natCast]
  calc x ^ wx * y ^ wy = x' ^ wx * (y * (x / x') ^ ((wx : ℝ) / wy)) ^ wy := by
        rw [mul_pow, hpow, div_pow]
        field_simp
    _ ≤ x' ^ wx * y' ^ wy := by gcongr

lemma product_le_of_exactOut {x y a c : ℤ} {wx wy : ℕ} (hx : 0 < x) (hxa : 0 < x + a)
    (hy : 0 < y) (hwy : 0 < wy) (h : (c : ℝ) ≤ exactOut x y a (wx / wy)) :
    x ^ wx * y ^ wy ≤ (x + a) ^ wx * (y - c) ^ wy := by
  have hle : (y : ℝ) * (x / (x + a : ℤ)) ^ ((wx : ℝ) / wy) ≤ (y - c : ℤ) := by
    unfold exactOut at h
    push_cast
    linarith
  exact_mod_cast product_le_product (by exact_mod_cast hx) (by exact_mod_cast hxa)
    (by exact_mod_cast hy) hwy hle

lemma product_le_of_exactIn {x y a t : ℤ} {wx wy : ℕ} (hx : 0 < x) (hya : 0 < y - a)
    (hy : 0 < y) (hwx : 0 < wx) (h : exactIn x y a (wy / wx) ≤ t) :
    x ^ wx * y ^ wy ≤ (x + t) ^ wx * (y - a) ^ wy := by
  have hle : (x : ℝ) * (y / (y - a : ℤ)) ^ ((wy : ℝ) / wx) ≤ (x + t : ℤ) := by
    unfold exactIn at h
    push_cast
    linarith
  rw [mul_comm (x ^ wx), mul_comm ((x + t) ^ wx)]
  exact_mod_cast product_le_product (by exact_mod_cast hy) (by exact_mod_cast hya)
    (by exact_mod_cast hx) hwx hle

/-! ### The margin -/

/-- `b` may be the 18-digit quotient of `n` and `d`. -/
def Near (n d : ℤ) (b : ℝ) : Prop := |b - n / d| ≤ FixedPoint.quoError unit n d

variable {n d : ℤ}

lemma Near.of_scaled {k : ℤ} {b : ℝ} (hk : k ≠ 0) (h : Near (n * k) (d * k) b) : Near n d b := by
  have hdvd : d * k ∣ n * k * unit ↔ d ∣ n * unit := by
    rw [mul_right_comm]
    exact mul_dvd_mul_iff_right hk
  unfold Near quoError at *
  have hk' : (k : ℝ) ≠ 0 := by exact_mod_cast hk
  push_cast at h
  rw [mul_div_mul_right _ _ hk'] at h
  simpa only [hdvd] using h

/-- The formula for the amount out, raised by the error of the arithmetic, stays below the
whole number above the fair amount. -/
def PaysAtMost (ε : ℝ) (x y a : ℤ) (wx wy : ℕ) (spreadFactor : Dec) : Prop :=
  ∀ b e : ℝ, Near (x * unit) (x * unit + a * (unit - spreadFactor.raw)) b →
    Near wx wy e → y * (1 - b ^ e + powError ε b e) < ⌊exactOut x y a (wx / wy)⌋ + 1

-- by name, so that no definition below holds a proof of it
local instance atLeastTwo : Nat.AtLeastTwo 2 := ⟨le_rfl⟩

/-- The formula for the amount in, lowered by the error of the arithmetic, stays above the
whole number below the fair amount. -/
def TakesAtLeast (ε : ℝ) (x y a : ℤ) (wx wy : ℕ) (spreadFactor : Dec) : Prop :=
  ∀ b e : ℝ, Near y (y - a) b → Near wy wx e →
    ⌈exactIn x y a (wy / wx)⌉ - 1 < x * (b ^ e - powError ε b e - 1) / (1 - spreadFactor.toReal)
      - if spreadFactor.raw = 0 then 0 else (1 / 2 + ulp) * ulp

/-! ### What the swaps compute -/

variable {env : Env} {p p' : Pool} {ε : ℝ}

variable {after : Dec}

/-- The power in `solveConstantFunctionInvariant`, from below. -/
lemma invariantPower_ge (hsqrt : SqrtWithin env.math ε) {before wFixed wUnknown power : Dec}
    (hbefore : 0 < before.raw) (hw : 0 < wFixed.raw) (hw' : 0 < wUnknown.raw)
    (h : invariantPower env before after wFixed wUnknown = .ok power) :
    0 < after.raw ∧ ∃ b e, Near before.raw after.raw b ∧ Near wFixed.raw wUnknown.raw e
      ∧ b ^ e - powError ε b e ≤ power.toReal := by
  obtain ⟨ratio, y, hratio, hy, h⟩ := bind2_ok h
  have hpos : 0 < after.raw := by
    by_contra hle
    have hnonpos := quo_nonpos_of_neg (p := unit) hbefore.le (not_lt.mp hle)
    rw [← (quo_ok hy).2] at hnonpos
    exact absurd (pow_ok h) (not_lt.mpr hnonpos)
  have hratio0 : 0 ≤ ratio.raw := by
    rw [(quo_ok hratio).2]
    exact quo_nonneg hw.le hw'.le
  have near : ∀ {u v w : Dec}, 0 ≤ u.raw → 0 < v.raw → Dec.quo env.math u v = .ok w →
      Near u.raw v.raw w.toReal := by
    intro u v w hu hv hquo
    have hle := toReal_quo hu hv hquo
    rwa [toReal_div_toReal] at hle
  exact ⟨hpos, y.toReal, ratio.toReal, near hbefore.le hpos hy, near hw.le hw' hratio,
    pow_ge hsqrt hratio0 h⟩

lemma poolPostSwapInBalance_ok {asset : PoolAsset} {tokenIn : Coin} {spreadFactor : Dec}
    (h : poolPostSwapInBalance env asset tokenIn spreadFactor = .ok after) :
    after.raw = asset.token.amount * unit + tokenIn.amount * (unit - spreadFactor.raw) := by
  obtain ⟨ratio, net, hratio, hnet, h⟩ := bind2_ok h
  have hnet' : net.raw = tokenIn.amount * (unit - spreadFactor.raw) := by
    rw [mul_comm_eq] at hnet
    rw [mul_ok hnet, sub_ok hratio]
    show mul unit ((unit : ℤ) - spreadFactor.raw) (tokenIn.amount * unit) = _
    rw [mul_whole unit_pos, mul_comm]
  rw [show after.raw = net.raw + asset.token.amount * unit from checked_ok h, hnet', add_comm]

section Trades

variable {assetX assetY : PoolAsset} {spreadFactor : Dec} {wx wy : ℕ} {a : ℤ} {c : Coin}

lemma asset_eq_of_denom (hp : p.Wf) (hX : assetX ∈ p.poolAssets) (hY : assetY ∈ p.poolAssets)
    (h : assetX.token.denom = assetY.token.denom) : assetX = assetY := by
  have hnodup := hp.nodup
  rw [tokens, List.map_map] at hnodup
  exact List.inj_on_of_nodup_map hnodup hX hY h

lemma near_of_weights (hwx : assetX.weight = wx * guaranteedWeightPrecision)
    (hwy : assetY.weight = wy * guaranteedWeightPrecision) {e : ℝ}
    (h : Near (Dec.ofInt assetX.weight).raw (Dec.ofInt assetY.weight).raw e) : Near wx wy e := by
  have hscale : guaranteedWeightPrecision * (unit : ℤ) ≠ 0 := by decide
  apply Near.of_scaled hscale
  rw [← mul_assoc, ← mul_assoc, ← hwx, ← hwy]
  exact h

lemma user_weight_pos (hp : p.Wf) (hX : assetX ∈ p.poolAssets)
    (hwx : assetX.weight = wx * guaranteedWeightPrecision) : 0 < wx := by
  have hpos := hp.weights _ hX
  rw [hwx] at hpos
  rcases Nat.eq_zero_or_pos wx with rfl | hwx
  · simp at hpos
  · exact hwx

lemma ofInt_raw_pos {i : ℤ} (h : 0 < i) : 0 < (Dec.ofInt i).raw := by
  show 0 < i * (unit : ℤ)
  have := unit_pos
  positivity

lemma tdiv_mul_le_of_pos (h : 0 < n.tdiv unit) : n.tdiv unit * unit ≤ n := by
  have hunit := unit_pos_int
  have hn : 0 ≤ n := by
    by_contra hneg
    have := Int.tdiv_nonneg (show 0 ≤ -n by omega) hunit.le
    rw [Int.neg_tdiv] at this
    omega
  rw [Int.tdiv_eq_ediv_of_nonneg hn]
  exact Int.ediv_mul_le n hunit.ne'

section

variable (hp : p.Wf) (hsqrt : SqrtWithin env.math ε) (hX : assetX ∈ p.poolAssets)
  (hY : assetY ∈ p.poolAssets) (hwx : assetX.weight = wx * guaranteedWeightPrecision)
  (hwy : assetY.weight = wy * guaranteedWeightPrecision)

include hp hsqrt hX hY hwx hwy

/-- **What `CalcOutAmtGivenIn` pays is fair** within the margin. -/
lemma calcOutAmtGivenIn_le
    (h : calcOutAmtGivenIn env p [⟨assetX.token.denom, a⟩] assetY.token.denom spreadFactor = .ok c)
    (hmargin : PaysAtMost ε assetX.token.amount assetY.token.amount a wx wy spreadFactor) :
    (c.amount : ℝ) ≤ exactOut assetX.token.amount assetY.token.amount a (wx / wy) := by
  obtain ⟨tokenIn, asset', power, hcons, hasset', hdenom', hpower, hc, hpos⟩ :=
    calcOutAmtGivenIn_ok h
  cases hcons
  obtain rfl := asset_eq_of_denom hp hY hasset' hdenom'.symm
  obtain ⟨⟨asset, asset''⟩, hparse, hpower⟩ := bind_ok hpower
  obtain ⟨after, hafter, hpower⟩ := bind_ok hpower
  obtain ⟨⟨hasset, hdenom⟩, hasset'', hdenom''⟩ := parsePoolAssetsByDenoms_ok hparse
  obtain rfl := asset_eq_of_denom hp hX hasset hdenom.symm
  obtain rfl := asset_eq_of_denom hp hY hasset'' hdenom''.symm
  obtain ⟨-, b, e, hb, he, hge⟩ := invariantPower_ge hsqrt (ofInt_raw_pos (hp.amounts _ hX))
    (ofInt_raw_pos (hp.weights _ hX)) (ofInt_raw_pos (hp.weights _ hY)) hpower
  rw [poolPostSwapInBalance_ok hafter] at hb
  have hlt := hmargin b e hb (near_of_weights hwx hwy he)
  have hy : (0 : ℝ) < assetY.token.amount := by exact_mod_cast hp.amounts _ hY
  -- truncation rounds down what is positive
  have hle : (c.amount : ℝ) ≤ assetY.token.amount * (1 - power.toReal) := by
    have hint : c.amount * unit ≤ (unit - power.raw) * assetY.token.amount := by
      rw [hc] at hpos ⊢
      exact tdiv_mul_le_of_pos hpos
    have hreal : (c.amount : ℝ) * unit ≤ (unit - power.raw) * assetY.token.amount := by
      exact_mod_cast hint
    rw [Dec.toReal, one_sub_div unit_cast_pos.ne', mul_div_assoc', le_div_iff₀ unit_cast_pos]
    linarith
  have hfloor : c.amount ≤ ⌊exactOut assetX.token.amount assetY.token.amount a (wx / wy)⌋ := by
    have hreal : (c.amount : ℝ)
        < ⌊exactOut assetX.token.amount assetY.token.amount a (wx / wy)⌋ + 1 := by
      nlinarith
    exact Int.lt_add_one_iff.mp (by exact_mod_cast hreal)
  exact (Int.le_floor.mp hfloor)

/-- **What `CalcInAmtGivenOut` takes is fair** within the margin. -/
lemma calcInAmtGivenOut_ge
    (hfee : spreadFactor.raw < unit)
    (h : calcInAmtGivenOut env p [⟨assetY.token.denom, a⟩] assetX.token.denom spreadFactor = .ok c)
    (hmargin : TakesAtLeast ε assetX.token.amount assetY.token.amount a wx wy spreadFactor) :
    a < assetY.token.amount
      ∧ exactIn assetX.token.amount assetY.token.amount a (wy / wx) ≤ c.amount := by
  obtain ⟨⟨tokenOut, asset', asset⟩, hparse, h⟩ := bind_ok h
  obtain ⟨hcons, hparse⟩ := parsePoolAssets_ok hparse
  cases hcons
  obtain ⟨⟨hasset', hdenom'⟩, hasset, hdenom⟩ := parsePoolAssetsByDenoms_ok hparse
  obtain rfl := asset_eq_of_denom hp hY hasset' hdenom'.symm
  obtain rfl := asset_eq_of_denom hp hX hasset hdenom.symm
  obtain ⟨after, delta, ratio, hafter, hdelta, hratio, h⟩ := bind3_ok h
  obtain ⟨quotient, n, _, hquo, hn, hpos, hcoin⟩ := bind3_ok h
  obtain ⟨power, rest, hpower, hrest, hdelta⟩ := bind2_ok hdelta
  obtain ⟨rfl, -, -⟩ := newCoin_ok hcoin
  have hunit := unit_pos_int
  have hpos' : 0 < n := of_decide_eq_true (ensure_ok hpos)
  have hafter' : after.raw = (assetY.token.amount - a) * unit := by
    rw [sub_ok hafter]
    show assetY.token.amount * (unit : ℤ) - a * unit = _
    ring
  have hdelta' : delta.neg.raw = (power.raw - unit) * assetX.token.amount := by
    show -delta.raw = _
    rw [mul_ok hdelta, sub_ok hrest]
    show -mul unit ((unit : ℤ) - power.raw) (assetX.token.amount * unit) = _
    rw [mul_whole unit_pos]
    ring
  have hratio' : ratio.raw = unit - spreadFactor.raw := sub_ok hratio
  have hceil : n = ceil unit quotient.raw := by
    rw [truncateInt_ok hn]
    exact Int.mul_tdiv_cancel _ hunit.ne'
  obtain ⟨hafterpos, b, e, hb, he, hge⟩ := invariantPower_ge hsqrt
    (ofInt_raw_pos (hp.amounts _ hY)) (ofInt_raw_pos (hp.weights _ hY))
    (ofInt_raw_pos (hp.weights _ hX)) hpower
  rw [hafter'] at hb hafterpos
  have hout : a < assetY.token.amount := by
    have := pos_of_mul_pos_left hafterpos hunit.le
    omega
  refine ⟨hout, ?_⟩
  have hlt := hmargin b e (Near.of_scaled hunit.ne' hb) (near_of_weights hwy hwx he)
  -- an amount that is not positive would have been refused
  have hnum : 0 ≤ delta.neg.raw := by
    by_contra hneg
    have hq : quotient.raw ≤ 0 := by
      rw [(quo_ok hquo).2]
      exact quo_nonpos (not_le.mp hneg).le (by omega)
    have hle : ceil unit quotient.raw ≤ 0 := (ceil_le_iff unit_pos).mpr (by omega)
    omega
  have herr : quoError unit delta.neg.raw ratio.raw
      ≤ if spreadFactor.raw = 0 then 0 else (1 / 2 + ulp) * ulp := by
    split
    · rename_i hzero
      rw [quoError, if_pos]
      rw [hratio', hzero, sub_zero]
      exact dvd_mul_left _ _
    · exact quoError_unit_le _ _
  have hnear := (abs_le.mp (toReal_quo hnum (by omega) hquo)).1
  have hx : (0 : ℝ) < assetX.token.amount := by exact_mod_cast hp.amounts _ hX
  have hfee' : 0 < 1 - spreadFactor.toReal := by
    have := toReal_lt_toReal (b := Dec.one) hfee
    rw [toReal_one] at this
    linarith
  have hexact : delta.neg.toReal / ratio.toReal
      = assetX.token.amount * (power.toReal - 1) / (1 - spreadFactor.toReal) := by
    rw [toReal_sub hratio, toReal_one, Dec.toReal, hdelta', Dec.toReal, Dec.toReal]
    push_cast
    have hu := unit_cast_pos.ne'
    rw [show (assetX.token.amount : ℝ) * (power.raw / unit - 1)
      = (power.raw - unit) * assetX.token.amount / unit by field_simp]
  have hup : quotient.toReal ≤ n := by
    have hle := (ceil_le_iff unit_pos).mp hceil.ge
    rw [Dec.toReal, div_le_iff₀ unit_cast_pos]
    exact_mod_cast hle
  have hmono : assetX.token.amount * (b ^ e - powError ε b e - 1) / (1 - spreadFactor.toReal)
      ≤ assetX.token.amount * (power.toReal - 1) / (1 - spreadFactor.toReal) := by
    gcongr
  have hreal : ((⌈exactIn assetX.token.amount assetY.token.amount a (wy / wx)⌉ - 1 : ℤ) : ℝ) < n := by
    push_cast
    linarith
  have hint : ⌈exactIn assetX.token.amount assetY.token.amount a (wy / wx)⌉ ≤ n := by
    have : ⌈exactIn assetX.token.amount assetY.token.amount a (wy / wx)⌉ - 1 < n := by
      exact_mod_cast hreal
    omega
  exact Int.ceil_le.mp hint

end

/-! ### Swaps within the margin -/

lemma liquidity_of_moved (tokenIn tokenOut : Coin) (hp : p.Wf) (hX : assetX ∈ p.poolAssets)
    (hY : assetY ∈ p.poolAssets) (hne : assetX.token.denom ≠ assetY.token.denom)
    (hin : tokenIn.denom = assetX.token.denom) (hout : tokenOut.denom = assetY.token.denom)
    (h : Moved (fun d => net [tokenIn] d - net [tokenOut] d) n p.view p'.view) :
    p'.view.liquidity assetX.token.denom = assetX.token.amount + tokenIn.amount
      ∧ p'.view.liquidity assetY.token.denom = assetY.token.amount - tokenOut.amount := by
  have hx : p.view.liquidity assetX.token.denom = assetX.token.amount := net_eq_of_asset hp.nodup hX
  have hy : p.view.liquidity assetY.token.denom = assetY.token.amount := net_eq_of_asset hp.nodup hY
  constructor
  · rw [h.liquidity, hx]
    simp [net_cons, hin, hout, hne.symm]
  · rw [h.liquidity, hy]
    simp [net_cons, hin, hout, hne]
    ring

/-- **Swaps within the margin keep the weighted product.**  For two assets of a pool with user
weights `wx` and `wy`, any amount, and any spread factor in `[0, 1)`: if the formula for the
other amount, moved by the error of its arithmetic, stays within the whole number that bounds
the fair amount, the swap does not lower `x ^ wx * y ^ wy`. -/
theorem weighted_product_kept (env : Env) (ε : ℝ) (hsqrt : SqrtWithin env.math ε) (p p' : Pool)
    (assetX assetY : PoolAsset) (wx wy : ℕ) (spreadFactor : Dec) (a : ℤ) (c : Coin) (hp : p.Wf)
    (hX : assetX ∈ p.poolAssets) (hY : assetY ∈ p.poolAssets) (hne : assetX ≠ assetY)
    (hwx : assetX.weight = wx * guaranteedWeightPrecision)
    (hwy : assetY.weight = wy * guaranteedWeightPrecision)
    (hfee : spreadFactor.raw < unit) (ha : 0 < a) :
    (swapOutAmtGivenIn env p [⟨assetX.token.denom, a⟩] assetY.token.denom spreadFactor
        = .ok (c, p') →
      PaysAtMost ε assetX.token.amount assetY.token.amount a wx wy spreadFactor →
      assetX.token.amount ^ wx * assetY.token.amount ^ wy
        ≤ p'.view.liquidity assetX.token.denom ^ wx * p'.view.liquidity assetY.token.denom ^ wy)
    ∧ (swapInAmtGivenOut env p [⟨assetY.token.denom, a⟩] assetX.token.denom spreadFactor
        = .ok (c, p') →
      TakesAtLeast ε assetX.token.amount assetY.token.amount a wx wy spreadFactor →
      assetX.token.amount ^ wx * assetY.token.amount ^ wy
        ≤ p'.view.liquidity assetX.token.denom ^ wx
          * p'.view.liquidity assetY.token.denom ^ wy) := by
  have hdenoms : assetX.token.denom ≠ assetY.token.denom :=
    fun h => hne (asset_eq_of_denom hp hX hY h)
  have hx := hp.amounts _ hX
  have hy := hp.amounts _ hY
  have hwxpos := user_weight_pos hp hX hwx
  have hwypos := user_weight_pos hp hY hwy
  constructor
  · intro h hmargin
    obtain ⟨c', p₁, hc, hswap, hres⟩ := bind2_ok h
    cases hres
    have hle := calcOutAmtGivenIn_le hp hsqrt hX hY hwx hwy hc hmargin
    obtain ⟨_, _, _, -, -, -, -, hcval, -⟩ := calcOutAmtGivenIn_ok hc
    have hcdenom : c.denom = assetY.token.denom := by rw [hcval]
    -- a fair amount is less than the reserve, so both balances are written
    have hlt : c.amount < net (tokens p.poolAssets) c.denom := by
      rw [hcdenom, net_eq_of_asset hp.nodup hY]
      have hy' : (0 : ℝ) < assetY.token.amount := by exact_mod_cast hy
      have hbase : (0 : ℝ) < assetX.token.amount / (assetX.token.amount + a) := by
        have hx' : (0 : ℝ) < assetX.token.amount := by exact_mod_cast hx
        have ha' : (0 : ℝ) < a := by exact_mod_cast ha
        positivity
      have hpow := Real.rpow_pos_of_pos hbase ((wx : ℝ) / wy)
      have hreal : (c.amount : ℝ) < assetY.token.amount := by
        unfold exactOut at hle
        nlinarith
      exact_mod_cast hreal
    obtain ⟨assets, rfl, hrec⟩ := applySwap_ok hp (hcdenom ▸ hdenoms) ha.le hlt hswap
    obtain ⟨hlx, hly⟩ := liquidity_of_moved ⟨assetX.token.denom, a⟩ c hp hX hY hdenoms rfl hcdenom
      hrec.moved
    rw [hlx, hly]
    exact product_le_of_exactOut hx (add_pos hx ha) hy hwypos hle
  · intro h hmargin
    obtain ⟨hc, -⟩ := swapInAmtGivenOut_calc h
    obtain ⟨hlt, hge⟩ := calcInAmtGivenOut_ge hp hsqrt hX hY hwx hwy hfee hc hmargin
    obtain ⟨hcdenom, -⟩ := calcInAmtGivenOut_ok hc
    have hout : (⟨assetY.token.denom, a⟩ : Coin).amount
        < net (tokens p.poolAssets) assetY.token.denom := by
      rw [net_eq_of_asset hp.nodup hY]
      exact hlt
    have hmoved : Moved (fun d => net [c] d - net [⟨assetY.token.denom, a⟩] d) 0 p.view p'.view :=
      (swapInAmtGivenOut_ok hp (by exact hdenoms) (by exact hout) h).1
    obtain ⟨hlx, hly⟩ := liquidity_of_moved c ⟨assetY.token.denom, a⟩ hp hX hY hdenoms hcdenom rfl
      hmoved
    rw [hlx, hly]
    exact product_le_of_exactIn hx (sub_pos.mpr hlt) hy hwxpos hge

end Trades

/-! ### Concrete swaps -/

lemma evenReserves_wf : (evenReserves 1000).Wf where
  nodup := by decide
  amounts := by decide
  weights := by decide
  totalWeight := by decide
  swapFee_nonneg := by decide
  swapFee_lt := by decide

/-- A square root in whole digits is less than one digit too small. -/
lemma chainMath_sqrt : SqrtWithin chainMath ulp where
  nonneg := ulp_pos.le
  ge d r hd h := by
    cases h
    refine ⟨Int.natCast_nonneg _, ?_⟩
    have hu := unit_cast_pos
    have hle : √d.toReal ≤ √((d.raw.natAbs * unit : ℕ) : ℝ) / unit := by
      rw [le_div_iff₀ hu, ← Real.sqrt_sq hu.le, ← Real.sqrt_mul' _ (sq_nonneg _)]
      apply Real.sqrt_le_sqrt
      have habs : (d.raw : ℝ) ≤ d.raw.natAbs := by
        rw [Nat.cast_natAbs, Int.cast_abs]
        exact le_abs_self _
      rw [Dec.toReal]
      push_cast
      calc (d.raw : ℝ) / unit * unit ^ 2 = d.raw * unit := by field_simp
        _ ≤ d.raw.natAbs * unit := by gcongr
    have hsucc := Real.real_sqrt_le_nat_sqrt_succ (a := d.raw.natAbs * unit)
    have hdiv := div_le_div_of_nonneg_right hsucc hu.le
    rw [add_div] at hdiv
    show √d.toReal - ulp ≤ ((Nat.sqrt (d.raw.natAbs * unit) : ℤ) : ℝ) / unit
    push_cast at hle hdiv ⊢
    unfold ulp
    linarith

/-- The ratio of equal weights is exact, and so is its power. -/
lemma Near.eq_one {w : ℕ} {e : ℝ} (hw : 0 < w) (h : Near w w e) : e = 1 := by
  unfold Near quoError at h
  rw [if_pos (dvd_mul_right _ _), div_self (by exact_mod_cast hw.ne')] at h
  exact sub_eq_zero.mp (abs_nonpos_iff.mp h)

lemma powError_one (ε b : ℝ) : powError ε b 1 = 0 := by
  unfold powError
  rw [Nat.floor_one, Int.fract_one, if_pos rfl]
  simp

lemma Near.ge {b : ℝ} (h : Near n d b) : (n : ℝ) / d - ulp ≤ b := by
  have hle := (abs_le.mp h).1
  have herr := quoError_unit_le n d
  nlinarith [ulp_pos, ulp_le]

lemma mul_ulp_lt_one {k : ℤ} (h : k < unit) : k * ulp < 1 := by
  rw [ulp, mul_one_div, div_lt_one unit_cast_pos]
  exact_mod_cast h

section Small

variable {x y a : ℤ} {w : ℕ} {spreadFactor : Dec} (hw : 0 < w) (hx : 0 < x) (ha : 0 < a)
  (hfee : 0 ≤ spreadFactor.raw) (hfee' : spreadFactor.raw < unit)

include hw hx ha hfee hfee'

/-- **Small reserves have the margin**, when the weights are equal: a fair amount that is not whole
differs from the next whole one by more than the error. -/
lemma paysAtMost_of_small (hy : 0 < y) (hsmall : y * (x + a) < unit) :
    PaysAtMost ε x y a w w spreadFactor := by
  intro b e hb he
  rw [he.eq_one hw, powError_one, Real.rpow_one, add_zero, exactOut,
    div_self (by exact_mod_cast hw.ne'), Real.rpow_one]
  have hsum : (0 : ℝ) < x + a := by exact_mod_cast add_pos hx ha
  have hexact : (y : ℝ) * (1 - x / (x + a)) = y * a / (x + a) := by
    field_simp
    ring
  -- the spread factor only makes the quotient larger
  have hb' : (x : ℝ) / (x + a) - ulp ≤ b := by
    refine le_trans (sub_le_sub_right ?_ _) hb.ge
    have hpos : 0 < x * unit + a * (unit - spreadFactor.raw) := by
      have := mul_pos ha (sub_pos.mpr hfee')
      positivity
    rw [div_le_div_iff₀ hsum (by exact_mod_cast hpos)]
    have : 0 ≤ x * (a * spreadFactor.raw) := by positivity
    exact_mod_cast (by linarith : x * (x * unit + a * (unit - spreadFactor.raw))
      ≤ x * unit * (x + a))
  have hfloor := Int.lt_floor_add_one ((y : ℝ) * a / (x + a))
  rw [hexact]
  generalize ⌊(y : ℝ) * a / (x + a)⌋ = f at hfloor ⊢
  rw [div_lt_iff₀ hsum] at hfloor
  have hwhole : y * a + 1 ≤ (f + 1) * (x + a) := by exact_mod_cast hfloor
  have hwhole' : (y : ℝ) * a + 1 ≤ (f + 1) * (x + a) := by exact_mod_cast hwhole
  have hulp := mul_ulp_lt_one hsmall
  push_cast at hulp
  have hy' : (0 : ℝ) < y := by exact_mod_cast hy
  refine lt_of_mul_lt_mul_right ?_ hsum.le
  calc (y : ℝ) * (1 - b) * (x + a) ≤ y * (1 - (x / (x + a) - ulp)) * (x + a) := by gcongr
    _ = y * a + y * (x + a) * ulp := by
        field_simp
        ring
    _ < (f + 1) * (x + a) := by linarith

lemma takesAtLeast_of_small (hya : a < y) (hsmall : (x + 1) * (y - a) < unit) :
    TakesAtLeast ε x y a w w spreadFactor := by
  intro b e hb he
  rw [he.eq_one hw, powError_one, Real.rpow_one, sub_zero, exactIn,
    div_self (by exact_mod_cast hw.ne'), Real.rpow_one]
  have hleft : (0 : ℝ) < y - a := by exact_mod_cast sub_pos.mpr hya
  have hx' : (0 : ℝ) < x := by exact_mod_cast hx
  have ha' : (0 : ℝ) < a := by exact_mod_cast ha
  have hexact : (x : ℝ) * (y / (y - a) - 1) = x * a / (y - a) := by
    field_simp
    ring
  have hb' := hb.ge
  push_cast at hb'
  have hceil := Int.ceil_lt_add_one ((x : ℝ) * a / (y - a))
  have hpos : 0 < ⌈(x : ℝ) * a / (y - a)⌉ := Int.ceil_pos.mpr (by positivity)
  rw [hexact]
  generalize ⌈(x : ℝ) * a / (y - a)⌉ = c at hceil hpos ⊢
  rw [← sub_lt_iff_lt_add, lt_div_iff₀ hleft] at hceil
  have hwhole : (c - 1) * (y - a) + 1 ≤ x * a := by exact_mod_cast hceil
  have hwhole' : ((c : ℝ) - 1) * (y - a) + 1 ≤ x * a := by exact_mod_cast hwhole
  have hulp := mul_ulp_lt_one hsmall
  push_cast at hulp
  have hmargin : (c : ℝ) - 1 < x * (y / (y - a) - ulp - 1) - ulp := by
    refine lt_of_mul_lt_mul_right ?_ hleft.le
    calc ((c : ℝ) - 1) * (y - a) < x * a - (x + 1) * (y - a) * ulp := by linarith
      _ = (x * (y / (y - a) - ulp - 1) - ulp) * (y - a) := by
          field_simp
          ring
  have hround : (if spreadFactor.raw = 0 then 0 else (1 / 2 + ulp) * ulp) ≤ ulp := by
    split
    · exact ulp_pos.le
    · nlinarith [ulp_pos, ulp_le]
  have hc : (1 : ℝ) ≤ c := by exact_mod_cast hpos
  have hmore : x * (y / (y - a) - ulp - 1) ≤ x * (b - 1) := by gcongr
  have hspread : 0 < 1 - spreadFactor.toReal ∧ 1 - spreadFactor.toReal ≤ 1 := by
    rw [← toReal_one]
    exact ⟨sub_pos.mpr (toReal_lt_toReal hfee'), sub_le_self _ (toReal_nonneg hfee)⟩
  have hdiv : x * (b - 1) ≤ x * (b - 1) / (1 - spreadFactor.toReal) :=
    le_div_self (by linarith [ulp_pos]) hspread.1 hspread.2
  linarith

end Small

/-- Ten bar for nine foo, and twelve bar for eleven foo. -/
theorem weighted_product_kept_even :
    (∃ c p', swapOutAmtGivenIn chainEnv (evenReserves 1000) [⟨ascii "bar", 10⟩] (ascii "foo")
        Dec.zero = .ok (c, p')
      ∧ (1000 : ℤ) ^ 1 * 1000 ^ 1
        ≤ p'.view.liquidity (ascii "bar") ^ 1 * p'.view.liquidity (ascii "foo") ^ 1)
    ∧ ∃ c p', swapInAmtGivenOut chainEnv (evenReserves 1000) [⟨ascii "foo", 11⟩] (ascii "bar")
        Dec.zero = .ok (c, p')
      ∧ (1000 : ℤ) ^ 1 * 1000 ^ 1
        ≤ p'.view.liquidity (ascii "bar") ^ 1 * p'.view.liquidity (ascii "foo") ^ 1 := by
  have kept := fun p' a c => weighted_product_kept chainEnv ulp chainMath_sqrt (evenReserves 1000) p'
    ⟨⟨ascii "bar", 1000⟩, guaranteedWeightPrecision⟩
    ⟨⟨ascii "foo", 1000⟩, guaranteedWeightPrecision⟩ 1 1 Dec.zero a c
    evenReserves_wf (by decide) (by decide) (by decide) (by decide) (by decide)
    (by decide)
  constructor
  · obtain ⟨⟨c, p'⟩, hswap, -⟩ := ok_of_toOption
      (show (swapOutAmtGivenIn chainEnv (evenReserves 1000) [⟨ascii "bar", 10⟩] (ascii "foo")
        Dec.zero).toOption.map (·.1.amount) = some 9 by decide +kernel)
    refine ⟨c, p', hswap, (kept p' 10 c (by decide)).1 hswap ?_⟩
    exact paysAtMost_of_small (by decide) (by decide) (by decide) (by decide) (by decide) (by decide)
      (by decide)
  · obtain ⟨⟨c, p'⟩, hswap, -⟩ := ok_of_toOption
      (show (swapInAmtGivenOut chainEnv (evenReserves 1000) [⟨ascii "foo", 11⟩] (ascii "bar")
        Dec.zero).toOption.map (·.1.amount) = some 12 by decide +kernel)
    refine ⟨c, p', hswap, (kept p' 11 c (by decide)).2 hswap ?_⟩
    exact takesAtLeast_of_small (by decide) (by decide) (by decide) (by decide) (by decide)
      (by decide) (by decide)

/-- With `3 * 10 ^ 18` of both assets, two bar buy three foo, and three bar buy four foo. -/
theorem product_lost :
    (∃ c p', swapOutAmtGivenIn chainEnv (evenReserves (3 * 10 ^ 18)) [⟨ascii "bar", 2⟩]
        (ascii "foo") Dec.zero = .ok (c, p')
      ∧ p'.view.liquidity (ascii "bar") * p'.view.liquidity (ascii "foo")
        < (3 * 10 ^ 18) * (3 * 10 ^ 18))
    ∧ ∃ c p', swapInAmtGivenOut chainEnv (evenReserves (3 * 10 ^ 18)) [⟨ascii "foo", 4⟩]
        (ascii "bar") Dec.zero = .ok (c, p')
      ∧ p'.view.liquidity (ascii "bar") * p'.view.liquidity (ascii "foo")
        < (3 * 10 ^ 18) * (3 * 10 ^ 18) := by
  constructor
  · obtain ⟨⟨c, p'⟩, hswap, hlt⟩ := ok_of_toOption
      (show (swapOutAmtGivenIn chainEnv (evenReserves (3 * 10 ^ 18)) [⟨ascii "bar", 2⟩]
        (ascii "foo") Dec.zero).toOption.map (fun r => decide (r.2.view.liquidity (ascii "bar")
          * r.2.view.liquidity (ascii "foo") < (3 * 10 ^ 18) * (3 * 10 ^ 18))) = some true by
        decide +kernel)
    exact ⟨c, p', hswap, of_decide_eq_true hlt⟩
  · obtain ⟨⟨c, p'⟩, hswap, hlt⟩ := ok_of_toOption
      (show (swapInAmtGivenOut chainEnv (evenReserves (3 * 10 ^ 18)) [⟨ascii "foo", 4⟩]
        (ascii "bar") Dec.zero).toOption.map (fun r => decide (r.2.view.liquidity (ascii "bar")
          * r.2.view.liquidity (ascii "foo") < (3 * 10 ^ 18) * (3 * 10 ^ 18))) = some true by
        decide +kernel)
    exact ⟨c, p', hswap, of_decide_eq_true hlt⟩

end MaanyDex.Gamm.Balancer
