/-
What the moves of weighted pools do to the record.

All updates of the record go through the replacement of one asset, which changes one
balance and keeps denominations and weights (`Recorded.set`).  Additions are exact
(`addToPoolAssetBalances_ok`).  Overwriting is exact for the denominations that are listed
and does nothing for the others (`updatePoolAssetBalances_ok`); since coin sets hold no
zeros, a balance that should become zero is among the others.

`SwapOutAmtGivenIn` empties the asset that it pays out exactly when
the power it computes is not positive (`calcOutAmtGivenIn_lt_iff`).
-/
import MaanyDex.Gamm.BalancerMoves

namespace MaanyDex.Gamm.Balancer

open Osmomath List FixedPoint Dec
open Run (bind_ok bind2_ok bind3_ok)
open Dec (unit)

variable {env : Env} {p p' : Pool}

/-! ### Changes of the record -/

/-- The record of `assets'` is that of `assets` plus `delta`; denominations and weights
are the same, and balances stay positive. -/
structure Recorded (delta : Denom → ℤ) (assets assets' : List PoolAsset) : Prop where
  denoms : (tokens assets').map (·.denom) = (tokens assets).map (·.denom)
  weights : assets'.map (·.weight) = assets.map (·.weight)
  amounts : (∀ a ∈ assets, 0 < a.token.amount) → ∀ a ∈ assets', 0 < a.token.amount
  net : ∀ d, net (tokens assets') d = net (tokens assets) d + delta d

section Recorded

variable {delta delta' : Denom → ℤ} {assets assets₁ assets' : List PoolAsset}

lemma Recorded.refl (assets : List PoolAsset) : Recorded (fun _ => 0) assets assets where
  denoms := rfl
  weights := rfl
  amounts := id
  net _ := (add_zero _).symm

lemma Recorded.trans (h : Recorded delta assets assets₁) (h' : Recorded delta' assets₁ assets') :
    Recorded (fun d => delta d + delta' d) assets assets' where
  denoms := h'.denoms.trans h.denoms
  weights := h'.weights.trans h.weights
  amounts hpos := h'.amounts (h.amounts hpos)
  net d := by rw [h'.net, h.net, add_assoc]

lemma Recorded.congr (h : Recorded delta assets assets') (hd : ∀ d, delta d = delta' d) :
    Recorded delta' assets assets' := by
  rw [← show delta = delta' from funext hd]
  exact h

variable {c : Coin} {a : PoolAsset}

lemma Recorded.set {i : ℕ} (hi : assets[i]? = some a)
    (hc : c.denom = a.token.denom) (hpos : 0 < a.token.amount → 0 < c.amount) :
    Recorded (fun d => if c.denom = d then c.amount - a.token.amount else 0) assets
      (assets.set i { a with token := c }) := by
  obtain ⟨hlt, rfl⟩ := List.getElem?_eq_some_iff.mp hi
  obtain ⟨before, after, hsplit, -, hset⟩ : ∃ before after,
      assets = before ++ assets[i] :: after ∧ before.length = i
        ∧ assets.set i { assets[i] with token := c }
          = before ++ { assets[i] with token := c } :: after :=
    exists_of_set hlt
  rw [hset]
  generalize assets[i] = a at *
  subst hsplit
  constructor
  · simp [tokens, hc]
  · simp
  · intro hall b hb
    rw [mem_append, mem_cons] at hb
    rcases hb with hb | rfl | hb
    · exact hall b (by simp [hb])
    · exact hpos (hall a (by simp))
    · exact hall b (by simp [hb])
  · intro d
    simp only [tokens, map_append, map_cons, net_append, net_cons, hc]
    split <;> ring

end Recorded

variable {assets : List PoolAsset}

lemma Pool.Wf.recorded {delta : Denom → ℤ} (hp : p.Wf)
    (h : Recorded delta p.poolAssets assets) : ({ p with poolAssets := assets } : Pool).Wf where
  nodup := h.denoms ▸ hp.nodup
  amounts := h.amounts hp.amounts
  weights a ha := by
    have hmem : a.weight ∈ p.poolAssets.map (·.weight) := h.weights ▸ mem_map_of_mem ha
    obtain ⟨b, hb, hba⟩ := mem_map.mp hmem
    rw [← hba]
    exact hp.weights b hb
  totalWeight := by
    show p.totalWeight = (assets.map (·.weight)).sum
    rw [h.weights, hp.totalWeight]
  swapFee_nonneg := hp.swapFee_nonneg
  swapFee_lt := hp.swapFee_lt

lemma Pool.Wf.withShares (hp : p.Wf) (shares : Coin) :
    ({ p with totalShares := shares } : Pool).Wf :=
  ⟨hp.nodup, hp.amounts, hp.weights, hp.totalWeight, hp.swapFee_nonneg, hp.swapFee_lt⟩

/-! ### Lookups -/

section Lookups

variable {assets : List PoolAsset} {d : Denom} {a : PoolAsset}

lemma getPoolAssetByDenom_eq_some (h : getPoolAssetByDenom assets d = some a) :
    a ∈ assets ∧ a.token.denom = d :=
  ⟨mem_of_find?_eq_some h, by simpa using List.find?_some h⟩

lemma getPoolAssetAndIndex_ok {i : ℕ} (h : getPoolAssetAndIndex assets d = .ok (i, a)) :
    assets[i]? = some a ∧ a.token.denom = d := by
  obtain ⟨_, -, h⟩ := bind_ok h
  simp only at h
  split at h
  · cases h
  · rename_i asset hasset
    obtain ⟨_, hdenom, h⟩ := bind_ok h
    cases h
    exact ⟨hasset, of_decide_eq_true (ensure_ok hdenom)⟩

lemma net_eq_of_asset (hnodup : ((tokens assets).map (·.denom)).Nodup) (ha : a ∈ assets) :
    net (tokens assets) a.token.denom = a.token.amount :=
  net_eq_of_mem hnodup (mem_map_of_mem ha)

variable {a' : PoolAsset}

lemma parsePoolAssetsByDenoms_ok {d' : Denom} (h : parsePoolAssetsByDenoms p d d' = .ok (a, a')) :
    (a ∈ p.poolAssets ∧ a.token.denom = d) ∧ a' ∈ p.poolAssets ∧ a'.token.denom = d' := by
  unfold parsePoolAssetsByDenoms at h
  split at h
  · rename_i b b' hb hb'
    cases h
    exact ⟨getPoolAssetByDenom_eq_some hb, getPoolAssetByDenom_eq_some hb'⟩
  · cases h

lemma parsePoolAssets_ok {cs : Coins} (h : parsePoolAssets p cs d = .ok (c, a, a')) :
    cs = [c] ∧ parsePoolAssetsByDenoms p c.denom d = .ok (a, a') := by
  unfold parsePoolAssets at h
  split at h
  · obtain ⟨⟨b, b'⟩, hparse, h⟩ := bind_ok h
    cases h
    exact ⟨rfl, hparse⟩
  · cases h

end Lookups

/-! ### Overwriting and adding -/

variable {coin : Coin}

lemma updatePoolAssetBalance_ok (hnodup : ((tokens p.poolAssets).map (·.denom)).Nodup)
    (h : updatePoolAssetBalance p coin = .ok p') :
    ∃ assets, p' = { p with poolAssets := assets } ∧
      Recorded (fun d => if coin.denom = d then coin.amount - net (tokens p.poolAssets) d else 0)
        p.poolAssets assets := by
  obtain ⟨⟨i, a⟩, hlookup, h⟩ := bind_ok h
  obtain ⟨_, hpos, h⟩ := bind_ok h
  cases h
  obtain ⟨hi, hd⟩ := getPoolAssetAndIndex_ok hlookup
  refine ⟨_, rfl, (Recorded.set hi hd.symm fun _ => ?_).congr fun d => ?_⟩
  · exact of_decide_eq_true (ensure_ok hpos)
  · split
    · rename_i hcd
      rw [← hcd, ← hd, net_eq_of_asset hnodup (mem_of_getElem? hi)]
    · rfl

variable {coins : Coins}

lemma updatePoolAssetBalances_id
    (h : updatePoolAssetBalances env p coins = .ok p') : p'.id = p.id := by
  obtain ⟨_, -, h⟩ := bind_ok h
  refine Run.foldlM_invariant (I := fun q => q.id = p.id) rfl (fun q coin q' hq h => ?_) h
  obtain ⟨_, _, -, -, h⟩ := bind2_ok h
  cases h
  exact hq

/-- **Overwriting sets the balances that are listed, and no others.** -/
lemma updatePoolAssetBalances_ok (hnodup : ((tokens p.poolAssets).map (·.denom)).Nodup)
    (h : updatePoolAssetBalances env p coins = .ok p') :
    ∃ assets, p' = { p with poolAssets := assets } ∧
      Recorded (fun d => if d ∈ coins.map (·.denom) then net coins d - net (tokens p.poolAssets) d
        else 0) p.poolAssets assets := by
  obtain ⟨_, hvalid, hfold⟩ := bind_ok h
  have hcoins := isValid_nodup (ensure_ok hvalid)
  clear h hvalid
  induction coins generalizing p with
  | nil =>
    cases hfold
    exact ⟨_, rfl, (Recorded.refl _).congr fun d => by simp⟩
  | cons coin coins ih =>
    rw [foldlM_cons] at hfold
    obtain ⟨p₁, hp₁, hfold⟩ := bind_ok hfold
    rw [map_cons, nodup_cons] at hcoins
    obtain ⟨assets₁, rfl, hrec⟩ := updatePoolAssetBalance_ok hnodup hp₁
    have hnodup₁ : ((tokens assets₁).map (·.denom)).Nodup := hrec.denoms ▸ hnodup
    obtain ⟨assets, rfl, hrec'⟩ := ih (p := { p with poolAssets := assets₁ }) hnodup₁ hfold hcoins.2
    refine ⟨assets, rfl, (hrec.trans hrec').congr fun d => ?_⟩
    -- no denomination is written twice
    by_cases hd : coin.denom = d
    · subst hd
      rw [if_pos rfl, if_neg hcoins.1, if_pos (by simp), net_cons, if_pos rfl,
        net_eq_zero_of_notMem hcoins.1]
      ring
    · rw [if_neg hd, zero_add, hrec.net, if_neg hd, add_zero, net_cons, if_neg hd, zero_add]
      simp [Ne.symm hd]

lemma addToPoolAssetBalance_ok (hcoin : 0 ≤ coin.amount)
    (h : addToPoolAssetBalance p coin = .ok p') :
    ∃ assets, p' = { p with poolAssets := assets } ∧ Recorded (net [coin]) p.poolAssets assets := by
  obtain ⟨⟨i, a⟩, hlookup, h⟩ := bind_ok h
  obtain ⟨amount, hamount, h⟩ := bind_ok h
  cases h
  obtain ⟨hi, hd⟩ := getPoolAssetAndIndex_ok hlookup
  have hamount' := checkedInt_ok hamount
  refine ⟨_, rfl, (Recorded.set (c := ⟨a.token.denom, amount⟩) hi rfl fun hpos => ?_).congr
    fun d => ?_⟩
  · show 0 < amount
    omega
  · rw [net_cons, net_nil, add_zero, hd, hamount', add_sub_cancel_left]

/-- **Additions are exact.** -/
lemma addToPoolAssetBalances_ok (hcoins : ∀ c ∈ coins, 0 ≤ c.amount)
    (h : addToPoolAssetBalances p coins = .ok p') :
    ∃ assets, p' = { p with poolAssets := assets } ∧ Recorded (net coins) p.poolAssets assets := by
  unfold addToPoolAssetBalances at h
  induction coins generalizing p with
  | nil =>
    cases h
    exact ⟨_, rfl, Recorded.refl _⟩
  | cons coin coins ih =>
    rw [foldlM_cons] at h
    obtain ⟨p₁, hp₁, h⟩ := bind_ok h
    obtain ⟨assets₁, rfl, hrec⟩ := addToPoolAssetBalance_ok (hcoins coin (by simp)) hp₁
    obtain ⟨assets, rfl, hrec'⟩ := ih (fun c hc => hcoins c (by simp [hc])) h
    refine ⟨assets, rfl, (hrec.trans hrec').congr fun d => ?_⟩
    rw [net_cons, net_nil, net_cons, add_zero]

lemma poolAssetsCoins_ok
    (hpos : ∀ a ∈ assets, 0 < a.token.amount) (h : poolAssetsCoins assets = .ok coins) :
    (∀ d, net coins d = net (tokens assets) d) ∧ (coins.map (·.denom)).Nodup
      ∧ (∀ c ∈ coins, 0 < c.amount) := by
  obtain ⟨hnet, hnodup, hne⟩ := foldlM_coinsAdd_ok (by simp) h
  refine ⟨fun d => by simpa [tokens] using hnet d, hnodup, fun c hc => ?_⟩
  have hamount : 0 ≤ net coins c.denom := by
    rw [hnet, net_nil, zero_add]
    apply net_nonneg
    intro c' hc'
    obtain ⟨a, ha, rfl⟩ := mem_map.mp hc'
    exact (hpos a ha).le
  rw [net_eq_of_mem hnodup hc] at hamount
  exact lt_of_le_of_ne hamount (hne c hc).symm

/-! ### Swaps -/

variable {tokenIn tokenOut : Coin}

/-- **A swap that leaves something of both assets is recorded exactly.** -/
lemma applySwap_ok (hp : p.Wf) (hne : tokenIn.denom ≠ tokenOut.denom) (hin : 0 ≤ tokenIn.amount)
    (hout : tokenOut.amount < net (tokens p.poolAssets) tokenOut.denom)
    (h : applySwap env p tokenIn tokenOut = .ok p') :
    ∃ assets, p' = { p with poolAssets := assets } ∧
      Recorded (fun d => net [tokenIn] d - net [tokenOut] d) p.poolAssets assets := by
  obtain ⟨⟨a, a'⟩, hparse, h⟩ := bind_ok h
  obtain ⟨inAmount, outAmount, coins, hinAmount, houtAmount, hcoins, h⟩ := bind3_ok h
  obtain ⟨⟨ha, had⟩, ha', had'⟩ := parsePoolAssetsByDenoms_ok hparse
  have hina : inAmount = a.token.amount + tokenIn.amount := checkedInt_ok hinAmount
  have houta : outAmount = a'.token.amount - tokenOut.amount := checkedInt_ok houtAmount
  have hneta := net_eq_of_asset hp.nodup ha
  have hneta' := net_eq_of_asset hp.nodup ha'
  rw [had] at hneta
  rw [had'] at hneta'
  have hpos : 0 < inAmount := by
    have := hp.amounts a ha
    omega
  have hpos' : 0 < outAmount := by omega
  obtain ⟨hnet, -, hperm⟩ := newCoins_ok hcoins
  -- neither balance is zero, so both are written
  rw [filter_eq_self.mpr (by simp [hpos.ne', hpos'.ne'])] at hperm
  obtain ⟨assets, hassets, hrec⟩ := updatePoolAssetBalances_ok hp.nodup h
  refine ⟨assets, hassets, hrec.congr fun d => ?_⟩
  have hmem : d ∈ coins.map (·.denom) ↔ d = tokenIn.denom ∨ d = tokenOut.denom := by
    rw [(hperm.map _).mem_iff]
    simp [had, had']
  have hnetd := hnet d
  simp only [net_cons, net_nil, had, had'] at hnetd ⊢
  by_cases hd : tokenIn.denom = d
  · have hd' : tokenOut.denom ≠ d := fun e => hne (hd.trans e.symm)
    rw [if_pos (hmem.mpr (.inl hd.symm)), hnetd]
    subst hd
    simp only [if_pos, if_neg hd', hneta, hina]
    ring
  · by_cases hd' : tokenOut.denom = d
    · rw [if_pos (hmem.mpr (.inr hd'.symm)), hnetd]
      subst hd'
      simp only [if_pos, if_neg hd, hneta', houta]
      ring
    · rw [if_neg (fun hin => (hmem.mp hin).elim (fun e => hd e.symm) fun e => hd' e.symm),
        if_neg hd, if_neg hd']
      ring

lemma applySwap_id (h : applySwap env p tokenIn tokenOut = .ok p') : p'.id = p.id := by
  obtain ⟨_, _, -, -, h⟩ := bind2_ok h
  obtain ⟨_, _, -, -, h⟩ := bind2_ok h
  exact updatePoolAssetBalances_id h

variable {tokensIn : Coins} {denom : Denom} {spreadFactor : Dec}

lemma calcOutAmtGivenIn_ok (h : calcOutAmtGivenIn env p tokensIn denom spreadFactor = .ok c) :
    ∃ tokenIn a' power, tokensIn = [tokenIn] ∧ a' ∈ p.poolAssets ∧ a'.token.denom = denom
      ∧ swapPower env p tokenIn denom spreadFactor = .ok power
      ∧ c = ⟨denom, ((unit - power.raw) * a'.token.amount).tdiv unit⟩ ∧ 0 < c.amount := by
  obtain ⟨⟨tokenIn, a, a'⟩, hparse, h⟩ := bind_ok h
  obtain ⟨after, out, hafter, hout, h⟩ := bind2_ok h
  obtain ⟨n, _, hn, hpos, hcoin⟩ := bind2_ok h
  obtain ⟨power, rest, hpower, hrest, hout⟩ := bind2_ok hout
  obtain ⟨rfl, hparse'⟩ := parsePoolAssets_ok hparse
  obtain ⟨-, ha', had'⟩ := parsePoolAssetsByDenoms_ok hparse'
  obtain ⟨rfl, -, -⟩ := newCoin_ok hcoin
  have hn' : n = ((unit - power.raw) * a'.token.amount).tdiv unit := by
    rw [truncateInt_ok hn, mul_ok hout, sub_ok hrest]
    show (FixedPoint.mul unit ((unit : ℤ) - power.raw) (a'.token.amount * unit)).tdiv _ = _
    rw [mul_whole unit_pos]
  refine ⟨tokenIn, a', power, rfl, ha', had', ?_, ?_, of_decide_eq_true (ensure_ok hpos)⟩
  · show (parsePoolAssetsByDenoms p tokenIn.denom denom >>= _) = _
    rw [hparse']
    show (poolPostSwapInBalance env a tokenIn spreadFactor >>= _) = _
    rw [hafter]
    exact hpower
  · rw [hn']

/-- **A swap pays out less than the pool has exactly when the power it computes is
positive.** -/
lemma calcOutAmtGivenIn_lt_iff {power : Dec} (hp : p.Wf)
    (h : calcOutAmtGivenIn env p [tokenIn] denom spreadFactor = .ok c)
    (hpower : swapPower env p tokenIn denom spreadFactor = .ok power) :
    c.amount < net (tokens p.poolAssets) denom ↔ 0 < power.raw := by
  obtain ⟨tokenIn', a', power', hcons, ha', rfl, hpower', rfl, hpos⟩ := calcOutAmtGivenIn_ok h
  cases hcons
  rw [hpower] at hpower'
  cases hpower'
  rw [net_eq_of_asset hp.nodup ha']
  have hbal := hp.amounts a' ha'
  have hunit := unit_pos_int
  show ((unit - power.raw) * a'.token.amount).tdiv unit < a'.token.amount ↔ _
  change 0 < ((unit - power.raw) * a'.token.amount).tdiv unit at hpos
  -- what is paid out is positive, so truncation is rounding down
  have hnum : 0 ≤ ((unit : ℤ) - power.raw) * a'.token.amount := by
    by_contra hneg
    have hle : ((unit - power.raw) * a'.token.amount).tdiv unit ≤ 0 := by
      rw [← neg_neg ((unit - power.raw) * a'.token.amount), Int.neg_tdiv]
      have := Int.tdiv_nonneg (show 0 ≤ -((unit - power.raw) * a'.token.amount) by omega) hunit.le
      omega
    omega
  rw [Int.tdiv_eq_ediv_of_nonneg hnum, Int.ediv_lt_iff_lt_mul hunit, mul_comm a'.token.amount]
  rw [mul_lt_mul_iff_of_pos_right hbal]
  omega

lemma Recorded.moved {delta : Denom → ℤ} (h : Recorded delta p.poolAssets assets) :
    Moved delta 0 p.view ({ p with poolAssets := assets } : Pool).view where
  id := rfl
  totalShares := by
    show p.totalShares = ⟨p.totalShares.denom, p.totalShares.amount + 0⟩
    rw [add_zero]
  liquidity := h.net

/-- **Swaps for an exact amount in** are recorded exactly when the power that they compute
does not underflow. -/
lemma swapOutAmtGivenIn_ok (hp : p.Wf) (hne : tokenIn.denom ≠ denom) (hin : 0 ≤ tokenIn.amount)
    (hpower : ∀ power, swapPower env p tokenIn denom spreadFactor = .ok power → 0 < power.raw)
    (h : swapOutAmtGivenIn env p [tokenIn] denom spreadFactor = .ok (c, p')) :
    Moved (fun d => net [tokenIn] d - net [c] d) 0 p.view p'.view ∧ p'.Wf := by
  obtain ⟨c', p₁, hc, hswap, h⟩ := bind2_ok h
  cases h
  obtain ⟨_, a', power, hcons, -, -, hpow, hval, -⟩ := calcOutAmtGivenIn_ok hc
  cases hcons
  have hlt := (calcOutAmtGivenIn_lt_iff hp hc hpow).mpr (hpower power hpow)
  have hdenom : c.denom = denom := by rw [hval]
  rw [← hdenom] at hne hlt
  obtain ⟨assets, rfl, hrec⟩ := applySwap_ok hp hne hin hlt hswap
  exact ⟨hrec.moved, hp.recorded hrec⟩

lemma swapOutAmtGivenIn_calc
    (h : swapOutAmtGivenIn env p tokensIn denom spreadFactor = .ok (c, p')) :
    calcOutAmtGivenIn env p tokensIn denom spreadFactor = .ok c ∧ p'.id = p.id := by
  obtain ⟨c', hc, h⟩ := bind_ok h
  split at h
  · obtain ⟨p₁, hswap, h⟩ := bind_ok h
    cases h
    exact ⟨hc, applySwap_id hswap⟩
  · cases h

variable {tokensOut : Coins}

lemma calcInAmtGivenOut_ok (h : calcInAmtGivenOut env p tokensOut denom spreadFactor = .ok c) :
    c.denom = denom ∧ 0 < c.amount := by
  obtain ⟨⟨_, _, _⟩, -, h⟩ := bind_ok h
  obtain ⟨_, _, _, -, -, -, h⟩ := bind3_ok h
  obtain ⟨_, _, _, -, -, hpos, h⟩ := bind3_ok h
  obtain ⟨rfl, -, -⟩ := newCoin_ok h
  exact ⟨rfl, of_decide_eq_true (ensure_ok hpos)⟩

lemma swapInAmtGivenOut_calc
    (h : swapInAmtGivenOut env p tokensOut denom spreadFactor = .ok (c, p')) :
    calcInAmtGivenOut env p tokensOut denom spreadFactor = .ok c ∧ p'.id = p.id := by
  obtain ⟨c', hc, h⟩ := bind_ok h
  split at h
  · obtain ⟨p₁, hswap, h⟩ := bind_ok h
    cases h
    exact ⟨hc, applySwap_id hswap⟩
  · cases h

/-- **Swaps for an exact amount out** that is less than the balance are recorded exactly. -/
lemma swapInAmtGivenOut_ok (hp : p.Wf) (hne : denom ≠ tokenOut.denom)
    (hout : tokenOut.amount < net (tokens p.poolAssets) tokenOut.denom)
    (h : swapInAmtGivenOut env p [tokenOut] denom spreadFactor = .ok (c, p')) :
    Moved (fun d => net [c] d - net [tokenOut] d) 0 p.view p'.view ∧ p'.Wf := by
  obtain ⟨c', p₁, hc, hswap, h⟩ := bind2_ok h
  cases h
  obtain ⟨hdenom, hpos⟩ := calcInAmtGivenOut_ok hc
  rw [← hdenom] at hne
  obtain ⟨assets, rfl, hrec⟩ := applySwap_ok hp hne hpos.le hout hswap
  exact ⟨hrec.moved, hp.recorded hrec⟩

/-! ### Joins -/

variable {n : ℤ}

lemma increaseLiquidity_ok (hp : p.Wf) (hcoins : ∀ c ∈ coins, 0 ≤ c.amount)
    (h : increaseLiquidity p n coins = .ok p') : Moved (net coins) n p.view p'.view ∧ p'.Wf := by
  obtain ⟨p₁, amount, hp₁, hamount, h⟩ := bind2_ok h
  cases h
  obtain ⟨assets, rfl, hrec⟩ := addToPoolAssetBalances_ok hcoins hp₁
  have hamount' : amount = p.totalShares.amount + n := checkedInt_ok hamount
  refine ⟨⟨rfl, ?_, hrec.net⟩, (hp.recorded hrec).withShares _⟩
  show (⟨p.totalShares.denom, amount⟩ : Coin) = _
  rw [hamount']
  rfl

variable {joined : Coins}

/-- A join without swaps is a join in the ratio of the pool, with what remains taken off. -/
lemma calcJoinPoolNoSwapShares_spec
    (h : calcJoinPoolNoSwapShares env p tokensIn = .ok (n, joined)) :
    tokensIn.length = p.poolAssets.length
      ∧ ∃ liquidity rem, poolAssetsCoins p.poolAssets = .ok liquidity
        ∧ maximalExactRatioJoin env.math p.totalShares.amount liquidity tokensIn = .ok (n, rem)
        ∧ coinsSub env.toSdk tokensIn rem = .ok joined := by
  obtain ⟨_, _, -, -, h⟩ := bind2_ok h
  obtain ⟨_, liquidity, ⟨n', rem⟩, hlength, hliq, hjoin, h⟩ := bind3_ok h
  obtain ⟨joined', _, _, hsub, -, -, h⟩ := bind3_ok h
  cases h
  exact ⟨of_decide_eq_true (ensure_ok hlength), liquidity, rem, hliq, hjoin, hsub⟩

lemma calcJoinPoolNoSwapShares_ok
    (h : calcJoinPoolNoSwapShares env p tokensIn = .ok (n, joined)) :
    (∀ d, net joined d ≤ net tokensIn d) ∧ ∀ c ∈ joined, 0 ≤ c.amount := by
  obtain ⟨-, liquidity, rem, -, -, hsub⟩ := calcJoinPoolNoSwapShares_spec h
  exact coinsSub_le hsub

variable {byDenom : List PoolAsset}

lemma calcJoinSingleAssetTokensIn_ok {liquidity : Coins} {totalShares : ℤ}
    (h : calcJoinSingleAssetTokensIn env p tokensIn totalShares byDenom spreadFactor
      = .ok (n, liquidity)) : ∀ d, net liquidity d = net tokensIn d := by
  -- every round adds its coin to the liquidity collected so far
  have key : ∀ (acc : ℤ × Coins), tokensIn.foldlM
      (joinSingleAsset env p totalShares byDenom spreadFactor) acc = .ok (n, liquidity) →
      ∀ d, net liquidity d = net acc.2 d + net tokensIn d := by
    clear h
    induction tokensIn with
    | nil =>
      intro acc h d
      cases h
      simp
    | cons coin rest ih =>
      intro acc h d
      rw [foldlM_cons] at h
      obtain ⟨acc', hacc', h⟩ := bind_ok h
      obtain ⟨_, _, -, -, hacc'⟩ := bind2_ok hacc'
      obtain ⟨sum, _, hsum, -, hacc'⟩ := bind2_ok hacc'
      cases hacc'
      rw [ih _ h d, (coinsAdd_ok hsum).1, net_cons, net_cons, net_nil]
      ring
  intro d
  rw [key _ h d, net_nil, zero_add]

lemma joinRemaining_ok {joined' : Coins} {n' : ℤ}
    (h : joinRemaining env p byDenom tokensIn spreadFactor n joined = .ok (n', joined')) :
    (∀ d, net joined' d = net tokensIn d) ∧ (joined'.map (·.denom)).Nodup := by
  obtain ⟨_, _, remaining, -, -, hsub, h⟩ := bind3_ok h
  obtain ⟨⟨_, liquidity⟩, hsingle, h⟩ := bind_ok h
  obtain ⟨_, _, -, hadd, h⟩ := bind2_ok h
  obtain ⟨_, _, -, -, h⟩ := bind2_ok h
  cases h
  obtain ⟨hnet, hnodup, -⟩ := coinsAdd_ok hadd
  refine ⟨fun d => ?_, hnodup⟩
  rw [hnet, calcJoinSingleAssetTokensIn_ok hsingle, (coinsSub_ok hsub).1]
  ring

/-- **A join records at most what was supplied.** -/
lemma calcJoinPoolShares_ok (hin : ∀ c ∈ tokensIn, 0 ≤ c.amount)
    (h : calcJoinPoolShares env p tokensIn spreadFactor = .ok (n, joined)) :
    (∀ d, net joined d ≤ net tokensIn d) ∧ ∀ c ∈ joined, 0 ≤ c.amount := by
  obtain ⟨_, _, -, -, h⟩ := bind2_ok h
  split at h
  · obtain ⟨_, -, h⟩ := bind_ok h
    cases h
    exact ⟨fun d => le_rfl, hin⟩
  · obtain ⟨_, ⟨n₁, joined₁⟩, -, hjoin, h⟩ := bind2_ok h
    obtain ⟨_, _, -, -, h⟩ := bind2_ok h
    split at h
    · cases h
      exact calcJoinPoolNoSwapShares_ok hjoin
    · obtain ⟨hnet, hnodup⟩ := joinRemaining_ok h
      refine ⟨fun d => (hnet d).le, fun c hc => ?_⟩
      rw [← net_eq_of_mem hnodup hc, hnet]
      exact net_nonneg hin _

lemma joinPool_ok (hp : p.Wf)
    (hin : ∀ c ∈ tokensIn, 0 ≤ c.amount) (h : joinPool env p tokensIn spreadFactor = .ok (n, p')) :
    ∃ joined, (∀ d, joined d ≤ net tokensIn d) ∧ Moved joined n p.view p'.view ∧ p'.Wf := by
  obtain ⟨⟨_, joined⟩, hcalc, h⟩ := bind_ok h
  obtain ⟨_, hinc, h⟩ := bind_ok h
  cases h
  obtain ⟨hle, hnonneg⟩ := calcJoinPoolShares_ok hin hcalc
  exact ⟨net joined, hle, increaseLiquidity_ok hp hnonneg hinc⟩

lemma joinPoolNoSwap_ok (hp : p.Wf) (h : joinPoolNoSwap env p tokensIn = .ok (n, p')) :
    ∃ joined, (∀ d, joined d ≤ net tokensIn d) ∧ Moved joined n p.view p'.view ∧ p'.Wf := by
  obtain ⟨⟨_, joined⟩, hcalc, h⟩ := bind_ok h
  obtain ⟨_, hinc, h⟩ := bind_ok h
  cases h
  obtain ⟨hle, hnonneg⟩ := calcJoinPoolNoSwapShares_ok hcalc
  exact ⟨net joined, hle, increaseLiquidity_ok hp hnonneg hinc⟩

/-! ### Exits -/

/-- **An exit that leaves something of every asset is recorded exactly.** -/
lemma applyExit_ok (hp : p.Wf)
    (hlt : ∀ a ∈ p.poolAssets, net coins a.token.denom < a.token.amount)
    (h : applyExit env p coins n = .ok p') :
    Moved (fun d => -net coins d) (-n) p.view p'.view ∧ p'.Wf := by
  obtain ⟨liquidity, balances, p₁, hliq, hsub, hupd, h⟩ := bind3_ok h
  obtain ⟨amount, shares, hamount, hshares, h⟩ := bind2_ok h
  cases h
  obtain ⟨hnetl, -, -⟩ := poolAssetsCoins_ok hp.amounts hliq
  obtain ⟨hnetb, hnodupb, hposb, hnonneg⟩ := coinsSub_ok hsub
  obtain ⟨assets, rfl, hrec⟩ := updatePoolAssetBalances_ok hp.nodup hupd
  obtain ⟨rfl, -, -⟩ := newCoin_ok hshares
  have hrec' : Recorded (fun d => -net coins d) p.poolAssets assets := by
    refine hrec.congr fun d => ?_
    split
    · rw [hnetb, hnetl]
      ring
    · -- what is not written is not an asset, and nothing of it is paid
      rename_i hd
      have hzero : net (tokens p.poolAssets) d = net coins d := by
        have hb := hnetb d
        rw [net_eq_zero_of_notMem hd, hnetl] at hb
        omega
      have hasset : d ∉ (tokens p.poolAssets).map (·.denom) := by
        intro hmem
        obtain ⟨c, hc, rfl⟩ := mem_map.mp hmem
        obtain ⟨a, ha, rfl⟩ := mem_map.mp hc
        have := hlt a ha
        rw [net_eq_of_asset hp.nodup ha] at hzero
        omega
      rw [← hzero, net_eq_zero_of_notMem hasset]
      rfl
  refine ⟨⟨rfl, ?_, hrec'.net⟩, (hp.recorded hrec').withShares _⟩
  show (⟨p.totalShares.denom, amount⟩ : Coin) = ⟨p.totalShares.denom, p.totalShares.amount + -n⟩
  rw [checkedInt_ok hamount, ← sub_eq_add_neg]

variable {exitFee : Dec}

lemma exitPool_ok (hp : p.Wf) (h : exitPool env p n exitFee = .ok (coins, p')) :
    Moved (fun d => -net coins d) (-n) p.view p'.view ∧ p'.Wf := by
  obtain ⟨liquidity, coins', p₁, hliq, hcalc, happly, h⟩ := bind3_ok h
  cases h
  obtain ⟨hnet, hnodup, hpos⟩ := poolAssetsCoins_ok hp.amounts hliq
  refine applyExit_ok hp (fun a ha => ?_) happly
  have hamount : net liquidity a.token.denom = a.token.amount := by
    rw [hnet, net_eq_of_asset hp.nodup ha]
  rw [← hamount]
  apply calcExitPool_ok hpos hcalc
  -- assets have positive balances, so none of them is missing from the liquidity
  by_contra hmem
  rw [net_eq_zero_of_notMem hmem] at hamount
  have := hp.amounts a ha
  omega

lemma weight_le_totalWeight (hp : p.Wf) (ha : a ∈ p.poolAssets) : a.weight ≤ p.totalWeight := by
  rw [hp.totalWeight]
  refine single_le_sum ?_ _ (mem_map_of_mem ha)
  intro w hw
  obtain ⟨b, hb, rfl⟩ := mem_map.mp hw
  exact (hp.weights b hb).le

variable {w : Dec}

lemma feeRatio_ok {ratio : Dec} (hp : p.Wf) (ha : a ∈ p.poolAssets)
    (hw : Dec.quo env.math (Dec.ofInt a.weight) (Dec.ofInt p.totalWeight) = .ok w)
    (h : feeRatio env w p.poolParams.swapFee = .ok ratio) :
    0 < ratio.raw ∧ ratio.raw ≤ unit := by
  obtain ⟨rest, fee, hrest, hfee, h⟩ := bind2_ok h
  have hunit := unit_pos_int
  have hweight := hp.weights a ha
  have hle := weight_le_totalWeight hp ha
  have hratio : ratio.raw = unit - fee.raw := sub_ok h
  have hrest' : rest.raw = unit - w.raw := sub_ok hrest
  have hwval := (quo_ok hw).2
  have hw0 : 0 ≤ w.raw := by
    rw [hwval]
    exact quo_nonneg (by show (0 : ℤ) ≤ a.weight * unit; positivity)
      (by show (0 : ℤ) ≤ p.totalWeight * unit; nlinarith)
  have hw1 : w.raw ≤ unit := by
    rw [hwval]
    exact quo_le_unit unit_pos
      (by show (0 : ℤ) ≤ a.weight * unit; positivity)
      (by show a.weight * (unit : ℤ) ≤ p.totalWeight * unit; nlinarith)
      (by show (0 : ℤ) < p.totalWeight * unit; nlinarith)
  have hfee0 : 0 ≤ fee.raw := by
    rw [mul_ok hfee]
    exact mul_nonneg (by omega) hp.swapFee_nonneg
  have hfee1 : fee.raw ≤ p.poolParams.swapFee.raw := by
    rw [mul_ok hfee]
    exact mul_le_of_le_unit unit_pos (by omega) hp.swapFee_nonneg
  have hlt := hp.swapFee_lt
  omega

lemma calcPoolSharesIn_lt {shares supply : Dec} (hp : p.Wf) (ha : a ∈ p.poolAssets)
    (hw : Dec.quo env.math (Dec.ofInt a.weight) (Dec.ofInt p.totalWeight) = .ok w)
    (h : calcPoolSharesInGivenSingleAssetOut env (Dec.ofInt a.token.amount) w supply (Dec.ofInt n)
      p.poolParams.swapFee exitFee = .ok shares) : n < a.token.amount := by
  obtain ⟨ratio, amount, hratio, hamount, h⟩ := bind2_ok h
  obtain ⟨after, sharesIn, hafter, hsolve, -⟩ := bind2_ok h
  obtain ⟨power, hpower, -⟩ := bind_ok hsolve
  obtain ⟨_, y, -, hy, hpower⟩ := bind2_ok hpower
  have hbal := hp.amounts a ha
  have hunit := unit_pos_int
  obtain ⟨hr0, hr1⟩ := feeRatio_ok hp ha hw hratio
  -- the base of the power is positive, so the balance exceeds the amount with its fee
  have hafter_pos : 0 < after.raw := by
    by_contra hneg
    have hle := quo_nonpos (p := unit) (show after.raw ≤ 0 by omega)
      (show (0 : ℤ) ≤ a.token.amount * unit by positivity)
    have hpos := pow_ok hpower
    rw [(quo_ok hy).2] at hpos
    exact absurd hle (not_le.mpr hpos)
  have hafter_val : after.raw = a.token.amount * unit - amount.raw := sub_ok hafter
  rcases lt_or_ge n 0 with hn | hn
  · omega
  · have hle : n * (unit : ℤ) ≤ amount.raw := by
      rw [(quo_ok hamount).2]
      exact le_quo_of_le_unit unit_pos (by positivity) hr0 hr1
    have hlt : n * (unit : ℤ) < a.token.amount * unit := by omega
    exact lt_of_mul_lt_mul_right hlt hunit.le

lemma exitSwapExactAmountOut_ok {shareInMaxAmount : ℤ} (hp : p.Wf)
    (h : exitSwapExactAmountOut env p tokenOut shareInMaxAmount = .ok (n, p')) :
    Moved (fun d => -net [tokenOut] d) (-n) p.view p'.view ∧ p'.Wf := by
  obtain ⟨⟨i, a⟩, hlookup, h⟩ := bind_ok h
  obtain ⟨w, shares, _, hw, hshares, -, h⟩ := bind3_ok h
  obtain ⟨_, _, -, -, h⟩ := bind2_ok h
  obtain ⟨coins, p₁, hcoins, happly, h⟩ := bind2_ok h
  cases h
  obtain ⟨hi, hd⟩ := getPoolAssetAndIndex_ok hlookup
  have ha := mem_of_getElem? hi
  have hlt := calcPoolSharesIn_lt hp ha hw hshares
  have hnet := (newCoins_ok hcoins).1
  have hmoved := applyExit_ok hp (fun b hb => ?_) happly
  · rw [show (fun d => -net [tokenOut] d) = fun d => -net coins d from
      funext fun d => by rw [hnet]]
    exact hmoved
  · rw [hnet, net_cons, net_nil, add_zero]
    split
    · rename_i hbd
      -- the asset that is paid out is the one whose balance was compared
      have hab : b.token.amount = a.token.amount := by
        rw [← net_eq_of_asset hp.nodup hb, ← net_eq_of_asset hp.nodup ha, ← hbd, hd]
      omega
    · exact hp.amounts b hb

end MaanyDex.Gamm.Balancer
