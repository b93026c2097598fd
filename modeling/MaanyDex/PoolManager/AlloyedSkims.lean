/-
What the assets of an alloyed pool get of taker fees.

With the normalised amounts `N` and their sum `T`, an asset whose agreement is for `s` gets

    round (round (N / T) * s)

of a fee.  Unrounded, that is `N s / T`, and at most one in total.  Rounded to the nearest, it
can be more by almost a last digit for every asset, and then all swaps of the share are refused
(`rounded_shares_refused`).
-/
import MaanyDex.PoolManager.ShareRecords
import MaanyDex.Gamm.TakerFee

namespace MaanyDex.PoolManager

open List Run

open FixedPoint hiding mul_nonneg
open Dec (unit)

variable {math : Math} (agreements : AList fun _ : Denom => TakerFeeShareAgreement)
  (factors : AList fun _ : Denom => Dec) (liquidity : List Coin)
  {shares : List TakerFeeShareAgreement} {store store' : KVStore}

/-! ### Percentages -/

/-- The normalisation factor of a coin, in the smallest unit. -/
def factor (c : Coin) : ℤ :=
  ((factors.lookup c.denom).map Dec.raw).getD 0

/-- The normalised amount of a coin, in the smallest unit. -/
def normalized (c : Coin) : ℤ :=
  FixedPoint.quo unit (c.amount * unit) (factor factors c)

/-- The coins that have an agreement. -/
def shareAssets : List (Coin × TakerFeeShareAgreement) :=
  liquidity.filterMap fun c => (agreements.lookup c.denom).map fun a => (c, a)

/-- The percentage that an asset gets when the total is `T`. -/
def scaledSkim (T : ℤ) (x : Coin × TakerFeeShareAgreement) : ℤ :=
  FixedPoint.mul unit (FixedPoint.quo unit (normalized factors x.1) T) x.2.skimPercent.raw

/-- Amounts are not negative, factors positive, percentages between zero and one, and
denominations have no separator in them. -/
structure ValidPool : Prop where
  amounts : ∀ c ∈ liquidity, 0 ≤ c.amount
  factors : ∀ c ∈ liquidity, 0 < factor factors c
  percents : ∀ d a, agreements.lookup d = some a → 0 ≤ a.skimPercent.raw ∧ a.skimPercent.raw ≤ unit
  denoms : ∀ c ∈ liquidity, 124 ∉ c.denom

variable {agreements factors liquidity}

lemma normalizedAmount_ok {c : Coin} {N : Dec} (h : normalizedAmount math factors c = .ok N) :
    N.raw = normalized factors c := by
  unfold normalizedAmount at h
  split at h
  · cases h
  · rename_i f hf
    rw [(Dec.quo_ok h).2, normalized, factor, hf]
    rfl

lemma totalAlloyedLiquidity_ok {T : Dec} {assets : List (Coin × TakerFeeShareAgreement)}
    (h : totalAlloyedLiquidity math agreements factors liquidity = .ok (T, assets)) :
    T.raw = (liquidity.map (normalized factors)).sum ∧ assets = shareAssets agreements liquidity := by
  unfold totalAlloyedLiquidity at h
  -- the induction needs an arbitrary start
  generalize hstart : (Dec.zero, ([] : List (Coin × TakerFeeShareAgreement))) = start at h
  have key : T.raw = start.1.raw + (liquidity.map (normalized factors)).sum
      ∧ assets = start.2 ++ shareAssets agreements liquidity := by
    clear hstart
    induction liquidity generalizing start with
    | nil =>
      cases h
      simp [shareAssets]
    | cons c cs ih =>
      rw [foldlM_cons] at h
      obtain ⟨⟨T₁, as₁⟩, hstep, h⟩ := bind_ok h
      obtain ⟨N, T₂, hN, hT₂, hstep⟩ := bind2_ok hstep
      have hraw : T₂.raw = start.1.raw + normalized factors c := by
        rw [Dec.checked_ok hT₂, normalizedAmount_ok hN]
      obtain ⟨hT, hassets⟩ := ih _ h
      unfold shareAssets at hassets ⊢
      rw [filterMap_cons, map_cons, sum_cons]
      split at hstep
      · rename_i hnone
        cases hstep
        rw [hT, hraw, hassets, hnone]
        exact ⟨by ring, rfl⟩
      · rename_i a ha
        cases hstep
        rw [hT, hraw, hassets, ha, append_assoc]
        exact ⟨by ring, rfl⟩
  subst hstart
  obtain ⟨hT, hassets⟩ := key
  exact ⟨by rw [hT]; exact zero_add _, hassets⟩

lemma calculateTakerFeeShareAgreements_ok
    (h : calculateTakerFeeShareAgreements math agreements liquidity factors = .ok shares) :
    (liquidity.map (normalized factors)).sum ≠ 0
      ∧ shares = (shareAssets agreements liquidity).map fun x =>
        ⟨x.1.denom, ⟨scaledSkim factors (liquidity.map (normalized factors)).sum x⟩,
          x.2.skimAddress⟩ := by
  unfold calculateTakerFeeShareAgreements at h
  obtain ⟨⟨T, assets⟩, htotal, h⟩ := bind_ok h
  obtain ⟨_, hzero, h⟩ := bind_ok h
  obtain ⟨hT, rfl⟩ := totalAlloyedLiquidity_ok htotal
  refine ⟨?_, mapM_ok_map h ?_⟩
  · rw [← hT]
    simpa [Dec.isZero] using ensure_ok hzero
  · intro x _ b hb
    obtain ⟨N, r, s, hN, hr, hs, hb⟩ := bind3_ok hb
    cases hb
    have hraw : s.raw = scaledSkim factors (liquidity.map (normalized factors)).sum x := by
      rw [Dec.mul_ok hs, (Dec.quo_ok hr).2, normalizedAmount_ok hN, hT]
      rfl
    rw [← hraw]

/-! ### Room for rounding -/

variable (agreements factors liquidity)

/-- The normalised amount of a coin without rounding. -/
noncomputable def exactAmount (c : Coin) : ℝ :=
  (c.amount * unit : ℤ) / factor factors c

/-- By how much the normalised amount of a coin is off: not at all if it needs no rounding. -/
noncomputable def amountError (c : Coin) : ℝ :=
  FixedPoint.quoError unit (c.amount * unit) (factor factors c)

/-- By how much a percentage can be off: not at all if it needs no rounding. -/
noncomputable def skimError (total : ℤ) (x : Coin × TakerFeeShareAgreement) : ℝ :=
  if total ∣ normalized factors x.1 * unit
      ∧ (unit : ℤ) ∣ quo unit (normalized factors x.1) total * x.2.skimPercent.raw then 0
  else (1 + 1 / unit) / unit

/-- By how much the percentages of the assets can be off together. -/
noncomputable def skimErrors : ℝ :=
  ((shareAssets agreements liquidity).map
    (skimError factors (liquidity.map (normalized factors)).sum)).sum

/-- At most two assets have an agreement, or the exact percentages add up to so much less than one
that they do not get there by rounding. -/
def LeavesRoom : Prop :=
  (shareAssets agreements liquidity).length ≤ 2 ∨
    skimErrors agreements factors liquidity ≤ 1 ∧ ((shareAssets agreements liquidity).map fun x =>
          (exactAmount factors x.1 + amountError factors x.1) * (x.2.skimPercent.raw / unit)).sum
        ≤ (1 - skimErrors agreements factors liquidity)
          * (liquidity.map fun c => exactAmount factors c - amountError factors c).sum

/-! ### Their sum -/

variable {agreements factors liquidity}

section Sum

variable {x : Coin × TakerFeeShareAgreement} {T : ℤ}

lemma mem_shareAssets (h : x ∈ shareAssets agreements liquidity) :
    x.1 ∈ liquidity ∧ agreements.lookup x.1.denom = some x.2 := by
  obtain ⟨c, hc, hx⟩ := mem_filterMap.mp h
  rcases ha : agreements.lookup c.denom with - | a
  · simp [ha] at hx
  · rw [ha] at hx
    cases hx
    exact ⟨hc, ha⟩

variable (hv : ValidPool agreements factors liquidity)
include hv

lemma ValidPool.normalized_nonneg : ∀ c ∈ liquidity, 0 ≤ normalized factors c := by
  intro c hc
  apply quo_nonneg
  · exact Int.mul_nonneg (hv.amounts c hc) (by decide)
  · exact (hv.factors c hc).le

lemma ValidPool.total_pos (hne : (liquidity.map (normalized factors)).sum ≠ 0) :
    0 < (liquidity.map (normalized factors)).sum := by
  refine lt_of_le_of_ne (sum_nonneg ?_) hne.symm
  intro n hn
  obtain ⟨c, hc, rfl⟩ := mem_map.mp hn
  exact hv.normalized_nonneg c hc

lemma ValidPool.scaledSkim_nonneg (hT : 0 < T) (hx : x ∈ shareAssets agreements liquidity) :
    0 ≤ scaledSkim factors T x := by
  obtain ⟨hc, ha⟩ := mem_shareAssets hx
  apply FixedPoint.mul_nonneg
  · exact quo_nonneg (hv.normalized_nonneg _ hc) hT.le
  · exact (hv.percents _ _ ha).1

lemma ValidPool.sum_shareAssets_le :
    ((shareAssets agreements liquidity).map fun x => normalized factors x.1).sum
      ≤ (liquidity.map (normalized factors)).sum := by
  have hnonneg := hv.normalized_nonneg
  clear hv
  induction liquidity with
  | nil => exact le_rfl
  | cons c cs ih =>
    have ih' := ih fun c' hc' => hnonneg c' (by simp [hc'])
    have hc := hnonneg c (by simp)
    unfold shareAssets at ih' ⊢
    rw [filterMap_cons, map_cons, sum_cons]
    rcases agreements.lookup c.denom with - | a
    · exact ih'.trans (le_add_of_nonneg_left hc)
    · exact add_le_add le_rfl ih'

/-- **Two assets**: their percentages are parts of the whole. -/
lemma ValidPool.sum_scaledSkim_le_of_two (hT : 0 < T)
    (hsum : T = (liquidity.map (normalized factors)).sum)
    (hlen : (shareAssets agreements liquidity).length ≤ 2) :
    ((shareAssets agreements liquidity).map (scaledSkim factors T)).sum ≤ unit := by
  have hle : ∀ x ∈ shareAssets agreements liquidity,
      scaledSkim factors T x ≤ quo unit (normalized factors x.1) T := by
    intro x hx
    obtain ⟨hc, ha⟩ := mem_shareAssets hx
    rw [scaledSkim, mul, mul_comm]
    exact mul_le_of_le_unit Dec.unit_pos (hv.percents _ _ ha).2
      (quo_nonneg (hv.normalized_nonneg _ hc) hT.le)
  have hzero : ∀ x ∈ shareAssets agreements liquidity, 0 ≤ normalized factors x.1 :=
    fun x hx => hv.normalized_nonneg _ (mem_shareAssets hx).1
  have htotal := hv.sum_shareAssets_le
  rw [← hsum] at htotal
  generalize shareAssets agreements liquidity = assets at *
  rcases assets with - | ⟨x, - | ⟨y, - | ⟨z, rest⟩⟩⟩
  · exact Int.natCast_nonneg _
  · have hx := hle x (by simp)
    have := quo_le_unit Dec.unit_pos (hzero x (by simp)) (by simpa using htotal) hT
    simp only [map_cons, map_nil, sum_cons, sum_nil]
    omega
  · have hx := hle x (by simp)
    have hy := hle y (by simp)
    have := quo_add_quo_le Dec.unit_pos (by decide) (hzero x (by simp))
      (hzero y (by simp)) hT (by simpa using htotal)
    simp only [map_cons, map_nil, sum_cons, sum_nil]
    omega
  · simp at hlen

lemma ValidPool.abs_normalized_sub_le : ∀ c ∈ liquidity,
    |(normalized factors c : ℝ) / unit - exactAmount factors c| ≤ amountError factors c := by
  intro c hc
  exact abs_quo_div_sub_le Dec.unit_pos (by decide)
    (Int.mul_nonneg (hv.amounts c hc) (by decide)) (hv.factors c hc)

lemma ValidPool.scaledSkim_div_le (hT : 0 < T) (hx : x ∈ shareAssets agreements liquidity) :
    (scaledSkim factors T x : ℝ) / unit
      ≤ normalized factors x.1 / T * (x.2.skimPercent.raw / unit) + skimError factors T x := by
  obtain ⟨hc, ha⟩ := mem_shareAssets hx
  obtain ⟨hs, hs'⟩ := hv.percents _ _ ha
  have hu : (0 : ℝ) < unit := by exact_mod_cast Dec.unit_pos
  have hquo := abs_quo_div_sub_le Dec.unit_pos (by decide) (hv.normalized_nonneg _ hc) hT
  unfold skimError
  split
  · -- exact
    rename_i hexact
    obtain ⟨k, hk⟩ := hexact.2
    rw [quoError, if_pos hexact.1, abs_nonpos_iff, sub_eq_zero] at hquo
    have hk' : (quo unit (normalized factors x.1) T : ℝ) * x.2.skimPercent.raw = unit * k := by
      exact_mod_cast hk
    rw [scaledSkim, mul, hk, mul_comm, nearest_mul_self Dec.unit_pos, ← hquo, div_mul_div_comm, hk',
      mul_div_mul_left _ _ hu.ne', add_zero]
  have hs0 : (0 : ℝ) ≤ x.2.skimPercent.raw / unit := div_nonneg (by exact_mod_cast hs) hu.le
  have hs1 : (x.2.skimPercent.raw : ℝ) / unit ≤ 1 := by
    rw [div_le_one hu]
    exact_mod_cast hs'
  have hmul := abs_mul_div_sub_le Dec.unit_pos (by decide)
    (quo unit (normalized factors x.1) T) x.2.skimPercent.raw
  have herr := quoError_le (p := unit) (normalized factors x.1) T
  have hmul' := (abs_le.mp hmul).2
  have hquo' := (abs_le.mp hquo).2
  rw [← scaledSkim] at hmul'
  generalize (quo unit (normalized factors x.1) T : ℝ) / unit = r at *
  generalize (x.2.skimPercent.raw : ℝ) / unit = s at *
  calc (scaledSkim factors T x : ℝ) / unit ≤ r * s + 1 / (2 * unit) := by linarith
    _ ≤ (normalized factors x.1 / T + (1 / 2 + 1 / unit) / unit) * s + 1 / (2 * unit) := by
        gcongr
        linarith
    _ ≤ normalized factors x.1 / T * s + (1 / 2 + 1 / unit) / unit * 1 + 1 / (2 * unit) := by
        rw [add_mul]
        gcongr
    _ = normalized factors x.1 / T * s + (1 + 1 / unit) / unit := by
        field_simp
        ring

omit hv in
lemma cast_sum_div {α : Type*} (l : List α) (f : α → ℤ) (u : ℝ) :
    ((l.map f).sum : ℝ) / u = (l.map fun a => (f a : ℝ) / u).sum := by
  induction l with
  | nil => simp
  | cons a l ih =>
    rw [map_cons, map_cons, sum_cons, sum_cons, ← ih, Int.cast_add, add_div]

/-- **Room for rounding** is enough. -/
lemma ValidPool.sum_scaledSkim_le (hT : 0 < T)
    (hsum : T = (liquidity.map (normalized factors)).sum)
    (hroom : LeavesRoom agreements factors liquidity) :
    ((shareAssets agreements liquidity).map (scaledSkim factors T)).sum ≤ unit := by
  rcases hroom with hlen | ⟨herr, hroom⟩
  · exact hv.sum_scaledSkim_le_of_two hT hsum hlen
  · have hu : (0 : ℝ) < unit := by exact_mod_cast Dec.unit_pos
    have hT' : (0 : ℝ) < T := by exact_mod_cast hT
    have hTu : 0 < (T : ℝ) / unit := div_pos hT' hu
    set assets := shareAssets agreements liquidity
    have herrors : skimErrors agreements factors liquidity
        = (assets.map (skimError factors T)).sum := by rw [hsum]; rfl
    generalize skimErrors agreements factors liquidity = errors at *
    set part := fun x : Coin × TakerFeeShareAgreement =>
      (normalized factors x.1 : ℝ) / T * (x.2.skimPercent.raw / unit)
    -- the total is at least what the exact amounts say
    have hlower : (liquidity.map fun c => exactAmount factors c - amountError factors c).sum
        ≤ T / unit := by
      rw [hsum, cast_sum_div]
      apply sum_le_sum
      intro c hc
      have := (abs_le.mp (hv.abs_normalized_sub_le c hc)).1
      linarith
    have hshares : (assets.map fun x =>
        (normalized factors x.1 : ℝ) / unit * (x.2.skimPercent.raw / unit)).sum
          ≤ (1 - errors) * (T / unit) := by
      refine (sum_le_sum fun x hx => ?_).trans
        (hroom.trans (mul_le_mul_of_nonneg_left hlower (by linarith)))
      obtain ⟨hc, ha⟩ := mem_shareAssets hx
      have hupper := (abs_le.mp (hv.abs_normalized_sub_le x.1 hc)).2
      apply mul_le_mul_of_nonneg_right (by linarith)
      exact div_nonneg (by exact_mod_cast (hv.percents _ _ ha).1) hu.le
    have hscale : (assets.map part).sum * (T / unit) = (assets.map fun x =>
        (normalized factors x.1 : ℝ) / unit * (x.2.skimPercent.raw / unit)).sum := by
      rw [← sum_map_mul_right]
      congr 1
      apply map_congr_left
      intro x _
      simp only [part]
      field_simp
    have hexact : (assets.map part).sum ≤ 1 - errors := by
      rw [← hscale] at hshares
      exact le_of_mul_le_mul_right hshares hTu
    have htotal : ((assets.map (scaledSkim factors T)).sum : ℝ) / unit ≤ 1 := by
      rw [cast_sum_div]
      calc (assets.map fun x => (scaledSkim factors T x : ℝ) / unit).sum
          ≤ (assets.map fun x => part x + skimError factors T x).sum :=
            sum_le_sum fun x hx => hv.scaledSkim_div_le hT hx
        _ = (assets.map part).sum + errors := by rw [sum_map_add, herrors]
        _ ≤ 1 := by linarith
    rw [div_le_one hu] at htotal
    exact_mod_cast htotal

end Sum

/-! ### The check -/

lemma percentageOfTakerFeeToSkim_ok {total : Dec}
    (h : percentageOfTakerFeeToSkim math shares = .ok total) :
    total.raw = (shares.map fun a => a.skimPercent.raw).sum := by
  have key : ∀ start : Dec,
      shares.foldlM (fun acc a => Dec.add math acc a.skimPercent) start = .ok total →
      total.raw = start.raw + (shares.map fun a => a.skimPercent.raw).sum := by
    clear h
    induction shares with
    | nil =>
      intro start h
      cases h
      simp
    | cons a as ih =>
      intro start h
      rw [foldlM_cons] at h
      obtain ⟨acc, hacc, h⟩ := bind_ok h
      rw [ih acc h, Dec.checked_ok hacc, map_cons, sum_cons, add_assoc]
  rw [key Dec.zero h]
  exact zero_add _

lemma percentageOfTakerFeeToSkim_eq_ok (hroom : Gamm.HasRoom math)
    (hnonneg : ∀ a ∈ shares, 0 ≤ a.skimPercent.raw)
    (hle : (shares.map fun a => a.skimPercent.raw).sum ≤ unit) :
    percentageOfTakerFeeToSkim math shares = .ok ⟨(shares.map fun a => a.skimPercent.raw).sum⟩ := by
  have key : ∀ start : Dec, 0 ≤ start.raw →
      start.raw + (shares.map fun a => a.skimPercent.raw).sum ≤ unit →
      shares.foldlM (fun acc a => Dec.add math acc a.skimPercent) start
        = .ok ⟨start.raw + (shares.map fun a => a.skimPercent.raw).sum⟩ := by
    clear hle
    induction shares with
    | nil =>
      intro start _ _
      simp
      rfl
    | cons a as ih =>
      intro start hstart hle
      have ha := hnonneg a (by simp)
      have has : 0 ≤ (as.map fun a => a.skimPercent.raw).sum := by
        apply sum_nonneg
        intro n hn
        obtain ⟨b, hb, rfl⟩ := mem_map.mp hn
        exact hnonneg b (by simp [hb])
      rw [map_cons, sum_cons] at hle ⊢
      have hunit : unit < 2 ^ 120 := by decide
      have hadd : Dec.add math start a.skimPercent = .ok ⟨start.raw + a.skimPercent.raw⟩ :=
        if_pos (hroom.lt (by omega))
      rw [foldlM_cons, hadd, ok_bind,
        ih (fun b hb => hnonneg b (by simp [hb])) _ (by simp only; omega) (by simp only; omega)]
      simp only [add_assoc]
  have := key Dec.zero le_rfl (by show 0 + _ ≤ _; omega)
  rw [percentageOfTakerFeeToSkim, this]
  show Except.ok (Dec.mk (0 + _)) = _
  rw [zero_add]

/-! ### Accrued amounts -/

/-- What is in an accumulator; there is nothing if it does not exist. -/
def accrued (store : KVStore) (takerFeeShareDenom takerFeeChargedDenom : Denom) : ℤ :=
  match getTakerFeeShareDenomsToAccruedValue store takerFeeShareDenom takerFeeChargedDenom with
  | .ok (some i) => i
  | _ => 0

lemma unmarshalIntProto_marshalIntProto {i : ℤ} (h : i.natAbs < 2 ^ 256) :
    unmarshalIntProto (marshalIntProto i) = .ok i := by
  have hlen : (BigIntText.marshalText i).length < 2 ^ 64 := by
    have hdigits : (Decimal.formatUint i.natAbs).length ≤ 78 :=
      (Decimal.length_formatUint_le_iff (by norm_num)).mpr (h.trans (by norm_num))
    unfold BigIntText.marshalText Decimal.formatInt
    split
    · rw [length_cons]
      omega
    · omega
  have hdecode : Protobuf.decode (Protobuf.encodeBytes 1 (BigIntText.marshalText i) ++ []) = _ :=
    Protobuf.decode_encodeBytes (by norm_num) (by norm_num) hlen []
  rw [append_nil] at hdecode
  have hfield : (Protobuf.decode (marshalIntProto i)).bind (Protobuf.field? 1)
      = some (.bytes (BigIntText.marshalText i)) := by
    rw [marshalIntProto, hdecode]
    rfl
  rw [unmarshalIntProto, hfield]
  dsimp only
  rw [BigIntText.unmarshalText_marshalText]
  dsimp only
  rw [ensure_eq_ok h, ok_bind]

variable {d c : Denom} {x : ℤ}

lemma increaseTakerFeeShareDenomsToAccruedValue_ok
    (h : increaseTakerFeeShareDenomsToAccruedValue store d c x = .ok store') :
    accrued store' d c = accrued store d c + x
      ∧ ∀ e c', 124 ∉ e → 124 ∉ d → ¬(e = d ∧ c' = c) → accrued store' e c' = accrued store e c' := by
  unfold increaseTakerFeeShareDenomsToAccruedValue at h
  obtain ⟨before, after, hbefore, hafter, h⟩ := bind2_ok h
  cases h
  constructor
  · have hold : accrued store d c = before.getD 0 := by
      rw [accrued, hbefore]
      rcases before with - | i <;> rfl
    have hnew : getTakerFeeShareDenomsToAccruedValue
        (setTakerFeeShareDenomsToAccruedValue store d c after) d c = .ok (some after) := by
      rw [getTakerFeeShareDenomsToAccruedValue, setTakerFeeShareDenomsToAccruedValue,
        KVStore.get_set_self]
      dsimp only
      rw [unmarshalIntProto_marshalIntProto (checkedInt_lt hafter)]
      rfl
    rw [accrued, hnew, hold, ← checkedInt_ok hafter]
  · intro e c' he hd hne
    have hkey : keyTakerFeeShareDenomAccrualForTakerFeeChargedDenom d c
        ≠ keyTakerFeeShareDenomAccrualForTakerFeeChargedDenom e c' := accumulatorKey_ne he hd hne
    rw [accrued, accrued, getTakerFeeShareDenomsToAccruedValue,
      setTakerFeeShareDenomsToAccruedValue, KVStore.get_set_of_ne hkey]
    rfl

variable {E : Finset Denom}

lemma sum_accrued_increase_le (charged : Denom) (hd : 124 ∉ d) (hx : 0 ≤ x)
    (hE : ∀ e ∈ E, 124 ∉ e)
    (h : increaseTakerFeeShareDenomsToAccruedValue store d c x = .ok store') :
    ∑ e ∈ E, accrued store' e charged
      ≤ ∑ e ∈ E, accrued store e charged + if c = charged then x else 0 := by
  obtain ⟨hself, hother⟩ := increaseTakerFeeShareDenomsToAccruedValue_ok h
  by_cases hc : c = charged
  · subst hc
    rw [if_pos rfl]
    by_cases hmem : d ∈ E
    · have hrest : ∑ e ∈ E.erase d, accrued store' e c = ∑ e ∈ E.erase d, accrued store e c := by
        apply Finset.sum_congr rfl
        intro e he
        exact hother e c (hE e (Finset.mem_of_mem_erase he)) hd fun h =>
          Finset.ne_of_mem_erase he h.1
      rw [← Finset.add_sum_erase E _ hmem, ← Finset.add_sum_erase E (fun e => accrued store e c) hmem,
        hrest, hself]
      exact le_of_eq (by ring)
    · have hrest : ∑ e ∈ E, accrued store' e c = ∑ e ∈ E, accrued store e c := by
        apply Finset.sum_congr rfl
        intro e he
        refine hother e c (hE e he) hd ?_
        rintro ⟨rfl, -⟩
        exact hmem he
      rw [hrest]
      exact le_add_of_nonneg_right hx
  · rw [if_neg hc, add_zero]
    refine (Finset.sum_congr rfl fun e he => ?_).le
    exact hother e charged (hE e he) hd fun h => hc h.2.symm

variable {coin : Coin} {a : TakerFeeShareAgreement}

lemma amountToSkim_ok (h : amountToSkim math coin a = .ok x) :
    x = (coin.amount * a.skimPercent.raw).tdiv unit := by
  obtain ⟨amount, hamount, h⟩ := bind_ok h
  have hraw : amount.raw = coin.amount * a.skimPercent.raw := by
    rw [Dec.mul_ok hamount]
    show mul unit (coin.amount * unit) a.skimPercent.raw = _
    rw [mul, mul_comm, mul_comm coin.amount, ← mul, ← mul_comm coin.amount,
      mul_whole Dec.unit_pos, mul_comm]
  rw [Dec.truncateInt_ok h, hraw]

lemma sum_shares_le {amount : ℤ} (hamount : 0 ≤ amount)
    (hnonneg : ∀ a ∈ shares, 0 ≤ a.skimPercent.raw)
    (hle : (shares.map fun a => a.skimPercent.raw).sum ≤ unit) :
    (shares.map fun a => (amount * a.skimPercent.raw).tdiv unit).sum ≤ amount := by
  have hunit := Dec.unit_pos_int
  have hsum : (shares.map fun a => (amount * a.skimPercent.raw).tdiv unit).sum * unit
      ≤ amount * (shares.map fun a => a.skimPercent.raw).sum := by
    clear hle
    induction shares with
    | nil => simp
    | cons a as ih =>
      have ih' := ih fun b hb => hnonneg b (by simp [hb])
      have hdiv : (amount * a.skimPercent.raw).tdiv unit * unit ≤ amount * a.skimPercent.raw := by
        rw [Int.tdiv_eq_ediv_of_nonneg (Int.mul_nonneg hamount (hnonneg a (by simp)))]
        exact Int.ediv_mul_le _ hunit.ne'
      simp only [map_cons, sum_cons, add_mul, mul_add]
      exact add_le_add hdiv ih'
  have hbound : amount * (shares.map fun a => a.skimPercent.raw).sum ≤ amount * unit :=
    mul_le_mul_of_nonneg_left hle hamount
  exact le_of_mul_le_mul_right (hsum.trans hbound) hunit

lemma skimCoin_ok (charged : Denom) (hE : ∀ e ∈ E, 124 ∉ e) (hamount : 0 ≤ coin.amount)
    (hdenoms : ∀ a ∈ shares, 124 ∉ a.denom) (hnonneg : ∀ a ∈ shares, 0 ≤ a.skimPercent.raw)
    (h : skimCoin math store shares coin = .ok store') :
    ∑ e ∈ E, accrued store' e charged ≤ ∑ e ∈ E, accrued store e charged
      + if coin.denom = charged then
          (shares.map fun a => (coin.amount * a.skimPercent.raw).tdiv unit).sum
        else 0 := by
  unfold skimCoin at h
  induction shares generalizing store with
  | nil =>
    cases h
    simp
  | cons a as ih =>
    rw [foldlM_cons] at h
    obtain ⟨store₁, hstep, h⟩ := bind_ok h
    obtain ⟨x, hx, hstep⟩ := bind_ok hstep
    have hx' := amountToSkim_ok hx
    have hpos : 0 ≤ x := by
      rw [hx']
      exact Int.tdiv_nonneg (Int.mul_nonneg hamount (hnonneg a (by simp))) (by decide)
    have hrest := ih (fun b hb => hdenoms b (by simp [hb])) (fun b hb => hnonneg b (by simp [hb])) h
    have hfirst := sum_accrued_increase_le charged (hdenoms a (by simp)) hpos hE hstep
    rw [map_cons, sum_cons, ← hx']
    by_cases hc : coin.denom = charged
    · rw [if_pos hc] at hrest hfirst ⊢
      linarith
    · rw [if_neg hc] at hrest hfirst ⊢
      linarith

/-- **All agreements together get at most the fee**, in every denomination. -/
lemma processShareAgreements_ok {fees : Coins} (hE : ∀ e ∈ E, 124 ∉ e)
    (hfees : ∀ c ∈ fees, 0 ≤ c.amount) (hdenoms : ∀ a ∈ shares, 124 ∉ a.denom)
    (hnonneg : ∀ a ∈ shares, 0 ≤ a.skimPercent.raw)
    (hok : processShareAgreements math store shares fees = .ok store') (charged : Denom) :
    ∑ e ∈ E, (accrued store' e charged - accrued store e charged)
      ≤ ((fees.filter fun c => c.denom = charged).map Coin.amount).sum := by
  have hfees' : 0 ≤ ((fees.filter fun c => c.denom = charged).map Coin.amount).sum := by
    apply sum_nonneg
    intro n hn
    obtain ⟨c, hc, rfl⟩ := mem_map.mp hn
    exact hfees c (mem_filter.mp hc).1
  unfold processShareAgreements at hok
  split at hok
  · cases hok
    simpa using hfees'
  · obtain ⟨total, _, htotal, hvalid, h⟩ := bind2_ok hok
    have hle : (shares.map fun a => a.skimPercent.raw).sum ≤ unit := by
      rw [← percentageOfTakerFeeToSkim_ok htotal]
      exact of_decide_eq_true (Bool.and_eq_true_iff.mp (ensure_ok hvalid)).1
    clear hok htotal hvalid hfees'
    rw [Finset.sum_sub_distrib, sub_le_iff_le_add']
    induction fees generalizing store with
    | nil =>
      cases h
      simp
    | cons coin fees ih =>
      rw [foldlM_cons] at h
      obtain ⟨store₁, hcoin, h⟩ := bind_ok h
      have hamount := hfees coin (by simp)
      have hfirst := skimCoin_ok charged hE hamount hdenoms hnonneg hcoin
      have hrest := ih (fun c hc => hfees c (by simp [hc])) h
      have hshares := sum_shares_le hamount hnonneg hle
      rw [filter_cons]
      by_cases hc : coin.denom = charged
      · rw [if_pos hc] at hfirst
        rw [if_pos (decide_eq_true hc), map_cons, sum_cons]
        linarith
      · rw [if_neg hc] at hfirst
        rw [if_neg (by simpa using hc)]
        linarith

/-- **Skims of alloyed pools.**  Where there is room for rounding, the percentages pass the check;
and whatever the percentages, what is accrued is within the fee. -/
theorem alloyed_skims_within_fee (hroom : Gamm.HasRoom math)
    (hv : ValidPool agreements factors liquidity)
    (h : calculateTakerFeeShareAgreements math agreements liquidity factors = .ok shares) :
    (LeavesRoom agreements factors liquidity →
      ∃ total, percentageOfTakerFeeToSkim math shares = .ok total ∧ total ≤ Dec.one
        ∧ validatePercentage total = .ok ())
    ∧ ∀ (store store' : KVStore) (fees : Coins), (∀ c ∈ fees, 0 ≤ c.amount) →
        processShareAgreements math store shares fees = .ok store' →
        ∀ (E : Finset Denom) (charged : Denom), (∀ e ∈ E, 124 ∉ e) →
          ∑ e ∈ E, (accrued store' e charged - accrued store e charged)
            ≤ ((fees.filter fun c => c.denom = charged).map Coin.amount).sum := by
  obtain ⟨hne, hshares⟩ := calculateTakerFeeShareAgreements_ok h
  have hT := hv.total_pos hne
  have hnonneg : ∀ a ∈ shares, 0 ≤ a.skimPercent.raw := by
    intro a ha
    rw [hshares] at ha
    obtain ⟨x, hx, rfl⟩ := mem_map.mp ha
    exact hv.scaledSkim_nonneg hT hx
  have hdenoms : ∀ a ∈ shares, 124 ∉ a.denom := by
    intro a ha
    rw [hshares] at ha
    obtain ⟨x, hx, rfl⟩ := mem_map.mp ha
    exact hv.denoms _ (mem_shareAssets hx).1
  refine ⟨fun hleaves => ?_, fun store store' fees hfees hok E charged hE => ?_⟩
  · have hsum : (shares.map fun a => a.skimPercent.raw).sum ≤ unit := by
      rw [hshares, map_map]
      exact hv.sum_scaledSkim_le hT rfl hleaves
    have hzero : 0 ≤ (shares.map fun a => a.skimPercent.raw).sum := by
      apply sum_nonneg
      intro n hn
      obtain ⟨a, ha, rfl⟩ := mem_map.mp hn
      exact hnonneg a ha
    refine ⟨_, percentageOfTakerFeeToSkim_eq_ok hroom hnonneg hsum, hsum, ?_⟩
    apply if_pos
    rw [Bool.and_eq_true, decide_eq_true_iff, decide_eq_true_iff]
    exact ⟨hsum, hzero⟩
  · exact processShareAgreements_ok hE hfees hdenoms hnonneg hok charged

/-- Agreements for the given percentage of all denominations. -/
def agreementsFor (percent : Dec) (denoms : List Denom) :
    AList fun _ : Denom => TakerFeeShareAgreement :=
  denoms.foldl (fun m d => m.insert d ⟨d, percent, ascii "dex1alice"⟩) ∅

def unitFactors (denoms : List Denom) : AList fun _ : Denom => Dec :=
  denoms.foldl (fun m d => m.insert d Dec.one) ∅

/-- Two assets with agreements of a half each: an eighth and three eighths. -/
theorem alloyed_skims_within_fee_two :
    ∃ shares, calculateTakerFeeShareAgreements chainMath
        (agreementsFor ⟨5 * 10 ^ 17⟩ [ascii "foo", ascii "bar"])
        [⟨ascii "foo", 100⟩, ⟨ascii "bar", 300⟩] (unitFactors [ascii "foo", ascii "bar"]) = .ok shares
      ∧ ∃ total, percentageOfTakerFeeToSkim chainMath shares = .ok total ∧ total ≤ Dec.one := by
  obtain ⟨shares, hshares, -⟩ := ok_of_toOption (show (calculateTakerFeeShareAgreements chainMath
    (agreementsFor ⟨5 * 10 ^ 17⟩ [ascii "foo", ascii "bar"])
    [⟨ascii "foo", 100⟩, ⟨ascii "bar", 300⟩]
    (unitFactors [ascii "foo", ascii "bar"])).toOption.map (fun _ => true) = some true by
      decide +kernel)
  have hv : ValidPool (agreementsFor ⟨5 * 10 ^ 17⟩ [ascii "foo", ascii "bar"])
      (unitFactors [ascii "foo", ascii "bar"])
      [⟨ascii "foo", 100⟩, ⟨ascii "bar", 300⟩] := by
    refine ⟨by decide, by decide +kernel, ?_, by decide⟩
    intro d a ha
    have hall : ∀ e ∈ (agreementsFor ⟨5 * 10 ^ 17⟩ [ascii "foo", ascii "bar"]).entries,
        0 ≤ e.2.skimPercent.raw ∧ e.2.skimPercent.raw ≤ unit := by
      decide +kernel
    exact hall ⟨d, a⟩ (of_mem_dlookup ha)
  have hroom : Gamm.HasRoom chainMath := show 120 ≤ 315 by decide
  obtain ⟨total, htotal, hle, -⟩ :=
    (alloyed_skims_within_fee hroom hv hshares).1 (.inl (by decide +kernel))
  exact ⟨shares, hshares, total, htotal, hle⟩

def sixDenoms : List Denom := ["aaa", "bbb", "ccc", "ddd", "eee", "fff"].map ascii

/-- Six equal assets, all of whose fees are given away: a sixth is rounded up, and no swap of the
share passes the check. -/
theorem rounded_shares_refused :
    ((calculateTakerFeeShareAgreements chainMath (agreementsFor Dec.one sixDenoms)
        (sixDenoms.map fun d => ⟨d, 1⟩) (unitFactors sixDenoms)).toOption.map fun shares =>
      ((shares.map fun a => a.skimPercent.raw).sum,
        match processShareAgreements chainMath ∅ shares [⟨ascii "uusd", 100⟩] with
        | .ok _ => none
        | .error e => some e))
      = some (10 ^ 18 + 2,
          some (.err "invalid taker fee share percentage: %s, must be between 0 and 1")) := by
  decide +kernel

end MaanyDex.PoolManager
