/-
Smooth weight changes of weighted pools: `PokePool` in `pool-models/balancer/pool.go`.

At every time a part of the way from the initial weights to the target weights is covered
(`covered`): none up to the start, all of it after the end, and in between the milliseconds
elapsed by those of the duration.  A pool that was poked stands at the part that was covered
then (`Stands`), whatever it stood at before; poking again at a later time takes it further
(`Stands.poke`).  So the weights after a sequence of pokes are those of the last one.
-/
import MaanyDex.Gamm.Messages

namespace MaanyDex.Gamm.Balancer

open FixedPoint List Run
open Dec (unit)

variable {env : Env} {p p' : Pool}

/-! ### Assets side by side -/

section Pairs

variable {α : Type*} {zs : List α} {f g : α → PoolAsset}

/-- Weights of assets that correspond to each other are combined one by one. -/
lemma zipWeights_map {op : ℤ → ℤ → ℤ}
    (h : ∀ z ∈ zs, (f z).token.denom = (g z).token.denom
      ∧ (op (f z).weight (g z).weight).natAbs < 2 ^ 256) :
    zipWeights op (zs.map f) (zs.map g)
      = .ok (zs.map fun z => ⟨(f z).token, op (f z).weight (g z).weight⟩) := by
  induction zs with
  | nil => rfl
  | cons z zs ih =>
    obtain ⟨hdenom, hlt⟩ := h z (by simp)
    rw [map_cons, map_cons, zipWeights, ensure_eq_ok hdenom, ok_bind,
      checkedInt_eq_ok hlt, ok_bind, ih fun w hw => h w (by simp [hw])]
    rfl

lemma setWeights_map (h : ∀ z ∈ zs, (f z).token.denom = (g z).token.denom ∧ 0 < (g z).weight) :
    setWeights (zs.map f) (zs.map g)
      = .ok (zs.map fun z => { f z with weight := (g z).weight }) := by
  induction zs with
  | nil => rfl
  | cons z zs ih =>
    obtain ⟨hdenom, hpos⟩ := h z (by simp)
    rw [map_cons, map_cons, setWeights, ensure_eq_ok hdenom, ok_bind,
      ensure_eq_ok hpos, ok_bind, ih fun w hw => h w (by simp [hw])]
    rfl

/-- Parts of weights fit if and only if the products do. -/
lemma poolAssetsMulDec_map {d : Dec} (hunit : 0 ≤ d.raw ∧ d.raw ≤ unit)
    (hf : ∀ z ∈ zs, (f z).weight.natAbs < 2 ^ 256)
    (h : ∀ z ∈ zs, (d.raw * (f z).weight).natAbs < 2 ^ env.math.maxDecBitLen) :
    poolAssetsMulDec env (zs.map f) d
      = .ok (zs.map fun z => ⟨(f z).token, nearest unit (d.raw * (f z).weight)⟩) := by
  unfold poolAssetsMulDec
  rw [mapM_map]
  refine mapM_eq_ok fun z hz => ?_
  have hround : (nearest unit (d.raw * (f z).weight)).natAbs < 2 ^ 256 := by
    have hmem := blend_mem (a := 0) (b := (f z).weight) Dec.unit_pos hunit.1 hunit.2
    rw [blend, zero_add, sub_zero] at hmem
    have := hf z hz
    omega
  show (Dec.mulInt env.math d (f z).weight >>= _) = _
  rw [Dec.mulInt_eq_ok (h z hz), ok_bind, Dec.roundInt, checkedInt_eq_ok hround]
  rfl

lemma lt_of_poolAssetsMulDec {d : Dec} {bs : List PoolAsset}
    (h : poolAssetsMulDec env (zs.map f) d = .ok bs) :
    ∀ z ∈ zs, (d.raw * (f z).weight).natAbs < 2 ^ env.math.maxDecBitLen := by
  unfold poolAssetsMulDec at h
  rw [mapM_map] at h
  intro z hz
  by_contra hlt
  obtain ⟨b, hb⟩ := mapM_ok_mem h z hz
  have hb' : (Dec.mulInt env.math d (f z).weight >>= _) = .ok b := hb
  rw [Dec.mulInt_eq_error hlt] at hb'
  cases hb'

end Pairs

/-! ### The way -/

/-- The part of the way that is covered at a time. -/
def covered (params : SmoothWeightChangeParams) (t : ℤ) : ℤ :=
  if t ≤ params.startTime then 0
  else if params.startTime + params.duration < t then unit
  else milliseconds (t - params.startTime) * unit / milliseconds params.duration

variable {params : SmoothWeightChangeParams} {s t r q : ℤ}

lemma covered_of_mem (hstart : ¬t ≤ params.startTime)
    (hend : ¬params.startTime + params.duration < t) :
    covered params t
      = milliseconds (t - params.startTime) * unit / milliseconds params.duration := by
  rw [covered, if_neg hstart, if_neg hend]

lemma milliseconds_mono {d e : ℤ} (hd : 0 ≤ d) (h : d ≤ e) :
    0 ≤ milliseconds d ∧ milliseconds d ≤ milliseconds e := by
  unfold milliseconds
  rw [Int.tdiv_eq_ediv_of_nonneg hd, Int.tdiv_eq_ediv_of_nonneg (hd.trans h)]
  omega

lemma mul_unit_ediv_mem {k n : ℤ} (hk : 0 ≤ k) (hkn : k ≤ n) :
    0 ≤ k * unit / n ∧ k * unit / n ≤ unit := by
  have hu : (0 : ℤ) ≤ unit := by positivity
  refine ⟨Int.ediv_nonneg (Int.mul_nonneg hk hu) (hk.trans hkn), ?_⟩
  rcases (hk.trans hkn).eq_or_lt with hn | hn
  · rw [← hn, Int.ediv_zero]
    exact hu
  · apply Int.ediv_le_of_le_mul hn
    rw [mul_comm (unit : ℤ)]
    exact mul_le_mul_of_nonneg_right hkn hu

lemma covered_mem (params : SmoothWeightChangeParams) (t : ℤ) :
    0 ≤ covered params t ∧ covered params t ≤ unit := by
  unfold covered
  split_ifs with hstart hend
  · exact ⟨le_rfl, by positivity⟩
  · exact ⟨by positivity, le_rfl⟩
  · obtain ⟨hk, hkn⟩ := milliseconds_mono (show 0 ≤ t - params.startTime by omega)
      (show t - params.startTime ≤ params.duration by omega)
    exact mul_unit_ediv_mem hk hkn

lemma covered_mono (h : s ≤ t) : covered params s ≤ covered params t := by
  have hs := covered_mem params s
  have ht := covered_mem params t
  unfold covered at hs ht ⊢
  split_ifs at hs ht ⊢ <;> first | omega | skip
  obtain ⟨hk, hkk⟩ := milliseconds_mono (show 0 ≤ s - params.startTime by omega)
    (show s - params.startTime ≤ t - params.startTime by omega)
  rcases (milliseconds_mono (show 0 ≤ params.duration by omega) le_rfl).1.eq_or_lt with hd | hd
  · rw [← hd, Int.ediv_zero, Int.ediv_zero]
  · exact Int.ediv_le_ediv hd (mul_le_mul_of_nonneg_right hkk (by positivity))

/-! ### Plans -/

/-- A pool at the start of a change, with its assets and their targets side by side. -/
structure Plan (p : Pool) (params : SmoothWeightChangeParams) (zs : List (PoolAsset × PoolAsset)) :
    Prop where
  smooth : p.poolParams.smoothWeightChangeParams = some params
  assets : p.poolAssets = zs.map Prod.fst
  initial : params.initialPoolWeights = zs.map fun z => ⟨⟨z.1.token.denom, 0⟩, z.1.weight⟩
  target : params.targetPoolWeights = zs.map Prod.snd
  denom : ∀ z ∈ zs, z.1.token.denom = z.2.token.denom
  weights : ∀ z ∈ zs, 0 < z.1.weight ∧ 0 < z.2.weight ∧ z.2.weight < 2 ^ 50
  total : p.totalWeight = (zs.map (·.1.weight)).sum
  small : (zs.map (·.1.weight)).sum < 2 ^ 256
  few : zs.length < 2 ^ 63
  positive : 0 < params.duration
  short : params.duration < 2 ^ 63

variable {zs : List (PoolAsset × PoolAsset)}

/-- An asset part of the way to its target. -/
def blended (r : ℤ) (z : PoolAsset × PoolAsset) : PoolAsset :=
  { z.1 with weight := blend unit r z.1.weight z.2.weight }

lemma blended_zero (z : PoolAsset × PoolAsset) : blended 0 z = z.1 := by
  rw [blended, blend_zero]

namespace Plan

variable (h : Plan p params zs)

include h

variable {z : PoolAsset × PoolAsset}

lemma weight_lt (hz : z ∈ zs) : z.1.weight < 2 ^ 256 := by
  have hle : z.1.weight ≤ (zs.map (·.1.weight)).sum := by
    refine single_le_sum (fun w hw => ?_) _ (mem_map_of_mem hz)
    obtain ⟨z', hz', rfl⟩ := mem_map.mp hw
    exact (h.weights z' hz').1.le
  exact hle.trans_lt h.small

lemma diff_lt (hz : z ∈ zs) : (z.2.weight - z.1.weight).natAbs < 2 ^ 256 := by
  have hlt := h.weight_lt hz
  have hpos := h.weights z hz
  omega

lemma blend_pos (hr : 0 ≤ r) (hr' : r ≤ unit) (hz : z ∈ zs) :
    0 < blend unit r z.1.weight z.2.weight
      ∧ (blend unit r z.1.weight z.2.weight).natAbs < 2 ^ 256 := by
  have hmem := blend_mem (a := z.1.weight) (b := z.2.weight) Dec.unit_pos hr hr'
  have hlt := h.weight_lt hz
  have hpos := h.weights z hz
  omega

omit h in
lemma two_mul_sum_blend_le (zs : List (PoolAsset × PoolAsset)) (r : ℤ) :
    2 * (unit * (zs.map fun z => blend unit r z.1.weight z.2.weight).sum)
      ≤ 2 * ((unit - r) * (zs.map (·.1.weight)).sum + r * (zs.map (·.2.weight)).sum)
        + zs.length * unit := by
  induction zs with
  | nil => simp
  | cons z zs ih =>
    have hz := two_mul_blend_le Dec.unit_pos (by decide) r z.1.weight z.2.weight
    simp only [map_cons, sum_cons, length_cons]
    push_cast
    linarith

lemma sum_target_le : (zs.map (·.2.weight)).sum ≤ 2 ^ 113 := by
  have hle : (zs.map (·.2.weight)).sum ≤ (zs.map (·.2.weight)).length • (2 ^ 50 : ℤ) := by
    apply sum_le_card_nsmul
    intro w hw
    obtain ⟨z, hz, rfl⟩ := mem_map.mp hw
    exact (h.weights z hz).2.2.le
  have hfew := h.few
  rw [length_map, nsmul_eq_mul] at hle
  have : ((zs.length : ℕ) : ℤ) < 2 ^ 63 := by exact_mod_cast hfew
  omega

lemma sum_blend_lt (hr : 0 ≤ r) (hr' : r ≤ unit) :
    (zs.map fun z => blend unit r z.1.weight z.2.weight).sum < 2 ^ 256 := by
  rcases hr.eq_or_lt with rfl | hpos
  · simpa using h.small
  · have hround := two_mul_sum_blend_le zs r
    have htarget := h.sum_target_le
    have hsmall := h.small
    have hfew : ((zs.length : ℕ) : ℤ) < 2 ^ 63 := by exact_mod_cast h.few
    have hu : (unit : ℤ) = 10 ^ 18 := by decide
    rw [hu] at hround hr'
    -- at least one part of the initial weights is gone, which leaves room for the rounding
    have hinit : (10 ^ 18 - r) * (zs.map (·.1.weight)).sum ≤ (10 ^ 18 - r) * 2 ^ 256 :=
      mul_le_mul_of_nonneg_left hsmall.le (by omega)
    have htarget' : r * (zs.map (·.2.weight)).sum ≤ r * 2 ^ 113 :=
      mul_le_mul_of_nonneg_left htarget hpos.le
    omega

/-! ### Poking -/

lemma sub_weights :
    subPoolAssetWeights params.targetPoolWeights params.initialPoolWeights
      = .ok (zs.map fun z => ⟨z.2.token, z.2.weight - z.1.weight⟩) := by
  rw [h.target, h.initial]
  exact zipWeights_map fun z hz => ⟨(h.denom z hz).symm, h.diff_lt hz⟩

lemma percent_eq (hd : milliseconds params.duration ≠ 0) (hstart : ¬t ≤ params.startTime)
    (hend : ¬params.startTime + params.duration < t) :
    Dec.quoInt (Dec.ofInt (milliseconds (timeSub t params.startTime)))
      (milliseconds params.duration) = .ok ⟨covered params t⟩ := by
  have hsub : timeSub t params.startTime = t - params.startTime := by
    have := h.short
    unfold timeSub
    omega
  have hk := (milliseconds_mono (show 0 ≤ t - params.startTime by omega) le_rfl).1
  rw [Dec.quoInt, if_neg hd, hsub, Dec.ofInt, covered_of_mem hstart hend,
    Int.tdiv_eq_ediv_of_nonneg (Int.mul_nonneg hk (by positivity))]

/-- Parts of the way are computed, as long as the products fit. -/
lemma interpolated (hr : 0 ≤ r) (hr' : r ≤ unit)
    (hfits : r < unit → ∀ z ∈ zs,
      (r * (z.2.weight - z.1.weight)).natAbs < 2 ^ env.math.maxDecBitLen) :
    ∃ g : PoolAsset × PoolAsset → PoolAsset,
      interpolatedWeights env params ⟨r⟩ = .ok (zs.map g)
        ∧ ∀ z ∈ zs, (g z).token.denom = z.1.token.denom
          ∧ (g z).weight = blend unit r z.1.weight z.2.weight := by
  unfold interpolatedWeights
  by_cases hone : Dec.one ≤ (⟨r⟩ : Dec)
  · have hone' : (unit : ℤ) ≤ r := hone
    obtain rfl : r = unit := le_antisymm hr' hone'
    rw [if_pos hone, h.target]
    refine ⟨Prod.snd, rfl, fun z hz => ⟨(h.denom z hz).symm, ?_⟩⟩
    rw [blend_unit Dec.unit_pos]
  · have hlt : r < unit := not_le.mp hone
    rw [if_neg hone, h.sub_weights, ok_bind,
      poolAssetsMulDec_map ⟨hr, hr'⟩ (fun z hz => h.diff_lt hz) (hfits hlt), ok_bind, h.initial,
      addPoolAssetWeights, zipWeights_map]
    · exact ⟨_, rfl, fun z hz => ⟨rfl, rfl⟩⟩
    · exact fun z hz => ⟨h.denom z hz, (h.blend_pos hr hr' hz).2⟩

end Plan

/-- A pool that stands at a part of the way. -/
structure Stands (params : SmoothWeightChangeParams) (zs : List (PoolAsset × PoolAsset)) (r : ℤ)
    (p : Pool) : Prop where
  nonneg : 0 ≤ r
  le : r ≤ unit
  assets : p.poolAssets = zs.map (blended r)
  total : p.totalWeight = (p.poolAssets.map (·.weight)).sum
  smooth : p.poolParams.smoothWeightChangeParams = some params
    ∨ r = unit ∧ p.poolParams.smoothWeightChangeParams = none

variable {p₀ : Pool}

/-- All weights are replaced by those of another part of the way. -/
lemma Plan.updateAllWeights (h : Plan p₀ params zs)
    (hp : p.poolAssets = zs.map (blended r)) (hq : 0 ≤ q) (hq' : q ≤ unit)
    {g : PoolAsset × PoolAsset → PoolAsset}
    (hg : ∀ z ∈ zs, (g z).token.denom = z.1.token.denom
      ∧ (g z).weight = blend unit q z.1.weight z.2.weight) :
    updateAllWeights p (zs.map g)
      = .ok { p with
          poolAssets := zs.map (blended q)
          totalWeight := ((zs.map (blended q)).map (·.weight)).sum } := by
  have hset : setWeights (zs.map (blended r)) (zs.map g) = .ok (zs.map (blended q)) := by
    rw [setWeights_map]
    · refine congrArg Except.ok (map_congr_left fun z hz => ?_)
      rw [(hg z hz).2]
      rfl
    · intro z hz
      refine ⟨(hg z hz).1.symm, ?_⟩
      rw [(hg z hz).2]
      exact (h.blend_pos hq hq' hz).1
  have hsum : checkedSum (·.weight) (zs.map (blended q))
      = .ok ((zs.map (blended q)).map (·.weight)).sum := by
    apply checkedSum_eq_ok
    · intro a ha
      obtain ⟨z, hz, rfl⟩ := mem_map.mp ha
      exact (h.blend_pos hq hq' hz).1.le
    · rw [map_map]
      exact h.sum_blend_lt hq hq'
  rw [Balancer.updateAllWeights, hp, hset, ok_bind, hsum, ok_bind]

/-- What has to fit: a duration that is at least a millisecond, and the largest part of the
difference of two weights. -/
structure Fits (env : Env) (params : SmoothWeightChangeParams) (zs : List (PoolAsset × PoolAsset)) :
    Prop where
  duration : 0 < milliseconds params.duration
  diff : ∀ z ∈ zs, (milliseconds params.duration - 1) * unit / milliseconds params.duration
    * |z.2.weight - z.1.weight| < 2 ^ env.math.maxDecBitLen

lemma covered_le (hd : 0 < milliseconds params.duration) (hstart : ¬t ≤ params.startTime)
    (hend : ¬params.startTime + params.duration < t) (hlt : covered params t < unit) :
    covered params t
      ≤ (milliseconds params.duration - 1) * unit / milliseconds params.duration := by
  rw [covered_of_mem hstart hend] at hlt ⊢
  have hk : milliseconds (t - params.startTime) ≤ milliseconds params.duration - 1 := by
    by_contra hge
    have hle : (unit : ℤ) ≤ milliseconds (t - params.startTime) * unit
        / milliseconds params.duration := by
      apply Int.le_ediv_of_mul_le hd
      rw [mul_comm]
      exact mul_le_mul_of_nonneg_right (by omega) (by positivity)
    omega
  exact Int.ediv_le_ediv hd (mul_le_mul_of_nonneg_right hk (by positivity))

/-- **Poking takes a pool further on its way.** -/
lemma Stands.poke (hplan : Plan p₀ params zs) (hfits : Fits env params zs)
    (h : Stands params zs r p) (hle : r ≤ covered params t) :
    ∃ p', pokePool env p t = .ok p' ∧ Stands params zs (covered params t) p' := by
  obtain ⟨hnonneg, hunit⟩ := covered_mem params t
  unfold pokePool
  rcases h.smooth with hsmooth | ⟨rfl, hsmooth⟩
  · rw [hsmooth]
    dsimp only
    by_cases hstart : t ≤ params.startTime
    · have hzero : covered params t = 0 := by rw [covered, if_pos hstart]
      have hr : r = 0 := le_antisymm (hzero ▸ hle) h.nonneg
      rw [if_pos hstart, hzero]
      exact ⟨p, rfl, hr ▸ h⟩
    · rw [if_neg hstart]
      by_cases hend : params.startTime + params.duration < t
      · have hone : covered params t = unit := by rw [covered, if_neg hstart, if_pos hend]
        rw [if_pos hend, hplan.target, hone]
        rw [hplan.updateAllWeights h.assets (q := unit) (by positivity) le_rfl
          fun z hz => ⟨(hplan.denom z hz).symm, (blend_unit Dec.unit_pos _ _).symm⟩, ok_bind]
        exact ⟨_, rfl, by positivity, le_rfl, rfl, rfl, Or.inr ⟨rfl, rfl⟩⟩
      · rw [if_neg hend]
        have hprod : covered params t < unit → ∀ z ∈ zs,
            (covered params t * (z.2.weight - z.1.weight)).natAbs < 2 ^ env.math.maxDecBitLen := by
          intro hlt z hz
          zify
          rw [abs_mul, abs_of_nonneg hnonneg]
          refine lt_of_le_of_lt ?_ (hfits.diff z hz)
          exact mul_le_mul_of_nonneg_right (covered_le hfits.duration hstart hend hlt)
            (abs_nonneg _)
        obtain ⟨g, hg, hg'⟩ := hplan.interpolated hnonneg hunit hprod
        rw [hplan.percent_eq hfits.duration.ne' hstart hend, ok_bind, hg, ok_bind,
          hplan.updateAllWeights h.assets hnonneg hunit hg']
        exact ⟨_, rfl, hnonneg, hunit, rfl, rfl, Or.inl hsmooth⟩
  · rw [hsmooth]
    have hone : covered params t = unit := le_antisymm hunit hle
    exact ⟨p, rfl, hone ▸ h⟩

/-- The part of the way of the last poke. -/
def coveredLast (params : SmoothWeightChangeParams) (r : ℤ) (ts : List ℤ) : ℤ :=
  (ts.map (covered params)).getLastD r

lemma coveredLast_cons (r t : ℤ) (ts : List ℤ) :
    coveredLast params r (t :: ts) = coveredLast params (covered params t) ts := by
  rw [coveredLast, map_cons, getLastD_cons]
  rfl

variable {ts : List ℤ}

lemma coveredLast_le (hr : r ≤ covered params t) (hts : ∀ s ∈ ts, s ≤ t) :
    coveredLast params r ts ≤ covered params t := by
  induction ts generalizing r with
  | nil => exact hr
  | cons s ts ih =>
    rw [coveredLast_cons]
    exact ih (covered_mono (hts s (by simp))) fun u hu => hts u (by simp [hu])

lemma coveredLast_eq {last : ℤ} (h : ts.getLast? = some last) :
    coveredLast params r ts = covered params last := by
  rw [coveredLast, getLastD_eq_getLast?, List.getLast?_map, h]
  rfl

/-- A sequence of pokes takes a pool to the part of the way of the last one. -/
lemma Stands.run (hplan : Plan p₀ params zs) (hfits : Fits env params zs)
    (hts : ts.Pairwise (· ≤ ·)) (h : Stands params zs r p)
    (hle : ∀ t ∈ ts, r ≤ covered params t) :
    ∃ p', ts.foldlM (pokePool env) p = .ok p' ∧ Stands params zs (coveredLast params r ts) p' := by
  induction ts generalizing p r with
  | nil => exact ⟨p, rfl, h⟩
  | cons t ts ih =>
    obtain ⟨hfirst, hrest⟩ := pairwise_cons.mp hts
    obtain ⟨p₁, hp₁, hstands⟩ := h.poke hplan hfits (hle t (by simp))
    rw [foldlM_cons, hp₁, ok_bind, coveredLast_cons]
    exact ih hrest hstands fun s hs => covered_mono (hfirst s hs)

/-! ### New pools -/

lemma sortPoolAssetsByDenom_sort (assets : List PoolAsset) :
    sortPoolAssetsByDenom (sortPoolAssetsByDenom assets) = sortPoolAssetsByDenom assets :=
  (Bytes.pairwise_insertionSort (fun a : PoolAsset => a.token.denom) assets).insertionSort_eq

lemma denom_eq_of_mem_zip {as bs : List PoolAsset}
    (h : as.map (·.token.denom) = bs.map (·.token.denom)) {z : PoolAsset × PoolAsset}
    (hz : z ∈ as.zip bs) : z.1.token.denom = z.2.token.denom := by
  induction as generalizing bs with
  | nil => simp at hz
  | cons a as ih =>
    rcases bs with - | ⟨b, bs⟩
    · simp at hz
    · rw [map_cons, map_cons, List.cons.injEq] at h
      rw [zip_cons_cons] at hz
      rcases mem_cons.mp hz with rfl | hz
      · exact h.1
      · exact ih h.2 hz

lemma scaleTarget_ok {v w : PoolAsset} (h : scaleTarget v = .ok w) :
    w.token = v.token ∧ 0 < w.weight ∧ w.weight < 2 ^ 50 := by
  obtain ⟨_, weight, hvalid, hweight, hres⟩ := bind2_ok h
  obtain ⟨_, hpos, hmax⟩ := bind_ok hvalid
  cases hres
  have hpos' : 0 < v.weight := of_decide_eq_true (ensure_ok hpos)
  have hmax' : v.weight < maxUserSpecifiedWeight := of_decide_eq_true (ensure_ok hmax)
  refine ⟨rfl, ?_⟩
  show 0 < weight ∧ weight < 2 ^ 50
  rw [checkedInt_ok hweight]
  unfold guaranteedWeightPrecision
  unfold maxUserSpecifiedWeight at hmax'
  omega

lemma scaleTargets_ok {vs ws : List PoolAsset} (h : vs.mapM scaleTarget = .ok ws) :
    ws.map (·.token.denom) = vs.map (·.token.denom) ∧ ∀ w ∈ ws, 0 < w.weight ∧ w.weight < 2 ^ 50 := by
  have hall := mapM_ok h
  clear h
  induction hall with
  | nil => simp
  | cons hw _ ih =>
    obtain ⟨htoken, hpos⟩ := scaleTarget_ok hw
    refine ⟨by rw [map_cons, map_cons, htoken, ih.1], ?_⟩
    rintro w (_ | ⟨_, hmem⟩)
    · exact hpos
    · exact ih.2 w hmem

/-- A new pool with a smooth weight change stands at the start of a plan. -/
lemma newBalancerPool_plan {poolId : ℕ} {poolParams : PoolParams} {assets : List PoolAsset}
    {governor : Bytes} {blockTime : ℤ}
    (h : newBalancerPool env poolId poolParams assets governor blockTime = .ok p)
    (hs : p.poolParams.smoothWeightChangeParams = some params) (hlen : assets.length < 2 ^ 63)
    (hshort : params.duration < 2 ^ 63) : ∃ zs, Plan p params zs := by
  obtain ⟨shares, p₁, _, -, hp₁, hvalid, hset⟩ := bind3_ok h
  obtain ⟨scaled, totalWeight, hscaled, htotal, hres⟩ := bind2_ok hp₁
  cases hres
  dsimp only at hvalid hset
  obtain ⟨htokens, hpos, -⟩ := scaleAssets_ok hscaled
  have hperm : (sortPoolAssetsByDenom scaled).Perm scaled := perm_insertionSort _ _
  unfold setInitialPoolParams at hset
  rcases hsmooth : poolParams.smoothWeightChangeParams with - | smooth
  · rw [hsmooth] at hset
    cases hset
    rw [hsmooth] at hs
    cases hs
  · rw [hsmooth] at hset
    obtain ⟨smooth', hinit, hres⟩ := bind_ok hset
    cases hres
    cases hs
    obtain ⟨targets, htargets, hres⟩ := bind_ok hinit
    cases hres
    -- what the validation says about the schedule
    obtain ⟨_, _, -, -, hvalid⟩ := bind2_ok hvalid
    obtain ⟨_, _, -, -, hvalid⟩ := bind2_ok hvalid
    rw [hsmooth] at hvalid
    obtain ⟨_, _, _, -, -, hdenoms, hduration⟩ := bind3_ok hvalid
    have hdenoms' := of_decide_eq_true (ensure_ok hdenoms)
    rw [sortPoolAssetsByDenom_sort] at hdenoms'
    obtain ⟨htarget, hweights⟩ := scaleTargets_ok htargets
    have hsame : (sortPoolAssetsByDenom scaled).map (·.token.denom)
        = targets.map (·.token.denom) := (htarget.trans hdenoms').symm
    have hlength : (sortPoolAssetsByDenom scaled).length = targets.length := by
      simpa using congrArg List.length hsame
    have hsum : (((sortPoolAssetsByDenom scaled).zip targets).map (·.1.weight)).sum
        = totalWeight := by
      rw [show (fun z : PoolAsset × PoolAsset => z.1.weight) = (·.weight) ∘ Prod.fst from rfl,
        ← map_map, map_fst_zip hlength.le, (hperm.map _).sum_eq, checkedSum_ok htotal]
    refine ⟨(sortPoolAssetsByDenom scaled).zip targets, ?_⟩
    exact {
      smooth := rfl
      assets := (map_fst_zip hlength.le).symm
      initial := by
        show (sortPoolAssetsByDenom scaled).map _ = _
        conv_lhs => rw [← map_fst_zip hlength.le, map_map]
        rfl
      target := (map_snd_zip hlength.ge).symm
      denom := fun z hz => denom_eq_of_mem_zip hsame hz
      weights := fun z hz => by
        obtain ⟨hz₁, hz₂⟩ := of_mem_zip hz
        exact ⟨(hpos z.1 (hperm.mem_iff.mp hz₁)).2, hweights z.2 hz₂⟩
      total := hsum.symm
      small := by
        rw [hsum]
        have := checkedSum_lt htotal
        omega
      few := by
        have htokens' := congrArg List.length htokens
        rw [length_zip, ← hlength, min_self, hperm.length_eq]
        simp only [tokens, length_map] at htokens'
        omega
      positive := of_decide_eq_true (ensure_ok hduration)
      short := hshort }

lemma Plan.stands (h : Plan p params zs) : Stands params zs 0 p where
  nonneg := le_rfl
  le := by positivity
  assets := by
    rw [h.assets]
    exact map_congr_left fun z _ => (blended_zero z).symm
  total := by
    rw [h.total, h.assets, map_map]
    rfl
  smooth := Or.inl h.smooth

/-! ### The weights along a sequence of pokes -/

/-- Every weight is between its initial and its target value. -/
def Between (params : SmoothWeightChangeParams) (p : Pool) : Prop :=
  List.Forall₂ (fun (a : PoolAsset) (it : PoolAsset × PoolAsset) =>
      a.token.denom = it.1.token.denom ∧ a.token.denom = it.2.token.denom
        ∧ min it.1.weight it.2.weight ≤ a.weight ∧ a.weight ≤ max it.1.weight it.2.weight)
    p.poolAssets (params.initialPoolWeights.zip params.targetPoolWeights)

/-- No weight of `p'` is further from its target than that of `p`. -/
def Closer (params : SmoothWeightChangeParams) (p p' : Pool) : Prop :=
  List.Forall₂ (fun (aa : PoolAsset × PoolAsset) (t : PoolAsset) =>
      |t.weight - aa.2.weight| ≤ |t.weight - aa.1.weight|)
    (p.poolAssets.zip p'.poolAssets) params.targetPoolWeights

/-- What a sequence of pokes is meant to do: it does not panic; the weights are on their way and
add up; they are those of a single poke at the last time; and the next poke takes them closer to
their targets. -/
def Smooth (env : Env) (p : Pool) (params : SmoothWeightChangeParams) (ts : List ℤ) : Prop :=
  ∃ p', ts.foldlM (pokePool env) p = .ok p'
    ∧ Between params p' ∧ p'.totalWeight = (p'.poolAssets.map (·.weight)).sum
    ∧ (∀ last, ts.getLast? = some last →
        ∃ q, pokePool env p last = .ok q ∧ q.poolAssets = p'.poolAssets)
    ∧ ∀ t, (∀ s ∈ ts, s ≤ t) → ∃ p'', pokePool env p' t = .ok p'' ∧ Closer params p' p''

lemma Stands.between (hplan : Plan p₀ params zs) (h : Stands params zs r p) : Between params p := by
  unfold Between
  rw [h.assets, hplan.initial, hplan.target, zip_map', forall₂_map_left_iff,
    forall₂_map_right_iff, forall₂_same]
  intro z hz
  exact ⟨rfl, hplan.denom z hz, blend_mem Dec.unit_pos h.nonneg h.le⟩

lemma Stands.closer (hplan : Plan p₀ params zs) (h : Stands params zs r p)
    (h' : Stands params zs q p') (hle : r ≤ q) : Closer params p p' := by
  unfold Closer
  rw [h.assets, h'.assets, hplan.target, zip_map', forall₂_map_left_iff,
    forall₂_map_right_iff, forall₂_same]
  intro z _
  exact abs_sub_blend_le Dec.unit_pos hle h'.le

lemma Plan.smooth_of_fits (hplan : Plan p params zs) (hfits : Fits env params zs)
    (hts : ts.Pairwise (· ≤ ·)) : Smooth env p params ts := by
  have hstart : ∀ t, 0 ≤ covered params t := fun t => (covered_mem params t).1
  obtain ⟨p', hrun, hstands⟩ := hplan.stands.run hplan hfits hts fun t _ => hstart t
  refine ⟨p', hrun, hstands.between hplan, hstands.total, fun last hlast => ?_, fun t ht => ?_⟩
  · obtain ⟨q, hq, hstands'⟩ := hplan.stands.poke hplan hfits (hstart last)
    refine ⟨q, hq, ?_⟩
    rw [hstands'.assets, hstands.assets, coveredLast_eq hlast]
  · have hle := coveredLast_le (hstart t) ht
    obtain ⟨p'', hp'', hstands'⟩ := hstands.poke hplan hfits hle
    exact ⟨p'', hp'', hstands.closer hplan hstands' hle⟩

/-- A single poke between start and end divides by the duration and computes parts of the
differences. -/
lemma Plan.fits_of_poke (hplan : Plan p params zs) (hstart : ¬t ≤ params.startTime)
    (hend : ¬params.startTime + params.duration < t) (h : pokePool env p t = .ok p') :
    milliseconds params.duration ≠ 0
      ∧ (covered params t < unit → ∀ z ∈ zs,
        covered params t * |z.2.weight - z.1.weight| < 2 ^ env.math.maxDecBitLen) := by
  unfold pokePool at h
  rw [hplan.smooth] at h
  dsimp only at h
  rw [if_neg hstart, if_neg hend] at h
  obtain ⟨percent, weights, hquo, hweights, -⟩ := bind2_ok h
  obtain ⟨hne, -⟩ := Dec.quoInt_ok hquo
  rw [hplan.percent_eq hne hstart hend] at hquo
  cases hquo
  refine ⟨hne, fun hlt z hz => ?_⟩
  have hone : ¬Dec.one ≤ (⟨covered params t⟩ : Dec) := not_le.mpr hlt
  unfold interpolatedWeights at hweights
  rw [if_neg hone, hplan.sub_weights, ok_bind] at hweights
  obtain ⟨scaled, hscaled, -⟩ := bind_ok hweights
  have hfit := lt_of_poolAssetsMulDec hscaled z hz
  zify at hfit
  rwa [abs_mul, abs_of_nonneg (covered_mem params t).1] at hfit

lemma covered_before_end (hpos : 0 < params.duration) (hd : 1 < milliseconds params.duration) :
    (¬params.startTime + (milliseconds params.duration - 1) * 10 ^ 6 ≤ params.startTime
      ∧ ¬params.startTime + params.duration
        < params.startTime + (milliseconds params.duration - 1) * 10 ^ 6)
    ∧ covered params (params.startTime + (milliseconds params.duration - 1) * 10 ^ 6)
      = (milliseconds params.duration - 1) * unit / milliseconds params.duration := by
  have hduration : milliseconds params.duration * 10 ^ 6 ≤ params.duration := by
    rw [milliseconds, Int.tdiv_eq_ediv_of_nonneg hpos.le]
    omega
  have hstart : ¬params.startTime + (milliseconds params.duration - 1) * 10 ^ 6
      ≤ params.startTime := by omega
  have hend : ¬params.startTime + params.duration
      < params.startTime + (milliseconds params.duration - 1) * 10 ^ 6 := by omega
  have hk : milliseconds ((milliseconds params.duration - 1) * 10 ^ 6)
      = milliseconds params.duration - 1 := Int.mul_tdiv_cancel _ (by decide)
  refine ⟨⟨hstart, hend⟩, ?_⟩
  rw [covered_of_mem hstart hend, add_sub_cancel_left, hk]

/-- **Smooth weight changes are smooth** if and only if the duration is at least a millisecond and
the weights are not too far apart. -/
theorem smooth_weights_iff {poolId : ℕ} {poolParams : PoolParams} {assets : List PoolAsset}
    {governor : Bytes} {blockTime : ℤ}
    (h : newBalancerPool env poolId poolParams assets governor blockTime = .ok p)
    (hs : p.poolParams.smoothWeightChangeParams = some params) (hlen : assets.length < 2 ^ 63)
    (hshort : params.duration < 2 ^ 63) :
    (∀ ts : List ℤ, ts.Pairwise (· ≤ ·) → Smooth env p params ts)
      ↔ 0 < milliseconds params.duration
        ∧ ∀ it ∈ params.initialPoolWeights.zip params.targetPoolWeights,
          (milliseconds params.duration - 1) * unit / milliseconds params.duration
            * |it.2.weight - it.1.weight| < 2 ^ env.math.maxDecBitLen := by
  obtain ⟨zs, hplan⟩ := newBalancerPool_plan h hs hlen hshort
  have hpairs : (∀ it ∈ params.initialPoolWeights.zip params.targetPoolWeights,
      (milliseconds params.duration - 1) * unit / milliseconds params.duration
        * |it.2.weight - it.1.weight| < 2 ^ env.math.maxDecBitLen)
      ↔ ∀ z ∈ zs, (milliseconds params.duration - 1) * unit / milliseconds params.duration
        * |z.2.weight - z.1.weight| < 2 ^ env.math.maxDecBitLen := by
    rw [hplan.initial, hplan.target, zip_map', forall_mem_map]
  rw [hpairs]
  constructor
  · intro hsmooth
    have hpoke : ∀ t, ∃ p', pokePool env p t = .ok p' := by
      intro t
      obtain ⟨p', hrun, -⟩ := hsmooth [t] (pairwise_singleton _ _)
      rw [foldlM_cons] at hrun
      obtain ⟨p₁, hp₁, -⟩ := bind_ok hrun
      exact ⟨p₁, hp₁⟩
    have hpos := hplan.positive
    have hd : 0 < milliseconds params.duration := by
      obtain ⟨p', hp'⟩ := hpoke (params.startTime + params.duration)
      have hne := (hplan.fits_of_poke (by omega) (by omega) hp').1
      have := (milliseconds_mono hpos.le le_rfl).1
      omega
    refine ⟨hd, fun z hz => ?_⟩
    rcases (show 1 ≤ milliseconds params.duration from hd).eq_or_lt with hone | hmore
    · rw [← hone, sub_self, zero_mul, Int.zero_ediv, zero_mul]
      positivity
    · -- one millisecond before the end
      obtain ⟨hin, hcovered⟩ := covered_before_end hpos hmore
      obtain ⟨p', hp'⟩ := hpoke (params.startTime + (milliseconds params.duration - 1) * 10 ^ 6)
      have hfit := (hplan.fits_of_poke hin.1 hin.2 hp').2
      rw [hcovered] at hfit
      refine hfit ?_ z hz
      apply Int.ediv_lt_of_lt_mul hd
      have : (0 : ℤ) < unit := by decide
      nlinarith
  · rintro ⟨hd, hdiff⟩ ts hts
    exact hplan.smooth_of_fits ⟨hd, hdiff⟩ hts

/-- A pool of two coins whose weights are to be exchanged, from second one on. -/
def exchange (weight duration : ℤ) : Result Pool :=
  newBalancerPool chainEnv 1
    ⟨.zero, .zero, some ⟨10 ^ 9, duration, [], [⟨⟨ascii "bar", 0⟩, 2⟩, ⟨⟨ascii "foo", 0⟩, 1⟩]⟩⟩
    [⟨⟨ascii "bar", 100⟩, weight⟩, ⟨⟨ascii "foo", 100⟩, 2⟩] [] 0

/-- Within an hour, weights of one and two are exchanged smoothly. -/
theorem smooth_weights_hour :
    ∃ p params, exchange 1 (3600 * 10 ^ 9) = .ok p
      ∧ p.poolParams.smoothWeightChangeParams = some params
      ∧ ∀ ts : List ℤ, ts.Pairwise (· ≤ ·) → Smooth chainEnv p params ts := by
  obtain ⟨p, hp, hs⟩ := ok_of_toOption (show (exchange 1 (3600 * 10 ^ 9)).toOption.map
    (·.poolParams.smoothWeightChangeParams) = some (some ⟨10 ^ 9, 3600 * 10 ^ 9,
      [⟨⟨ascii "bar", 0⟩, 2 ^ 30⟩, ⟨⟨ascii "foo", 0⟩, 2 ^ 31⟩],
      [⟨⟨ascii "bar", 0⟩, 2 ^ 31⟩, ⟨⟨ascii "foo", 0⟩, 2 ^ 30⟩]⟩) by decide +kernel)
  refine ⟨p, _, hp, hs, (smooth_weights_iff hp hs (by decide) (by decide)).mpr ?_⟩
  decide +kernel

/-- Half a millisecond is no duration to divide by; and a difference of almost 256 bits does not
fit into a decimal. -/
theorem poke_panics :
    (exchange 1 500000 >>= fun p => pokePool chainEnv p (10 ^ 9 + 1))
        = .error (.panic "division by zero")
      ∧ (exchange 1 500000).toOption.isSome
      ∧ (exchange (2 ^ 226 - 2 ^ 21) (3600 * 10 ^ 9)
          >>= fun p => pokePool chainEnv p (10 ^ 9 + 3599 * 10 ^ 9)) = .error (.panic "Int overflow")
      ∧ (exchange (2 ^ 226 - 2 ^ 21) (3600 * 10 ^ 9)).toOption.isSome := by
  decide +kernel

end MaanyDex.Gamm.Balancer
