/-
`JoinPoolNoSwap` of the keeper: what is charged and what is credited.

The keeper turns the wanted shares into a ratio `R` of all shares, rounded down
to 18 digits, and asks for `⌈R * L⌉` of every asset of which the pool has `L`.
The pool computes the ratio of every coin again, rounded down, takes the least of
them, `m`, and uses `⌈m * L⌉` of every coin.  Since

    R * L ≤ m * L ≤ ⌈R * L⌉,

both roundings give the same amount: nothing remains (`addRemainder_needed`).
-/
import MaanyDex.Gamm.Dilution
import MaanyDex.Gamm.Solvency

namespace MaanyDex.Gamm

open List Run Dec

open FixedPoint hiding mul_nonneg
open Dec (unit)

/-! ### What the keeper asks for -/

/-- Of every coin, the ratio of what the pool has, rounded up.  The ratio is a count of
`10 ^ -18`. -/
structure Needed (ratio : ℤ) (liquidity needed : Coins) : Prop where
  nodup : (needed.map (·.denom)).Nodup
  liquid : ∀ c ∈ needed, 0 < amountOfNoDenomValidation liquidity c.denom
  amount : ∀ c ∈ needed, c.amount
    = FixedPoint.ceil unit (ratio * amountOfNoDenomValidation liquidity c.denom)
  bound : ∀ c ∈ needed, c.amount.natAbs < 2 ^ 256

section Needed

variable {env : Env} {ratio : Dec} {coin c : Coin} {liquidity needed : Coins}

lemma neededCoin_ok (h : neededCoin env ratio coin = .ok c) :
    c = ⟨coin.denom, ceil unit (ratio.raw * coin.amount)⟩ ∧ c.amount.natAbs < 2 ^ 256 := by
  obtain ⟨product, amt, _, hproduct, hamt, -, h⟩ := bind3_ok h
  cases h
  have hprod : product.raw = ratio.raw * coin.amount := by
    rw [mul_ok hproduct]
    show nearest unit (coin.amount * unit * ratio.raw) = _
    rw [mul_comm _ ratio.raw, ← mul_assoc, nearest_mul_self unit_pos]
  have hround : amt = ceil unit (ratio.raw * coin.amount) := by
    rw [checkedInt_ok hamt, ← hprod]
    exact nearest_mul_self unit_pos _
  exact ⟨by rw [hround], checkedInt_lt hamt⟩

lemma foldlM_neededCoin_ok {a : Coins} (ha : (a.map (·.denom)).Nodup)
    (hpos : ∀ c ∈ a, c.amount ≠ 0)
    (h : liquidity.foldlM (fun needed coin => do
      let c ← neededCoin env ratio coin
      coinsAdd needed [c]) a = .ok needed) :
    (needed.map (·.denom)).Nodup ∧ (∀ c ∈ needed, c.amount ≠ 0)
      ∧ (∀ d, net needed d = net a d + net (liquidity.map fun l =>
            ⟨l.denom, ceil unit (ratio.raw * l.amount)⟩) d)
      ∧ ∀ l ∈ liquidity, (ceil unit (ratio.raw * l.amount)).natAbs < 2 ^ 256 := by
  induction liquidity generalizing a with
  | nil =>
    cases h
    exact ⟨ha, hpos, by simp, by simp⟩
  | cons l liquidity ih =>
    rw [foldlM_cons] at h
    obtain ⟨a₁, ha₁, h⟩ := bind_ok h
    obtain ⟨c, hc, hadd⟩ := bind_ok ha₁
    obtain ⟨rfl, hlt⟩ := neededCoin_ok hc
    obtain ⟨hnet, hnodup, hne⟩ := coinsAdd_ok hadd
    obtain ⟨hnodup', hne', hnet', hbound⟩ := ih hnodup hne h
    refine ⟨hnodup', hne', fun d => ?_, fun l' hl' => ?_⟩
    · rw [hnet', hnet, map_cons, net_cons, net_cons, net_nil]
      ring
    · rcases mem_cons.mp hl' with rfl | hl'
      · exact hlt
      · exact hbound l' hl'

/-- **What `getMaximalNoSwapLPAmount` returns.** -/
lemma getMaximalNoSwapLPAmount_ok {p : Pool} {shareOutAmount : ℤ} (hp : p.Wf)
    (h : getMaximalNoSwapLPAmount env p shareOutAmount = .ok needed) :
    ∃ liquidity, p.getTotalPoolLiquidity = .ok liquidity
      ∧ 0 < (shareOutAmount * unit).tdiv p.view.totalShares.amount
      ∧ Needed ((shareOutAmount * unit).tdiv p.view.totalShares.amount) liquidity needed := by
  obtain ⟨ratio, _, liquidity, hratio, hpositive, hliq, h⟩ := bind3_ok h
  have hraw : ratio.raw = (shareOutAmount * unit).tdiv p.view.totalShares.amount :=
    (quoInt_ok hratio).2
  obtain ⟨-, hnodup, hpos⟩ := Pool.getTotalPoolLiquidity_ok hp hliq
  obtain ⟨hnodup', hne, hnet, hbound⟩ := foldlM_neededCoin_ok (a := []) nodup_nil (by simp) h
  rw [← hraw]
  refine ⟨liquidity, hliq, of_decide_eq_true (ensure_ok hpositive), ?_⟩
  -- every coin that is asked for is one of the pool
  have hcoin : ∀ c ∈ needed, ∃ l ∈ liquidity, l.denom = c.denom
      ∧ c.amount = ceil unit (ratio.raw * l.amount)
      ∧ amountOfNoDenomValidation liquidity c.denom = l.amount := by
    intro c hc
    have hamount := hnet c.denom
    rw [net_eq_of_mem hnodup' hc, net_nil, zero_add] at hamount
    obtain ⟨l, hl, hd⟩ : ∃ l ∈ liquidity, l.denom = c.denom := by
      by_contra hnone
      push Not at hnone
      apply hne c hc
      rw [hamount]
      apply net_eq_zero_of_notMem
      simpa using hnone
    refine ⟨l, hl, hd, ?_, ?_⟩
    · rw [hamount, ← hd]
      refine net_eq_of_mem ?_ (mem_map.mpr ⟨l, hl, rfl⟩)
      rwa [map_map]
    · rw [amountOf_eq_net hnodup, ← hd, net_eq_of_mem hnodup hl]
  refine ⟨hnodup', fun c hc => ?_, fun c hc => ?_, fun c hc => ?_⟩
  · obtain ⟨l, hl, -, -, hL⟩ := hcoin c hc
    rw [hL]
    exact hpos l hl
  · obtain ⟨l, -, -, hamount, hL⟩ := hcoin c hc
    rw [hL, hamount]
  · obtain ⟨l, hl, -, hamount, -⟩ := hcoin c hc
    rw [hamount]
    exact hbound l hl

end Needed

/-! ### What the pool makes of it -/

/-- The ratio of a coin to what the pool has, rounded down. -/
def shareRatio (liquidity : Coins) (c : Coin) : Dec :=
  ⟨(c.amount * unit).tdiv (amountOfNoDenomValidation liquidity c.denom)⟩

/-- The least ratio of the coins. -/
def minShareRatio (liquidity tokensIn : Coins) : Dec :=
  (tokensIn.map (shareRatio liquidity)).foldl (fun m r => if r < m then r else m) maxSortableDec

section Ratios

variable {rs : List Dec} {m : Dec}

lemma foldl_min_mem (rs : List Dec) (m : Dec) :
    rs.foldl (fun m r => if r < m then r else m) m = m
      ∨ rs.foldl (fun m r => if r < m then r else m) m ∈ rs := by
  induction rs generalizing m with
  | nil => exact .inl rfl
  | cons r rs ih =>
    rw [foldl_cons]
    rcases ih (if r < m then r else m) with h | h
    · rw [h]
      split
      · exact .inr mem_cons_self
      · exact .inl rfl
    · exact .inr (mem_cons_of_mem _ h)

lemma le_foldl_max (rs : List Dec) (m : Dec) :
    m.raw ≤ (rs.foldl (fun m r => if m < r then r else m) m).raw
      ∧ ∀ r ∈ rs, r.raw ≤ (rs.foldl (fun m r => if m < r then r else m) m).raw := by
  induction rs generalizing m with
  | nil => exact ⟨le_rfl, by simp⟩
  | cons r rs ih =>
    obtain ⟨hm, hrs⟩ := ih (if m < r then r else m)
    rw [foldl_cons]
    have hboth : m.raw ≤ (if m < r then r else m).raw ∧ r.raw ≤ (if m < r then r else m).raw := by
      split
      · rename_i hlt
        exact ⟨(lt_def.mp hlt).le, le_rfl⟩
      · rename_i hge
        exact ⟨le_rfl, not_lt.mp hge⟩
    refine ⟨hboth.1.trans hm, fun r' hr' => ?_⟩
    rcases mem_cons.mp hr' with rfl | hr'
    · exact hboth.2.trans hm
    · exact hrs r' hr'

end Ratios

section Pool

variable {math : Math} {R S : ℤ} {liquidity needed rem : Coins} {c : Coin} {m r : Dec}

/-- The ratio of a coin that was asked for is at least the ratio it was asked for. -/
lemma Needed.shareRatio_bounds (h : Needed R liquidity needed) (hR : 0 ≤ R) (hc : c ∈ needed) :
    R ≤ (shareRatio liquidity c).raw
      ∧ (shareRatio liquidity c).raw * amountOfNoDenomValidation liquidity c.denom
        ≤ c.amount * unit := by
  have hL := h.liquid c hc
  have hceil : R * amountOfNoDenomValidation liquidity c.denom ≤ c.amount * unit := by
    rw [h.amount c hc]
    exact (ceil_le_iff unit_pos).mp le_rfl
  have hnum : 0 ≤ c.amount * (unit : ℤ) := (mul_nonneg hR hL.le).trans hceil
  show R ≤ (c.amount * (unit : ℤ)).tdiv _ ∧ (c.amount * (unit : ℤ)).tdiv _ * _ ≤ _
  rw [Int.tdiv_eq_ediv_of_nonneg hnum]
  exact ⟨(Int.le_ediv_iff_mul_le hL).mpr hceil, Int.ediv_mul_le _ hL.ne'⟩

/-- **Both roundings agree**: a coin leaves nothing, unless the product with its liquidity is
too long. -/
lemma addRemainder_needed (h : Needed R liquidity needed) (hc : c ∈ needed) (hlow : R ≤ m.raw)
    (hup : m.raw * amountOfNoDenomValidation liquidity c.denom ≤ c.amount * unit) :
    addRemainder math liquidity m rem (c, r)
      = if r = m ∨ (m.raw * amountOfNoDenomValidation liquidity c.denom).natAbs
          < 2 ^ math.maxDecBitLen
        then .ok rem else .error (.panic "Int overflow") := by
  have hL := h.liquid c hc
  have hused : ceil unit (m.raw * amountOfNoDenomValidation liquidity c.denom) = c.amount := by
    rw [h.amount c hc] at hup ⊢
    exact ceil_eq_of_le_of_le unit_pos (mul_le_mul_of_nonneg_right hlow hL.le) hup
  have hcut : (c.amount * (unit : ℤ)).tdiv unit = c.amount :=
    Int.mul_tdiv_cancel _ (by exact_mod_cast unit_pos.ne')
  unfold addRemainder
  by_cases hr : r = m
  · rw [if_pos hr, if_pos (.inl hr)]
  · rw [if_neg hr]
    by_cases hfit : (m.raw * amountOfNoDenomValidation liquidity c.denom).natAbs
        < 2 ^ math.maxDecBitLen
    · have htrunc : (Dec.ceil ⟨m.raw * amountOfNoDenomValidation liquidity c.denom⟩).truncateInt
          = .ok c.amount := by
        show checkedInt ((ceil unit _ * (unit : ℤ)).tdiv unit) = _
        rw [hused, hcut]
        exact checkedInt_eq_ok (h.bound c hc)
      have hzero : checkedInt (c.amount - c.amount) = .ok 0 := by
        rw [sub_self]
        rfl
      rw [if_pos (.inr hfit), mulInt_eq_ok hfit]
      show (Dec.truncateInt _ >>= fun used => checkedInt (c.amount - used) >>= _) = _
      rw [htrunc]
      show (checkedInt (c.amount - c.amount) >>= _) = _
      rw [hzero]
      rfl
    · rw [if_neg (not_or.mpr ⟨hr, hfit⟩), mulInt_eq_error hfit]
      rfl

lemma foldlM_addRemainder_needed (h : Needed R liquidity needed) (hlow : R ≤ m.raw)
    {cs : Coins} (hcs : ∀ c ∈ cs, c ∈ needed
      ∧ m.raw * amountOfNoDenomValidation liquidity c.denom ≤ c.amount * unit) :
    ((∀ c ∈ cs, shareRatio liquidity c = m
        ∨ (m.raw * amountOfNoDenomValidation liquidity c.denom).natAbs < 2 ^ math.maxDecBitLen) →
      (cs.map fun c => (c, shareRatio liquidity c)).foldlM (addRemainder math liquidity m) rem
        = .ok rem)
    ∧ ((∃ c ∈ cs, ¬(shareRatio liquidity c = m
        ∨ (m.raw * amountOfNoDenomValidation liquidity c.denom).natAbs < 2 ^ math.maxDecBitLen)) →
      (cs.map fun c => (c, shareRatio liquidity c)).foldlM (addRemainder math liquidity m) rem
        = .error (.panic "Int overflow")) := by
  induction cs with
  | nil => exact ⟨fun _ => rfl, by simp⟩
  | cons c cs ih =>
    obtain ⟨hc, hup⟩ := hcs c mem_cons_self
    obtain ⟨ihok, iherr⟩ := ih fun c' hc' => hcs c' (mem_cons_of_mem _ hc')
    rw [map_cons, foldlM_cons, addRemainder_needed h hc hlow hup]
    constructor
    · intro hall
      rw [if_pos (hall c mem_cons_self)]
      exact ihok fun c' hc' => hall c' (mem_cons_of_mem _ hc')
    · rintro ⟨c', hc', hbad⟩
      by_cases hfit : shareRatio liquidity c = m
          ∨ (m.raw * amountOfNoDenomValidation liquidity c.denom).natAbs < 2 ^ math.maxDecBitLen
      · rw [if_pos hfit]
        rcases mem_cons.mp hc' with rfl | hc'
        · exact absurd hfit hbad
        · exact iherr ⟨c', hc', hbad⟩
      · rw [if_neg hfit]
        rfl

/-- The products that a join computes are not too long. -/
structure Fits (math : Math) (S : ℤ) (liquidity needed : Coins) (m : Dec) : Prop where
  shares : (m.raw * S).natAbs < 2 ^ math.maxDecBitLen
  whole : ((m.raw * S).tdiv unit).natAbs < 2 ^ 256
  coins : ∀ c ∈ needed, shareRatio liquidity c = m
    ∨ (m.raw * amountOfNoDenomValidation liquidity c.denom).natAbs < 2 ^ math.maxDecBitLen

/-- The least ratio is the initial one exactly if no coin is below `10 ^ 18` times what the pool
has. -/
lemma Needed.minShareRatio_ne_iff (h : Needed R liquidity needed) (hR : 0 ≤ R) :
    minShareRatio liquidity needed ≠ maxSortableDec
      ↔ ∃ c ∈ needed, c.amount < 10 ^ 18 * amountOfNoDenomValidation liquidity c.denom := by
  have hcoin : ∀ c ∈ needed, (shareRatio liquidity c).raw < maxSortableDec.raw
      ↔ c.amount < 10 ^ 18 * amountOfNoDenomValidation liquidity c.denom := by
    intro c hc
    have hL := h.liquid c hc
    have hnum : 0 ≤ c.amount * (unit : ℤ) := by
      obtain ⟨hlow, hup⟩ := h.shareRatio_bounds hR hc
      exact (mul_nonneg (hR.trans hlow) hL.le).trans hup
    have hunit : (unit : ℤ) = 10 ^ 18 := rfl
    show (c.amount * (unit : ℤ)).tdiv _ < 10 ^ 36 ↔ _
    rw [Int.tdiv_eq_ediv_of_nonneg hnum, Int.ediv_lt_iff_lt_mul hL, hunit]
    omega
  constructor
  · intro hne
    -- the least ratio is then the ratio of a coin
    rcases foldl_min_mem (needed.map (shareRatio liquidity)) maxSortableDec with hm | hm
    · exact absurd hm hne
    · obtain ⟨c, hc, heq⟩ := mem_map.mp hm
      refine ⟨c, hc, (hcoin c hc).mp ?_⟩
      have hle := (foldl_min_le (needed.map (shareRatio liquidity)) maxSortableDec).1
      have heq' : shareRatio liquidity c = minShareRatio liquidity needed := heq
      rw [heq']
      refine lt_of_le_of_ne hle fun hraw => hne ?_
      exact Dec.ext hraw
  · rintro ⟨c, hc, hlt⟩ heq
    have hle := (foldl_min_le (needed.map (shareRatio liquidity)) maxSortableDec).2 _
      (mem_map.mpr ⟨c, hc, rfl⟩)
    have hlt' := (hcoin c hc).mpr hlt
    have heq' : ((needed.map (shareRatio liquidity)).foldl
        (fun m r => if r < m then r else m) maxSortableDec).raw = maxSortableDec.raw :=
      congrArg Dec.raw heq
    omega

/-- The least ratio lies between the ratio that was asked for and the ratio of every coin. -/
lemma Needed.minShareRatio_bounds (h : Needed R liquidity needed) (hR : 0 ≤ R)
    (hne : minShareRatio liquidity needed ≠ maxSortableDec) :
    R ≤ (minShareRatio liquidity needed).raw
      ∧ ∀ c ∈ needed, (minShareRatio liquidity needed).raw
          * amountOfNoDenomValidation liquidity c.denom ≤ c.amount * unit := by
  constructor
  · rcases foldl_min_mem (needed.map (shareRatio liquidity)) maxSortableDec with hm | hm
    · exact absurd hm hne
    · obtain ⟨c, hc, heq⟩ := mem_map.mp hm
      have heq' : shareRatio liquidity c = minShareRatio liquidity needed := heq
      rw [← heq']
      exact (h.shareRatio_bounds hR hc).1
  · intro c hc
    have hle := (foldl_min_le (needed.map (shareRatio liquidity)) maxSortableDec).2 _
      (mem_map.mpr ⟨c, hc, rfl⟩)
    exact (mul_le_mul_of_nonneg_right hle (h.liquid c hc).le).trans (h.shareRatio_bounds hR hc).2

lemma maximalExactRatioJoin_eq (h : Needed R liquidity needed) (S : ℤ) :
    maximalExactRatioJoin math S liquidity needed = (do
      ensure (minShareRatio liquidity needed ≠ maxSortableDec)
        (.err "unexpected error in MaximalExactRatioJoin")
      let shares ← Dec.mulInt math (minShareRatio liquidity needed) S
      let numShares ← shares.truncateInt
      if minShareRatio liquidity needed = (needed.map (shareRatio liquidity)).foldl
          (fun m r => if m < r then r else m) Dec.zero then .ok (numShares, [])
      else do
        let remCoins ← (needed.map fun c => (c, shareRatio liquidity c)).foldlM
          (addRemainder math liquidity (minShareRatio liquidity needed)) []
        .ok (numShares, remCoins)) := by
  have hratios : (needed.mapM fun coin => Dec.quoInt (Dec.ofInt coin.amount)
      (amountOfNoDenomValidation liquidity coin.denom)) = .ok (needed.map (shareRatio liquidity)) :=
    mapM_eq_ok fun c hc => if_neg (h.liquid c hc).ne'
  have hzip : needed.zip (needed.map (shareRatio liquidity))
      = needed.map fun c => (c, shareRatio liquidity c) := by
    have hmap : (needed.map id).zip (needed.map (shareRatio liquidity))
        = needed.map fun c => (id c, shareRatio liquidity c) := zip_map'
    rwa [map_id] at hmap
  rw [maximalExactRatioJoin, hratios, ← hzip]
  rfl

/-- **What the pool makes of the coins**: the guard stops it, a product is too long, or everything
is used. -/
lemma maximalExactRatioJoin_needed (math : Math) (S : ℤ) (h : Needed R liquidity needed)
    (hR : 0 ≤ R) :
    (minShareRatio liquidity needed = maxSortableDec →
      maximalExactRatioJoin math S liquidity needed
        = .error (.err "unexpected error in MaximalExactRatioJoin"))
    ∧ (minShareRatio liquidity needed ≠ maxSortableDec →
      Fits math S liquidity needed (minShareRatio liquidity needed) →
      maximalExactRatioJoin math S liquidity needed
        = .ok (((minShareRatio liquidity needed).raw * S).tdiv unit, []))
    ∧ (minShareRatio liquidity needed ≠ maxSortableDec →
      ¬Fits math S liquidity needed (minShareRatio liquidity needed) →
      maximalExactRatioJoin math S liquidity needed = .error (.panic "Int overflow")) := by
  refine ⟨fun hmax => ?_, fun hne hfits => ?_, fun hne hfits => ?_⟩
  · rw [maximalExactRatioJoin_eq h, hmax]
    rfl
  · obtain ⟨hlow, hup⟩ := h.minShareRatio_bounds hR hne
    have htrunc : Dec.truncateInt ⟨(minShareRatio liquidity needed).raw * S⟩
        = .ok (((minShareRatio liquidity needed).raw * S).tdiv unit) :=
      checkedInt_eq_ok hfits.whole
    have hloop : (needed.map fun c => (c, shareRatio liquidity c)).foldlM
        (addRemainder math liquidity (minShareRatio liquidity needed)) [] = .ok [] :=
      (foldlM_addRemainder_needed h hlow fun c hc => ⟨hc, hup c hc⟩).1 hfits.coins
    rw [maximalExactRatioJoin_eq h, ensure, if_pos (decide_eq_true hne)]
    show (Dec.mulInt math _ S >>= _) = _
    rw [mulInt_eq_ok hfits.shares]
    show (Dec.truncateInt _ >>= _) = _
    rw [htrunc, hloop]
    show (if _ then _ else _) = _
    split <;> rfl
  · obtain ⟨hlow, hup⟩ := h.minShareRatio_bounds hR hne
    rw [maximalExactRatioJoin_eq h, ensure, if_pos (decide_eq_true hne)]
    show (Dec.mulInt math _ S >>= _) = _
    by_cases hshares : ((minShareRatio liquidity needed).raw * S).natAbs < 2 ^ math.maxDecBitLen
    · rw [mulInt_eq_ok hshares]
      show (checkedInt _ >>= _) = _
      by_cases hwhole : (((minShareRatio liquidity needed).raw * S).tdiv unit).natAbs < 2 ^ 256
      · have hbad : ∃ c ∈ needed, ¬(shareRatio liquidity c = minShareRatio liquidity needed
            ∨ ((minShareRatio liquidity needed).raw
              * amountOfNoDenomValidation liquidity c.denom).natAbs < 2 ^ math.maxDecBitLen) := by
          by_contra hall
          push Not at hall
          exact hfits ⟨hshares, hwhole, hall⟩
        rw [checkedInt_eq_ok hwhole]
        show (if _ then _ else _) = _
        split
        · -- all ratios are the same, so the loop is not needed
          rename_i hsame
          obtain ⟨c, hc, hc'⟩ := hbad
          refine absurd (.inl (Dec.ext (le_antisymm ?_ ?_))) hc'
          · rw [hsame]
            exact (le_foldl_max _ _).2 _ (mem_map.mpr ⟨c, hc, rfl⟩)
          · exact (foldl_min_le _ _).2 _ (mem_map.mpr ⟨c, hc, rfl⟩)
        · rw [(foldlM_addRemainder_needed h hlow fun c hc => ⟨hc, hup c hc⟩).2 hbad]
          rfl
      · rw [checkedInt, if_neg hwhole]
        rfl
    · rw [mulInt_eq_error hshares]
      rfl

/-- **Nothing remains**, and the shares are at least the ratio that was asked for. -/
lemma maximalExactRatioJoin_exact {n : ℤ} (h : Needed R liquidity needed) (hR : 0 ≤ R)
    (hS : 0 ≤ S) (hjoin : maximalExactRatioJoin math S liquidity needed = .ok (n, rem)) :
    rem = [] ∧ R * S / unit ≤ n := by
  obtain ⟨hguard, hok, hlong⟩ := maximalExactRatioJoin_needed math S h hR
  by_cases hmax : minShareRatio liquidity needed = maxSortableDec
  · rw [hguard hmax] at hjoin
    cases hjoin
  · by_cases hfits : Fits math S liquidity needed (minShareRatio liquidity needed)
    · rw [hok hmax hfits] at hjoin
      cases hjoin
      have hlow := (h.minShareRatio_bounds hR hmax).1
      refine ⟨rfl, ?_⟩
      rw [Int.tdiv_eq_ediv_of_nonneg (mul_nonneg (hR.trans hlow) hS)]
      exact Int.ediv_le_ediv (by exact_mod_cast unit_pos) (mul_le_mul_of_nonneg_right hlow hS)
    · rw [hlong hmax hfits] at hjoin
      cases hjoin

lemma maximalExactRatioJoin_succeeds_iff (math : Math) (S : ℤ) (h : Needed R liquidity needed)
    (hR : 0 ≤ R) :
    (∃ n rem, maximalExactRatioJoin math S liquidity needed = .ok (n, rem))
      ↔ (∃ c ∈ needed, c.amount < 10 ^ 18 * amountOfNoDenomValidation liquidity c.denom)
        ∧ Fits math S liquidity needed (minShareRatio liquidity needed) := by
  obtain ⟨hguard, hok, hlong⟩ := maximalExactRatioJoin_needed math S h hR
  rw [← h.minShareRatio_ne_iff hR]
  constructor
  · rintro ⟨n, rem, hjoin⟩
    have hmax : minShareRatio liquidity needed ≠ maxSortableDec := by
      intro hmax
      rw [hguard hmax] at hjoin
      cases hjoin
    refine ⟨hmax, ?_⟩
    by_contra hfits
    rw [hlong hmax hfits] at hjoin
    cases hjoin
  · rintro ⟨hmax, hfits⟩
    exact ⟨_, _, hok hmax hfits⟩

end Pool

/-! ### The join of the keeper -/

section Keeper

variable {env : Env} {R n : ℤ} {p p' : Pool} {liquidity coins : Coins}

lemma Pool.joinPoolNoSwap_exact (hp : p.Wf) (hS : 0 ≤ p.view.totalShares.amount) (hR : 0 ≤ R)
    (hliq : p.getTotalPoolLiquidity = .ok liquidity) (hneeded : Needed R liquidity coins)
    (h : p.joinPoolNoSwap env coins = .ok (n, p')) :
    Moved (net coins) n p.view p'.view ∧ R * p.view.totalShares.amount / unit ≤ n := by
  have hnet : ∀ {joined}, coinsSub env.toSdk coins [] = .ok joined → net joined = net coins := by
    intro joined hsub
    funext d
    rw [(coinsSub_ok hsub).1, net_nil, sub_zero]
  cases p with
  | balancer p =>
    obtain ⟨⟨n', q⟩, hq, heq⟩ := map_ok h
    cases heq
    obtain ⟨⟨_, joined⟩, hcalc, h⟩ := bind_ok hq
    obtain ⟨_, hinc, h⟩ := bind_ok h
    cases h
    obtain ⟨-, liquidity', rem, hliq', hjoin, hsub⟩ := Balancer.calcJoinPoolNoSwapShares_spec hcalc
    cases hliq.symm.trans hliq'
    obtain ⟨rfl, hn⟩ := maximalExactRatioJoin_exact hneeded hR hS hjoin
    obtain ⟨hmoved, -⟩ := Balancer.increaseLiquidity_ok hp (coinsSub_le hsub).2 hinc
    rw [hnet hsub] at hmoved
    exact ⟨hmoved, hn⟩
  | stableswap p =>
    obtain ⟨⟨n', q⟩, hq, heq⟩ := map_ok h
    cases heq
    obtain ⟨⟨_, joined⟩, hcalc, h⟩ := bind_ok hq
    obtain ⟨_, hupd, h⟩ := bind_ok h
    cases h
    obtain ⟨-, rem, hjoin, hsub⟩ := Stableswap.calcJoinPoolNoSwapShares_spec hcalc
    cases hliq
    obtain ⟨rfl, hn⟩ := maximalExactRatioJoin_exact hneeded hR hS hjoin
    obtain ⟨hmoved, -⟩ := Stableswap.updatePoolForJoin_ok hp (coinsSub_le hsub).2 hupd
    rw [hnet hsub] at hmoved
    exact ⟨hmoved, hn⟩

/-- **What is charged is credited.**  For every pool and every wanted amount for which
`getMaximalNoSwapLPAmount` succeeds: `MaximalExactRatioJoin` fails on the coins only if every one of
them is at least `10 ^ 18` times what the pool has, or a product is too long for a decimal; when it
succeeds, nothing remains and the shares are at least the 18-digit ratio of all shares.  So a join
that the keeper makes takes from the joiner what it adds to the record of the pool. -/
theorem join_charges_what_it_credits (env : Env) :
    (∀ (p : Pool) (shareOutAmount : ℤ) (needed : Coins), p.Wf → 0 < p.view.totalShares.amount →
      getMaximalNoSwapLPAmount env p shareOutAmount = .ok needed →
      ∃ liquidity, p.getTotalPoolLiquidity = .ok liquidity
        ∧ ((∃ n rem, maximalExactRatioJoin env.math p.view.totalShares.amount liquidity needed
              = .ok (n, rem))
            ↔ (∃ c ∈ needed, c.amount < 10 ^ 18 * amountOfNoDenomValidation liquidity c.denom)
              ∧ Fits env.math p.view.totalShares.amount liquidity needed
                  (minShareRatio liquidity needed))
        ∧ ∀ n rem, maximalExactRatioJoin env.math p.view.totalShares.amount liquidity needed
            = .ok (n, rem) →
          rem = [] ∧ shareOutAmount * 10 ^ 18 / p.view.totalShares.amount
            * p.view.totalShares.amount / 10 ^ 18 ≤ n)
    ∧ ∀ (ctx : Ctx) (s s' : State) (user : Address) (poolId : ℕ) (shareOutAmount n : ℤ)
        (tokenInMaxs coins : Coins), Valid s →
      (∀ p, s.pools.lookup poolId = some p → 0 < p.view.totalShares.amount) →
      joinPoolNoSwap env ctx s user poolId shareOutAmount tokenInMaxs = .ok (coins, n, s') →
      ∃ p p', Loaded s poolId p ∧ Joined env user p' n coins s s'
        ∧ Moved (net coins) n p.view p'.view
        ∧ shareOutAmount * 10 ^ 18 / p.view.totalShares.amount
            * p.view.totalShares.amount / 10 ^ 18 ≤ n := by
  have hunit : ((unit : ℕ) : ℤ) = 10 ^ 18 := rfl
  -- a positive ratio was rounded down from a positive quotient
  have hratio : ∀ {a S : ℤ}, 0 < S → 0 < (a * (unit : ℤ)).tdiv S →
      (a * (unit : ℤ)).tdiv S = a * 10 ^ 18 / S := by
    intro a S hS hpos
    have hnum : 0 ≤ a * (unit : ℤ) := by
      by_contra hneg
      have := Int.tdiv_nonneg (a := -(a * (unit : ℤ))) (by omega) hS.le
      rw [Int.neg_tdiv] at this
      omega
    rw [Int.tdiv_eq_ediv_of_nonneg hnum, hunit]
  constructor
  · intro p a needed hp hS hneeded
    obtain ⟨liquidity, hliq, hpos, hcoins⟩ := getMaximalNoSwapLPAmount_ok hp hneeded
    refine ⟨liquidity, hliq, maximalExactRatioJoin_succeeds_iff _ _ hcoins hpos.le, ?_⟩
    intro n rem hjoin
    rw [← hratio hS hpos, ← hunit]
    exact maximalExactRatioJoin_exact hcoins hpos.le hS.le hjoin
  · intro ctx s s' user poolId a n maxs coins hv hshares h
    obtain ⟨p, needed, _, hp, hneeded, -, h⟩ := bind3_ok h
    obtain ⟨⟨sharesOut, p'⟩, hjoin, h⟩ := bind_ok h
    obtain ⟨s₁, happly, h⟩ := bind_ok h
    cases h
    have hl := hv.getPoolAndPoke_ok hp
    have hS : 0 < p.view.totalShares.amount := by
      obtain ⟨q, hq, hview⟩ := hl.stored
      rw [← hview]
      exact hshares q hq
    obtain ⟨liquidity, hliq, hpos, hcoins⟩ := getMaximalNoSwapLPAmount_ok hl.wf hneeded
    obtain ⟨hmoved, hn⟩ := Pool.joinPoolNoSwap_exact hl.wf hS.le hpos.le hliq hcoins hjoin
    refine ⟨p, p', hl, applyJoinPoolStateChange_ok happly, hmoved, ?_⟩
    rw [← hratio hS hpos, ← hunit]
    exact hn

end Keeper

/-! ### Concrete joins -/

section Examples

open Pool (evenPool evenPool_wf)

/-- A chain with the even pool and one holder of its assets. -/
def joinState : State :=
  { chainState [(.account (ascii "dex1alice"), ⟨ascii "bar", 500⟩),
      (.account (ascii "dex1alice"), ⟨ascii "foo", 500⟩)] with
    pools := PoolStore.empty.set evenPool
    nextPoolId := 2 }

lemma joinState_lookup {id : ℕ} {p : Pool} (h : joinState.pools.lookup id = some p) :
    id = 1 ∧ p = evenPool := by
  by_cases hid : id = 1
  · subst hid
    have hself : joinState.pools.lookup 1 = some evenPool := PoolStore.lookup_set_self _ evenPool
    exact ⟨rfl, Option.some.inj (h.symm.trans hself)⟩
  · have hnone : joinState.pools.lookup id = PoolStore.empty.lookup id :=
      PoolStore.lookup_set_of_ne hid
    rw [hnone] at h
    cases h

lemma joinState_valid : Valid joinState where
  wf id p h := by
    obtain ⟨-, rfl⟩ := joinState_lookup h
    exact evenPool_wf
  lt id p h := by
    obtain ⟨rfl, -⟩ := joinState_lookup h
    decide

/-- A hundredth of the shares costs a hundredth of the pool, and all of it is recorded. -/
theorem join_charges_what_it_credits_even :
    (∃ liquidity, evenPool.getTotalPoolLiquidity = .ok liquidity
      ∧ ∀ n rem, maximalExactRatioJoin chainEnv.math initPoolSharesSupply liquidity
          [⟨ascii "bar", 10⟩, ⟨ascii "foo", 10⟩] = .ok (n, rem) → rem = [] ∧ 10 ^ 18 ≤ n)
    ∧ ∃ coins n s', joinPoolNoSwap chainEnv (chainCtx fun _ _ => Dec.zero) joinState
          (.account (ascii "dex1alice")) 1 (10 ^ 18) [] = .ok (coins, n, s')
      ∧ ∃ p p' : Pool, Loaded joinState 1 p ∧ Moved (net coins) n p.view p'.view := by
  obtain ⟨hpool, hkeeper⟩ := join_charges_what_it_credits chainEnv
  have hneeded : getMaximalNoSwapLPAmount chainEnv evenPool (10 ^ 18)
      = .ok [⟨ascii "bar", 10⟩, ⟨ascii "foo", 10⟩] := by
    decide +kernel
  constructor
  · obtain ⟨liquidity, hliq, -, hexact⟩ := hpool evenPool (10 ^ 18) _ evenPool_wf (by decide) hneeded
    exact ⟨liquidity, hliq, fun n rem hjoin => hexact n rem hjoin⟩
  · obtain ⟨⟨coins, n, s'⟩, hjoin, -⟩ := ok_of_toOption
      (show (joinPoolNoSwap chainEnv (chainCtx fun _ _ => Dec.zero) joinState
        (.account (ascii "dex1alice")) 1 (10 ^ 18) []).toOption.map (·.1)
          = some [⟨ascii "bar", 10⟩, ⟨ascii "foo", 10⟩] by decide +kernel)
    have hshares : ∀ p, joinState.pools.lookup 1 = some p → 0 < p.view.totalShares.amount := by
      intro p hp
      obtain ⟨-, rfl⟩ := joinState_lookup hp
      decide
    obtain ⟨p, p', hl, -, hmoved, -⟩ := hkeeper _ joinState s' _ 1 (10 ^ 18) n [] coins
      joinState_valid hshares hjoin
    exact ⟨coins, n, s', hjoin, p, p', hl, hmoved⟩

/-- Wanting `10 ^ 18` times all shares: the coins are computed, and the pool refuses them. -/
theorem join_refused :
    ∃ needed liquidity, getMaximalNoSwapLPAmount chainEnv evenPool (10 ^ 38) = .ok needed
      ∧ evenPool.getTotalPoolLiquidity = .ok liquidity
      ∧ needed = [⟨ascii "bar", 10 ^ 21⟩, ⟨ascii "foo", 10 ^ 21⟩]
      ∧ maximalExactRatioJoin chainEnv.math evenPool.view.totalShares.amount liquidity needed
        = .error (.err "unexpected error in MaximalExactRatioJoin") := by
  refine ⟨_, [⟨ascii "bar", 1000⟩, ⟨ascii "foo", 1000⟩], ?_, ?_, rfl, ?_⟩ <;> decide +kernel

end Examples

end MaanyDex.Gamm
