/-
Joins and exits in proportion do not dilute.

Every rounding of `cfmm_common/lp.go` is against the user.  A join prices its shares by the
smallest ratio `r` of what is supplied to what the pool has: it issues at most `r * S`
shares (`truncateInt`), and takes at least `r * L` of every asset (`ceil`, or all that was
supplied).  An exit of `n` shares pays at most `n * L / S` of every asset.  So

    n * L ≤ joined * S      and      exited * S ≤ n * L

for every asset, and both say that a share is backed by at least as much as before.
-/
import MaanyDex.Gamm.KeeperEffects
import MaanyDex.Gamm.Messages

namespace MaanyDex.Gamm

open List Run Dec

open Dec (unit)

variable {math : Math} {env : Env}

/-! ### Backing of a share -/

/-- A share is backed by at least as much after as before: `L / S ≤ L' / S'`. -/
def BackedAtLeast (L S L' S' : ℤ) : Prop := L * S' ≤ L' * S

variable {L S u n : ℤ}

lemma BackedAtLeast.of_join (h : n * L ≤ u * S) : BackedAtLeast L S (L + u) (S + n) := by
  show L * (S + n) ≤ (L + u) * S
  linarith

variable {x : ℤ}

lemma BackedAtLeast.of_exit (h : x * S ≤ n * L) : BackedAtLeast L S (L + -x) (S + -n) := by
  show L * (S + -n) ≤ (L + -x) * S
  linarith

lemma exit_le_of_join (hpos : 0 < S + n) (hjoin : n * L ≤ u * S)
    (hexit : x * (S + n) ≤ n * (L + u)) : x ≤ u := by
  refine le_of_mul_le_mul_right ?_ hpos
  calc x * (S + n) ≤ n * L + u * n := by linarith
    _ ≤ u * (S + n) := by linarith

/-! ### Exits -/

variable {exitFee : Dec}

lemma refundedShares_ok {refunded : Dec} (hn : 0 ≤ n) (hfee : 0 ≤ exitFee.raw)
    (hlt : exitFee.raw < unit) (h : refundedShares math n exitFee = .ok refunded) :
    0 ≤ refunded.raw ∧ refunded.raw ≤ n * unit := by
  have hunit := unit_pos_int.le
  unfold refundedShares at h
  split at h
  · cases h
    exact ⟨mul_nonneg hn hunit, le_rfl⟩
  · obtain ⟨part, hpart, h⟩ := bind_ok h
    have hpart' : part.raw = unit - exitFee.raw := sub_ok hpart
    rw [mulInt_ok h, hpart']
    constructor
    · exact mul_nonneg (by linarith) hn
    · rw [mul_comm n]
      exact mul_le_mul_of_nonneg_right (by linarith) hn

lemma exitedCoins_le {ratio : Dec} {liquidity coins : Coins} (hratio : 0 ≤ ratio.raw)
    (hpos : ∀ c ∈ liquidity, 0 < c.amount) (h : exitedCoins math ratio liquidity = .ok coins)
    (d : Denom) : net coins d * unit ≤ ratio.raw * net liquidity d := by
  induction liquidity generalizing coins with
  | nil =>
    cases h
    simp
  | cons asset rest ih =>
    have hasset := hpos asset (by simp)
    have hrest : ∀ c ∈ rest, 0 < c.amount := fun c hc => hpos c (by simp [hc])
    obtain ⟨share, exitAmt, hshare, hexit, h⟩ := bind2_ok h
    have hnonneg : 0 ≤ ratio.raw * asset.amount := mul_nonneg hratio hasset.le
    -- the share of this asset is rounded down
    have hdown : exitAmt * unit ≤ ratio.raw * asset.amount := by
      rw [truncateInt_ok hexit, mulInt_ok hshare, mul_comm]
      exact Int.mul_tdiv_self_le hnonneg
    rw [net_cons, mul_add]
    split at h
    · -- a skipped asset
      refine (ih hrest h).trans (le_add_of_nonneg_left ?_)
      split
      · exact hnonneg
      · rw [mul_zero]
    · obtain ⟨_, coins', -, hcoins', h⟩ := bind2_ok h
      cases h
      rw [net_cons, add_mul]
      refine add_le_add ?_ (ih hrest hcoins')
      show (if asset.denom = d then exitAmt else 0) * (unit : ℤ) ≤ _
      split
      · exact hdown
      · rw [zero_mul, mul_zero]

/-- **An exit pays at most its share of every asset.** -/
lemma calcExitPool_le {liquidity coins : Coins} (hn : 0 ≤ n)
    (hfee : 0 ≤ exitFee.raw) (hlt : exitFee.raw < unit) (hpos : ∀ c ∈ liquidity, 0 < c.amount)
    (h : calcExitPool math S liquidity n exitFee = .ok coins) :
    n < S ∧ ∀ d, net coins d * S ≤ n * net liquidity d := by
  obtain ⟨_, refunded, ratio, hnS, hrefunded, hratio, h⟩ := bind3_ok h
  have hnS' : n < S := of_decide_eq_true (ensure_ok hnS)
  have hS : 0 < S := hn.trans_lt hnS'
  obtain ⟨hrefunded0, hrefunded1⟩ := refundedShares_ok hn hfee hlt hrefunded
  obtain ⟨-, hratio'⟩ := quoInt_ok hratio
  have hratio0 : 0 ≤ ratio.raw := by
    rw [hratio']
    exact Int.tdiv_nonneg hrefunded0 hS.le
  have hratio1 : ratio.raw * S ≤ n * unit := by
    refine le_trans ?_ hrefunded1
    rw [hratio', mul_comm]
    exact Int.mul_tdiv_self_le hrefunded0
  refine ⟨hnS', fun d => ?_⟩
  have hliq : 0 ≤ net liquidity d := net_nonneg (fun c hc => (hpos c hc).le) d
  have hunit := unit_pos_int
  refine le_of_mul_le_mul_right ?_ hunit
  calc net coins d * S * unit = net coins d * unit * S := by ring
    _ ≤ ratio.raw * net liquidity d * S :=
        mul_le_mul_of_nonneg_right (exitedCoins_le hratio0 hpos h d) hS.le
    _ = ratio.raw * S * net liquidity d := by ring
    _ ≤ n * unit * net liquidity d := mul_le_mul_of_nonneg_right hratio1 hliq
    _ = n * net liquidity d * unit := by ring

/-! ### Joins -/

lemma foldl_min_le (rs : List Dec) (m : Dec) :
    (rs.foldl (fun m r => if r < m then r else m) m).raw ≤ m.raw
      ∧ ∀ r ∈ rs, (rs.foldl (fun m r => if r < m then r else m) m).raw ≤ r.raw := by
  induction rs generalizing m with
  | nil => exact ⟨le_rfl, by simp⟩
  | cons r rs ih =>
    obtain ⟨hm, hrs⟩ := ih (if r < m then r else m)
    rw [foldl_cons]
    have hboth : (if r < m then r else m).raw ≤ m.raw ∧ (if r < m then r else m).raw ≤ r.raw := by
      split
      · rename_i hlt
        exact ⟨(lt_def.mp hlt).le, le_rfl⟩
      · rename_i hge
        exact ⟨le_rfl, not_lt.mp hge⟩
    refine ⟨hm.trans hboth.1, fun r' hr' => ?_⟩
    rcases mem_cons.mp hr' with rfl | hr'
    · exact hm.trans hboth.2
    · exact hrs r' hr'

lemma foldl_min_nonneg {rs : List Dec} {m : Dec} (hm : 0 ≤ m.raw) (hrs : ∀ r ∈ rs, 0 ≤ r.raw) :
    0 ≤ (rs.foldl (fun m r => if r < m then r else m) m).raw := by
  induction rs generalizing m with
  | nil => exact hm
  | cons r rs ih =>
    rw [foldl_cons]
    refine ih ?_ fun r' hr' => hrs r' (by simp [hr'])
    split
    · exact hrs r (by simp)
    · exact hm

variable {liquidity : Coins} {ratio : Dec}

variable {rem rem' : Coins}

/-- A coin leaves a remainder of its own denomination only, and what is used of it covers
the ratio. -/
lemma addRemainder_ok {c : Coin} {r : Dec}
    (hcover : ratio.raw * amountOfNoDenomValidation liquidity c.denom ≤ c.amount * unit)
    (h : addRemainder math liquidity ratio rem (c, r) = .ok rem') :
    ∃ k, (∀ d, net rem' d = net rem d + if c.denom = d then k else 0)
      ∧ ratio.raw * amountOfNoDenomValidation liquidity c.denom ≤ (c.amount - k) * unit := by
  have hunit : 0 < unit := unit_pos
  unfold addRemainder at h
  split at h
  · cases h
    exact ⟨0, by simp, by simpa using hcover⟩
  · obtain ⟨used, usedAmount, newAmt, hused, hamount, hnew, h⟩ := bind3_ok h
    -- what is used is rounded up
    have hup : ratio.raw * amountOfNoDenomValidation liquidity c.denom ≤ usedAmount * unit := by
      have hceil : usedAmount = FixedPoint.ceil unit used.raw := by
        rw [truncateInt_ok hamount]
        exact Int.mul_tdiv_cancel _ (by exact_mod_cast hunit.ne')
      rw [hceil, ← mulInt_ok hused]
      exact (FixedPoint.ceil_le_iff hunit).mp le_rfl
    have hnew' : newAmt = c.amount - usedAmount := checkedInt_ok hnew
    refine ⟨newAmt, fun d => ?_, ?_⟩
    · split at h
      · rename_i hzero
        cases h
        simp [hzero]
      · obtain ⟨hnet, -⟩ := coinsAdd_ok h
        rw [hnet]
        simp
    · rw [hnew', sub_sub_cancel]
      exact hup

lemma foldlM_addRemainder_ok {entries : List (Coin × Dec)}
    (hnodup : (entries.map (·.1.denom)).Nodup)
    (hcover : ∀ e ∈ entries,
      ratio.raw * amountOfNoDenomValidation liquidity e.1.denom ≤ e.1.amount * unit)
    (h : entries.foldlM (addRemainder math liquidity ratio) rem = .ok rem') :
    (∀ d, d ∉ entries.map (·.1.denom) → net rem' d = net rem d)
      ∧ ∀ e ∈ entries, ratio.raw * amountOfNoDenomValidation liquidity e.1.denom
          ≤ (e.1.amount - (net rem' e.1.denom - net rem e.1.denom)) * unit := by
  induction entries generalizing rem with
  | nil =>
    cases h
    simp
  | cons e entries ih =>
    obtain ⟨c, r⟩ := e
    rw [foldlM_cons] at h
    obtain ⟨rem₁, hrem₁, h⟩ := bind_ok h
    obtain ⟨hfresh, hnodup'⟩ := nodup_cons.mp hnodup
    have hc := hcover (c, r) (by simp)
    obtain ⟨k, hk, hused⟩ := addRemainder_ok hc hrem₁
    obtain ⟨hother, hrest⟩ := ih hnodup' (fun e he => hcover e (by simp [he])) h
    constructor
    · intro d hd
      rw [map_cons, mem_cons, not_or] at hd
      rw [hother d hd.2, hk, if_neg (fun heq => hd.1 heq.symm), add_zero]
    · intro e he
      rcases mem_cons.mp he with rfl | he
      · rw [hother c.denom hfresh, hk, if_pos rfl, add_sub_cancel_left]
        exact hused
      · -- the coins that follow have other denominations
        have hne : c.denom ≠ e.1.denom := by
          intro heq
          exact hfresh (mem_map.mpr ⟨e, he, heq.symm⟩)
        have hsame : net rem₁ e.1.denom = net rem e.1.denom := by
          rw [hk, if_neg hne, add_zero]
        rw [← hsame]
        exact hrest e he

variable {tokensIn : Coins}

/-- **The shares of a join are at most the ratio of all shares, and what is used of every
coin is at least the ratio of what the pool has.** -/
lemma maximalExactRatioJoin_ok (hS : 0 ≤ S)
    (hliq : ∀ d, 0 ≤ amountOfNoDenomValidation liquidity d)
    (hnodup : (tokensIn.map (·.denom)).Nodup) (hin : ∀ c ∈ tokensIn, 0 ≤ c.amount)
    (h : maximalExactRatioJoin math S liquidity tokensIn = .ok (n, rem)) :
    0 ≤ n ∧ ∃ ratio : ℤ, n * unit ≤ ratio * S
      ∧ ∀ c ∈ tokensIn, ratio * amountOfNoDenomValidation liquidity c.denom
          ≤ (c.amount - net rem c.denom) * unit := by
  obtain ⟨ratios, _, hratios, -, h⟩ := bind2_ok h
  obtain ⟨shares, n', hshares, hn', h⟩ := bind2_ok h
  have hunit := unit_pos_int.le
  obtain ⟨hlength, hzip⟩ := forall₂_iff_zip.mp (mapM_ok hratios)
  -- each ratio is rounded down
  have hratio : ∀ e ∈ tokensIn.zip ratios, 0 ≤ e.2.raw
      ∧ e.2.raw * amountOfNoDenomValidation liquidity e.1.denom ≤ e.1.amount * unit := by
    rintro ⟨c, r⟩ he
    obtain ⟨-, hr⟩ := quoInt_ok (hzip he)
    have hnum : 0 ≤ c.amount * (unit : ℤ) := mul_nonneg (hin c (of_mem_zip he).1) hunit
    have hr' : r.raw = (c.amount * (unit : ℤ)).tdiv (amountOfNoDenomValidation liquidity c.denom) :=
      hr
    show 0 ≤ r.raw ∧ r.raw * _ ≤ _
    rw [hr']
    refine ⟨Int.tdiv_nonneg hnum (hliq _), ?_⟩
    rw [mul_comm]
    exact Int.mul_tdiv_self_le hnum
  have hmem : ∀ r ∈ ratios, ∃ c, (c, r) ∈ tokensIn.zip ratios := by
    intro r hr
    have hsnd : r ∈ (tokensIn.zip ratios).map Prod.snd := by
      rwa [map_snd_zip hlength.ge]
    obtain ⟨⟨c, r'⟩, he, rfl⟩ := mem_map.mp hsnd
    exact ⟨c, he⟩
  generalize hmin : ratios.foldl (fun m r => if r < m then r else m) maxSortableDec = ratio at *
  have hle : ∀ r ∈ ratios, ratio.raw ≤ r.raw := hmin ▸ (foldl_min_le ratios maxSortableDec).2
  have hnonneg : 0 ≤ ratio.raw := by
    rw [← hmin]
    refine foldl_min_nonneg (by decide) fun r hr => ?_
    obtain ⟨c, hc⟩ := hmem r hr
    exact (hratio _ hc).1
  have hcover : ∀ e ∈ tokensIn.zip ratios,
      ratio.raw * amountOfNoDenomValidation liquidity e.1.denom ≤ e.1.amount * unit := by
    intro e he
    refine le_trans ?_ (hratio e he).2
    exact mul_le_mul_of_nonneg_right (hle e.2 (of_mem_zip he).2) (hliq _)
  have hshares' : 0 ≤ n' ∧ n' * unit ≤ ratio.raw * S := by
    have hprod : 0 ≤ ratio.raw * S := mul_nonneg hnonneg hS
    rw [truncateInt_ok hn', mulInt_ok hshares]
    refine ⟨Int.tdiv_nonneg hprod hunit, ?_⟩
    rw [mul_comm]
    exact Int.mul_tdiv_self_le hprod
  have hcoin : ∀ c ∈ tokensIn, ∃ r, (c, r) ∈ tokensIn.zip ratios := by
    intro c hc
    have hfst : c ∈ (tokensIn.zip ratios).map Prod.fst := by
      rwa [map_fst_zip hlength.le]
    obtain ⟨⟨c', r⟩, he, rfl⟩ := mem_map.mp hfst
    exact ⟨r, he⟩
  split at h
  · -- nothing remains
    cases h
    refine ⟨hshares'.1, ratio.raw, hshares'.2, fun c hc => ?_⟩
    obtain ⟨r, hr⟩ := hcoin c hc
    rw [net_nil, sub_zero]
    exact hcover _ hr
  · obtain ⟨rem', hrem, h⟩ := bind_ok h
    cases h
    have hnodup' : ((tokensIn.zip ratios).map (·.1.denom)).Nodup := by
      have hmap : (tokensIn.zip ratios).map (·.1.denom) = tokensIn.map (·.denom) := by
        have hfst : (tokensIn.zip ratios).map Prod.fst = tokensIn := map_fst_zip hlength.le
        rw [← hfst, map_map, hfst]
        rfl
      rwa [hmap]
    obtain ⟨-, hused⟩ := foldlM_addRemainder_ok hnodup' hcover hrem
    refine ⟨hshares'.1, ratio.raw, hshares'.2, fun c hc => ?_⟩
    obtain ⟨r, hr⟩ := hcoin c hc
    have := hused _ hr
    rwa [net_nil, sub_zero] at this

variable {joined : Coins}

lemma ratioJoin_ok {sdk : Sdk} (hS : 0 ≤ S) (hliq : (liquidity.map (·.denom)).Nodup)
    (hpos : ∀ c ∈ liquidity, 0 < c.amount) (hnodup : (tokensIn.map (·.denom)).Nodup)
    (hcovers : ∀ d, net liquidity d ≠ 0 → d ∈ tokensIn.map (·.denom))
    (hjoin : maximalExactRatioJoin math S liquidity tokensIn = .ok (n, rem))
    (hsub : coinsSub sdk tokensIn rem = .ok joined) :
    0 ≤ n ∧ ∀ d, n * net liquidity d ≤ net joined d * S := by
  obtain ⟨hnet, -, hjoined, hrem⟩ := coinsSub_ok hsub
  have hamount : ∀ d, amountOfNoDenomValidation liquidity d = net liquidity d :=
    fun d => amountOf_eq_net hliq
  have hnonneg : ∀ d, 0 ≤ net liquidity d := net_nonneg fun c hc => (hpos c hc).le
  have hjoined' : ∀ d, 0 ≤ net joined d := net_nonneg fun c hc => (hjoined c hc).le
  have hin : ∀ c ∈ tokensIn, 0 ≤ c.amount := by
    intro c hc
    rw [← net_eq_of_mem hnodup hc]
    have := hjoined' c.denom
    have := hrem c.denom
    rw [hnet] at *
    omega
  obtain ⟨hn, ratio, hshares, hused⟩ := maximalExactRatioJoin_ok hS
    (fun d => hamount d ▸ hnonneg d) hnodup hin hjoin
  refine ⟨hn, fun d => ?_⟩
  by_cases hd : net liquidity d = 0
  · rw [hd, mul_zero]
    exact mul_nonneg (hjoined' d) hS
  · obtain ⟨c, hc, rfl⟩ := mem_map.mp (hcovers d hd)
    have hcoin := hused c hc
    rw [hamount, ← net_eq_of_mem hnodup hc, ← hnet] at hcoin
    have hunit := unit_pos_int
    refine le_of_mul_le_mul_right ?_ hunit
    calc n * net liquidity c.denom * unit = n * unit * net liquidity c.denom := by ring
      _ ≤ ratio * S * net liquidity c.denom := mul_le_mul_of_nonneg_right hshares (hnonneg _)
      _ = ratio * net liquidity c.denom * S := by ring
      _ ≤ net joined c.denom * unit * S := mul_le_mul_of_nonneg_right hcoin hS
      _ = net joined c.denom * S * unit := by ring

/-- A list as long as one without repetition that it contains does not repeat either. -/
lemma nodup_of_covers {ds ds' : List Denom} (hnodup : ds.Nodup) (hsub : ds ⊆ ds')
    (hlength : ds'.length = ds.length) : ds'.Nodup :=
  ((subperm_of_subset hnodup hsub).perm_of_length_le hlength.le).nodup_iff.mp hnodup

lemma Balancer.calcJoinPoolNoSwapShares_backs {p : Balancer.Pool} (hp : p.Wf)
    (hS : 0 ≤ p.totalShares.amount)
    (hall : (tokens p.poolAssets).map (·.denom) ⊆ tokensIn.map (·.denom))
    (h : calcJoinPoolNoSwapShares env p tokensIn = .ok (n, joined)) :
    0 ≤ n ∧ ∀ d, n * p.view.liquidity d ≤ net joined d * p.totalShares.amount := by
  obtain ⟨hlength, liquidity, rem, hliq, hjoin, hsub⟩ := calcJoinPoolNoSwapShares_spec h
  obtain ⟨hnet, hnodup, hpos⟩ := poolAssetsCoins_ok hp.amounts hliq
  have hin : (tokensIn.map (·.denom)).Nodup :=
    nodup_of_covers hp.nodup hall (by simp [tokens, hlength])
  have hcovers : ∀ d, net liquidity d ≠ 0 → d ∈ tokensIn.map (·.denom) := by
    intro d hd
    rw [hnet] at hd
    exact hall (not_imp_comm.mp net_eq_zero_of_notMem hd)
  obtain ⟨hn, hbacks⟩ := ratioJoin_ok hS hnodup hpos hin hcovers hjoin hsub
  refine ⟨hn, fun d => ?_⟩
  have := hbacks d
  rwa [hnet] at this

lemma Stableswap.calcJoinPoolNoSwapShares_backs {p : Stableswap.Pool} (hp : p.Wf)
    (hS : 0 ≤ p.totalShares.amount) (hall : p.poolLiquidity.map (·.denom) ⊆ tokensIn.map (·.denom))
    (h : calcJoinPoolNoSwapShares env p tokensIn = .ok (n, joined)) :
    0 ≤ n ∧ ∀ d, n * p.view.liquidity d ≤ net joined d * p.totalShares.amount := by
  obtain ⟨hlength, rem, hjoin, hsub⟩ := calcJoinPoolNoSwapShares_spec h
  have hin : (tokensIn.map (·.denom)).Nodup := nodup_of_covers hp.nodup hall (by simp [hlength])
  exact ratioJoin_ok hS hp.nodup hp.amounts hin
    (fun d hd => hall (not_imp_comm.mp net_eq_zero_of_notMem hd)) hjoin hsub

/-! ### Pools of either kind -/

namespace Pool

variable {p p' : Pool} {n : ℤ} {coins : Coins} {exitFee : Dec}

/-- The denominations of the assets. -/
def assetDenoms : Pool → List Denom
  | balancer p => (Balancer.tokens p.poolAssets).map (·.denom)
  | stableswap p => p.poolLiquidity.map (·.denom)

lemma joinPoolNoSwap_backs (hp : p.Wf) (hS : 0 ≤ p.view.totalShares.amount)
    (hall : p.assetDenoms ⊆ coins.map (·.denom)) (h : p.joinPoolNoSwap env coins = .ok (n, p')) :
    ∃ joined, (∀ d, joined d ≤ net coins d) ∧ Moved joined n p.view p'.view ∧ p'.Wf
      ∧ 0 ≤ n ∧ ∀ d, n * p.view.liquidity d ≤ joined d * p.view.totalShares.amount := by
  cases p with
  | balancer p =>
    obtain ⟨⟨n', q⟩, hq, heq⟩ := map_ok h
    cases heq
    obtain ⟨⟨_, joined⟩, hcalc, h⟩ := bind_ok hq
    obtain ⟨_, hinc, h⟩ := bind_ok h
    cases h
    obtain ⟨hle, hnonneg⟩ := Balancer.calcJoinPoolNoSwapShares_ok hcalc
    obtain ⟨hmoved, hwf⟩ := Balancer.increaseLiquidity_ok hp hnonneg hinc
    exact ⟨net joined, hle, hmoved, hwf, Balancer.calcJoinPoolNoSwapShares_backs hp hS hall hcalc⟩
  | stableswap p =>
    obtain ⟨⟨n', q⟩, hq, heq⟩ := map_ok h
    cases heq
    obtain ⟨⟨_, joined⟩, hcalc, h⟩ := bind_ok hq
    obtain ⟨_, hupd, h⟩ := bind_ok h
    cases h
    obtain ⟨hle, hnonneg⟩ := Stableswap.calcJoinPoolNoSwapShares_ok hcalc
    obtain ⟨hmoved, hwf⟩ := Stableswap.updatePoolForJoin_ok hp hnonneg hupd
    exact ⟨net joined, hle, hmoved, hwf, Stableswap.calcJoinPoolNoSwapShares_backs hp hS hall hcalc⟩

lemma exitPool_le (hp : p.Wf) (hn : 0 ≤ n) (hfee : 0 ≤ exitFee.raw)
    (hlt : exitFee.raw < unit) (h : p.exitPool env n exitFee = .ok (coins, p')) :
    n < p.view.totalShares.amount
      ∧ ∀ d, net coins d * p.view.totalShares.amount ≤ n * p.view.liquidity d := by
  cases p with
  | balancer p =>
    obtain ⟨⟨_, q⟩, hq, heq⟩ := map_ok h
    cases heq
    obtain ⟨liquidity, _, _, hliq, hcalc, -, h⟩ := bind3_ok hq
    cases h
    obtain ⟨hnet, -, hpos⟩ := Balancer.poolAssetsCoins_ok hp.amounts hliq
    obtain ⟨hnS, hle⟩ := calcExitPool_le hn hfee hlt hpos hcalc
    refine ⟨hnS, fun d => ?_⟩
    have := hle d
    rwa [hnet] at this
  | stableswap p =>
    obtain ⟨⟨_, q⟩, hq, heq⟩ := map_ok h
    cases heq
    obtain ⟨_, _, _, hcalc, -, -, h⟩ := bind3_ok hq
    obtain ⟨_, _, -, -, h⟩ := bind2_ok h
    cases h
    exact calcExitPool_le hn hfee hlt hp.amounts hcalc

/-- **Joins with all assets and exits do not dilute.**  A join takes no more than was
supplied, neither lowers what backs a share, and leaving with the shares of a join returns
no more than the join took. -/
theorem no_dilution (hp : p.Wf) (hS : 0 ≤ p.view.totalShares.amount) :
    (∀ tokensIn n p', p.assetDenoms ⊆ tokensIn.map (·.denom) →
      p.joinPoolNoSwap env tokensIn = .ok (n, p') →
        (∀ d, BackedAtLeast (p.view.liquidity d) p.view.totalShares.amount
          (p'.view.liquidity d) p'.view.totalShares.amount)
        ∧ (∀ d, p'.view.liquidity d - p.view.liquidity d ≤ net tokensIn d)
        ∧ ∀ (exitFee : Dec) coins p'', 0 ≤ exitFee.raw → exitFee.raw < unit →
            p'.exitPool env n exitFee = .ok (coins, p'') →
            ∀ d, net coins d ≤ p'.view.liquidity d - p.view.liquidity d)
    ∧ ∀ n (exitFee : Dec) coins p', 0 ≤ n → n < p.view.totalShares.amount →
        0 ≤ exitFee.raw → exitFee.raw < unit →
        p.exitPool env n exitFee = .ok (coins, p') →
        ∀ d, BackedAtLeast (p.view.liquidity d) p.view.totalShares.amount
          (p'.view.liquidity d) p'.view.totalShares.amount := by
  constructor
  · intro tokensIn n p' hall hjoin
    obtain ⟨joined, hle, hmoved, hwf, hn, hbacks⟩ := joinPoolNoSwap_backs hp hS hall hjoin
    have hshares : p'.view.totalShares.amount = p.view.totalShares.amount + n := by
      rw [hmoved.totalShares]
    refine ⟨fun d => ?_, fun d => ?_, fun exitFee coins p'' hfee hlt hexit d => ?_⟩
    · rw [hshares, hmoved.liquidity]
      exact BackedAtLeast.of_join (hbacks d)
    · rw [hmoved.liquidity, add_sub_cancel_left]
      exact hle d
    · obtain ⟨hnS, hpaid⟩ := exitPool_le hwf hn hfee hlt hexit
      have hpaid' := hpaid d
      rw [hshares, hmoved.liquidity] at hpaid'
      rw [hmoved.liquidity, add_sub_cancel_left]
      refine exit_le_of_join ?_ (hbacks d) hpaid'
      rw [← hshares]
      exact hn.trans_lt hnS
  · intro n exitFee coins p' hn _ hfee hlt hexit d
    obtain ⟨-, hpaid⟩ := exitPool_le hp hn hfee hlt hexit
    obtain ⟨hmoved, -⟩ := exitPool_ok hp hexit
    rw [hmoved.totalShares, hmoved.liquidity]
    exact BackedAtLeast.of_exit (hpaid d)

/-- A pool of a thousand `bar` and a thousand `foo`. -/
def evenPool : Pool := .balancer (Balancer.evenReserves 1000)

lemma evenPool_wf : evenPool.Wf where
  nodup := by decide
  amounts := by decide
  weights := by decide
  totalWeight := by decide
  swapFee_nonneg := by decide
  swapFee_lt := by decide

/-- Seven `foo` and ten `bar` join with seven of each; leaving with the shares returns no
more than seven `bar`.  Leaving with a tenth of the shares does not dilute the rest. -/
theorem no_dilution_evenPool :
    (∃ n p', evenPool.joinPoolNoSwap chainEnv [⟨ascii "bar", 10⟩, ⟨ascii "foo", 7⟩] = .ok (n, p')
      ∧ BackedAtLeast 1000 initPoolSharesSupply (p'.view.liquidity (ascii "bar"))
          p'.view.totalShares.amount
      ∧ ∃ coins p'', p'.exitPool chainEnv n ⟨10 ^ 16⟩ = .ok (coins, p'')
        ∧ net coins (ascii "bar") ≤ p'.view.liquidity (ascii "bar") - 1000)
    ∧ ∃ coins p', evenPool.exitPool chainEnv (10 * oneShare) ⟨10 ^ 16⟩ = .ok (coins, p')
      ∧ BackedAtLeast 1000 initPoolSharesSupply (p'.view.liquidity (ascii "bar"))
          p'.view.totalShares.amount := by
  obtain ⟨hjoins, hexits⟩ := @no_dilution chainEnv evenPool evenPool_wf (by decide)
  constructor
  · obtain ⟨⟨n, p'⟩, hjoin, hcoins⟩ := ok_of_toOption
      (show (evenPool.joinPoolNoSwap chainEnv [⟨ascii "bar", 10⟩, ⟨ascii "foo", 7⟩]).toOption.map
        (fun r => (r.2.exitPool chainEnv r.1 ⟨10 ^ 16⟩).toOption.isSome) = some true by
          decide +kernel)
    obtain ⟨hbacked, -, hreturns⟩ := hjoins _ n p' (by decide) hjoin
    rcases hexit : p'.exitPool chainEnv n ⟨10 ^ 16⟩ with e | ⟨coins, p''⟩
    · rw [hexit] at hcoins
      cases hcoins
    · refine ⟨n, p', hjoin, hbacked _, coins, p'', hexit, ?_⟩
      exact hreturns ⟨10 ^ 16⟩ coins p'' (by decide) (by decide) hexit _
  · obtain ⟨⟨coins, p'⟩, hexit, -⟩ := ok_of_toOption
      (show (evenPool.exitPool chainEnv (10 * oneShare) ⟨10 ^ 16⟩).toOption.map
        (fun _ => true) = some true by decide +kernel)
    refine ⟨coins, p', hexit, ?_⟩
    exact hexits _ ⟨10 ^ 16⟩ coins p' (by decide) (by decide) (by decide) (by decide) hexit _

end Pool

end MaanyDex.Gamm
