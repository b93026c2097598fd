/-
Arithmetic of coin sets: `sdk.Coins`.

Sums collect the amounts of each denomination and drop those that come out as zero;
differences panic when an amount would become negative, and otherwise drop the
denominations that reach zero as well.  The account of a coin set is `net`, the signed
amount of each denomination.  Sums and differences are exact in it (`coinsAdd_ok`,
`coinsSub_ok`), whatever was dropped, sorted or merged on the way.
-/
import MaanyDex.Sdk.Dec

namespace MaanyDex

open List

/-! ### The account of a coin set -/

/-- The signed amount of `d` in a list of coins. -/
def net (cs : Coins) (d : Denom) : ℤ :=
  (cs.map fun c => if c.denom = d then c.amount else 0).sum

@[simp] lemma net_nil (d : Denom) : net [] d = 0 := rfl

@[simp] lemma net_cons (c : Coin) (cs : Coins) (d : Denom) :
    net (c :: cs) d = (if c.denom = d then c.amount else 0) + net cs d := by
  simp [net]

lemma net_append (cs cs' : Coins) (d : Denom) : net (cs ++ cs') d = net cs d + net cs' d := by
  simp [net]

variable {cs : Coins}

lemma net_perm {cs' : Coins} (h : cs.Perm cs') (d : Denom) : net cs d = net cs' d :=
  (h.map _).sum_eq

lemma net_eq_zero_of_notMem {d : Denom} (h : d ∉ cs.map (·.denom)) : net cs d = 0 := by
  induction cs with
  | nil => rfl
  | cons c cs ih =>
    rw [map_cons, mem_cons, not_or] at h
    rw [net_cons, if_neg (Ne.symm h.1), ih h.2]
    rfl

lemma net_nonneg (h : ∀ c ∈ cs, 0 ≤ c.amount) (d : Denom) : 0 ≤ net cs d := by
  induction cs with
  | nil => exact le_rfl
  | cons c cs ih =>
    have hc := h c (by simp)
    have hcs := ih fun c' hc' => h c' (by simp [hc'])
    rw [net_cons]
    split <;> omega

lemma net_eq_total (h : ∀ c ∈ cs, 0 ≤ c.amount) (d : Denom) : net cs d = total cs d := by
  induction cs with
  | nil => rfl
  | cons c cs ih =>
    have hc := h c (by simp)
    rw [net_cons, total_cons, ih fun c' hc' => h c' (by simp [hc'])]
    split
    · push_cast
      omega
    · simp

lemma net_eq_of_mem (hnodup : (cs.map (·.denom)).Nodup) {c : Coin} (h : c ∈ cs) :
    net cs c.denom = c.amount := by
  induction cs with
  | nil => cases h
  | cons c' cs ih =>
    rw [map_cons, nodup_cons] at hnodup
    rcases mem_cons.mp h with rfl | h
    · rw [net_cons, if_pos rfl, net_eq_zero_of_notMem hnodup.1, add_zero]
    · have hne : c'.denom ≠ c.denom := by
        intro e
        exact hnodup.1 (e ▸ mem_map_of_mem h)
      rw [net_cons, if_neg hne, zero_add, ih hnodup.2 h]

variable (sdk : Sdk)

/-! ### Reading -/

variable (cs : Coins)

def amountOfNoDenomValidation (d : Denom) : ℤ :=
  match cs.find? fun c => c.denom = d with
  | some c => c.amount
  | none => 0

def amountOf (d : Denom) : Result ℤ := do
  ensure (sdk.validDenom d) (.panic "invalid denom")
  .ok (amountOfNoDenomValidation cs d)

variable (cs cs' : Coins)

def denomsSubsetOf : Result Bool :=
  if cs'.length < cs.length then .ok false
  else do
    let amounts ← cs.mapM fun c => amountOf sdk cs' c.denom
    .ok (amounts.all fun n => n ≠ 0)

/-- `Coins.IsAnyGT`: some amount is larger than a non-zero amount of the same
denomination. -/
def isAnyGT : Result Bool :=
  if cs'.isEmpty then .ok false
  else do
    let exceeds ← cs.mapM fun c => do
      let n ← amountOf sdk cs' c.denom
      .ok (decide (n < c.amount) && n ≠ 0)
    .ok (exceeds.any id)

def isAllGTE : Result Bool :=
  if cs'.isEmpty then .ok true
  else if cs.isEmpty then .ok false
  else do
    let covered ← cs'.mapM fun c => do
      let n ← amountOf sdk cs c.denom
      .ok (decide (c.amount ≤ n))
    .ok (covered.all id)

def sortCoins : Coins :=
  cs.insertionSort fun c c' => compare c.denom c'.denom ≠ .gt

def coinsEqual : Bool := sortCoins cs = sortCoins cs'

/-! ### Sums and differences -/

/-- `Coins.isSorted`, which allows repetition. -/
def isSorted : Coins → Bool
  | c :: c' :: cs => compare c.denom c'.denom ≠ .gt && isSorted (c' :: cs)
  | _ => true

/-- The amounts of `d`, added up one after another. -/
def sumOf (d : Denom) : Result ℤ :=
  checkedSum (·.amount) (cs.filter fun c => c.denom = d)

/-- The sums of the given denominations, without the zeros. -/
def coalesce (cs : Coins) : List Denom → Result Coins
  | [] => .ok []
  | d :: ds => do
      let n ← sumOf cs d
      let rest ← coalesce cs ds
      .ok (if n = 0 then rest else ⟨d, n⟩ :: rest)

def coinsAdd (cs cs' : Coins) : Result Coins := do
  ensure (isSorted cs) (.panic "Coins (self) must be sorted")
  ensure (isSorted cs') (.panic "Wrong argument: coins must be sorted")
  coalesce (cs ++ cs')
    (((cs ++ cs').map (·.denom)).dedup.insertionSort fun d d' => compare d d' ≠ .gt)

def negative : Coins := cs.map fun c => ⟨c.denom, -c.amount⟩

def coinsSub (cs cs' : Coins) : Result Coins := do
  let cs' ← newCoins sdk cs'
  let diff ← coinsAdd cs (negative cs')
  ensure (diff.all fun c => 0 ≤ c.amount) (.panic "negative coin amount")
  .ok diff

variable {sdk} {cs cs' cs'' : Coins} {c : Coin} {d : Denom} {n : ℤ}

lemma amountOf_ok (h : amountOf sdk cs d = .ok n) : n = amountOfNoDenomValidation cs d := by
  obtain ⟨_, -, h⟩ := Run.bind_ok h
  cases h
  rfl

lemma amountOf_eq_net (hnodup : (cs.map (·.denom)).Nodup) :
    amountOfNoDenomValidation cs d = net cs d := by
  unfold amountOfNoDenomValidation
  split
  · rename_i c hc
    have hd : c.denom = d := by simpa using List.find?_some hc
    rw [← hd, net_eq_of_mem hnodup (mem_of_find?_eq_some hc)]
  · rename_i hnone
    symm
    apply net_eq_zero_of_notMem
    intro hmem
    obtain ⟨c, hc, rfl⟩ := mem_map.mp hmem
    have := List.find?_eq_none.mp hnone c hc
    simp at this

lemma net_eq_sum_filter (cs : Coins) (d : Denom) :
    net cs d = ((cs.filter fun c => c.denom = d).map (·.amount)).sum := by
  induction cs with
  | nil => rfl
  | cons c cs ih =>
    by_cases hc : c.denom = d
    · rw [net_cons, if_pos hc, filter_cons_of_pos (by simp [hc]), map_cons, sum_cons, ih]
    · rw [net_cons, if_neg hc, filter_cons_of_neg (by simp [hc]), zero_add, ih]

lemma sumOf_ok (h : sumOf cs d = .ok n) : n = net cs d := by
  rw [checkedSum_ok h, net_eq_sum_filter]

lemma coalesce_ok {ds : List Denom} (hnodup : ds.Nodup) (h : coalesce cs ds = .ok cs') :
    (∀ d, net cs' d = if d ∈ ds then net cs d else 0) ∧ (cs'.map (·.denom)).Sublist ds
      ∧ ∀ c ∈ cs', c.amount ≠ 0 := by
  induction ds generalizing cs' with
  | nil =>
    cases h
    simp
  | cons d ds ih =>
    obtain ⟨n, rest, hn, hrest, h⟩ := Run.bind2_ok h
    obtain ⟨hd, hds⟩ := nodup_cons.mp hnodup
    obtain ⟨hnet, hsub, hne⟩ := ih hds hrest
    have hn' := sumOf_ok hn
    cases h
    -- the entry of `d` is present exactly when its sum is not zero
    have hentry : ∀ e, net (if n = 0 then rest else ⟨d, n⟩ :: rest) e
        = (if d = e then n else 0) + net rest e := by
      intro e
      by_cases hz : n = 0
      · rw [if_pos hz, hz]
        simp
      · rw [if_neg hz, net_cons]
    refine ⟨fun e => ?_, ?_, ?_⟩
    · rw [hentry, hnet e]
      by_cases he : d = e
      · subst he
        rw [if_pos rfl, if_neg hd, if_pos (by simp), hn', add_zero]
      · rw [if_neg he, zero_add]
        simp [Ne.symm he]
    · split
      · exact hsub.trans (sublist_cons_self d ds)
      · exact hsub.cons_cons d
    · intro c hc
      split at hc
      · exact hne c hc
      · rcases mem_cons.mp hc with rfl | hc
        · assumption
        · exact hne c hc

lemma sumDenoms_nodup (cs : Coins) :
    ((cs.map (·.denom)).dedup.insertionSort fun d d' => compare d d' ≠ .gt).Nodup :=
  (perm_insertionSort _ _).nodup_iff.mpr (nodup_dedup _)

/-- **Sums are exact**, hold each denomination once and no zeros. -/
lemma coinsAdd_ok (h : coinsAdd cs cs' = .ok cs'') :
    (∀ d, net cs'' d = net cs d + net cs' d) ∧ (cs''.map (·.denom)).Nodup
      ∧ ∀ c ∈ cs'', c.amount ≠ 0 := by
  obtain ⟨_, _, -, -, h⟩ := Run.bind2_ok h
  obtain ⟨hnet, hsub, hne⟩ := coalesce_ok (sumDenoms_nodup _) h
  refine ⟨fun d => ?_, hsub.nodup (sumDenoms_nodup _), hne⟩
  rw [hnet d, ← net_append]
  split
  · rfl
  · rename_i hd
    rw [mem_insertionSort, mem_dedup] at hd
    exact (net_eq_zero_of_notMem hd).symm

lemma isSorted_of_pairwise
    (h : (cs.map (·.denom)).Pairwise fun d d' => compare d d' ≠ .gt) : isSorted cs = true := by
  induction cs with
  | nil => rfl
  | cons c cs ih =>
    cases cs with
    | nil => rfl
    | cons c' cs =>
      obtain ⟨hc, hcs⟩ := pairwise_cons.mp h
      have hle : compare c.denom c'.denom ≠ .gt := hc c'.denom (by simp)
      simp only [isSorted, Bool.and_eq_true, decide_eq_true_eq]
      exact ⟨hle, ih hcs⟩

lemma sumDenoms_sorted (ds : List Denom) :
    (ds.insertionSort fun d d' => compare d d' ≠ .gt).Pairwise fun d d' => compare d d' ≠ .gt :=
  Bytes.pairwise_insertionSort id ds

lemma coinsAdd_isSorted (h : coinsAdd cs cs' = .ok cs'') : isSorted cs'' = true := by
  obtain ⟨_, _, -, -, h⟩ := Run.bind2_ok h
  obtain ⟨-, hsub, -⟩ := coalesce_ok (sumDenoms_nodup _) h
  exact isSorted_of_pairwise ((sumDenoms_sorted _).sublist hsub)

/-- The sum of coins of distinct denominations exists, and holds the same amounts. -/
lemma coinsAdd_disjoint (hsorted : isSorted cs = true) (hsorted' : isSorted cs' = true)
    (hnodup : ((cs ++ cs').map (·.denom)).Nodup)
    (hbound : ∀ c ∈ cs ++ cs', c.amount.natAbs < 2 ^ 256) :
    ∃ cs'', coinsAdd cs cs' = .ok cs'' ∧ ∀ c ∈ cs'', c ∈ cs ++ cs' := by
  -- at most one coin of each denomination is summed
  have hsum : ∀ d, ∃ n, sumOf (cs ++ cs') d = .ok n := by
    intro d
    have hlen : ((cs ++ cs').filter fun c => c.denom = d).length ≤ 1 := by
      have hcount := nodup_iff_count_le_one.mp hnodup d
      rw [count_eq_countP, countP_map, countP_eq_length_filter] at hcount
      refine le_trans (le_of_eq ?_) hcount
      congr 1
      apply filter_congr
      intro c _
      show decide (c.denom = d) = (c.denom == d)
      rw [Bool.eq_iff_iff, decide_eq_true_eq, beq_iff_eq]
    rcases hf : (cs ++ cs').filter fun c => c.denom = d with - | ⟨c, rest⟩
    · exact ⟨0, by rw [sumOf, hf]; rfl⟩
    · rw [hf, length_cons] at hlen
      have hrest : rest = [] := length_eq_zero_iff.mp (by omega)
      have hmem : c ∈ cs ++ cs' := mem_of_mem_filter (hf ▸ mem_cons_self)
      refine ⟨c.amount, ?_⟩
      rw [sumOf, hf, hrest, checkedSum, foldlM_cons, zero_add, checkedInt, if_pos (hbound c hmem)]
      rfl
  have hcoalesce : ∀ ds, ∃ out, coalesce (cs ++ cs') ds = .ok out := by
    intro ds
    induction ds with
    | nil => exact ⟨[], rfl⟩
    | cons d ds ih =>
      obtain ⟨n, hn⟩ := hsum d
      obtain ⟨out, hout⟩ := ih
      rw [coalesce, hn, hout]
      exact ⟨_, rfl⟩
  obtain ⟨cs'', hcs''⟩ := hcoalesce (((cs ++ cs').map (·.denom)).dedup.insertionSort
    fun d d' => compare d d' ≠ .gt)
  have hadd : coinsAdd cs cs' = .ok cs'' := by
    rw [coinsAdd, hsorted, hsorted']
    exact hcs''
  refine ⟨cs'', hadd, fun c hc => ?_⟩
  obtain ⟨hnet, hnodup'', hne⟩ := coinsAdd_ok hadd
  have hamount := hnet c.denom
  rw [net_eq_of_mem hnodup'' hc, ← net_append] at hamount
  have hmem : c.denom ∈ (cs ++ cs').map (·.denom) := by
    by_contra hnot
    rw [net_eq_zero_of_notMem hnot] at hamount
    exact hne c hc hamount
  obtain ⟨c₀, hc₀, hdenom⟩ := mem_map.mp hmem
  have heq : c₀ = c := by
    rw [← hdenom, net_eq_of_mem hnodup hc₀] at hamount
    cases c₀
    cases c
    simp_all
  exact heq ▸ hc₀

lemma foldlM_coinsAdd_ok {α : Type*} {f : α → Coin} {l : List α} {acc : Coins}
    (hacc : (acc.map (·.denom)).Nodup ∧ ∀ c ∈ acc, c.amount ≠ 0)
    (h : l.foldlM (fun cs x => coinsAdd cs [f x]) acc = .ok cs') :
    (∀ d, net cs' d = net acc d + net (l.map f) d) ∧ (cs'.map (·.denom)).Nodup
      ∧ ∀ c ∈ cs', c.amount ≠ 0 := by
  induction l generalizing acc with
  | nil =>
    cases h
    exact ⟨fun d => by simp, hacc⟩
  | cons x l ih =>
    rw [foldlM_cons] at h
    obtain ⟨acc', hacc', h⟩ := Run.bind_ok h
    obtain ⟨hnet, hnodup, hne⟩ := coinsAdd_ok hacc'
    obtain ⟨hnet', hrest⟩ := ih ⟨hnodup, hne⟩ h
    refine ⟨fun d => ?_, hrest⟩
    rw [hnet', hnet, map_cons, net_cons, net_cons, net_nil]
    ring

lemma net_negative (cs : Coins) (d : Denom) : net (negative cs) d = -net cs d := by
  induction cs with
  | nil => rfl
  | cons c cs ih =>
    have hcons : negative (c :: cs) = ⟨c.denom, -c.amount⟩ :: negative cs := rfl
    rw [hcons, net_cons, net_cons, ih, neg_add]
    split
    · rfl
    · rfl

lemma net_filter_ne_zero (cs : Coins) (d : Denom) :
    net (cs.filter fun c => c.amount ≠ 0) d = net cs d := by
  induction cs with
  | nil => rfl
  | cons c cs ih =>
    by_cases hc : c.amount = 0
    · rw [filter_cons_of_neg (by simp [hc]), ih, net_cons]
      simp [hc]
    · rw [filter_cons_of_pos (by simp [hc]), net_cons, net_cons, ih]

lemma isValid_pos (h : isValid sdk cs = true) : ∀ c ∈ cs, 0 < c.amount := by
  simp only [isValid, Bool.and_eq_true, all_eq_true, decide_eq_true_eq] at h
  exact fun c hc => (h.1 c hc).2

lemma isValid_denom (h : isValid sdk cs = true) : ∀ c ∈ cs, sdk.validDenom c.denom = true := by
  simp only [isValid, Bool.and_eq_true, all_eq_true, decide_eq_true_eq] at h
  exact fun c hc => (h.1 c hc).1

lemma strictlySorted_pairwise (h : strictlySorted cs = true) :
    cs.Pairwise fun c c' => compare c.denom c'.denom = .lt := by
  induction cs with
  | nil => exact List.Pairwise.nil
  | cons c cs ih =>
    cases cs with
    | nil => exact pairwise_singleton _ _
    | cons c' cs =>
      simp only [strictlySorted, Bool.and_eq_true, beq_iff_eq] at h
      have hcs := ih h.2
      refine pairwise_cons.mpr ⟨fun d hd => ?_, hcs⟩
      rcases mem_cons.mp hd with rfl | hd
      · exact h.1
      · exact Std.TransCmp.lt_trans h.1 (rel_of_pairwise_cons hcs hd)

lemma isValid_nodup (h : isValid sdk cs = true) : (cs.map (·.denom)).Nodup := by
  simp only [isValid, Bool.and_eq_true] at h
  refine pairwise_map.mpr ((strictlySorted_pairwise h.2).imp ?_)
  intro c c' hlt heq
  rw [heq] at hlt
  exact absurd hlt (by simp)

lemma newCoins_ok (h : newCoins sdk cs = .ok cs') :
    (∀ d, net cs' d = net cs d) ∧ (∀ c ∈ cs', 0 < c.amount)
      ∧ cs'.Perm (cs.filter fun c => c.amount ≠ 0) := by
  simp only [newCoins] at h
  split at h
  · rename_i hvalid
    cases h
    have hperm := perm_insertionSort (fun c c' : Coin => compare c.denom c'.denom ≠ .gt)
      (cs.filter fun c => c.amount ≠ 0)
    refine ⟨fun d => ?_, isValid_pos hvalid, hperm⟩
    rw [net_perm hperm, net_filter_ne_zero]
  · cases h

/-- **Differences are exact**, hold each denomination once and only positive amounts. -/
lemma coinsSub_ok (h : coinsSub sdk cs cs' = .ok cs'') :
    (∀ d, net cs'' d = net cs d - net cs' d) ∧ (cs''.map (·.denom)).Nodup
      ∧ (∀ c ∈ cs'', 0 < c.amount) ∧ ∀ d, 0 ≤ net cs' d := by
  obtain ⟨b, diff, _, hb, hdiff, hnonneg, h⟩ := Run.bind3_ok h
  cases h
  obtain ⟨hnetb, hposb, -⟩ := newCoins_ok hb
  obtain ⟨hnet, hnodup, hne⟩ := coinsAdd_ok hdiff
  have hall := all_eq_true.mp (ensure_ok hnonneg)
  refine ⟨fun d => ?_, hnodup, fun c hc => ?_, fun d => ?_⟩
  · rw [hnet, net_negative, hnetb]
    ring
  · have h0 := of_decide_eq_true (hall c hc)
    have h1 := hne c hc
    omega
  · rw [← hnetb]
    exact net_nonneg (fun c hc => (hposb c hc).le) d

lemma coinsSub_le (h : coinsSub sdk cs cs' = .ok cs'') :
    (∀ d, net cs'' d ≤ net cs d) ∧ ∀ c ∈ cs'', 0 ≤ c.amount := by
  obtain ⟨hnet, -, hpos, hnonneg⟩ := coinsSub_ok h
  refine ⟨fun d => ?_, fun c hc => (hpos c hc).le⟩
  have := hnonneg d
  rw [hnet]
  omega

/-! ### Bank calls in signed amounts -/

/-- The balances of a bank change by `f` and its supplies by `g`. -/
structure Flows (f : Address → Denom → ℤ) (g : Denom → ℤ) (b b' : Bank) : Prop where
  balance : ∀ a d, (b'.balance a d : ℤ) = b.balance a d + f a d
  supply : ∀ d, (b'.supply d : ℤ) = b.supply d + g d

/-- The transfer of `cs` from `src` to `dst`. -/
def transferred (src dst : Address) (cs : Coins) (a : Address) (d : Denom) : ℤ :=
  (if a = dst then net cs d else 0) - if a = src then net cs d else 0

variable {f f' : Address → Denom → ℤ} {g g' : Denom → ℤ} {b b₁ b' : Bank} {src dst : Address}

@[simp] lemma transferred_dst (h : dst ≠ src) (cs : Coins) (d : Denom) :
    transferred src dst cs dst d = net cs d := by
  rw [transferred, if_pos rfl, if_neg h, sub_zero]

@[simp] lemma transferred_src (h : src ≠ dst) (cs : Coins) (d : Denom) :
    transferred src dst cs src d = -net cs d := by
  rw [transferred, if_neg h, if_pos rfl, zero_sub]

@[simp] lemma transferred_other {a : Address} (h : a ≠ src) (h' : a ≠ dst) (cs : Coins)
    (d : Denom) : transferred src dst cs a d = 0 := by
  rw [transferred, if_neg h, if_neg h', sub_zero]

lemma Flows.trans (h : Flows f g b b₁) (h' : Flows f' g' b₁ b') :
    Flows (fun a d => f a d + f' a d) (fun d => g d + g' d) b b' where
  balance a d := by rw [h'.balance, h.balance, add_assoc]
  supply d := by rw [h'.supply, h.supply, add_assoc]

lemma Flows.congr (h : Flows f g b b') (hf : ∀ a d, f a d = f' a d) (hg : ∀ d, g d = g' d) :
    Flows f' g' b b' where
  balance a d := by rw [h.balance, hf]
  supply d := by rw [h.supply, hg]

lemma sendCoins_flows (h : b.sendCoins sdk src dst cs = .ok b') :
    Flows (transferred src dst cs) (fun _ => 0) b b' := by
  have hsent := Bank.sendCoins_ok h
  have hnonneg : ∀ c ∈ cs, 0 ≤ c.amount := fun c hc =>
    (isValid_pos (Bank.sendCoins_isValid h) c hc).le
  refine ⟨fun a d => ?_, fun d => ?_⟩
  · have e : (b'.balance a d : ℤ) + (if a = src then (total cs d : ℤ) else 0)
        = b.balance a d + if a = dst then (total cs d : ℤ) else 0 := by
      exact_mod_cast hsent.balance a d
    rw [transferred, net_eq_total hnonneg]
    linarith
  · rw [hsent.supply, add_zero]

lemma foldlM_sendCoin_of_le (dst : Address) {b : Bank} (hnodup : (cs.map (·.denom)).Nodup)
    (hle : ∀ c ∈ cs, c.amount.toNat ≤ b.balance src c.denom) :
    ∃ b', cs.foldlM (Bank.sendCoin src dst) b = .ok b' := by
  induction cs generalizing b with
  | nil => exact ⟨b, rfl⟩
  | cons c cs ih =>
    rw [map_cons, nodup_cons] at hnodup
    obtain ⟨b₁, hb₁⟩ : ∃ b₁, Bank.sendCoin src dst b c = .ok b₁ :=
      ⟨_, dif_pos (hle c mem_cons_self)⟩
    have hrest : ∀ c' ∈ cs, c'.amount.toNat ≤ b₁.balance src c'.denom := by
      intro c' hc'
      have hne : c.denom ≠ c'.denom := fun heq =>
        hnodup.1 (heq ▸ mem_map_of_mem hc')
      have hbalance := (Bank.sendCoin_ok hb₁).balance src c'.denom
      simp only [total_cons, total_nil, if_neg hne] at hbalance
      have hle' := hle c' (mem_cons_of_mem _ hc')
      simp only [add_zero, ite_self] at hbalance
      omega
    obtain ⟨b', hb'⟩ := ih hnodup.2 hrest
    refine ⟨b', ?_⟩
    rw [foldlM_cons, hb₁]
    exact hb'

lemma sendCoins_of_le (hvalid : isValid sdk cs = true)
    (hle : ∀ d, net cs d ≤ b.balance src d) : ∃ b', b.sendCoins sdk src dst cs = .ok b' := by
  have hnodup := isValid_nodup hvalid
  have hcoins : ∀ c ∈ cs, c.amount.toNat ≤ b.balance src c.denom := by
    intro c hc
    have hc' := hle c.denom
    rw [net_eq_of_mem hnodup hc] at hc'
    omega
  obtain ⟨b', hb'⟩ := foldlM_sendCoin_of_le dst hnodup hcoins
  refine ⟨b', ?_⟩
  unfold Bank.sendCoins
  rw [if_pos hvalid]
  exact hb'

variable {m : Bytes}

lemma minted_flows (hnonneg : ∀ c ∈ cs, 0 ≤ c.amount) (h : Bank.Minted m dst cs b b') :
    Flows (fun a d => if a = dst then net cs d else 0) (net cs) b b' := by
  refine ⟨fun a d => ?_, fun d => ?_⟩
  · rw [h.balance, net_eq_total hnonneg]
    split <;> simp
  · rw [h.supply, net_eq_total hnonneg]
    push_cast
    rfl

lemma burned_flows (hnonneg : ∀ c ∈ cs, 0 ≤ c.amount) (h : Bank.Burned m src cs b b') :
    Flows (fun a d => -if a = src then net cs d else 0) (fun d => -net cs d) b b' := by
  refine ⟨fun a d => ?_, fun d => ?_⟩
  · have e : (b'.balance a d : ℤ) + (if a = src then (total cs d : ℤ) else 0)
        = b.balance a d := by
      exact_mod_cast h.balance a d
    rw [net_eq_total hnonneg]
    linarith
  · have e := h.supply d
    rw [net_eq_total hnonneg]
    omega

end MaanyDex
