/-
Bisection of an interval of integers with bounds that move to the probed points.

The midpoint is the average rounded towards zero.  A bound that is probed is never a solution,
but the bounds of the first interval are not probed; they are found only if an average is
rounded to them.  That happens to an upper bound that is not positive, and to a lower bound
that is not negative (`Reachable`).  With probes in order, bisection finds a solution exactly if
there is one that is reachable (`bisect_isSome_iff`):

When the bounds move past the probed points instead, the interval becomes empty, and its bounds
are the two sides of a gap: all points probed below it were small enough, all points above it
too large.  Which points those are depends on the gap only (`path`); the last one is next to the
gap, but on either side.
-/
import Mathlib

namespace Bisection

variable {probe : ℤ → Ordering} {n : ℕ} {lo hi x : ℤ}

/-- The average, rounded towards zero. -/
def mid (lo hi : ℤ) : ℤ := (lo + hi).tdiv 2

/-- Bisect at most `n` times: what is probed is too large, too small or a solution. -/
def bisect (probe : ℤ → Ordering) : ℕ → ℤ → ℤ → Option ℤ
  | 0, _, _ => none
  | n + 1, lo, hi =>
    match probe (mid lo hi) with
    | .lt => bisect probe n lo (mid lo hi)
    | .gt => bisect probe n (mid lo hi) hi
    | .eq => some (mid lo hi)

/-- Not one of the bounds that are never probed. -/
def Reachable (lo hi x : ℤ) : Prop := lo = hi ∨ (x = hi → hi ≤ 0) ∧ (x = lo → 0 ≤ lo)

/-- Above what is too large and below what is too small there is no solution. -/
structure Ordered (probe : ℤ → Ordering) (lo hi : ℤ) : Prop where
  above : ∀ x y, lo ≤ x → x ≤ y → y ≤ hi → probe x = .lt → probe y ≠ .eq
  below : ∀ x y, lo ≤ x → x ≤ y → y ≤ hi → probe y = .gt → probe x ≠ .eq

/-! ### Midpoints -/

/-- Below the average of a sum that is not negative, above that of a negative one. -/
lemma mid_spec (lo hi : ℤ) :
    0 ≤ lo + hi ∧ 2 * mid lo hi ≤ lo + hi ∧ lo + hi ≤ 2 * mid lo hi + 1
      ∨ lo + hi < 0 ∧ 2 * mid lo hi - 1 ≤ lo + hi ∧ lo + hi ≤ 2 * mid lo hi := by
  unfold mid
  rcases le_or_gt 0 (lo + hi) with h | h
  · rw [Int.tdiv_eq_ediv_of_nonneg h]
    omega
  · have hneg : (-(lo + hi)).tdiv 2 = -(lo + hi).tdiv 2 := Int.neg_tdiv _ _
    rw [Int.tdiv_eq_ediv_of_nonneg (by omega)] at hneg
    omega

lemma mid_bounds (h : lo ≤ hi) : lo ≤ mid lo hi ∧ mid lo hi ≤ hi := by
  have hmid := mid_spec lo hi
  omega

lemma mid_reachable (h : lo ≤ hi) : Reachable lo hi (mid lo hi) := by
  have hmid := mid_spec lo hi
  unfold Reachable
  omega

lemma mid_strict (h : lo + 2 ≤ hi) : lo < mid lo hi ∧ mid lo hi < hi := by
  have hmid := mid_spec lo hi
  omega

lemma mid_eq (hwidth : hi ≤ lo + 1) (hlo : lo ≤ x) (hhi : x ≤ hi) (hx : Reachable lo hi x) :
    mid lo hi = x := by
  have hmid := mid_spec lo hi
  unfold Reachable at hx
  omega

lemma Ordered.mono {lo' hi' : ℤ} (h : Ordered probe lo hi) (hlo : lo ≤ lo') (hhi : hi' ≤ hi) :
    Ordered probe lo' hi' where
  above x y hx hxy hy := h.above x y (hlo.trans hx) hxy (hy.trans hhi)
  below x y hx hxy hy := h.below x y (hlo.trans hx) hxy (hy.trans hhi)

/-! ### Bisection -/

lemma bisect_sound (hle : lo ≤ hi) (h : bisect probe n lo hi = some x) :
    lo ≤ x ∧ x ≤ hi ∧ probe x = .eq ∧ Reachable lo hi x := by
  induction n generalizing lo hi with
  | zero => cases h
  | succ n ih =>
    obtain ⟨hlo, hhi⟩ := mid_bounds hle
    rw [bisect] at h
    rcases hprobe : probe (mid lo hi) with _ | _ | _ <;> rw [hprobe] at h
    · obtain ⟨hlo', hhi', heq, hx⟩ := ih hlo h
      refine ⟨hlo', hhi'.trans hhi, heq, ?_⟩
      -- the new bound is no solution
      have hne : x ≠ mid lo hi := by
        rintro rfl
        rw [hprobe] at heq
        cases heq
      unfold Reachable at hx ⊢
      omega
    · cases h
      exact ⟨hlo, hhi, hprobe, mid_reachable hle⟩
    · obtain ⟨hlo', hhi', heq, hx⟩ := ih hhi h
      refine ⟨hlo.trans hlo', hhi', heq, ?_⟩
      have hne : x ≠ mid lo hi := by
        rintro rfl
        rw [hprobe] at heq
        cases heq
      unfold Reachable at hx ⊢
      omega

/-- A reachable solution stays in the interval, which is halved. -/
lemma bisect_complete {j : ℕ} (hord : Ordered probe lo hi) (hlo : lo ≤ x) (hhi : x ≤ hi)
    (heq : probe x = .eq) (hx : Reachable lo hi x) (hwidth : hi - lo ≤ 2 ^ j) (hn : j < n) :
    ∃ y, bisect probe n lo hi = some y := by
  induction n generalizing lo hi j with
  | zero => omega
  | succ n ih =>
    rw [bisect]
    rcases le_or_gt hi (lo + 1) with hsmall | hlarge
    · rw [mid_eq hsmall hlo hhi hx, heq]
      exact ⟨x, rfl⟩
    · obtain ⟨hmid, hmid'⟩ := mid_strict (show lo + 2 ≤ hi by omega)
      obtain ⟨i, rfl⟩ : ∃ i, j = i + 1 := by
        rcases j with - | i
        · rw [pow_zero] at hwidth
          omega
        · exact ⟨i, rfl⟩
      rw [pow_succ] at hwidth
      have hhalf : mid lo hi - lo ≤ 2 ^ i ∧ hi - mid lo hi ≤ 2 ^ i := by
        have hspec := mid_spec lo hi
        omega
      rcases hprobe : probe (mid lo hi) with _ | _ | _
      · have hlt : x < mid lo hi := by
          by_contra hge
          exact hord.above _ _ hmid.le (not_lt.mp hge) hhi hprobe heq
        refine ih (hord.mono le_rfl hmid'.le) hlo hlt.le ?_ hhalf.1 (by omega)
        unfold Reachable at hx ⊢
        omega
      · exact ⟨_, rfl⟩
      · have hlt : mid lo hi < x := by
          by_contra hge
          exact hord.below _ _ hlo (not_lt.mp hge) hmid'.le hprobe heq
        refine ih (hord.mono hmid.le le_rfl) hlt.le hhi ?_ hhalf.2 (by omega)
        unfold Reachable at hx ⊢
        omega

/-- **What bisection finds.** -/
lemma bisect_isSome_iff {j : ℕ} (hle : lo ≤ hi) (hord : Ordered probe lo hi)
    (hwidth : hi - lo ≤ 2 ^ j) (hn : j < n) :
    (∃ y, bisect probe n lo hi = some y)
      ↔ ∃ x, lo ≤ x ∧ x ≤ hi ∧ probe x = .eq ∧ Reachable lo hi x := by
  constructor
  · rintro ⟨y, hy⟩
    exact ⟨y, bisect_sound hle hy⟩
  · rintro ⟨x, hlo, hhi, heq, hx⟩
    exact bisect_complete hord hlo hhi heq hx hwidth hn

/-- The points that are probed as long as none is a solution. -/
def probes (below : ℤ → Prop) [DecidablePred below] : ℕ → ℤ → ℤ → List ℤ
  | 0, _, _ => []
  | n + 1, lo, hi => mid lo hi ::
    if below (mid lo hi) then probes below n (mid lo hi) hi else probes below n lo (mid lo hi)

lemma mem_probes {below : ℤ → Prop} [DecidablePred below] (hle : lo ≤ hi)
    (h : x ∈ probes below n lo hi) : lo ≤ x ∧ x ≤ hi := by
  induction n generalizing lo hi with
  | zero => cases h
  | succ n ih =>
    have hmid := mid_bounds hle
    rcases List.mem_cons.mp h with rfl | h
    · exact hmid
    · split at h
      · have := ih hmid.2 h
        omega
      · have := ih hmid.1 h
        omega

/-! ### Bounds that move past the probed points -/

/-- The points that are probed on the way to the gap above `cut`. -/
def path (cut lo hi : ℤ) : List ℤ :=
  if lo ≤ hi then
    if mid lo hi ≤ cut then mid lo hi :: path cut (mid lo hi + 1) hi
    else mid lo hi :: path cut lo (mid lo hi - 1)
  else []
termination_by (hi + 1 - lo).toNat
decreasing_by
  all_goals
    have hmid := mid_bounds ‹lo ≤ hi›
    omega

variable {cut : ℤ}

lemma path_of_lt (h : hi < lo) : path cut lo hi = [] := by
  rw [path, if_neg (not_le.mpr h)]

lemma path_of_mid_le (h : lo ≤ hi) (hmid : mid lo hi ≤ cut) :
    path cut lo hi = mid lo hi :: path cut (mid lo hi + 1) hi := by
  rw [path, if_pos h, if_pos hmid]

lemma path_of_lt_mid (h : lo ≤ hi) (hmid : cut < mid lo hi) :
    path cut lo hi = mid lo hi :: path cut lo (mid lo hi - 1) := by
  rw [path, if_pos h, if_neg (not_le.mpr hmid)]

lemma mem_path_cut (hlo : lo ≤ cut) (hhi : cut ≤ hi) : cut ∈ path cut lo hi := by
  fun_induction path cut lo hi with
  | case1 lo hi hle hmid ih =>
    rcases hmid.eq_or_lt with heq | hlt
    · rw [← heq]
      exact List.mem_cons_self
    · exact List.mem_cons_of_mem _ (ih (by omega) hhi)
  | case2 lo hi hle hmid ih => exact List.mem_cons_of_mem _ (ih hlo (by omega))
  | case3 lo hi hlt => omega

lemma mem_path_succ (hlo : lo ≤ cut + 1) (hhi : cut + 1 ≤ hi) : cut + 1 ∈ path cut lo hi := by
  fun_induction path cut lo hi with
  | case1 lo hi hle hmid ih => exact List.mem_cons_of_mem _ (ih (by omega) hhi)
  | case2 lo hi hle hmid ih =>
    rcases (show cut + 1 ≤ mid lo hi by omega).eq_or_lt with heq | hlt
    · rw [← heq]
      exact List.mem_cons_self
    · exact List.mem_cons_of_mem _ (ih hlo (by omega))
  | case3 lo hi hlt => omega

/-- The last point that is probed is next to the gap. -/
lemma getLastD_path (hle : lo ≤ hi) (hlo : lo ≤ cut + 1) (hhi : cut ≤ hi) (x : ℤ) :
    (path cut lo hi).getLastD x = cut ∨ (path cut lo hi).getLastD x = cut + 1 := by
  fun_induction path cut lo hi generalizing x with
  | case1 lo hi hle' hmid ih =>
    rw [List.getLastD_cons]
    rcases le_or_gt (mid lo hi + 1) hi with hmore | hdone
    · exact ih hmore (by omega) hhi _
    · rw [path_of_lt hdone]
      exact .inl (show mid lo hi = cut by omega)
  | case2 lo hi hle' hmid ih =>
    rw [List.getLastD_cons]
    have hbounds := mid_bounds hle
    rcases le_or_gt lo (mid lo hi - 1) with hmore | hdone
    · exact ih hmore hlo (by omega) _
    · rw [path_of_lt hdone]
      exact .inr (show mid lo hi = cut + 1 by omega)
  | case3 lo hi hlt => omega

end Bisection
