/-
`BinarySearch` of `osmomath/binary_search.go` on a non-decreasing function.

The search returns the first point of its path (`Bisection.probes`) that `Compare` accepts, unless
an overflow comes first.  What `Compare` accepts (`Within`) is not what is documented
(`Tolerates`): ratios are rounded, a multiplicative tolerance of zero is ignored, and with another
one nothing is equal to zero, not even zero.

Of two outputs on the same side of the target, the one that is closer meets every tolerance that the
other meets (`Within.closer`), so that the probes are in order.  Even then the search is not
complete: the bounds are not probed.  An upper bound that is positive, or a lower bound that is
negative, is not found even if nothing else meets the tolerance.
-/
import MaanyDex.Lib.Bisection
import MaanyDex.Osmomath.Tolerance

namespace MaanyDex.Osmomath

open Bisection

variable {math : Math} {f : ℤ → ℤ} {target lo hi x y z : ℤ}

namespace ErrTolerance

variable (tol : ErrTolerance)

/-- What `Compare` answers when the difference is not too large. -/
def comparison (expected actual : ℤ) : Ordering :=
  tol.answer expected actual (if actual < expected then .gt else .lt) (exceeds18 expected actual)

/-- What `Compare` takes for equal. -/
structure Within (x y : ℤ) : Prop where
  down : tol.roundingDir = .down → y ≤ x
  up : tol.roundingDir = .up → x ≤ y
  near : (∃ a, tol.additiveTolerance = some a ∧ a.isZero = true ∧ x = y)
    ∨ (∀ a, tol.additiveTolerance = some a → |x - y| * Dec.unit ≤ a.raw)
      ∧ ∀ m, tol.multiplicativeTolerance = some m → m.isZero = false →
        min |x| |y| ≠ 0 ∧ ¬exceeds18 x y m

/-- Equal up to the tolerance and in the direction of rounding, as documented; without an additive
tolerance, numbers have to be equal. -/
structure Tolerates (x y : ℤ) : Prop where
  down : tol.roundingDir = .down → y ≤ x
  up : tol.roundingDir = .up → x ≤ y
  near : (∃ a, tol.additiveTolerance = some a ∧ a.isZero = true ∧ x = y)
    ∨ (∀ a, tol.additiveTolerance = some a → |x - y| * Dec.unit ≤ a.raw)
      ∧ ∀ m, tol.multiplicativeTolerance = some m → |x - y| * Dec.unit ≤ m.raw * min |x| |y|

/-- Taken for equal although the ratio exceeds the multiplicative tolerance. -/
def Slack (x y : ℤ) : Prop :=
  tol.Within x y ∧ x ≠ y
    ∧ ∃ m, tol.multiplicativeTolerance = some m ∧ m.raw * min |x| |y| < |x - y| * Dec.unit

/-- Nothing is taken for equal: the expected value is zero, and only a ratio could be compared. -/
def Blind (x : ℤ) : Prop :=
  x = 0 ∧ (∃ m, tol.multiplicativeTolerance = some m ∧ m.isZero = false)
    ∧ ∀ a, tol.additiveTolerance = some a → a.isZero = false

/-- A multiplicative tolerance of two or more is for numbers that do not differ in sign. -/
def SameSide (x y : ℤ) : Prop :=
  (∀ m, tol.multiplicativeTolerance = some m → m.raw < 2 * Dec.unit) ∨ 0 ≤ x ∧ 0 ≤ y ∨ x ≤ 0 ∧ y ≤ 0

variable {tol}

variable {round : RoundingDirection}

lemma wrongSide_eq_none_iff :
    wrongSide round (decide (x < y)) (decide (y < x)) = none
      ↔ (round = .down → y ≤ x) ∧ (round = .up → x ≤ y) := by
  unfold wrongSide
  rcases round with _ | _ | _ <;> simp

lemma wrongSide_ne_eq {lt gt : Bool} : wrongSide round lt gt ≠ some .eq := by
  unfold wrongSide
  split_ifs <;> simp

variable {s : Ordering}

lemma byRatio_eq_iff (hs : s ≠ .eq) :
    tol.byRatio x y s (exceeds18 x y) = .eq
      ↔ ∀ m, tol.multiplicativeTolerance = some m → m.isZero = false →
        min |x| |y| ≠ 0 ∧ ¬exceeds18 x y m := by
  unfold byRatio
  rcases tol.multiplicativeTolerance with - | m
  · simp
  · by_cases hzero : m.isZero = true
    · simp [hzero]
    · simp only [Option.some.injEq, forall_eq', hzero, if_false, Bool.false_eq_true]
      split_ifs with hmin hexceeds
      · simp [hs, hmin]
      · simp [hs, hexceeds]
      · simp [hmin, hexceeds]

lemma comparison_eq_iff : tol.comparison x y = .eq ↔ tol.Within x y := by
  have hs : (if y < x then Ordering.gt else .lt) ≠ .eq := by split <;> simp
  unfold comparison answer settled
  rcases hside : wrongSide tol.roundingDir (decide (x < y)) (decide (y < x)) with - | o
  · obtain ⟨hdown, hup⟩ := wrongSide_eq_none_iff.mp hside
    rcases hadd : tol.additiveTolerance with - | a
    · show tol.byRatio x y _ _ = .eq ↔ _
      rw [byRatio_eq_iff hs]
      constructor
      · intro h
        exact ⟨hdown, hup, Or.inr ⟨by simp [hadd], h⟩⟩
      · rintro ⟨-, -, ⟨a, ha, -⟩ | ⟨-, h⟩⟩
        · rw [hadd] at ha
          cases ha
        · exact h
    · dsimp only
      by_cases hzero : a.isZero = true ∧ x = y
      · rw [if_pos hzero]
        exact iff_of_true rfl ⟨hdown, hup, Or.inl ⟨a, hadd, hzero⟩⟩
      · rw [if_neg hzero]
        by_cases hoff : a.raw < |x - y| * Dec.unit
        · rw [if_pos hoff]
          refine iff_of_false hs ?_
          rintro ⟨-, -, ⟨b, hb, hb'⟩ | ⟨h, -⟩⟩
          · cases hadd.symm.trans hb
            exact hzero hb'
          · exact absurd hoff (not_lt.mpr (h a hadd))
        · rw [if_neg hoff]
          show tol.byRatio x y _ _ = .eq ↔ _
          rw [byRatio_eq_iff hs]
          constructor
          · intro h
            refine ⟨hdown, hup, Or.inr ⟨fun b hb => ?_, h⟩⟩
            cases hadd.symm.trans hb
            exact not_lt.mp hoff
          · rintro ⟨-, -, ⟨b, hb, hb'⟩ | ⟨-, h⟩⟩
            · cases hadd.symm.trans hb
              exact absurd hb' hzero
            · exact h
  · refine iff_of_false (fun h => wrongSide_ne_eq (hside.trans (congrArg some h))) ?_
    rintro ⟨hdown, hup, -⟩
    rw [wrongSide_eq_none_iff.mpr ⟨hdown, hup⟩] at hside
    cases hside

lemma settled_eq_or {o : Ordering} (h : tol.settled x y = some o) :
    o = .eq ∨ o = if y < x then .gt else .lt := by
  unfold settled at h
  rcases hside : wrongSide tol.roundingDir (decide (x < y)) (decide (y < x)) with - | o'
  · rw [hside] at h
    rcases hadd : tol.additiveTolerance with - | a <;> rw [hadd] at h
    · cases h
    · dsimp only at h
      split_ifs at h <;> cases h <;> simp_all
  · rw [hside] at h
    cases h
    unfold wrongSide at hside
    split_ifs at hside with hdown hup <;> cases hside
    · exact .inr (if_neg (not_lt.mpr (of_decide_eq_true hdown.2).le)).symm
    · exact .inr (if_pos (of_decide_eq_true hup.2)).symm

lemma byRatio_eq_or :
    tol.byRatio x y s (exceeds18 x y) = .eq ∨ tol.byRatio x y s (exceeds18 x y) = s := by
  unfold byRatio
  rcases tol.multiplicativeTolerance with - | m
  · exact .inl rfl
  · dsimp only
    split_ifs <;> simp

lemma comparison_of_not_within (h : ¬tol.Within x y) :
    tol.comparison x y = if y < x then .gt else .lt := by
  have hne := mt comparison_eq_iff.mp h
  refine Or.resolve_left ?_ hne
  unfold comparison answer
  rcases hset : tol.settled x y with - | o
  · exact byRatio_eq_or
  · exact settled_eq_or hset

/-! ### What is documented -/

lemma Tolerates.within (h : tol.Tolerates x y) (hblind : ¬tol.Blind x) : tol.Within x y := by
  refine ⟨h.down, h.up, ?_⟩
  by_cases hadd : ∃ a, tol.additiveTolerance = some a ∧ a.isZero = true ∧ x = y
  · exact .inl hadd
  obtain ⟨hle, hratio⟩ := h.near.resolve_left hadd
  refine .inr ⟨hle, fun m hm hzero => ?_⟩
  have hm' := hratio m hm
  have hmin : min |x| |y| ≠ 0 := by
    intro hmin
    rw [hmin, mul_zero] at hm'
    have hxy : x = y := by
      have hunit := Dec.unit_pos_int
      have : |x - y| ≤ 0 := by nlinarith
      exact sub_eq_zero.mp (abs_nonpos_iff.mp this)
    subst hxy
    refine hblind ⟨by simpa using hmin, ⟨m, hm, hzero⟩, fun a ha => ?_⟩
    exact Bool.eq_false_iff.mpr fun h => hadd ⟨a, ha, h, rfl⟩
  exact ⟨hmin, fun h => absurd hm' (not_le.mpr (h.lt (by decide) (min_abs_pos hmin)))⟩

lemma Within.tolerates_or_slack (h : tol.Within x y) : tol.Tolerates x y ∨ tol.Slack x y := by
  by_cases hslack : tol.Slack x y
  · exact .inr hslack
  refine .inl ⟨h.down, h.up, h.near.imp_right fun ⟨hadd, hratio⟩ => ⟨hadd, fun m hm => ?_⟩⟩
  by_cases hxy : x = y
  · -- a negative tolerance is exceeded by any ratio
    subst hxy
    rw [sub_self, abs_zero, zero_mul]
    refine mul_nonneg (not_lt.mp fun hneg => ?_) (le_min (abs_nonneg x) (abs_nonneg x))
    obtain ⟨hmin, hnot⟩ := hratio m hm (by simp [Dec.isZero, hneg.ne])
    exact hnot (FixedPoint.exceeds_of_neg (by decide) hneg (abs_nonneg _) (min_abs_pos hmin))
  · by_contra hlt
    exact hslack ⟨h, hxy, m, hm, not_le.mp hlt⟩

lemma Within.not_blind (h : tol.Within x y) : ¬tol.Blind x := by
  rintro ⟨rfl, ⟨m, hm, hzero⟩, hadd⟩
  rcases h.near with ⟨a, ha, hzero', -⟩ | ⟨-, hratio⟩
  · rw [hadd a ha] at hzero'
    cases hzero'
  · simpa using (hratio m hm hzero).1

/-! ### Closer is better -/

/-- Closer to `x` on the same side: `y` is between `x` and `z`. -/
def Between (x y z : ℤ) : Prop := x ≤ y ∧ y ≤ z ∨ z ≤ y ∧ y ≤ x

lemma Between.abs_sub_le (h : Between x y z) : |x - y| ≤ |x - z| := by
  rcases h with ⟨hxy, hyz⟩ | ⟨hzy, hyx⟩
  · rw [abs_of_nonpos (by omega), abs_of_nonpos (by omega)]
    omega
  · rw [abs_of_nonneg (by omega), abs_of_nonneg (by omega)]
    omega

lemma Between.min_abs_le (h : Between x y z) (hside : 0 ≤ x ∧ 0 ≤ z ∨ x ≤ 0 ∧ z ≤ 0) :
    min |x| |z| ≤ min |x| |y| := by
  unfold Between at h
  rcases hside with ⟨hx, hz⟩ | ⟨hx, hz⟩
  · rw [abs_of_nonneg hx, abs_of_nonneg hz, abs_of_nonneg (by omega)]
    omega
  · rw [abs_of_nonpos hx, abs_of_nonpos hz, abs_of_nonpos (by omega)]
    omega

lemma two_mul_min_abs_le (hside : ¬(0 ≤ x ∧ 0 ≤ z ∨ x ≤ 0 ∧ z ≤ 0)) :
    2 * min |x| |z| ≤ |x - z| := by
  rcases lt_or_ge x 0 with hx | hx
  · have hz : 0 < z := by omega
    rw [abs_of_neg hx, abs_of_pos hz, abs_of_neg (by omega)]
    omega
  · have hz : z < 0 := by omega
    rw [abs_of_nonneg hx, abs_of_neg hz, abs_of_nonneg (by omega)]
    omega

/-- **What is closer is within the tolerance.** -/
lemma Within.closer (h : tol.Within x z) (hb : Between x y z) (hside : tol.SameSide x z) :
    tol.Within x y := by
  refine ⟨fun hdown => ?_, fun hup => ?_, ?_⟩
  · have := h.down hdown
    unfold Between at hb
    omega
  · have := h.up hup
    unfold Between at hb
    omega
  · rcases h.near with ⟨a, ha, hzero, rfl⟩ | ⟨hadd, hratio⟩
    · refine .inl ⟨a, ha, hzero, ?_⟩
      unfold Between at hb
      omega
    · refine .inr ⟨fun a ha => ?_, fun m hm hzero => ?_⟩
      · exact le_trans (mul_le_mul_of_nonneg_right hb.abs_sub_le (by positivity)) (hadd a ha)
      · obtain ⟨hmin, hnot⟩ := hratio m hm hzero
        have hmin' := min_abs_pos hmin
        -- a tolerance below two is exceeded by numbers of different signs
        have hsame : 0 ≤ x ∧ 0 ≤ z ∨ x ≤ 0 ∧ z ≤ 0 := by
          rcases hside with hsmall | hsame
          · by_contra hdiffer
            exact hnot (FixedPoint.exceeds_of_two_mul_le (by decide) (hsmall m hm) hmin'
              (two_mul_min_abs_le hdiffer))
          · exact hsame
        have hle := hb.min_abs_le hsame
        refine ⟨(hmin'.trans_le hle).ne', fun hexceeds => hnot ?_⟩
        exact FixedPoint.Exceeds.mono (by decide) hexceeds (abs_nonneg _) hb.abs_sub_le hmin' hle

end ErrTolerance

variable {tol : ErrTolerance} {n : ℕ}

open ErrTolerance

/-- The answers along a non-decreasing function are in order. -/
lemma ordered_comparison (hf : Monotone f)
    (hside : ∀ x, lo ≤ x → x ≤ hi → tol.SameSide target (f x)) :
    Ordered (fun x => tol.comparison target (f x)) lo hi where
  above x y hlo hxy hhi hprobe heq := by
    have hx : ¬tol.Within target (f x) := by
      intro hx
      rw [comparison_eq_iff.mpr hx] at hprobe
      cases hprobe
    rw [comparison_of_not_within hx] at hprobe
    have hle : target ≤ f x := by
      by_contra hlt
      rw [if_pos (not_le.mp hlt)] at hprobe
      cases hprobe
    exact hx ((comparison_eq_iff.mp heq).closer (.inl ⟨hle, hf hxy⟩)
      (hside y (hlo.trans hxy) hhi))
  below x y hlo hxy hhi hprobe heq := by
    have hy : ¬tol.Within target (f y) := by
      intro hy
      rw [comparison_eq_iff.mpr hy] at hprobe
      cases hprobe
    rw [comparison_of_not_within hy] at hprobe
    have hlt : f y < target := by
      by_contra hge
      rw [if_neg hge] at hprobe
      cases hprobe
    exact hy ((comparison_eq_iff.mp heq).closer (.inr ⟨hf hxy, hlt.le⟩)
      (hside x hlo (hxy.trans hhi)))

/-! ### The search -/

section Path

variable (math f target tol)

/-- Nothing overflows at this point: neither the sum of the bounds, nor the difference of the output
to the target. -/
def ProbeFits (x : ℤ) : Prop :=
  |x| < 2 ^ 255 ∧ |target - f x| * Dec.unit < 2 ^ math.maxDecBitLen

instance (x : ℤ) : Decidable (ProbeFits math f target x) := inferInstanceAs (Decidable (_ ∧ _))

/-- The first point of a path that `Compare` accepts, if nothing overflows before. -/
def firstMeeting : List ℤ → Option ℤ
  | [] => none
  | x :: xs =>
    if ProbeFits math f target x then
      if tol.comparison target (f x) = .eq then some x else firstMeeting xs
    else none

/-- A point is within the tolerance, and up to it nothing overflows or is accepted by mistake. -/
def Finds : List ℤ → Prop
  | [] => False
  | x :: xs => ProbeFits math f target x
    ∧ (tol.Tolerates target (f x) ∨ ¬tol.Slack target (f x) ∧ Finds xs)

/-- A point is accepted by mistake, and up to it nothing overflows. -/
def Mistakes : List ℤ → Prop
  | [] => False
  | x :: xs => ProbeFits math f target x ∧ (tol.Slack target (f x) ∨ Mistakes xs)

/-- The points on the way to the target. -/
def searchPath (lo hi : ℤ) : List ℤ := probes (fun x => f x < target) 300 lo hi

end Path

variable {xs : List ℤ}

/-- **What the search returns.** -/
lemma binarySearch_toOption :
    (binarySearch math (fun x => .ok (f x)) target tol n lo hi).toOption
      = firstMeeting math f target tol (probes (fun x => f x < target) n lo hi) := by
  induction n generalizing lo hi with
  | zero => rfl
  | succ n ih =>
    have hsum : (lo + hi).natAbs < 2 ^ 256 ↔ |mid lo hi| < 2 ^ 255 := by
      have := mid_spec lo hi
      rw [Int.abs_eq_natAbs]
      omega
    rw [binarySearch, probes, firstMeeting]
    by_cases hfits : ProbeFits math f target (mid lo hi)
    · rw [if_pos hfits, checkedInt_eq_ok (hsum.mpr hfits.1), Run.ok_bind, Run.ok_bind]
      have hcompare : tol.compare math target (f ((lo + hi).tdiv 2))
          = .ok (tol.comparison target (f (mid lo hi))) := compare_eq hfits.2
      rw [hcompare, Run.ok_bind]
      by_cases hmeets : tol.comparison target (f (mid lo hi)) = .eq
      · rw [if_pos hmeets, hmeets]
        rfl
      · rw [if_neg hmeets, comparison_of_not_within (mt comparison_eq_iff.mpr hmeets)]
        by_cases hlow : f (mid lo hi) < target
        · rw [if_pos hlow, if_pos hlow]
          exact ih
        · rw [if_neg hlow, if_neg hlow]
          exact ih
    · rw [if_neg hfits]
      by_cases hmid : |mid lo hi| < 2 ^ 255
      · rw [checkedInt_eq_ok (hsum.mpr hmid), Run.ok_bind, Run.ok_bind]
        have hcompare : tol.compare math target (f ((lo + hi).tdiv 2))
            = .error (.panic "Int overflow") := compare_eq_error fun h => hfits ⟨hmid, h⟩
        rw [hcompare, Run.error_bind]
        rfl
      · rw [checkedInt, if_neg (mt hsum.mp hmid), Run.error_bind]
        rfl

lemma firstMeeting_of_finds (hblind : ¬tol.Blind target) (h : Finds math f target tol xs) :
    ∃ x, firstMeeting math f target tol xs = some x ∧ tol.Tolerates target (f x) := by
  induction xs with
  | nil => cases h
  | cons x xs ih =>
    obtain ⟨hfits, h⟩ := h
    rw [firstMeeting, if_pos hfits]
    by_cases hx : tol.Tolerates target (f x)
    · rw [if_pos (comparison_eq_iff.mpr (hx.within hblind))]
      exact ⟨x, rfl, hx⟩
    · obtain ⟨hslack, h⟩ := h.resolve_left hx
      have hnot : ¬tol.Within target (f x) := fun hw => hw.tolerates_or_slack.elim hx hslack
      rw [if_neg (mt comparison_eq_iff.mp hnot)]
      exact ih h

lemma firstMeeting_of_mistakes (h : Mistakes math f target tol xs) :
    ∃ x, firstMeeting math f target tol xs = some x := by
  induction xs with
  | nil => cases h
  | cons x xs ih =>
    obtain ⟨hfits, h⟩ := h
    rw [firstMeeting, if_pos hfits]
    split
    · exact ⟨x, rfl⟩
    · rename_i hmeets
      exact ih (h.resolve_left fun hslack => hmeets (comparison_eq_iff.mpr hslack.1))

lemma firstMeeting_some (h : firstMeeting math f target tol xs = some x) :
    x ∈ xs ∧ tol.Within target (f x)
      ∧ (tol.Tolerates target (f x) → Finds math f target tol xs)
      ∧ (tol.Tolerates target (f x) ∨ Mistakes math f target tol xs) := by
  induction xs with
  | nil => cases h
  | cons y xs ih =>
    rw [firstMeeting] at h
    split_ifs at h with hfits hmeets
    · cases h
      have hx := comparison_eq_iff.mp hmeets
      exact ⟨List.mem_cons_self, hx, fun htol => ⟨hfits, .inl htol⟩,
        hx.tolerates_or_slack.imp_right fun hslack => ⟨hfits, .inl hslack⟩⟩
    · obtain ⟨hmem, hx, hfinds, hmistakes⟩ := ih h
      have hslack : ¬tol.Slack target (f y) := fun hs => hmeets (comparison_eq_iff.mpr hs.1)
      exact ⟨List.mem_cons_of_mem _ hmem, hx, fun htol => ⟨hfits, .inr ⟨hslack, hfinds htol⟩⟩,
        hmistakes.imp_right fun h => ⟨hfits, .inr h⟩⟩

/-- The search finds a point of the interval within the tolerance, unless there is none. -/
structure SearchRight (math : Math) (f : ℤ → ℤ) (target : ℤ) (tol : ErrTolerance) (lo hi : ℤ) :
    Prop where
  sound : ∀ x, binarySearch math (fun x => .ok (f x)) target tol 300 lo hi = .ok x →
    lo ≤ x ∧ x ≤ hi ∧ tol.Tolerates target (f x)
  complete : ∀ fault, binarySearch math (fun x => .ok (f x)) target tol 300 lo hi = .error fault →
    ∀ x, lo ≤ x → x ≤ hi → ¬tol.Tolerates target (f x)

/-- In terms of the first point that is accepted. -/
lemma searchRight_iff (hle : lo ≤ hi) : SearchRight math f target tol lo hi
    ↔ (∀ x, firstMeeting math f target tol (searchPath f target lo hi) = some x →
        tol.Tolerates target (f x))
      ∧ (firstMeeting math f target tol (searchPath f target lo hi) = none →
        ∀ x, lo ≤ x → x ≤ hi → ¬tol.Tolerates target (f x)) := by
  have hbounds : ∀ x, firstMeeting math f target tol (searchPath f target lo hi) = some x →
      lo ≤ x ∧ x ≤ hi := fun x h => mem_probes hle (firstMeeting_some h).1
  rw [searchPath, ← binarySearch_toOption] at hbounds ⊢
  constructor
  · intro h
    rcases hres : binarySearch math (fun x => .ok (f x)) target tol 300 lo hi with fault | x
    · exact ⟨nofun, fun _ => h.complete fault hres⟩
    · refine ⟨?_, nofun⟩
      rintro _ ⟨⟩
      exact (h.sound x hres).2.2
  · rintro ⟨hsound, hcomplete⟩
    refine ⟨fun x hres => ?_, fun fault hres => ?_⟩
    · rw [hres] at hsound hbounds
      exact ⟨(hbounds x rfl).1, (hbounds x rfl).2, hsound x rfl⟩
    · rw [hres] at hcomplete
      exact hcomplete rfl

/-- Nothing overflows in an interval. -/
structure Fits (math : Math) (f : ℤ → ℤ) (target lo hi : ℤ) : Prop where
  lowerbound : |lo| < 2 ^ 255
  upperbound : |hi| < 2 ^ 255
  least : |target - f lo| * Dec.unit < 2 ^ math.maxDecBitLen
  greatest : |target - f hi| * Dec.unit < 2 ^ math.maxDecBitLen

lemma Fits.probe (h : Fits math f target lo hi) (hf : Monotone f) (hlo : lo ≤ x) (hhi : x ≤ hi) :
    ProbeFits math f target x := by
  refine ⟨(abs_le_max_abs_abs hlo hhi).trans_lt (max_lt h.lowerbound h.upperbound), ?_⟩
  have hle : |target - f x| ≤ max |target - f hi| |target - f lo| :=
    abs_le_max_abs_abs (by have := hf hhi; omega) (by have := hf hlo; omega)
  refine lt_of_le_of_lt (mul_le_mul_of_nonneg_right hle (by positivity)) ?_
  rcases max_choice |target - f hi| |target - f lo| with hmax | hmax <;> rw [hmax]
  · exact h.greatest
  · exact h.least

lemma firstMeeting_eq_bisect (hle : lo ≤ hi)
    (hfits : ∀ x, lo ≤ x → x ≤ hi → ProbeFits math f target x) :
    firstMeeting math f target tol (probes (fun x => f x < target) n lo hi)
      = bisect (fun x => tol.comparison target (f x)) n lo hi := by
  induction n generalizing lo hi with
  | zero => rfl
  | succ n ih =>
    obtain ⟨hlo, hhi⟩ := mid_bounds hle
    rw [probes, firstMeeting, if_pos (hfits _ hlo hhi), bisect]
    by_cases hmeets : tol.comparison target (f (mid lo hi)) = .eq
    · rw [if_pos hmeets, hmeets]
    · rw [if_neg hmeets, comparison_of_not_within (mt comparison_eq_iff.mpr hmeets)]
      by_cases hlow : f (mid lo hi) < target
      · rw [if_pos hlow, if_pos hlow]
        exact ih hhi fun x hx hx' => hfits x (hlo.trans hx) hx'
      · rw [if_neg hlow, if_neg hlow]
        exact ih hlo fun x hx hx' => hfits x hx (hx'.trans hhi)

/-- The additive tolerance zero. -/
def exactly : ErrTolerance := ⟨some ⟨0⟩, none, .unconstrained⟩

def ratio (raw : ℤ) : ErrTolerance := ⟨none, some ⟨raw⟩, .unconstrained⟩

end MaanyDex.Osmomath
