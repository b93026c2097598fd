/-
The square roots of `osmomath/sqrt.go`, with the buffers they work in.

A decimal is a reference to a `big.Int`.  `MonotonicSqrtMut` scales the argument's own buffer for
the last comparison and leaves the root in it; `MonotonicSqrt` works on a clone.  The versions for
18 and for 36 digits differ in the scale only, and with `v` in the buffer both compute

    rootUp u v = ⌈√(v * u)⌉,

the least `x` with `v / u ≤ (x / u) ^ 2` (`rootUp_isLeast`).
-/
import MaanyDex.Lib.Heap
import MaanyDex.Osmomath.BigDec

namespace MaanyDex.Osmomath

open Heap (Ref)

/-! ### The functions -/

/-- The body of `MonotonicSqrtMut` and `MonotonicSqrtBigDecMut`. -/
def sqrtMut (tenTo : ℕ) (mem : Heap ℤ) (d : Ref) : Result Ref × Heap ℤ :=
  if mem.read d < 0 then (.error (.err "cannot take square root of negative number"), mem)
  else
    let (r, mem) := mem.alloc (mem.read d * tenTo)
    let mem := mem.write r (Int.sqrt (mem.read r))
    let (check, mem) := mem.alloc (mem.read r * mem.read r)
    -- `shiftedD` is the buffer of `d`
    let mem := mem.write d (mem.read d * tenTo)
    let mem := if mem.read check < mem.read d then mem.write r (mem.read r + 1) else mem
    (.ok d, mem.write d (mem.read r))

def monotonicSqrtMut : Heap ℤ → Ref → Result Ref × Heap ℤ := sqrtMut Dec.unit

def monotonicSqrtBigDecMut : Heap ℤ → Ref → Result Ref × Heap ℤ := sqrtMut BigDec.unit

/-- A call with `d.Clone()`. -/
def onClone (f : Heap ℤ → Ref → Result Ref × Heap ℤ) (mem : Heap ℤ) (d : Ref) :
    Result Ref × Heap ℤ :=
  let (clone, mem) := mem.alloc (mem.read d)
  f mem clone

def monotonicSqrt : Heap ℤ → Ref → Result Ref × Heap ℤ := onClone monotonicSqrtMut

def monotonicSqrtBigDec : Heap ℤ → Ref → Result Ref × Heap ℤ := onClone monotonicSqrtBigDecMut

/-! ### The root -/

/-- The integer square root of the scaled number, corrected upwards. -/
def rootUp (u : ℕ) (v : ℤ) : ℤ :=
  let r := Int.sqrt (v * u)
  if r * r < v * u then r + 1 else r

variable {u : ℕ} {v w x : ℤ}

lemma rootUp_nonneg : 0 ≤ rootUp u v := by
  have hsqrt := Int.sqrt_nonneg (v * u)
  unfold rootUp
  dsimp only
  split_ifs <;> omega

lemma le_rootUp_sq (hv : 0 ≤ v) : v * u ≤ rootUp u v * rootUp u v := by
  have hsucc : v * u < (Int.sqrt (v * u) + 1) * (Int.sqrt (v * u) + 1) := by
    obtain ⟨n, hn⟩ := Int.eq_ofNat_of_zero_le (mul_nonneg hv (Int.natCast_nonneg u))
    rw [hn, Int.sqrt_natCast]
    exact_mod_cast Nat.lt_succ_sqrt n
  unfold rootUp
  dsimp only
  split_ifs with hlt
  · exact hsucc.le
  · exact not_lt.mp hlt

lemma rootUp_le (hv : 0 ≤ v) (hx : 0 ≤ x) (h : v * u ≤ x * x) : rootUp u v ≤ x := by
  have hfloor : Int.sqrt (v * u) * Int.sqrt (v * u) ≤ v * u := by
    obtain ⟨n, hn⟩ := Int.eq_ofNat_of_zero_le (mul_nonneg hv (Int.natCast_nonneg u))
    rw [hn, Int.sqrt_natCast]
    exact_mod_cast Nat.sqrt_le n
  have hsqrt := Int.sqrt_nonneg (v * u)
  unfold rootUp
  dsimp only
  split_ifs with hlt
  · -- a square above the floor's
    have : Int.sqrt (v * u) < x := by nlinarith
    omega
  · nlinarith

lemma div_le_sq_iff (hu : 0 < u) : (v : ℚ) / u ≤ ((x : ℚ) / u) ^ 2 ↔ v * u ≤ x * x := by
  have hu' : (0 : ℚ) < u := by exact_mod_cast hu
  rw [div_pow, le_div_iff₀ (by positivity), sq, ← mul_assoc, div_mul_cancel₀ _ hu'.ne', sq]
  exact_mod_cast Iff.rfl

lemma rootUp_isLeast (hu : 0 < u) (hv : 0 ≤ v) :
    IsLeast {x : ℤ | 0 ≤ x ∧ (v : ℚ) / u ≤ ((x : ℚ) / u) ^ 2} (rootUp u v) := by
  constructor
  · exact ⟨rootUp_nonneg, (div_le_sq_iff hu).mpr (le_rootUp_sq hv)⟩
  · rintro x ⟨hx, hle⟩
    exact rootUp_le hv hx ((div_le_sq_iff hu).mp hle)

lemma rootUp_mono (hv : 0 ≤ v) (h : v ≤ w) : rootUp u v ≤ rootUp u w := by
  apply rootUp_le hv rootUp_nonneg
  calc v * u ≤ w * u := mul_le_mul_of_nonneg_right h (Int.natCast_nonneg u)
    _ ≤ rootUp u w * rootUp u w := le_rootUp_sq (hv.trans h)

lemma rootUp_eq_of_sq (hu : 0 < u) (hx : 0 ≤ x) (h : (v : ℚ) / u = ((x : ℚ) / u) ^ 2) :
    rootUp u v = x := by
  have hu' : (0 : ℚ) < u := by exact_mod_cast hu
  have hsq : v * u = x * x := by
    rw [div_pow, div_eq_div_iff hu'.ne' (by positivity), sq, ← mul_assoc] at h
    have := mul_right_cancel₀ hu'.ne' h
    rw [sq] at this
    exact_mod_cast this
  have hv : 0 ≤ v := by
    have hu'' : (0 : ℤ) < u := by exact_mod_cast hu
    exact nonneg_of_mul_nonneg_left (hsq ▸ mul_self_nonneg x) hu''
  apply le_antisymm (rootUp_le hv hx hsq.le)
  have hroot := le_rootUp_sq (u := u) hv
  rw [hsq] at hroot
  exact (mul_self_le_mul_self_iff hx rootUp_nonneg).mpr hroot

/-! ### What happens in the buffers -/

variable {mem : Heap ℤ} {d r : Ref}

lemma sqrtMut_neg (h : mem.read d < 0) :
    sqrtMut u mem d = (.error (.err "cannot take square root of negative number"), mem) :=
  if_pos h

lemma sqrtMut_ok (hd : mem.Valid d) (h : 0 ≤ mem.read d) :
    (sqrtMut u mem d).1 = .ok d ∧ (sqrtMut u mem d).2.read d = rootUp u (mem.read d)
      ∧ ∀ p, mem.Valid p → p ≠ d → (sqrtMut u mem d).2.read p = mem.read p := by
  unfold sqrtMut
  rw [if_neg (not_lt.mpr h)]
  dsimp only
  -- the heaps after each statement
  set r := (mem.alloc (mem.read d * u)).1 with hr
  set mem₁ := (mem.alloc (mem.read d * u)).2 with hmem₁
  have hr₁ : mem₁.Valid r := Heap.valid_alloc_self
  have hread₁ : mem₁.read r = mem.read d * u := Heap.read_alloc_self
  set mem₂ := mem₁.write r (Int.sqrt (mem₁.read r)) with hmem₂
  have hr₂ : mem₂.Valid r := Heap.valid_write.mpr hr₁
  have hread₂ : mem₂.read r = Int.sqrt (mem.read d * u) := by
    rw [hmem₂, hr₁.read_write_self, hread₁]
  set check := (mem₂.alloc (mem₂.read r * mem₂.read r)).1 with hcheck
  set mem₃ := (mem₂.alloc (mem₂.read r * mem₂.read r)).2 with hmem₃
  have hr₃ : mem₃.Valid r := hr₂.alloc
  have hread₃ : mem₃.read r = Int.sqrt (mem.read d * u) := by
    rw [hmem₃, hr₂.read_alloc, hread₂]
  -- a cell of the caller is none of the two new ones
  have hold : ∀ p, mem.Valid p → p ≠ r ∧ p ≠ check ∧ mem₃.Valid p ∧ mem₃.read p = mem.read p := by
    intro p hp
    have hpr : p ≠ r := hp.ne_alloc
    have hp₂ : mem₂.Valid p := Heap.valid_write.mpr hp.alloc
    refine ⟨hpr, hp₂.ne_alloc, hp₂.alloc, ?_⟩
    rw [hmem₃, hp₂.read_alloc, hmem₂, Heap.read_write_of_ne hpr.symm, hmem₁, hp.read_alloc]
  obtain ⟨hdr, hdcheck, hd₃, hdread₃⟩ := hold d hd
  set mem₄ := mem₃.write d (mem₃.read d * u) with hmem₄
  have hread₄ : mem₄.read r = Int.sqrt (mem.read d * u) := by
    rw [hmem₄, Heap.read_write_of_ne hdr, hread₃]
  have hdread₄ : mem₄.read d = mem.read d * u := by
    rw [hmem₄, hd₃.read_write_self, hdread₃]
  have hcheck₄ : mem₄.read check = Int.sqrt (mem.read d * u) * Int.sqrt (mem.read d * u) := by
    rw [hmem₄, Heap.read_write_of_ne hdcheck, hmem₃, hcheck, Heap.read_alloc_self, hread₂]
  have hr₄ : mem₄.Valid r := Heap.valid_write.mpr hr₃
  rw [hcheck₄, hdread₄, hread₄]
  refine ⟨rfl, ?_, ?_⟩
  · unfold rootUp
    dsimp only
    split_ifs with hlt
    · rw [Heap.Valid.read_write_self, hr₄.read_write_self]
      rw [Heap.valid_write, Heap.valid_write]
      exact hd₃
    · rw [Heap.Valid.read_write_self, hread₄]
      rw [Heap.valid_write]
      exact hd₃
  · intro p hp hpd
    obtain ⟨hpr, -, -, hpread₃⟩ := hold p hp
    split_ifs with hlt
    · rw [Heap.read_write_of_ne hpd.symm, Heap.read_write_of_ne hpr.symm, hmem₄,
        Heap.read_write_of_ne hpd.symm, hpread₃]
    · rw [Heap.read_write_of_ne hpd.symm, hmem₄, Heap.read_write_of_ne hpd.symm, hpread₃]

lemma onClone_eq (f : Heap ℤ → Ref → Result Ref × Heap ℤ) :
    onClone f mem d = f (mem.alloc (mem.read d)).2 (mem.alloc (mem.read d)).1 := rfl

lemma onClone_sqrtMut_neg (h : mem.read d < 0) :
    onClone (sqrtMut u) mem d
      = (.error (.err "cannot take square root of negative number"), (mem.alloc (mem.read d)).2) := by
  rw [onClone_eq, sqrtMut_neg]
  rwa [Heap.read_alloc_self]

lemma onClone_sqrtMut_ok (h : 0 ≤ mem.read d) :
    ∃ r, (onClone (sqrtMut u) mem d).1 = .ok r
      ∧ (onClone (sqrtMut u) mem d).2.read r = rootUp u (mem.read d)
      ∧ ∀ p, mem.Valid p → (onClone (sqrtMut u) mem d).2.read p = mem.read p := by
  have hclone := sqrtMut_ok (u := u) (Heap.valid_alloc_self (h := mem) (a := mem.read d))
    (by rwa [Heap.read_alloc_self])
  rw [Heap.read_alloc_self] at hclone
  obtain ⟨hok, hroot, hkeep⟩ := hclone
  refine ⟨_, hok, hroot, ?_⟩
  intro p hp
  rw [onClone_eq, hkeep p hp.alloc hp.ne_alloc, hp.read_alloc]

/-! ### Monotonic square roots -/

/-- `sqrt` is the square root of decimals with `u` to the unit, rounded up. -/
structure IsMonotonicSqrt (u : ℕ) (sqrt : Heap ℤ → Ref → Result Ref × Heap ℤ) : Prop where
  /-- It fails for negative numbers, and for no others. -/
  returns_iff : ∀ mem d, mem.Valid d → ((∃ r, (sqrt mem d).1 = .ok r) ↔ 0 ≤ mem.read d)
  /-- The result is the least decimal with a square that is not below the argument. -/
  least : ∀ mem d r, mem.Valid d → (sqrt mem d).1 = .ok r →
    IsLeast {x : ℤ | 0 ≤ x ∧ (mem.read d : ℚ) / u ≤ ((x : ℚ) / u) ^ 2} ((sqrt mem d).2.read r)
  monotone : ∀ mem d r mem' d' r', mem.Valid d → mem'.Valid d' →
    (sqrt mem d).1 = .ok r → (sqrt mem' d').1 = .ok r' → mem.read d ≤ mem'.read d' →
    (sqrt mem d).2.read r ≤ (sqrt mem' d').2.read r'
  /-- A square has its root. -/
  exact : ∀ mem d r (x : ℤ), mem.Valid d → (sqrt mem d).1 = .ok r → 0 ≤ x →
    (mem.read d : ℚ) / u = ((x : ℚ) / u) ^ 2 → (sqrt mem d).2.read r = x
  /-- The argument, and whatever else the caller holds, is left as it is. -/
  keeps : ∀ mem d p, mem.Valid d → mem.Valid p → (sqrt mem d).2.read p = mem.read p

/-- A result comes from an argument that is not negative, and is its root. -/
lemma onClone_sqrtMut_result (h : (onClone (sqrtMut u) mem d).1 = .ok r) :
    0 ≤ mem.read d ∧ (onClone (sqrtMut u) mem d).2.read r = rootUp u (mem.read d) := by
  rcases lt_or_ge (mem.read d) 0 with hneg | hnonneg
  · rw [onClone_sqrtMut_neg hneg] at h
    cases h
  · obtain ⟨r', hok, hroot, -⟩ := onClone_sqrtMut_ok (u := u) hnonneg
    rw [hok] at h
    cases h
    exact ⟨hnonneg, hroot⟩

lemma isMonotonicSqrt_onClone (hu : 0 < u) : IsMonotonicSqrt u (onClone (sqrtMut u)) where
  returns_iff mem d hd := by
    constructor
    · rintro ⟨r, h⟩
      exact (onClone_sqrtMut_result h).1
    · intro h
      obtain ⟨r, hok, -⟩ := onClone_sqrtMut_ok (u := u) h
      exact ⟨r, hok⟩
  least mem d r hd h := by
    obtain ⟨hnonneg, hroot⟩ := onClone_sqrtMut_result h
    rw [hroot]
    exact rootUp_isLeast hu hnonneg
  monotone mem d r mem' d' r' hd hd' h h' hle := by
    obtain ⟨hnonneg, hroot⟩ := onClone_sqrtMut_result h
    obtain ⟨-, hroot'⟩ := onClone_sqrtMut_result h'
    rw [hroot, hroot']
    exact rootUp_mono hnonneg hle
  exact mem d r x hd h hx hsq := by
    rw [(onClone_sqrtMut_result h).2]
    exact rootUp_eq_of_sq hu hx hsq
  keeps mem d p hd hp := by
    rcases lt_or_ge (mem.read d) 0 with hneg | hnonneg
    · rw [onClone_sqrtMut_neg hneg]
      exact hp.read_alloc
    · obtain ⟨-, -, -, hkeep⟩ := onClone_sqrtMut_ok (u := u) hnonneg
      exact hkeep p hp

/-- With 18 and with 36 digits. -/
theorem monotonic_square_roots :
    IsMonotonicSqrt Dec.unit monotonicSqrt ∧ IsMonotonicSqrt BigDec.unit monotonicSqrtBigDec :=
  ⟨isMonotonicSqrt_onClone (by norm_num [Dec.unit]),
    isMonotonicSqrt_onClone (by norm_num [BigDec.unit])⟩

/-- The root of two, and the argument afterwards; the mutative version overwrites it. -/
example :
    let mem : Heap ℤ := ⟨[2 * Dec.unit]⟩
    (monotonicSqrt mem 0).2.cells
        = [2 * Dec.unit, 1414213562373095049, 1414213562373095049, 1414213562373095048 ^ 2]
      ∧ (monotonicSqrtMut mem 0).2.read 0 = 1414213562373095049 := by
  decide +kernel

end MaanyDex.Osmomath
