/-
Rounding in fixed-point arithmetic.

A fixed-point number with unit `p` is an integer that counts `p`-ths.  A product of
two such numbers counts `p * p`-ths and has to be brought back to the unit; so has an
integer quotient that was widened beforehand.  `nearest p` does this by rounding to
the nearest, ties to even; truncation is `Int.tdiv`.  Both agree with the exact value
on multiples of the unit (`nearest_mul_self`) and are monotone (`nearest_mono`), and
this is all that bounds on rounded formulas need: a rounded quotient by at most one
does not shrink a whole number (`le_quo_of_le_unit`), and a rounded product with a
number below one stays below the other factor (`mul_le_of_le_unit`).
-/
import Mathlib

namespace FixedPoint

/-- `n / p`, rounded to the nearest, ties to even. -/
def nearestNat (p n : ℕ) : ℕ :=
  if n % p = 0 then n / p
  else if n % p < p / 2 then n / p
  else if p / 2 < n % p then n / p + 1
  else if n / p % 2 = 0 then n / p
  else n / p + 1

/-- `d / p`, rounded to the nearest, ties to even; symmetric about zero. -/
def nearest (p : ℕ) (d : ℤ) : ℤ :=
  if d < 0 then -(nearestNat p d.natAbs : ℤ) else nearestNat p d.natAbs

/-- The product of two numbers with unit `p`. -/
def mul (p : ℕ) (a b : ℤ) : ℤ := nearest p (a * b)

/-- The quotient of two numbers with unit `p`, widened twice before it is rounded. -/
def quo (p : ℕ) (a b : ℤ) : ℤ := nearest p ((a * (p * p)).tdiv b)

/-- The least whole number of units that is not below `d`, for `d` of either sign. -/
def ceil (p : ℕ) (d : ℤ) : ℤ := if 0 < d.tmod p then d.tdiv p + 1 else d.tdiv p

variable {p : ℕ}

/-! ### Rounding to the nearest -/

lemma le_nearestNat (p n : ℕ) : n / p ≤ nearestNat p n := by
  unfold nearestNat
  split_ifs <;> omega

lemma nearestNat_le (p n : ℕ) : nearestNat p n ≤ n / p + 1 := by
  unfold nearestNat
  split_ifs <;> omega

lemma nearestNat_mul_self (hp : 0 < p) (n : ℕ) : nearestNat p (n * p) = n := by
  rw [nearestNat, if_pos (Nat.mul_mod_left n p), Nat.mul_div_cancel n hp]

lemma nearestNat_mono {n m : ℕ} (h : n ≤ m) : nearestNat p n ≤ nearestNat p m := by
  rcases (Nat.div_le_div_right h : n / p ≤ m / p).lt_or_eq with hlt | heq
  · -- different quotients: the next whole number lies between
    calc nearestNat p n ≤ n / p + 1 := nearestNat_le p n
      _ ≤ m / p := hlt
      _ ≤ nearestNat p m := le_nearestNat p m
  · -- the same quotient: the remainders are ordered
    have hn := Nat.div_add_mod n p
    have hm := Nat.div_add_mod m p
    have hmod : n % p ≤ m % p := by
      rw [heq] at hn
      omega
    unfold nearestNat
    rw [heq]
    split_ifs <;> omega

variable {d : ℤ}

lemma nearest_of_nonneg (h : 0 ≤ d) : nearest p d = nearestNat p d.natAbs := if_neg (not_lt.mpr h)

lemma nearest_natCast (n : ℕ) : nearest p n = nearestNat p n := by
  rw [nearest_of_nonneg (Int.natCast_nonneg n), Int.natAbs_natCast]

lemma nearest_neg (d : ℤ) : nearest p (-d) = -nearest p d := by
  rcases lt_trichotomy d 0 with h | h | h
  · rw [nearest, if_neg (by omega), nearest, if_pos h, Int.natAbs_neg, neg_neg]
  · subst h
    simp [nearest, nearestNat]
  · rw [nearest, if_pos (by omega), nearest, if_neg (by omega), Int.natAbs_neg]

lemma nearest_nonneg (h : 0 ≤ d) : 0 ≤ nearest p d := by
  rw [nearest_of_nonneg h]
  exact Int.natCast_nonneg _

lemma nearest_nonpos (h : d ≤ 0) : nearest p d ≤ 0 := by
  have h' : 0 ≤ nearest p (-d) := nearest_nonneg (by omega)
  rw [nearest_neg] at h'
  omega

lemma nearest_mul_self (hp : 0 < p) (d : ℤ) : nearest p (d * p) = d := by
  obtain ⟨n, rfl | rfl⟩ := d.eq_nat_or_neg
  · rw [← Nat.cast_mul, nearest_natCast, nearestNat_mul_self hp]
  · rw [neg_mul, nearest_neg, ← Nat.cast_mul, nearest_natCast, nearestNat_mul_self hp]

variable {a b : ℤ}

lemma nearest_mono (h : a ≤ b) : nearest p a ≤ nearest p b := by
  rcases lt_or_ge a 0 with ha | ha
  · rcases lt_or_ge b 0 with hb | hb
    · rw [nearest, if_pos ha, nearest, if_pos hb]
      have := nearestNat_mono (p := p) (show b.natAbs ≤ a.natAbs by omega)
      omega
    · exact (nearest_nonpos ha.le).trans (nearest_nonneg hb)
  · rw [nearest_of_nonneg ha, nearest_of_nonneg (ha.trans h)]
    exact_mod_cast nearestNat_mono (show a.natAbs ≤ b.natAbs by omega)

/-- When a rounded number is above `t`: from half a unit above `t` on, and at the half itself if
`t` is odd. -/
lemma lt_nearestNat_iff (hp : 0 < p) (heven : Even p) {t n : ℕ} :
    t < nearestNat p n ↔ t * p + p / 2 + (if t % 2 = 0 then 1 else 0) ≤ n := by
  obtain ⟨i, rfl⟩ := heven
  have hi : 0 < i := by omega
  have hn := Nat.div_add_mod n (i + i)
  have hlt := Nat.mod_lt n hp
  have hle := le_nearestNat (i + i) n
  have hup := nearestNat_le (i + i) n
  have hhalf : (i + i) / 2 = i := by omega
  rw [hhalf]
  rcases lt_trichotomy (n / (i + i)) t with hq | hq | hq
  · have hmul : (i + i) * (n / (i + i) + 1) ≤ (i + i) * t := Nat.mul_le_mul_left _ hq
    rw [Nat.mul_add, mul_comm _ t] at hmul
    constructor
    · omega
    · intro h
      exfalso
      split_ifs at h <;> omega
  · -- the whole part is `t`, and the rest decides
    subst hq
    rw [mul_comm] at hn
    unfold nearestNat
    rw [hhalf]
    split_ifs <;> omega
  · have hmul : (i + i) * (t + 1) ≤ (i + i) * (n / (i + i)) := Nat.mul_le_mul_left _ hq
    rw [Nat.mul_add, mul_comm _ t] at hmul
    constructor
    · intro _
      split_ifs <;> omega
    · omega

/-- The distance to an even number is rounded to the distance of the rounded number. -/
lemma nearestNat_sub {m n : ℕ} (heven : Even p) (hm : Even m) (h : n ≤ m * p) (hp : 0 < p) :
    nearestNat p (m * p - n) + nearestNat p n = m := by
  obtain ⟨i, rfl⟩ := heven
  obtain ⟨j, rfl⟩ := hm
  have hn := Nat.div_add_mod n (i + i)
  have hlt := Nat.mod_lt n hp
  have hq : n / (i + i) ≤ j + j := by
    calc n / (i + i) ≤ (j + j) * (i + i) / (i + i) := Nat.div_le_div_right h
      _ = j + j := Nat.mul_div_cancel _ hp
  generalize hqd : n / (i + i) = q at *
  generalize hrd : n % (i + i) = r at *
  rcases Nat.eq_zero_or_pos r with hr | hr
  · -- a whole number
    have hsub : (j + j) * (i + i) - n = (j + j - q) * (i + i) := by
      rw [Nat.sub_mul, ← hn, hr, add_zero, mul_comm q]
    rw [hsub, nearestNat_mul_self hp, nearestNat, hqd, hrd, if_pos hr]
    omega
  · have hq' : q + 1 ≤ j + j := by
      by_contra hge
      have : q = j + j := by omega
      subst this
      rw [mul_comm] at hn
      omega
    have hsub : (j + j) * (i + i) - n = (i + i - r) + (i + i) * (j + j - (q + 1)) := by
      have hsplit : (j + j) * (i + i) = (i + i) * (q + 1) + (i + i) * (j + j - (q + 1)) := by
        rw [← Nat.mul_add, Nat.add_sub_cancel' hq', mul_comm]
      rw [hsplit, ← hn, Nat.mul_add]
      omega
    have hdiv : ((j + j) * (i + i) - n) / (i + i) = j + j - (q + 1) := by
      rw [hsub, Nat.add_mul_div_left _ _ hp, Nat.div_eq_of_lt (by omega), zero_add]
    have hmod : ((j + j) * (i + i) - n) % (i + i) = i + i - r := by
      rw [hsub, Nat.add_mul_mod_self_left, Nat.mod_eq_of_lt (by omega)]
    unfold nearestNat
    rw [hdiv, hmod, hqd, hrd]
    split_ifs <;> omega

/-! ### Products and quotients -/

lemma quo_nonpos (ha : a ≤ 0) (hb : 0 ≤ b) : quo p a b ≤ 0 := by
  apply nearest_nonpos
  have hn : 0 ≤ (-(a * (p * p))).tdiv b := Int.tdiv_nonneg (by nlinarith [sq_nonneg (p : ℤ)]) hb
  rw [Int.neg_tdiv] at hn
  omega

lemma quo_nonneg (ha : 0 ≤ a) (hb : 0 ≤ b) : 0 ≤ quo p a b :=
  nearest_nonneg (Int.tdiv_nonneg (by positivity) hb)

/-- A quotient of non-negative numbers is at most one when the divisor is the larger. -/
lemma quo_le_unit (hp : 0 < p) (ha : 0 ≤ a) (hab : a ≤ b) (hb : 0 < b) : quo p a b ≤ p := by
  have hle : (a * (p * p)).tdiv b ≤ p * p := by
    rw [Int.tdiv_eq_ediv_of_nonneg (by positivity)]
    apply Int.ediv_le_of_le_mul hb
    nlinarith [mul_le_mul_of_nonneg_right hab (show (0 : ℤ) ≤ p * p by positivity)]
  calc quo p a b ≤ nearest p (p * p) := nearest_mono hle
    _ = p := nearest_mul_self hp p

/-- `D / m` is above `t` after rounding, in integers. -/
def Exceeds (p : ℕ) (t D m : ℤ) : Prop :=
  (t * p + p / 2 + if t % 2 = 0 then 1 else 0) * m ≤ D * (p * p)

instance (t D m : ℤ) : Decidable (Exceeds p t D m) := inferInstanceAs (Decidable (_ ≤ _))

variable {D : ℤ}

lemma exceeds_of_neg (hp : 1 < p) {t m : ℤ} (ht : t < 0) (hD : 0 ≤ D) (hm : 0 < m) :
    Exceeds p t D m := by
  have hbound : t * p + p / 2 + (if t % 2 = 0 then 1 else 0) ≤ 0 := by
    have : t * p ≤ -p := by nlinarith
    split_ifs <;> omega
  have hsquare : 0 ≤ D * ((p : ℤ) * p) := by positivity
  exact (mul_nonpos_of_nonpos_of_nonneg hbound hm.le).trans hsquare

/-- Larger differences and smaller parts exceed more. -/
lemma Exceeds.mono (hp : 1 < p) {t D' m m' : ℤ} (h : Exceeds p t D m) (hD : 0 ≤ D)
    (hDD : D ≤ D') (hm' : 0 < m') (hmm : m' ≤ m) : Exceeds p t D' m' := by
  rcases lt_or_ge t 0 with ht | ht
  · exact exceeds_of_neg hp ht (hD.trans hDD) hm'
  · unfold Exceeds at h ⊢
    have hbound : 0 ≤ t * p + p / 2 + (if t % 2 = 0 then 1 else 0) := by
      have : 0 ≤ t * p := by positivity
      split_ifs <;> omega
    calc (t * p + p / 2 + if t % 2 = 0 then 1 else 0) * m'
        ≤ (t * p + p / 2 + if t % 2 = 0 then 1 else 0) * m := by gcongr
      _ ≤ D * (p * p) := h
      _ ≤ D' * (p * p) := by gcongr

lemma Exceeds.lt (hp : 1 < p) {t m : ℤ} (h : Exceeds p t D m) (hm : 0 < m) : t * m < D * p := by
  unfold Exceeds at h
  have hhalf : (0 : ℤ) < p / 2 := by omega
  have hp' : (0 : ℤ) < p := by omega
  have hround : t * p < t * p + p / 2 + if t % 2 = 0 then 1 else 0 := by
    split_ifs <;> omega
  refine lt_of_mul_lt_mul_right ?_ hp'.le
  calc t * m * p = t * p * m := by ring
    _ < (t * p + p / 2 + if t % 2 = 0 then 1 else 0) * m := by gcongr
    _ ≤ D * (p * p) := h
    _ = D * p * p := by ring

lemma exceeds_of_two_mul_le (hp : 1 < p) {t m : ℤ} (ht : t < 2 * p) (hm : 0 < m)
    (hD : 2 * m ≤ D) : Exceeds p t D m := by
  unfold Exceeds
  have hbound : t * p + p / 2 + (if t % 2 = 0 then 1 else 0) ≤ 2 * (p * p) := by
    have : t * p ≤ 2 * (p * p) - p := by nlinarith
    split_ifs <;> omega
  calc (t * p + p / 2 + if t % 2 = 0 then 1 else 0) * m
      ≤ 2 * (p * p) * m := by gcongr
    _ = 2 * m * (p * p) := by ring
    _ ≤ D * (p * p) := by gcongr

lemma lt_quo_iff_exceeds (hp : 1 < p) (heven : Even p) {t : ℤ} (ha : 0 ≤ a) (hb : 0 < b) :
    t < quo p a b ↔ Exceeds p t a b := by
  rcases lt_or_ge t 0 with ht | ht
  · exact iff_of_true (ht.trans_le (quo_nonneg ha hb.le)) (exceeds_of_neg hp ht ha hb)
  have hN : 0 ≤ a * (p * p) / b := Int.ediv_nonneg (by positivity) hb.le
  rw [quo, Int.tdiv_eq_ediv_of_nonneg (by positivity), Exceeds, ← Int.le_ediv_iff_mul_le hb]
  generalize a * (p * p) / b = N at *
  lift N to ℕ using hN
  lift t to ℕ using ht
  rw [nearest_natCast, Nat.cast_lt, lt_nearestNat_iff (by omega) heven]
  zify

lemma lt_quo_iff (hp : 1 < p) (heven : Even p) {t m : ℤ} (hD : 0 ≤ D)
    (hm : 0 < m) : t < quo p (D * p) (m * p) ↔ Exceeds p t D m := by
  have hp' : (0 : ℤ) < p := by omega
  rw [lt_quo_iff_exceeds hp heven (by positivity) (by positivity), Exceeds, Exceeds, ← mul_assoc,
    mul_right_comm D, mul_le_mul_iff_of_pos_right hp']

lemma not_exceeds_zero (hp : 1 < p) {t m : ℤ} (ht : 0 ≤ t) (hm : 0 < m) : ¬Exceeds p t 0 m := by
  unfold Exceeds
  have hhalf : (0 : ℤ) < p / 2 := by omega
  have hpos : 0 < t * p + p / 2 + if t % 2 = 0 then 1 else 0 := by
    have : 0 ≤ t * p := by positivity
    split_ifs <;> omega
  rw [zero_mul, not_le]
  positivity

/-- Two parts of a whole are at most the whole, rounded or not: what one gains the other
loses. -/
lemma quo_add_quo_le (hp : 0 < p) (heven : Even p) {t : ℤ} (ha : 0 ≤ a) (hb : 0 ≤ b)
    (ht : 0 < t) (hab : a + b ≤ t) : quo p a t + quo p b t ≤ p := by
  have hwide : ∀ {c : ℤ}, 0 ≤ c → quo p c t = nearestNat p (c * (p * p) / t).toNat := by
    intro c hc
    have hdiv : 0 ≤ c * (p * p) / t := Int.ediv_nonneg (by positivity) ht.le
    rw [quo, Int.tdiv_eq_ediv_of_nonneg (by positivity), ← Int.toNat_of_nonneg hdiv,
      nearest_natCast, Int.toNat_natCast]
  have hsum : a * (p * p) / t + b * (p * p) / t ≤ p * p := by
    have ha' := Int.ediv_mul_le (a * (p * p)) ht.ne'
    have hb' := Int.ediv_mul_le (b * (p * p)) ht.ne'
    have hpp : (0 : ℤ) ≤ p * p := by positivity
    nlinarith
  have ha0 : 0 ≤ a * (p * p) / t := Int.ediv_nonneg (by positivity) ht.le
  have hb0 : 0 ≤ b * (p * p) / t := Int.ediv_nonneg (by positivity) ht.le
  rw [hwide ha, hwide hb]
  generalize a * (p * p) / t = x at *
  generalize b * (p * p) / t = y at *
  have hx : x.toNat ≤ p * p := by omega
  have hround := nearestNat_sub heven heven hx hp
  have hmono := nearestNat_mono (p := p) (show y.toNat ≤ p * p - x.toNat by omega)
  omega

lemma le_quo_of_le_unit (hp : 0 < p) (ha : 0 ≤ a) (hb : 0 < b) (hbp : b ≤ p) : a ≤ quo p a b := by
  have hle : a * p ≤ (a * (p * p)).tdiv b := by
    rw [Int.tdiv_eq_ediv_of_nonneg (by positivity)]
    apply (Int.le_ediv_iff_mul_le hb).mpr
    calc a * p * b ≤ a * p * p := mul_le_mul_of_nonneg_left hbp (by positivity)
      _ = a * (p * p) := by ring
  calc a = nearest p (a * p) := (nearest_mul_self hp a).symm
    _ ≤ quo p a b := nearest_mono hle

lemma quo_le_of_unit_le (hp : 0 < p) (ha : 0 ≤ a) (hbp : p ≤ b) : quo p a b ≤ a := by
  have hb : 0 < b := by omega
  have hle : (a * (p * p)).tdiv b ≤ a * p := by
    rw [Int.tdiv_eq_ediv_of_nonneg (by positivity)]
    apply Int.ediv_le_of_le_mul hb
    calc a * (p * p) = a * p * p := by ring
      _ ≤ a * p * b := mul_le_mul_of_nonneg_left hbp (by positivity)
  calc quo p a b ≤ nearest p (a * p) := nearest_mono hle
    _ = a := nearest_mul_self hp a

lemma abs_nearest_le (hp : 0 < p) (d : ℤ) : |nearest p d| ≤ |d| := by
  have key : ∀ e : ℤ, 0 ≤ e → |nearest p e| ≤ |e| := by
    intro e he
    rw [abs_of_nonneg (nearest_nonneg he), abs_of_nonneg he]
    calc nearest p e ≤ nearest p (e * p) :=
          nearest_mono (le_mul_of_one_le_right he (by exact_mod_cast hp))
      _ = e := nearest_mul_self hp e
  rcases le_total 0 d with hd | hd
  · exact key d hd
  · rw [← abs_neg, ← abs_neg d, ← nearest_neg]
    exact key (-d) (by omega)

lemma abs_quo_le (hp : 0 < p) (hpb : p ≤ b) (a : ℤ) : |quo p a b| ≤ |a| := by
  have key : ∀ e : ℤ, 0 ≤ e → |quo p e b| ≤ |e| := by
    intro e he
    rw [abs_of_nonneg (quo_nonneg he (by omega)), abs_of_nonneg he]
    exact quo_le_of_unit_le hp he hpb
  rcases le_total 0 a with ha | ha
  · exact key a ha
  · have hneg : quo p (-a) b = -quo p a b := by
      rw [quo, neg_mul, Int.neg_tdiv, nearest_neg, quo]
    rw [← abs_neg, ← abs_neg a, ← hneg]
    exact key (-a) (by omega)

lemma lt_quo_of_lt_unit (hp : 0 < p) (ha : p ≤ a) (hb : 0 < b) (hbp : b < p) : a < quo p a b := by
  have ha' : 0 ≤ a := by omega
  have hle : (a + 1) * p ≤ (a * (p * p)).tdiv b := by
    rw [Int.tdiv_eq_ediv_of_nonneg (by positivity)]
    apply (Int.le_ediv_iff_mul_le hb).mpr
    -- `b` is at most `p - 1`, and `(a + 1) * (p - 1)` is at most `a * p`
    have hstep : (a + 1) * b ≤ a * p := by nlinarith
    calc (a + 1) * p * b = (a + 1) * b * p := by ring
      _ ≤ a * p * p := mul_le_mul_of_nonneg_right hstep (by positivity)
      _ = a * (p * p) := by ring
  calc a < a + 1 := lt_add_one a
    _ = nearest p ((a + 1) * p) := (nearest_mul_self hp _).symm
    _ ≤ quo p a b := nearest_mono hle

lemma quo_nonpos_of_neg (ha : 0 ≤ a) (hb : b ≤ 0) : quo p a b ≤ 0 := by
  apply nearest_nonpos
  have hn : 0 ≤ (a * (p * p)).tdiv (-b) := Int.tdiv_nonneg (by positivity) (by omega)
  rw [Int.tdiv_neg] at hn
  omega

lemma ceil_le_iff (hp : 0 < p) {n : ℤ} : ceil p d ≤ n ↔ d ≤ n * p := by
  have hdiv := Int.mul_tdiv_add_tmod d p
  have hlt := Int.tmod_lt_of_pos d (show (0 : ℤ) < p by exact_mod_cast hp)
  have hgt : -(p : ℤ) < d.tmod p := by
    have := Int.tmod_lt_of_pos (-d) (show (0 : ℤ) < p by exact_mod_cast hp)
    rw [Int.neg_tmod] at this
    omega
  have hp' : (0 : ℤ) < p := by exact_mod_cast hp
  unfold ceil
  split
  · constructor <;> intro h <;> nlinarith
  · constructor <;> intro h <;> nlinarith

/-- **Rounding does not cross a whole number.**  A whole number is divided by at most one, rounded
to the nearest and then up; the result is that of rounding the exact quotient up: if that is
above `n`, it is so by a last digit at least. -/
lemma ceil_quo_le_iff (hp : 0 < p) {x n : ℤ} (hx : 0 ≤ x) (hb : 0 < b) (hbp : b ≤ p) :
    ceil p (quo p (x * p) b) ≤ n ↔ x * p ≤ n * b := by
  have hp' : (0 : ℤ) < p := by exact_mod_cast hp
  rw [ceil_le_iff hp, quo, Int.tdiv_eq_ediv_of_nonneg (by positivity)]
  constructor
  · intro hle
    by_contra hlt
    have hstep : n * b + 1 ≤ x * p := not_le.mp hlt
    have hdiv : (n * p + 1) * p ≤ x * p * (p * p) / b := by
      apply (Int.le_ediv_iff_mul_le hb).mpr
      calc (n * p + 1) * p * b = n * b * (p * p) + p * b := by ring
        _ ≤ n * b * (p * p) + p * p := by gcongr
        _ = (n * b + 1) * (p * p) := by ring
        _ ≤ x * p * (p * p) := mul_le_mul_of_nonneg_right hstep (by positivity)
    have hround := nearest_mono (p := p) hdiv
    rw [nearest_mul_self hp] at hround
    omega
  · intro hle
    have hdiv : x * p * (p * p) / b ≤ n * p * p := by
      apply Int.ediv_le_of_le_mul hb
      calc x * p * (p * p) ≤ n * b * (p * p) := mul_le_mul_of_nonneg_right hle (by positivity)
        _ = n * p * p * b := by ring
    have hround := nearest_mono (p := p) hdiv
    rwa [nearest_mul_self hp] at hround

/-- Between a number and the whole number that it is rounded up to, everything is rounded
up to the same. -/
lemma ceil_eq_of_le_of_le (hp : 0 < p) {e : ℤ} (hle : d ≤ e) (hup : e ≤ ceil p d * p) :
    ceil p e = ceil p d := by
  apply le_antisymm
  · exact (ceil_le_iff hp).mpr hup
  · apply (ceil_le_iff hp).mpr
    exact hle.trans ((ceil_le_iff hp).mp le_rfl)

lemma mul_nonneg (ha : 0 ≤ a) (hb : 0 ≤ b) : 0 ≤ mul p a b := nearest_nonneg (Int.mul_nonneg ha hb)

lemma mul_le_of_le_unit (hp : 0 < p) (hap : a ≤ p) (hb : 0 ≤ b) : mul p a b ≤ b := by
  have hle : a * b ≤ b * p := by nlinarith
  calc mul p a b ≤ nearest p (b * p) := nearest_mono hle
    _ = b := nearest_mul_self hp b

lemma mul_whole (hp : 0 < p) (a n : ℤ) : mul p a (n * p) = a * n := by
  rw [mul, ← mul_assoc, nearest_mul_self hp]

/-! ### Rounding errors -/

lemma two_mul_abs_nearestNat_sub_le (hp : 0 < p) (heven : Even p) (n : ℕ) :
    2 * |(nearestNat p n : ℤ) * p - n| ≤ p := by
  obtain ⟨m, rfl⟩ := heven
  have hn := Nat.div_add_mod n (m + m)
  have hlt := Nat.mod_lt n hp
  have hround : nearestNat (m + m) n = n / (m + m) ∧ n % (m + m) ≤ m
      ∨ nearestNat (m + m) n = n / (m + m) + 1 ∧ m ≤ n % (m + m) := by
    unfold nearestNat
    split_ifs <;> omega
  generalize n / (m + m) = q at *
  generalize n % (m + m) = r at *
  have hn' : ((m + m : ℕ) : ℤ) * q + r = n := by exact_mod_cast hn
  rcases hround with ⟨hq, hr⟩ | ⟨hq, hr⟩
  · rw [hq, show (q : ℤ) * ((m + m : ℕ) : ℤ) - n = -(r : ℤ) by rw [← hn']; ring, abs_neg,
      abs_of_nonneg (Int.natCast_nonneg r)]
    omega
  · rw [hq, show ((q + 1 : ℕ) : ℤ) * ((m + m : ℕ) : ℤ) - n = ((m + m : ℕ) : ℤ) - r by
      rw [← hn']; push_cast; ring, abs_of_nonneg (by omega)]
    omega

lemma two_mul_abs_nearest_sub_le (hp : 0 < p) (heven : Even p) (d : ℤ) :
    2 * |nearest p d * p - d| ≤ p := by
  obtain ⟨n, rfl | rfl⟩ := d.eq_nat_or_neg
  · rw [nearest_natCast]
    exact two_mul_abs_nearestNat_sub_le hp heven n
  · rw [nearest_neg, nearest_natCast, show -(nearestNat p n : ℤ) * p - -(n : ℤ)
      = -((nearestNat p n : ℤ) * p - n) by ring, abs_neg]
    exact two_mul_abs_nearestNat_sub_le hp heven n

/-! ### Grids -/

/-- The multiple of `p` that is nearest to `n`. -/
def toGrid (p n : ℕ) : ℕ := nearestNat p n * p

lemma dvd_toGrid (p n : ℕ) : p ∣ toGrid p n := Dvd.intro_left _ rfl

lemma toGrid_of_dvd (hp : 0 < p) {n : ℕ} (h : p ∣ n) : toGrid p n = n := by
  obtain ⟨m, rfl⟩ := h
  rw [toGrid, mul_comm p m, nearestNat_mul_self hp]

lemma toGrid_mono {n m : ℕ} (h : n ≤ m) : toGrid p n ≤ toGrid p m :=
  Nat.mul_le_mul_right p (nearestNat_mono h)

lemma toGrid_le_of_dvd (hp : 0 < p) {n b : ℕ} (hb : p ∣ b) (h : n ≤ b) : toGrid p n ≤ b :=
  (toGrid_mono h).trans_eq (toGrid_of_dvd hp hb)

lemma le_toGrid_of_dvd (hp : 0 < p) {n b : ℕ} (hb : p ∣ b) (h : b ≤ n) : b ≤ toGrid p n :=
  (toGrid_of_dvd hp hb).symm.trans_le (toGrid_mono h)

lemma toGrid_pos_iff (hp : 0 < p) (heven : Even p) {n : ℕ} : 0 < toGrid p n ↔ p < 2 * n := by
  have hhalf : p / 2 * 2 = p := Nat.div_mul_cancel heven.two_dvd
  rw [toGrid, Nat.mul_pos_iff_of_pos_right hp, lt_nearestNat_iff hp heven]
  simp only [Nat.zero_mod, if_true]
  omega

lemma two_mul_abs_toGrid_sub_le (hp : 0 < p) (heven : Even p) (n : ℕ) :
    2 * |(toGrid p n : ℤ) - n| ≤ p := by
  rw [toGrid, Nat.cast_mul]
  exact two_mul_abs_nearestNat_sub_le hp heven n

lemma nearestNat_mul_mul (heven : Even p) {c : ℕ} (hc : 0 < c) (n : ℕ) :
    nearestNat (p * c) (n * c) = nearestNat p n := by
  obtain ⟨i, rfl⟩ := heven
  have hhalf : (i + i) / 2 = i := by omega
  have hhalf' : (i + i) * c / 2 = i * c := by
    rw [← two_mul, mul_assoc, Nat.mul_div_cancel_left _ two_pos]
  unfold nearestNat
  rw [Nat.mul_mod_mul_right, Nat.mul_div_mul_right _ _ hc, hhalf, hhalf']
  simp only [Nat.mul_eq_zero, hc.ne', or_false, Nat.mul_lt_mul_right hc]

/-! ### Rounding up -/

lemma tmod_pos_iff {n : ℤ} : 0 < n.tmod d ↔ 0 < n ∧ ¬d ∣ n := by
  rw [Int.dvd_iff_tmod_eq_zero]
  rcases le_or_gt n 0 with hn | hn
  · have hmod : 0 ≤ (-n).tmod d := Int.tmod_nonneg d (by omega)
    rw [Int.neg_tmod] at hmod
    constructor <;> omega
  · have hmod : 0 ≤ n.tmod d := Int.tmod_nonneg d hn.le
    constructor <;> omega

lemma ceil_div_of_pos {n : ℤ} (hd : 0 < d) :
    ⌈(n : ℚ) / d⌉ = n.tdiv d + if 0 < n ∧ ¬d ∣ n then 1 else 0 := by
  lift d to ℕ using hd.le
  rw [Int.cast_natCast, Rat.ceil_intCast_div_natCast]
  rcases le_or_gt n 0 with hn | hn
  · -- towards zero is upwards
    obtain ⟨m, rfl⟩ : ∃ m, n = -m := ⟨-n, (neg_neg n).symm⟩
    rw [if_neg (by omega), Int.neg_tdiv, neg_neg, Int.tdiv_eq_ediv_of_nonneg (by omega), add_zero]
  · rw [Int.neg_ediv, Int.tdiv_eq_ediv_of_nonneg hn.le, Int.sign_eq_one_of_pos hd]
    split_ifs <;> omega

/-- The truncated quotient is below the exact one if that is positive, and not below it if it is
negative. -/
lemma ceil_div_eq {n : ℤ} (hd : d ≠ 0) :
    ⌈(n : ℚ) / d⌉ = n.tdiv d + if 0 < n * d ∧ ¬d ∣ n then 1 else 0 := by
  rcases lt_or_gt_of_ne hd with hneg | hpos
  · have hflip : (n : ℚ) / d = (-n : ℤ) / (-d : ℤ) := by
      push_cast
      rw [neg_div_neg_eq]
    have hsign : 0 < n * d ↔ 0 < -n := by
      rw [← neg_mul_neg]
      exact mul_pos_iff_of_pos_right (by omega)
    rw [hflip, ceil_div_of_pos (by omega), Int.neg_tdiv, Int.tdiv_neg, neg_neg]
    simp only [hsign, neg_dvd, dvd_neg]
  · have hsign : 0 < n * d ↔ 0 < n := mul_pos_iff_of_pos_right hpos
    rw [ceil_div_of_pos hpos]
    simp only [hsign]

lemma inc_of_pos_eq_ceil_iff {n : ℤ} (hd : d ≠ 0) :
    (if 0 < n.tmod d then n.tdiv d + 1 else n.tdiv d) = ⌈(n : ℚ) / d⌉ ↔ 0 < d ∨ d ∣ n := by
  rw [ceil_div_eq hd]
  simp only [tmod_pos_iff]
  by_cases hdvd : d ∣ n
  · simp [hdvd]
  · have hn : n ≠ 0 := by
      rintro rfl
      exact hdvd (dvd_zero d)
    simp only [hdvd, not_false_eq_true, and_true, or_false]
    rcases lt_or_gt_of_ne hd with hneg | hpos
    · have hsign : 0 < n * d ↔ ¬0 < n := by
        rw [← neg_mul_neg, mul_pos_iff_of_pos_right (by omega)]
        omega
      simp only [hsign]
      split_ifs <;> omega
    · simp only [mul_pos_iff_of_pos_right hpos]
      split_ifs <;> omega

lemma inc_of_ne_eq_ceil_iff {n : ℤ} (hd : d ≠ 0) :
    (if n.tmod d = 0 then n.tdiv d else n.tdiv d + 1) = ⌈(n : ℚ) / d⌉ ↔ 0 ≤ n * d ∨ d ∣ n := by
  rw [ceil_div_eq hd]
  simp only [← Int.dvd_iff_tmod_eq_zero]
  by_cases hdvd : d ∣ n
  · simp [hdvd]
  · have hne : n * d ≠ 0 := by
      refine mul_ne_zero ?_ hd
      rintro rfl
      exact hdvd (dvd_zero d)
    simp only [hdvd, if_false, not_false_eq_true, and_true, or_false]
    split_ifs <;> omega

lemma isLeast_iff {α : Type*} [LE α] (raw : α → ℤ) (hle : ∀ x y, x ≤ y ↔ raw x ≤ raw y)
    (hraw : Function.Surjective raw) {u : ℕ} (hu : 0 < u) {c : ℚ} {q : α} :
    IsLeast {x | c ≤ (raw x : ℚ) / u} q ↔ raw q = ⌈c * u⌉ := by
  have hu' : (0 : ℚ) < u := by exact_mod_cast hu
  constructor
  · rintro ⟨hmem, hleast⟩
    apply le_antisymm
    · obtain ⟨x, hx⟩ := hraw ⌈c * u⌉
      rw [← hx]
      apply (hle q x).mp
      apply hleast
      show c ≤ (raw x : ℚ) / u
      rw [hx, le_div_iff₀ hu']
      exact Int.le_ceil _
    · apply Int.ceil_le.mpr
      exact (le_div_iff₀ hu').mp hmem
  · intro hq
    constructor
    · show c ≤ (raw q : ℚ) / u
      rw [hq, le_div_iff₀ hu']
      exact Int.le_ceil _
    · intro x hx
      apply (hle q x).mpr
      rw [hq]
      apply Int.ceil_le.mpr
      exact (le_div_iff₀ hu').mp hx

/-! ### Blends -/

/-- `r` parts of `p` of the way from `a` to `b`, rounded. -/
def blend (p : ℕ) (r a b : ℤ) : ℤ := a + nearest p (r * (b - a))

@[simp] lemma blend_zero (a b : ℤ) : blend p 0 a b = a := by
  rw [blend, zero_mul, nearest_of_nonneg le_rfl]
  simp [nearestNat]

lemma blend_unit (hp : 0 < p) (a b : ℤ) : blend p p a b = b := by
  rw [blend, mul_comm, nearest_mul_self hp]
  ring

variable {r r' : ℤ}

/-- Blends move towards `b`, upwards or downwards. -/
lemma blend_mono (hr : r ≤ r') :
    (a ≤ b → blend p r a b ≤ blend p r' a b) ∧ (b ≤ a → blend p r' a b ≤ blend p r a b) := by
  constructor
  · intro hab
    have hmul : r * (b - a) ≤ r' * (b - a) := mul_le_mul_of_nonneg_right hr (by omega)
    exact add_le_add_right (nearest_mono hmul) a
  · intro hba
    have hmul : r' * (b - a) ≤ r * (b - a) := mul_le_mul_of_nonpos_right hr (by omega)
    exact add_le_add_right (nearest_mono hmul) a

lemma blend_mem (hp : 0 < p) (hr : 0 ≤ r) (hrp : r ≤ p) :
    min a b ≤ blend p r a b ∧ blend p r a b ≤ max a b := by
  have hlow := blend_mono (p := p) (a := a) (b := b) hr
  have hhigh := blend_mono (p := p) (a := a) (b := b) hrp
  rw [blend_zero] at hlow
  rw [blend_unit hp] at hhigh
  rcases le_total a b with hab | hba
  · rw [min_eq_left hab, max_eq_right hab]
    exact ⟨hlow.1 hab, hhigh.1 hab⟩
  · rw [min_eq_right hba, max_eq_left hba]
    exact ⟨hhigh.2 hba, hlow.2 hba⟩

lemma abs_sub_blend_le (hp : 0 < p) (hr : r ≤ r') (hrp : r' ≤ p) :
    |b - blend p r' a b| ≤ |b - blend p r a b| := by
  have hmove := blend_mono (p := p) (a := a) (b := b) hr
  have hend := blend_mono (p := p) (a := a) (b := b) hrp
  rw [blend_unit hp] at hend
  rcases le_total a b with hab | hba
  · have := hmove.1 hab
    have := hend.1 hab
    rw [abs_of_nonneg (by omega), abs_of_nonneg (by omega)]
    omega
  · have := hmove.2 hba
    have := hend.2 hba
    rw [abs_of_nonpos (by omega), abs_of_nonpos (by omega)]
    omega

lemma two_mul_blend_le (hp : 0 < p) (heven : Even p) (r a b : ℤ) :
    2 * (p * blend p r a b) ≤ 2 * ((p - r) * a + r * b) + p := by
  have herr := two_mul_abs_nearest_sub_le hp heven (r * (b - a))
  have habs := le_abs_self (nearest p (r * (b - a)) * p - r * (b - a))
  have hsplit : p * blend p r a b = nearest p (r * (b - a)) * p - r * (b - a)
      + ((p - r) * a + r * b) := by
    rw [blend]
    ring
  rw [hsplit]
  omega

lemma abs_nearest_div_sub_le (hp : 0 < p) (heven : Even p) (d : ℤ) :
    |(nearest p d : ℝ) - d / p| ≤ 1 / 2 := by
  have hp' : (0 : ℝ) < p := by exact_mod_cast hp
  have h : 2 * |(nearest p d : ℝ) * p - d| ≤ p := by
    exact_mod_cast two_mul_abs_nearest_sub_le hp heven d
  have hscale : |(nearest p d : ℝ) * p - d| = |(nearest p d : ℝ) - d / p| * p := by
    rw [← abs_of_pos hp', ← abs_mul, abs_of_pos hp', sub_mul, div_mul_cancel₀ _ hp'.ne']
  rw [hscale] at h
  nlinarith

lemma abs_mul_div_sub_le (hp : 0 < p) (heven : Even p) (a b : ℤ) :
    |(mul p a b : ℝ) / p - a / p * (b / p)| ≤ 1 / (2 * p) := by
  have hp' : (0 : ℝ) < p := by exact_mod_cast hp
  have h := abs_nearest_div_sub_le hp heven (a * b)
  have hscale : (mul p a b : ℝ) / p - a / p * (b / p)
      = ((nearest p (a * b) : ℝ) - (a * b : ℤ) / p) / p := by
    rw [mul]
    push_cast
    field_simp
  rw [hscale, abs_div, abs_of_pos hp', div_le_iff₀ hp']
  calc |(nearest p (a * b) : ℝ) - (a * b : ℤ) / p| ≤ 1 / 2 := h
    _ = 1 / (2 * p) * p := by field_simp

/-- By how much a quotient is off: not at all if it needs no rounding. -/
noncomputable def quoError (p : ℕ) (a b : ℤ) : ℝ := if b ∣ a * p then 0 else (1 / 2 + 1 / p) / p

lemma quoError_le (a b : ℤ) : quoError p a b ≤ (1 / 2 + 1 / p) / p := by
  unfold quoError
  split
  · positivity
  · exact le_rfl

/-- A quotient is truncated once before it is rounded, so it is off by a little more than
half of the last digit. -/
lemma abs_quo_div_sub_le (hp : 0 < p) (heven : Even p) (ha : 0 ≤ a) (hb : 0 < b) :
    |(quo p a b : ℝ) / p - a / b| ≤ quoError p a b := by
  have hp' : (0 : ℝ) < p := by exact_mod_cast hp
  have hb' : (0 : ℝ) < b := by exact_mod_cast hb
  have htrunc : (a * (p * p)).tdiv b = a * (p * p) / b := Int.tdiv_eq_ediv_of_nonneg (by positivity)
  rw [quo, htrunc]
  unfold quoError
  split
  · -- exact
    rename_i hdvd
    obtain ⟨k, hk⟩ := hdvd
    have hdiv : a * (p * p) / b = k * p := by
      rw [show a * ((p : ℤ) * p) = b * (k * p) by rw [← mul_assoc, hk, mul_assoc]]
      exact Int.mul_ediv_cancel_left _ hb.ne'
    have hk' : (a : ℝ) * p = b * k := by exact_mod_cast hk
    rw [hdiv, nearest_mul_self hp, show (k : ℝ) / p - a / b = (b * k - a * p) / (b * p) by
      field_simp, ← hk', sub_self, zero_div, abs_zero]
  · have hmod := Int.emod_nonneg (a * (p * p)) hb.ne'
    have hlt := Int.emod_lt_of_pos (a * (p * p)) hb
    have hdiv := Int.mul_ediv_add_emod (a * (p * p)) b
    generalize a * (p * p) / b = n at *
    generalize a * (p * p) % b = r at *
    have hdiv' : (b : ℝ) * n + r = a * (p * p) := by exact_mod_cast hdiv
    have hr : (0 : ℝ) ≤ r / b := div_nonneg (by exact_mod_cast hmod) hb'.le
    have hr' : (r : ℝ) / b ≤ 1 := by
      rw [div_le_one hb']
      exact_mod_cast hlt.le
    have hround := abs_nearest_div_sub_le hp heven n
    have hsplit : (nearest p n : ℝ) / p - a / b = ((nearest p n : ℝ) - n / p) / p - r / b / p / p := by
      have ha' : (a : ℝ) = (b * n + r) / (p * p) := by
        rw [hdiv']
        field_simp
      rw [ha']
      field_simp
      ring
    calc |(nearest p n : ℝ) / p - a / b|
        ≤ |((nearest p n : ℝ) - n / p) / p| + |(r : ℝ) / b / p / p| := by
          rw [hsplit]
          exact abs_sub _ _
      _ ≤ (1 / 2) / p + 1 / p / p := by
          rw [abs_div, abs_of_pos hp', abs_of_nonneg (show (0 : ℝ) ≤ r / b / p / p by positivity)]
          gcongr
      _ = (1 / 2 + 1 / p) / p := by ring

end FixedPoint
