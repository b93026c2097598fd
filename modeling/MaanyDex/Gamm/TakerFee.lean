/-
Taker fees forth and back: `CalcTakerFeeExactIn` and `CalcTakerFeeExactOut` of
`x/poolmanager/taker_fee.go`.

With the rate `f`, an amount `g` is left with `⌊g (1 - f)⌋` when the fee is deducted, and `x` is
grossed up to `⌈x / (1 - f)⌉`, although the quotient is rounded to the nearest decimal before it
is rounded up (`FixedPoint.ceil_quo_le_iff`).  Hence

    x ≤ ⌊g (1 - f)⌋  ↔  x ≤ g (1 - f)  ↔  ⌈x / (1 - f)⌉ ≤ g,

and grossing up is the adjoint of deducting, as long as the decimals have room for both.
-/
import MaanyDex.Gamm.Routes

namespace MaanyDex.Gamm

open FixedPoint Run
open Dec (unit)

variable {env : Env} {denom : Denom} {takerFee : Dec} {x g : ℤ}

/-! ### The two functions -/

/-- A decimal has room for a product of two rates; that of the library has 315 bits. -/
def HasRoom (math : Math) : Prop := 120 ≤ math.maxDecBitLen

lemma HasRoom.lt {math : Math} (h : HasRoom math) {n : ℕ} (hn : n < 2 ^ 120) :
    n < 2 ^ math.maxDecBitLen :=
  hn.trans_le (Nat.pow_le_pow_right (by norm_num) h)

/-- What is left of an amount. -/
def deducted (takerFee : Dec) (g : ℤ) : ℤ := (unit - takerFee.raw) * g / unit

/-- What an amount is grossed up to. -/
def grossed (takerFee : Dec) (x : ℤ) : ℤ :=
  FixedPoint.ceil unit (FixedPoint.quo unit (x * unit) (unit - takerFee.raw))

lemma le_deducted_iff : x ≤ deducted takerFee g ↔ x * unit ≤ (unit - takerFee.raw) * g :=
  Int.le_ediv_iff_mul_le (by decide)

lemma deducted_nonneg (hlt : takerFee.raw < unit) (hg : 0 ≤ g) : 0 ≤ deducted takerFee g :=
  le_deducted_iff.mpr (by rw [zero_mul]; exact Int.mul_nonneg (by omega) hg)

lemma deducted_le (hnonneg : 0 ≤ takerFee.raw) (hg : 0 ≤ g) : deducted takerFee g ≤ g := by
  apply Int.ediv_le_of_le_mul (by decide)
  nlinarith

section

variable (hnonneg : 0 ≤ takerFee.raw) (hlt : takerFee.raw < unit)
include hnonneg hlt

/-- **Grossing up is adjoint to deducting.** -/
lemma grossed_le_iff (hx : 0 ≤ x) : grossed takerFee x ≤ g ↔ x ≤ deducted takerFee g := by
  rw [le_deducted_iff, mul_comm _ g]
  exact ceil_quo_le_iff Dec.unit_pos hx (by omega) (by omega)

lemma le_grossed (hx : 0 ≤ x) : x ≤ grossed takerFee x := by
  by_contra hgt
  have hx' := (grossed_le_iff hnonneg hlt hx).mp (show grossed takerFee x ≤ x - 1 by omega)
  rcases eq_or_lt_of_le hx with rfl | hpos
  · rw [le_deducted_iff] at hx'
    nlinarith
  · have := deducted_le (g := x - 1) hnonneg (by omega)
    omega

variable (hroom : HasRoom env.math)
include hroom

lemma takerFeeFactor_eq_ok : Dec.sub env.math Dec.one takerFee = .ok ⟨unit - takerFee.raw⟩ := by
  apply if_pos
  apply hroom.lt
  show (((unit : ℕ) : ℤ) - takerFee.raw).natAbs < 2 ^ 120
  have hunit : unit < 2 ^ 120 := by decide
  omega

lemma calcTakerFeeExactIn_eq (hg : 0 ≤ g) (hint : g < 2 ^ 256) :
    calcTakerFeeExactIn env ⟨denom, g⟩ takerFee
      = if (unit - takerFee.raw) * g < 2 ^ env.math.maxDecBitLen then
          .ok (⟨denom, deducted takerFee g⟩, ⟨denom, g - deducted takerFee g⟩)
        else .error (.panic "Int overflow") := by
  have hprod : 0 ≤ (unit - takerFee.raw) * g := Int.mul_nonneg (by omega) hg
  have hzero := deducted_nonneg hlt hg
  have hle := deducted_le hnonneg hg
  have hnat : ((unit - takerFee.raw) * g).natAbs < 2 ^ env.math.maxDecBitLen
      ↔ (unit - takerFee.raw) * g < 2 ^ env.math.maxDecBitLen := by
    zify
    rw [abs_of_nonneg hprod]
  unfold calcTakerFeeExactIn
  rw [takerFeeFactor_eq_ok hnonneg hlt hroom, ok_bind]
  by_cases hfits : (unit - takerFee.raw) * g < 2 ^ env.math.maxDecBitLen
  · have hafter : Dec.truncateInt ⟨(unit - takerFee.raw) * g⟩ = .ok (deducted takerFee g) := by
      rw [Dec.truncateInt, Int.tdiv_eq_ediv_of_nonneg hprod]
      exact checkedInt_eq_ok (show (deducted takerFee g).natAbs < 2 ^ 256 by omega)
    have hfee : checkedInt (g - deducted takerFee g) = .ok (g - deducted takerFee g) :=
      checkedInt_eq_ok (by omega)
    rw [if_pos hfits, Dec.mulInt_eq_ok (hnat.mpr hfits), ok_bind, hafter, ok_bind]
    show (checkedInt (g - deducted takerFee g) >>= _) = _
    rw [hfee, ok_bind]
  · rw [if_neg hfits, Dec.mulInt_eq_error (mt hnat.mp hfits), error_bind]

lemma calcTakerFeeExactOut_eq (hx : 0 ≤ x) :
    calcTakerFeeExactOut env ⟨denom, x⟩ takerFee
      = if quo unit (x * unit) (unit - takerFee.raw)
            < 2 ^ env.math.maxDecBitLen ∧ grossed takerFee x < 2 ^ 256 then
          .ok (⟨denom, grossed takerFee x⟩, ⟨denom, grossed takerFee x - x⟩)
        else .error (.panic "Int overflow") := by
  have hle := le_grossed hnonneg hlt hx
  have hne : (unit : ℤ) - takerFee.raw ≠ 0 := by omega
  have hquo : 0 ≤ quo unit (x * unit) (unit - takerFee.raw) :=
    quo_nonneg (Int.mul_nonneg hx (by decide)) (by omega)
  unfold calcTakerFeeExactOut
  rw [takerFeeFactor_eq_ok hnonneg hlt hroom, ok_bind, Dec.quo, if_neg hne]
  show (Dec.checked env.math (quo unit (x * unit) (unit - takerFee.raw)) >>= _) = _
  have hceil : ∀ d : Dec, d.ceil.truncateInt = checkedInt (ceil unit d.raw) := by
    intro d
    rw [Dec.truncateInt, Dec.ceil, Int.mul_tdiv_cancel _ (by decide)]
  by_cases hfits : quo unit (x * unit) (unit - takerFee.raw) < 2 ^ env.math.maxDecBitLen
  · rw [Dec.checked, if_pos (by zify; rwa [abs_of_nonneg hquo]), ok_bind, hceil]
    show (checkedInt (grossed takerFee x) >>= _) = _
    by_cases hint : grossed takerFee x < 2 ^ 256
    · rw [if_pos ⟨hfits, hint⟩, checkedInt_eq_ok (by omega), ok_bind]
      show (checkedInt (grossed takerFee x - x) >>= _) = _
      rw [checkedInt_eq_ok (by omega), ok_bind]
    · rw [if_neg (fun h => hint h.2), checkedInt, if_neg (by omega), error_bind]
  · rw [Dec.checked, if_neg (by zify; rwa [abs_of_nonneg hquo]), if_neg (fun h => hfits h.1),
      error_bind]

/-- Where grossing up does not overflow, neither does deducting from the result. -/
lemma deducting_grossed_fits (hx : 0 ≤ x)
    (hfits : quo unit (x * unit) (unit - takerFee.raw) < 2 ^ env.math.maxDecBitLen) :
    (unit - takerFee.raw) * grossed takerFee x < 2 ^ env.math.maxDecBitLen := by
  have hsmall : (unit : ℤ) * unit < 2 ^ env.math.maxDecBitLen := by
    exact_mod_cast hroom.lt (n := unit * unit) (by decide)
  have hle : x * unit ≤ quo unit (x * unit) (unit - takerFee.raw) :=
    le_quo_of_le_unit Dec.unit_pos (Int.mul_nonneg hx (by decide)) (by omega) (by omega)
  -- one less than the gross amount is not enough, neither for the quotient nor for `x`
  have hquo : (grossed takerFee x - 1) * unit < quo unit (x * unit) (unit - takerFee.raw) := by
    by_contra hge
    have := (ceil_le_iff Dec.unit_pos).mpr (not_lt.mp hge)
    rw [← grossed] at this
    omega
  have hleast : (grossed takerFee x - 1) * (unit - takerFee.raw) < x * unit := by
    by_contra hge
    rw [mul_comm, not_lt, ← le_deducted_iff, ← grossed_le_iff hnonneg hlt hx] at hge
    omega
  have hzero : 0 ≤ grossed takerFee x := hx.trans (le_grossed hnonneg hlt hx)
  generalize quo unit (x * unit) (unit - takerFee.raw) = r at *
  have hunit := Dec.unit_pos_int
  rcases eq_or_lt_of_le hnonneg with hfree | hfee
  · -- without a fee nothing is added
    have hx' : grossed takerFee x ≤ x := by
      rw [grossed_le_iff hnonneg hlt hx, le_deducted_iff, ← hfree]
      exact le_of_eq (by ring)
    rw [← hfree, sub_zero]
    nlinarith
  · rcases le_or_gt ((unit - 1 : ℤ) * (unit - 1)) r with hbig | hlow
    · refine lt_of_le_of_lt ?_ hfits
      have hfactor : (unit - takerFee.raw) * (grossed takerFee x * unit)
          ≤ (unit - 1) * (r + (unit - 1)) :=
        mul_le_mul (by omega) (by linarith) (by positivity) (by omega)
      nlinarith
    · nlinarith

/-- **Grossing up gives the least amount** of which the deduction leaves `x`, and in both functions
the fee and the net amount add up to the gross amount, whenever they return; and they do exactly if
the decimal product or quotient and the gross amount fit. -/
theorem taker_fee_gross_up (hx : 0 ≤ x) (hint : x < 2 ^ 256) :
    ((∃ r, calcTakerFeeExactOut env ⟨denom, x⟩ takerFee = .ok r)
        ↔ FixedPoint.quo unit (x * unit) (unit - takerFee.raw)
            < 2 ^ env.math.maxDecBitLen
          ∧ x * unit ≤ (2 ^ 256 - 1) * (unit - takerFee.raw))
    ∧ (∀ gross fee, calcTakerFeeExactOut env ⟨denom, x⟩ takerFee = .ok (gross, fee) →
        gross.denom = denom ∧ fee.denom = denom
          ∧ IsLeast {g | 0 ≤ g ∧ g < 2 ^ 256 ∧ ∃ after fee,
              calcTakerFeeExactIn env ⟨denom, g⟩ takerFee = .ok (after, fee) ∧ x ≤ after.amount}
            gross.amount
          ∧ 0 ≤ fee.amount ∧ x + fee.amount = gross.amount)
    ∧ ((∃ r, calcTakerFeeExactIn env ⟨denom, x⟩ takerFee = .ok r)
        ↔ (unit - takerFee.raw) * x < 2 ^ env.math.maxDecBitLen)
    ∧ ∀ after fee, calcTakerFeeExactIn env ⟨denom, x⟩ takerFee = .ok (after, fee) →
        after.denom = denom ∧ fee.denom = denom ∧ 0 ≤ after.amount ∧ 0 ≤ fee.amount
          ∧ after.amount + fee.amount = x := by
  have hout : calcTakerFeeExactOut env ⟨denom, x⟩ takerFee = _ :=
    calcTakerFeeExactOut_eq hnonneg hlt hroom hx
  have hin : ∀ {g : ℤ}, 0 ≤ g → g < 2 ^ 256 → calcTakerFeeExactIn env ⟨denom, g⟩ takerFee = _ :=
    fun hg hg' => calcTakerFeeExactIn_eq hnonneg hlt hroom hg hg'
  have hadj : ∀ {g : ℤ}, grossed takerFee x ≤ g ↔ x ≤ deducted takerFee g :=
    grossed_le_iff hnonneg hlt hx
  have hgross := le_grossed hnonneg hlt hx
  refine ⟨?_, ?_, ?_, ?_⟩
  · have hiff : grossed takerFee x < 2 ^ 256
        ↔ x * unit ≤ (2 ^ 256 - 1) * (unit - takerFee.raw) := by
      rw [mul_comm (2 ^ 256 - 1 : ℤ), ← le_deducted_iff, ← hadj]
      omega
    rw [hout, ← hiff]
    exact exists_ite_ok
  · intro gross fee h
    rw [hout] at h
    split at h
    · rename_i hfits
      cases h
      have hself := hin (hx.trans hgross) hfits.2
      rw [if_pos (deducting_grossed_fits hnonneg hlt hroom hx hfits.1)] at hself
      refine ⟨rfl, rfl, ⟨⟨hx.trans hgross, hfits.2, _, _, hself, hadj.mp le_rfl⟩, ?_⟩,
        sub_nonneg.mpr hgross, add_sub_cancel _ _⟩
      rintro g ⟨hg, hg', after, fee, hafter, hle⟩
      rw [hin hg hg'] at hafter
      split at hafter
      · cases hafter
        exact hadj.mpr hle
      · cases hafter
    · cases h
  · rw [hin hx hint]
    exact exists_ite_ok
  · intro after fee h
    rw [hin hx hint] at h
    split at h
    · cases h
      exact ⟨rfl, rfl, deducted_nonneg hlt hx, sub_nonneg.mpr (deducted_le hnonneg hx),
        add_sub_cancel _ _⟩
    · cases h

end

/-- A tenth is taken of 112 to leave 100. -/
theorem taker_fee_gross_up_tenth :
    ∃ gross fee, calcTakerFeeExactOut chainEnv ⟨ascii "foo", 100⟩ ⟨10 ^ 17⟩ = .ok (gross, fee)
      ∧ gross.amount = 112
      ∧ IsLeast {g | 0 ≤ g ∧ g < 2 ^ 256 ∧ ∃ after fee,
          calcTakerFeeExactIn chainEnv ⟨ascii "foo", g⟩ ⟨10 ^ 17⟩ = .ok (after, fee)
            ∧ 100 ≤ after.amount} gross.amount := by
  have h : calcTakerFeeExactOut chainEnv ⟨ascii "foo", 100⟩ ⟨10 ^ 17⟩
      = .ok (⟨ascii "foo", 112⟩, ⟨ascii "foo", 12⟩) := by decide +kernel
  obtain ⟨-, hleast, -, -⟩ := @taker_fee_gross_up chainEnv (ascii "foo") ⟨10 ^ 17⟩ 100
    (by decide) (by decide) (by show 120 ≤ 315; decide) (by decide) (by decide)
  exact ⟨_, _, h, rfl, (hleast _ _ h).2.2.1⟩

/-- An amount of 256 bits, of which ten times as much would be needed. -/
theorem gross_up_panics :
    calcTakerFeeExactOut chainEnv ⟨ascii "foo", 2 ^ 255⟩ ⟨9 * 10 ^ 17⟩
        = .error (.panic "Int overflow")
      ∧ calcTakerFeeExactIn chainEnv ⟨ascii "foo", 2 ^ 256 - 1⟩ ⟨0⟩
        = .error (.panic "Int overflow") := by
  decide +kernel

end MaanyDex.Gamm
