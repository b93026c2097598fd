/-
Delegating to a set of validators by weight.

The weights of a preference list have to add up to one after rounding to two figures, and each of
them is stored rounded to two figures.  `DelegateToValidatorSet` gives every validator but the last
its weight times the amount, rounded down, and the last one what is left.  Weights that were rounded
up leave less than nothing, and the last call panics (`last_gets_less_than_nothing`).
-/
import MaanyDex.Lib.Bytes
import MaanyDex.Osmomath.SigFig

namespace MaanyDex.ValsetPref

open Osmomath List Run

structure ValidatorPreference where
  valOperAddress : Bytes
  weight : Dec
  deriving DecidableEq

/-- A validator of the staking module. -/
structure Validator where
  tokens : ℤ
  delegatorShares : Dec

/-- What the module takes from the SDK. -/
structure Chain where
  math : Math
  /-- `sdk.AccAddressFromBech32` and `sdk.ValAddressFromBech32` accept the text. -/
  isAccAddress : Bytes → Bool
  isValAddress : Bytes → Bool
  getValidator : Bytes → Option Validator
  /-- The validators and the shares of a delegator. -/
  getDelegatorDelegations : Bytes → List (Bytes × Dec)
  /-- `stakingKeeper.Delegate`, for a delegator who has the tokens and a validator who takes them. -/
  delegate : Bytes → ℤ → Result Unit
  delegate_nonneg : ∀ validator amount, 0 ≤ amount → delegate validator amount = .ok ()
  /-- A negative amount is not a coin. -/
  delegate_neg : ∀ validator amount, amount < 0 →
    delegate validator amount = .error (.panic "negative coin amount")

/-- The preferences that are stored, by delegator. -/
abbrev Store := Std.ExtTreeMap Bytes (List ValidatorPreference)

variable (chain : Chain)

/-- `osmomath.SigFigRound(d, 100)`.  The caller's number is not read again. -/
def roundWeight (d : Dec) : Result Dec :=
  match sigFigRound chain.math ⟨[d.raw]⟩ 0 (10 ^ 2 : ℕ) with
  | (.ok r, mem) => .ok ⟨mem.read r⟩
  | (.error e, _) => .error e

/-- A round of the loop in `ValidateBasic`. -/
def addWeight (totalWeight : Dec) (validator : ValidatorPreference) : Result Dec := do
  ensure (chain.isValAddress validator.valOperAddress) (.err "Invalid validator address")
  ensure validator.weight.isPositive (.err "Invalid weight, validator weight needs to be positive")
  totalWeight.add chain.math validator.weight

def validateBasic (delegator : Bytes) (preferences : List ValidatorPreference) : Result Unit := do
  ensure (chain.isAccAddress delegator) (.err "Invalid delegator address")
  let totalWeight ← preferences.foldlM (addWeight chain) .zero
  ensure (preferences.map ValidatorPreference.valOperAddress).Nodup
    (.err "The validator operator address are duplicated")
  let roundedValue ← roundWeight chain totalWeight
  ensure (roundedValue = .one) (.err "The weights allocated to the validators do not add up to 1")

def getValAddrAndVal (valOperAddress : Bytes) : Result Validator := do
  ensure (chain.isValAddress valOperAddress) (.err "validator address not formatted")
  match chain.getValidator valOperAddress with
  | some validator => .ok validator
  | none => .error (.errf "validator not found %s" valOperAddress)

def Validator.tokensFromShares (validator : Validator) (shares : Dec) : Result Dec := do
  let product ← shares.mulInt chain.math validator.tokens
  product.quo chain.math validator.delegatorShares

variable (preferences : List ValidatorPreference)

def isPreferenceValid : Result (List ValidatorPreference) :=
  preferences.mapM fun val => do
    let weight ← roundWeight chain val.weight
    let _ ← getValAddrAndVal chain val.valOperAddress
    pure ⟨val.valOperAddress, weight⟩

/-- `sort.Slice` by address. -/
def sortByAddress : List ValidatorPreference :=
  preferences.mergeSort fun a b => (compare a.valOperAddress b.valOperAddress).isLE

variable (existing : Option (List ValidatorPreference)) (preferences : List ValidatorPreference)

/-- The comparison with the stored set.  `IsValidatorSetEqual` sorts two sets of the same length
where they are. -/
def differFrom : Result (List ValidatorPreference) :=
  match existing with
  | none => .ok preferences
  | some old =>
    if old.length ≠ preferences.length then .ok preferences
    else if old ≠ [] ∧ sortByAddress old = sortByAddress preferences then
      .error (.err "the preferences (validator and weights) are the same")
    else .ok (sortByAddress preferences)

def validateValidatorSetPreference : Result (List ValidatorPreference) := do
  let preferences ← differFrom existing preferences
  (isPreferenceValid chain preferences).mapError fun
    | .panic msg => .panic msg
    | _ => .err "the validator preference list is not valid"

/-- `MsgSetValidatorSetPreference`. -/
def setValidatorSetPreference (s : Store) (delegator : Bytes)
    (preferences : List ValidatorPreference) : Result Store := do
  let preferences ← validateValidatorSetPreference chain s[delegator]? preferences
  pure (s.insert delegator preferences)

/-- The weights of existing delegations are their parts of the tokens. -/
def formatToValPrefArr (delegations : List (Bytes × Dec)) : Result (List ValidatorPreference) := do
  let tokens ← delegations.mapM fun delegation => do
    let validator ← getValAddrAndVal chain delegation.1
    validator.tokensFromShares chain delegation.2
  let totalTokens ← tokens.foldlM (Dec.add chain.math) Dec.zero
  (delegations.zip tokens).mapM fun (delegation, amount) => do
    pure ⟨delegation.1, ← amount.quo chain.math totalTokens⟩

def getDelegationPreferences (s : Store) (delegator : Bytes) :
    Result (List ValidatorPreference) := do
  match s[delegator]? with
  | some valSet => .ok valSet
  | none =>
    ensure (chain.isAccAddress delegator) (.err "decoding bech32 failed")
    let existingDelegations := chain.getDelegatorDelegations delegator
    ensure (existingDelegations ≠ []) (.err "No existing delegation")
    formatToValPrefArr chain existingDelegations

/-- The amount for a validator, and the running total. -/
def tokenAmount (amount : ℤ) (val : ValidatorPreference) (last : Bool) (totalDelAmt : ℤ) :
    Result (ℤ × ℤ) :=
  if last then do
    let remaining ← checkedInt (amount - totalDelAmt)
    let tokenAmt ← (Dec.ofInt remaining).truncateInt
    pure (tokenAmt, totalDelAmt)
  else do
    let product ← val.weight.mulInt chain.math amount
    let tokenAmt ← product.truncateInt
    pure (tokenAmt, ← checkedInt (totalDelAmt + tokenAmt))

/-- The loop of `DelegateToValidatorSet`, with the calls of `stakingKeeper.Delegate` that it makes. -/
def delegateLoop (amount : ℤ) : List ValidatorPreference → ℤ → Result (List (Bytes × ℤ))
  | [], _ => .ok []
  | val :: rest, totalDelAmt => do
    let _ ← getValAddrAndVal chain val.valOperAddress
    let next ← tokenAmount chain amount val rest.isEmpty totalDelAmt
    chain.delegate val.valOperAddress next.1
    let calls ← delegateLoop amount rest next.2
    pure ((val.valOperAddress, next.1) :: calls)

def delegateToValidatorSet (s : Store) (delegator : Bytes) (amount : ℤ) :
    Result (List (Bytes × ℤ)) := do
  let existingSet ← getDelegationPreferences chain s delegator
  ensure (chain.isAccAddress delegator) (.err "decoding bech32 failed")
  delegateLoop chain amount existingSet 0

/-! ### What is accepted and stored -/

variable {chain} {s s' : Store} {delegator : Bytes} {preferences stored : List ValidatorPreference}

lemma roundWeight_nonneg (hmath : 120 ≤ chain.math.maxDecBitLen) {d r : Dec} (hd : 0 ≤ d.raw)
    (h : roundWeight chain d = .ok r) : 0 ≤ r.raw := by
  obtain ⟨v, hv⟩ := Int.eq_ofNat_of_zero_le hd
  have hread : (⟨[d.raw]⟩ : Heap ℤ).read 0 = v := hv
  unfold roundWeight at h
  split at h
  · rename_i ref mem hround
    cases h
    rcases Nat.eq_zero_or_pos v with rfl | hpos
    · rw [sigFigRound_zero hread] at hround
      cases hround
      exact hread.symm.le
    · have hvalid : (⟨[d.raw]⟩ : Heap ℤ).Valid 0 := Nat.one_pos
      have hresult := sigFigRound_result hmath hvalid hread hpos hround
      show 0 ≤ mem.read ref
      rw [hresult.2.1]
      exact Int.natCast_nonneg _
  · cases h

lemma roundWeight_zero : roundWeight chain .zero = .ok .zero := rfl

lemma weights_pos {start total : Dec} (h : preferences.foldlM (addWeight chain) start = .ok total) :
    ∀ val ∈ preferences, 0 < val.weight.raw := by
  induction preferences generalizing start with
  | nil => simp
  | cons first rest ih =>
    rw [foldlM_cons] at h
    obtain ⟨next, hround, h⟩ := bind_ok h
    obtain ⟨_, _, -, hpositive, -⟩ := bind2_ok hround
    intro val hval
    rcases mem_cons.mp hval with rfl | hval
    · exact of_decide_eq_true (ensure_ok hpositive)
    · exact ih h val hval

lemma validateBasic_ok (h : validateBasic chain delegator preferences = .ok ()) :
    chain.isAccAddress delegator = true ∧ preferences ≠ []
      ∧ ∀ val ∈ preferences, 0 < val.weight.raw := by
  obtain ⟨_, total, haddress, htotal, h⟩ := bind2_ok h
  obtain ⟨_, rounded, -, hrounded, h⟩ := bind2_ok h
  refine ⟨ensure_ok haddress, ?_, weights_pos htotal⟩
  rintro rfl
  cases htotal
  rw [roundWeight_zero] at hrounded
  cases hrounded
  cases ensure_ok h

/-- A preference that can be delegated to. -/
def Usable (chain : Chain) (val : ValidatorPreference) : Prop :=
  (∃ validator, getValAddrAndVal chain val.valOperAddress = .ok validator) ∧ 0 ≤ val.weight.raw

lemma usable_of_isPreferenceValid (hmath : 120 ≤ chain.math.maxDecBitLen)
    (hpos : ∀ val ∈ preferences, 0 < val.weight.raw)
    (h : isPreferenceValid chain preferences = .ok stored) :
    stored.length = preferences.length ∧ ∀ val ∈ stored, Usable chain val := by
  have hall := mapM_ok h
  refine ⟨hall.length_eq.symm, ?_⟩
  clear h
  induction hall with
  | nil => simp
  | @cons given val _ _ hround _ ih =>
    obtain ⟨weight, validator, hweight, hfound, heq⟩ := bind2_ok hround
    cases heq
    intro other hother
    rcases mem_cons.mp hother with rfl | hother
    · exact ⟨⟨validator, hfound⟩, roundWeight_nonneg hmath (hpos given mem_cons_self).le hweight⟩
    · exact ih (fun val hval => hpos val (mem_cons_of_mem _ hval)) other hother

lemma setValidatorSetPreference_ok (hmath : 120 ≤ chain.math.maxDecBitLen)
    (hbasic : validateBasic chain delegator preferences = .ok ())
    (h : setValidatorSetPreference chain s delegator preferences = .ok s') :
    ∃ stored, s'[delegator]? = some stored ∧ stored ≠ [] ∧ ∀ val ∈ stored, Usable chain val := by
  obtain ⟨-, hne, hpos⟩ := validateBasic_ok hbasic
  obtain ⟨stored, hstored, h⟩ := bind_ok h
  cases h
  obtain ⟨given, hgiven, hvalid⟩ := bind_ok hstored
  have hperm : given.Perm preferences := by
    unfold differFrom at hgiven
    split at hgiven
    · cases hgiven
      rfl
    · split_ifs at hgiven
      · cases hgiven
        rfl
      · cases hgiven
        exact mergeSort_perm _ _
  obtain ⟨hlength, husable⟩ := usable_of_isPreferenceValid hmath
    (fun val hval => hpos val (hperm.mem_iff.mp hval)) (mapError_ok hvalid)
  refine ⟨stored, Std.ExtTreeMap.getElem?_insert_self, ?_, husable⟩
  rintro rfl
  rw [length_nil, hperm.length_eq] at hlength
  exact hne (length_eq_zero_iff.mp hlength.symm)

/-! ### What is delegated -/

variable {amount total : ℤ}

/-- What a validator gets, unless it is the last. -/
def portion (amount : ℤ) (val : ValidatorPreference) : ℤ := (val.weight.raw * amount).tdiv Dec.unit

lemma portion_nonneg {val : ValidatorPreference} (hamount : 0 ≤ amount) (hval : Usable chain val) :
    0 ≤ portion amount val :=
  Int.tdiv_nonneg (Int.mul_nonneg hval.2 hamount) (Int.natCast_nonneg _)

/-- The weights of all but the last. -/
def weightBefore (vals : List ValidatorPreference) : ℤ :=
  (vals.dropLast.map fun val => val.weight.raw).sum

lemma weightBefore_cons (val next : ValidatorPreference) (rest : List ValidatorPreference) :
    weightBefore (val :: next :: rest) = val.weight.raw + weightBefore (next :: rest) := by
  rw [weightBefore, dropLast_cons_cons, map_cons, sum_cons, weightBefore]

section Weights

variable (husable : ∀ val ∈ stored, Usable chain val)

include husable

lemma weights_nonneg : ∀ x ∈ stored.dropLast.map fun val => val.weight.raw, 0 ≤ x := by
  intro x hx
  obtain ⟨val, hval, rfl⟩ := mem_map.mp hx
  exact (husable val (mem_of_mem_dropLast hval)).2

lemma weightBefore_nonneg : 0 ≤ weightBefore stored := sum_nonneg (weights_nonneg husable)

lemma le_weightBefore {val : ValidatorPreference} (hval : val ∈ stored.dropLast) :
    val.weight.raw ≤ weightBefore stored :=
  single_le_sum (weights_nonneg husable) _ (mem_map_of_mem hval)

end Weights

/-- The products of the loop are not too long. -/
def Fits (chain : Chain) (amount : ℤ) (vals : List ValidatorPreference) : Prop :=
  ∀ val ∈ vals.dropLast, (val.weight.raw * amount).natAbs < 2 ^ chain.math.maxDecBitLen

lemma delegateLoop_eq_ok (hamount : 0 ≤ amount) (hlt : amount < 2 ^ 256)
    (hfits : Fits chain amount stored) (hne : stored ≠ [])
    (husable : ∀ val ∈ stored, Usable chain val) (htotal : 0 ≤ total)
    (hle : total * Dec.unit + weightBefore stored * amount ≤ amount * Dec.unit) :
    ∃ calls, delegateLoop chain amount stored total = .ok calls
      ∧ calls.map Prod.fst = stored.map ValidatorPreference.valOperAddress
      ∧ (∀ call ∈ calls, 0 ≤ call.2) ∧ (calls.map Prod.snd).sum = amount - total := by
  have hunit := Dec.unit_pos_int
  induction stored generalizing total with
  | nil => exact absurd rfl hne
  | cons val rest ih =>
    obtain ⟨⟨validator, hfound⟩, hweight⟩ := husable val mem_cons_self
    rw [delegateLoop, hfound, ok_bind]
    cases rest with
    | nil =>
      have hle : total ≤ amount := by
        refine le_of_mul_le_mul_right ?_ hunit
        simpa [weightBefore] using hle
      have hrest : checkedInt (amount - total) = .ok (amount - total) := checkedInt_eq_ok (by omega)
      have hlast : tokenAmount chain amount val true total = .ok (amount - total, total) := by
        rw [tokenAmount, if_pos rfl, hrest, ok_bind, Dec.truncateInt_ofInt, hrest]
        rfl
      rw [isEmpty_nil, hlast, ok_bind, chain.delegate_nonneg _ _ (sub_nonneg.mpr hle)]
      exact ⟨_, rfl, rfl, by simpa using hle, by simp⟩
    | cons next rest =>
      have husable' : ∀ v ∈ next :: rest, Usable chain v :=
        fun v hv => husable v (mem_cons_of_mem _ hv)
      obtain ⟨hfit, hfits'⟩ := forall_mem_cons.mp hfits
      have hrest := Int.mul_nonneg (weightBefore_nonneg husable') hamount
      have hproduct := Int.mul_nonneg hweight hamount
      have hportion := portion_nonneg hamount (husable val mem_cons_self)
      have hfloor : portion amount val * Dec.unit ≤ val.weight.raw * amount := by
        rw [portion, Int.tdiv_eq_ediv_of_nonneg hproduct]
        exact Int.ediv_mul_le _ hunit.ne'
      rw [weightBefore_cons, add_mul] at hle
      have hup : total + portion amount val ≤ amount := by
        refine le_of_mul_le_mul_right ?_ hunit
        rw [add_mul]
        omega
      have htoken : tokenAmount chain amount val false total
          = .ok (portion amount val, total + portion amount val) := by
        rw [tokenAmount, if_neg Bool.false_ne_true, Dec.mulInt_eq_ok hfit, ok_bind, Dec.truncateInt]
        show (checkedInt (portion amount val) >>= _) = _
        rw [checkedInt_eq_ok (by omega), ok_bind, checkedInt_eq_ok (by omega)]
        rfl
      obtain ⟨calls, hcalls, haddress, hnonneg, htotals⟩ := ih hfits' (cons_ne_nil _ _)
        husable' (Int.add_nonneg htotal hportion) (by rw [add_mul]; omega)
      rw [isEmpty_cons, htoken, ok_bind, chain.delegate_nonneg _ _ hportion, ok_bind, hcalls]
      refine ⟨_, rfl, ?_, forall_mem_cons.mpr ⟨hportion, hnonneg⟩, ?_⟩
      · rw [map_cons, haddress]
        rfl
      · rw [map_cons, sum_cons, htotals]
        ring

lemma delegateLoop_ok {calls : List (Bytes × ℤ)} (hne : stored ≠ [])
    (h : delegateLoop chain amount stored total = .ok calls) :
    Fits chain amount stored ∧ total + (stored.dropLast.map (portion amount)).sum ≤ amount := by
  induction stored generalizing total calls with
  | nil => exact absurd rfl hne
  | cons val rest ih =>
    obtain ⟨_, next, _, -, hnext, hdelegated, h⟩ := bind3_ok h
    have hle : 0 ≤ next.1 := by
      by_contra hneg
      rw [chain.delegate_neg _ _ (not_le.mp hneg)] at hdelegated
      cases hdelegated
    obtain ⟨later, hlater, -⟩ := bind_ok h
    cases rest with
    | nil =>
      obtain ⟨remaining, tokenAmt, hremaining, hamt, heq⟩ := bind2_ok hnext
      cases heq
      rw [Dec.truncateInt_ofInt] at hamt
      change 0 ≤ tokenAmt at hle
      rw [checkedInt_ok hamt, checkedInt_ok hremaining] at hle
      exact ⟨nofun, by simpa using hle⟩
    | cons val' rest =>
      obtain ⟨product, tokenAmt, sum, hproduct, hamt, hsum, heq⟩ := bind3_ok hnext
      cases heq
      obtain ⟨hfits, hle⟩ := ih (cons_ne_nil _ _) hlater
      have hportion : tokenAmt = portion amount val := by
        rw [Dec.truncateInt_ok hamt, Dec.mulInt_ok hproduct]
        rfl
      constructor
      · refine forall_mem_cons.mpr ⟨?_, hfits⟩
        by_contra hlong
        rw [Dec.mulInt_eq_error hlong] at hproduct
        cases hproduct
      · rw [checkedInt_ok hsum, hportion] at hle
        rw [dropLast_cons_cons, map_cons, sum_cons]
        omega

/-- The calls for all validators give non-negative amounts that add up to the coin. -/
def Delegates (chain : Chain) (s : Store) (delegator : Bytes) (stored : List ValidatorPreference)
    (amount : ℤ) : Prop :=
  ∃ calls, delegateToValidatorSet chain s delegator amount = .ok calls
    ∧ calls.map Prod.fst = stored.map ValidatorPreference.valOperAddress
    ∧ (∀ call ∈ calls, 0 ≤ call.2) ∧ (calls.map Prod.snd).sum = amount

/-- **What is delegated.**  For a preference list that was accepted and stored: all positive amounts
that decimals have room for are delegated exactly, if and only if the weights of all validators but
the last, as they are stored, add up to one at most.  Then an amount is delegated exactly if and
only if its products with these weights are not too long. -/
theorem delegates_exactly_iff (chain : Chain) (hmath : 120 ≤ chain.math.maxDecBitLen)
    (s s' : Store) (delegator : Bytes) (preferences stored : List ValidatorPreference)
    (hbasic : validateBasic chain delegator preferences = .ok ())
    (hset : setValidatorSetPreference chain s delegator preferences = .ok s')
    (hstored : s'[delegator]? = some stored) :
    ((∀ amount : ℤ, 0 < amount → amount < 2 ^ 256 →
        (amount * Dec.unit).natAbs < 2 ^ chain.math.maxDecBitLen →
        Delegates chain s' delegator stored amount)
      ↔ weightBefore stored ≤ Dec.unit)
    ∧ (weightBefore stored ≤ Dec.unit → ∀ amount : ℤ, 0 < amount → amount < 2 ^ 256 →
        (Delegates chain s' delegator stored amount ↔ Fits chain amount stored)) := by
  obtain ⟨found, hfound, hne, husable⟩ := setValidatorSetPreference_ok hmath hbasic hset
  rw [hstored] at hfound
  cases hfound
  have hcall : ∀ amount, delegateToValidatorSet chain s' delegator amount
      = delegateLoop chain amount stored 0 := by
    intro amount
    have hget : getDelegationPreferences chain s' delegator = .ok stored := by
      rw [getDelegationPreferences, hstored]
    rw [delegateToValidatorSet, hget, ok_bind, (validateBasic_ok hbasic).1]
    rfl
  have hiff : weightBefore stored ≤ Dec.unit → ∀ amount : ℤ, 0 < amount → amount < 2 ^ 256 →
      (Delegates chain s' delegator stored amount ↔ Fits chain amount stored) := by
    intro hweights amount hamount hlt
    constructor
    · rintro ⟨calls, hcalls, -⟩
      rw [hcall] at hcalls
      exact (delegateLoop_ok hne hcalls).1
    · intro hfits
      have hle : 0 * (Dec.unit : ℤ) + weightBefore stored * amount ≤ amount * Dec.unit := by
        rw [zero_mul, zero_add, mul_comm amount]
        exact mul_le_mul_of_nonneg_right hweights hamount.le
      obtain ⟨calls, hcalls, hrest⟩ :=
        delegateLoop_eq_ok hamount.le hlt hfits hne husable le_rfl hle
      rw [sub_zero] at hrest
      exact ⟨calls, (hcall amount).trans hcalls, hrest⟩
  refine ⟨⟨fun hall => ?_, fun hweights amount hamount hlt hroom => ?_⟩, hiff⟩
  · -- with 10¹⁸ tokens, nothing is rounded
    obtain ⟨calls, hcalls, -⟩ := hall Dec.unit (by decide) (by decide)
      (lt_of_lt_of_le (by decide) (Nat.pow_le_pow_right Nat.two_pos hmath))
    rw [hcall] at hcalls
    have hle := (delegateLoop_ok hne hcalls).2
    have hexact : portion Dec.unit = fun val => val.weight.raw :=
      funext fun val => Int.mul_tdiv_cancel _ (by decide)
    rw [hexact, zero_add] at hle
    exact hle
  · refine (hiff hweights amount hamount hlt).mpr fun val hval => ?_
    have hval' := (husable val (mem_of_mem_dropLast hval)).2
    have hle := (le_weightBefore husable hval).trans hweights
    have hproduct := mul_le_mul_of_nonneg_right hle hamount.le
    have hnonneg := Int.mul_nonneg hval' hamount.le
    rw [mul_comm (Dec.unit : ℤ)] at hproduct
    omega

/-- A chain on which every address is that of a validator. -/
def demoChain : Chain where
  math := chainMath
  isAccAddress _ := true
  isValAddress _ := true
  getValidator _ := some ⟨1, .one⟩
  getDelegatorDelegations _ := []
  delegate _ amount := ensure (0 ≤ amount) (.panic "negative coin amount")
  delegate_nonneg _ _ h := ensure_eq_ok h
  delegate_neg _ _ h := if_neg (by simpa using h)

/-- Preferences for different validators, with weights in thousandths. -/
def demoPreferences (weights : List ℤ) : List ValidatorPreference :=
  weights.zipIdx.map fun (w, i) => ⟨[UInt8.ofNat i], ⟨w * 10 ^ 15⟩⟩

/-- Half and half, with seven tokens. -/
theorem delegates_exactly_iff_halves :
    ∃ s', setValidatorSetPreference demoChain ∅ (ascii "d") (demoPreferences [500, 500]) = .ok s'
      ∧ Delegates demoChain s' (ascii "d") (demoPreferences [500, 500]) 7 := by
  have hvalid : validateValidatorSetPreference demoChain none (demoPreferences [500, 500])
      = .ok (demoPreferences [500, 500]) := by decide +kernel
  have hset : setValidatorSetPreference demoChain ∅ (ascii "d") (demoPreferences [500, 500])
      = .ok ((∅ : Store).insert (ascii "d") (demoPreferences [500, 500])) := by
    rw [setValidatorSetPreference, Std.ExtTreeMap.getElem?_empty, hvalid, ok_bind]
    rfl
  have hiff := (delegates_exactly_iff demoChain (by decide) ∅ _ (ascii "d") _ _
    (by decide +kernel) hset Std.ExtTreeMap.getElem?_insert_self).1
  exact ⟨_, hset, hiff.mpr (by decide +kernel) 7 (by decide) (by decide) (by decide +kernel)⟩

/-- Weights of 0.336, 0.336, 0.326 and 0.002 are stored as 0.34, 0.34, 0.33 and 0.002.  Of 100
tokens, the first three are given 101. -/
theorem last_gets_less_than_nothing :
    validateBasic demoChain (ascii "d") (demoPreferences [336, 336, 326, 2]) = .ok ()
      ∧ (setValidatorSetPreference demoChain ∅ (ascii "d") (demoPreferences [336, 336, 326, 2])
        >>= fun s => delegateToValidatorSet demoChain s (ascii "d") 100)
          = .error (.panic "negative coin amount") := by
  decide +kernel

end MaanyDex.ValsetPref
