/-
Bounds of the tick range and the keys of ticks: `types/constants.go` and `types/keys.go`, with the
two `InitializeNextTickIterator` of `swapstrategy`.

A tick is an `int64`.  Its key is a byte for the sign, then the two's complement in big-endian
order.  The sign byte makes the byte order of the keys the order of the ticks
(`orderPreserving_tickIndexToBytes`), so that a range iterator over the ticks of a pool walks
through them in order.
-/
import MaanyDex.Lib.Encoding
import MaanyDex.Lib.PrefixStore
import MaanyDex.Osmomath.BigDec

namespace MaanyDex.ConcentratedLiquidity

open Encoding Osmomath List

/-! ### Constants -/

/-- `MaxTick`: the tick of the price `10 ^ 38`. -/
def maxTick : ℤ := 342000000

/-- `MinInitializedTickV2`: the tick of the price `10 ^ -30`. -/
def minInitializedTickV2 : ℤ := -270000000

def minCurrentTickV2 : ℤ := minInitializedTickV2 - 1

/-! ### Keys -/

def tickPrefix : Bytes := [0x01]

def tickNegativePrefix : UInt8 := 0x05

def tickPositivePrefix : UInt8 := 0x06

/-- The range of an `int64`. -/
def IsInt64 (i : ℤ) : Prop := -2 ^ 63 ≤ i ∧ i < 2 ^ 63

instance (i : ℤ) : Decidable (IsInt64 i) := inferInstanceAs (Decidable (_ ∧ _))

def uint64OfInt64 (i : ℤ) : ℕ := (i % 2 ^ 64).toNat

def tickIndexToBytes (tickIndex : ℤ) : Bytes :=
  (if tickIndex < 0 then tickNegativePrefix else tickPositivePrefix)
    :: Encoding.uint64ToBigEndian (uint64OfInt64 tickIndex)

/-- `InvalidTickIndexEncodingError`. -/
def invalidTickIndexEncoding (length : ℕ) : Fault :=
  .errf "invalid encoded tick index length; expected: 9, got: " (Decimal.formatUint length)

/-- `TickIndexFromBytes`.  A wrong sign byte is reported as a wrong length, and first bytes other
than the two are not looked at. -/
def tickIndexFromBytes (bz : Bytes) : Result ℤ :=
  if bz.length ≠ 9 then .error (invalidTickIndexEncoding bz.length)
  else
    let i := int64OfUint64 (Encoding.ofBigEndian (bz.drop 1))
    if bz.head? = some tickNegativePrefix ∧ 0 ≤ i then
      .error (invalidTickIndexEncoding bz.length)
    else if bz.head? = some tickPositivePrefix ∧ i < 0 then
      .error (invalidTickIndexEncoding bz.length)
    else .ok i

def keyTickPrefixByPoolId (poolId : UInt64) : Bytes :=
  tickPrefix ++ Encoding.uint64ToBigEndian poolId.toNat

def keyTick (poolId : UInt64) (tickIndex : ℤ) : Bytes :=
  keyTickPrefixByPoolId poolId ++ tickIndexToBytes tickIndex

/-! ### Iterators -/

/-- The part of the module's store that holds ticks. -/
abbrev TickStore (V : Type*) := Std.ExtTreeMap Bytes V

/-- A `dbm.Iterator`: the keys, without the prefix, and the values that it has still to show. -/
abbrev Iterator (V : Type*) := List (Bytes × V)

section

variable {V : Type*}

/-- `for ; iter.Valid(); iter.Next()`, until a tick with `found`. -/
def seek (found : ℤ → Bool) : Iterator V → Result (Iterator V)
  | [] => .ok []
  | e :: rest =>
    match tickIndexFromBytes e.1 with
    | .error f => .error (.raise "invalid tick index (%s): " f)
    | .ok tick => if found tick then .ok (e :: rest) else seek found rest

/-- `oneForZeroStrategy.InitializeNextTickIterator`. -/
def oneForZeroIterator (store : TickStore V) (poolId : UInt64) (currentTickIndex : ℤ) :
    Result (Iterator V) :=
  let startKey := tickIndexToBytes currentTickIndex
  seek (fun tick => currentTickIndex < tick)
    (PrefixStore.iterator store (keyTickPrefixByPoolId poolId) startKey)

/-- `zeroForOneStrategy.InitializeNextTickIterator`. -/
def zeroForOneIterator (store : TickStore V) (poolId : UInt64) (currentTickIndex : ℤ) :
    Result (Iterator V) :=
  let startKey := tickIndexToBytes (currentTickIndex + 1)
  seek (fun tick => tick ≤ currentTickIndex)
    (PrefixStore.reverseIterator store (keyTickPrefixByPoolId poolId) startKey)

end

/-! ### The encoding of ticks -/

lemma int64OfUint64_uint64OfInt64 {i : ℤ} (h : IsInt64 i) :
    int64OfUint64 (uint64OfInt64 i) = i := by
  obtain ⟨hlo, hhi⟩ := h
  unfold int64OfUint64 uint64OfInt64
  rw [Int.toNat_of_nonneg (Int.emod_nonneg _ (by norm_num)), Int.bmod_def]
  split_ifs <;> omega

lemma uint64OfInt64_lt (i : ℤ) : uint64OfInt64 i < 256 ^ 8 := by
  have := Int.emod_lt_of_pos i (show (0 : ℤ) < 2 ^ 64 by norm_num)
  unfold uint64OfInt64
  omega

lemma length_tickIndexToBytes (i : ℤ) : (tickIndexToBytes i).length = 9 := by
  simp [tickIndexToBytes, uint64ToBigEndian]

/-- **Ticks are read back.** -/
lemma tickIndexFromBytes_tickIndexToBytes {i : ℤ} (h : IsInt64 i) :
    tickIndexFromBytes (tickIndexToBytes i) = .ok i := by
  have hread : int64OfUint64 (ofBigEndian ((tickIndexToBytes i).drop 1)) = i := by
    show int64OfUint64 (ofBigEndian (bigEndian 8 (uint64OfInt64 i))) = i
    rw [ofBigEndian_bigEndian (uint64OfInt64_lt i), int64OfUint64_uint64OfInt64 h]
  unfold tickIndexFromBytes
  rw [if_neg (not_not.mpr (length_tickIndexToBytes i)), hread]
  dsimp only
  rcases lt_or_ge i 0 with hi | hi
  · have hhead : (tickIndexToBytes i).head? = some tickNegativePrefix := by
      simp [tickIndexToBytes, hi]
    rw [hhead, if_neg (by simp [hi]), if_neg (by simp [tickNegativePrefix, tickPositivePrefix])]
  · have hhead : (tickIndexToBytes i).head? = some tickPositivePrefix := by
      simp [tickIndexToBytes, not_lt.mpr hi]
    rw [hhead, if_neg (by simp [tickNegativePrefix, tickPositivePrefix]), if_neg (by simp [hi])]

/-- **The order of the keys is the order of the ticks**: negative ones come first by the sign
byte, and ticks of one sign are ordered as their two's complements. -/
lemma orderPreserving_tickIndexToBytes : PrefixStore.OrderPreserving IsInt64 tickIndexToBytes := by
  rintro i j ⟨hi, hi'⟩ ⟨hj, hj'⟩
  have hself (b : UInt8) : compare b b = .eq := Std.ReflCmp.compare_self
  have hnegative : compare tickNegativePrefix tickPositivePrefix = .lt := by decide
  have hpositive : compare tickPositivePrefix tickNegativePrefix = .gt := by decide
  have hwords : compare (uint64ToBigEndian (uint64OfInt64 i))
      (uint64ToBigEndian (uint64OfInt64 j)) = compare (uint64OfInt64 i) (uint64OfInt64 j) :=
    compare_bigEndian (uint64OfInt64_lt i) (uint64OfInt64_lt j)
  -- two ticks of one sign: the word is the tick, up to a constant
  have hsame : ∀ c : ℤ, (uint64OfInt64 i : ℤ) = i + c → (uint64OfInt64 j : ℤ) = j + c →
      compare (uint64OfInt64 i) (uint64OfInt64 j) = compare i j := by
    intro c hic hjc
    rcases lt_trichotomy i j with h | h | h
    · rw [compare_lt_iff_lt.mpr h, compare_lt_iff_lt]
      omega
    · have hword : uint64OfInt64 i = uint64OfInt64 j := by rw [h]
      rw [compare_eq_iff_eq.mpr h, compare_eq_iff_eq.mpr hword]
    · rw [compare_gt_iff_gt.mpr h, compare_gt_iff_gt]
      omega
  unfold tickIndexToBytes
  rw [List.compare_cons_cons, hwords]
  rcases lt_or_ge i 0 with hi0 | hi0 <;> rcases lt_or_ge j 0 with hj0 | hj0
  · rw [if_pos hi0, if_pos hj0, hself, Ordering.eq_then]
    apply hsame (2 ^ 64)
    · unfold uint64OfInt64
      omega
    · unfold uint64OfInt64
      omega
  · rw [if_pos hi0, if_neg (not_lt.mpr hj0), hnegative]
    exact (compare_lt_iff_lt.mpr (hi0.trans_le hj0)).symm
  · rw [if_neg (not_lt.mpr hi0), if_pos hj0, hpositive]
    exact (compare_gt_iff_gt.mpr (hj0.trans_le hi0)).symm
  · rw [if_neg (not_lt.mpr hi0), if_neg (not_lt.mpr hj0), hself, Ordering.eq_then]
    apply hsame 0
    · unfold uint64OfInt64
      omega
    · unfold uint64OfInt64
      omega

/-- The ticks of two pools are under different prefixes. -/
lemma not_prefix_keyTick {p q : UInt64} (h : p ≠ q) (tick : ℤ) :
    ¬ keyTickPrefixByPoolId p <+: keyTick q tick := by
  rintro ⟨rest, heq⟩
  apply h
  unfold keyTick keyTickPrefixByPoolId at heq
  rw [append_assoc, append_assoc] at heq
  have hword := (append_inj (append_cancel_left heq) (by simp [uint64ToBigEndian])).1
  apply UInt64.toNat_inj.mp
  exact bigEndian_inj (lt_of_lt_of_eq p.toNat_lt (by norm_num))
    (lt_of_lt_of_eq q.toNat_lt (by norm_num)) hword

/-! ### What the iterators show -/

section

variable {V : Type*} {store : TickStore V}

/-- Every key of the store under the tick prefix is the key of a tick of some pool. -/
def HoldsTicks (store : TickStore V) : Prop :=
  ∀ k v, store[k]? = some v → tickPrefix <+: k →
    ∃ poolId tick, IsInt64 tick ∧ k = keyTick poolId tick

/-- The iterator shows exactly the stored ticks of the pool with `P`, in the order `r`. -/
def Enumerates (store : TickStore V) (poolId : UInt64) (P : ℤ → Prop) (r : ℤ → ℤ → Prop)
    (iter : Iterator V) : Prop :=
  ∃ ticks : List (ℤ × V), iter = ticks.map (fun e => (tickIndexToBytes e.1, e.2))
    ∧ ticks.Pairwise (fun a b => r a.1 b.1)
    ∧ ∀ tick v, (tick, v) ∈ ticks ↔ IsInt64 tick ∧ P tick ∧ store[keyTick poolId tick]? = some v

/-- On a list along which `found` stays true once it is, `seek` leaves what is found. -/
lemma seek_map {found : ℤ → Bool} {ticks : List (ℤ × V)} (hint : ∀ e ∈ ticks, IsInt64 e.1)
    (hmono : ticks.Pairwise fun a b => found a.1 → found b.1) :
    seek found (ticks.map fun e => (tickIndexToBytes e.1, e.2))
      = .ok ((ticks.filter fun e => found e.1).map fun e => (tickIndexToBytes e.1, e.2)) := by
  induction ticks with
  | nil => rfl
  | cons e ticks ih =>
    obtain ⟨hhead, htail⟩ := pairwise_cons.mp hmono
    simp only [map_cons, seek, tickIndexFromBytes_tickIndexToBytes (hint e (by simp))]
    by_cases he : found e.1
    · have hall : (e :: ticks).filter (fun e => found e.1) = e :: ticks := by
        rw [filter_eq_self, forall_mem_cons]
        exact ⟨he, fun x hx => hhead x hx he⟩
      rw [if_pos he, hall, map_cons]
    · rw [if_neg he, filter_cons, if_neg he]
      exact ih (fun x hx => hint x (by simp [hx])) htail

lemma HoldsTicks.entries_eq (h : HoldsTicks store) (poolId : UInt64) :
    ∃ ticks : List (ℤ × V),
      PrefixStore.entries store (keyTickPrefixByPoolId poolId)
        = ticks.map (fun e => (tickIndexToBytes e.1, e.2))
      ∧ ticks.Pairwise (fun a b => a.1 < b.1)
      ∧ ∀ tick v, (tick, v) ∈ ticks ↔ IsInt64 tick ∧ store[keyTick poolId tick]? = some v := by
  apply PrefixStore.entries_eq_map orderPreserving_tickIndexToBytes
  intro k v hk
  obtain ⟨q, tick, htick, heq⟩ := h _ v hk ⟨uint64ToBigEndian poolId.toNat ++ k, by
    rw [keyTickPrefixByPoolId, append_assoc]⟩
  by_cases hq : poolId = q
  · subst hq
    exact ⟨tick, htick, append_cancel_left heq⟩
  · exact absurd ⟨k, heq⟩ (not_prefix_keyTick hq tick)

/-- **Iterators enumerate the ticks on their side of the current one.**  The keys of ticks are
ordered as the ticks are and read back, and no pool's prefix reaches into another pool's keys, so
that `oneForZeroStrategy` sees exactly the ticks above the current tick, ascending, and
`zeroForOneStrategy` exactly the others, descending. -/
theorem initializeNextTickIterator_enumerates (hstore : HoldsTicks store) (poolId : UInt64)
    {currentTick : ℤ} (hlo : minCurrentTickV2 ≤ currentTick) (hhi : currentTick ≤ maxTick) :
    (∃ iter, oneForZeroIterator store poolId currentTick = .ok iter
      ∧ Enumerates store poolId (currentTick < ·) (· < ·) iter)
    ∧ (∃ iter, zeroForOneIterator store poolId currentTick = .ok iter
      ∧ Enumerates store poolId (· ≤ currentTick) (· > ·) iter)
    ∧ (∀ i j, IsInt64 i → IsInt64 j →
        compare (tickIndexToBytes i) (tickIndexToBytes j) = compare i j)
    ∧ Set.InjOn tickIndexToBytes {i | IsInt64 i}
    ∧ (∀ i, IsInt64 i → tickIndexFromBytes (tickIndexToBytes i) = .ok i)
    ∧ ∀ p q : UInt64, p ≠ q → ∀ tick, ¬ keyTickPrefixByPoolId p <+: keyTick q tick := by
  obtain ⟨ticks, hticks, hsorted, hmem⟩ := hstore.entries_eq poolId
  have hint : ∀ e ∈ ticks, IsInt64 e.1 := fun e he => ((hmem e.1 e.2).mp he).1
  unfold minCurrentTickV2 minInitializedTickV2 at hlo
  unfold maxTick at hhi
  refine ⟨?_, ?_, orderPreserving_tickIndexToBytes, ?_,
    fun i hi => tickIndexFromBytes_tickIndexToBytes hi, fun p q hpq => not_prefix_keyTick hpq⟩
  · have hup : (ticks.filter fun e => currentTick ≤ e.1).Pairwise (fun a b => a.1 < b.1) :=
      hsorted.sublist filter_sublist
    rw [oneForZeroIterator, PrefixStore.iterator_eq_map orderPreserving_tickIndexToBytes hticks
      hint ⟨by omega, by omega⟩, seek_map (fun e he => hint e (mem_of_mem_filter he))]
    · refine ⟨_, rfl, _, rfl, hup.sublist filter_sublist, fun tick v => ?_⟩
      simp only [mem_filter, hmem, decide_eq_true_eq]
      constructor
      · rintro ⟨⟨⟨hi, hv⟩, -⟩, hlt⟩
        exact ⟨hi, hlt, hv⟩
      · rintro ⟨hi, hlt, hv⟩
        exact ⟨⟨⟨hi, hv⟩, hlt.le⟩, hlt⟩
    · refine hup.imp fun hab ha => ?_
      rw [decide_eq_true_eq] at ha ⊢
      exact ha.trans hab
  · have hdown : (ticks.filter fun e => e.1 < currentTick + 1).reverse.Pairwise
        (fun a b => a.1 > b.1) :=
      pairwise_reverse.mpr (hsorted.sublist filter_sublist)
    rw [zeroForOneIterator, PrefixStore.reverseIterator_eq_map orderPreserving_tickIndexToBytes
      hticks hint ⟨by omega, by omega⟩, seek_map]
    · refine ⟨_, rfl, _, rfl, hdown.sublist filter_sublist, fun tick v => ?_⟩
      simp only [mem_filter, mem_reverse, hmem, decide_eq_true_eq]
      constructor
      · rintro ⟨⟨⟨hi, hv⟩, -⟩, hle⟩
        exact ⟨hi, hle, hv⟩
      · rintro ⟨hi, hle, hv⟩
        exact ⟨⟨⟨hi, hv⟩, Int.lt_add_one_of_le hle⟩, hle⟩
    · intro e he
      exact hint e (mem_of_mem_filter (mem_reverse.mp he))
    · refine hdown.imp fun hab ha => ?_
      rw [decide_eq_true_eq] at ha ⊢
      exact hab.le.trans ha
  · intro i hi j hj heq
    have hread := tickIndexFromBytes_tickIndexToBytes hi
    rw [heq, tickIndexFromBytes_tickIndexToBytes hj] at hread
    exact (Except.ok.inj hread).symm

end

/-- Ticks `-2` and `3` of pool 1 and tick `0` of pool 2, at the current tick `0`. -/
theorem enumerates_two_pools :
    ∃ store : TickStore Bool, HoldsTicks store ∧ store[keyTick 1 (-2)]? = some true
      ∧ store[keyTick 1 3]? = some true ∧ store[keyTick 2 0]? = some true
      ∧ ∃ iter, oneForZeroIterator store 1 0 = .ok iter
        ∧ Enumerates store 1 (0 < ·) (· < ·) iter := by
  let store : TickStore Bool :=
    ((∅ : TickStore Bool).insert (keyTick 1 (-2)) true |>.insert (keyTick 1 3) true).insert
      (keyTick 2 0) true
  have hstore : HoldsTicks store := by
    intro k v hk _
    simp only [store, Std.ExtTreeMap.getElem?_insert, Std.LawfulEqCmp.compare_eq_iff_eq] at hk
    split_ifs at hk with h₁ h₂ h₃
    · exact ⟨2, 0, by decide, h₁.symm⟩
    · exact ⟨1, 3, by decide, h₂.symm⟩
    · exact ⟨1, -2, by decide, h₃.symm⟩
    · simp at hk
  exact ⟨store, hstore, by decide +kernel, by decide +kernel, by decide +kernel,
    (initializeNextTickIterator_enumerates hstore 1 (by decide) (by decide)).1⟩

end MaanyDex.ConcentratedLiquidity
