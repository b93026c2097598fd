/-
Deleting records of taker fee shares by prefix.

The keys of accumulators are `0x0A|share denom|charged denom`, those of alloyed pools
`0x0C|pool id|denom`.  Records are deleted by the prefixes `0x0A|share denom` and
`0x0C|pool id`, without a separator behind them, so that

    the prefix of d  starts  the key of (e, c)   ↔   d starts e,
    the prefix of p  starts  the key of (q, c)   ↔   the digits of p start those of q.

A deletion is exact precisely if no record of another denomination or pool is in its way.
-/
import MaanyDex.PoolManager.TakerFeeShares

namespace MaanyDex.PoolManager

open List KVStore

variable {sdk : Sdk} {math : Math} {k : Contracts} {store : KVStore} {d e c denom : Denom} {p q : ℕ}

/-- Denominations have no separator in them; in the SDK they are letters, digits and `/:._-`. -/
def DenomsWithoutBar (sdk : Sdk) : Prop := ∀ d, sdk.validDenom d = true → 124 ∉ d

/-! ### Prefixes -/

lemma accumulatorKey_eq : keyTakerFeeShareDenomAccrualForTakerFeeChargedDenom e c
    = [10, 124] ++ (e ++ 124 :: c) := by
  show [10, 124] ++ e ++ [124] ++ c = _
  rw [append_assoc, append_assoc, singleton_append]

lemma alloyedPoolKey_eq : formatRegisteredAlloyPoolKey q denom
    = [12, 124] ++ (Decimal.formatUint q ++ 124 :: denom) := by
  show [12, 124] ++ Decimal.formatUint q ++ [124] ++ denom = _
  rw [append_assoc, append_assoc, singleton_append]

lemma accumulator_prefix_iff (hd : 124 ∉ d) :
    keyTakerFeeShareDenomAccrualForAllDenoms d
        <+: keyTakerFeeShareDenomAccrualForTakerFeeChargedDenom e c ↔ d <+: e := by
  rw [accumulatorKey_eq, ← Split.prefix_append_cons_iff (a := e) (b := c) hd]
  exact prefix_append_right_inj [10, 124]

lemma bar_notMem_formatUint (n : ℕ) : 124 ∉ Decimal.formatUint n := by
  intro h
  have := Decimal.formatUint_digit h
  revert this
  decide

lemma alloyedPool_prefix_iff :
    formatRegisteredAlloyPoolKeyPoolIdOnly p <+: formatRegisteredAlloyPoolKey q denom
      ↔ Decimal.formatUint p <+: Decimal.formatUint q := by
  rw [alloyedPoolKey_eq, ← Split.prefix_append_cons_iff (b := denom) (bar_notMem_formatUint p)]
  exact prefix_append_right_inj [12, 124]

lemma accumulatorKey_ne {d c' : Denom} (he : 124 ∉ e) (hd : 124 ∉ d) (h : ¬(e = d ∧ c = c')) :
    keyTakerFeeShareDenomAccrualForTakerFeeChargedDenom d c'
      ≠ keyTakerFeeShareDenomAccrualForTakerFeeChargedDenom e c := by
  intro heq
  rw [accumulatorKey_eq, accumulatorKey_eq] at heq
  obtain ⟨hde, hc⟩ := Split.append_cons_inj_left hd he (append_cancel_left heq)
  exact h ⟨hde.symm, hc.symm⟩

lemma alloyedPoolKey_ne {denom' : Denom} (h : q ≠ p) :
    formatRegisteredAlloyPoolKey p denom' ≠ formatRegisteredAlloyPoolKey q denom := by
  intro heq
  rw [alloyedPoolKey_eq, alloyedPoolKey_eq] at heq
  have hdigits := Split.append_cons_inj_left (bar_notMem_formatUint p) (bar_notMem_formatUint q)
    (append_cancel_left heq)
  exact h (Decimal.formatUint_injective hdigits.1).symm

lemma get_deleteAll_of_head {b : UInt8} {start key : Bytes} (hkey : key.head? ≠ some b) :
    (deleteAll store (b :: start)).get key = store.get key := by
  rw [deleteAll, get_foldl_delete_iterate, if_neg]
  rintro ⟨rest, rfl⟩
  exact hkey rfl

/-! ### What is deleted -/

lemma setRegisteredAlloyedPool_ok {s s' : ShareState}
    (h : setRegisteredAlloyedPool math k s p = .ok s') :
    ∃ alloyedDenom bz, s'.store
      = (deleteAll s.store (formatRegisteredAlloyPoolKeyPoolIdOnly p)).set
          (formatRegisteredAlloyPoolKey p alloyedDenom) bz := by
  unfold setRegisteredAlloyedPool at h
  obtain ⟨_, _, -, -, h⟩ := Run.bind2_ok h
  obtain ⟨alloyedDenom, _, -, -, h⟩ := Run.bind2_ok h
  cases h
  exact ⟨_, _, rfl⟩

/-- **Deleting by prefix.**  The deletion of the accumulators of `d` is exact if and only if there
is no accumulator of a longer denomination that starts with `d`; and the registration of pool `p`
leaves the records of other pools alone if and only if there is none of a pool whose number starts
with the digits of `p`. -/
theorem deletion_by_prefix_exact_iff (hsdk : DenomsWithoutBar sdk) (hd : sdk.validDenom d = true)
    (store : KVStore) (s s' : ShareState) (h : setRegisteredAlloyedPool math k s p = .ok s') :
    (((∀ e c, sdk.validDenom e = true → sdk.validDenom c = true →
          (deleteAllTakerFeeShareAccumulatorsForTakerFeeShareDenom store d).get
              (keyTakerFeeShareDenomAccrualForTakerFeeChargedDenom e c)
            = if e = d then none
              else store.get (keyTakerFeeShareDenomAccrualForTakerFeeChargedDenom e c))
        ∧ ∀ key : Bytes, key.head? ≠ some 10 →
          (deleteAllTakerFeeShareAccumulatorsForTakerFeeShareDenom store d).get key = store.get key)
      ↔ ∀ e c, sdk.validDenom e = true → sdk.validDenom c = true → e ≠ d → d <+: e →
          store.get (keyTakerFeeShareDenomAccrualForTakerFeeChargedDenom e c) = none)
    ∧ (((∀ q denom, q ≠ p → s'.store.get (formatRegisteredAlloyPoolKey q denom)
            = s.store.get (formatRegisteredAlloyPoolKey q denom))
        ∧ ∀ key : Bytes, key.head? ≠ some 12 → s'.store.get key = s.store.get key)
      ↔ ∀ q denom, q ≠ p → Decimal.formatUint p <+: Decimal.formatUint q →
          s.store.get (formatRegisteredAlloyPoolKey q denom) = none) := by
  constructor
  · -- what the deletion does to an accumulator
    have hget : ∀ e c, (deleteAllTakerFeeShareAccumulatorsForTakerFeeShareDenom store d).get
        (keyTakerFeeShareDenomAccrualForTakerFeeChargedDenom e c)
          = if d <+: e then none
            else store.get (keyTakerFeeShareDenomAccrualForTakerFeeChargedDenom e c) := by
      intro e c
      rw [deleteAllTakerFeeShareAccumulatorsForTakerFeeShareDenom, deleteAll,
        get_foldl_delete_iterate]
      simp only [accumulator_prefix_iff (hsdk d hd)]
    constructor
    · rintro ⟨hexact, -⟩ e c he hc hne hstart
      have := hexact e c he hc
      rw [hget, if_pos hstart, if_neg hne] at this
      exact this.symm
    · intro hnone
      refine ⟨fun e c he hc => ?_, fun key hkey => get_deleteAll_of_head hkey⟩
      rw [hget]
      by_cases hed : e = d
      · rw [if_pos hed, if_pos (by rw [hed])]
      · rw [if_neg hed]
        split
        · rename_i hstart
          exact (hnone e c he hc hed hstart).symm
        · rfl
  · obtain ⟨alloyedDenom, bz, hs'⟩ := setRegisteredAlloyedPool_ok h
    have hget : ∀ q denom, q ≠ p → s'.store.get (formatRegisteredAlloyPoolKey q denom)
        = if Decimal.formatUint p <+: Decimal.formatUint q then none
          else s.store.get (formatRegisteredAlloyPoolKey q denom) := by
      intro q denom hq
      rw [hs', get_set_of_ne (alloyedPoolKey_ne hq), deleteAll, get_foldl_delete_iterate]
      simp only [alloyedPool_prefix_iff]
    constructor
    · rintro ⟨hexact, -⟩ q denom hq hstart
      have := hexact q denom hq
      rw [hget q denom hq, if_pos hstart] at this
      exact this.symm
    · intro hnone
      refine ⟨fun q denom hq => ?_, fun key hkey => ?_⟩
      · rw [hget q denom hq]
        split
        · rename_i hstart
          exact (hnone q denom hq hstart).symm
        · rfl
      · rw [hs', get_set_of_ne]
        · exact get_deleteAll_of_head hkey
        · rintro rfl
          exact hkey rfl

/-- Contracts of pools of one asset, whose share is called `x`. -/
def xContracts : Contracts where
  getPool _ := .ok (.cosmWasm, ascii "contract")
  accAddressString := id
  queryShareDenom a := .ok (ascii "factory/" ++ a ++ ascii "/alloyed/x")
  queryTotalPoolLiquidity _ := .ok [⟨ascii "foo", 100⟩]
  queryAssetConfigs _ := .ok [(ascii "foo", ascii "1")]
  newDecFromStr _ := .ok Dec.one
  marshal s := s.contractAddress

/-- The accumulators of two denominations. -/
def twoAccumulators : KVStore :=
  setTakerFeeShareDenomsToAccruedValue
    (setTakerFeeShareDenomsToAccruedValue ∅ (ascii "foo") (ascii "uusd") 5)
    (ascii "foobar") (ascii "uusd") 7

/-- Pool 10 is registered. -/
def tenRegistered : ShareState where
  store := KVStore.set ∅ (formatRegisteredAlloyPoolKey 10 (ascii "ten")) (ascii "state")
  cachedTakerFeeShareAgreementMap := ∅
  cachedRegisteredAlloyPoolByAlloyDenomMap := ∅

/-- The accumulator of `foobar` is deleted with those of `foo`, and pool 10 when pool 1 is
registered. -/
theorem other_records_deleted :
    (twoAccumulators.get (keyTakerFeeShareDenomAccrualForTakerFeeChargedDenom (ascii "foobar")
        (ascii "uusd"))).isSome = true
      ∧ (deleteAllTakerFeeShareAccumulatorsForTakerFeeShareDenom twoAccumulators (ascii "foo")).get
        (keyTakerFeeShareDenomAccrualForTakerFeeChargedDenom (ascii "foobar") (ascii "uusd")) = none
      ∧ tenRegistered.store.get (formatRegisteredAlloyPoolKey 10 (ascii "ten"))
        = some (ascii "state")
      ∧ (setRegisteredAlloyedPool chainMath xContracts tenRegistered 1).toOption.map
          (fun s => s.store.get (formatRegisteredAlloyPoolKey 10 (ascii "ten"))) = some none := by
  decide +kernel

lemma chainSdk_denomsWithoutBar : DenomsWithoutBar chainSdk := by
  intro d hd hbar
  simp only [chainSdk, Bool.and_eq_true] at hd
  have := all_eq_true.mp hd.1.1.2 124 hbar
  revert this
  decide

/-- An accumulator of `foo` and none of a longer denomination, and pool 10 when pool 2 is
registered. -/
theorem deletion_by_prefix_exact_foo :
    ∃ store s', store = setTakerFeeShareDenomsToAccruedValue ∅ (ascii "foo") (ascii "uusd") 5
      ∧ setRegisteredAlloyedPool chainMath xContracts tenRegistered 2 = .ok s'
      ∧ (∀ e c, chainSdk.validDenom e = true → chainSdk.validDenom c = true →
          (deleteAllTakerFeeShareAccumulatorsForTakerFeeShareDenom store (ascii "foo")).get
              (keyTakerFeeShareDenomAccrualForTakerFeeChargedDenom e c)
            = if e = ascii "foo" then none
              else store.get (keyTakerFeeShareDenomAccrualForTakerFeeChargedDenom e c))
      ∧ ∀ q denom, q ≠ 2 → s'.store.get (formatRegisteredAlloyPoolKey q denom)
          = tenRegistered.store.get (formatRegisteredAlloyPoolKey q denom) := by
  obtain ⟨s', hs', -⟩ := Run.ok_of_toOption (show (setRegisteredAlloyedPool chainMath xContracts
    tenRegistered 2).toOption.map (fun _ => true) = some true by decide +kernel)
  have hfoo : chainSdk.validDenom (ascii "foo") = true := by decide
  have hiff := deletion_by_prefix_exact_iff
    chainSdk_denomsWithoutBar hfoo
    (setTakerFeeShareDenomsToAccruedValue ∅ (ascii "foo") (ascii "uusd") 5) tenRegistered s' hs'
  refine ⟨_, s', rfl, hs', (hiff.1.mpr ?_).1, (hiff.2.mpr ?_).1⟩
  · intro e c he _ hne _
    have hkey : keyTakerFeeShareDenomAccrualForTakerFeeChargedDenom (ascii "foo") (ascii "uusd")
        ≠ keyTakerFeeShareDenomAccrualForTakerFeeChargedDenom e c :=
      accumulatorKey_ne (chainSdk_denomsWithoutBar e he) (by decide) fun h => hne h.1
    rw [setTakerFeeShareDenomsToAccruedValue, get_set_of_ne hkey, get_empty]
  · intro q denom _ hstart
    have hq : q ≠ 10 := by
      rintro rfl
      revert hstart
      decide +kernel
    show (KVStore.set ∅ _ _).get _ = _
    rw [get_set_of_ne (alloyedPoolKey_ne hq), get_empty]

end MaanyDex.PoolManager
