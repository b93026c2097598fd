/-
Export and import of the failures.

`InitGenesis` adds the failures as if they were new, in the order of the store, so the failures of
a contract are numbered again from zero (`lookup_initGenesis`).  A gap that a resubmission left is
closed, and the failures after it get other ids.
-/
import MaanyDex.ContractManager.Sudo
import MaanyDex.Lib.Encoding

namespace MaanyDex.ContractManager

open List Option UInt64

variable {ι : Type} {w w' : World ι}

/-! ### Export and import -/

def getFailureKey (address : Bytes) (offset : UInt64) : Bytes :=
  1 :: (address ++ 47 :: Encoding.uint64ToBigEndian offset.toNat)

/-- `GetAllFailures`, in the order of the store. -/
def getAllFailures (w : World ι) : List Failure :=
  (w.failures.entries.insertionSort fun e e' =>
    compare (getFailureKey e.1.1 e.1.2) (getFailureKey e'.1.1 e'.1.2) ≠ .gt).map (·.2)

/-- `GenesisState`, without the parameters. -/
structure GenesisState where
  failuresList : List Failure

def exportGenesis (w : World ι) : GenesisState := ⟨getAllFailures w⟩

def initGenesis (w : World ι) (genState : GenesisState) : World ι :=
  genState.failuresList.foldl (fun w elem =>
    addContractFailure w elem.address elem.sudoPayload elem.error) w

lemma Keyed.initGenesis (h : Keyed w) (genState : GenesisState) :
    Keyed (ContractManager.initGenesis w genState) := by
  unfold ContractManager.initGenesis
  induction genState.failuresList generalizing w with
  | nil => exact h
  | cons elem rest ih => exact ih (h.store _)

/-- The states of the module after a start and a run. -/
def FromGenesis (chain : Chain ι) (w : World ι) : Prop :=
  ∃ fresh genState scripts, Initial fresh
    ∧ Run.run (step chain) (ContractManager.initGenesis fresh genState) scripts = w

/-- **Failures are always where they belong.** -/
lemma FromGenesis.keyed {chain : Chain ι} (h : FromGenesis chain w) : Keyed w := by
  obtain ⟨fresh, genState, scripts, hfresh, rfl⟩ := h
  exact (hfresh.keyed.initGenesis genState).run chain scripts

/-! ### The order of the store -/

lemma compare_getFailureKey (address : Bytes) (id id' : UInt64) :
    compare (getFailureKey address id) (getFailureKey address id') = compare id.toNat id'.toNat := by
  have hkey : ∀ i : UInt64, getFailureKey address i
      = (1 :: (address ++ [47])) ++ Encoding.bigEndian 8 i.toNat := by
    intro i
    simp [getFailureKey, Encoding.uint64ToBigEndian]
  rw [hkey, hkey, Bytes.compare_append_left, Encoding.compare_bigEndian id.toNat_lt id'.toNat_lt]

/-- The failures of a contract, in the order of the store. -/
def failuresOf (w : World ι) (address : Bytes) : List Failure :=
  (getAllFailures w).filter fun failure => failure.address = address

variable {f : Failure}

lemma mem_getAllFailures : f ∈ getAllFailures w ↔ ∃ k, w.failures.lookup k = some f := by
  unfold getAllFailures
  constructor
  · intro h
    obtain ⟨⟨k, f'⟩, he, rfl⟩ := mem_map.mp h
    have hentry := (perm_insertionSort _ _).mem_iff.mp he
    exact ⟨k, mem_def.mp (AList.mem_lookup_iff.mpr hentry)⟩
  · rintro ⟨k, hk⟩
    refine mem_map.mpr ⟨⟨k, f⟩, (perm_insertionSort _ _).mem_iff.mpr ?_, rfl⟩
    exact AList.mem_lookup_iff.mp (mem_def.mpr hk)

variable {address : Bytes}

lemma Keyed.mem_failuresOf (h : Keyed w) :
    f ∈ failuresOf w address ↔ w.failures.lookup (address, f.id) = some f := by
  unfold failuresOf
  rw [mem_filter, mem_getAllFailures, decide_eq_true_iff]
  constructor
  · rintro ⟨⟨k, hk⟩, rfl⟩
    have hkey := h k f hk
    unfold Failure.key at hkey
    rw [hkey]
    exact hk
  · intro hf
    exact ⟨⟨_, hf⟩, congrArg Prod.fst (h _ f hf)⟩

lemma sorted_entries (w : World ι) : (w.failures.entries.insertionSort fun e e' =>
      compare (getFailureKey e.1.1 e.1.2) (getFailureKey e'.1.1 e'.1.2) ≠ .gt).Pairwise
      fun e e' => compare (getFailureKey e.1.1 e.1.2) (getFailureKey e'.1.1 e'.1.2) ≠ .gt
        ∧ e.1 ≠ e'.1 := by
  apply (Bytes.pairwise_insertionSort
    (fun e : (_ : Bytes × UInt64) × Failure => getFailureKey e.1.1 e.1.2) _).and
  have hnodup : (w.failures.entries.map Sigma.fst).Nodup := w.failures.nodupKeys
  exact pairwise_map.mp (((perm_insertionSort _ _).map _).nodup_iff.mpr hnodup)

/-- The failures of a contract are exported in the order of their ids. -/
lemma Keyed.sorted_failuresOf (h : Keyed w) (address : Bytes) :
    (failuresOf w address).Pairwise fun f g => f.id.toNat < g.id.toNat := by
  unfold failuresOf getAllFailures
  rw [pairwise_filter, pairwise_map]
  refine (sorted_entries w).imp_of_mem fun {e e'} he he' hle haddress haddress' => ?_
  have hkey : ∀ e ∈ w.failures.entries.insertionSort fun e e' =>
      compare (getFailureKey e.1.1 e.1.2) (getFailureKey e'.1.1 e'.1.2) ≠ .gt, e.1 = e.2.key := by
    intro e he
    have hentry := (perm_insertionSort _ _).mem_iff.mp he
    exact (h e.1 e.2 (mem_def.mp (AList.mem_lookup_iff.mpr hentry))).symm
  obtain ⟨hcompare, hne⟩ := hle
  rw [hkey e he, hkey e' he'] at hcompare hne
  obtain rfl : e.2.address = address := of_decide_eq_true haddress
  have haddress'' : e'.2.address = e.2.address := of_decide_eq_true haddress'
  have hle : compare e.2.id.toNat e'.2.id.toNat ≠ .gt := by
    have hcompare' : compare (getFailureKey e.2.address e.2.id)
        (getFailureKey e'.2.address e'.2.id) ≠ .gt := hcompare
    rw [haddress'', compare_getFailureKey] at hcompare'
    exact hcompare'
  have hid : e.2.id ≠ e'.2.id := fun hid => hne (Prod.ext haddress''.symm hid)
  have hid' : e.2.id.toNat ≠ e'.2.id.toNat := fun heq => hid (UInt64.toNat_inj.mp heq)
  have hle' := Nat.compare_ne_gt.mp hle
  omega

/-! ### Numbering -/

/-- The failures of every contract are those of the list, numbered from zero. -/
def NumberedAs (l : List Failure) (w : World ι) : Prop :=
  ∀ address id, w.failures.lookup (address, id)
    = ((l.filter fun f => f.address = address)[id.toNat]?).map fun f => { f with id := id }

variable {l : List Failure}

lemma NumberedAs.nextID (h : NumberedAs l w)
    (hlt : (l.filter fun f => f.address = address).length < 2 ^ 64) :
    getNextFailureIDKey w address
      = UInt64.ofNat (l.filter fun f => f.address = address).length := by
  set n := (l.filter fun f => f.address = address).length with hn
  have hid : ∀ f ∈ addressFailures w address, f.id.toNat < n := by
    intro f hf
    obtain ⟨id, hid⟩ := mem_addressFailures.mp hf
    rw [h address id] at hid
    obtain ⟨g, hg, rfl⟩ := map_eq_some_iff.mp hid
    obtain ⟨hlt, -⟩ := List.getElem?_eq_some_iff.mp hg
    exact hlt
  have hlast : 0 < n → ∃ f ∈ addressFailures w address, f.id.toNat = n - 1 := by
    intro hpos
    have hnat : (UInt64.ofNat (n - 1)).toNat = n - 1 :=
      toNat_ofNat_of_lt' (show n - 1 < 2 ^ 64 by omega)
    obtain ⟨g, hg⟩ : ∃ g, (l.filter fun f => f.address = address)[n - 1]? = some g :=
      ⟨_, List.getElem?_eq_getElem (by omega)⟩
    refine ⟨{ g with id := UInt64.ofNat (n - 1) }, mem_addressFailures.mpr
      ⟨UInt64.ofNat (n - 1), ?_⟩, hnat⟩
    rw [h, hnat, hg]
    rfl
  unfold getNextFailureIDKey
  split
  · rename_i val hval
    have hval' := hid val (argmax_mem hval)
    obtain ⟨f, hf, hfn⟩ := hlast (by omega)
    have hmax : f.id.toNat ≤ val.id.toNat :=
      le_of_mem_argmax (f := fun failure : Failure => failure.id.toNat) hf hval
    apply UInt64.toNat_inj.mp
    rw [UInt64.toNat_add, UInt64.toNat_one, UInt64.toNat_ofNat_of_lt' hlt]
    omega
  · rename_i hnone
    rcases Nat.eq_zero_or_pos n with hzero | hpos
    · rw [hzero]
      rfl
    · obtain ⟨f, hf, -⟩ := hlast hpos
      rw [argmax_eq_none.mp hnone] at hf
      cases hf

/-- The next failure gets the next number of its contract. -/
lemma NumberedAs.add (h : NumberedAs l w) (f : Failure)
    (hlt : (l.filter fun g => g.address = f.address).length < 2 ^ 64) :
    NumberedAs (l ++ [f]) (addContractFailure w f.address f.sudoPayload f.error) := by
  intro address id
  have hlookup : (addContractFailure w f.address f.sudoPayload f.error).failures.lookup (address, id)
      = (w.failures.insert (f.address, getNextFailureIDKey w f.address)
        ⟨f.address, getNextFailureIDKey w f.address, f.sudoPayload, f.error⟩).lookup (address, id) :=
    rfl
  rw [hlookup, filter_append, h.nextID hlt]
  by_cases haddress : f.address = address
  · subst haddress
    rw [filter_singleton, decide_eq_true rfl, cond_true]
    have hnat := toNat_ofNat_of_lt' hlt
    by_cases hid : id = UInt64.ofNat (l.filter fun g => g.address = f.address).length
    · rw [hid, AList.lookup_insert, hnat, List.getElem?_concat_length]
      rfl
    · rw [AList.lookup_insert_ne (fun heq => hid (congrArg Prod.snd heq)), h]
      have hne : id.toNat ≠ (l.filter fun g => g.address = f.address).length := fun heq =>
        hid (UInt64.toNat_inj.mp (heq.trans hnat.symm))
      rcases Nat.lt_or_ge id.toNat (l.filter fun g => g.address = f.address).length with hin | hout
      · rw [List.getElem?_append_left hin]
      · rw [List.getElem?_eq_none hout, List.getElem?_eq_none]
        rw [length_append, length_singleton]
        omega
  · rw [AList.lookup_insert_ne (fun heq => haddress (congrArg Prod.fst heq).symm), h,
      filter_singleton, decide_eq_false haddress, cond_false, append_nil]

variable {fresh : World ι}

/-- **Import numbers the failures of every contract from zero.** -/
lemma lookup_initGenesis (hfresh : fresh.failures = ∅)
    (hle : ∀ address, (l.filter fun f => f.address = address).length ≤ 2 ^ 64) :
    NumberedAs l (initGenesis fresh ⟨l⟩) := by
  induction l using List.reverseRecOn with
  | nil =>
    intro address id
    show fresh.failures.lookup _ = _
    rw [hfresh]
    rfl
  | append_singleton l f ih =>
    have hsub : ∀ address, (l.filter fun g => g.address = address).length
        ≤ ((l ++ [f]).filter fun g => g.address = address).length := by
      intro address
      exact (List.Sublist.filter _ (sublist_append_left l [f])).length_le
    have hlt : (l.filter fun g => g.address = f.address).length < 2 ^ 64 := by
      have hf := hle f.address
      rw [filter_append, filter_singleton, decide_eq_true rfl, cond_true,
        length_append, length_singleton] at hf
      omega
    have hstep := (ih fun address => (hsub address).trans (hle address)).add f hlt
    show NumberedAs (l ++ [f]) ((l ++ [f]).foldl _ fresh)
    rw [foldl_append]
    exact hstep

/-! ### What survives -/

lemma getElem_eq_of_downward {l : List ℕ} (hsorted : l.Pairwise (· < ·))
    (hdown : ∀ n ∈ l, ∀ m < n, m ∈ l) (i : ℕ) (hi : i < l.length) : l[i] = i := by
  induction i using Nat.strong_induction_on with
  | _ i ih =>
    have hbelow : ∀ j (hj : j < i), l[j] = j := fun j hj => ih j hj (hj.trans hi)
    have hge : i ≤ l[i] := by
      rcases Nat.eq_zero_or_pos i with hzero | hpos
      · omega
      · have hlt := pairwise_iff_getElem.mp hsorted (i - 1) i (by omega) hi (by omega)
        rw [hbelow (i - 1) (by omega)] at hlt
        omega
    by_contra hne
    -- then `i` is in the list, before the place where it should be
    obtain ⟨j, hj, hji⟩ := getElem_of_mem (hdown _ (getElem_mem hi) i (by omega))
    rcases Nat.lt_trichotomy j i with hlt | heq | hgt
    · rw [hbelow j hlt] at hji
      omega
    · subst heq
      omega
    · have hlt := pairwise_iff_getElem.mp hsorted i j hi hj hgt
      omega

/-- The ids of every contract have no gap. -/
def Dense (w : World ι) : Prop :=
  ∀ address id id', w.failures.lookup (address, id) ≠ none → id' < id →
    w.failures.lookup (address, id') ≠ none

lemma Keyed.length_failuresOf_le (h : Keyed w) (address : Bytes) :
    (failuresOf w address).length ≤ 2 ^ 64 := by
  have hnodup : ((failuresOf w address).map fun f => f.id.toNat).Nodup :=
    (pairwise_map.mpr (h.sorted_failuresOf address)).imp fun hlt => hlt.ne
  have hsub : ((failuresOf w address).map fun f => f.id.toNat).toFinset ⊆ Finset.range (2 ^ 64) := by
    intro n hn
    obtain ⟨f, -, rfl⟩ := mem_map.mp (mem_toFinset.mp hn)
    exact Finset.mem_range.mpr f.id.toNat_lt
  have hcard := Finset.card_le_card hsub
  rw [toFinset_card_of_nodup hnodup, length_map, Finset.card_range] at hcard
  exact hcard

/-- A stored failure is among those of its contract. -/
lemma Keyed.exists_failuresOf (h : Keyed w) {id : UInt64}
    (hid : w.failures.lookup (address, id) ≠ none) :
    ∃ f ∈ failuresOf w address, f.id = id ∧ w.failures.lookup (address, id) = some f := by
  obtain ⟨f, hf⟩ := ne_none_iff_exists'.mp hid
  have hkey : f.id = id := congrArg Prod.snd (h _ f hf)
  refine ⟨f, h.mem_failuresOf.mpr ?_, hkey, hf⟩
  rw [hkey]
  exact hf

/-- Without a gap, a failure stands where its id says. -/
lemma Keyed.getElem?_failuresOf (h : Keyed w) (hdense : Dense w) (address : Bytes)
    (id : UInt64) : ((failuresOf w address)[id.toNat]?).map (fun f => { f with id := id })
      = w.failures.lookup (address, id) := by
  have hdown : ∀ n ∈ (failuresOf w address).map fun f => f.id.toNat, ∀ m < n,
      m ∈ (failuresOf w address).map fun f => f.id.toNat := by
    intro n hn m hm
    obtain ⟨f, hf, rfl⟩ := mem_map.mp hn
    have hstored := h.mem_failuresOf.mp hf
    have hm' : (UInt64.ofNat m).toNat = m :=
      toNat_ofNat_of_lt' (show m < 2 ^ 64 from hm.trans f.id.toNat_lt)
    obtain ⟨g, hg, hgid, -⟩ := h.exists_failuresOf (hdense address f.id (UInt64.ofNat m)
      (by rw [hstored]; exact some_ne_none f)
      (lt_iff_toNat_lt.mpr (by omega)))
    exact mem_map.mpr ⟨g, hg, by rw [hgid, hm']⟩
  have hplace : ∀ i (hi : i < (failuresOf w address).length),
      (failuresOf w address)[i].id.toNat = i := by
    intro i hi
    have hnumber := getElem_eq_of_downward
      (pairwise_map.mpr (h.sorted_failuresOf address)) hdown i (by simpa using hi)
    rw [getElem_map] at hnumber
    exact hnumber
  rcases hstored : w.failures.lookup (address, id) with - | f
  · -- a failure at this place would have this id
    rw [map_eq_none_iff, List.getElem?_eq_none_iff]
    by_contra hlt
    have hi : id.toNat < (failuresOf w address).length := by omega
    have hid : (failuresOf w address)[id.toNat].id = id := UInt64.toNat_inj.mp (hplace _ hi)
    have hf := h.mem_failuresOf.mp (getElem_mem hi)
    rw [hid, hstored] at hf
    cases hf
  · have hne : w.failures.lookup (address, id) ≠ none := by
      rw [hstored]
      exact some_ne_none f
    obtain ⟨g, hg, hgid, hlookup⟩ := h.exists_failuresOf hne
    obtain rfl : f = g := Option.some.inj (hstored.symm.trans hlookup)
    obtain ⟨i, hi, rfl⟩ := getElem_of_mem hg
    have hplace' := hplace i hi
    rw [hgid] at hplace'
    rw [hplace', List.getElem?_eq_getElem hi, map_some, ← hgid]

/-- **What survives export and import** of the failures: everything, if there is no gap, and
otherwise not. -/
lemma lookup_initGenesis_iff (hfresh : fresh.failures = ∅) (h : Keyed w) :
    (∀ k, (initGenesis fresh (exportGenesis w)).failures.lookup k = w.failures.lookup k)
      ↔ Dense w := by
  have hnumbered := lookup_initGenesis hfresh (l := getAllFailures w) h.length_failuresOf_le
  constructor
  · intro hsame address id id' hid hlt hnone
    rw [← hsame] at hid hnone
    have hid' := hnumbered address id
    have hnone' := hnumbered address id'
    rw [show (initGenesis fresh ⟨getAllFailures w⟩).failures.lookup (address, id') = none from hnone,
      eq_comm, map_eq_none_iff, List.getElem?_eq_none_iff] at hnone'
    apply hid
    show (initGenesis fresh ⟨getAllFailures w⟩).failures.lookup (address, id) = none
    rw [hid', map_eq_none_iff, List.getElem?_eq_none_iff]
    have hlt' := lt_iff_toNat_lt.mp hlt
    omega
  · rintro hdense ⟨address, id⟩
    exact (hnumbered address id).trans (h.getElem?_failuresOf hdense address id)

end MaanyDex.ContractManager
