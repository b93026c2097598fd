/-
What `InitGenesis` issues, and what backs it.

Every escrow id of the provider is minted once, for its first intent
(`initGenesis_exactlyOnce`), since with a fixed provider the claimed index is
keyed by the escrow id alone.

The proof of an intent covers a store name, a key and a value, while the mint
uses the escrow id, the amount and the recipient, and nothing ties the two
together.  So the mints have backing of their own exactly when the list of
intents happens to provide it (`distinctBacking_iff`).

The claimed index is looked up before the provider is compared.  So an intent of
another provider is skipped if its joined ids are recorded, and refused otherwise.
-/
import MaanyDex.GenesisMint.Genesis

namespace MaanyDex.GenesisMint

open List

variable {env : GenesisEnv} {doc : GenesisDoc} {gs : GenesisState} {params : Params}
  {bank : Bank} {s' : State}

/-! ### Exactly once -/

/-- The intents `firsts`, and no others, were minted; processing any of `mints`
again changes nothing. -/
structure ExactlyOnce (env : Env) (params : Params) (firsts : List MintIntent)
    (mints : List (Option MintIntent)) (bank : Bank) (s' : State) : Prop where
  minted : ∀ a, s'.bank.balance a params.mintDenom = bank.balance a params.mintDenom
    + ((firsts.filter fun m => recipientOf env m = some a).map (amountOf env)).sum
  otherDenoms : ∀ a d, d ≠ params.mintDenom → s'.bank.balance a d = bank.balance a d
  claimed : ∀ k, [0x11] <+: k ∧ s'.store.has k = true ↔
    ∃ m ∈ firsts, k = claimedKey params.providerChainId m.escrowId
  pending : ∀ k, [0x12] <+: k ∧ s'.store.has k = true ↔
    ∃ m ∈ firsts, k = pendingClaimKey params.providerChainId m.escrowId
  again : ∀ m ∈ mints, processGenesisMint env (some params) m true s' = .ok s'

variable {ms : List MintIntent}

lemma MintRun.has_iff
    (h : MintRun env.toEnv params ms (configured env doc (blank bank)) s') {slot : Bytes → Slot}
    {t : UInt8} (hslot : slot = Slot.claimed ∧ t = 0x11 ∨ slot = Slot.pending ∧ t = 0x12)
    (k : Bytes) : [t] <+: k ∧ s'.store.has k = true ↔ ∃ m ∈ ms, k = (slot m.claim).key := by
  constructor
  · rintro ⟨ht, hk⟩
    by_contra hn
    -- a key that no mint wrote is as it was before the first one
    have hne : ∀ m ∈ ms, k ≠ (Slot.claimed m.claim).key ∧ k ≠ (Slot.pending m.claim).key := by
      intro m hm
      rcases hslot with ⟨rfl, rfl⟩ | ⟨rfl, rfl⟩
      · refine ⟨fun e => hn ⟨m, hm, e⟩, ?_⟩
        rintro rfl
        exact absurd (Slot.tag_prefix_key.mp ht) (of_decide_eq_false rfl)
      · refine ⟨?_, fun e => hn ⟨m, hm, e⟩⟩
        rintro rfl
        exact absurd (Slot.tag_prefix_key.mp ht) (of_decide_eq_false rfl)
    have h15 : ¬ [0x15] <+: k := by
      rintro ⟨r, rfl⟩
      rcases hslot with ⟨-, rfl⟩ | ⟨-, rfl⟩
      · simp at ht
      · simp at ht
    obtain ⟨v, hv⟩ := KVStore.has_eq_true.mp hk
    rw [h.get_of_ne hne, configured_blank_get h15] at hv
    cases hv
  · rintro ⟨m, hm, rfl⟩
    obtain ⟨hc, hp⟩ := h.get_of_mem hm
    rcases hslot with ⟨rfl, rfl⟩ | ⟨rfl, rfl⟩
    · exact ⟨Slot.tag_prefix_key.mpr rfl, KVStore.has_eq_true.mpr ⟨_, hc⟩⟩
    · exact ⟨Slot.tag_prefix_key.mpr rfl, KVStore.has_eq_true.mpr ⟨_, hp⟩⟩

variable {m : MintIntent}

lemma claim_of_mem {seen : List Bytes} (h : m ∈ firstOfEachEscrow seen (ofProvider params ms)) :
    m.claim = claimID params.providerChainId m.escrowId := by
  have hp : m.providerChainId = params.providerChainId := by
    have hm := (mem_firstOfEachEscrow h).1
    simpa [ofProvider] using (mem_filter.mp hm).2
  rw [MintIntent.claim, hp]

/-- When `InitGenesis` succeeds on a blank chain, the first intent of every escrow id among the
intents of the provider is minted, recorded and queued, and nothing else is. -/
lemma initGenesis_ofProvider (hgs : genesisOf env doc = some gs)
    (hparams : gs.params = some params) (h : initGenesis env doc (blank bank) = .ok s') :
    ExactlyOnce env.toEnv params (firstOfEachEscrow [] (ofProvider params gs.intents))
      gs.mints bank s' := by
  obtain ⟨gs', params', hgs', hp', hrun, -, hall⟩ := initGenesis_blank h
  obtain rfl : gs' = gs := Option.some.inj (hgs'.symm.trans hgs)
  obtain rfl : params' = params := Option.some.inj (hp'.symm.trans hparams)
  constructor
  · intro a
    rw [hrun.balance, if_pos rfl]
    rfl
  · intro a d hd
    rw [hrun.balance, if_neg (Ne.symm hd)]
    rfl
  · intro k
    rw [hrun.has_iff (.inl ⟨rfl, rfl⟩)]
    refine exists_congr fun m => and_congr_right fun hm => ?_
    rw [claim_of_mem hm]
    rfl
  · intro k
    rw [hrun.has_iff (.inr ⟨rfl, rfl⟩)]
    refine exists_congr fun m => and_congr_right fun hm => ?_
    rw [claim_of_mem hm]
    rfl
  · intro intent hmem
    -- every intent of the list is recorded by now
    obtain ⟨m, rfl, hclaim⟩ := hall intent hmem
    exact processGenesisMint_claimed hclaim

/-- If the first intents are of the provider, the others do not matter. -/
lemma firstOfEachEscrow_ofProvider {seen : List Bytes}
    (h : ∀ m ∈ firstOfEachEscrow seen ms, m.providerChainId = params.providerChainId) :
    firstOfEachEscrow seen (ofProvider params ms) = firstOfEachEscrow seen ms := by
  induction ms generalizing seen with
  | nil => rfl
  | cons m ms ih =>
    rw [firstOfEachEscrow] at h ⊢
    by_cases hseen : m.escrowId ∈ seen
    · rw [if_pos hseen] at h ⊢
      rw [← ih h]
      by_cases hprovider : m.providerChainId = params.providerChainId
      · simp [ofProvider, firstOfEachEscrow, hprovider, hseen]
      · simp [ofProvider, hprovider]
    · rw [if_neg hseen] at h ⊢
      have hprovider := h m mem_cons_self
      rw [← ih fun m' hm' => h m' (mem_cons_of_mem _ hm')]
      simp [ofProvider, firstOfEachEscrow, hprovider, hseen]

/-- Two intents of one escrow id: only the first is minted. -/
def repeatedIntents : List MintIntent :=
  [chainIntent "maany-1" "7" "50" "alice", chainIntent "maany-1" "7" "20" "bob"]

/-- An intent of the provider `maany-1|7`, after one of `maany-1` with the same
joined ids. -/
def foreignIntents : List MintIntent :=
  [chainIntent "maany-1" "7|8" "50" "alice", chainIntent "maany-1|7" "8" "20" "bob"]

/-- The store name and key an intent is proven under. -/
def provenKey (m : MintIntent) : Option (Bytes × Bytes) :=
  (entryOf m).map fun entry => (entry.storeName, entry.key)

def provenValue (m : MintIntent) : Option Bytes := (entryOf m).map Entry.value

/-- Every mint is proven, by an entry of its own, and what is minted is what `f` reads in the value
of that entry. -/
structure DistinctBacking (env : Env) (params : Params) (f : Bytes → ℕ × Bytes × Bytes)
    (minted : List MintIntent) : Prop where
  proven : ∀ m ∈ minted, ∃ entry, entryOf m = some entry ∧ verifyProof env params m entry = .ok ()
  entries : ∀ m ∈ minted, ∀ m' ∈ minted, m.escrowId ≠ m'.escrowId → provenKey m ≠ provenKey m'
  values : ∀ m ∈ minted, (provenValue m).map f = some (amountOf env m, m.recipient, m.escrowId)

variable {s : State}

lemma MintRun.proven {env : Env} {s' : State} (h : MintRun env params ms s s') (hm : m ∈ ms) :
    ∃ entry, entryOf m = some entry ∧ verifyProof env params m entry = .ok () := by
  induction h with
  | nil s => cases hm
  | cons head tail ih =>
    rcases mem_cons.mp hm with rfl | hm
    · obtain ⟨entry, he, hp⟩ := head.proven
      exact ⟨entry, he, hp⟩
    · exact ih hm

/-- Intents with different escrow ids have keys of their own exactly when no key
occurs twice. -/
lemma entries_iff_nodup (hid : (ms.map MintIntent.escrowId).Nodup) :
    (∀ m ∈ ms, ∀ m' ∈ ms, m.escrowId ≠ m'.escrowId → provenKey m ≠ provenKey m')
      ↔ (ms.map provenKey).Nodup := by
  rw [nodup_map_iff_inj_on hid.of_map]
  constructor
  · intro h m hm m' hm' hkey
    by_contra hne
    exact h m hm m' hm' (fun e => hne (inj_on_of_nodup_map hid hm hm' e)) hkey
  · intro h m hm m' hm' hne hkey
    exact hne (congrArg _ (h m hm m' hm' hkey))

/-- **Backing of genesis mints**: for every reading `f` of proven values, the mints of a successful
`InitGenesis` have backing of their own if and only if the first intents of the escrow ids name
pairwise different entries, and say what `f` reads in their values. -/
theorem distinctBacking_iff (f : Bytes → ℕ × Bytes × Bytes) (hgs : genesisOf env doc = some gs)
    (hparams : gs.params = some params) (h : initGenesis env doc (blank bank) = .ok s') :
    DistinctBacking env.toEnv params f
        (mintTrace env.toEnv gs.params (configured env doc (blank bank)) gs.mints)
      ↔ ((firstOfEachEscrow [] (ofProvider params gs.intents)).map provenKey).Nodup
        ∧ ∀ m ∈ firstOfEachEscrow [] (ofProvider params gs.intents),
          (provenValue m).map f = some (amountOf env.toEnv m, m.recipient, m.escrowId) := by
  obtain ⟨gs', params', hgs', hp', hrun, htrace, -⟩ := initGenesis_blank h
  obtain rfl : gs' = gs := Option.some.inj (hgs'.symm.trans hgs)
  obtain rfl : params' = params := Option.some.inj (hp'.symm.trans hparams)
  rw [hparams, htrace]
  have hid : ((firstOfEachEscrow [] (ofProvider params' gs'.intents)).map
      MintIntent.escrowId).Nodup := by
    rw [List.Nodup, pairwise_map]
    exact pairwise_firstOfEachEscrow
  rw [← entries_iff_nodup hid]
  constructor
  · intro hback
    exact ⟨hback.entries, hback.values⟩
  · rintro ⟨hentries, hvalues⟩
    exact ⟨fun m hm => hrun.proven hm, hentries, hvalues⟩

/-- The mints of a genesis with the given intents are backed. -/
def Backed (env : GenesisEnv) (ms : List MintIntent) (f : Bytes → ℕ × Bytes × Bytes) : Prop :=
  DistinctBacking env.toEnv chainParams f (mintTrace env.toEnv (some chainParams)
    (configured env chainDoc (blank Bank.empty)) (ms.map some))

/-- Two escrow ids with entries of their own: `50` under `esc` and `20` under `esd`. -/
def twoEntries : List MintIntent :=
  [chainIntent "maany-1" "7" "50" "alice", { chainIntent "maany-1" "8" "20" "bob" with
    keyPath := [ascii "mintburn", ascii "657364"], value := ascii "MjA=" }]

def twoEntriesEnv : GenesisEnv :=
  chainGenesis [(chainDoc, chainGenesisState twoEntries)]
    [chainMembership, (ascii "proof", ascii "root", ascii "mintburn", ascii "esd", ascii "20")]

theorem twoEntries_backed : Backed twoEntriesEnv twoEntries fun v =>
      if v = ascii "50" then (50, ascii "alice", ascii "7") else (20, ascii "bob", ascii "8") := by
  obtain ⟨s', h⟩ := exists_ok (show (initGenesis twoEntriesEnv chainDoc
    (blank Bank.empty)).isOk = true by decide +kernel)
  have hgs : genesisOf twoEntriesEnv chainDoc = some (chainGenesisState twoEntries) := by
    decide +kernel
  apply (distinctBacking_iff _ hgs rfl h).mpr
  decide +kernel

/-- Two escrow ids, one proven entry. -/
def reusedEntry : List MintIntent :=
  [chainIntent "maany-1" "7" "50" "alice", chainIntent "maany-1" "8" "50" "bob"]

def fairMint : List MintIntent := [chainIntent "maany-1" "7" "50" "alice"]

/-- The proven value is still `50`. -/
def unfairMint : List MintIntent := [chainIntent "maany-1" "7" "1000000" "mallory"]

/-- **One proven entry is minted twice**, for two recipients; and in two documents for different
amounts, so that no reading of its value fits both. -/
theorem provenEntry_minted_twice :
    (∃ s', initGenesis (chainEnv reusedEntry) chainDoc (blank Bank.empty) = .ok s'
        ∧ s'.bank.supply (ascii "umaany") = 100)
      ∧ (∀ f, ¬Backed (chainEnv reusedEntry) reusedEntry f)
      ∧ ∀ f, Backed (chainEnv fairMint) fairMint f → ¬Backed (chainEnv unfairMint) unfairMint f := by
  have htrace : ∀ ms ∈ [reusedEntry, fairMint, unfairMint],
      mintTrace (chainEnv ms).toEnv (some chainParams)
        (configured (chainEnv ms) chainDoc (blank Bank.empty)) (ms.map some) = ms := by
    decide +kernel
  refine ⟨?_, fun f hback => ?_, fun f hfair hunfair => ?_⟩
  · obtain ⟨s', h, hsupply⟩ := Run.ok_of_toOption (show (initGenesis (chainEnv reusedEntry) chainDoc
      (blank Bank.empty)).toOption.map (fun s => s.bank.supply (ascii "umaany")) = some 100 by
        decide +kernel)
    exact ⟨s', h, hsupply⟩
  · have h := hback.entries
    rw [htrace _ (by simp)] at h
    exact h (chainIntent "maany-1" "7" "50" "alice") (by simp [reusedEntry])
      (chainIntent "maany-1" "8" "50" "bob") (by simp [reusedEntry]) (by decide) rfl
  · have h := hfair.values
    have h' := hunfair.values
    rw [htrace _ (by simp)] at h h'
    have hsame : fairMint.map provenValue = unfairMint.map provenValue := by decide +kernel
    have hvalues := h _ (mem_singleton_self _)
    rw [head_eq_of_cons_eq hsame, h' _ (mem_singleton_self _)] at hvalues
    revert hvalues
    decide +kernel

end MaanyDex.GenesisMint
