/-
The keeper of `x/mintburn`: parameters, the module's key-value store and the
two bank operations of the mirrored token.

Follows `types/params.go`, `types/keys.go` and `keeper/keeper.go`.  The store
holds four kinds of entry: the parameters (as JSON), the consumed packet
proofs, the allow-listed transfer channels, and the mirror supply as decimal
text.
-/
import MaanyDex.Lib.KVStore
import MaanyDex.Sdk.Bank

namespace MaanyDex.MintBurn

/-! ### Parameters -/

structure Params where
  authority : Bytes
  pause : Bool
  allowedBaseDenoms : List Denom
  providerChainIDs : List Bytes
  dexNativeDenom : Denom
  deriving DecidableEq

def defaultParams : Params where
  authority := []
  pause := false
  allowedBaseDenoms := [ascii "stake"]
  providerChainIDs := [ascii "maany-mainnet"]
  dexNativeDenom := ascii "umaany"

/-- The class `[a-zA-Z0-9\-]`. -/
def isChainIDByte (b : UInt8) : Bool := isLetter b || (48 ≤ b && b ≤ 57) || b == 45

/-- The regular expression `^[a-zA-Z][a-zA-Z0-9\-]{2,64}$`. -/
def matchChainID : Bytes → Bool
  | [] => false
  | b :: bs => isLetter b && bs.all isChainIDByte && 2 ≤ bs.length && bs.length ≤ 64

/-- The length of the UTF-8 encoded space character at the front, `0` if there
is none (`unicode.IsSpace`). -/
def spaceLength : Bytes → ℕ
  | b :: bs =>
    if b ∈ [9, 10, 11, 12, 13, 32] then 1
    else if b = 0xC2 then
      if bs.head? ∈ [some 0x85, some 0xA0] then 2 else 0
    else if bs.take 2 ∈ [[0x9A, 0x80]] ∧ b = 0xE1 then 3
    else if bs.take 2 ∈ [[0x80, 0xA8], [0x80, 0xA9], [0x80, 0xAF], [0x81, 0x9F]]
        ∧ b = 0xE2 then 3
    else if (∃ c ∈ (bs.drop 1).head?, 0x80 ≤ c ∧ c ≤ 0x8A) ∧ bs.head? = some 0x80
        ∧ b = 0xE2 then 3
    else if bs.take 2 = [0x80, 0x80] ∧ b = 0xE3 then 3
    else 0
  | [] => 0

/-- `strings.TrimSpace(s) == ""`: nothing but space characters. -/
def trimSpaceEmpty (s : Bytes) : Bool := go s.length s
where
  /-- Drop one space character after another. -/
  go : ℕ → Bytes → Bool
    | 0, s => s.isEmpty
    | n + 1, s => if spaceLength s = 0 then s.isEmpty else go n (s.drop (spaceLength s))

def Params.validate (p : Params) : Result Unit :=
  if p.providerChainIDs = [] then .error (.err "provider_chain_ids must not be empty")
  else match p.providerChainIDs.find? fun cid => !matchChainID cid with
    | some cid => .error (.errf "invalid provider chain-id: %q" cid)
    | none =>
      if p.allowedBaseDenoms = [] then .error (.err "allowed_base_denoms must not be empty")
      else if p.allowedBaseDenoms.any trimSpaceEmpty then
        .error (.err "empty denom in allowed_base_denoms")
      else if trimSpaceEmpty p.dexNativeDenom then
        .error (.err "dex_native_denom must not be empty")
      else .ok ()

lemma validate_defaultParams : defaultParams.validate = .ok () := by
  decide

/-! ### The store -/

def moduleName : Bytes := ascii "mintburn"

def keyParams : Bytes := ascii "params"

def keyProofPrefix : Bytes := ascii "proof/"

def keyAllowedChan : Bytes := ascii "allowed-channel/"

def keyMirrorSupply : Bytes := ascii "mirror_supply"

/-! Entries of different kinds have different keys. -/

lemma keyMirrorSupply_ne_proof (id : Bytes) : keyMirrorSupply ≠ keyProofPrefix ++ id :=
  Split.ne_append_of_take_ne (by decide) id

lemma keyMirrorSupply_ne_allowedChan (c : Bytes) : keyMirrorSupply ≠ keyAllowedChan ++ c :=
  Split.ne_append_of_take_ne (by decide) c

lemma keyParams_ne_proof (id : Bytes) : keyParams ≠ keyProofPrefix ++ id :=
  Split.ne_append_of_take_ne (by decide) id

lemma keyParams_ne_allowedChan (c : Bytes) : keyParams ≠ keyAllowedChan ++ c :=
  Split.ne_append_of_take_ne (by decide) c

lemma keyParams_ne_mirrorSupply : keyParams ≠ keyMirrorSupply := by
  decide

/-- What the keeper's functions call that is not part of the module: the JSON
decoder of the parameters (besides the SDK's functions). -/
structure KeeperEnv extends Sdk where
  /-- `json.Unmarshal` into `types.Params`. -/
  unmarshalParams : Bytes → Option Params

variable (env : KeeperEnv) (store : KVStore)

/-- `GetParams`: the defaults when nothing usable is stored. -/
def getParams : Params :=
  match store.get keyParams with
  | none => defaultParams
  | some bz => if bz = [] then defaultParams else (env.unmarshalParams bz).getD defaultParams

def hasProof (store : KVStore) (id : Bytes) : Bool := store.has (keyProofPrefix ++ id)

def consumeProof (store : KVStore) (id : Bytes) : KVStore := store.set (keyProofPrefix ++ id) [1]

def isAllowedChannel (channelID : Bytes) : Bool :=
  store.has (keyAllowedChan ++ channelID)

/-- `GetMirrorSupply`: zero when nothing readable is stored. -/
def getMirrorSupply : ℤ :=
  match store.get keyMirrorSupply with
  | none => 0
  | some bz => if bz = [] then 0 else (env.newIntFromString bz).getD 0

/-- `sdk.Int` arithmetic panics on results beyond 256 bits. -/
def checkInt (x : ℤ) : Result ℤ :=
  if |x| < 2 ^ 256 then .ok x else .error (.panic "Int overflow")

def addMirrorSupply (amt : ℤ) : Result KVStore := do
  let next ← checkInt (getMirrorSupply env store + amt)
  return store.set keyMirrorSupply (Decimal.formatInt next)

/-- `SubMirrorSupply`, with its clamp at zero. -/
def subMirrorSupply (amt : ℤ) : Result KVStore := do
  let next ← checkInt (getMirrorSupply env store - amt)
  return store.set keyMirrorSupply (Decimal.formatInt (if next < 0 then 0 else next))

/-! ### Minting and burning

Both keeper functions may fail half-way.  What the bank did before the failure
is returned with the error: a caller that swallows the error keeps it. -/

def mintTokens (b : Bank) (recipient : Address) (amount : Coin) : Bank × Option Fault :=
  match newCoins env.toSdk [amount] with
  | .error f => (b, some f)
  | .ok coins =>
    match b.mintCoins env.toSdk moduleName coins with
    | .error f => (b, some f)
    | .ok b₁ =>
      match b₁.sendCoinsFromModuleToAccount env.toSdk moduleName recipient coins with
      | .error f => (b₁, some f)
      | .ok b₂ => (b₂, none)

def burnEscrowedTokens (b : Bank) (escrowAddr : Address) (coin : Coin) : Bank × Option Fault :=
  match newCoins env.toSdk [coin] with
  | .error f => (b, some f)
  | .ok coins =>
    match b.sendCoinsFromAccountToModule env.toSdk escrowAddr moduleName coins with
    | .error f => (b, some f)
    | .ok b₁ =>
      match b₁.burnCoins env.toSdk moduleName coins with
      | .error f => (b₁, some f)
      | .ok b₂ => (b₂, none)

/-! ### What the keeper's functions do -/

variable {env} {store store' : KVStore} {amt : ℤ} {b b' : Bank} {rcpt src : Address} {c : Coin}

lemma checkInt_ok {x y : ℤ} (h : checkInt x = .ok y) : y = x ∧ |x| < 2 ^ 256 := by
  unfold checkInt at h
  split at h
  · cases h
    exact ⟨rfl, ‹_›⟩
  · cases h

lemma getMirrorSupply_set {x : ℤ} (h : |x| < 2 ^ 256) :
    getMirrorSupply env (store.set keyMirrorSupply (Decimal.formatInt x)) = x := by
  unfold getMirrorSupply
  rw [KVStore.get_set_self]
  simp [Decimal.formatInt_ne_nil, env.newIntFromString_formatInt x h]

lemma addMirrorSupply_ok (h : addMirrorSupply env store amt = .ok store') :
    getMirrorSupply env store' = getMirrorSupply env store + amt ∧
    KVStore.SameOn (· ≠ keyMirrorSupply) store store' := by
  unfold addMirrorSupply at h
  rcases e : checkInt (getMirrorSupply env store + amt) with f | next
  · rw [e] at h
    cases h
  · rw [e] at h
    cases h
    obtain ⟨rfl, hlt⟩ := checkInt_ok e
    exact ⟨getMirrorSupply_set hlt, KVStore.sameOn_set (by simp)⟩

lemma subMirrorSupply_ok (h : subMirrorSupply env store amt = .ok store') :
    getMirrorSupply env store' = max 0 (getMirrorSupply env store - amt) ∧
    KVStore.SameOn (· ≠ keyMirrorSupply) store store' := by
  unfold subMirrorSupply at h
  rcases e : checkInt (getMirrorSupply env store - amt) with f | next
  · rw [e] at h
    cases h
  · rw [e] at h
    cases h
    obtain ⟨rfl, hlt⟩ := checkInt_ok e
    refine ⟨?_, KVStore.sameOn_set (by simp)⟩
    split
    · rename_i hneg
      rw [getMirrorSupply_set (by norm_num), max_eq_left (by omega)]
    · rename_i hpos
      rw [getMirrorSupply_set hlt, max_eq_right (by omega)]

lemma consumeProof_sameOn (id : Bytes) :
    KVStore.SameOn (· ≠ keyProofPrefix ++ id) store (consumeProof store id) :=
  KVStore.sameOn_set (by simp)

lemma getParams_eq (h : store'.get keyParams = store.get keyParams) :
    getParams env store' = getParams env store := by
  unfold getParams
  rw [h]

lemma getMirrorSupply_eq (h : store'.get keyMirrorSupply = store.get keyMirrorSupply) :
    getMirrorSupply env store' = getMirrorSupply env store := by
  unfold getMirrorSupply
  rw [h]

section

variable (hd : env.validDenom c.denom = true) (ha : 0 < c.amount)

include hd ha

lemma mintTokens_ok
    (h : mintTokens env b rcpt c = (b', none)) : Bank.Minted moduleName rcpt [c] b b' := by
  unfold mintTokens at h
  rw [newCoins_singleton hd ha] at h
  rcases e₁ : b.mintCoins env.toSdk moduleName [c] with f | b₁
  · simp [e₁] at h
  · rcases e₂ : b₁.sendCoinsFromModuleToAccount env.toSdk moduleName rcpt [c] with f | b₂
    · simp [e₁, e₂] at h
    · simp only [e₁, e₂, Prod.mk.injEq, and_true] at h
      rw [← h]
      exact (Bank.mintCoins_ok e₁).sent (Bank.sendCoinsFromModuleToAccount_ok e₂).2

/-- `MintTokens` succeeds exactly when the supply has room for the coin and the
recipient is not blocked. -/
lemma mintTokens_succeeds_iff :
    (∃ b', mintTokens env b rcpt c = (b', none)) ↔
      b.supply c.denom + c.amount.toNat < 2 ^ 256 ∧ env.blockedAddr rcpt = false := by
  rw [← Bank.mintCoins_singleton (m := moduleName) hd ha]
  unfold mintTokens
  rw [newCoins_singleton hd ha]
  constructor
  · rintro ⟨b', h⟩
    rcases e₁ : b.mintCoins env.toSdk moduleName [c] with f | b₁
    · simp [e₁] at h
    · rcases e₂ : b₁.sendCoinsFromModuleToAccount env.toSdk moduleName rcpt [c] with f | b₂
      · simp [e₁, e₂] at h
      · exact ⟨⟨b₁, rfl⟩, (Bank.sendCoinsFromModuleToAccount_ok e₂).1⟩
  · rintro ⟨⟨b₁, e₁⟩, hblk⟩
    -- the module account holds what it has just issued
    have hbal : c.amount.toNat ≤ b₁.balance (.moduleAccount moduleName) c.denom := by
      rw [(Bank.mintCoins_ok e₁).balance]
      simp
    obtain ⟨b₂, e₂⟩ : ∃ b₂, b₁.sendCoins env.toSdk (.moduleAccount moduleName) rcpt [c] = .ok b₂ :=
      (Bank.sendCoins_singleton hd ha).mpr hbal
    refine ⟨b₂, ?_⟩
    simp [e₁, Bank.sendCoinsFromModuleToAccount, hblk, e₂]

/-- `BurnEscrowedTokens` either destroys the coin held in escrow or, when the
escrow account does not hold it, changes nothing. -/
lemma burnEscrowedTokens_cases :
    (∃ b', burnEscrowedTokens env b src c = (b', none) ∧
      c.amount.toNat ≤ b.balance src c.denom ∧ Bank.Burned moduleName src [c] b b') ∨
    (∃ f, burnEscrowedTokens env b src c = (b, some f) ∧
      b.balance src c.denom < c.amount.toNat) := by
  unfold burnEscrowedTokens Bank.sendCoinsFromAccountToModule
  rw [newCoins_singleton hd ha]
  by_cases hle : c.amount.toNat ≤ b.balance src c.denom
  · refine Or.inl ?_
    obtain ⟨b₁, e₁⟩ : ∃ b₁, b.sendCoins env.toSdk src (.moduleAccount moduleName) [c] = .ok b₁ :=
      (Bank.sendCoins_singleton hd ha).mpr hle
    have hs := Bank.sendCoins_ok e₁
    have hbal : c.amount.toNat ≤ b₁.balance (.moduleAccount moduleName) c.denom := by
      have e := hs.balance (.moduleAccount moduleName) c.denom
      simp only [total_cons, total_nil, if_true, Nat.add_zero] at e
      split at e
      · rename_i hsrc
        rw [← hsrc] at hle
        omega
      · omega
    obtain ⟨b₂, e₂⟩ := Bank.burnCoins_singleton hd ha hbal
    refine ⟨b₂, ?_, hle, hs.burned_after (Bank.burnCoins_ok e₂)⟩
    simp [e₁, e₂]
  · refine Or.inr ?_
    rcases e₁ : b.sendCoins env.toSdk src (.moduleAccount moduleName) [c] with f | b₁
    · exact ⟨f, by simp [e₁], by omega⟩
    · exact absurd ((Bank.sendCoins_singleton hd ha).mp ⟨b₁, e₁⟩) hle

end

end MaanyDex.MintBurn
