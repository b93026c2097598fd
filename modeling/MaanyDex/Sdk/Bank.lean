/-
The part of the Cosmos SDK that every module of the chain builds on: faults,
addresses, coins and the bank.

None of this is code of the repository.  Functions whose text is elsewhere
(denomination syntax, integer parsing, bech32, the blocked addresses) are the
fields of `Sdk`, and theorems hold for every choice of them; the one law asked
of them is that `sdk.Int` values survive being written and read back.  Coins and the
bank follow their documented behaviour: `sdk.NewCoins` drops zero amounts and
panics on anything else that is not a valid coin set, and mints, burns and
transfers are exact.  The bank is a `Ledger`, hence covered by its supply, with
the 256-bit bound of `sdk.Int` on every supply and with the log of the
`coinbase` and `burn` events that the SDK's bank emits.
-/
import MaanyDex.Lib.Decimal
import MaanyDex.Lib.Ledger

namespace MaanyDex

open List

/-! ### Faults -/

/-- How a Go call fails: by a returned `error`, whose text may quote one of its
arguments, or by a panic. -/
inductive Fault where
  | err (msg : String)
  | errf (format : String) (arg : Bytes)
  | panic (msg : String)
  deriving DecidableEq

abbrev Result.{u} : Type u → Type u := Except Fault

/-- `fmt.Errorf(head + "%w", err)`; a panic is not wrapped. -/
def Fault.wrap (head : String) : Fault → Fault
  | .err msg => .err (head ++ msg)
  | .errf format arg => .errf (head ++ format) arg
  | .panic msg => .panic msg

/-- `panic(fmt.Errorf(head + "%w", err))`. -/
def Fault.raise (head : String) : Fault → Fault
  | .err msg => .panic (head ++ msg)
  | .errf format _ => .panic (head ++ format)
  | .panic msg => .panic msg

/-! ### Addresses and coins -/

/-- A denomination, as the Go string it is. -/
abbrev Denom := Bytes

/-- Account addresses.  The derived ones (escrow accounts of a channel, module
accounts, pool accounts) are hashes of their arguments in the SDK; keeping them
apart by constructors says that these hashes do not collide. -/
inductive Address where
  | account (bz : Bytes)
  | escrow (port channel : Bytes)
  | moduleAccount (name : Bytes)
  | pool (id : ℕ)
  deriving DecidableEq

/-- Users sign for accounts that have a key: not for escrow, module or pool
accounts. -/
def Address.isUser : Address → Bool
  | .account _ => true
  | _ => false

structure Coin where
  denom : Denom
  amount : ℤ
  deriving DecidableEq

abbrev Coins := List Coin

/-- Functions of the SDK that are not part of the repository. -/
structure Sdk where
  /-- `sdk.ValidateDenom(d) == nil`. -/
  validDenom : Denom → Bool
  /-- `sdkmath.NewIntFromString`. -/
  newIntFromString : Bytes → Option ℤ
  /-- It reads what `Int.String` writes. -/
  newIntFromString_formatInt : ∀ i : ℤ, |i| < 2 ^ 256 →
    newIntFromString (Decimal.formatInt i) = some i
  /-- `sdk.AccAddressFromBech32`. -/
  accAddressFromBech32 : Bytes → Option Address
  /-- `bankkeeper.BlockedAddr`. -/
  blockedAddr : Address → Bool

def isLetter (b : UInt8) : Bool := (65 ≤ b && b ≤ 90) || (97 ≤ b && b ≤ 122)

/-- The bytes allowed in a denomination after its first letter. -/
def isDenomByte (b : UInt8) : Bool := isLetter b || (48 ≤ b && b ≤ 57) || b ∈ ascii "-/:._"

/-- The functions of the SDK as concrete runs need them; an address is written
as its bytes. -/
def chainSdk : Sdk where
  validDenom d := d.head?.any isLetter && d.all isDenomByte && 3 ≤ d.length && d.length ≤ 128
  newIntFromString := Decimal.parseInt 257
  newIntFromString_formatInt i h := by
    obtain ⟨lo, hi⟩ := abs_lt.mp h
    exact Decimal.parseInt_formatInt (by norm_num) lo.le hi
  accAddressFromBech32 s := some (.account s)
  blockedAddr
    | .moduleAccount _ => true
    | _ => false

variable (sdk : Sdk)

def newCoin (denom : Denom) (amount : ℤ) : Result Coin :=
  if sdk.validDenom denom = false then .error (.panic "invalid denom")
  else if amount < 0 then .error (.panic "negative coin amount")
  else .ok ⟨denom, amount⟩

/-- Denominations in ascending byte order, without repetition. -/
def strictlySorted : Coins → Bool
  | c :: c' :: cs => compare c.denom c'.denom == .lt && strictlySorted (c' :: cs)
  | _ => true

variable (cs : Coins)

/-- `Coins.IsValid`: valid denominations, positive amounts, strictly sorted. -/
def isValid : Bool :=
  cs.all (fun c => sdk.validDenom c.denom && decide (0 < c.amount)) && strictlySorted cs

/-- `sdk.NewCoins`: drop the zero coins, sort, and panic if the rest is not a
valid coin set. -/
def newCoins : Result Coins :=
  let cs' := (cs.filter fun c => c.amount ≠ 0).insertionSort
    fun c c' => compare c.denom c'.denom ≠ .gt
  if isValid sdk cs' then .ok cs' else .error (.panic "invalid coins")

/-- How much of `d` a list of coins holds. -/
def total (d : Denom) : ℕ :=
  (cs.map fun c => if c.denom = d then c.amount.toNat else 0).sum

@[simp] lemma total_nil (d : Denom) : total [] d = 0 := rfl

@[simp] lemma total_cons (c : Coin) (cs : Coins) (d : Denom) :
    total (c :: cs) d = (if c.denom = d then c.amount.toNat else 0) + total cs d := by
  simp [total]

variable {sdk} {c : Coin}

lemma newCoin_ok {denom : Denom} {amount : ℤ} (h : newCoin sdk denom amount = .ok c) :
    c = ⟨denom, amount⟩ ∧ sdk.validDenom denom = true ∧ 0 ≤ amount := by
  unfold newCoin at h
  split at h
  · cases h
  · split at h
    · cases h
    · rename_i hd ha
      cases h
      exact ⟨rfl, by simpa using hd, by omega⟩

lemma newCoins_singleton (hd : sdk.validDenom c.denom = true)
    (ha : 0 < c.amount) : newCoins sdk [c] = .ok [c] := by
  have hne : c.amount ≠ 0 := by omega
  simp [newCoins, hne, isValid, strictlySorted, hd, ha]

lemma total_filter_ne_zero (d : Denom) :
    total (cs.filter fun c => c.amount ≠ 0) d = total cs d := by
  induction cs with
  | nil => rfl
  | cons c cs ih =>
    by_cases hc : c.amount = 0
    · rw [filter_cons_of_neg (by simp [hc]), ih, total_cons]
      simp [hc]
    · rw [filter_cons_of_pos (by simp [hc]), total_cons, total_cons, ih]

variable {d : Denom}

lemma total_newCoins {cs cs' : Coins} (h : newCoins sdk cs = .ok cs') :
    total cs' d = total cs d := by
  simp only [newCoins] at h
  split at h
  · cases h
    have hperm := perm_insertionSort (fun c c' : Coin => compare c.denom c'.denom ≠ .gt)
      (cs.filter fun c => c.amount ≠ 0)
    have hsort := (hperm.map fun c => if c.denom = d then c.amount.toNat else 0).sum_eq
    exact hsort.trans (total_filter_ne_zero cs d)
  · cases h

lemma pos_of_isValid {cs : Coins} (h : isValid sdk (c :: cs) = true) : 0 < c.amount := by
  simp only [isValid, all_cons, Bool.and_eq_true, decide_eq_true_eq] at h
  exact h.1.1.2

lemma isValid_singleton (hd : sdk.validDenom c.denom = true)
    (ha : 0 < c.amount) : isValid sdk [c] = true := by
  simp [isValid, strictlySorted, hd, ha]

/-! ### The bank -/

/-- The `coinbase` and `burn` events of the bank. -/
inductive BankEvent where
  | coinbase (minter : Bytes) (coin : Coin)
  | burn (burner : Bytes) (coin : Coin)

/-- The bank: balances and supplies, and the events emitted so far. -/
structure Bank where
  ledger : Ledger Address Denom
  events : List BankEvent
  bounded : ∀ d, ledger.supply d < 2 ^ 256

namespace Bank

/-- `GetBalance`. -/
def balance (b : Bank) (a : Address) (d : Denom) : ℕ := b.ledger.balance a d

/-- `GetSupply`. -/
def supply (b : Bank) (d : Denom) : ℕ := b.ledger.supply d

/-- A bank in which nothing was ever issued. -/
def empty : Bank where
  ledger := Ledger.empty
  events := []
  bounded _ := by simp [Ledger.empty]

variable (b : Bank) (m : Bytes)

/-- How much of `d` the module `m` has issued. -/
def minted (d : Denom) : ℕ :=
  total (b.events.filterMap fun
    | .coinbase m' c => if m' = m then some c else none
    | .burn _ _ => none) d

/-- How much of `d` the module `m` has destroyed. -/
def burned (d : Denom) : ℕ :=
  total (b.events.filterMap fun
    | .coinbase _ _ => none
    | .burn m' c => if m' = m then some c else none) d

/-- One coin of `MintCoins`; the addition panics beyond 256 bits. -/
def mintCoin (b : Bank) (c : Coin) : Result Bank :=
  if h : b.ledger.supply c.denom + c.amount.toNat < 2 ^ 256 then
    .ok {
      ledger := b.ledger.mint (.moduleAccount m) c.denom c.amount.toNat
      events := b.events ++ [.coinbase m c]
      bounded := by
        intro d
        rw [Ledger.supply_mint]
        split
        · rename_i e
          rw [e]
          exact h
        · exact b.bounded d }
  else .error (.panic "integer overflow")

/-- One coin of `SendCoins`. -/
def sendCoin (src dst : Address) (b : Bank) (c : Coin) : Result Bank :=
  if h : c.amount.toNat ≤ b.ledger.balance src c.denom then
    .ok {
      ledger := b.ledger.transfer src dst c.denom c.amount.toNat h
      events := b.events
      bounded := by
        intro d
        rw [Ledger.supply_transfer]
        exact b.bounded d }
  else .error (.err "insufficient funds")

/-- One coin of `BurnCoins`. -/
def burnCoin (b : Bank) (c : Coin) : Result Bank :=
  if h : c.amount.toNat ≤ b.ledger.balance (.moduleAccount m) c.denom then
    .ok {
      ledger := b.ledger.burn (.moduleAccount m) c.denom c.amount.toNat h
      events := b.events ++ [.burn m c]
      bounded := by
        intro d
        have e := b.ledger.supply_burn h d
        have hb := b.bounded d
        omega }
  else .error (.err "insufficient funds")

variable (sdk)

/-- `MintCoins`, for a module with the minter permission. -/
def mintCoins (b : Bank) (m : Bytes) (cs : Coins) : Result Bank :=
  if isValid sdk cs then cs.foldlM (mintCoin m) b else .error (.err "invalid coins")

def sendCoins (src dst : Address) (cs : Coins) : Result Bank :=
  if isValid sdk cs then cs.foldlM (sendCoin src dst) b else .error (.err "invalid coins")

/-- `BurnCoins`, for a module with the burner permission. -/
def burnCoins (b : Bank) (m : Bytes) (cs : Coins) : Result Bank :=
  if isValid sdk cs then cs.foldlM (burnCoin m) b else .error (.err "invalid coins")

def sendCoinsFromModuleToAccount (dst : Address) (cs : Coins) : Result Bank :=
  if sdk.blockedAddr dst then .error (.err "is not allowed to receive funds")
  else b.sendCoins sdk (.moduleAccount m) dst cs

def sendCoinsFromAccountToModule (src : Address) (m : Bytes) (cs : Coins) : Result Bank :=
  b.sendCoins sdk src (.moduleAccount m) cs

/-! ### What a successful bank call does -/

/-- `b'` is `b` after `m` issued the coins `cs` and they reached `dst`. -/
structure Minted (m : Bytes) (dst : Address) (cs : Coins) (b b' : Bank) : Prop where
  balance : ∀ a d, b'.balance a d = b.balance a d + if a = dst then total cs d else 0
  supply : ∀ d, b'.supply d = b.supply d + total cs d
  events : b'.events = b.events ++ cs.map (.coinbase m)

/-- `b'` is `b` after the coins `cs` moved from `src` to `dst`. -/
structure Sent (src dst : Address) (cs : Coins) (b b' : Bank) : Prop where
  balance : ∀ a d, b'.balance a d + (if a = src then total cs d else 0)
    = b.balance a d + if a = dst then total cs d else 0
  supply : ∀ d, b'.supply d = b.supply d
  events : b'.events = b.events

/-- `b'` is `b` after `m` destroyed the coins `cs` that came from `src`. -/
structure Burned (m : Bytes) (src : Address) (cs : Coins) (b b' : Bank) : Prop where
  balance : ∀ a d, b'.balance a d + (if a = src then total cs d else 0) = b.balance a d
  supply : ∀ d, b'.supply d + total cs d = b.supply d
  events : b'.events = b.events ++ cs.map (.burn m)

lemma single_eq_ite {a a' : Address} : Ledger.single a c.denom c.amount.toNat a' d
      = if a' = a then (if c.denom = d then c.amount.toNat else 0) else 0 := by
  unfold Ledger.single
  by_cases ha : a' = a
  · by_cases hd : d = c.denom
    · simp [ha, hd]
    · simp [ha, hd, Ne.symm hd]
  · simp [ha]

variable {sdk} {m : Bytes} {src dst : Address} {c : Coin} {cs : Coins} {b b₁ b' : Bank}

lemma mintCoin_ok (h : mintCoin m b c = .ok b') : Minted m (.moduleAccount m) [c] b b' := by
  unfold mintCoin at h
  split at h
  · cases h
    refine ⟨fun a d => ?_, fun d => ?_, rfl⟩
    · show b.ledger.balance a d + Ledger.single _ _ _ _ _ = _
      rw [single_eq_ite]
      simp [balance]
    · show b.ledger.supply d + _ = _
      simp [supply, eq_comm]
  · cases h

lemma sendCoin_ok (h : sendCoin src dst b c = .ok b') : Sent src dst [c] b b' := by
  unfold sendCoin at h
  split at h
  · rename_i hle
    cases h
    refine ⟨fun a d => ?_, fun d => ?_, rfl⟩
    · have e := b.ledger.balance_transfer (b := dst) hle a d
      rw [single_eq_ite, single_eq_ite] at e
      simpa [balance] using e
    · exact b.ledger.supply_transfer hle d
  · cases h

lemma burnCoin_ok (h : burnCoin m b c = .ok b') : Burned m (.moduleAccount m) [c] b b' := by
  unfold burnCoin at h
  split at h
  · rename_i hle
    cases h
    refine ⟨fun a d => ?_, fun d => ?_, rfl⟩
    · have e := b.ledger.balance_burn hle a d
      rw [single_eq_ite] at e
      simpa [balance] using e
    · have e := b.ledger.supply_burn hle d
      simpa [supply, eq_comm] using e
  · cases h

/-! One coin after another gives the effect of the whole list. -/

lemma Minted.cons (h : Minted m dst [c] b b₁) (h' : Minted m dst cs b₁ b') :
    Minted m dst (c :: cs) b b' := by
  refine ⟨fun a d => ?_, fun d => ?_, ?_⟩
  · rw [h'.balance, h.balance]
    split <;> simp [Nat.add_assoc]
  · rw [h'.supply, h.supply]
    simp [Nat.add_assoc]
  · rw [h'.events, h.events]
    simp

lemma Sent.cons (h : Sent src dst [c] b b₁) (h' : Sent src dst cs b₁ b') :
    Sent src dst (c :: cs) b b' := by
  refine ⟨fun a d => ?_, fun d => ?_, ?_⟩
  · have e := h.balance a d
    have e' := h'.balance a d
    simp only [total_cons, total_nil, Nat.add_zero] at e ⊢
    by_cases hs : a = src
    · by_cases hd : a = dst
      · simp only [if_pos hs, if_pos hd] at e e' ⊢
        omega
      · simp only [if_pos hs, if_neg hd] at e e' ⊢
        omega
    · by_cases hd : a = dst
      · simp only [if_neg hs, if_pos hd] at e e' ⊢
        omega
      · simp only [if_neg hs, if_neg hd] at e e' ⊢
        omega
  · rw [h'.supply, h.supply]
  · rw [h'.events, h.events]

lemma Burned.cons (h : Burned m src [c] b b₁) (h' : Burned m src cs b₁ b') :
    Burned m src (c :: cs) b b' := by
  refine ⟨fun a d => ?_, fun d => ?_, ?_⟩
  · have e := h.balance a d
    have e' := h'.balance a d
    simp only [total_cons, total_nil, Nat.add_zero] at e ⊢
    by_cases ha : a = src
    · simp only [if_pos ha] at e e' ⊢
      omega
    · simp only [if_neg ha] at e e' ⊢
      omega
  · have e := h.supply d
    have e' := h'.supply d
    simp only [total_cons, total_nil, Nat.add_zero] at e ⊢
    omega
  · rw [h'.events, h.events]
    simp

/-- What holds of each coin and composes, holds of the list. -/
lemma foldlM_coins {op : Bank → Coin → Result Bank} {E : Coins → Bank → Bank → Prop}
    (hnil : ∀ b, E [] b b) (hone : ∀ b c b', op b c = .ok b' → E [c] b b')
    (hcons : ∀ c cs b b₁ b', E [c] b b₁ → E cs b₁ b' → E (c :: cs) b b')
    (h : cs.foldlM op b = .ok b') : E cs b b' := by
  induction cs generalizing b with
  | nil =>
    cases h
    exact hnil _
  | cons c cs ih =>
    rw [foldlM_cons] at h
    rcases e : op b c with f | b₁
    · rw [e] at h
      cases h
    · rw [e] at h
      exact hcons c cs b b₁ b' (hone b c b₁ e) (ih h)

lemma mintCoins_ok (h : b.mintCoins sdk m cs = .ok b') : Minted m (.moduleAccount m) cs b b' := by
  unfold mintCoins at h
  split at h
  · exact foldlM_coins (fun _ => ⟨by simp, by simp, by simp⟩) (fun _ _ _ => mintCoin_ok)
      (fun _ _ _ _ _ => Minted.cons) h
  · cases h

lemma sendCoins_ok (h : b.sendCoins sdk src dst cs = .ok b') : Sent src dst cs b b' := by
  unfold sendCoins at h
  split at h
  · exact foldlM_coins (fun _ => ⟨by simp, by simp, rfl⟩) (fun _ _ _ => sendCoin_ok)
      (fun _ _ _ _ _ => Sent.cons) h
  · cases h

lemma sendCoins_isValid (h : b.sendCoins sdk src dst cs = .ok b') : isValid sdk cs = true := by
  unfold sendCoins at h
  split at h
  · assumption
  · cases h

lemma burnCoins_ok (h : b.burnCoins sdk m cs = .ok b') : Burned m (.moduleAccount m) cs b b' := by
  unfold burnCoins at h
  split at h
  · exact foldlM_coins (fun _ => ⟨by simp, by simp, by simp⟩) (fun _ _ _ => burnCoin_ok)
      (fun _ _ _ _ _ => Burned.cons) h
  · cases h

lemma sendCoinsFromModuleToAccount_ok (h : b.sendCoinsFromModuleToAccount sdk m dst cs = .ok b') :
    sdk.blockedAddr dst = false ∧ Sent (.moduleAccount m) dst cs b b' := by
  unfold sendCoinsFromModuleToAccount at h
  split at h
  · cases h
  · rename_i hb
    exact ⟨by simpa using hb, sendCoins_ok h⟩

/-! Issuing and then passing on, collecting and then destroying. -/

variable {a₀ : Address}

lemma Minted.sent (h : Minted m a₀ cs b b₁) (h' : Sent a₀ dst cs b₁ b') : Minted m dst cs b b' := by
  refine ⟨fun a d => ?_, fun d => ?_, ?_⟩
  · have e := h'.balance a d
    rw [h.balance] at e
    omega
  · rw [h'.supply, h.supply]
  · rw [h'.events, h.events]

lemma Sent.burned_after (h : Sent src a₀ cs b b₁)
    (h' : Burned m a₀ cs b₁ b') : Burned m src cs b b' := by
  refine ⟨fun a d => ?_, fun d => ?_, ?_⟩
  · have e := h.balance a d
    have e' := h'.balance a d
    omega
  · rw [h'.supply, h.supply]
  · rw [h'.events, h.events]

/-! A single valid coin moves, or burns, whenever the payer holds it. -/

section

variable (hd : sdk.validDenom c.denom = true) (ha : 0 < c.amount)

include hd ha

lemma sendCoins_singleton :
    (∃ b', b.sendCoins sdk src dst [c] = .ok b') ↔ c.amount.toNat ≤ b.balance src c.denom := by
  rw [sendCoins, if_pos (isValid_singleton hd ha), foldlM_cons, sendCoin]
  constructor
  · rintro ⟨b', h⟩
    by_contra hn
    rw [dif_neg (by exact hn)] at h
    cases h
  · intro h
    rw [dif_pos (by exact h)]
    exact ⟨_, rfl⟩

lemma mintCoins_singleton :
    (∃ b', b.mintCoins sdk m [c] = .ok b') ↔ b.supply c.denom + c.amount.toNat < 2 ^ 256 := by
  rw [mintCoins, if_pos (isValid_singleton hd ha), foldlM_cons, mintCoin]
  constructor
  · rintro ⟨b', h⟩
    by_contra hn
    rw [dif_neg (by exact hn)] at h
    cases h
  · intro h
    rw [dif_pos (by exact h)]
    exact ⟨_, rfl⟩

lemma burnCoins_singleton (hb : c.amount.toNat ≤ b.balance (.moduleAccount m) c.denom) :
    ∃ b', b.burnCoins sdk m [c] = .ok b' := by
  have hb' : c.amount.toNat ≤ b.ledger.balance (.moduleAccount m) c.denom := hb
  rw [burnCoins, if_pos (isValid_singleton hd ha), foldlM_cons, burnCoin, dif_pos hb']
  exact ⟨_, rfl⟩

end

/-! ### The totals of the event log -/

lemma Minted.minted (h : Minted m dst cs b b') (m' : Bytes) (d : Denom) :
    b'.minted m' d = b.minted m' d + if m = m' then total cs d else 0 := by
  unfold Bank.minted
  rw [h.events, filterMap_append, filterMap_map]
  by_cases hm : m = m'
  · simp [hm, total]
  · simp [hm, total]

lemma Minted.burned (h : Minted m dst cs b b') (m' : Bytes) (d : Denom) :
    b'.burned m' d = b.burned m' d := by
  unfold Bank.burned
  rw [h.events, filterMap_append, filterMap_map]
  simp [total]

lemma Burned.burned (h : Burned m src cs b b') (m' : Bytes) (d : Denom) :
    b'.burned m' d = b.burned m' d + if m = m' then total cs d else 0 := by
  unfold Bank.burned
  rw [h.events, filterMap_append, filterMap_map]
  by_cases hm : m = m'
  · simp [hm, total]
  · simp [hm, total]

lemma Burned.minted (h : Burned m src cs b b') (m' : Bytes) (d : Denom) :
    b'.minted m' d = b.minted m' d := by
  unfold Bank.minted
  rw [h.events, filterMap_append, filterMap_map]
  simp [total]

lemma Sent.minted (h : Sent src dst cs b b') (m' : Bytes) (d : Denom) :
    b'.minted m' d = b.minted m' d := by
  unfold Bank.minted
  rw [h.events]

lemma Sent.burned (h : Sent src dst cs b b') (m' : Bytes) (d : Denom) :
    b'.burned m' d = b.burned m' d := by
  unfold Bank.burned
  rw [h.events]

end Bank

end MaanyDex
