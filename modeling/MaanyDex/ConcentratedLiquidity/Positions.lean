/-
Positions and the index of the positions of a user: `position.go` and `types/keys.go`.

A position is stored under its id, and a key of the form

    2 | hex(owner) | decimal(pool) | decimal(id)

is set for it in the index.  `GetUserPositions` scans the keys of an owner, or of an owner in a
pool, and reads the two numbers back out of each.  It reads the pool id with base 16, though,
and so reads `readAsHex` of what was written.
-/
import MaanyDex.Lib.Encoding
import MaanyDex.Lib.KVStore
import MaanyDex.Lib.Run
import MaanyDex.Sdk.Bank

namespace MaanyDex.ConcentratedLiquidity

open Encoding Decimal List KVStore

/-! ### Keys -/

def keySeparator : UInt8 := 124

def keyUserPositions (addr : Bytes) : Bytes :=
  [0x02] ++ keySeparator :: (Encoding.hexEncode addr ++ keySeparator :: [])

def keyAddressAndPoolId (addr : Bytes) (poolId : UInt64) : Bytes :=
  [0x02] ++ keySeparator :: (Encoding.hexEncode addr ++ keySeparator ::
    (Decimal.formatUint poolId.toNat ++ keySeparator :: []))

def keyAddressPoolIdPositionId (addr : Bytes) (poolId positionId : UInt64) : Bytes :=
  [0x02] ++ keySeparator :: (Encoding.hexEncode addr ++ keySeparator ::
    (Decimal.formatUint poolId.toNat ++ keySeparator :: Decimal.formatUint positionId.toNat))

def keyPoolPositionPositionId (poolId positionId : UInt64) : Bytes :=
  [0x09] ++ Encoding.uint64ToBigEndian poolId.toNat ++ keySeparator ::
    Encoding.uint64ToBigEndian positionId.toNat

/-! ### Reading numbers -/

/-- Read hexadecimal digits onto the value read so far. -/
def readHex : ℕ → Bytes → Option ℕ
  | acc, [] => some acc
  | acc, b :: bs => (Encoding.hexValue b).bind fun d => readHex (16 * acc + d) bs

/-- `strconv.ParseUint(s, 16, 64)`, `none` for either of its two errors. -/
def parseHex (s : Bytes) : Option ℕ :=
  if s = [] then none else (readHex 0 s).filter fun n => n < 2 ^ 64

/-! ### The store -/

/-- A position.  The ticks, the join time and the liquidity are its `data`. -/
structure Position (δ : Type) where
  positionId : UInt64
  poolId : UInt64
  address : Bytes
  data : δ
  deriving DecidableEq

/-- What the module's store has under the prefixes of positions, of the index by owner and of the
index by pool. -/
structure Store (δ : Type) where
  positions : Std.ExtTreeMap UInt64 (Position δ) := ∅
  byOwner : KVStore := ∅
  byPool : KVStore := ∅

variable {δ : Type} (s : Store δ)

/-- `SetPosition`, without its records of locks and of full-range liquidity. -/
def setPosition (poolId : UInt64) (owner : Bytes) (data : δ) (positionId : UInt64) : Store δ where
  positions := s.positions.insert positionId ⟨positionId, poolId, owner, data⟩
  byOwner := s.byOwner.set (keyAddressPoolIdPositionId owner poolId positionId) [1]
  byPool := s.byPool.set (keyPoolPositionPositionId poolId positionId) [1]

variable (positionId : UInt64)

def positionIdNotFound : Fault :=
  .errf "position not found. position id (%d)" (Decimal.formatUint positionId.toNat)

def deletePosition (owner : Bytes) (poolId : UInt64) : Result (Store δ) :=
  if ¬ positionId ∈ s.positions then .error (positionIdNotFound positionId)
  else if ¬ s.byPool.has (keyPoolPositionPositionId poolId positionId) then
    .error (.errf "position id %d not found for pool id" (Decimal.formatUint positionId.toNat))
  else if ¬ s.byOwner.has (keyAddressPoolIdPositionId owner poolId positionId) then
    .error (.errf "position id %d not found for address and pool id"
      (Decimal.formatUint positionId.toNat))
  else .ok {
    positions := s.positions.erase positionId
    byOwner := s.byOwner.delete (keyAddressPoolIdPositionId owner poolId positionId)
    byPool := s.byPool.delete (keyPoolPositionPositionId poolId positionId) }

def getPosition : Result (Position δ) :=
  match s.positions[positionId]? with
  | none => .error (positionIdNotFound positionId)
  | some position => .ok position

/-- The pool id and the position id that are read out of a key. -/
def parsePositionKey (key : Bytes) : Result (ℕ × ℕ) :=
  match key.splitOn keySeparator with
  | [_, _, pool, position] =>
    match parseHex pool with
    | none => .error (.errf "failed to parse poolId: " pool)
    | some keyPoolId =>
      match Decimal.parseUint 64 position with
      | none => .error (.errf "failed to parse positionId: " position)
      | some positionId => .ok (keyPoolId, positionId)
  | _ => .error (.errf "invalid key format: " key)

def getAllPositionIdsForPoolId (pre : Bytes) (poolId : UInt64) : Result (List ℕ) := do
  let parsed ← ((s.byOwner.iterate pre).map Prod.fst).mapM parsePositionKey
  .ok (((parsed.filter fun e => e.1 = poolId.toNat ∨ poolId = 0).map Prod.snd).mergeSort)

def getUserPositions (addr : Bytes) (poolId : UInt64) : Result (List (Position δ)) := do
  let pre := if poolId = 0 then keyUserPositions addr else keyAddressAndPoolId addr poolId
  let positionIds ← getAllPositionIdsForPoolId s pre poolId
  positionIds.mapM fun positionId => getPosition s (UInt64.ofNat positionId)

/-- The stores of runs.  A position is created under an id that was never used, is written again by
additions and partial withdrawals, and is deleted when all is withdrawn.  A transfer deletes it and
creates it for the recipient, under the same id. -/
inductive Reachable : Store δ → Prop
  | empty : Reachable {}
  | create {s : Store δ} {positionId : UInt64} (poolId : UInt64) (owner : Bytes) (data : δ) :
      Reachable s → s.positions[positionId]? = none →
      Reachable (setPosition s poolId owner data positionId)
  | update {s : Store δ} {positionId : UInt64} {position : Position δ} (data : δ) :
      Reachable s → s.positions[positionId]? = some position →
      Reachable (setPosition s position.poolId position.address data positionId)
  | delete {s s' : Store δ} {positionId : UInt64} {position : Position δ} :
      Reachable s → s.positions[positionId]? = some position →
      deletePosition s positionId position.address position.poolId = .ok s' → Reachable s'

/-! ### Decimal digits, read as hexadecimal -/

/-- What is read with base 16 out of a number that was written with base 10. -/
def readAsHex (n : ℕ) : ℕ := Nat.ofDigits 16 (Nat.digits 10 n)

lemma readAsHex_of_pos {n : ℕ} (h : 0 < n) : readAsHex n = n % 10 + 16 * readAsHex (n / 10) := by
  rw [readAsHex, Nat.digits_def' (by norm_num) h, Nat.ofDigits_cons]
  rfl

lemma le_readAsHex (n : ℕ) : n ≤ readAsHex n := by
  induction n using Nat.strong_induction_on with
  | _ n ih =>
    rcases Nat.eq_zero_or_pos n with rfl | hpos
    · exact Nat.zero_le _
    · have hrest := ih (n / 10) (Nat.div_lt_self hpos (by norm_num))
      rw [readAsHex_of_pos hpos]
      omega

lemma readAsHex_eq_self_iff {n : ℕ} : readAsHex n = n ↔ n < 10 := by
  rcases Nat.eq_zero_or_pos n with rfl | hpos
  · simp [readAsHex]
  · have hrest := le_readAsHex (n / 10)
    rw [readAsHex_of_pos hpos]
    constructor
    · intro h
      omega
    · intro h
      have hzero : readAsHex (n / 10) = 0 := by
        rw [Nat.div_eq_of_lt h]
        rfl
      omega

lemma readAsHex_lt_iff (k n : ℕ) : readAsHex n < 16 ^ k ↔ n < 10 ^ k := by
  induction k generalizing n with
  | zero =>
    have hle := le_readAsHex n
    constructor
    · intro h
      omega
    · intro h
      obtain rfl : n = 0 := by omega
      decide
  | succ k ih =>
    rcases Nat.eq_zero_or_pos n with rfl | hpos
    · simp [readAsHex]
    · have hrest := ih (n / 10)
      rw [readAsHex_of_pos hpos, pow_succ, pow_succ]
      omega

lemma hexValue_digitByte {d : ℕ} (h : d < 10) : hexValue (digitByte d) = some d := by
  interval_cases d <;> decide

lemma readHex_map_digitByte (l : List ℕ) (hl : ∀ d ∈ l, d < 10) (acc : ℕ) : readHex acc (l.map
    digitByte) = some (acc * 16 ^ l.length + Nat.ofDigits 16 l.reverse) := by
  induction l generalizing acc with
  | nil => simp [readHex]
  | cons d l ih =>
    rw [map_cons, readHex, hexValue_digitByte (hl d mem_cons_self), Option.bind_some,
      ih (fun x hx => hl x (mem_cons_of_mem _ hx)), reverse_cons, Nat.ofDigits_append,
      length_reverse, Nat.ofDigits_singleton, length_cons]
    congr 1
    ring

lemma parseHex_formatUint (n : ℕ) :
    parseHex (formatUint n) = if n < 10 ^ 16 then some (readAsHex n) else none := by
  have hread : readHex 0 (formatUint n) = some (readAsHex n) := by
    rcases Nat.eq_zero_or_pos n with rfl | hpos
    · decide
    · have hl : ∀ d ∈ (Nat.digits 10 n).reverse, d < 10 := fun d hd =>
        Nat.digits_lt_base (by norm_num) (mem_reverse.mp hd)
      rw [formatUint, if_neg hpos.ne', readHex_map_digitByte _ hl, reverse_reverse]
      simp [readAsHex]
  have hlt : readAsHex n < 2 ^ 64 ↔ n < 10 ^ 16 := readAsHex_lt_iff 16 n
  rw [parseHex, if_neg (formatUint_ne_nil n), hread]
  simp only [Option.filter_some, decide_eq_true_eq, hlt]

/-! ### Keys of positions -/

lemma hexDecode_hexEncode (bz : Bytes) : hexDecode (hexEncode bz) = some bz := by
  have hdigit : ∀ n < 16, hexValue (hexDigit n) = some n := by decide
  induction bz with
  | nil => rfl
  | cons b bz ih =>
    have hb := b.toNat_lt
    have hjoin : 16 * (b.toNat / 16) + b.toNat % 16 = b.toNat := Nat.div_add_mod _ _
    show hexDecode (hexDigit (b.toNat / 16) :: hexDigit (b.toNat % 16) :: hexEncode bz) = _
    rw [hexDecode, hdigit _ (by omega), hdigit _ (by omega), ih]
    simp [hjoin]

lemma hexEncode_injective : Function.Injective hexEncode := by
  intro a b h
  have hdecoded := congrArg hexDecode h
  rw [hexDecode_hexEncode, hexDecode_hexEncode] at hdecoded
  exact Option.some.inj hdecoded

lemma keySeparator_notMem_hexEncode (bz : Bytes) : keySeparator ∉ hexEncode bz := by
  have hdigit : ∀ n < 16, keySeparator ≠ hexDigit n := by decide
  simp only [hexEncode, mem_flatMap, mem_cons, not_mem_nil, or_false, not_exists, not_and, not_or]
  intro b _
  have hb := b.toNat_lt
  exact ⟨hdigit _ (by omega), hdigit _ (by omega)⟩

lemma keySeparator_notMem_formatUint (n : ℕ) : keySeparator ∉ formatUint n := by
  intro hmem
  have hdigit := formatUint_digit hmem
  revert hdigit
  decide

lemma join_prefix_iff {a a' b b' : Bytes} (ha : keySeparator ∉ a) (ha' : keySeparator ∉ a') :
    a ++ keySeparator :: b <+: a' ++ keySeparator :: b' ↔ a = a' ∧ b <+: b' := by
  constructor
  · rintro ⟨t, ht⟩
    rw [append_assoc, cons_append] at ht
    obtain ⟨rfl, hb⟩ := Split.append_cons_inj_left ha ha' ht
    exact ⟨rfl, t, hb⟩
  · rintro ⟨rfl, t, rfl⟩
    exact ⟨t, by simp⟩

/-- The key of a position in the index by owner. -/
def Position.key (position : Position δ) : Bytes :=
  keyAddressPoolIdPositionId position.address position.poolId position.positionId

variable {addr : Bytes} {poolId : UInt64} {position : Position δ}

lemma keyUserPositions_prefix_iff : keyUserPositions addr <+: position.key
    ↔ position.address = addr := by
  rw [keyUserPositions, Position.key, keyAddressPoolIdPositionId,
    join_prefix_iff (by decide) (by decide), join_prefix_iff (keySeparator_notMem_hexEncode _)
      (keySeparator_notMem_hexEncode _), hexEncode_injective.eq_iff]
  simp [eq_comm]

lemma keyAddressAndPoolId_prefix_iff : keyAddressAndPoolId addr poolId <+: position.key
    ↔ position.address = addr ∧ position.poolId = poolId := by
  rw [keyAddressAndPoolId, Position.key, keyAddressPoolIdPositionId,
    join_prefix_iff (by decide) (by decide), join_prefix_iff (keySeparator_notMem_hexEncode _)
      (keySeparator_notMem_hexEncode _), join_prefix_iff (keySeparator_notMem_formatUint _)
      (keySeparator_notMem_formatUint _), hexEncode_injective.eq_iff,
    formatUint_injective.eq_iff, UInt64.toNat_inj]
  simp [eq_comm]

lemma Position.key_inj_id {position' : Position δ} (h : position.key = position'.key) :
    position.positionId = position'.positionId := by
  simp only [Position.key, keyAddressPoolIdPositionId, append_cancel_left_eq,
    List.cons.injEq, true_and] at h
  obtain ⟨-, h⟩ := Split.append_cons_inj_left (keySeparator_notMem_hexEncode _)
    (keySeparator_notMem_hexEncode _) h
  obtain ⟨-, h⟩ := Split.append_cons_inj_left (keySeparator_notMem_formatUint _)
    (keySeparator_notMem_formatUint _) h
  exact UInt64.toNat_inj.mp (formatUint_injective h)

lemma parsePositionKey_key : parsePositionKey position.key
    = if position.poolId.toNat < 10 ^ 16
      then .ok (readAsHex position.poolId.toNat, position.positionId.toNat)
      else .error (.errf "failed to parse poolId: " (formatUint position.poolId.toNat)) := by
  have hsep : ∀ l : Bytes, keySeparator ∉ l → ∀ x ∈ l, (x == keySeparator) = false := by
    intro l hl x hx
    rw [beq_eq_false_iff_ne]
    rintro rfl
    exact hl hx
  have hself : (keySeparator == keySeparator) = true := rfl
  have hparts : position.key.splitOn keySeparator
      = [[0x02], hexEncode position.address, formatUint position.poolId.toNat,
        formatUint position.positionId.toNat] := by
    rw [Position.key, keyAddressPoolIdPositionId, List.splitOn,
      splitOnP_append_cons_of_forall_mem (hsep [0x02] (by decide)) _ hself,
      splitOnP_append_cons_of_forall_mem (hsep _ (keySeparator_notMem_hexEncode _)) _ hself,
      splitOnP_append_cons_of_forall_mem (hsep _ (keySeparator_notMem_formatUint _)) _ hself,
      splitOnP_eq_singleton (hsep _ (keySeparator_notMem_formatUint _))]
  have hposition : parseUint 64 (formatUint position.positionId.toNat)
      = some position.positionId.toNat := parseUint_formatUint position.positionId.toNat_lt
  simp only [parsePositionKey, hparts, parseHex_formatUint, hposition]
  split_ifs <;> rfl

/-! ### The index -/

/-- The position is stored, under its id. -/
def Store.Holds (s : Store δ) (position : Position δ) : Prop :=
  s.positions[position.positionId]? = some position

/-- The index has the keys of the stored positions. -/
structure Indexed (s : Store δ) : Prop where
  own : ∀ (id : UInt64) (position : Position δ), s.positions[id]? = some position →
    position.positionId = id
  index : ∀ k, s.byOwner.has k = true ↔ ∃ position, s.Holds position ∧ k = position.key

variable {s : Store δ}

/-- Writing a position that is new, or that was stored with the same key. -/
lemma Indexed.set (h : Indexed s) {positionId : UInt64} {owner : Bytes} (data : δ)
    (hold : ∀ position, s.positions[positionId]? = some position →
      position.address = owner ∧ position.poolId = poolId) :
    Indexed (setPosition s poolId owner data positionId) := by
  have hget : ∀ id, (setPosition s poolId owner data positionId).positions[id]?
      = if positionId = id then some ⟨positionId, poolId, owner, data⟩ else s.positions[id]? := by
    simp [setPosition, Std.ExtTreeMap.getElem?_insert]
  constructor
  · intro id position hposition
    rw [hget] at hposition
    split_ifs at hposition with heq
    · cases hposition
      exact heq
    · exact h.own id position hposition
  · intro k
    have hhas : (setPosition s poolId owner data positionId).byOwner.has k = true
        ↔ keyAddressPoolIdPositionId owner poolId positionId = k ∨ s.byOwner.has k = true := by
      simp only [setPosition, KVStore.has, get_set]
      split_ifs with heq <;> simp [heq]
    simp only [hhas, h.index, Store.Holds, hget]
    constructor
    · rintro (rfl | ⟨position, hposition, rfl⟩)
      · exact ⟨⟨positionId, poolId, owner, data⟩, if_pos rfl, rfl⟩
      · by_cases heq : positionId = position.positionId
        · -- the position that is written again
          obtain ⟨rfl, rfl⟩ := hold position (heq ▸ hposition)
          exact ⟨⟨positionId, _, _, data⟩, if_pos rfl, by simp only [Position.key, heq]⟩
        · exact ⟨position, by rw [if_neg heq, hposition], rfl⟩
    · rintro ⟨position, hposition, rfl⟩
      split_ifs at hposition
      · cases hposition
        exact .inl rfl
      · exact .inr ⟨position, hposition, rfl⟩

lemma Indexed.delete (h : Indexed s) {s' : Store δ} {positionId : UInt64}
    (hposition : s.positions[positionId]? = some position)
    (hs : deletePosition s positionId position.address position.poolId = .ok s') : Indexed s' := by
  obtain rfl := h.own _ _ hposition
  unfold deletePosition at hs
  split_ifs at hs
  cases hs
  have hget : ∀ id, (s.positions.erase position.positionId)[id]?
      = if position.positionId = id then none else s.positions[id]? := by
    simp [Std.ExtTreeMap.getElem?_erase]
  constructor
  · intro id position' hposition'
    rw [hget] at hposition'
    split_ifs at hposition'
    exact h.own id position' hposition'
  · intro k
    have hhas : (s.byOwner.delete position.key).has k = true
        ↔ position.key ≠ k ∧ s.byOwner.has k = true := by
      simp only [KVStore.has, get_delete]
      split_ifs with heq <;> simp [heq]
    refine hhas.trans ?_
    simp only [h.index, Store.Holds, hget]
    constructor
    · rintro ⟨hne, position', hposition', rfl⟩
      refine ⟨position', ?_, rfl⟩
      rw [if_neg, hposition']
      intro heq
      rw [← heq, hposition] at hposition'
      cases hposition'
      exact hne rfl
    · rintro ⟨position', hposition', rfl⟩
      split_ifs at hposition' with hne
      exact ⟨fun heq => hne (Position.key_inj_id heq), position', hposition', rfl⟩

/-- **Every store of a run is indexed.** -/
lemma Reachable.indexed (h : Reachable s) : Indexed s := by
  induction h with
  | empty => exact ⟨by simp, by simp [KVStore.has, KVStore.get, Store.Holds]⟩
  | create poolId owner data _ hnew ih => exact ih.set data (by simp [hnew])
  | update data _ hold ih =>
    refine ih.set data ?_
    intro position' hposition'
    rw [hold] at hposition'
    cases hposition'
    exact ⟨rfl, rfl⟩
  | delete _ hold hs ih => exact ih.delete hold hs

/-! ### The positions of a user -/

/-- The position is stored and belongs to the owner, and to the pool if one is given. -/
def Owned (s : Store δ) (addr : Bytes) (poolId : UInt64) (position : Position δ) : Prop :=
  s.Holds position ∧ position.address = addr ∧ (poolId = 0 ∨ position.poolId = poolId)

/-- The keys that are scanned are those of the owned positions. -/
lemma Indexed.scanned (h : Indexed s) (addr : Bytes) (poolId : UInt64) : ∃ ps : List (Position δ),
    ps.Nodup ∧ (∀ position, position ∈ ps ↔ Owned s addr poolId position) ∧ (s.byOwner.iterate (if
    poolId = 0 then keyUserPositions addr else keyAddressAndPoolId addr poolId)).map Prod.fst =
    ps.map Position.key := by
  set pre := if poolId = 0 then keyUserPositions addr else keyAddressAndPoolId addr poolId with hpre
  have hunder : ∀ position : Position δ, pre <+: position.key
      ↔ position.address = addr ∧ (poolId = 0 ∨ position.poolId = poolId) := by
    intro position
    rw [hpre]
    split_ifs with hzero
    · simp [keyUserPositions_prefix_iff, hzero]
    · simp [keyAddressAndPoolId_prefix_iff, hzero]
  have hmem : ∀ k, k ∈ (s.byOwner.iterate pre).map Prod.fst ↔ pre <+: k ∧ s.byOwner.has k = true := by
    intro k
    simp [KVStore.mem_iterate, KVStore.has_eq_true]
  have hrange : (s.byOwner.iterate pre).map Prod.fst ∈ Set.range
      (List.map fun p : {p : Position δ // Owned s addr poolId p} => p.1.key) := by
    rw [Set.range_list_map]
    intro k hk
    obtain ⟨hk, hhas⟩ := (hmem k).mp hk
    obtain ⟨position, hposition, rfl⟩ := (h.index k).mp hhas
    exact ⟨⟨position, hposition, (hunder position).mp hk⟩, rfl⟩
  obtain ⟨ps, hps⟩ := hrange
  have hkeys : (s.byOwner.iterate pre).map Prod.fst = (ps.map Subtype.val).map Position.key := by
    rw [← hps, map_map]
    rfl
  refine ⟨ps.map Subtype.val, ?_, ?_, hkeys⟩
  · have hnodup : ((s.byOwner.iterate pre).map Prod.fst).Nodup := nodup_keys_iterate
    rw [hkeys] at hnodup
    exact hnodup.of_map
  · intro position
    constructor
    · intro hposition
      obtain ⟨p, -, rfl⟩ := mem_map.mp hposition
      exact p.2
    · rintro ⟨hstored, howned⟩
      have hkey := (hmem position.key).mpr ⟨(hunder position).mpr howned,
        (h.index _).mpr ⟨position, hstored, rfl⟩⟩
      rw [hkeys] at hkey
      obtain ⟨position', hposition', heq⟩ := mem_map.mp hkey
      obtain ⟨p, -, rfl⟩ := mem_map.mp hposition'
      -- the id is in the key, and only one position is stored under it
      have hsame := p.2.1
      rw [Store.Holds, Position.key_inj_id heq, hstored] at hsame
      cases hsame
      exact hposition'

/-- The list has every one of these positions, once, and no other. -/
def Exactly (l : List (Position δ)) (P : Position δ → Prop) : Prop :=
  l.Nodup ∧ ∀ position, position ∈ l ↔ P position

/-- If the pool ids are read and all are accepted, the answer is right. -/
lemma Indexed.exactly (h : Indexed s) (hread : ∀ position, Owned s addr poolId position →
    position.poolId.toNat < 10 ^ 16 ∧ (readAsHex position.poolId.toNat = poolId.toNat ∨ poolId = 0))
    : ∃ l, getUserPositions s addr poolId = .ok l ∧ Exactly l (Owned s addr poolId) := by
  obtain ⟨ps, hnodup, hps, hkeys⟩ := h.scanned addr poolId
  have hparsed : (ps.map Position.key).mapM parsePositionKey
      = .ok (ps.map fun p => (readAsHex p.poolId.toNat, p.positionId.toNat)) := by
    rw [mapM_map]
    apply Run.mapM_eq_ok
    intro p hp
    show parsePositionKey p.key = _
    rw [parsePositionKey_key, if_pos (hread p ((hps p).mp hp)).1]
  have hfilter : (ps.map fun p => (readAsHex p.poolId.toNat, p.positionId.toNat)).filter
      (fun e => e.1 = poolId.toNat ∨ poolId = 0)
      = ps.map fun p => (readAsHex p.poolId.toNat, p.positionId.toNat) := by
    apply filter_eq_self.mpr
    intro e he
    obtain ⟨p, hp, rfl⟩ := mem_map.mp he
    exact decide_eq_true (hread p ((hps p).mp hp)).2
  -- sorting the ids is sorting the positions by their ids
  have hsort : (ps.map fun p => p.positionId.toNat).mergeSort
      = (ps.mergeSort fun p q => p.positionId.toNat ≤ q.positionId.toNat).map
        fun p => p.positionId.toNat := by
    rw [map_mergeSort]
    intro _ _ _ _
    rfl
  have hperm := mergeSort_perm ps fun p q => p.positionId.toNat ≤ q.positionId.toNat
  refine ⟨_, ?_, hperm.nodup_iff.mpr hnodup, fun position => hperm.mem_iff.trans (hps position)⟩
  simp only [getUserPositions, getAllPositionIdsForPoolId, hkeys, hparsed, Run.ok_bind, hfilter,
    map_map]
  show List.mapM _ ((ps.map fun p => p.positionId.toNat).mergeSort) = _
  rw [hsort, mapM_map]
  refine (Run.mapM_eq_ok (g := id) ?_).trans (by rw [map_id])
  intro p hp
  have hheld : s.positions[p.positionId]? = some p := ((hps p).mp (hperm.mem_iff.mp hp)).1
  show getPosition s (UInt64.ofNat p.positionId.toNat) = .ok p
  rw [UInt64.ofNat_toNat, getPosition, hheld]

/-- **Which requests are answered rightly.**  The positions in all pools are found if the owner has
none in a pool whose id has more than 16 digits.  The positions in one pool are found if its id has
one digit, or if there are none. -/
theorem getUserPositions_exact_iff (h : Reachable s) (addr : Bytes) (poolId : UInt64) :
    (∃ l, getUserPositions s addr poolId = .ok l ∧ Exactly l (Owned s addr poolId))
      ↔ (poolId = 0 → ∀ position, Owned s addr 0 position → position.poolId.toNat < 10 ^ 16)
        ∧ (poolId ≠ 0 → poolId.toNat < 10 ∨ ∀ position, ¬ Owned s addr poolId position) := by
  constructor
  · rintro ⟨l, hl, -, hmem⟩
    obtain ⟨ps, -, hps, hkeys⟩ := h.indexed.scanned addr poolId
    obtain ⟨ids, hids, hl⟩ := Run.bind_ok hl
    obtain ⟨parsed, hparsed, hids⟩ := Run.bind_ok hids
    rw [hkeys, mapM_map] at hparsed
    -- no key was refused
    have hsmall : ∀ position, Owned s addr poolId position → position.poolId.toNat < 10 ^ 16 := by
      intro position howned
      obtain ⟨b, hb⟩ := Run.mapM_ok_mem hparsed position ((hps _).mpr howned)
      rw [Function.comp_apply, parsePositionKey_key] at hb
      by_contra hge
      rw [if_neg hge] at hb
      cases hb
    refine ⟨fun hzero => hzero ▸ hsmall, ?_⟩
    intro hne
    by_contra hnot
    push Not at hnot
    obtain ⟨hlarge, position, howned⟩ := hnot
    have hvalue := Run.mapM_ok_map (g := fun p => (readAsHex p.poolId.toNat, p.positionId.toNat))
      hparsed (by
        intro p hp b hb
        rw [Function.comp_apply, parsePositionKey_key, if_pos (hsmall p ((hps p).mp hp))] at hb
        exact (Except.ok.inj hb).symm)
    -- every key has another pool id, as it is read
    have hnone : parsed.filter (fun e => e.1 = poolId.toNat ∨ poolId = 0) = [] := by
      rw [hvalue]
      apply filter_eq_nil_iff.mpr
      intro e he
      obtain ⟨p, hp, rfl⟩ := mem_map.mp he
      have hpool : p.poolId = poolId := ((hps p).mp hp).2.2.resolve_left hne
      simp only [decide_eq_true_eq, hpool, hne, or_false]
      intro heq
      exact absurd (readAsHex_eq_self_iff.mp heq) (by omega)
    rw [hnone, map_nil, mergeSort_nil] at hids
    cases hids
    cases hl
    exact absurd ((hmem position).mpr howned) not_mem_nil
  · rintro ⟨hzero, hone⟩
    apply h.indexed.exactly
    intro position howned
    by_cases heq : poolId = 0
    · exact ⟨hzero heq position (heq ▸ howned), .inr heq⟩
    · have hpool : position.poolId = poolId := howned.2.2.resolve_left heq
      rcases hone heq with hlt | hnone
      · rw [hpool]
        exact ⟨by omega, .inl (readAsHex_eq_self_iff.mpr hlt)⟩
      · exact absurd howned (hnone position)

/-- A store with a position in pool 9 and one in pool 10. -/
def demoPositions : Store Unit :=
  setPosition (setPosition {} 9 [0xab] () 1) 10 [0xab] () 2

lemma reachable_demoPositions : Reachable demoPositions := by
  apply Reachable.create
  · exact Reachable.create _ _ _ Reachable.empty (by simp)
  · decide +kernel

/-- The position in pool 9 is found. -/
theorem exactly_pool_nine :
    ∃ l, getUserPositions demoPositions [0xab] 9 = .ok l
      ∧ Exactly l (Owned demoPositions [0xab] 9) :=
  (getUserPositions_exact_iff reachable_demoPositions [0xab] 9).mpr
    ⟨fun h => absurd h (by decide), fun _ => .inl (by decide)⟩

/-- The position in pool 10 is not. -/
theorem getUserPositions_pool_ten :
    getUserPositions demoPositions [0xab] 10 = .ok []
      ∧ Owned demoPositions [0xab] 10 ⟨2, 10, [0xab], ()⟩ := by
  have hheld : demoPositions.positions[(2 : UInt64)]? = some ⟨2, 10, [0xab], ()⟩ := by
    decide +kernel
  exact ⟨by decide +kernel, hheld, rfl, .inr rfl⟩

end MaanyDex.ConcentratedLiquidity
