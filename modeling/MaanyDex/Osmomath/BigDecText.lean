/-
Decimals as text: `NewBigDecFromStr`, `String`, `Marshal` and `Unmarshal` of
`osmomath/decimal.go`.

The parser takes off a minus and leaves the digits to `big.Int.SetString`, which takes a sign of
its own.  So what it accepts is the documented grammar (`Denotes`) and, besides, everything
with a second sign (`newBigDecFromStr_ok_iff`).

Both readers refuse more than 1024 bits, while the arithmetic allows for 1144: decimals in
between are written and cannot be read back.
-/
import MaanyDex.Osmomath.BigDec
import MaanyDex.Lib.BigIntText

namespace MaanyDex.Osmomath.BigDec

open Decimal List Run Option BigIntText

def bigDecPrecision : ℕ := 36

def maxBitLen : ℕ := 1024

def errEmptyDecimalStr : Fault := .err "decimal string cannot be empty"

def errInvalidDecimalLength : Fault := .err "invalid decimal length"

def errInvalidDecimalStr : Fault := .err "invalid decimal string"

/-- The middle of `NewBigDecFromStr`: the digits on both sides of the point, with zeros for
those that are missing. -/
def combinedStr (str : Bytes) : Result Bytes := do
  let (combined, lenDecs) ← match str.splitOn 46 with
    | [whole] => .ok (whole, 0)
    | [whole, decs] => do
        ensure (decs ≠ [] && whole ≠ []) errInvalidDecimalLength
        .ok (whole ++ decs, decs.length)
    | _ => .error errInvalidDecimalStr
  ensure (lenDecs ≤ bigDecPrecision)
    (.errf "invalid precision; max: 36, got: %d" (Decimal.formatUint lenDecs))
  .ok (combined ++ List.replicate (bigDecPrecision - lenDecs) 48)

def stripMinus (str : Bytes) : Bytes := if str.head? = some 45 then str.tail else str

def newBigDecFromStr (str : Bytes) : Result BigDec := do
  ensure (str ≠ []) errEmptyDecimalStr
  let neg : Bool := str.head? = some 45
  let str := stripMinus str
  ensure (str ≠ []) errEmptyDecimalStr
  let combined ← combinedStr str
  match BigIntText.setString 10 combined with
  | none => .error (.errf "failed to set decimal string: %s" combined)
  | some i => do
      ensure (i.natAbs < 2 ^ maxBitLen) (.errf "decimal out of range; bitLen: got %d, max 1024"
        (Decimal.formatUint i.natAbs.size))
      .ok ⟨if neg then -i else i⟩

def string (d : BigDec) : Bytes :=
  let bzInt := BigIntText.marshalText d.raw.natAbs
  let inputSize := bzInt.length
  let bzStr := if inputSize ≤ bigDecPrecision then
      -- purely decimal
      [48, 46] ++ List.replicate (bigDecPrecision - inputSize) 48 ++ bzInt
    else
      let decPointPlace := inputSize - bigDecPrecision
      bzInt.take decPointPlace ++ [46] ++ bzInt.drop decPointPlace
  if d.raw < 0 then 45 :: bzStr else bzStr

def marshal (d : BigDec) : Bytes := BigIntText.marshalText d.raw

/-- `Unmarshal` into a decimal, which stays what it is if there are no data. -/
def unmarshal (d : Option BigDec) (data : Bytes) : Result (Option BigDec) :=
  if data = [] then .ok d
  else match BigIntText.unmarshalText data with
    | none => .error (.errf "math/big: cannot unmarshal %q into a *big.Int" data)
    | some i => do
        ensure (i.natAbs < 2 ^ maxBitLen) (.errf "decimal out of range; got: %d, max: 1024"
          (Decimal.formatUint i.natAbs.size))
        .ok (some ⟨i⟩)

/-! ### The grammar -/

/-- Digits, and maybe a point and up to 36 digits, with what they denote in the smallest unit.
There may be no digit before the point. -/
inductive Numeral : Bytes → ℕ → Prop
  | whole {ds : Bytes} {n : ℕ} (hds : Decimal.readDigits 0 ds = some n) : Numeral ds (n * 10 ^ 36)
  | point {ds fs : Bytes} {n m : ℕ} (hds : Decimal.readDigits 0 ds = some n)
      (hfs : Decimal.readDigits 0 fs = some m) (hne : fs ≠ []) (hlen : fs.length ≤ 36) :
      Numeral (ds ++ 46 :: fs) (n * 10 ^ 36 + m * 10 ^ (36 - fs.length))

def startsWithDigit (s : Bytes) : Bool := s.head?.any fun b => (Decimal.digitValue b).isSome

/-- The documented grammar: an optional minus, and a numeral that starts with a digit. -/
inductive Denotes : Bytes → ℤ → Prop
  | pos {s : Bytes} {n : ℕ} (hs : startsWithDigit s = true) (hn : Numeral s n) : Denotes s n
  | neg {s : Bytes} {n : ℕ} (hs : startsWithDigit s = true) (hn : Numeral s n) :
      Denotes (45 :: s) (-n)

/-! ### Combining the digits -/

/-- The digits on both sides of the point with zeros behind them. -/
def Combined (s x : Bytes) : Prop :=
  46 ∉ s ∧ x = s ++ List.replicate 36 48 ∨
    ∃ a b, s = a ++ 46 :: b ∧ 46 ∉ a ∧ 46 ∉ b ∧ b ≠ [] ∧ b.length ≤ 36
      ∧ x = a ++ b ++ List.replicate (36 - b.length) 48

variable {str s x : Bytes} {ch : UInt8} {n : ℕ} {d : BigDec}

lemma Combined.ne_nil (h : Combined s x) : x ≠ [] := by
  rcases h with ⟨-, rfl⟩ | ⟨a, b, -, -, -, hb, -, rfl⟩
  · simp
  · simp [hb]

lemma combined_cons (hch : ch ≠ 46) {y : Bytes} :
    Combined (ch :: s) y ↔ ∃ x, y = ch :: x ∧ Combined s x := by
  constructor
  · rintro (⟨hs, rfl⟩ | ⟨a, b, hs, ha, hb, hne, hlen, rfl⟩)
    · exact ⟨_, rfl, Or.inl ⟨fun h => hs (mem_cons_of_mem _ h), rfl⟩⟩
    · -- the first byte is before the point
      rcases a with - | ⟨c, a⟩
      · exact absurd (List.cons.inj hs).1 hch
      · obtain ⟨rfl, hs'⟩ := List.cons.inj hs
        exact ⟨_, rfl, Or.inr ⟨a, b, hs', fun h => ha (mem_cons_of_mem _ h), hb, hne, hlen, rfl⟩⟩
  · rintro ⟨x, rfl, ⟨hs, rfl⟩ | ⟨a, b, rfl, ha, hb, hne, hlen, rfl⟩⟩
    · exact .inl ⟨by simp [hs, hch.symm], rfl⟩
    · exact .inr ⟨ch :: a, b, rfl, by simp [ha, hch.symm], hb, hne, hlen, rfl⟩

lemma combinedStr_ok_iff : combinedStr s = .ok x ↔ Combined s x ∧ s.head? ≠ some 46 := by
  unfold combinedStr
  by_cases hs : 46 ∈ s
  · obtain ⟨a, b, rfl, ha⟩ := eq_append_cons_of_mem hs
    rw [splitOn_append_cons_self_of_not_mem ha]
    by_cases hb : 46 ∈ b
    · -- two points
      obtain ⟨a', b', rfl, ha'⟩ := eq_append_cons_of_mem hb
      rw [splitOn_append_cons_self_of_not_mem ha']
      obtain ⟨c, l, hc⟩ := exists_cons_of_ne_nil (splitOn_ne_nil 46 b')
      rw [hc]
      refine ⟨fun h => (nomatch h), ?_⟩
      rintro ⟨⟨hno, -⟩ | ⟨u, v, heq, hu, hv, -⟩, -⟩
      · exact absurd hs hno
      · obtain ⟨-, rfl⟩ := Split.append_cons_inj_left ha hu heq
        exact absurd hb hv
    · rw [splitOn_eq_singleton hb]
      have hhead : (a ++ 46 :: b).head? ≠ some 46 ↔ a ≠ [] := by
        rcases a with - | ⟨c, a⟩
        · simp
        · have hc : c ≠ 46 := by
            rintro rfl
            simp at ha
          simp [hc]
      rw [hhead]
      constructor
      · intro h
        obtain ⟨_, hne, h⟩ := bind_ok h
        rw [ok_bind] at h
        obtain ⟨_, hlen, h⟩ := bind_ok h
        cases h
        obtain ⟨hb', ha'⟩ := Bool.and_eq_true_iff.mp (ensure_ok hne)
        exact ⟨Or.inr ⟨a, b, rfl, ha, hb, of_decide_eq_true hb',
          of_decide_eq_true (ensure_ok hlen), rfl⟩, of_decide_eq_true ha'⟩
      · rintro ⟨⟨hno, -⟩ | ⟨u, v, heq, hu, hv, hne, hlen, rfl⟩, ha'⟩
        · exact absurd hs hno
        · obtain ⟨rfl, rfl⟩ := Split.append_cons_inj_left ha hu heq
          have hne' : ensure (decide (b ≠ []) && decide (a ≠ [])) errInvalidDecimalLength
              = .ok () := by
            simp [ensure, hne, ha']
          dsimp only
          rw [hne', ok_bind, ok_bind]
          dsimp only
          rw [ensure_eq_ok (show b.length ≤ bigDecPrecision from hlen), ok_bind]
          rfl
  · rw [splitOn_eq_singleton hs]
    show Except.ok (s ++ List.replicate 36 48) = Except.ok x ↔ _
    constructor
    · intro h
      cases h
      refine ⟨Or.inl ⟨hs, rfl⟩, fun h => hs ?_⟩
      exact mem_of_mem_head? (by rw [h]; rfl)
    · rintro ⟨⟨-, rfl⟩ | ⟨a, b, rfl, -⟩, -⟩
      · rfl
      · simp at hs

lemma numeral_iff : Numeral s n ↔ ∃ x, Combined s x ∧ readDigits 0 x = some n := by
  have hpoint : ∀ {t : Bytes} {k m : ℕ}, readDigits k t = some m → 46 ∉ t := by
    intro t k m h hmem
    have := digit_of_readDigits h 46 hmem
    revert this
    decide
  constructor
  · rintro (⟨hds⟩ | ⟨hds, hfs, hne, hlen⟩)
    · refine ⟨_, Or.inl ⟨hpoint hds, rfl⟩, ?_⟩
      rw [readDigits_append, hds, bind_some, readDigits_replicate_zero]
    · rename_i ds fs n m
      refine ⟨_, Or.inr ⟨ds, fs, rfl, hpoint hds, hpoint hfs, hne, hlen, rfl⟩, ?_⟩
      have hshift := readDigits_add n 0 fs
      rw [hfs, add_zero] at hshift
      rw [readDigits_append, readDigits_append, hds, bind_some, hshift,
        map_some, bind_some, readDigits_replicate_zero, add_mul, mul_assoc,
        ← pow_add, Nat.add_sub_cancel' hlen]
  · rintro ⟨x, ⟨hs, rfl⟩ | ⟨a, b, rfl, ha, hb, hne, hlen, rfl⟩, hread⟩
    · rw [readDigits_append] at hread
      rcases hds : readDigits 0 s with - | k
      · simp [hds] at hread
      · rw [hds, bind_some, readDigits_replicate_zero] at hread
        cases hread
        exact .whole hds
    · rw [readDigits_append, readDigits_append] at hread
      rcases hds : readDigits 0 a with - | k
      · simp [hds] at hread
      · have hshift := readDigits_add k 0 b
        rw [add_zero] at hshift
        rw [hds, bind_some, hshift] at hread
        rcases hfs : readDigits 0 b with - | m
        · simp [hfs] at hread
        · rw [hfs, map_some, bind_some, readDigits_replicate_zero, add_mul,
            mul_assoc, ← pow_add, Nat.add_sub_cancel' hlen] at hread
          cases hread
          exact .point hds hfs hne hlen

/-! ### The parser -/

/-- What is accepted after the minus: a numeral that starts with a digit, or a sign and any
numeral. -/
def Scanned (t : Bytes) (i : ℤ) : Prop :=
  (∃ n : ℕ, startsWithDigit t = true ∧ Numeral t n ∧ i = n) ∨
    ∃ sign s, ∃ n : ℕ, t = sign :: s ∧ (sign = 45 ∨ sign = 43) ∧ Numeral s n
      ∧ i = if sign = 45 then -(n : ℤ) else n

variable {i : ℤ}

lemma scanned_cons : Scanned (ch :: s) i ↔
    ∃ x, combinedStr (ch :: s) = .ok x ∧ BigIntText.setString 10 x = some i := by
  by_cases hpoint : ch = 46
  · subst hpoint
    constructor
    · rintro (⟨n, hdigit, -⟩ | ⟨sign, s', n, heq, hsign, -⟩)
      · cases hdigit
      · obtain ⟨rfl, -⟩ := List.cons.inj heq
        simp at hsign
    · rintro ⟨x, hx, -⟩
      exact absurd rfl (combinedStr_ok_iff.mp hx).2
  · have hcombined : ∀ y, combinedStr (ch :: s) = .ok y ↔ ∃ x, y = ch :: x ∧ Combined s x := by
      intro y
      rw [combinedStr_ok_iff, combined_cons hpoint]
      simp [hpoint]
    by_cases hsign : ch = 45 ∨ ch = 43
    · -- the sign is taken off by `SetString`
      constructor
      · rintro (⟨n, hdigit, -⟩ | ⟨sign, s', n, heq, -, hn, rfl⟩)
        · rcases hsign with rfl | rfl <;> cases hdigit
        · obtain ⟨rfl, rfl⟩ := List.cons.inj heq
          obtain ⟨x, hx, hread⟩ := numeral_iff.mp hn
          refine ⟨ch :: x, (hcombined _).mpr ⟨x, rfl, hx⟩, setString_ten.mpr ?_⟩
          exact ⟨x, n, (if_pos hsign).symm, hx.ne_nil, hread, rfl⟩
      · rintro ⟨y, hy, hset⟩
        obtain ⟨x, rfl, hx⟩ := (hcombined y).mp hy
        obtain ⟨ds, n, hds, -, hread, rfl⟩ := setString_ten.mp hset
        rw [if_pos hsign] at hds
        subst hds
        exact .inr ⟨ch, s, n, rfl, hsign, numeral_iff.mpr ⟨ds, hx, hread⟩, rfl⟩
    · have hminus : ch ≠ 45 := fun h => hsign (.inl h)
      constructor
      · rintro (⟨n, hdigit, hn, rfl⟩ | ⟨sign, s', n, heq, hsign', -⟩)
        · obtain ⟨y, hy, hread⟩ := numeral_iff.mp hn
          obtain ⟨x, rfl, hx⟩ := (combined_cons hpoint).mp hy
          refine ⟨ch :: x, (hcombined _).mpr ⟨x, rfl, hx⟩, setString_ten.mpr ?_⟩
          exact ⟨ch :: x, n, (if_neg hsign).symm, cons_ne_nil _ _, hread, (if_neg hminus).symm⟩
        · obtain ⟨rfl, -⟩ := List.cons.inj heq
          exact absurd hsign' hsign
      · rintro ⟨y, hy, hset⟩
        obtain ⟨x, rfl, hx⟩ := (hcombined y).mp hy
        obtain ⟨ds, n, hds, -, hread, rfl⟩ := setString_ten.mp hset
        rw [if_neg hsign] at hds
        subst hds
        refine .inl ⟨n, ?_, numeral_iff.mpr ⟨_, (combined_cons hpoint).mpr ⟨x, rfl, hx⟩, hread⟩,
          if_neg hminus⟩
        rw [readDigits] at hread
        rcases hd : digitValue ch with - | k
        · simp [hd] at hread
        · simp [startsWithDigit, hd]

/-- **What the parser accepts.** -/
lemma newBigDecFromStr_ok_iff : newBigDecFromStr str = .ok d ↔
    ∃ i : ℤ, Scanned (stripMinus str) i ∧ i.natAbs < 2 ^ maxBitLen
      ∧ d.raw = if str.head? = some 45 then -i else i := by
  constructor
  · intro h
    unfold newBigDecFromStr at h
    obtain ⟨_, _, x, -, hne, hx, h⟩ := bind3_ok h
    split at h
    · cases h
    · rename_i i hi
      obtain ⟨_, hlen, h⟩ := bind_ok h
      cases h
      obtain ⟨ch, s, hs⟩ := exists_cons_of_ne_nil (of_decide_eq_true (ensure_ok hne))
      refine ⟨i, ?_, of_decide_eq_true (ensure_ok hlen), by simp⟩
      rw [hs] at hx ⊢
      exact scanned_cons.mpr ⟨x, hx, hi⟩
  · rintro ⟨i, hi, hlen, hraw⟩
    have hne : stripMinus str ≠ [] := by
      rintro hnil
      rw [hnil] at hi
      rcases hi with ⟨n, hdigit, -⟩ | ⟨sign, s, n, heq, -⟩
      · cases hdigit
      · cases heq
    have hstr : str ≠ [] := by
      rintro rfl
      exact hne rfl
    obtain ⟨ch, s, hs⟩ := exists_cons_of_ne_nil hne
    rw [hs] at hi
    obtain ⟨x, hx, hset⟩ := scanned_cons.mp hi
    unfold newBigDecFromStr
    rw [ensure_eq_ok hstr, ok_bind]
    dsimp only
    rw [ensure_eq_ok hne, ok_bind, hs, hx, ok_bind, hset]
    dsimp only
    rw [ensure_eq_ok hlen, ok_bind]
    refine congrArg Except.ok (BigDec.ext ?_)
    rw [hraw]
    simp

lemma head_of_startsWithDigit (h : startsWithDigit s = true) : s.head? ≠ some 45 := by
  rcases s with - | ⟨b, s⟩
  · cases h
  · rintro ⟨⟩
    cases h

lemma stripMinus_of_startsWithDigit (h : startsWithDigit s = true) : stripMinus s = s :=
  if_neg (head_of_startsWithDigit h)

lemma denotes_iff : Denotes str i ↔ ∃ n : ℕ, startsWithDigit (stripMinus str) = true
    ∧ Numeral (stripMinus str) n ∧ i = if str.head? = some 45 then -(n : ℤ) else n := by
  constructor
  · rintro (⟨hs, hn⟩ | ⟨hs, hn⟩)
    · refine ⟨_, ?_, ?_, (if_neg (head_of_startsWithDigit hs)).symm⟩
      · rwa [stripMinus_of_startsWithDigit hs]
      · rwa [stripMinus_of_startsWithDigit hs]
    · exact ⟨_, hs, hn, rfl⟩
  · rintro ⟨n, hs, hn, rfl⟩
    unfold stripMinus at hs hn
    split at hs
    · rename_i hminus
      rw [if_pos hminus] at hn ⊢
      rcases str with - | ⟨b, str⟩
      · cases hminus
      · cases hminus
        exact .neg hs hn
    · rename_i hminus
      rw [if_neg hminus] at hn ⊢
      exact .pos hs hn

/-- **Where the parser is the grammar**: whatever does not have a second sign. -/
lemma newBigDecFromStr_iff_denotes
    (h : ¬∃ sign s n, stripMinus str = sign :: s ∧ (sign = 45 ∨ sign = 43) ∧ Numeral s n
      ∧ n < 2 ^ maxBitLen) :
    newBigDecFromStr str = .ok d ↔ Denotes str d.raw ∧ d.raw.natAbs < 2 ^ maxBitLen := by
  rw [newBigDecFromStr_ok_iff, denotes_iff]
  constructor
  · rintro ⟨i, ⟨n, hs, hn, rfl⟩ | ⟨sign, s, n, hs, hsign, hn, rfl⟩, hlen, hraw⟩
    · refine ⟨⟨n, hs, hn, hraw⟩, ?_⟩
      rw [hraw]
      split <;> simpa using hlen
    · refine absurd ⟨sign, s, n, hs, hsign, hn, ?_⟩ h
      split at hlen <;> simpa using hlen
  · rintro ⟨⟨n, hs, hn, hraw⟩, hlen⟩
    refine ⟨n, Or.inl ⟨n, hs, hn, rfl⟩, ?_, hraw⟩
    rw [hraw] at hlen
    split at hlen <;> simpa using hlen

/-! ### Round trips -/

variable {a b : Bytes}

lemma startsWithDigit_append (ha : a ≠ [])
    (hread : readDigits 0 a = some n) : startsWithDigit (a ++ b) = true := by
  obtain ⟨ch, a, rfl⟩ := exists_cons_of_ne_nil ha
  rw [readDigits] at hread
  rcases hd : digitValue ch with - | k
  · simp [hd] at hread
  · simp [startsWithDigit, hd]

lemma numeral_of_readDigits (ha : a ≠ []) (hb : b.length = 36)
    (hread : readDigits 0 (a ++ b) = some n) :
    startsWithDigit (a ++ 46 :: b) = true ∧ Numeral (a ++ 46 :: b) n := by
  rw [readDigits_append] at hread
  rcases hds : readDigits 0 a with - | k
  · simp [hds] at hread
  · have hshift := readDigits_add k 0 b
    rw [add_zero] at hshift
    rw [hds, bind_some, hshift] at hread
    rcases hfs : readDigits 0 b with - | m
    · simp [hfs] at hread
    · rw [hfs, map_some, hb] at hread
      cases hread
      have hne : b ≠ [] := by
        rintro rfl
        cases hb
      have hn := Numeral.point hds hfs hne hb.le
      rw [hb, Nat.sub_self, pow_zero, mul_one] at hn
      exact ⟨startsWithDigit_append ha hds, hn⟩

lemma denotes_string (d : BigDec) : Denotes (string d) d.raw := by
  have hbz : BigIntText.marshalText d.raw.natAbs = formatUint d.raw.natAbs := by
    rw [BigIntText.marshalText, formatInt, if_neg (by omega), Int.natAbs_natCast]
  have hread := readDigits_formatUint d.raw.natAbs
  have hnil := formatUint_ne_nil d.raw.natAbs
  have hbody : ∃ body, string d = (if d.raw < 0 then 45 :: body else body)
      ∧ startsWithDigit body = true ∧ Numeral body d.raw.natAbs := by
    unfold string
    rw [hbz]
    dsimp only
    generalize formatUint d.raw.natAbs = bz at *
    refine ⟨_, rfl, ?_⟩
    split
    · rename_i hshort
      have hshort' : bz.length ≤ 36 := hshort
      have hzeros : readDigits 0 ([48] ++ (List.replicate (36 - bz.length) 48 ++ bz))
          = some d.raw.natAbs := by
        rw [← append_assoc, readDigits_append]
        show (readDigits 0 (List.replicate (36 - bz.length + 1) 48)).bind _ = _
        rw [readDigits_replicate_zero, zero_mul]
        exact hread
      refine numeral_of_readDigits (by simp) ?_ hzeros
      simp
      omega
    · rename_i hlong
      have hlong' : 36 < bz.length := not_le.mp hlong
      rw [append_assoc, singleton_append]
      refine numeral_of_readDigits ?_ ?_ (by rwa [take_append_drop])
      · simp [bigDecPrecision, hnil]
        omega
      · simp [bigDecPrecision]
        omega
  obtain ⟨body, hstring, hdigit, hn⟩ := hbody
  rw [hstring]
  split
  · have h := Denotes.neg hdigit hn
    rwa [show -(d.raw.natAbs : ℤ) = d.raw by omega] at h
  · have h := Denotes.pos hdigit hn
    rwa [show (d.raw.natAbs : ℤ) = d.raw by omega] at h

lemma newBigDecFromStr_string (d : BigDec) :
    newBigDecFromStr (string d) = .ok d ↔ d.raw.natAbs < 2 ^ maxBitLen := by
  have hd := denotes_string d
  rw [newBigDecFromStr_iff_denotes]
  · exact and_iff_right hd
  · obtain ⟨n, hs, -⟩ := denotes_iff.mp hd
    rintro ⟨sign, s, m, heq, hsign, -⟩
    rw [heq] at hs
    rcases hsign with rfl | rfl <;> cases hs

lemma unmarshal_marshal (d : BigDec) :
    unmarshal none (marshal d) = .ok (some d) ↔ d.raw.natAbs < 2 ^ maxBitLen := by
  have hnil : marshal d ≠ [] := formatInt_ne_nil d.raw
  rw [unmarshal, if_neg hnil, marshal, unmarshalText_marshalText]
  constructor
  · intro h
    obtain ⟨_, hlen, -⟩ := bind_ok h
    exact of_decide_eq_true (ensure_ok hlen)
  · intro hlen
    dsimp only
    rw [ensure_eq_ok hlen, ok_bind]

/-- **Text and wire formats.**  A string is parsed as the grammar says exactly if it is not a
second sign and a numeral in range; and of all decimals, exactly those of at most 1024 bits are
read back from what is written. -/
theorem bigDec_text_iff (str : Bytes) (d : BigDec) :
    ((∀ e, newBigDecFromStr str = .ok e
          ↔ Denotes str e.raw ∧ e.raw.natAbs < 2 ^ maxBitLen)
        ↔ ¬∃ sign s n, stripMinus str = sign :: s ∧ (sign = 45 ∨ sign = 43) ∧ Numeral s n
          ∧ n < 2 ^ maxBitLen)
    ∧ ((newBigDecFromStr (string d) = .ok d ∧ unmarshal none (marshal d) = .ok (some d))
        ↔ d.raw.natAbs < 2 ^ maxBitLen) := by
  refine ⟨⟨?_, fun h e => newBigDecFromStr_iff_denotes h⟩, ?_⟩
  · rintro hexact ⟨sign, s, n, heq, hsign, hn, hlen⟩
    -- it is accepted, and it does not start with a digit
    have hscan : Scanned (stripMinus str) (if sign = 45 then -(n : ℤ) else n) :=
      Or.inr ⟨sign, s, n, heq, hsign, hn, rfl⟩
    have hbits : (if sign = 45 then -(n : ℤ) else n).natAbs < 2 ^ maxBitLen := by
      split <;> simpa using hlen
    have hok := newBigDecFromStr_ok_iff.mpr ⟨_, hscan, hbits, rfl⟩
    obtain ⟨m, hs, -⟩ := denotes_iff.mp ((hexact ⟨_⟩).mp hok).1
    rw [heq] at hs
    rcases hsign with rfl | rfl <;> cases hs
  · rw [newBigDecFromStr_string, unmarshal_marshal, and_self]

/-- A usual number. -/
theorem bigDec_text_usual :
    newBigDecFromStr (ascii "-456.7890") = .ok ⟨-4567890 * 10 ^ 32⟩
      ∧ Denotes (ascii "-456.7890") (-4567890 * 10 ^ 32)
      ∧ newBigDecFromStr (string ⟨-4567890 * 10 ^ 32⟩) = .ok ⟨-4567890 * 10 ^ 32⟩
      ∧ unmarshal none (marshal ⟨-4567890 * 10 ^ 32⟩) = .ok (some ⟨-4567890 * 10 ^ 32⟩) := by
  obtain ⟨hparse, hround⟩ := bigDec_text_iff (ascii "-456.7890") ⟨-4567890 * 10 ^ 32⟩
  have hok : newBigDecFromStr (ascii "-456.7890") = .ok ⟨-4567890 * 10 ^ 32⟩ := by decide +kernel
  have hplain : ¬∃ sign s n, stripMinus (ascii "-456.7890") = sign :: s
      ∧ (sign = 45 ∨ sign = 43) ∧ Numeral s n ∧ n < 2 ^ maxBitLen := by
    rintro ⟨sign, s, n, heq, hsign, -⟩
    obtain ⟨rfl, -⟩ := List.cons.inj heq
    revert hsign
    decide
  have hbits : (-4567890 * 10 ^ 32 : ℤ).natAbs < 2 ^ maxBitLen := by decide +kernel
  exact ⟨hok, ((hparse.mpr hplain _).mp hok).1, hround.mpr hbits⟩

/-- Signs that the grammar does not have, and a decimal that is not read back. -/
theorem second_sign_accepted :
    newBigDecFromStr (ascii "+1") = .ok one ∧ newBigDecFromStr (ascii "--1") = .ok one
      ∧ newBigDecFromStr (ascii "+") = .ok zero ∧ newBigDecFromStr (ascii "+.5") = .ok ⟨5 * 10 ^ 35⟩
      ∧ (¬∃ i, Denotes (ascii "+1") i)
      ∧ checked (2 ^ 1024) = .ok ⟨2 ^ 1024⟩
      ∧ newBigDecFromStr (string ⟨2 ^ 1024⟩)
        = .error (.errf "decimal out of range; bitLen: got %d, max 1024" (ascii "1025"))
      ∧ unmarshal none (marshal ⟨2 ^ 1024⟩)
        = .error (.errf "decimal out of range; got: %d, max: 1024" (ascii "1025")) := by
  refine ⟨by decide +kernel, by decide +kernel, by decide +kernel, by decide +kernel, ?_,
    by decide +kernel, by decide +kernel, by decide +kernel⟩
  rintro ⟨i, hi⟩
  obtain ⟨n, hs, -⟩ := denotes_iff.mp hi
  revert hs
  decide

end MaanyDex.Osmomath.BigDec
