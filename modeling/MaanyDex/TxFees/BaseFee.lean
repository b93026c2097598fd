/-
The fee market of `x/txfees/keeper/mempool-1559/code.go`, and its target in `x/txfees/module.go`.

A node keeps the base fee in memory and multiplies it at the end of every block, by more than one if
the block wanted more gas than the target.  A copy is handed to a goroutine that writes it to a file;
after a restart the node continues with any of the copies, or without one.

The target is set when a block begins, from the gas that the consensus parameters allow a block.
If they allow one unit of gas, or no gas at all any more, the target is zero, and no block ends.
-/
import MaanyDex.Sdk.Dec

namespace MaanyDex.TxFees

open Run FixedPoint

open Dec (unit)

def defaultBaseFee : Dec := ⟨6 * 10 ^ 15⟩

def minBaseFee : Dec := ⟨25 * 10 ^ 14⟩

def maxBaseFee : Dec := ⟨5 * 10 ^ 18⟩

def resetInterval : ℤ := 6000

/-- One tenth. -/
def maxBlockChangeRate : Dec := ⟨10 ^ 17⟩

/-- Five eighths. -/
def targetBlockSpacePercent : Dec := ⟨625 * 10 ^ 15⟩

/-- The consensus parameters: `Block.MaxGas`, where `Block` may be nil, and whether anything else is
there.  CometBFT accepts `-1` for no limit, and no other negative number. -/
structure ConsParams where
  maxGas : Option ℤ
  others : Bool
  valid : ∀ gas ∈ maxGas, -1 ≤ gas ∧ gas < 2 ^ 63

structure EipState where
  currentBlockHeight : ℤ
  totalGasWantedThisBlock : ℤ
  curBaseFee : Dec

/-- `CurEipState`, `TargetGas` and `cachedConsParams`, what can be read from the backup file, and all
copies that were made for it. -/
structure Node where
  eip : EipState := ⟨0, 0, .zero⟩
  targetGas : ℤ := 187500000
  cachedConsParams : ConsParams := ⟨none, false, nofun⟩
  file : Option Dec := none
  copies : List Dec := []

def tryLoad (n : Node) : Dec := n.file.getD minBaseFee

def startBlock (n : Node) (height : ℤ) : Node :=
  let fee := if n.eip.curBaseFee = .zero then tryLoad n else n.eip.curBaseFee
  { n with eip := ⟨height, 0, if height % resetInterval = 0 then defaultBaseFee else fee⟩ }

variable (math : Math) (n : Node)

def setTargetGas (maxGas : ℤ) : Result Node := do
  let blockMaxGas ← Dec.mul math targetBlockSpacePercent (.ofInt maxGas)
  let newBlockMaxGas ← blockMaxGas.truncateInt64
  .ok { n with targetGas := newBlockMaxGas }

/-- With what the query of the consensus parameters answers. -/
def checkAndSetTargetGas (consParams : Result ConsParams) : Result Node := do
  let params ← consParams
  if n.cachedConsParams.maxGas = none ∧ n.cachedConsParams.others = false then
    let n := { n with cachedConsParams := params }
    match params.maxGas with
    | none => .ok n
    | some maxGas => if maxGas = 0 ∨ maxGas = -1 then .ok n else setTargetGas math n maxGas
  else
    match params.maxGas, n.cachedConsParams.maxGas with
    | some maxGas, some cached =>
      if maxGas = cached ∨ maxGas = -1 then .ok n
      else setTargetGas math { n with cachedConsParams := params } maxGas
    | _, _ => .error (.panic "invalid memory address or nil pointer dereference")

/-- Sums are those of `int64`. -/
def deliverTxCode (gas : UInt64) : Node :=
  let total := (n.eip.totalGasWantedThisBlock + (gas.toNat : ℤ).bmod (2 ^ 64)).bmod (2 ^ 64)
  { n with eip := { n.eip with totalGasWantedThisBlock := total } }

def updateBaseFee (height : ℤ) : Result Node := do
  let gasDiff := (n.eip.totalGasWantedThisBlock - n.targetGas).bmod (2 ^ 64)
  let excess ← Dec.quo math (.ofInt gasDiff) (.ofInt n.targetGas)
  let baseFeeIncrement ← Dec.mul math excess maxBlockChangeRate
  let baseFeeMultiplier ← Dec.add math .one baseFeeIncrement
  let fee ← Dec.mul math n.eip.curBaseFee baseFeeMultiplier
  let fee := if fee < minBaseFee then minBaseFee else fee
  let fee := if maxBaseFee < fee then maxBaseFee else fee
  .ok { n with
    eip := { n.eip with currentBlockHeight := height + 1, curBaseFee := fee }
    copies := fee :: n.copies }

inductive Event where
  | restart (file : Option Dec)
  | beginBlock (height : ℤ) (consParams : Result ConsParams)
  | deliverTx (gas : UInt64)
  | endBlock (height : ℤ)

def step : Event → Result Node
  | .restart file => do
    ensure (∀ copy ∈ file, copy ∈ n.copies) (.err "not a copy")
    .ok { file, copies := n.copies }
  | .beginBlock height consParams => checkAndSetTargetGas math (startBlock n height) consParams
  | .deliverTx gas => .ok (deliverTxCode n gas)
  | .endBlock height => updateBaseFee math n height

/-! ### The range of the base fee -/

def InRange (fee : Dec) : Prop := minBaseFee ≤ fee ∧ fee ≤ maxBaseFee

/-- Only a node that was just started has no base fee. -/
structure Sound (n : Node) : Prop where
  fee : n.eip.curBaseFee = .zero ∨ InRange n.eip.curBaseFee
  gas : n.eip.totalGasWantedThisBlock < 2 ^ 63
  target : n.targetGas = 187500000
    ∨ ∃ gas ∈ n.cachedConsParams.maxGas, 0 ≤ gas ∧ n.targetGas = 5 * gas / 8
  file : ∀ copy ∈ n.file, InRange copy
  copies : ∀ copy ∈ n.copies, InRange copy

variable {math : Math} {n n' : Node} {height : ℤ}

lemma inRange_startBlock (h : Sound n) (height : ℤ) :
    InRange (startBlock n height).eip.curBaseFee := by
  have hload : InRange (tryLoad n) := by
    unfold tryLoad
    rcases hfile : n.file with - | copy
    · exact ⟨by decide, by decide⟩
    · exact h.file copy hfile
  simp only [startBlock]
  split_ifs with hreset hzero
  · exact ⟨by decide, by decide⟩
  · exact hload
  · exact h.fee.resolve_left hzero

lemma updateBaseFee_ok (h : updateBaseFee math n height = .ok n') :
    InRange n'.eip.curBaseFee ∧ n'.copies = n'.eip.curBaseFee :: n.copies ∧ n'.file = n.file
      ∧ n'.eip.totalGasWantedThisBlock = n.eip.totalGasWantedThisBlock
      ∧ n'.targetGas = n.targetGas ∧ n'.cachedConsParams = n.cachedConsParams := by
  obtain ⟨_, _, _, _, _, _, h⟩ := bind3_ok h
  obtain ⟨fee, _, h⟩ := bind_ok h
  cases h
  refine ⟨?_, rfl, rfl, rfl, rfl, rfl⟩
  simp only [InRange]
  split_ifs with hmin hmax hmax
  · exact absurd hmax (by decide)
  · exact ⟨by decide, by decide⟩
  · exact ⟨by decide, by decide⟩
  · exact ⟨Int.not_lt.mp hmin, Int.not_lt.mp hmax⟩

lemma checked_eq_ok {raw : ℤ} (h : |raw| < 2 ^ 250) : Dec.checked chainMath raw = .ok ⟨raw⟩ := by
  rw [Int.abs_eq_natAbs] at h
  have hlt : raw.natAbs < 2 ^ 250 := by exact_mod_cast h
  exact if_pos (hlt.trans_le (Nat.pow_le_pow_right two_pos (by decide)))

lemma abs_mul_le (a b : ℤ) : |FixedPoint.mul unit a b| ≤ |a| * |b| := by
  rw [← abs_mul]
  exact abs_nearest_le Dec.unit_pos _

/-- **Blocks end.**  The gas wanted is an `int64`, so the multiplier has less than 181 bits. -/
lemma updateBaseFee_eq_ok (h : |n.eip.curBaseFee.raw| ≤ 5 * 10 ^ 18) (htarget : 0 < n.targetGas)
    (height : ℤ) : ∃ n', updateBaseFee chainMath n height = .ok n' := by
  unfold updateBaseFee
  generalize hgas : (n.eip.totalGasWantedThisBlock - n.targetGas).bmod (2 ^ 64) = gasDiff
  have hlow : -2 ^ 63 ≤ gasDiff := hgas ▸ Int.le_bmod (by norm_num)
  have hhigh : gasDiff < 2 ^ 63 := hgas ▸ Int.bmod_lt (by norm_num)
  have hunit : (unit : ℤ) ≤ n.targetGas * unit := le_mul_of_one_le_left (by decide) htarget
  have hquo : |FixedPoint.quo unit (gasDiff * unit) (n.targetGas * unit)| ≤ 2 ^ 63 * 10 ^ 18 := by
    refine (abs_quo_le Dec.unit_pos hunit _).trans ?_
    rw [abs_mul, Nat.abs_cast]
    exact mul_le_mul_of_nonneg_right (abs_le.mpr ⟨hlow, hhigh.le⟩) (by decide)
  have hexcess : Dec.quo chainMath (.ofInt gasDiff) (.ofInt n.targetGas)
      = .ok ⟨FixedPoint.quo unit (gasDiff * unit) (n.targetGas * unit)⟩ := by
    unfold Dec.quo
    have hne : (Dec.ofInt n.targetGas).raw ≠ 0 := (mul_pos htarget (by decide)).ne'
    rw [if_neg hne]
    exact checked_eq_ok (hquo.trans_lt (by norm_num))
  generalize FixedPoint.quo unit (gasDiff * unit) (n.targetGas * unit) = excess at hquo hexcess
  have hinc : |FixedPoint.mul unit excess (10 ^ 17)| ≤ 2 ^ 63 * 10 ^ 18 * 10 ^ 17 :=
    (abs_mul_le excess _).trans (mul_le_mul_of_nonneg_right hquo (by norm_num))
  have hincrement : Dec.mul chainMath ⟨excess⟩ maxBlockChangeRate
      = .ok ⟨FixedPoint.mul unit excess (10 ^ 17)⟩ := checked_eq_ok (hinc.trans_lt (by norm_num))
  generalize FixedPoint.mul unit excess (10 ^ 17) = inc at hinc hincrement
  have hsum : |unit + inc| ≤ 10 ^ 18 + 2 ^ 63 * 10 ^ 18 * 10 ^ 17 :=
    (abs_add_le _ _).trans (add_le_add (by decide) hinc)
  have hmultiplier : Dec.add chainMath .one ⟨inc⟩ = .ok ⟨unit + inc⟩ :=
    checked_eq_ok (hsum.trans_lt (by norm_num))
  have hfee : Dec.mul chainMath n.eip.curBaseFee ⟨unit + inc⟩
      = .ok ⟨FixedPoint.mul unit n.eip.curBaseFee.raw (unit + inc)⟩ :=
    checked_eq_ok ((abs_mul_le _ _).trans_lt
      ((mul_le_mul h hsum (abs_nonneg _) (by norm_num)).trans_lt (by norm_num)))
  simp only [hexcess, hincrement, hmultiplier, hfee, ok_bind]
  exact ⟨_, rfl⟩

lemma setTargetGas_ok {maxGas : ℤ} (hgas : 0 ≤ maxGas) (h : setTargetGas math n maxGas = .ok n') :
    n' = { n with targetGas := 5 * maxGas / 8 } := by
  obtain ⟨product, target, hproduct, htarget, h⟩ := bind2_ok h
  cases h
  have hraw : product.raw = 625 * 10 ^ 15 * maxGas := by
    rw [Dec.mul_ok hproduct]
    show FixedPoint.nearest unit (625 * 10 ^ 15 * (maxGas * unit)) = _
    rw [← mul_assoc, nearest_mul_self Dec.unit_pos]
  unfold Dec.truncateInt64 at htarget
  dsimp only at htarget
  split at htarget
  · cases htarget
    rw [hraw, Int.tdiv_eq_ediv_of_nonneg (by positivity)]
    congr 1
    show 625 * 10 ^ 15 * maxGas / 10 ^ 18 = _
    omega
  · cases htarget

/-- The target is from the parameters that were read last. -/
lemma checkAndSetTargetGas_ok {consParams : Result ConsParams}
    (h : checkAndSetTargetGas math n consParams = .ok n') :
    n'.eip = n.eip ∧ n'.file = n.file ∧ n'.copies = n.copies
      ∧ (n'.targetGas = n.targetGas
          ∧ (n'.cachedConsParams = n.cachedConsParams ∨ n.cachedConsParams.maxGas = none)
        ∨ ∃ gas ∈ n'.cachedConsParams.maxGas, 0 ≤ gas ∧ n'.targetGas = 5 * gas / 8) := by
  obtain ⟨params, -, h⟩ := bind_ok h
  split at h
  · rename_i hempty
    dsimp only at h
    split at h
    · cases h
      exact ⟨rfl, rfl, rfl, .inl ⟨rfl, .inr hempty.1⟩⟩
    · rename_i gas hgas
      have hvalid := params.valid gas hgas
      split at h
      · cases h
        exact ⟨rfl, rfl, rfl, .inl ⟨rfl, .inr hempty.1⟩⟩
      · obtain rfl := setTargetGas_ok (by omega) h
        exact ⟨rfl, rfl, rfl, .inr ⟨gas, hgas, by omega, rfl⟩⟩
  · split at h
    · rename_i gas cached hgas hcached
      have hvalid := params.valid gas hgas
      split at h
      · cases h
        exact ⟨rfl, rfl, rfl, .inl ⟨rfl, .inl rfl⟩⟩
      · obtain rfl := setTargetGas_ok (by omega) h
        exact ⟨rfl, rfl, rfl, .inr ⟨gas, hgas, by omega, rfl⟩⟩
    · cases h

lemma Sound.step {e : Event} (h : Sound n) (hstep : step math n e = .ok n') : Sound n' := by
  cases e with
  | restart file =>
    obtain ⟨_, hfile, hstep⟩ := bind_ok hstep
    cases hstep
    exact ⟨.inl rfl, by norm_num, .inl rfl,
      fun copy hcopy => h.copies copy (of_decide_eq_true (ensure_ok hfile) copy hcopy), h.copies⟩
  | beginBlock height consParams =>
    obtain ⟨heip, hfile, hcopies, htarget⟩ := checkAndSetTargetGas_ok hstep
    refine ⟨.inr (heip ▸ inRange_startBlock h height), by rw [heip]; norm_num [startBlock], ?_,
      hfile ▸ h.file, hcopies ▸ h.copies⟩
    rcases htarget with ⟨hsame, hcached⟩ | hnew
    · rw [hsame]
      refine h.target.imp_right fun ⟨gas, hgas, hrest⟩ => ?_
      -- parameters with a limit are not replaced without setting the target
      rcases hcached with hcached | hnone
      · exact ⟨gas, hcached ▸ hgas, hrest⟩
      · rw [show n.cachedConsParams.maxGas = none from hnone] at hgas
        cases hgas
    · exact .inr hnew
  | deliverTx gas =>
    cases hstep
    exact ⟨h.fee, Int.bmod_lt (by norm_num), h.target, h.file, h.copies⟩
  | endBlock height =>
    obtain ⟨hfee, hcopies, hfile, hgas, htarget, hcached⟩ := updateBaseFee_ok hstep
    refine ⟨.inr hfee, hgas ▸ h.gas, by rw [htarget, hcached]; exact h.target, hfile ▸ h.file, ?_⟩
    rw [hcopies]
    exact List.forall_mem_cons.mpr ⟨hfee, h.copies⟩

/-- A node after a run. -/
def ran (es : List Event) : Node := Run.run (step chainMath) {} es

lemma sound_ran (es : List Event) : Sound (ran es) :=
  run_invariant (C := fun _ _ => True) ⟨.inl rfl, by norm_num, .inl rfl, nofun, nofun⟩
    (fun _ _ _ h _ hstep => h.step hstep) (along_of_forall fun _ _ _ => trivial)

lemma Sound.target_bounds (h : Sound n) : 0 ≤ n.targetGas ∧ n.targetGas < 2 ^ 63 := by
  rcases h.target with htarget | ⟨gas, hgas, hnonneg, htarget⟩
  · omega
  · have := n.cachedConsParams.valid gas hgas
    omega

lemma Sound.endBlock (h : Sound n) (htarget : n.targetGas ≠ 0) (height : ℤ) :
    ∃ n', updateBaseFee chainMath n height = .ok n' := by
  refine updateBaseFee_eq_ok ?_ (lt_of_le_of_ne h.target_bounds.1 htarget.symm) height
  rcases h.fee with hzero | ⟨hmin, hmax⟩
  · rw [hzero]
    decide
  · exact abs_le.mpr ⟨(show -(5 * 10 ^ 18) ≤ minBaseFee.raw by decide).trans hmin, hmax⟩

/-- **The base fee is bounded.**  In every run of a node, with restarts from any copy or none and
whatever gas transactions want, all copies are in range and a block starts with a base fee in range.
Its end panics if the target is zero; otherwise it does not, and leaves one in range. -/
theorem base_fee_in_range (es : List Event) (height : ℤ) :
    Sound (ran es) ∧ InRange (startBlock (ran es) height).eip.curBaseFee
      ∧ ((ran es).targetGas = 0
          ∧ step chainMath (ran es) (.endBlock height) = .error (.panic "division by zero")
        ∨ (ran es).targetGas ≠ 0
          ∧ ∃ n', step chainMath (ran es) (.endBlock height) = .ok n'
            ∧ InRange n'.eip.curBaseFee) := by
  have hsound := sound_ran es
  refine ⟨hsound, inRange_startBlock hsound height, ?_⟩
  by_cases htarget : (ran es).targetGas = 0
  · refine .inl ⟨htarget, ?_⟩
    rw [step, updateBaseFee, htarget]
    rfl
  · obtain ⟨n', hn'⟩ := hsound.endBlock htarget height
    exact .inr ⟨htarget, n', hn', (updateBaseFee_ok hn').1⟩

/-- A chain that allows one unit of gas. -/
example : (ran [.beginBlock 1 (.ok ⟨some 1, true, by simp⟩)]).targetGas = 0 := by decide +kernel

/-! ### The direction of the base fee -/

lemma updateBaseFee_moves (h : updateBaseFee math n height = .ok n')
    (hfee : 0 ≤ n.eip.curBaseFee.raw) {gasDiff : ℤ}
    (htarget : 0 ≤ n.targetGas)
    (hgas : (n.eip.totalGasWantedThisBlock - n.targetGas).bmod (2 ^ 64) = gasDiff) :
    (0 ≤ gasDiff → n.eip.curBaseFee ≤ maxBaseFee → n.eip.curBaseFee ≤ n'.eip.curBaseFee)
      ∧ (gasDiff ≤ 0 → minBaseFee ≤ n.eip.curBaseFee → n'.eip.curBaseFee ≤ n.eip.curBaseFee) := by
  obtain ⟨excess, inc, multiplier, hexcess, hinc, hmultiplier, h⟩ := bind3_ok h
  obtain ⟨fee, hmul, h⟩ := bind_ok h
  cases h
  rw [hgas] at hexcess
  replace hexcess := (Dec.quo_ok hexcess).2
  replace hinc := Dec.mul_ok hinc
  replace hmultiplier : multiplier.raw = unit + inc.raw := Dec.checked_ok hmultiplier
  replace hmul := Dec.mul_ok hmul
  have hone : FixedPoint.mul unit n.eip.curBaseFee.raw unit = n.eip.curBaseFee.raw :=
    nearest_mul_self Dec.unit_pos _
  have hmono : ∀ {x y : ℤ}, x ≤ y → FixedPoint.mul unit n.eip.curBaseFee.raw x
      ≤ FixedPoint.mul unit n.eip.curBaseFee.raw y := fun hxy =>
    nearest_mono (mul_le_mul_of_nonneg_left hxy hfee)
  have hdivisor : 0 ≤ n.targetGas * (unit : ℤ) := by positivity
  rw [hmultiplier] at hmul
  constructor
  · intro hgasDiff hmax
    have hexcess' : 0 ≤ excess.raw :=
      hexcess ▸ quo_nonneg (mul_nonneg hgasDiff (by decide)) hdivisor
    have hinc' : 0 ≤ inc.raw := hinc ▸ mul_nonneg hexcess' (by decide)
    have hup := hmono (show (unit : ℤ) ≤ unit + inc.raw by omega)
    rw [hone, ← hmul] at hup
    change n.eip.curBaseFee.raw ≤ Dec.raw _
    change n.eip.curBaseFee.raw ≤ maxBaseFee.raw at hmax
    split_ifs <;> simp only [Dec.lt_def] at * <;> omega
  · intro hgasDiff hmin
    have hexcess' : excess.raw ≤ 0 :=
      hexcess ▸ quo_nonpos (mul_nonpos_of_nonpos_of_nonneg hgasDiff (by decide)) hdivisor
    have hinc' : inc.raw ≤ 0 :=
      hinc ▸ nearest_nonpos (mul_nonpos_of_nonpos_of_nonneg hexcess' (by decide))
    have hdown := hmono (show unit + inc.raw ≤ unit by omega)
    rw [hone, ← hmul] at hdown
    change Dec.raw _ ≤ n.eip.curBaseFee.raw
    change minBaseFee.raw ≤ n.eip.curBaseFee.raw at hmin
    split_ifs <;> simp only [Dec.lt_def] at * <;> omega

/-- **The base fee follows the gas.**  In every run, with a target that is not zero, the end of a
block does not lower the base fee if the block wanted at least the target, and does not raise it if
the block wanted at most the target (a negative total is a sum that ran over). -/
theorem base_fee_follows_gas (es : List Event) (height : ℤ) :
    (ran es).targetGas = 0 ∨ ∃ n', step chainMath (ran es) (.endBlock height) = .ok n'
      ∧ ((ran es).targetGas ≤ (ran es).eip.totalGasWantedThisBlock →
        (ran es).eip.curBaseFee ≤ n'.eip.curBaseFee)
      ∧ (0 ≤ (ran es).eip.totalGasWantedThisBlock →
        (ran es).eip.totalGasWantedThisBlock ≤ (ran es).targetGas →
        (ran es).eip.curBaseFee ≠ .zero → n'.eip.curBaseFee ≤ (ran es).eip.curBaseFee) := by
  have hsound := sound_ran es
  generalize ran es = n at hsound
  by_cases hzero : n.targetGas = 0
  · exact .inl hzero
  obtain ⟨n', hn'⟩ := hsound.endBlock hzero height
  have hrange : 0 ≤ n.eip.curBaseFee.raw ∧ n.eip.curBaseFee ≤ maxBaseFee := by
    rcases hsound.fee with hzero | ⟨hmin, hmax⟩
    · rw [hzero]
      decide
    · exact ⟨(show 0 ≤ minBaseFee.raw by decide).trans hmin, hmax⟩
  have hgas := hsound.gas
  have htarget := hsound.target_bounds
  refine .inr ⟨n', hn', ?_, ?_⟩
  · intro hwanted
    refine (updateBaseFee_moves hn' hrange.1 htarget.1 (Int.bmod_eq_of_le ?_ ?_)).1 ?_ hrange.2 <;>
      omega
  · intro hnonneg hwanted hstarted
    refine (updateBaseFee_moves hn' hrange.1 htarget.1 (Int.bmod_eq_of_le ?_ ?_)).2 ?_
      (hsound.fee.resolve_left hstarted).1 <;> omega

end MaanyDex.TxFees
