import MinerTim.RandomX.Isa
import MinerTim.RandomX.Reciprocal
import MinerTim.RandomX.Termination
import MinerTim.RandomX.VmLoopSpec

/-!
# `RandomX.IsaSpec` — `compile_program` and `execute_bytecode` run the program as it stands

The interpreter works on a translation of the program: operands are precomputed into masks and constants,
operations that do nothing become `Nop`, and branch targets come from the table of register usages. This
module shows that the translation keeps the meaning of `RandomX.Isa`:

* `Compiles`: what a bytecode instruction has to do with the instruction it stands for, established once
  for each operation in the order of the decoder (`compileInstruction_compiles`);
* the target of a branch is the instruction before the entry of its loop (`loopEntry_bytecodeAt`);
* so an iteration of the interpreter loop is a step of the abstract machine (`step_of_machine`), and the
  run of the whole program is the run of its text.
-/

namespace MinerTim
namespace RandomX
namespace Isa

/-! ## The abstraction of a machine state -/

/-- What the interpreter's state stands for. -/
def abs (s : VmState) : State where
  r i := s.rAt i
  f i := s.fAt i
  e i := s.eAt i
  a i := s.aAt i
  mem w := spWord s.scratchpad (8 * w)
  ctl := s.ctl

section

variable {s : VmState}

theorem abs_putR {i : Nat} (h : i < 8) (v : Word) : abs (s.putR i v) = (abs s).setR ⟨i, h⟩ v := by
  simp only [abs, State.setR, VmState.fAt_putR, VmState.eAt_putR, VmState.aAt_putR,
    VmState.scratchpad_putR, VmState.ctl_putR, State.mk.injEq, and_true]
  funext j
  rw [VmState.rAt_putR h, Function.update_apply]
  simp only [Fin.ext_iff]

theorem abs_putF {i : Nat} (h : i < 4) (v : F128) : abs (s.putF i v) = (abs s).setF ⟨i, h⟩ v := by
  simp only [abs, State.setF, VmState.rAt_putF, VmState.eAt_putF, VmState.aAt_putF,
    VmState.scratchpad_putF, VmState.ctl_putF, State.mk.injEq, and_true, true_and]
  funext j
  rw [VmState.fAt_putF h, Function.update_apply]
  simp only [Fin.ext_iff]

theorem abs_putE {i : Nat} (h : i < 4) (v : F128) : abs (s.putE i v) = (abs s).setE ⟨i, h⟩ v := by
  simp only [abs, State.setE, VmState.rAt_putE, VmState.fAt_putE, VmState.aAt_putE,
    VmState.scratchpad_putE, VmState.ctl_putE, State.mk.injEq, and_true, true_and]
  funext j
  rw [VmState.eAt_putE h, Function.update_apply]
  simp only [Fin.ext_iff]

/-- A doubleword written at an aligned address is one entry of the memory. -/
theorem abs_putSp (w : Fin MEMORY_WORDS) (v : Word) :
    abs (s.putSp (MinerTim.store s.scratchpad (8 * w) 8 (byteOf v))) = (abs s).setMem w v := by
  simp only [abs, State.setMem, VmState.rAt_putSp, VmState.fAt_putSp, VmState.eAt_putSp,
    VmState.aAt_putSp, VmState.scratchpad_putSp, VmState.ctl_putSp, State.mk.injEq, true_and, and_true]
  funext w'
  have hsize : 8 * MEMORY_WORDS = SCRATCHPAD_L3_SIZE := by decide
  have hw' := w'.isLt
  rw [Function.update_apply]
  by_cases heq : w' = w
  · rw [if_pos heq, heq, ← leWord_byteOf v]
    refine leWord_congr fun k hk => ?_
    have hw := w.isLt
    rw [byteAt_store _ _ _ _ (by omega), if_pos (by omega), Nat.add_sub_cancel_left, leWord_byteOf]
  · rw [if_neg heq]
    have hne : w'.val ≠ w.val := fun h => heq (Fin.ext h)
    refine leWord_congr fun k hk => ?_
    rw [byteAt_store _ _ _ _ (by omega), if_neg (by omega)]

/-- A byte address is a byte of a doubleword. -/
theorem byteAt_spWord (sp : Scratchpad) (i : Nat) :
    byteAt sp i = byteOf (spWord sp (8 * (i / 8))) (i % 8) := by
  rw [spWord, leWord, byteOf_leBits _ (Nat.mod_lt i (by decide)), Nat.div_add_mod]

/-- **The abstraction loses nothing.** -/
theorem abs_injective : Function.Injective abs := by
  intro s s' h
  obtain ⟨hr, hf, he, ha, hmem, hctl⟩ := State.mk.inj h
  have hsize : 8 * MEMORY_WORDS = SCRATCHPAD_L3_SIZE := by decide
  refine VmState.ext_of (fun j hj => congrFun hr ⟨j, hj⟩) (fun j hj => congrFun hf ⟨j, hj⟩)
    (fun j hj => congrFun he ⟨j, hj⟩) (fun j hj => congrFun ha ⟨j, hj⟩) (eq_of_byteAt fun i hi => ?_) hctl
  rw [byteAt_spWord, byteAt_spWord s'.scratchpad]
  exact congrArg (byteOf · (i % 8)) (congrFun hmem ⟨i / 8, by omega⟩)

end

/-! ## Memory addresses -/

/-- The mask `vm.rs` has for a level. -/
def Level.mask : Level → BitVec 32
  | .L1 => SCRATCHPAD_L1_MASK
  | .L2 => SCRATCHPAD_L2_MASK
  | .L3 => SCRATCHPAD_L3_MASK

/-- A mask of `k` bits from bit `p` on rounds down and wraps around. -/
theorem and_shifted_mask (x k p : Nat) : x &&& (2 ^ k - 1) <<< p = 2 ^ p * (x / 2 ^ p % 2 ^ k) := by
  have hand : x &&& (2 ^ k - 1) <<< p = (x >>> p &&& (2 ^ k - 1)) <<< p := by
    apply Nat.eq_of_testBit_eq
    intro i
    by_cases h : p ≤ i
    · simp [h, Nat.add_sub_cancel' h, Bool.and_comm]
    · simp [h]
  rw [hand, Nat.and_two_pow_sub_one_eq_mod, Nat.shiftRight_eq_div_pow, Nat.shiftLeft_eq, Nat.mul_comm]

theorem and_levelMask (l : Level) (addr : Word) :
    (addr.setWidth 32 &&& l.mask).toNat = 8 * (l.index addr).val := by
  have hand : ∀ k, k ≤ 29 → addr.toNat % 2 ^ 32 &&& (2 ^ k - 1) <<< 3 = 8 * (addr.toNat / 8 % 2 ^ k) := by
    intro k hk
    have hpow : 2 ^ 32 = 8 * (2 ^ k * 2 ^ (29 - k)) := by
      rw [← pow_add, Nat.add_sub_cancel' hk]
      norm_num
    rw [and_shifted_mask, hpow, show 2 ^ 3 = 8 from rfl, Nat.mod_mul_right_div_self, Nat.mod_mul_right_mod]
  rw [BitVec.toNat_and, BitVec.toNat_setWidth]
  cases l with
  | L1 => exact hand 11 (by decide)
  | L2 => exact hand 15 (by decide)
  | L3 => exact hand 18 (by decide)

theorem memAddr_eq {ibc : BytecodeInstruction} {l : Level} (h : ibc.memMask = l.mask) (base : Word) :
    memAddr ibc base = 8 * (l.index (base + ibc.imm)).val := by
  rw [memAddr, h, and_levelMask]

/-- The two integers of a doubleword. -/
theorem spPair_eq (fp : FpUnit) (ctl : BitVec 32) (sp : Scratchpad) (off : Nat) :
    spPair fp ctl sp off = (fp.ofI32 ctl ((spWord sp off).setWidth 32),
      fp.ofI32 ctl ((spWord sp off >>> 32).setWidth 32)) := by
  have hlow : spWord32 sp off = (spWord sp off).setWidth 32 := by
    apply BitVec.eq_of_getLsbD_eq
    intro i hi
    rw [BitVec.getLsbD_setWidth, spWord32, spWord, leWord32, leWord, getLsbD_leBits, getLsbD_leBits]
    simp [hi, show i < 64 by omega]
  have hhigh : spWord32 sp (off + 4) = (spWord sp off >>> 32).setWidth 32 := by
    apply BitVec.eq_of_getLsbD_eq
    intro i hi
    rw [BitVec.getLsbD_setWidth, BitVec.getLsbD_ushiftRight, spWord32, spWord, leWord32, leWord,
      getLsbD_leBits, getLsbD_leBits, show (32 + i) / 8 = 4 + i / 8 by omega,
      show (32 + i) % 8 = i % 8 by omega, Nat.add_assoc]
    simp [hi, show 32 + i < 64 by omega]
  rw [spPair, hlow, hhigh]

theorem spPair_abs {ibc : BytecodeInstruction} {l : Level} (fp : FpUnit) (s : VmState)
    (h : ibc.memMask = l.mask) (hsrc : ibc.src < 8) :
    spPair fp s.ctl s.scratchpad (memAddr ibc (s.rAt ibc.src))
      = (FltMem.mk l ⟨ibc.src, hsrc⟩ ibc.imm).value fp (abs s) := by
  rw [memAddr_eq h, spPair_eq]
  rfl

/-! ## Integer operations -/

theorem mulh_eq (x y : Word) : mulh x y = IntOp.mulh.denote x y := by
  apply BitVec.eq_of_toNat_eq
  have hx := x.isLt
  have hy := y.isLt
  have hlt : x.toNat * y.toNat < 2 ^ 128 :=
    calc x.toNat * y.toNat < 2 ^ 64 * 2 ^ 64 := Nat.mul_lt_mul'' hx hy
      _ = 2 ^ 128 := by norm_num
  rw [mulh, IntOp.denote, BitVec.toNat_setWidth, BitVec.toNat_ushiftRight, BitVec.toNat_mul,
    BitVec.toNat_setWidth, BitVec.toNat_setWidth, BitVec.toNat_ofNat, Nat.shiftRight_eq_div_pow,
    Nat.mod_eq_of_lt (a := x.toNat) (by omega), Nat.mod_eq_of_lt (a := y.toNat) (by omega),
    Nat.mod_eq_of_lt hlt]

theorem smulh_eq (x y : Word) : smulh x y = IntOp.smulh.denote x y := by
  have hprod : x.signExtend 128 * y.signExtend 128 = BitVec.ofInt 128 (x.toInt * y.toInt) :=
    (BitVec.ofInt_mul x.toInt y.toInt).symm
  apply BitVec.eq_of_toNat_eq
  rw [smulh, IntOp.denote, hprod, BitVec.toNat_setWidth, BitVec.toNat_ushiftRight, BitVec.toNat_ofInt,
    BitVec.toNat_ofInt, Nat.shiftRight_eq_div_pow]
  omega

theorem rotr64_eq (x y : Word) : rotr64 x y = IntOp.ror.denote x y := by
  rw [rotr64, IntOp.denote, BitVec.toNat_and, show (63 : Word).toNat = 2 ^ 6 - 1 from rfl,
    Nat.and_two_pow_sub_one_eq_mod]

theorem rotl64_eq (x y : Word) : rotl64 x y = IntOp.rol.denote x y := by
  rw [rotl64, IntOp.denote, BitVec.toNat_and, show (63 : Word).toNat = 2 ^ 6 - 1 from rfl,
    Nat.and_two_pow_sub_one_eq_mod]

/-- The six low bits of an immediate do not depend on how it is extended. -/
theorem toNat_signExtend_mod (x : BitVec 32) :
    (x.signExtend 64).toNat % 64 = (x.setWidth 64).toNat % 64 := by
  have hx := x.isLt
  rw [BitVec.signExtend, BitVec.toNat_ofInt, BitVec.toInt_eq_toNat_cond, BitVec.toNat_setWidth]
  split <;> omega

/-! ## What a bytecode instruction stands for -/

/-- The bytecode instruction does what the instruction does, is recorded for the registers the instruction
    touches, and tests and jumps where the instruction is a branch that is taken. -/
structure Compiles (instr : Instr) (ibc : BytecodeInstruction) : Prop where
  effect : ∀ fp config version s,
    abs (RandomX.effect fp config version ibc s) = instr.exec fp config version (abs s)
  marks : ∀ j : Fin 8, ibc.marks j = true ↔ instr.touches j
  tested : ∀ j, instr.tested = some j → ibc.dst = j.val
  taken : ∀ s, instr.taken (abs s) ↔
    ibc.itype = .Cbranch ∧ (s.rAt ibc.dst + ibc.imm) &&& ibc.memMask.setWidth 64 = 0

theorem not_taken {instr : Instr} (h : instr.tested = none) (s : State) : ¬ instr.taken s := by
  cases instr <;> simp_all [Instr.tested, Instr.taken]

section

variable {instr : Instr} {ibc : BytecodeInstruction} {raw : RawInstruction}

/-- An instruction that is no branch. -/
theorem Compiles.plain (hb : ibc.itype ≠ .Cbranch) (ht : instr.tested = none)
    (heffect : ∀ fp config version s,
      abs (RandomX.effect fp config version ibc s) = instr.exec fp config version (abs s))
    (hmarks : ∀ j : Fin 8, ibc.writesR j = true ↔ instr.touches j) : Compiles instr ibc where
  effect := heffect
  marks j := by
    rw [← hmarks j]
    simp [BytecodeInstruction.marks, hb]
  tested j hj := by
    rw [ht] at hj
    cases hj
  taken s := by
    constructor
    · intro h
      exact absurd h (not_taken ht _)
    · intro h
      exact absurd h.1 hb

/-- An operation on a destination register. -/
theorem compiles_int {op : IntOp} {operand : Operand} (hb : ibc.itype ≠ .Cbranch)
    (hdst : ibc.dst = (dst raw).val) (hw : ∀ j, ibc.writesR j = decide (j = ibc.dst))
    (heffect : ∀ fp config version s, RandomX.effect fp config version ibc s
      = s.putR ibc.dst (op.denote (s.rAt ibc.dst) (operand.value (abs s)))) :
    Compiles (.int op (dst raw) operand) ibc := by
  refine Compiles.plain hb rfl (fun fp config version s => ?_) (fun j => ?_)
  · rw [heffect, hdst, abs_putR (dst raw).isLt]
    rfl
  · rw [hw, hdst, decide_eq_true_iff]
    exact Fin.ext_iff.symm

/-! ### Integer operands -/

theorem intMem_fields (t : InstructionType) (raw : RawInstruction) (d s : Nat) :
    (intMem t raw d s).itype = t ∧ (intMem t raw d s).dst = d := by
  unfold intMem
  split <;> exact ⟨rfl, rfl⟩

theorem intRegOrImm_fields (t : InstructionType) (v : Word) (d s : Nat) :
    (intRegOrImm t v d s).itype = t ∧ (intRegOrImm t v d s).dst = d := by
  unfold intRegOrImm
  split <;> exact ⟨rfl, rfl⟩

theorem memMaskL1L2_eq (raw : RawInstruction) : memMaskL1L2 raw = (level raw).mask := by
  unfold memMaskL1L2 level RawInstruction.getModMem
  by_cases h : raw.mod_.toNat % 4 = 0
  · rw [if_neg (not_not.mpr h), if_pos h]
    rfl
  · rw [if_pos h, if_neg h]
    rfl

/-- The memory operand the interpreter reads. -/
theorem intMem_value (t : InstructionType) (raw : RawInstruction) (s : VmState) :
    let ibc := intMem t raw (dst raw) (src raw)
    spWord s.scratchpad (memAddr ibc (srcVal s ibc 0)) = (memOperand raw).value (abs s) := by
  intro ibc
  by_cases h : src raw = dst raw
  · have hibc : ibc = ⟨t, dst raw, 8, imm raw, Level.L3.mask, 0, 0, false, false⟩ :=
      if_neg (not_not.mpr (congrArg Fin.val h))
    rw [memOperand, if_pos h, hibc, memAddr_eq (l := .L3) rfl]
    rfl
  · have hibc : ibc = ⟨t, dst raw, src raw, imm raw, (level raw).mask, 0, 0, false, false⟩ := by
      rw [← memMaskL1L2_eq]
      exact if_pos fun h' => h (Fin.ext h')
    rw [memOperand, if_neg h, hibc, memAddr_eq (l := level raw) rfl, srcVal, if_pos (src raw).isLt]
    rfl

/-- The register or immediate operand the interpreter reads. -/
theorem intRegOrImm_value (t : InstructionType) (v : Word) (raw : RawInstruction) (s : VmState) :
    let ibc := intRegOrImm t v (dst raw) (src raw)
    srcVal s ibc ibc.imm = (if src raw = dst raw then Operand.imm v else .reg (src raw)).value (abs s) := by
  intro ibc
  by_cases h : src raw = dst raw
  · have hibc : ibc = ⟨t, dst raw, 8, v, 0, 0, 0, false, false⟩ :=
      if_neg (not_not.mpr (congrArg Fin.val h))
    rw [if_pos h, hibc]
    rfl
  · have hibc : ibc = ⟨t, dst raw, src raw, 0, 0, 0, 0, false, false⟩ :=
      if_pos fun h' => h (Fin.ext h')
    rw [if_neg h, hibc, srcVal, if_pos (src raw).isLt]
    rfl

theorem compiles_intMem {t : InstructionType} {op : IntOp} (raw : RawInstruction)
    (h : (t, op) ∈ [(InstructionType.IaddM, IntOp.add), (.IsubM, .sub), (.ImulM, .mul),
      (.ImulhM, .mulh), (.IsmulhM, .smulh), (.IxorM, .xor)]) :
    Compiles (.int op (dst raw) (memOperand raw)) (intMem t raw (dst raw) (src raw)) := by
  obtain ⟨htype, hdst⟩ := intMem_fields t raw (dst raw) (src raw)
  have hvalue := intMem_value t raw
  simp only [List.mem_cons, Prod.mk.injEq, List.not_mem_nil, or_false] at h
  rcases h with ⟨rfl, rfl⟩ | ⟨rfl, rfl⟩ | ⟨rfl, rfl⟩ | ⟨rfl, rfl⟩ | ⟨rfl, rfl⟩ | ⟨rfl, rfl⟩ <;>
    refine compiles_int (by rw [htype]; decide) hdst (fun j => ?_) (fun fp config version s => ?_) <;>
    first
      | rw [BytecodeInstruction.writesR, htype]
      | rw [RandomX.effect, htype, ← hvalue s]
        simp only [mulh_eq, smulh_eq, IntOp.denote]

theorem compiles_intRegOrImm {t : InstructionType} {op : IntOp} (raw : RawInstruction) {v : Word}
    (hv : ∀ x, op.denote x v = op.denote x (imm raw))
    (h : (t, op) ∈ [(InstructionType.IsubR, IntOp.sub), (.ImulR, .mul), (.IxorR, .xor), (.IrorR, .ror),
      (.IrolR, .rol)]) :
    Compiles (.int op (dst raw) (regOperand raw)) (intRegOrImm t v (dst raw) (src raw)) := by
  obtain ⟨htype, hdst⟩ := intRegOrImm_fields t v (dst raw) (src raw)
  have hvalue := intRegOrImm_value t v raw
  -- the compiled immediate gives the same result as the one of the text
  have hdenote : ∀ s x, op.denote x ((if src raw = dst raw then Operand.imm v else .reg (src raw)).value s)
      = op.denote x ((regOperand raw).value s) := by
    intro s x
    unfold regOperand
    split
    · exact hv x
    · rfl
  simp only [List.mem_cons, Prod.mk.injEq, List.not_mem_nil, or_false] at h
  rcases h with ⟨rfl, rfl⟩ | ⟨rfl, rfl⟩ | ⟨rfl, rfl⟩ | ⟨rfl, rfl⟩ | ⟨rfl, rfl⟩ <;>
    refine compiles_int (by rw [htype]; decide) hdst (fun j => ?_) (fun fp config version s => ?_) <;>
    first
      | rw [BytecodeInstruction.writesR, htype]
      | rw [RandomX.effect, htype, ← hdenote, ← hvalue s]
        simp only [rotr64_eq, rotl64_eq, IntOp.denote]

/-! ### Other integer instructions -/

theorem compiles_shift (raw : RawInstruction) :
    Compiles (decodeAs raw .IADD_RS)
      { itype := .IaddRs, dst := dst raw, src := src raw, shift := raw.getModShift,
        imm := if (dst raw).val = 5 then imm raw else 0 } := by
  refine Compiles.plain (by simp) rfl (fun fp config version s => ?_) (fun j => ?_)
  · rw [RandomX.effect, abs_putR (dst raw).isLt]
    have hshift : raw.getModShift = raw.mod_.toNat / 4 % 4 := by
      rw [RawInstruction.getModShift, BitVec.toNat_ushiftRight, Nat.shiftRight_eq_div_pow]
    simp only [decodeAs, Instr.exec, hshift, BitVec.add_assoc]
    rfl
  · simp [BytecodeInstruction.writesR, decodeAs, Instr.touches, Fin.ext_iff]

theorem compiles_mulh (raw : RawInstruction) :
    Compiles (decodeAs raw .IMULH_R) { itype := .ImulhR, dst := dst raw, src := src raw } := by
  refine compiles_int (by simp) rfl (fun j => rfl) (fun fp config version s => ?_)
  rw [RandomX.effect, ← mulh_eq]
  rfl

theorem compiles_smulh (raw : RawInstruction) :
    Compiles (decodeAs raw .ISMULH_R) { itype := .IsmulhR, dst := dst raw, src := src raw } := by
  refine compiles_int (by simp) rfl (fun j => rfl) (fun fp config version s => ?_)
  rw [RandomX.effect, ← smulh_eq]
  rfl

theorem compiles_neg (raw : RawInstruction) :
    Compiles (decodeAs raw .INEG_R) { itype := .InegR, dst := dst raw } := by
  refine Compiles.plain (by simp) rfl (fun fp config version s => ?_) (fun j => ?_)
  · rw [RandomX.effect, abs_putR (dst raw).isLt]
    simp only [decodeAs, Instr.exec, BitVec.neg_eq_not_add]
    rfl
  · simp [BytecodeInstruction.writesR, decodeAs, Instr.touches, Fin.ext_iff]

/-- A divisor passes the test of `compile_program` if it is neither zero nor a power of two. -/
theorem isZeroOrPowerOf2_iff (divisor : BitVec 32) :
    isZeroOrPowerOf2 (divisor.setWidth 64) = true ↔
      divisor.toNat = 0 ∨ divisor.toNat.isPowerOfTwo := by
  constructor
  · intro h
    rw [isZeroOrPowerOf2, beq_iff_eq] at h
    by_cases hzero : divisor.toNat = 0
    · exact .inl hzero
    · right
      have hlt := divisor.isLt
      have hand := congrArg BitVec.toNat h
      rw [BitVec.toNat_and, BitVec.toNat_sub, BitVec.toNat_setWidth, show (1 : Word).toNat = 1 from rfl,
        Nat.mod_eq_of_lt (by omega),
        show (2 ^ 64 - 1 + divisor.toNat) % 2 ^ 64 = divisor.toNat - 1 by omega] at hand
      exact (Nat.and_sub_one_eq_zero_iff_isPowerOfTwo hzero).mp hand
  · intro h
    by_contra htest
    have hdivisor := isDivisor_of_test (Bool.eq_false_iff.mpr htest)
    rcases h with hzero | ⟨k, hk⟩
    · exact hdivisor.ne_zero (BitVec.eq_of_toNat_eq hzero)
    · exact hdivisor.ne_two_pow k hk

theorem compiles_rcp (raw : RawInstruction) (h : isZeroOrPowerOf2 (raw.imm32.setWidth 64) = false) :
    Compiles (decodeAs raw .IMUL_RCP)
      { itype := .ImulR, dst := dst raw, src := 8, imm := randomxReciprocal raw.imm32 } := by
  have hnot : ¬ (raw.imm32.toNat = 0 ∨ raw.imm32.toNat.isPowerOfTwo) := by
    rw [← isZeroOrPowerOf2_iff, h]
    decide
  have hvalue : randomxReciprocal raw.imm32 = reciprocal raw.imm32.toNat :=
    randomxReciprocal_of_exact (randomxReciprocalExact_eq (isDivisor_of_test h))
  rw [decodeAs, if_neg hnot, hvalue]
  exact compiles_int (by simp) rfl (fun j => rfl) (fun fp config version s => rfl)

theorem compiles_nop {instr : Instr} (h : instr = .nop) : Compiles instr { itype := .Nop } := by
  rw [h]
  exact Compiles.plain (by simp) rfl (fun fp config version s => rfl)
    (fun j => by simp [BytecodeInstruction.writesR, Instr.touches])

theorem compiles_swap (raw : RawInstruction) (h : src raw ≠ dst raw) :
    Compiles (decodeAs raw .ISWAP_R) { itype := .IswapR, dst := dst raw, src := src raw } := by
  refine Compiles.plain (by simp) rfl (fun fp config version s => ?_) (fun j => ?_)
  · rw [RandomX.effect, abs_putR (src raw).isLt, abs_putR (dst raw).isLt]
    rfl
  · simp [BytecodeInstruction.writesR, decodeAs, Instr.touches, Fin.ext_iff, h.symm]

/-- Swapping a register with itself is left out of the bytecode. -/
theorem compiles_swap_self (raw : RawInstruction) (h : src raw = dst raw) :
    Compiles (decodeAs raw .ISWAP_R) { itype := .Nop } := by
  refine Compiles.plain (by simp) rfl (fun fp config version s => ?_) (fun j => ?_)
  · have hr : ((abs s).setR (dst raw) ((abs s).r (dst raw))).setR (dst raw) ((abs s).r (dst raw)) = abs s := by
      simp [State.setR]
    simp only [decodeAs, Instr.exec, h, hr]
    rfl
  · simp [BytecodeInstruction.writesR, decodeAs, Instr.touches, h]

/-! ### Floating-point instructions -/

/-- An instruction that leaves the integer registers alone. -/
theorem Compiles.silent (hb : ibc.itype ≠ .Cbranch) (ht : instr.tested = none)
    (heffect : ∀ fp config version s,
      abs (RandomX.effect fp config version ibc s) = instr.exec fp config version (abs s))
    (hw : ∀ j, ibc.writesR j = false) (htouch : ∀ j, ¬ instr.touches j) : Compiles instr ibc := by
  refine Compiles.plain hb ht heffect (fun j => ?_)
  rw [hw]
  exact iff_of_false Bool.false_ne_true (htouch j)

theorem compiles_fswap (raw : RawInstruction) :
    Compiles (decodeAs raw .FSWAP_R)
      (if (dst raw).val < REGISTER_COUNT_FLT then { itype := .FswapR, dst := dst raw, fswapIsE := false }
       else { itype := .FswapR, dst := (dst raw).val - REGISTER_COUNT_FLT, fswapIsE := true }) := by
  have hcount : REGISTER_COUNT_FLT = 4 := rfl
  by_cases h : (dst raw).val < 4
  · have hd : (dst raw).val = (fdst raw).val := by
      simp only [dst, fdst] at h ⊢
      omega
    rw [decodeAs, if_pos h, if_pos (hcount ▸ h), hd]
    refine Compiles.silent (by simp) rfl (fun fp config version s => ?_) (fun j => rfl) (fun j => id)
    rw [RandomX.effect]
    exact abs_putF (fdst raw).isLt _
  · have hd : (dst raw).val - REGISTER_COUNT_FLT = (fdst raw).val := by
      simp only [dst, fdst] at h ⊢
      omega
    rw [decodeAs, if_neg h, if_neg (hcount ▸ h), hd]
    refine Compiles.silent (by simp) rfl (fun fp config version s => ?_) (fun j => rfl) (fun j => id)
    rw [RandomX.effect]
    exact abs_putE (fdst raw).isLt _

theorem compiles_fadd (raw : RawInstruction) :
    Compiles (decodeAs raw .FADD_R) { itype := .FaddR, dst := fdst raw, src := fsrc raw } := by
  refine Compiles.silent (by simp) rfl (fun fp config version s => ?_) (fun j => rfl) (fun j => id)
  exact abs_putF (fdst raw).isLt _

theorem compiles_fsub (raw : RawInstruction) :
    Compiles (decodeAs raw .FSUB_R) { itype := .FsubR, dst := fdst raw, src := fsrc raw } := by
  refine Compiles.silent (by simp) rfl (fun fp config version s => ?_) (fun j => rfl) (fun j => id)
  exact abs_putF (fdst raw).isLt _

theorem compiles_fscal (raw : RawInstruction) :
    Compiles (decodeAs raw .FSCAL_R) { itype := .FscalR, dst := fdst raw } := by
  refine Compiles.silent (by simp) rfl (fun fp config version s => ?_) (fun j => rfl) (fun j => id)
  exact abs_putF (fdst raw).isLt _

theorem compiles_fmul (raw : RawInstruction) :
    Compiles (decodeAs raw .FMUL_R)
      { itype := .FmulR, dst := fdst raw, src := fsrc raw, dstIsE := true } := by
  refine Compiles.silent (by simp) rfl (fun fp config version s => ?_) (fun j => rfl) (fun j => id)
  exact abs_putE (fdst raw).isLt _

theorem compiles_fsqrt (raw : RawInstruction) :
    Compiles (decodeAs raw .FSQRT_R) { itype := .FsqrtR, dst := fdst raw, dstIsE := true } := by
  refine Compiles.silent (by simp) rfl (fun fp config version s => ?_) (fun j => rfl) (fun j => id)
  exact abs_putE (fdst raw).isLt _

/-- The memory operand of a floating-point instruction. -/
theorem fltMem_value (t : InstructionType) (raw : RawInstruction) (fp : FpUnit) (s : VmState) :
    let ibc := fltMem t raw (fdst raw) (src raw)
    spPair fp s.ctl s.scratchpad (memAddr ibc (s.rAt ibc.src)) = (fltOperand raw).value fp (abs s) := by
  exact spPair_abs fp s (memMaskL1L2_eq raw) (src raw).isLt

theorem compiles_faddMem (raw : RawInstruction) :
    Compiles (decodeAs raw .FADD_M) (fltMem .FaddM raw (fdst raw) (src raw)) := by
  refine Compiles.silent (by simp [fltMem]) rfl (fun fp config version s => ?_) (fun j => rfl) (fun j => id)
  rw [decodeAs, Instr.exec, ← fltMem_value .FaddM]
  exact abs_putF (fdst raw).isLt _

theorem compiles_fsubMem (raw : RawInstruction) :
    Compiles (decodeAs raw .FSUB_M) (fltMem .FsubM raw (fdst raw) (src raw)) := by
  refine Compiles.silent (by simp [fltMem]) rfl (fun fp config version s => ?_) (fun j => rfl) (fun j => id)
  rw [decodeAs, Instr.exec, ← fltMem_value .FsubM]
  exact abs_putF (fdst raw).isLt _

theorem compiles_fdivMem (raw : RawInstruction) :
    Compiles (decodeAs raw .FDIV_M)
      { fltMem .FdivM raw (fdst raw) (src raw) with dstIsE := true } := by
  refine Compiles.silent (by simp [fltMem]) rfl (fun fp config version s => ?_) (fun j => rfl) (fun j => id)
  rw [decodeAs, Instr.exec, ← fltMem_value .FdivM]
  exact abs_putE (fdst raw).isLt _

/-! ### Control and stores -/

theorem compiles_cfround (raw : RawInstruction) :
    Compiles (decodeAs raw .CFROUND)
      { itype := .Cfround, src := src raw, imm := (raw.imm32 &&& 63).setWidth 64 } := by
  have hrotate : ((raw.imm32 &&& 63).setWidth 64 : Word).toNat = raw.imm32.toNat % 64 := by
    rw [BitVec.toNat_setWidth, BitVec.toNat_and, show (63 : BitVec 32).toNat = 2 ^ 6 - 1 from rfl,
      Nat.and_two_pow_sub_one_eq_mod]
    exact Nat.mod_eq_of_lt (by omega)
  refine Compiles.silent (by simp) rfl (fun fp config version s => ?_) (fun j => rfl) (fun j => id)
  simp only [RandomX.effect, decodeAs, Instr.exec, hrotate]
  have hlow : ∀ v : Word, ((v &&& 3).setWidth 32 : BitVec 32) = BitVec.ofNat 32 (v.toNat % 4) := by
    intro v
    apply BitVec.eq_of_toNat_eq
    rw [BitVec.toNat_setWidth, BitVec.toNat_and, show (3 : Word).toNat = 2 ^ 2 - 1 from rfl,
      Nat.and_two_pow_sub_one_eq_mod, BitVec.toNat_ofNat]
  have hgate : ∀ v : Word, v &&& 60 = 0 ↔ v.toNat / 4 % 16 = 0 := by
    intro v
    rw [← BitVec.toNat_inj, BitVec.toNat_and, show (60 : Word).toNat = (2 ^ 4 - 1) <<< 2 from rfl,
      and_shifted_mask]
    simp
  have hsrc : (abs s).r (src raw) = s.rAt (src raw) := rfl
  simp only [hlow, hgate, hsrc]
  split <;> rfl

theorem compiles_istore (raw : RawInstruction) :
    Compiles (decodeAs raw .ISTORE)
      { itype := .Istore, dst := dst raw, src := src raw, imm := imm raw,
        memMask := if raw.getModCond < STORE_L3_CONDITION then memMaskL1L2 raw
          else SCRATCHPAD_L3_MASK } := by
  have hcond : raw.getModCond = raw.mod_.toNat / 16 := by
    rw [RawInstruction.getModCond, BitVec.toNat_ushiftRight, Nat.shiftRight_eq_div_pow]
  have hmask : (if raw.getModCond < STORE_L3_CONDITION then memMaskL1L2 raw else SCRATCHPAD_L3_MASK)
      = (if raw.mod_.toNat / 16 < 14 then level raw else .L3).mask := by
    rw [hcond, memMaskL1L2_eq, show STORE_L3_CONDITION = 14 from rfl]
    split <;> rfl
  refine Compiles.silent (by simp) rfl (fun fp config version s => ?_) (fun j => rfl) (fun j => id)
  show abs (s.putSp (MinerTim.store s.scratchpad (memAddr _ (s.rAt (dst raw))) 8
    (byteOf (s.rAt (src raw))))) = _
  rw [memAddr_eq hmask, abs_putSp]
  rfl

/-- A branch is recorded for every register, and jumps when the eight bits are zero. -/
theorem compiles_branch (raw : RawInstruction) (target : Int) :
    Compiles (decodeAs raw .CBRANCH)
      { itype := .Cbranch, dst := dst raw, target := target,
        imm := cbranchImm raw.imm32 (raw.getModCond + CONDITION_OFFSET),
        memMask := CONDITION_MASK <<< (raw.getModCond + CONDITION_OFFSET) } := by
  have hcond : raw.getModCond = raw.mod_.toNat / 16 := by
    rw [RawInstruction.getModCond, BitVec.toNat_ushiftRight, Nat.shiftRight_eq_div_pow]
  have hoffset : CONDITION_OFFSET = 8 := rfl
  have hcondition := isCondition_cbranch raw.imm32 raw.getModCond_lt
  have haddend : cbranchImm raw.imm32 (raw.getModCond + CONDITION_OFFSET)
      = branchAddend raw (raw.mod_.toNat / 16 + 8) := by
    rw [cbranchImm, if_pos (Or.inl (by decide)), hcond]
    rfl
  constructor
  · intro fp config version s
    rw [RandomX.effect, abs_putR (dst raw).isLt, haddend]
    rfl
  · intro j
    simp [BytecodeInstruction.marks, decodeAs, Instr.touches]
  · intro j hj
    exact congrArg Fin.val (Option.some.inj hj)
  · intro s
    rw [condition_zero_iff hcondition, haddend, hcond]
    exact (and_iff_right rfl).symm

/-! ### The decoder -/

/-- The decoder and the table of frequencies make the same choice. -/
theorem compiles_ite {c : Prop} [Decidable c] {op op' : Opcode} {p p' : BytecodeInstruction × RegisterUsage}
    (h : c → Compiles (decodeAs raw op) p.1) (h' : ¬ c → Compiles (decodeAs raw op') p'.1) :
    Compiles (decodeAs raw (if c then op else op')) (if c then p else p').1 := by
  split
  · exact h ‹c›
  · exact h' ‹¬ c›

/-- **Every instruction is compiled to one that stands for it.** The cases are the branches of the
    decoder, in its order. -/
theorem compileInstruction_compiles (i : Nat) (raw : RawInstruction) (usage : RegisterUsage) :
    Compiles (decode raw) (compileInstruction i raw usage).1 := by
  have hrotate : ∀ x, IntOp.ror.denote x (raw.imm32.setWidth 64) = IntOp.ror.denote x (imm raw) := by
    intro x
    rw [IntOp.denote, IntOp.denote, imm, toNat_signExtend_mod]
  have hrotate' : ∀ x, IntOp.rol.denote x (raw.imm32.setWidth 64) = IntOp.rol.denote x (imm raw) := by
    intro x
    rw [IntOp.denote, IntOp.denote, imm, toNat_signExtend_mod]
  unfold decode operation compileInstruction
  simp only [frequencies, lookup]
  refine compiles_ite (fun _ => compiles_shift raw) (fun _ => ?_)
  refine compiles_ite (fun _ => compiles_intMem raw (by simp)) (fun _ => ?_)
  refine compiles_ite (fun _ => compiles_intRegOrImm raw (fun _ => rfl) (by simp)) (fun _ => ?_)
  refine compiles_ite (fun _ => compiles_intMem raw (by simp)) (fun _ => ?_)
  refine compiles_ite (fun _ => compiles_intRegOrImm raw (fun _ => rfl) (by simp)) (fun _ => ?_)
  refine compiles_ite (fun _ => compiles_intMem raw (by simp)) (fun _ => ?_)
  refine compiles_ite (fun _ => compiles_mulh raw) (fun _ => ?_)
  refine compiles_ite (fun _ => compiles_intMem raw (by simp)) (fun _ => ?_)
  refine compiles_ite (fun _ => compiles_smulh raw) (fun _ => ?_)
  refine compiles_ite (fun _ => compiles_intMem raw (by simp)) (fun _ => ?_)
  refine compiles_ite (fun _ => ?_) (fun _ => ?_)
  · -- IMUL_RCP: nothing is compiled for a divisor without a reciprocal
    cases htest : isZeroOrPowerOf2 (raw.imm32.setWidth 64) with
    | true => exact compiles_nop (if_pos ((isZeroOrPowerOf2_iff raw.imm32).mp htest))
    | false => exact compiles_rcp raw htest
  refine compiles_ite (fun _ => compiles_neg raw) (fun _ => ?_)
  refine compiles_ite (fun _ => compiles_intRegOrImm raw (fun _ => rfl) (by simp)) (fun _ => ?_)
  refine compiles_ite (fun _ => compiles_intMem raw (by simp)) (fun _ => ?_)
  refine compiles_ite (fun _ => compiles_intRegOrImm raw hrotate (by simp)) (fun _ => ?_)
  refine compiles_ite (fun _ => compiles_intRegOrImm raw hrotate' (by simp)) (fun _ => ?_)
  refine compiles_ite (fun _ => ?_) (fun _ => ?_)
  · -- ISWAP_R
    by_cases h : raw.src.toNat % 8 = raw.dst.toNat % 8
    · rw [if_neg (not_not.mpr h)]
      exact compiles_swap_self raw (Fin.ext h)
    · rw [if_pos h]
      exact compiles_swap raw fun h' => h (congrArg Fin.val h')
  refine compiles_ite (fun _ => ?_) (fun _ => ?_)
  · rw [apply_ite Prod.fst]
    exact compiles_fswap raw
  refine compiles_ite (fun _ => compiles_fadd raw) (fun _ => ?_)
  refine compiles_ite (fun _ => compiles_faddMem raw) (fun _ => ?_)
  refine compiles_ite (fun _ => compiles_fsub raw) (fun _ => ?_)
  refine compiles_ite (fun _ => compiles_fsubMem raw) (fun _ => ?_)
  refine compiles_ite (fun _ => compiles_fscal raw) (fun _ => ?_)
  refine compiles_ite (fun _ => compiles_fmul raw) (fun _ => ?_)
  refine compiles_ite (fun _ => compiles_fdivMem raw) (fun _ => ?_)
  refine compiles_ite (fun _ => compiles_fsqrt raw) (fun _ => ?_)
  refine compiles_ite (fun _ => compiles_branch raw _) (fun _ => ?_)
  refine compiles_ite (fun _ => compiles_cfround raw) (fun _ => ?_)
  -- the last operation takes every opcode that is left
  rw [ite_self]
  exact compiles_istore raw

end

/-! ## Branch targets -/

section

variable {n : Nat} (programBytes : Vector Byte n)

/-- The text of the first `len` instructions. -/
def text (len : Nat) : Program := (List.range len).map (rawInstruction programBytes)

theorem length_text (len : Nat) : (text programBytes len).length = len := by
  simp [text]

theorem getElem?_text {len k : Nat} (hk : k < len) :
    (text programBytes len)[k]? = some (rawInstruction programBytes k) := by
  simp [text, hk]

theorem bytecodeAt_compiles (k : Nat) :
    Compiles (decode (rawInstruction programBytes k)) (bytecodeAt programBytes k) :=
  compileInstruction_compiles k _ _

/-- A recorded usage is a change of the register. -/
theorem usageAt_touches {i : Nat} (hi : i ≤ 32768) (j : Fin 8) {k : Nat}
    (hk : usageAt programBytes i j = (k : Int)) : (decode (rawInstruction programBytes k)).touches j := by
  induction i with
  | zero => simp [usageAt] at hk
  | succ i ih =>
    have hrecorded := (bytecodeAt_decodes programBytes (i := i) (by omega)).recorded j
    by_cases hmarks : (bytecodeAt programBytes i).marks j = true
    · have hki : usageAt programBytes (i + 1) j = (i : Int) := hrecorded.trans (if_pos hmarks)
      obtain rfl : k = i := Int.ofNat_inj.mp (hk.symm.trans hki)
      exact ((bytecodeAt_compiles programBytes k).marks j).mp hmarks
    · exact ih (by omega) ((hrecorded.trans (if_neg hmarks)).symm.trans hk)

/-- **The table of register usages gives the entry of the loop.** -/
theorem loopEntry_usageAt {i len : Nat} (hi : i ≤ 32768) (hlen : i ≤ len) (j : Fin 8) :
    LoopEntry (text programBytes len) i j (usageAt programBytes i j + 1).toNat := by
  obtain ⟨hlow, hhigh⟩ := usageAt_range programBytes hi j
  constructor
  · omega
  · intro k raw hentry hki hraw htouch
    rw [getElem?_text programBytes (by omega)] at hraw
    obtain rfl := Option.some.inj hraw
    have hmarks := ((bytecodeAt_compiles programBytes k).marks j).mpr htouch
    rw [usageAt_spec programBytes hi j k (by omega) hki] at hmarks
    cases hmarks
  · rcases eq_or_lt_of_le hlow with hnone | hsome
    · left
      omega
    · right
      obtain ⟨k, hk⟩ := Int.eq_ofNat_of_zero_le (show 0 ≤ usageAt programBytes i j by omega)
      refine ⟨rawInstruction programBytes k, ?_, usageAt_touches programBytes hi j hk⟩
      rw [hk, show ((k : Int) + 1).toNat - 1 = k by omega]
      exact getElem?_text programBytes (by omega)

end

/-! ## Runs -/

section

variable {n : Nat} (fp : FpUnit) (config : ProgramConfiguration) (version : RxVersion)
  (programBytes : Vector Byte n)

/-- **An iteration of the interpreter loop is a step of the program.** -/
theorem step_of_machine {k len : Nat} (hk : k < len) (hlen : len ≤ 32768) (s : VmState) :
    Step fp config version (text programBytes len) (k, abs s)
      ((machine fp config version programBytes k s).1,
        abs (machine fp config version programBytes k s).2) := by
  have hcompiles := bytecodeAt_compiles programBytes k
  have hraw := getElem?_text programBytes hk
  simp only [machine, branchTarget, hcompiles.effect]
  by_cases htaken : (decode (rawInstruction programBytes k)).taken (abs s)
  · have hbranch := (hcompiles.taken s).mp htaken
    rw [if_pos hbranch, Option.getD_some, bytecodeAt_target programBytes (by omega) hbranch.1]
    -- only a branch is taken, and it tests its own register
    cases htested : (decode (rawInstruction programBytes k)).tested with
    | none => exact absurd htaken (not_taken htested _)
    | some j =>
      rw [hcompiles.tested j htested]
      exact .back hraw htaken htested (loopEntry_usageAt programBytes (by omega) hk.le j)
  · rw [if_neg fun h => htaken ((hcompiles.taken s).mpr h), Option.getD_none,
      show ((k : Int) + 1).toNat = k + 1 by omega]
    exact .next hraw htaken

theorem steps_of_run {len : Nat} (hlen : len ≤ 32768) {tr : List Nat} {c c' : Nat × VmState}
    (h : BackEdges.Run (machine fp config version programBytes) tr c c') (hlt : ∀ k ∈ tr, k < len) :
    Relation.ReflTransGen (Step fp config version (text programBytes len)) (c.1, abs c.2)
      (c'.1, abs c'.2) := by
  induction h with
  | refl => exact .refl
  | head _ ih =>
    have hstep := step_of_machine fp config version programBytes (hlt _ List.mem_cons_self) hlen
    exact .head (hstep _) (ih fun k hk => hlt k (by simp [hk]))

/-- The interpreter runs every program to the state its text takes it to. -/
theorem exists_halts (bytecode : BytecodeBuffer) (s : VmState) :
    ∃ s', executeBytecode fp config version (compiled programBytes bytecode version.programSize) s = some s' ∧
      Halts fp config version (text programBytes version.programSize) (abs s) (abs s') := by
  have hmax := version.programSize_le_max
  have hsize : RANDOMX_PROGRAM_SIZE_MAX = 384 := rfl
  obtain ⟨tr, s', hrun, hlt, hexec⟩ := exists_executeBytecode fp config version programBytes bytecode s
  have hsteps := steps_of_run fp config version programBytes (by omega) hrun hlt
  refine ⟨s', hexec, ?_⟩
  rwa [Halts, length_text]

/-- **`compile_program` and `execute_bytecode` keep the meaning of the program.** Whatever the reused
    buffer held, the interpreter runs every program to its end, and it returns a state exactly when the
    text of the program takes the starting state to it. -/
theorem compile_program_preserves_meaning (bytecode : BytecodeBuffer) (s : VmState) :
    let prog := compiled programBytes bytecode version.programSize
    (∃ s', executeBytecode fp config version prog s = some s') ∧
      ∀ s', executeBytecode fp config version prog s = some s' ↔
        Halts fp config version (text programBytes version.programSize) (abs s) (abs s') := by
  intro prog
  obtain ⟨s', hexec, hhalts⟩ := exists_halts fp config version programBytes bytecode s
  refine ⟨⟨s', hexec⟩, fun t => ?_⟩
  constructor
  · intro ht
    obtain rfl := Option.some.inj (hexec.symm.trans ht)
    exact hhalts
  · intro ht
    obtain rfl := abs_injective (hhalts.unique ht)
    exact hexec

end

end Isa
end RandomX
end MinerTim
