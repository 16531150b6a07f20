import MinerTim.RandomX.Compile

/-!
# `RandomX.WellFormed` — what `compile_program` guarantees about its output

Three layers, each feeding the next:

* one instruction: `compileInstruction_decodes` — its register indices, masks and branch target are in
  range, and `register_usage` is updated for exactly the registers it *marks*;
* one program: `bytecodeAt`/`usageAt` name the instruction and the register usage at each index, and
  `compiled_eq` says that the compiled program is the list of these, whatever the buffer held before;
* the branch structure: `usageAt_spec` — the recorded usage of a register is its last marker — from
  which the region of a `CBRANCH` holds no other branch and no write to its register.
-/

namespace MinerTim
namespace RandomX

/-- One of the three scratchpad masks. -/
def IsScratchpadMask (m : BitVec 32) : Prop :=
  m = SCRATCHPAD_L1_MASK ∨ m = SCRATCHPAD_L2_MASK ∨ m = SCRATCHPAD_L3_MASK

/-- The mask and the addend of a `CBRANCH`: eight condition bits from `shift`, an addend with bit
    `shift` set and bit `shift - 1` clear. -/
structure IsCondition (memMask : BitVec 32) (imm : Word) (shift : Nat) : Prop where
  lo : 8 ≤ shift
  hi : shift ≤ 23
  mask : memMask = CONDITION_MASK <<< shift
  set : imm.getLsbD shift = true
  clear : imm.getLsbD (shift - 1) = false

namespace BytecodeInstruction

/-- **The static guarantee on instruction `i`**: register indices in range (`src = 8` only where the
    executor tests for it), a scratchpad mask on every memory access, and a backward branch target. -/
def WellFormed (i : Nat) (ibc : BytecodeInstruction) : Prop :=
  match ibc.itype with
  | .IaddRs => ibc.dst < 8 ∧ ibc.src < 8 ∧ ibc.shift < 4
  | .IaddM | .IsubM | .ImulM | .ImulhM | .IsmulhM | .IxorM =>
    ibc.dst < 8 ∧ ibc.src ≤ 8 ∧ IsScratchpadMask ibc.memMask
  | .IsubR | .ImulR | .IxorR | .IrorR | .IrolR => ibc.dst < 8 ∧ ibc.src ≤ 8
  | .ImulhR | .IsmulhR => ibc.dst < 8 ∧ ibc.src < 8
  | .InegR => ibc.dst < 8
  | .IswapR => ibc.dst < 8 ∧ ibc.src < 8 ∧ ibc.src ≠ ibc.dst
  | .FswapR | .FscalR | .FsqrtR => ibc.dst < 4
  | .FaddR | .FsubR | .FmulR => ibc.dst < 4 ∧ ibc.src < 4
  | .FaddM | .FsubM | .FdivM => ibc.dst < 4 ∧ ibc.src < 8 ∧ IsScratchpadMask ibc.memMask
  | .Cbranch =>
    ibc.dst < 8 ∧ -1 ≤ ibc.target ∧ ibc.target < i ∧ ∃ shift, IsCondition ibc.memMask ibc.imm shift
  | .Cfround => ibc.src < 8 ∧ ibc.imm.toNat < 64
  | .Istore => ibc.dst < 8 ∧ ibc.src < 8 ∧ IsScratchpadMask ibc.memMask
  | .Nop => True

/-- The guarantee on a `CBRANCH`. -/
theorem WellFormed.cbranch {i : Nat} {ibc : BytecodeInstruction} (h : ibc.WellFormed i)
    (hb : ibc.itype = .Cbranch) :
    ibc.dst < 8 ∧ -1 ≤ ibc.target ∧ ibc.target < i ∧ ∃ shift, IsCondition ibc.memMask ibc.imm shift := by
  unfold WellFormed at h
  rwa [hb] at h

/-- The guarantee on a `CFROUND`. -/
theorem WellFormed.cfround {i : Nat} {ibc : BytecodeInstruction} (h : ibc.WellFormed i)
    (hc : ibc.itype = .Cfround) : ibc.src < 8 ∧ ibc.imm.toNat < 64 := by
  unfold WellFormed at h
  rwa [hc] at h

/-- Whether the instruction changes integer register `j`. -/
def writesR (ibc : BytecodeInstruction) (j : Nat) : Bool :=
  match ibc.itype with
  | .IaddRs | .IaddM | .IsubR | .IsubM | .ImulR | .ImulM | .ImulhR | .ImulhM | .IsmulhR | .IsmulhM
  | .InegR | .IxorR | .IxorM | .IrorR | .IrolR | .Cbranch => j = ibc.dst
  | .IswapR => j = ibc.dst ∨ j = ibc.src
  | _ => false

/-- Whether the instruction is recorded in `register_usage[j]`: it changes `j`, or it is a branch. -/
def marks (ibc : BytecodeInstruction) (j : Nat) : Bool :=
  ibc.itype = .Cbranch ∨ ibc.writesR j = true

end BytecodeInstruction

/-! ## One instruction -/

theorem isScratchpadMask_memMaskL1L2 (instr : RawInstruction) :
    IsScratchpadMask (memMaskL1L2 instr) := by
  unfold memMaskL1L2
  split
  · exact Or.inl rfl
  · exact Or.inr (Or.inl rfl)

theorem isScratchpadMask_L3 : IsScratchpadMask SCRATCHPAD_L3_MASK := Or.inr (Or.inr rfl)

/-- The `CBRANCH` operands form a condition at `mod.cond + 8`. -/
theorem isCondition_cbranch (imm32 : BitVec 32) {cond : Nat} (h : cond < 16) :
    IsCondition (CONDITION_MASK <<< (cond + CONDITION_OFFSET))
      (cbranchImm imm32 (cond + CONDITION_OFFSET)) (cond + CONDITION_OFFSET) := by
  have hoff : CONDITION_OFFSET = 8 := rfl
  refine ⟨by omega, by omega, rfl, ?_, ?_⟩
  · rw [cbranchImm, if_pos (Or.inl (by decide)), hoff]
    simp only [BitVec.getLsbD_and, BitVec.getLsbD_or, BitVec.getLsbD_not,
      BitVec.getLsbD_shiftLeft, BitVec.getLsbD_one]
    simp [show cond + 8 < 64 by omega]
  · rw [cbranchImm, if_pos (Or.inl (by decide)), hoff]
    simp only [BitVec.getLsbD_and, BitVec.getLsbD_or, BitVec.getLsbD_not,
      BitVec.getLsbD_shiftLeft, BitVec.getLsbD_one]
    simp

/-- `as i16` is exact on instruction indices. -/
theorem asI16_eq {x : Int} (h : -1 ≤ x) (h' : x < 32768) : asI16 x = x := by
  simp only [asI16, Int.bmod_def]
  omega

/-- What the loop body guarantees: a well-formed instruction, a usage table that records `i` for
    exactly the registers it marks, and branch targets taken from the table. -/
structure Decodes (i : Nat) (usage : RegisterUsage)
    (p : BytecodeInstruction × RegisterUsage) : Prop where
  wellFormed : p.1.WellFormed i
  recorded : ∀ j, p.2 j = if p.1.marks j then (i : Int) else usage j
  target : p.1.itype = .Cbranch → p.1.target = usage p.1.dst

section

variable {i : Nat} {usage : RegisterUsage} {ibc : BytecodeInstruction} {dst src : Nat}

/-- A branch marks every register. -/
theorem marks_of_cbranch (h : ibc.itype = .Cbranch) (j : Nat) : ibc.marks j = true := by
  simp [BytecodeInstruction.marks, h]

/-- An instruction that writes one integer register. -/
theorem decodes_write (hwf : ibc.WellFormed i) (hm : ∀ j, ibc.marks j = decide (j = dst)) :
    Decodes i usage (ibc, usage.set dst i) := by
  refine ⟨hwf, fun j => by simp [RegisterUsage.set, hm], fun h => ?_⟩
  have := (marks_of_cbranch h (dst + 1)).symm.trans (hm (dst + 1))
  simp at this

/-- An instruction that writes no integer register. -/
theorem decodes_silent (hwf : ibc.WellFormed i) (hm : ∀ j, ibc.marks j = false) :
    Decodes i usage (ibc, usage) := by
  refine ⟨hwf, fun j => by simp [hm], fun h => ?_⟩
  have := (marks_of_cbranch h 0).symm.trans (hm 0)
  simp at this

theorem decodes_intMem {t : InstructionType} (instr : RawInstruction) (hdst : dst < 8)
    (hsrc : src < 8)
    (ht : t ∈ [InstructionType.IaddM, .IsubM, .ImulM, .ImulhM, .IsmulhM, .IxorM]) :
    Decodes i usage (intMem t instr dst src, usage.set dst i) := by
  have hmask := isScratchpadMask_memMaskL1L2 instr
  have hmask3 := isScratchpadMask_L3
  simp only [List.mem_cons, List.not_mem_nil, or_false] at ht
  rcases ht with rfl | rfl | rfl | rfl | rfl | rfl <;>
    refine decodes_write ?_ ?_ <;> unfold intMem <;> split <;>
    simp [BytecodeInstruction.WellFormed, BytecodeInstruction.marks, BytecodeInstruction.writesR,
      hdst, hmask, hmask3, hsrc.le]

theorem decodes_intRegOrImm {t : InstructionType} (imm : Word) (hdst : dst < 8) (hsrc : src < 8)
    (ht : t ∈ [InstructionType.IsubR, .ImulR, .IxorR, .IrorR, .IrolR]) :
    Decodes i usage (intRegOrImm t imm dst src, usage.set dst i) := by
  simp only [List.mem_cons, List.not_mem_nil, or_false] at ht
  rcases ht with rfl | rfl | rfl | rfl | rfl <;>
    refine decodes_write ?_ ?_ <;> unfold intRegOrImm <;> split <;>
    simp [BytecodeInstruction.WellFormed, BytecodeInstruction.marks, BytecodeInstruction.writesR,
      hdst, hsrc.le]

/-- **Every instruction decodes**, as long as the recorded usages are earlier indices. The cases are
    the branches of the decoder, in its order. -/
theorem compileInstruction_decodes (instr : RawInstruction) (hi : i < 32768)
    (hu : ∀ j, -1 ≤ usage j ∧ usage j < i) :
    Decodes i usage (compileInstruction i instr usage) := by
  have hdst : instr.dst.toNat % 8 < 8 := Nat.mod_lt _ (by decide)
  have hsrc : instr.src.toNat % 8 < 8 := Nat.mod_lt _ (by decide)
  have hfdst : instr.dst.toNat % REGISTER_COUNT_FLT < 4 := Nat.mod_lt _ (by decide)
  have hfsrc : instr.src.toNat % REGISTER_COUNT_FLT < 4 := Nat.mod_lt _ (by decide)
  have hmask := isScratchpadMask_memMaskL1L2 instr
  unfold compileInstruction
  simp only []
  -- IADD_RS
  refine iteInduction (fun _ => decodes_write ⟨hdst, hsrc, instr.getModShift_lt⟩
    (fun j => by simp [BytecodeInstruction.marks, BytecodeInstruction.writesR])) (fun _ => ?_)
  refine iteInduction (fun _ => decodes_intMem instr hdst hsrc (by decide)) (fun _ => ?_)
  refine iteInduction (fun _ => decodes_intRegOrImm _ hdst hsrc (by decide)) (fun _ => ?_)
  refine iteInduction (fun _ => decodes_intMem instr hdst hsrc (by decide)) (fun _ => ?_)
  refine iteInduction (fun _ => decodes_intRegOrImm _ hdst hsrc (by decide)) (fun _ => ?_)
  refine iteInduction (fun _ => decodes_intMem instr hdst hsrc (by decide)) (fun _ => ?_)
  -- IMULH_R, IMULH_M, ISMULH_R, ISMULH_M
  refine iteInduction (fun _ => decodes_write ⟨hdst, hsrc⟩
    (fun j => by simp [BytecodeInstruction.marks, BytecodeInstruction.writesR])) (fun _ => ?_)
  refine iteInduction (fun _ => decodes_intMem instr hdst hsrc (by decide)) (fun _ => ?_)
  refine iteInduction (fun _ => decodes_write ⟨hdst, hsrc⟩
    (fun j => by simp [BytecodeInstruction.marks, BytecodeInstruction.writesR])) (fun _ => ?_)
  refine iteInduction (fun _ => decodes_intMem instr hdst hsrc (by decide)) (fun _ => ?_)
  -- IMUL_RCP
  refine iteInduction (fun _ => iteInduction (fun _ => decodes_silent trivial (fun j => rfl))
    (fun _ => decodes_write ⟨hdst, le_refl 8⟩
      (fun j => by simp [BytecodeInstruction.marks, BytecodeInstruction.writesR])))
    (fun _ => ?_)
  -- INEG_R, IXOR_R, IXOR_M, IROR_R, IROL_R
  refine iteInduction (fun _ => decodes_write hdst
    (fun j => by simp [BytecodeInstruction.marks, BytecodeInstruction.writesR])) (fun _ => ?_)
  refine iteInduction (fun _ => decodes_intRegOrImm _ hdst hsrc (by decide)) (fun _ => ?_)
  refine iteInduction (fun _ => decodes_intMem instr hdst hsrc (by decide)) (fun _ => ?_)
  refine iteInduction (fun _ => decodes_intRegOrImm _ hdst hsrc (by decide)) (fun _ => ?_)
  refine iteInduction (fun _ => decodes_intRegOrImm _ hdst hsrc (by decide)) (fun _ => ?_)
  -- ISWAP_R: both registers are recorded
  refine iteInduction (fun _ => iteInduction (fun hne => ⟨⟨hdst, hsrc, hne⟩, fun j => ?_, nofun⟩)
    (fun _ => decodes_silent trivial (fun j => rfl))) (fun _ => ?_)
  · by_cases hj : j = instr.dst.toNat % 8 <;> by_cases hj' : j = instr.src.toNat % 8 <;>
      simp [BytecodeInstruction.marks, BytecodeInstruction.writesR, RegisterUsage.set, hj, hj']
  -- FSWAP_R
  refine iteInduction (fun _ => iteInduction (fun h => decodes_silent h (fun j => rfl))
    (fun h => decodes_silent ?_ (fun j => rfl))) (fun _ => ?_)
  · have : REGISTER_COUNT_FLT = 4 := rfl
    show instr.dst.toNat % 8 - REGISTER_COUNT_FLT < 4
    omega
  -- FADD_R .. FSQRT_R
  refine iteInduction (fun _ => decodes_silent ⟨hfdst, hfsrc⟩ (fun j => rfl)) (fun _ => ?_)
  refine iteInduction (fun _ => decodes_silent ⟨hfdst, hsrc, hmask⟩ (fun j => rfl)) (fun _ => ?_)
  refine iteInduction (fun _ => decodes_silent ⟨hfdst, hfsrc⟩ (fun j => rfl)) (fun _ => ?_)
  refine iteInduction (fun _ => decodes_silent ⟨hfdst, hsrc, hmask⟩ (fun j => rfl)) (fun _ => ?_)
  refine iteInduction (fun _ => decodes_silent hfdst (fun j => rfl)) (fun _ => ?_)
  refine iteInduction (fun _ => decodes_silent ⟨hfdst, hfsrc⟩ (fun j => rfl)) (fun _ => ?_)
  refine iteInduction (fun _ => decodes_silent ⟨hfdst, hsrc, hmask⟩ (fun j => rfl)) (fun _ => ?_)
  refine iteInduction (fun _ => decodes_silent hfdst (fun j => rfl)) (fun _ => ?_)
  -- CBRANCH: every register is recorded
  have h := hu (instr.dst.toNat % 8)
  have htarget := asI16_eq h.1 (by omega)
  refine iteInduction (fun _ => ⟨?_, fun j => rfl, fun _ => htarget⟩) (fun _ => ?_)
  · refine ⟨hdst, ?_, ?_, _, isCondition_cbranch instr.imm32 instr.getModCond_lt⟩
    · show -1 ≤ asI16 _
      rw [htarget]; exact h.1
    · show asI16 _ < _
      rw [htarget]; exact h.2
  -- CFROUND, ISTORE
  refine iteInduction (fun _ => decodes_silent ⟨hsrc, ?_⟩ (fun j => rfl)) (fun _ => ?_)
  · have h63 : (instr.imm32 &&& 63).toNat ≤ 63 := by
      rw [BitVec.toNat_and]; exact Nat.and_le_right
    show ((instr.imm32 &&& 63).setWidth 64).toNat < 64
    rw [BitVec.toNat_setWidth]
    omega
  · refine decodes_silent ⟨hdst, hsrc, ?_⟩ (fun j => rfl)
    exact iteInduction (fun _ => hmask) (fun _ => isScratchpadMask_L3)

end

/-! ## One program -/

section

variable {n : Nat} (programBytes : Vector Byte n)

/-- `register_usage` before instruction `i` is decoded. -/
def usageAt : Nat → RegisterUsage
  | 0 => fun _ => -1
  | i + 1 => (compileInstruction i (rawInstruction programBytes i) (usageAt i)).2

/-- The compiled instruction `i`. -/
def bytecodeAt (i : Nat) : BytecodeInstruction :=
  (compileInstruction i (rawInstruction programBytes i) (usageAt programBytes i)).1

theorem usageAt_succ (i : Nat) : usageAt programBytes (i + 1)
    = (compileInstruction i (rawInstruction programBytes i) (usageAt programBytes i)).2 := rfl

theorem compileFrom_succ (count i : Nat) (bytecode : BytecodeBuffer) :
    compileFrom programBytes (count + 1) i (usageAt programBytes i) bytecode
      = compileFrom programBytes count (i + 1) (usageAt programBytes (i + 1))
          (bytecode.setIfInBounds i (bytecodeAt programBytes i)) := rfl

/-- The loop writes `bytecodeAt i` to each entry it visits and nothing else. -/
theorem compileFrom_spec (count i : Nat) (bytecode : BytecodeBuffer)
    (h : i + count ≤ RANDOMX_PROGRAM_SIZE_MAX) :
    ∀ k : Nat, (compileFrom programBytes count i (usageAt programBytes i) bytecode).2[k]?
      = if i ≤ k ∧ k < i + count then some (bytecodeAt programBytes k) else bytecode[k]? := by
  induction count generalizing i bytecode with
  | zero => intro k; simp [compileFrom, show ¬ (i ≤ k ∧ k < i) by omega]
  | succ count ih =>
    intro k
    rw [compileFrom_succ, ih (i + 1) _ (by omega) k, Vector.getElem?_setIfInBounds]
    by_cases hk : k = i
    · subst hk
      rw [if_neg (by omega), if_pos rfl, if_pos (by omega), if_pos (by omega)]
    · rw [if_neg (Ne.symm hk)]
      by_cases hr : i ≤ k ∧ k < i + (count + 1)
      · rw [if_pos hr, if_pos (by omega)]
      · rw [if_neg hr, if_neg (by omega)]

/-- **The compiled program does not depend on what the buffer held**: it is the list of the decoded
    instructions. -/
theorem compiled_eq (bytecode : BytecodeBuffer) {programSize : Nat}
    (h : programSize ≤ RANDOMX_PROGRAM_SIZE_MAX) :
    compiled programBytes bytecode programSize
      = (List.range programSize).map (bytecodeAt programBytes) := by
  apply List.ext_getElem?
  intro k
  by_cases hk : k < programSize
  · have hspec := compileFrom_spec programBytes programSize 0 bytecode (by omega) k
    rw [if_pos (by omega)] at hspec
    rw [compiled, List.getElem?_take_of_lt hk, Vector.getElem?_toList]
    exact hspec.trans (by simp [hk])
  · rw [compiled, List.getElem?_take, if_neg hk]
    simp [hk]

@[simp] theorem length_compiled (bytecode : BytecodeBuffer) {programSize : Nat}
    (h : programSize ≤ RANDOMX_PROGRAM_SIZE_MAX) :
    (compiled programBytes bytecode programSize).length = programSize := by
  rw [compiled_eq programBytes bytecode h]
  simp

theorem getElem?_compiled (bytecode : BytecodeBuffer) {programSize i : Nat}
    (h : programSize ≤ RANDOMX_PROGRAM_SIZE_MAX) (hi : i < programSize) :
    (compiled programBytes bytecode programSize)[i]? = some (bytecodeAt programBytes i) := by
  rw [compiled_eq programBytes bytecode h]
  simp [hi]

/-- Recorded usages are earlier indices, or `-1`. -/
theorem usageAt_range {i : Nat} (hi : i ≤ 32768) (j : Nat) :
    -1 ≤ usageAt programBytes i j ∧ usageAt programBytes i j < i := by
  induction i generalizing j with
  | zero => simp [usageAt]
  | succ i ih =>
    have hd := compileInstruction_decodes (rawInstruction programBytes i) (by omega)
      (ih (by omega))
    have h := ih (by omega) j
    rw [usageAt_succ, hd.recorded j]
    split <;> omega

theorem bytecodeAt_decodes {i : Nat} (hi : i < 32768) :
    Decodes i (usageAt programBytes i) (bytecodeAt programBytes i, usageAt programBytes (i + 1)) :=
  compileInstruction_decodes _ hi (usageAt_range programBytes hi.le)

theorem bytecodeAt_wellFormed {i : Nat} (hi : i < 32768) :
    (bytecodeAt programBytes i).WellFormed i :=
  (bytecodeAt_decodes programBytes hi).wellFormed

/-- **A recorded usage is the last marker**: no instruction after it marks the register. -/
theorem usageAt_spec {i : Nat} (hi : i ≤ 32768) (j k : Nat)
    (hk : usageAt programBytes i j < k) (hki : k < i) :
    (bytecodeAt programBytes k).marks j = false := by
  induction i with
  | zero => omega
  | succ i ih =>
    have hd : usageAt programBytes (i + 1) j = _ :=
      (bytecodeAt_decodes programBytes (i := i) (by omega)).recorded j
    rw [hd] at hk
    by_cases hm : (bytecodeAt programBytes i).marks j = true
    · rw [if_pos hm] at hk
      omega
    · rw [if_neg hm] at hk
      by_cases hki' : k = i
      · subst hki'
        simpa using hm
      · exact ih (by omega) hk (by omega)

/-- The target of a branch is the recorded usage of its register. -/
theorem bytecodeAt_target {i : Nat} (hi : i < 32768)
    (hb : (bytecodeAt programBytes i).itype = .Cbranch) :
    (bytecodeAt programBytes i).target = usageAt programBytes i (bytecodeAt programBytes i).dst :=
  (bytecodeAt_decodes programBytes hi).target hb

/-- **The region of a branch is straight-line code that leaves its register alone**: no instruction
    between the target and the branch is a branch or writes the register. -/
theorem bytecodeAt_region {i k : Nat} (hi : i < 32768)
    (hb : (bytecodeAt programBytes i).itype = .Cbranch)
    (hk : (bytecodeAt programBytes i).target < k) (hki : k < i) :
    (bytecodeAt programBytes k).itype ≠ .Cbranch ∧
      (bytecodeAt programBytes k).writesR (bytecodeAt programBytes i).dst = false := by
  rw [bytecodeAt_target programBytes hi hb] at hk
  have hm := usageAt_spec programBytes hi.le _ k hk hki
  simpa [BytecodeInstruction.marks] using hm

end

end RandomX
end MinerTim
