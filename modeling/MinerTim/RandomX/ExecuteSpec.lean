import MinerTim.RandomX.Execute
import MinerTim.RandomX.WellFormed

/-!
# `RandomX.ExecuteSpec` — what one well-formed instruction does

On a well-formed instruction no unchecked access is out of bounds, so every partial operation of the
interpreter has a total counterpart (`rAt`, `putR`, `srcVal`, `spWord`, …) and the instruction as a
whole is the total function `effect`, with `branchTarget` for its jump
(`executeInstruction_eq`). `rAt_effect` is the frame: only the integer registers the instruction
writes change.
-/

namespace MinerTim
namespace RandomX

theorem set_eq_setIfInBounds {α : Type} {n i : Nat} (v : Vector α n) (x : α) (h : i < n) :
    v.set i x h = v.setIfInBounds i x := by
  apply Vector.ext
  intro k hk
  rw [Vector.getElem_set, Vector.getElem_setIfInBounds]

namespace VmState

/-! ## Total register access -/

/-- `r[i]`, or zero. -/
def rAt (s : VmState) (i : Nat) : Word := s.nreg.r[i]?.getD 0

/-- `f[i]`, or zero. -/
def fAt (s : VmState) (i : Nat) : F128 := s.nreg.f[i]?.getD (0, 0)

/-- `e[i]`, or zero. -/
def eAt (s : VmState) (i : Nat) : F128 := s.nreg.e[i]?.getD (0, 0)

/-- `a[i]`, or zero. -/
def aAt (s : VmState) (i : Nat) : F128 := s.nreg.a[i]?.getD (0, 0)

/-- The scratchpad replaced. -/
def putSp (s : VmState) (sp : Scratchpad) : VmState := { s with scratchpad := sp }

/-- The control word replaced. -/
def putCtl (s : VmState) (ctl : BitVec 32) : VmState := { s with ctl }

/-- `r[i] = v`, if there is such a register. -/
def putR (s : VmState) (i : Nat) (v : Word) : VmState :=
  { s with nreg := { s.nreg with r := s.nreg.r.setIfInBounds i v } }

/-- `f[i] = v`, if there is such a register. -/
def putF (s : VmState) (i : Nat) (v : F128) : VmState :=
  { s with nreg := { s.nreg with f := s.nreg.f.setIfInBounds i v } }

/-- `e[i] = v`, if there is such a register. -/
def putE (s : VmState) (i : Nat) (v : F128) : VmState :=
  { s with nreg := { s.nreg with e := s.nreg.e.setIfInBounds i v } }

variable {s : VmState} {i j : Nat}

theorem getR_eq (h : i < 8) : s.getR i = some (s.rAt i) := by
  simp [getR, NativeRegisterFile.getR, rAt, h]
theorem getF_eq (h : i < 4) : s.nreg.getF i = some (s.fAt i) := by
  simp [NativeRegisterFile.getF, fAt, h]
theorem getE_eq (h : i < 4) : s.nreg.getE i = some (s.eAt i) := by
  simp [NativeRegisterFile.getE, eAt, h]
theorem getA_eq (h : i < 4) : s.nreg.getA i = some (s.aAt i) := by
  simp [NativeRegisterFile.getA, aAt, h]

theorem setR_eq (h : i < 8) (v : Word) : s.setR i v = some (s.putR i v) := by
  simp [setR, NativeRegisterFile.setR, putR, h, set_eq_setIfInBounds]
theorem setF_eq (h : i < 4) (v : F128) : s.setF i v = some (s.putF i v) := by
  simp [setF, NativeRegisterFile.setF, putF, h, set_eq_setIfInBounds]
theorem setE_eq (h : i < 4) (v : F128) : s.setE i v = some (s.putE i v) := by
  simp [setE, NativeRegisterFile.setE, putE, h, set_eq_setIfInBounds]

/-! Reading back what was written, and nothing else changes. The proofs stand in brackets so that `simp`
    rewrites with them instead of asking the kernel to unfold a whole scratchpad. -/

theorem rAt_putR (h : i < 8) (v : Word) : (s.putR i v).rAt j = if j = i then v else s.rAt j := by
  simp only [rAt, putR, Vector.getElem?_setIfInBounds]
  by_cases hj : j = i
  · simp [hj, h]
  · simp [hj, Ne.symm hj]
theorem fAt_putF (h : i < 4) (v : F128) : (s.putF i v).fAt j = if j = i then v else s.fAt j := by
  simp only [fAt, putF, Vector.getElem?_setIfInBounds]
  by_cases hj : j = i
  · simp [hj, h]
  · simp [hj, Ne.symm hj]
theorem eAt_putE (h : i < 4) (v : F128) : (s.putE i v).eAt j = if j = i then v else s.eAt j := by
  simp only [eAt, putE, Vector.getElem?_setIfInBounds]
  by_cases hj : j = i
  · simp [hj, h]
  · simp [hj, Ne.symm hj]

@[simp] theorem fAt_putR (v : Word) : (s.putR i v).fAt j = s.fAt j := (rfl)
@[simp] theorem eAt_putR (v : Word) : (s.putR i v).eAt j = s.eAt j := (rfl)
@[simp] theorem aAt_putR (v : Word) : (s.putR i v).aAt j = s.aAt j := (rfl)
@[simp] theorem rAt_putF (v : F128) : (s.putF i v).rAt j = s.rAt j := (rfl)
@[simp] theorem eAt_putF (v : F128) : (s.putF i v).eAt j = s.eAt j := (rfl)
@[simp] theorem aAt_putF (v : F128) : (s.putF i v).aAt j = s.aAt j := (rfl)
@[simp] theorem rAt_putE (v : F128) : (s.putE i v).rAt j = s.rAt j := (rfl)
@[simp] theorem fAt_putE (v : F128) : (s.putE i v).fAt j = s.fAt j := (rfl)
@[simp] theorem aAt_putE (v : F128) : (s.putE i v).aAt j = s.aAt j := (rfl)
@[simp] theorem rAt_putSp (sp : Scratchpad) : (s.putSp sp).rAt j = s.rAt j := (rfl)
@[simp] theorem fAt_putSp (sp : Scratchpad) : (s.putSp sp).fAt j = s.fAt j := (rfl)
@[simp] theorem eAt_putSp (sp : Scratchpad) : (s.putSp sp).eAt j = s.eAt j := (rfl)
@[simp] theorem aAt_putSp (sp : Scratchpad) : (s.putSp sp).aAt j = s.aAt j := (rfl)
@[simp] theorem rAt_putCtl (c : BitVec 32) : (s.putCtl c).rAt j = s.rAt j := (rfl)
@[simp] theorem fAt_putCtl (c : BitVec 32) : (s.putCtl c).fAt j = s.fAt j := (rfl)
@[simp] theorem eAt_putCtl (c : BitVec 32) : (s.putCtl c).eAt j = s.eAt j := (rfl)
@[simp] theorem aAt_putCtl (c : BitVec 32) : (s.putCtl c).aAt j = s.aAt j := (rfl)
@[simp] theorem scratchpad_putSp (sp : Scratchpad) : (s.putSp sp).scratchpad = sp := (rfl)
@[simp] theorem ctl_putSp (sp : Scratchpad) : (s.putSp sp).ctl = s.ctl := (rfl)
@[simp] theorem scratchpad_putCtl (c : BitVec 32) : (s.putCtl c).scratchpad = s.scratchpad := (rfl)
@[simp] theorem ctl_putCtl (c : BitVec 32) : (s.putCtl c).ctl = c := (rfl)
@[simp] theorem scratchpad_putR (v : Word) : (s.putR i v).scratchpad = s.scratchpad := (rfl)
@[simp] theorem scratchpad_putF (v : F128) : (s.putF i v).scratchpad = s.scratchpad := (rfl)
@[simp] theorem scratchpad_putE (v : F128) : (s.putE i v).scratchpad = s.scratchpad := (rfl)
@[simp] theorem ctl_putR (v : Word) : (s.putR i v).ctl = s.ctl := (rfl)
@[simp] theorem ctl_putF (v : F128) : (s.putF i v).ctl = s.ctl := (rfl)
@[simp] theorem ctl_putE (v : F128) : (s.putE i v).ctl = s.ctl := (rfl)

end VmState

/-! ## Total operands -/

variable {fp : FpUnit} {config : ProgramConfiguration} {version : RxVersion}
  {ibc : BytecodeInstruction} {s : VmState}

/-- The source register, or `otherwise` when there is none. -/
def srcVal (s : VmState) (ibc : BytecodeInstruction) (otherwise : Word) : Word :=
  if ibc.src < 8 then s.rAt ibc.src else otherwise

/-- The doubleword of the scratchpad at `off`. -/
def spWord (sp : Scratchpad) (off : Nat) : Word := leWord fun k => byteAt sp (off + k)

/-- The word of the scratchpad at `off`. -/
def spWord32 (sp : Scratchpad) (off : Nat) : BitVec 32 := leWord32 fun k => byteAt sp (off + k)

/-- The pair of converted integers at `off`. -/
def spPair (fp : FpUnit) (ctl : BitVec 32) (sp : Scratchpad) (off : Nat) : F128 :=
  (fp.ofI32 ctl (spWord32 sp off), fp.ofI32 ctl (spWord32 sp (off + 4)))

theorem load64_eq (sp : Scratchpad) {off : Nat} (h : off + 8 ≤ SCRATCHPAD_L3_SIZE) :
    load64 sp off = some (spWord sp off) := if_pos h

theorem store64_eq (sp : Scratchpad) {off : Nat} (v : Word) (h : off + 8 ≤ SCRATCHPAD_L3_SIZE) :
    store64 sp off v = some (store sp off 8 (byteOf v)) := if_pos h

theorem cvtPackedIntVecF128_eq (ctl : BitVec 32) (sp : Scratchpad) {off : Nat}
    (h : off + 8 ≤ SCRATCHPAD_L3_SIZE) :
    cvtPackedIntVecF128 fp ctl sp off = some (spPair fp ctl sp off) := by
  simp only [cvtPackedIntVecF128, loadI32, if_pos (show off + 4 ≤ SCRATCHPAD_L3_SIZE by omega),
    if_pos (show off + 4 + 4 ≤ SCRATCHPAD_L3_SIZE by omega)]
  rfl

/-- A scratchpad mask keeps an 8-byte access inside the scratchpad. -/
theorem and_mask_le {m : BitVec 32} (h : IsScratchpadMask m) (a : BitVec 32) :
    (a &&& m).toNat + 8 ≤ SCRATCHPAD_L3_SIZE := by
  have hle : (a &&& m).toNat ≤ m.toNat := by rw [BitVec.toNat_and]; exact Nat.and_le_right
  have hm : m.toNat + 8 ≤ SCRATCHPAD_L3_SIZE := by
    rcases h with rfl | rfl | rfl <;> decide
  omega

theorem memAddr_le (h : IsScratchpadMask ibc.memMask) (base : Word) :
    memAddr ibc base + 8 ≤ SCRATCHPAD_L3_SIZE := and_mask_le h _

theorem srcOr_eq (o : Word) : srcOr s ibc o = some (srcVal s ibc o) := by
  unfold srcOr srcVal
  split
  · exact VmState.getR_eq ‹_›
  · rfl

theorem loadIntOperand_eq (hm : IsScratchpadMask ibc.memMask) :
    loadIntOperand s ibc = some (spWord s.scratchpad (memAddr ibc (srcVal s ibc 0))) := by
  simp only [loadIntOperand, srcOr_eq, Option.bind_eq_bind, Option.bind_some,
    load64_eq s.scratchpad (memAddr_le hm _)]

theorem loadFltOperand_eq (h : ibc.src < 8) (hm : IsScratchpadMask ibc.memMask) :
    loadFltOperand fp s ibc
      = some (spPair fp s.ctl s.scratchpad (memAddr ibc (s.rAt ibc.src))) := by
  simp only [loadFltOperand, VmState.getR_eq h, Option.bind_eq_bind, Option.bind_some,
    cvtPackedIntVecF128_eq s.ctl s.scratchpad (memAddr_le hm _)]

theorem updateR_eq (h : ibc.dst < 8) (op : Word → Word → Word) (v : Word) :
    updateR s ibc op v = some (s.putR ibc.dst (op (s.rAt ibc.dst) v)) := by
  simp only [updateR, VmState.getR_eq h, Option.bind_eq_bind, Option.bind_some, VmState.setR_eq h]

theorem updateF_eq (h : ibc.dst < 4) (op : Word → Word → Word) (v : F128) :
    updateF s ibc op v
      = some (s.putF ibc.dst (op (s.fAt ibc.dst).1 v.1, op (s.fAt ibc.dst).2 v.2)) := by
  simp only [updateF, VmState.getF_eq h, Option.bind_eq_bind, Option.bind_some, VmState.setF_eq h]

theorem updateE_eq (h : ibc.dst < 4) (op : Word → Word → Word) (v : F128) :
    updateE s ibc op v
      = some (s.putE ibc.dst (op (s.eAt ibc.dst).1 v.1, op (s.eAt ibc.dst).2 v.2)) := by
  simp only [updateE, VmState.getE_eq h, Option.bind_eq_bind, Option.bind_some, VmState.setE_eq h]

/-! ## One instruction -/

/-- The new program counter of a `CBRANCH` that jumps. -/
def branchTarget (ibc : BytecodeInstruction) (s : VmState) : Option Int :=
  if ibc.itype = .Cbranch ∧ (s.rAt ibc.dst + ibc.imm) &&& ibc.memMask.setWidth 64 = 0 then
    some ibc.target
  else none

/-- The state after a well-formed instruction. -/
def effect (fp : FpUnit) (config : ProgramConfiguration) (version : RxVersion)
    (ibc : BytecodeInstruction) (s : VmState) : VmState :=
  let d := s.rAt ibc.dst
  let imm := srcVal s ibc ibc.imm
  let mem := spWord s.scratchpad (memAddr ibc (srcVal s ibc 0))
  let fmem := spPair fp s.ctl s.scratchpad (memAddr ibc (s.rAt ibc.src))
  let f := s.fAt ibc.dst
  let e := s.eAt ibc.dst
  let a := s.aAt ibc.src
  match ibc.itype with
  | .IaddRs => s.putR ibc.dst (d + ((s.rAt ibc.src <<< ibc.shift) + ibc.imm))
  | .IaddM => s.putR ibc.dst (d + mem)
  | .IsubR => s.putR ibc.dst (d - imm)
  | .IsubM => s.putR ibc.dst (d - mem)
  | .ImulR => s.putR ibc.dst (d * imm)
  | .ImulM => s.putR ibc.dst (d * mem)
  | .ImulhR => s.putR ibc.dst (mulh d (s.rAt ibc.src))
  | .ImulhM => s.putR ibc.dst (mulh d mem)
  | .IsmulhR => s.putR ibc.dst (smulh d (s.rAt ibc.src))
  | .IsmulhM => s.putR ibc.dst (smulh d mem)
  | .InegR => s.putR ibc.dst (~~~d + 1)
  | .IxorR => s.putR ibc.dst (d ^^^ imm)
  | .IxorM => s.putR ibc.dst (d ^^^ mem)
  | .IrorR => s.putR ibc.dst (rotr64 d imm)
  | .IrolR => s.putR ibc.dst (rotl64 d imm)
  | .IswapR => (s.putR ibc.dst (s.rAt ibc.src)).putR ibc.src d
  | .FswapR =>
    if ibc.fswapIsE then s.putE ibc.dst (swapF128 e) else s.putF ibc.dst (swapF128 f)
  | .FaddR => s.putF ibc.dst (fp.fadd s.ctl f.1 a.1, fp.fadd s.ctl f.2 a.2)
  | .FaddM => s.putF ibc.dst (fp.fadd s.ctl f.1 fmem.1, fp.fadd s.ctl f.2 fmem.2)
  | .FsubR => s.putF ibc.dst (fp.fsub s.ctl f.1 a.1, fp.fsub s.ctl f.2 a.2)
  | .FsubM => s.putF ibc.dst (fp.fsub s.ctl f.1 fmem.1, fp.fsub s.ctl f.2 fmem.2)
  | .FscalR => s.putF ibc.dst (f.1 ^^^ FSCAL_MASK, f.2 ^^^ FSCAL_MASK)
  | .FmulR => s.putE ibc.dst (fp.fmul s.ctl e.1 a.1, fp.fmul s.ctl e.2 a.2)
  | .FdivM =>
    let m := maskRegisterExponentMantissa config fmem
    s.putE ibc.dst (fp.fdiv s.ctl e.1 m.1, fp.fdiv s.ctl e.2 m.2)
  | .FsqrtR => s.putE ibc.dst (fp.fsqrt s.ctl e.1, fp.fsqrt s.ctl e.2)
  | .Cbranch => s.putR ibc.dst (d + ibc.imm)
  | .Cfround =>
    let rotated := (s.rAt ibc.src).rotateRight ibc.imm.toNat
    if version = .V1 ∨ rotated &&& 60 = 0 then
      s.putCtl (fp.setRoundingMode s.ctl ((rotated &&& 3).setWidth 32))
    else s
  | .Istore => s.putSp (store s.scratchpad (memAddr ibc d) 8 (byteOf (s.rAt ibc.src)))
  | .Nop => s

/-- **A well-formed instruction stays inside its buffers**, and has this effect and this jump. -/
theorem executeInstruction_eq {i : Nat} (hwf : ibc.WellFormed i) :
    executeInstruction fp config version ibc s
      = some (effect fp config version ibc s, branchTarget ibc s) := by
  unfold BytecodeInstruction.WellFormed at hwf
  unfold executeInstruction
  cases ht : ibc.itype <;> simp only [ht] at hwf ⊢ <;>
    simp [effect, branchTarget, ht, hwf, updateR_eq, updateF_eq, updateE_eq, srcOr_eq,
      loadIntOperand_eq, loadFltOperand_eq, VmState.getR_eq, VmState.setR_eq, VmState.getF_eq,
      VmState.getE_eq, VmState.getA_eq, VmState.setF_eq, VmState.setE_eq]
  case FswapR => split <;> rfl
  case Cbranch => simp [VmState.rAt_putR, hwf.1]
  case Cfround => split <;> rfl
  case Istore => rw [store64_eq _ _ (memAddr_le hwf.2.2 _)]; rfl

/-- **Frame**: only the integer registers the instruction writes change. -/
theorem rAt_effect {i j : Nat} (hwf : ibc.WellFormed i) (hj : ibc.writesR j = false) :
    (effect fp config version ibc s).rAt j = s.rAt j := by
  unfold BytecodeInstruction.WellFormed at hwf
  unfold BytecodeInstruction.writesR at hj
  unfold effect
  cases ht : ibc.itype <;>
    simp only [ht, decide_eq_false_iff_not, not_or] at hwf hj ⊢ <;>
    try simp [VmState.rAt_putR, hwf, hj]
  case FswapR => split <;> rfl
  case Cfround => split <;> rfl

end RandomX
end MinerTim
