import MinerTim.RandomX.Types

/-!
# `RandomX.Execute` — the bytecode interpreter (`execute_bytecode`)

`executeInstruction` is the `match` of the interpreter loop. It is partial where the source is
unchecked (see `RandomX.Types`), and returns the new state and, for a `CBRANCH` that jumps, the new
program counter. `executeFrom` is the loop, with the program counter `pc : i32` of the source; its
fuel bounds the number of instructions executed, and `executeBytecode` gives it three times the length
of the program, which `RandomX.Termination` shows to be enough.
-/

namespace MinerTim
namespace RandomX

/-- What the interpreter reads and writes: the register file, the scratchpad, and the control word of
    the floating-point unit. -/
structure VmState where
  nreg : NativeRegisterFile
  scratchpad : Scratchpad
  ctl : BitVec 32

namespace VmState

/-- Unchecked read of `r[i]`. -/
def getR (s : VmState) (i : Nat) : Option Word := s.nreg.getR i

/-- Unchecked write of `r[i]`. -/
def setR (s : VmState) (i : Nat) (v : Word) : Option VmState := do
  return { s with nreg := ← s.nreg.setR i v }

/-- Unchecked write of `f[i]`. -/
def setF (s : VmState) (i : Nat) (v : F128) : Option VmState := do
  return { s with nreg := ← s.nreg.setF i v }

/-- Unchecked write of `e[i]`. -/
def setE (s : VmState) (i : Nat) (v : F128) : Option VmState := do
  return { s with nreg := ← s.nreg.setE i v }

end VmState

/-! ## Operands -/

/-- `if ibc.src < 8 { nreg.r(ibc.src) } else { otherwise }`. -/
def srcOr (s : VmState) (ibc : BytecodeInstruction) (otherwise : Word) : Option Word :=
  if ibc.src < 8 then s.getR ibc.src else some otherwise

/-- `(base.wrapping_add(ibc.imm) as u32 & ibc.mem_mask) as usize`. -/
def memAddr (ibc : BytecodeInstruction) (base : Word) : Nat :=
  ((base + ibc.imm).setWidth 32 &&& ibc.memMask).toNat

/-- The memory operand of an integer instruction, whose base is zero when `src` is not a register. -/
def loadIntOperand (s : VmState) (ibc : BytecodeInstruction) : Option Word := do
  let srcVal ← srcOr s ibc 0
  load64 s.scratchpad (memAddr ibc srcVal)

/-- The memory operand of a floating-point instruction. -/
def loadFltOperand (fp : FpUnit) (s : VmState) (ibc : BytecodeInstruction) : Option F128 := do
  let srcVal ← s.getR ibc.src
  cvtPackedIntVecF128 fp s.ctl s.scratchpad (memAddr ibc srcVal)

/-- `*nreg.r_mut(ibc.dst) = op(nreg.r(ibc.dst), v)`. -/
def updateR (s : VmState) (ibc : BytecodeInstruction) (op : Word → Word → Word) (v : Word) :
    Option VmState := do
  let d ← s.getR ibc.dst
  s.setR ibc.dst (op d v)

/-- Lane-wise update of `f[ibc.dst]`. -/
def updateF (s : VmState) (ibc : BytecodeInstruction) (op : Word → Word → Word) (v : F128) :
    Option VmState := do
  let (lo, hi) ← s.nreg.getF ibc.dst
  s.setF ibc.dst (op lo v.1, op hi v.2)

/-- Lane-wise update of `e[ibc.dst]`. -/
def updateE (s : VmState) (ibc : BytecodeInstruction) (op : Word → Word → Word) (v : F128) :
    Option VmState := do
  let (lo, hi) ← s.nreg.getE ibc.dst
  s.setE ibc.dst (op lo v.1, op hi v.2)

/-! ## One instruction -/

/-- The XOR mask of `FSCAL_R`. -/
def FSCAL_MASK : Word := 0x80F0000000000000

/-- The `match` of `execute_bytecode`. -/
def executeInstruction (fp : FpUnit) (config : ProgramConfiguration) (version : RxVersion)
    (ibc : BytecodeInstruction) (s : VmState) : Option (VmState × Option Int) :=
  let next (s : Option VmState) : Option (VmState × Option Int) := s.map fun s => (s, none)
  match ibc.itype with
  | .IaddRs => next do updateR s ibc (fun d v => d + ((v <<< ibc.shift) + ibc.imm)) (← s.getR ibc.src)
  | .IaddM => next do updateR s ibc (· + ·) (← loadIntOperand s ibc)
  | .IsubR => next do updateR s ibc (· - ·) (← srcOr s ibc ibc.imm)
  | .IsubM => next do updateR s ibc (· - ·) (← loadIntOperand s ibc)
  | .ImulR => next do updateR s ibc (· * ·) (← srcOr s ibc ibc.imm)
  | .ImulM => next do updateR s ibc (· * ·) (← loadIntOperand s ibc)
  | .ImulhR => next do updateR s ibc mulh (← s.getR ibc.src)
  | .ImulhM => next do updateR s ibc mulh (← loadIntOperand s ibc)
  | .IsmulhR => next do updateR s ibc smulh (← s.getR ibc.src)
  | .IsmulhM => next do updateR s ibc smulh (← loadIntOperand s ibc)
  | .InegR => next do updateR s ibc (fun d _ => ~~~d + 1) 0
  | .IxorR => next do updateR s ibc (· ^^^ ·) (← srcOr s ibc ibc.imm)
  | .IxorM => next do updateR s ibc (· ^^^ ·) (← loadIntOperand s ibc)
  | .IrorR => next do updateR s ibc rotr64 (← srcOr s ibc ibc.imm)
  | .IrolR => next do updateR s ibc rotl64 (← srcOr s ibc ibc.imm)
  | .IswapR => next do
    let tmp ← s.getR ibc.dst
    let s ← s.setR ibc.dst (← s.getR ibc.src)
    s.setR ibc.src tmp
  | .FswapR => next do
    if ibc.fswapIsE then s.setE ibc.dst (swapF128 (← s.nreg.getE ibc.dst))
    else s.setF ibc.dst (swapF128 (← s.nreg.getF ibc.dst))
  | .FaddR => next do updateF s ibc (fp.fadd s.ctl) (← s.nreg.getA ibc.src)
  | .FaddM => next do updateF s ibc (fp.fadd s.ctl) (← loadFltOperand fp s ibc)
  | .FsubR => next do updateF s ibc (fp.fsub s.ctl) (← s.nreg.getA ibc.src)
  | .FsubM => next do updateF s ibc (fp.fsub s.ctl) (← loadFltOperand fp s ibc)
  | .FscalR => next do updateF s ibc (· ^^^ ·) (FSCAL_MASK, FSCAL_MASK)
  | .FmulR => next do updateE s ibc (fp.fmul s.ctl) (← s.nreg.getA ibc.src)
  | .FdivM => next do
    updateE s ibc (fp.fdiv s.ctl) (maskRegisterExponentMantissa config (← loadFltOperand fp s ibc))
  | .FsqrtR => next do updateE s ibc (fun d _ => fp.fsqrt s.ctl d) (0, 0)
  | .Cbranch => do
    let s ← updateR s ibc (· + ·) ibc.imm
    let d ← s.getR ibc.dst
    return (s, if d &&& ibc.memMask.setWidth 64 = 0 then some ibc.target else none)
  | .Cfround => do
    -- V2 writes the mode only when bits 2-5 of the rotated source are all zero
    let rotated := (← s.getR ibc.src).rotateRight ibc.imm.toNat
    if version = .V1 ∨ rotated &&& 60 = 0 then
      return ({ s with ctl := fp.setRoundingMode s.ctl ((rotated &&& 3).setWidth 32) }, none)
    else return (s, none)
  | .Istore => do
    let addr := memAddr ibc (← s.getR ibc.dst)
    let scratchpad ← store64 s.scratchpad addr (← s.getR ibc.src)
    return ({ s with scratchpad }, none)
  | .Nop => some (s, none)

/-! ## The loop -/

/-- `bytecode.get_unchecked(pc as usize)`. -/
def fetch (bytecode : List BytecodeInstruction) (pc : Int) : Option BytecodeInstruction :=
  if 0 ≤ pc then bytecode[pc.toNat]? else none

/-- `while pc < len { …; pc += 1 }`, executing at most `fuel` instructions. -/
def executeFrom (fp : FpUnit) (config : ProgramConfiguration) (version : RxVersion)
    (bytecode : List BytecodeInstruction) : (fuel : Nat) → (pc : Int) → VmState → Option VmState
  | 0, pc, s => if pc < bytecode.length then none else some s
  | fuel + 1, pc, s =>
    if pc < bytecode.length then do
      let ibc ← fetch bytecode pc
      let (s, jump) ← executeInstruction fp config version ibc s
      executeFrom fp config version bytecode fuel (jump.getD pc + 1) s
    else some s

/-- `execute_bytecode`. -/
def executeBytecode (fp : FpUnit) (config : ProgramConfiguration) (version : RxVersion)
    (bytecode : List BytecodeInstruction) (s : VmState) : Option VmState :=
  executeFrom fp config version bytecode (3 * bytecode.length) 0 s

/-- The run of the loop that executes the instructions at these indices, in this order. -/
inductive Executes (fp : FpUnit) (config : ProgramConfiguration) (version : RxVersion)
    (bytecode : List BytecodeInstruction) : List Nat → Int × VmState → Int × VmState → Prop where
  | done {c : Int × VmState} : Executes fp config version bytecode [] c c
  | step {k : Nat} {s s' : VmState} {ibc : BytecodeInstruction} {jump : Option Int}
      {tr : List Nat} {c : Int × VmState} :
      bytecode[k]? = some ibc → executeInstruction fp config version ibc s = some (s', jump) →
      Executes fp config version bytecode tr (jump.getD k + 1, s') c →
      Executes fp config version bytecode (k :: tr) (k, s) c

/-- With enough fuel the loop follows the run that leaves the program. -/
theorem executeFrom_of_executes {fp : FpUnit} {config : ProgramConfiguration} {version : RxVersion}
    {bytecode : List BytecodeInstruction} {tr : List Nat} {pc pc' : Int} {s s' : VmState}
    (h : Executes fp config version bytecode tr (pc, s) (pc', s')) (hpc' : bytecode.length ≤ pc')
    {fuel : Nat} (hf : tr.length ≤ fuel) :
    executeFrom fp config version bytecode fuel pc s = some s' := by
  generalize hc : (pc, s) = c at h
  generalize hc' : (pc', s') = c' at h
  induction h generalizing pc s fuel with
  | done =>
    obtain ⟨rfl, rfl⟩ := Prod.mk.inj (hc.trans hc'.symm)
    cases fuel <;> simp [executeFrom, not_lt.mpr hpc']
  | @step k _ s₁ ibc jump tr _ hk hexec _ ih =>
    obtain ⟨rfl, rfl⟩ := Prod.mk.inj hc
    have hlt : k < bytecode.length := (List.getElem?_eq_some_iff.mp hk).1
    cases fuel with
    | zero => simp at hf
    | succ fuel =>
      rw [executeFrom, if_pos (by omega), fetch, if_pos (by omega), Int.toNat_natCast, hk]
      simp only [Option.bind_eq_bind, Option.bind_some, hexec]
      exact ih (Nat.le_of_succ_le_succ hf) rfl hc'

end RandomX
end MinerTim
