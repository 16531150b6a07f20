import MinerTim.RandomX.Jit.Emitter
import MinerTim.RandomX.Compile

/-!
# `RandomX.Jit.Compiler` — bytecode to A64 code (`jit/compiler.rs`)

Register allocation: `r` is `x8 … x15`, the scratchpad base `x16`, the two e-masks `x19` and `x20`, the
register file `x21`, the `FSCAL` mask `d24`; `f`, `e` and `a` are `d0 … d7`, `d8 … d15` and `d16 … d23`, low
lane first. `x0 … x3`, `d25` and `d26` are scratch. The native loop keeps the dataset in `x22`, the result
buffer in `x23`, `ma`, `mx`, `sp_addr0` and `sp_addr1` in `x24 … x27`, and the counter in `x28`.

An emitter is the code it appends; where the source reads `e.len()`, the length is a parameter. `none` is a
panic.
-/

namespace MinerTim
namespace RandomX

open Arm64 Emitter

/-- `FSCAL_MASK` of `compiler.rs`. -/
def JIT_FSCAL_MASK : Word := 0x80F0000000000000

/-- `DYNAMIC_MANTISSA_MASK` of `compiler.rs`. -/
def JIT_DYNAMIC_MANTISSA_MASK : Word := (1#64 <<< 56) - 1

/-- `JIT_CODE_SIZE`. -/
def JIT_CODE_SIZE : Nat := 64 * 1024

/-! ## Registers -/

/-- The register of `r[idx]`. -/
def rReg (idx : Nat) : Nat := idx + 8

/-- The registers of the lanes of `f[idx]`. -/
def fRegs (idx : Nat) : Nat × Nat := (idx * 2, idx * 2 + 1)

/-- The registers of the lanes of `e[idx]`. -/
def eRegs (idx : Nat) : Nat × Nat := (8 + idx * 2, 8 + idx * 2 + 1)

/-- The registers of the lanes of `a[idx]`. -/
def aRegs (idx : Nat) : Nat × Nat := (16 + idx * 2, 16 + idx * 2 + 1)

/-! ## Prologue and epilogue -/

/-- `for i in 0..n`. -/
def emitFor (n : Nat) (f : Nat → Code) : Code := (List.range n).flatMap f

/-- Save the callee-saved registers. -/
def emitSave : Code :=
  stpPre 29 30 31 (-16) ++ stpPre 19 20 31 (-16) ++ stpPre 21 22 31 (-16) ++ stpPre 23 24 31 (-16)
    ++ stpPre 25 26 31 (-16) ++ stpPre 27 28 31 (-16)
    ++ stpFpPre 8 9 31 (-16) ++ stpFpPre 10 11 31 (-16) ++ stpFpPre 12 13 31 (-16)
    ++ stpFpPre 14 15 31 (-16)

/-- Restore them, in the opposite order, and return. -/
def emitRestore : Code :=
  ldpFpPost 14 15 31 16 ++ ldpFpPost 12 13 31 16 ++ ldpFpPost 10 11 31 16 ++ ldpFpPost 8 9 31 16
    ++ ldpPost 27 28 31 16 ++ ldpPost 25 26 31 16 ++ ldpPost 23 24 31 16 ++ ldpPost 21 22 31 16
    ++ ldpPost 19 20 31 16 ++ ldpPost 29 30 31 16

/-- `emit_prologue`: save registers, then load the masks and the register file. -/
def emitPrologue : Code :=
  emitSave ++ movReg 21 0 ++ movReg 16 1 ++ ldrImm 19 2 0 ++ ldrImm 20 2 8
    ++ emitFor 8 (fun i => ldrImm (8 + i) 0 (i * 8))
    ++ emitFor 8 (fun i => ldrFpImm i 0 (64 + i * 8))
    ++ emitFor 8 (fun i => ldrFpImm (8 + i) 0 (128 + i * 8))
    ++ emitFor 8 (fun i => ldrFpImm (16 + i) 0 (192 + i * 8))
    ++ movImm64 0 JIT_FSCAL_MASK ++ fmovDx 24 0

/-- Store `r`, `f` and `e` to the register file. -/
def emitStoreRegisters : Code :=
  emitFor 8 (fun i => strImm (8 + i) 21 (i * 8))
    ++ emitFor 8 (fun i => strFpImm i 21 (64 + i * 8))
    ++ emitFor 8 (fun i => strFpImm (8 + i) 21 (128 + i * 8))

/-- `emit_epilogue`. -/
def emitEpilogue : Code := emitStoreRegisters ++ emitRestore ++ ret

/-! ## Memory operands -/

/-- `emit_mem_addr`: the masked scratchpad offset of a memory operand, in `x0`. -/
def emitMemAddr (ibc : BytecodeInstruction) : Code :=
  (if ibc.src < 8 then movImm64 0 ibc.imm ++ addReg 0 (rReg ibc.src) 0 else movImm64 0 ibc.imm)
    ++ andBitmask 0 0 (ibc.memMask.setWidth 64) 1

/-- `emit_mem_load`: the doubleword at scratchpad offset `x0`, in `x0`. -/
def emitMemLoad : Code := ldrReg 0 16 0

/-- Two packed integers at scratchpad offset `x0`, converted into `d25` and `d26`. -/
def emitCvtPackedInt : Code :=
  addReg 1 16 0 ++ [.ldrswImm 0 1 0] ++ scvtfDx 25 0 ++ [.ldrswImm 0 1 1] ++ scvtfDx 26 0

/-! ## Integer instructions -/

/-- An integer instruction with a memory operand. -/
def emitIntM (op : Nat → Nat → Nat → Code) (ibc : BytecodeInstruction) : Code :=
  emitMemAddr ibc ++ emitMemLoad ++ op (rReg ibc.dst) (rReg ibc.dst) 0

/-- An integer instruction with a register operand, or an immediate one. -/
def emitIntRegOrImm (op : Nat → Nat → Nat → Code) (ibc : BytecodeInstruction) : Code :=
  if ibc.src < 8 then op (rReg ibc.dst) (rReg ibc.dst) (rReg ibc.src)
  else movImm64 0 ibc.imm ++ op (rReg ibc.dst) (rReg ibc.dst) 0

/-- `IADD_RS`: the displacement is an immediate where it fits one, either way round. -/
def emitIaddRs (ibc : BytecodeInstruction) : Code :=
  let dst := rReg ibc.dst
  let src := rReg ibc.src
  (if 0 < ibc.shift then addRegShifted dst dst src ibc.shift else addReg dst dst src)
    ++ if ibc.imm ≠ 0 then
        if ibc.imm < 4096 then addImm dst dst ibc.imm.toNat
        else if ~~~ibc.imm + 1 < 4096 then subImm dst dst (~~~ibc.imm + 1).toNat
        else movImm64 0 ibc.imm ++ addReg dst dst 0
      else []

/-- `IADD_M`. -/
def emitIaddM (ibc : BytecodeInstruction) : Code := emitIntM addReg ibc

/-- `ISUB_R`. -/
def emitIsubR (ibc : BytecodeInstruction) : Code := emitIntRegOrImm subReg ibc

/-- `ISUB_M`. -/
def emitIsubM (ibc : BytecodeInstruction) : Code := emitIntM subReg ibc

/-- `IMUL_R`, and `IMUL_RCP` by its reciprocal. -/
def emitImulR (ibc : BytecodeInstruction) : Code := emitIntRegOrImm mul ibc

/-- `IMUL_M`. -/
def emitImulM (ibc : BytecodeInstruction) : Code := emitIntM mul ibc

/-- `IMULH_R`. -/
def emitImulhR (ibc : BytecodeInstruction) : Code := umulh (rReg ibc.dst) (rReg ibc.dst) (rReg ibc.src)

/-- `IMULH_M`. -/
def emitImulhM (ibc : BytecodeInstruction) : Code := emitIntM umulh ibc

/-- `ISMULH_R`. -/
def emitIsmulhR (ibc : BytecodeInstruction) : Code :=
  Emitter.smulh (rReg ibc.dst) (rReg ibc.dst) (rReg ibc.src)

/-- `ISMULH_M`. -/
def emitIsmulhM (ibc : BytecodeInstruction) : Code := emitIntM Emitter.smulh ibc

/-- `INEG_R`. -/
def emitInegR (ibc : BytecodeInstruction) : Code := neg (rReg ibc.dst) (rReg ibc.dst)

/-- `IXOR_R`. -/
def emitIxorR (ibc : BytecodeInstruction) : Code := emitIntRegOrImm eorReg ibc

/-- `IXOR_M`. -/
def emitIxorM (ibc : BytecodeInstruction) : Code := emitIntM eorReg ibc

/-- `IROR_R`. -/
def emitIrorR (ibc : BytecodeInstruction) : Code :=
  let dst := rReg ibc.dst
  if ibc.src < 8 then rorv dst dst (rReg ibc.src)
  else rorImm dst dst (ibc.imm &&& 63).toNat

/-- `IROL_R`: a rotation to the right by the negated count. -/
def emitIrolR (ibc : BytecodeInstruction) : Code :=
  let dst := rReg ibc.dst
  if ibc.src < 8 then neg 0 (rReg ibc.src) ++ rorv dst dst 0
  else rorImm dst dst ((64 - (ibc.imm &&& 63).toNat) &&& 63)

/-- `ISWAP_R`. -/
def emitIswapR (ibc : BytecodeInstruction) : Code :=
  movReg 0 (rReg ibc.dst) ++ movReg (rReg ibc.dst) (rReg ibc.src) ++ movReg (rReg ibc.src) 0

/-! ## Floating-point instructions -/

/-- A lane-wise instruction with an `a` operand. -/
def emitFltR (op : Nat → Nat → Nat → Code) (dst : Nat × Nat) (ibc : BytecodeInstruction) : Code :=
  op dst.1 dst.1 (aRegs ibc.src).1 ++ op dst.2 dst.2 (aRegs ibc.src).2

/-- A lane-wise instruction with a memory operand. -/
def emitFltM (op : Nat → Nat → Nat → Code) (dst : Nat × Nat) (ibc : BytecodeInstruction) : Code :=
  emitMemAddr ibc ++ emitCvtPackedInt ++ op dst.1 dst.1 25 ++ op dst.2 dst.2 26

/-- `FSWAP_R`. -/
def emitFswapR (ibc : BytecodeInstruction) : Code :=
  let regs := if ibc.fswapIsE then eRegs ibc.dst else fRegs ibc.dst
  fmovDd 25 regs.1 ++ fmovDd regs.1 regs.2 ++ fmovDd regs.2 25

/-- `FADD_R`. -/
def emitFaddR (ibc : BytecodeInstruction) : Code := emitFltR fadd (fRegs ibc.dst) ibc

/-- `FADD_M`. -/
def emitFaddM (ibc : BytecodeInstruction) : Code := emitFltM fadd (fRegs ibc.dst) ibc

/-- `FSUB_R`. -/
def emitFsubR (ibc : BytecodeInstruction) : Code := emitFltR fsub (fRegs ibc.dst) ibc

/-- `FSUB_M`. -/
def emitFsubM (ibc : BytecodeInstruction) : Code := emitFltM fsub (fRegs ibc.dst) ibc

/-- `FSCAL_R`. -/
def emitFscalR (ibc : BytecodeInstruction) : Code :=
  eorV8b (fRegs ibc.dst).1 (fRegs ibc.dst).1 24 ++ eorV8b (fRegs ibc.dst).2 (fRegs ibc.dst).2 24

/-- `FMUL_R`. -/
def emitFmulR (ibc : BytecodeInstruction) : Code := emitFltR fmul (eRegs ibc.dst) ibc

/-- The exponent and mantissa masks on a converted lane `d`, with the e-mask in `x`, into `dd`. -/
def emitMaskLane (d x dd : Nat) : Code :=
  fmovXd 0 d ++ andBitmask 0 0 JIT_DYNAMIC_MANTISSA_MASK 1 ++ orrReg 0 0 x ++ fmovDx dd 0

/-- `FDIV_M`. -/
def emitFdivM (ibc : BytecodeInstruction) : Code :=
  emitMemAddr ibc ++ emitCvtPackedInt ++ emitMaskLane 25 19 25 ++ emitMaskLane 26 20 26
    ++ fdiv (eRegs ibc.dst).1 (eRegs ibc.dst).1 25 ++ fdiv (eRegs ibc.dst).2 (eRegs ibc.dst).2 26

/-- `FSQRT_R`. -/
def emitFsqrtR (ibc : BytecodeInstruction) : Code :=
  fsqrt (eRegs ibc.dst).1 (eRegs ibc.dst).1 ++ fsqrt (eRegs ibc.dst).2 (eRegs ibc.dst).2

/-! ## Control flow -/

/-- `offsets`: the word offset of each instruction emitted so far; zero beyond. -/
abbrev Offsets := Vector Nat RANDOMX_PROGRAM_SIZE_MAX

/-- The part of `emit_cbranch` before the branch. -/
def emitCbranchTest (ibc : BytecodeInstruction) : Code :=
  movImm64 0 ibc.imm ++ addReg (rReg ibc.dst) (rReg ibc.dst) 0
    ++ tstBitmask (rReg ibc.dst) (ibc.memMask.setWidth 64) 0

/-- The word offset that the branch of a `CBRANCH` at `current` goes to. -/
def cbranchTarget (ibc : BytecodeInstruction) (offsets : Offsets) (programSize current : Nat) : Nat :=
  let targetSigned := ibc.target + 1
  if 0 ≤ targetSigned ∧ targetSigned < programSize then offsets[targetSigned.toNat]?.getD 0
  else current + 1

/-- `CBRANCH`, when the code so far is `len` words long. -/
def emitCbranch (len : Nat) (ibc : BytecodeInstruction) (offsets : Offsets) (programSize : Nat) : Code :=
  let current := len + (emitCbranchTest ibc).length
  emitCbranchTest ibc
    ++ bCond 0 ((cbranchTarget ibc offsets programSize current : Int) - (current : Int))

/-- `x0 = r[src]` rotated. -/
def emitRotated (ibc : BytecodeInstruction) : Code :=
  let shift := (ibc.imm &&& 63).toNat
  if 0 < shift then rorImm 0 (rReg ibc.src) shift else movReg 0 (rReg ibc.src)

/-- The FPCR update of `CFROUND`: swap the two bits of the mode, set FZ. -/
def emitSetMode : Code :=
  andBitmask 0 0 3 1 ++ lsrImm 1 0 1 ++ lslImm 2 0 1 ++ andBitmask 1 1 1 3 ++ andBitmask 2 2 2 3
    ++ orrReg 0 1 2 ++ lslImm 0 0 22 ++ movImm64 1 (1#64 <<< 24) ++ orrReg 0 0 1 ++ msrFpcr 0

/-- `CFROUND`: V2 skips it unless four bits of the rotated value are zero. -/
def emitCfround (ibc : BytecodeInstruction) (version : RxVersion) : Code :=
  match version with
  | .V1 => emitRotated ibc ++ emitSetMode
  | .V2 =>
    let e := emitRotated ibc ++ tstBitmask 0 0x3C 1
    let idx := e.length
    let e := e ++ bCond 1 0 ++ emitSetMode
    -- the guard is patched once the end of the block is known
    let rel := e.length - idx
    e.set idx (.bCond 1 (BitVec.ofNat 19 rel))

/-- `ISTORE`. -/
def emitIstore (ibc : BytecodeInstruction) : Code :=
  (if ibc.imm ≠ 0 then movImm64 0 ibc.imm ++ addReg 0 (rReg ibc.dst) 0
    else movReg 0 (rReg ibc.dst))
    ++ andBitmask 0 0 (ibc.memMask.setWidth 64) 1 ++ strReg (rReg ibc.src) 16 0

/-! ## The body -/

/-- `emit_instruction`, when the code so far is `len` words long. -/
def emitInstruction (len : Nat) (ibc : BytecodeInstruction) (offsets : Offsets) (programSize : Nat)
    (version : RxVersion) : Code :=
  match ibc.itype with
  | .IaddRs => emitIaddRs ibc
  | .IaddM => emitIaddM ibc
  | .IsubR => emitIsubR ibc
  | .IsubM => emitIsubM ibc
  | .ImulR => emitImulR ibc
  | .ImulM => emitImulM ibc
  | .ImulhR => emitImulhR ibc
  | .ImulhM => emitImulhM ibc
  | .IsmulhR => emitIsmulhR ibc
  | .IsmulhM => emitIsmulhM ibc
  | .InegR => emitInegR ibc
  | .IxorR => emitIxorR ibc
  | .IxorM => emitIxorM ibc
  | .IrorR => emitIrorR ibc
  | .IrolR => emitIrolR ibc
  | .IswapR => emitIswapR ibc
  | .FswapR => emitFswapR ibc
  | .FaddR => emitFaddR ibc
  | .FaddM => emitFaddM ibc
  | .FsubR => emitFsubR ibc
  | .FsubM => emitFsubM ibc
  | .FscalR => emitFscalR ibc
  | .FmulR => emitFmulR ibc
  | .FdivM => emitFdivM ibc
  | .FsqrtR => emitFsqrtR ibc
  | .Cbranch => emitCbranch len ibc offsets programSize
  | .Cfround => emitCfround ibc version
  | .Istore => emitIstore ibc
  | .Nop => []

/-- The loop of `emit_body`, over the instructions from index `i`. -/
def emitBodyFrom (programSize : Nat) (version : RxVersion) :
    List BytecodeInstruction → (i : Nat) → Offsets → Code → Code
  | [], _, _, e => e
  | ibc :: bytecode, i, offsets, e =>
    let offsets := offsets.setIfInBounds i e.length
    emitBodyFrom programSize version bytecode (i + 1) offsets
      (e ++ emitInstruction e.length ibc offsets programSize version)

/-- `emit_body`: an index past the end of `offsets` panics. -/
def emitBody (e : Code) (bytecode : List BytecodeInstruction) (version : RxVersion) : Option Code :=
  if bytecode.length ≤ RANDOMX_PROGRAM_SIZE_MAX then
    some (emitBodyFrom bytecode.length version bytecode 0 (Vector.replicate _ 0) e)
  else none

/-! ## The native loop -/

/-- `SCRATCHPAD_L3_MASK64` of `compiler.rs`. -/
def JIT_SCRATCHPAD_L3_MASK64 : Word := 0x1FFFC0
/-- `CACHE_LINE_ALIGN_MASK` of `compiler.rs`. -/
def JIT_CACHE_LINE_ALIGN_MASK : Word := 0x7FFFFFC0

/-- The condition `NE`. -/
def COND_NE : BitVec 4 := 1

/-- Save registers, move the arguments to where the loop keeps them and load the masks and `r` and `a`. -/
def emitLoopPrologue (config : ProgramConfiguration) (initMa initMx : BitVec 32)
    (datasetOffset : Word) : Code :=
  emitSave ++ movReg 22 2 ++ movReg 28 3 ++ movReg 23 4 ++ movReg 21 0 ++ movReg 16 1
    ++ movImm64 0 datasetOffset ++ addReg 22 22 0
    ++ emitFor 8 (fun i => ldrImm (8 + i) 21 (i * 8))
    ++ emitFor 8 (fun i => ldrFpImm (16 + i) 21 (192 + i * 8))
    ++ movImm64 19 config.eMask0 ++ movImm64 20 config.eMask1
    ++ movImm64 0 JIT_FSCAL_MASK ++ fmovDx 24 0
    ++ movImm64 24 (initMa.setWidth 64) ++ movImm64 25 (initMx.setWidth 64)
    ++ movImm64 26 (initMx.setWidth 64) ++ movImm64 27 (initMa.setWidth 64)

/-- An iteration before its body: the scratchpad addresses, and `r`, `f` and `e` from the scratchpad. -/
def emitIterationPre (config : ProgramConfiguration) : Code :=
  eorReg 0 (rReg config.readReg0) (rReg config.readReg1)
    ++ eorRegW 26 26 0 ++ andBitmask 26 26 JIT_SCRATCHPAD_L3_MASK64 1
    ++ lsrImm 1 0 32 ++ eorRegW 27 27 1 ++ andBitmask 27 27 JIT_SCRATCHPAD_L3_MASK64 1
    ++ addReg 2 16 26
    ++ emitFor 8 (fun i => ldrImm 3 2 (i * 8) ++ eorReg (rReg i) (rReg i) 3)
    ++ emitFor 4 (fun i => addImm 0 27 (i * 8) ++ emitCvtPackedInt
      ++ fmovDd (fRegs i).1 25 ++ fmovDd (fRegs i).2 26)
    ++ emitFor 4 (fun i => addImm 0 27 (32 + i * 8) ++ emitCvtPackedInt
      ++ emitMaskLane 25 19 (eRegs i).1 ++ emitMaskLane 26 20 (eRegs i).2)

/-- An iteration after its body: the dataset item, the prefetches, and `r` and `f` to the scratchpad. -/
def emitIterationPost (config : ProgramConfiguration) : Code :=
  andBitmask 0 24 JIT_CACHE_LINE_ALIGN_MASK 1 ++ addReg 0 22 0
    ++ eorReg 1 (rReg config.readReg2) (rReg config.readReg3) ++ eorRegW 25 25 1
    ++ emitFor 8 (fun i => ldrImm 2 0 (i * 8) ++ eorReg (rReg i) (rReg i) 2)
    ++ movReg 1 24 ++ movReg 24 25 ++ movReg 25 1
    ++ andBitmask 0 24 JIT_CACHE_LINE_ALIGN_MASK 1 ++ prfmReg 22 0
    ++ addReg 0 16 27 ++ emitFor 8 (fun i => strImm (rReg i) 0 (i * 8))
    ++ emitFor 4 (fun i => eorV8b (fRegs i).1 (fRegs i).1 (eRegs i).1
      ++ eorV8b (fRegs i).2 (fRegs i).2 (eRegs i).2)
    ++ addReg 0 16 26
    ++ emitFor 4 (fun i => stpFpImm (fRegs i).1 (fRegs i).2 0 ((i * 16 : Nat) : Int))
    ++ eorReg 0 (rReg config.readReg0) (rReg config.readReg1)
    ++ andBitmask 1 0 JIT_SCRATCHPAD_L3_MASK64 2 ++ prfmReg 16 1
    ++ lsrImm 1 0 32 ++ andBitmask 1 1 JIT_SCRATCHPAD_L3_MASK64 2 ++ prfmReg 16 1
    ++ movz 26 0 0 ++ movz 27 0 0

/-- Store the loop state to the result buffer and the registers to the register file, and return. -/
def emitLoopEpilogue : Code :=
  strImm 24 23 0 ++ strImm 25 23 8 ++ strImm 26 23 16 ++ strImm 27 23 24
    ++ emitStoreRegisters ++ emitRestore ++ ret

/-! ## The compiler -/

/-- `write_code`, which asserts that the code fits the buffer. -/
def writeCode (code : Code) : Option Code :=
  if code.length * 4 ≤ JIT_CODE_SIZE then some code else none

/-- Which calling convention the resident code was compiled for. -/
inductive CompiledKind where
  | Body
  | NativeLoop
deriving DecidableEq, Repr

/-- The code buffer, with what it holds. -/
structure JitCompiler where
  memory : Code
  kind : Option CompiledKind

namespace JitCompiler

/-- `JitCompiler::new`. -/
def new : JitCompiler := { memory := [], kind := none }

/-- `compile`. -/
def compile (_jit : JitCompiler) (bytecode : List BytecodeInstruction) (version : RxVersion) :
    Option JitCompiler := do
  let e ← emitBody emitPrologue bytecode version
  let memory ← writeCode (e ++ emitEpilogue)
  return { memory, kind := some .Body }

/-- `compile_native_loop`, which asserts V1 and a dataset offset in range. -/
def compileNativeLoop (_jit : JitCompiler) (bytecode : List BytecodeInstruction) (version : RxVersion)
    (config : ProgramConfiguration) (initMa initMx : BitVec 32) (datasetOffset : Word) :
    Option JitCompiler :=
  if version = .V1 ∧ datasetOffset.toNat ≤ DATASET_EXTRA_ITEMS * 64 then do
    let e := emitLoopPrologue config initMa initMx datasetOffset
    let zeroGuard := e.length
    let e := e ++ [.cbz 28 0]
    let loopHead := e.length
    let e ← emitBody (e ++ emitIterationPre config) bytecode version
    let e := e ++ emitIterationPost config ++ subsImm 28 28 1
    let rel := (loopHead : Int) - (e.length : Int)
    let e := e ++ bCond COND_NE rel
    -- the zero-iteration guard is patched once the end of the loop is known
    let skip := e.length - zeroGuard
    let e := e.set zeroGuard (.cbz 28 (BitVec.ofNat 19 skip))
    let memory ← writeCode (e ++ emitLoopEpilogue)
    return { memory, kind := some .NativeLoop }
  else none

/-- `get_fn`: the code, if it was compiled as a body. -/
def getFn (jit : JitCompiler) : Option Code :=
  if jit.kind = some .Body then some jit.memory else none

/-- `get_loop_fn`: the code, if it was compiled as a native loop. -/
def getLoopFn (jit : JitCompiler) : Option Code :=
  if jit.kind = some .NativeLoop then some jit.memory else none

end JitCompiler
end RandomX
end MinerTim
