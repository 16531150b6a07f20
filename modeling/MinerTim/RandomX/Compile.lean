import MinerTim.RandomX.Types

/-!
# `RandomX.Compile` — program bytes to bytecode (`compile_program`)

The decoder of `vm.rs`, one instruction at a time: `compileInstruction` is the body of the loop of
`compile_program`, threading `register_usage`; `compileProgram` is the loop, which writes entries
`0 … program_size-1` of the reused buffer and leaves the rest as they were.

What `compile_program` guarantees about its output is in `RandomX.WellFormed`.
-/

namespace MinerTim
namespace RandomX

/-- `register_usage`: the last instruction that changed register `j`, or `-1`. -/
abbrev RegisterUsage := Nat → Int

/-- `register_usage[reg] = i`. -/
def RegisterUsage.set (u : RegisterUsage) (reg i : Nat) : RegisterUsage :=
  fun j => if j = reg then (i : Int) else u j

/-- `x as i16`. -/
def asI16 (x : Int) : Int := x.bmod (2 ^ 16)

/-- L1 or L2, by `mod.mem`. -/
def memMaskL1L2 (instr : RawInstruction) : BitVec 32 :=
  if instr.getModMem ≠ 0 then SCRATCHPAD_L1_MASK else SCRATCHPAD_L2_MASK

/-- An integer instruction with a register source, or an immediate one when `src == dst`. -/
def intRegOrImm (itype : InstructionType) (immediate : Word) (dst src : Nat) :
    BytecodeInstruction :=
  if src ≠ dst then { itype, dst, src } else { itype, dst, src := 8, imm := immediate }

/-- An integer instruction with a memory source; the address is the immediate alone in L3 when
    `src == dst`. -/
def intMem (itype : InstructionType) (instr : RawInstruction) (dst src : Nat) :
    BytecodeInstruction :=
  let imm := signExtend2sCompl instr.imm32
  if src ≠ dst then { itype, dst, src, imm, memMask := memMaskL1L2 instr }
  else { itype, dst, src := 8, imm, memMask := SCRATCHPAD_L3_MASK }

/-- A floating-point instruction with a memory source. -/
def fltMem (itype : InstructionType) (instr : RawInstruction) (dst src : Nat) :
    BytecodeInstruction :=
  { itype, dst, src, memMask := memMaskL1L2 instr, imm := signExtend2sCompl instr.imm32 }

/-- The `CBRANCH` addend: bit `shift` set, bit `shift - 1` cleared. -/
def cbranchImm (imm32 : BitVec 32) (shift : Nat) : Word :=
  let imm := signExtend2sCompl imm32 ||| (1#64 <<< shift)
  if CONDITION_OFFSET > 0 ∨ shift > 0 then imm &&& ~~~(1#64 <<< (shift - 1)) else imm

/-- The body of the loop of `compile_program`, for instruction `i`. -/
def compileInstruction (i : Nat) (instr : RawInstruction) (usage : RegisterUsage) :
    BytecodeInstruction × RegisterUsage :=
  let opcode := instr.opcode.toNat
  let dst := instr.dst.toNat % 8
  let src := instr.src.toNat % 8
  let fdst := instr.dst.toNat % REGISTER_COUNT_FLT
  let fsrc := instr.src.toNat % REGISTER_COUNT_FLT
  let imm := signExtend2sCompl instr.imm32
  if opcode < CEIL_IADD_RS then
    ({ itype := .IaddRs, dst, src, shift := instr.getModShift,
       imm := if dst = 5 then imm else 0 }, usage.set dst i)
  else if opcode < CEIL_IADD_M then (intMem .IaddM instr dst src, usage.set dst i)
  else if opcode < CEIL_ISUB_R then (intRegOrImm .IsubR imm dst src, usage.set dst i)
  else if opcode < CEIL_ISUB_M then (intMem .IsubM instr dst src, usage.set dst i)
  else if opcode < CEIL_IMUL_R then (intRegOrImm .ImulR imm dst src, usage.set dst i)
  else if opcode < CEIL_IMUL_M then (intMem .ImulM instr dst src, usage.set dst i)
  else if opcode < CEIL_IMULH_R then ({ itype := .ImulhR, dst, src }, usage.set dst i)
  else if opcode < CEIL_IMULH_M then (intMem .ImulhM instr dst src, usage.set dst i)
  else if opcode < CEIL_ISMULH_R then ({ itype := .IsmulhR, dst, src }, usage.set dst i)
  else if opcode < CEIL_ISMULH_M then (intMem .IsmulhM instr dst src, usage.set dst i)
  else if opcode < CEIL_IMUL_RCP then
    if isZeroOrPowerOf2 (instr.imm32.setWidth 64) then ({ itype := .Nop }, usage)
    else ({ itype := .ImulR, dst, src := 8, imm := randomxReciprocal instr.imm32 },
          usage.set dst i)
  else if opcode < CEIL_INEG_R then ({ itype := .InegR, dst }, usage.set dst i)
  else if opcode < CEIL_IXOR_R then (intRegOrImm .IxorR imm dst src, usage.set dst i)
  else if opcode < CEIL_IXOR_M then (intMem .IxorM instr dst src, usage.set dst i)
  else if opcode < CEIL_IROR_R then
    (intRegOrImm .IrorR (instr.imm32.setWidth 64) dst src, usage.set dst i)
  else if opcode < CEIL_IROL_R then
    (intRegOrImm .IrolR (instr.imm32.setWidth 64) dst src, usage.set dst i)
  else if opcode < CEIL_ISWAP_R then
    if src ≠ dst then ({ itype := .IswapR, dst, src }, (usage.set dst i).set src i)
    else ({ itype := .Nop }, usage)
  else if opcode < CEIL_FSWAP_R then
    if dst < REGISTER_COUNT_FLT then ({ itype := .FswapR, dst, fswapIsE := false }, usage)
    else ({ itype := .FswapR, dst := dst - REGISTER_COUNT_FLT, fswapIsE := true }, usage)
  else if opcode < CEIL_FADD_R then ({ itype := .FaddR, dst := fdst, src := fsrc }, usage)
  else if opcode < CEIL_FADD_M then (fltMem .FaddM instr fdst src, usage)
  else if opcode < CEIL_FSUB_R then ({ itype := .FsubR, dst := fdst, src := fsrc }, usage)
  else if opcode < CEIL_FSUB_M then (fltMem .FsubM instr fdst src, usage)
  else if opcode < CEIL_FSCAL_R then ({ itype := .FscalR, dst := fdst }, usage)
  else if opcode < CEIL_FMUL_R then
    ({ itype := .FmulR, dst := fdst, src := fsrc, dstIsE := true }, usage)
  else if opcode < CEIL_FDIV_M then ({ fltMem .FdivM instr fdst src with dstIsE := true }, usage)
  else if opcode < CEIL_FSQRT_R then ({ itype := .FsqrtR, dst := fdst, dstIsE := true }, usage)
  else if opcode < CEIL_CBRANCH then
    let shift := instr.getModCond + CONDITION_OFFSET
    ({ itype := .Cbranch, dst, target := asI16 (usage dst), imm := cbranchImm instr.imm32 shift,
       memMask := CONDITION_MASK <<< shift }, fun _ => i)
  else if opcode < CEIL_CFROUND then
    ({ itype := .Cfround, src, imm := (instr.imm32 &&& 63).setWidth 64 }, usage)
  else
    ({ itype := .Istore, dst, src, imm,
       memMask := if instr.getModCond < STORE_L3_CONDITION then memMaskL1L2 instr
         else SCRATCHPAD_L3_MASK }, usage)

/-- The preallocated bytecode buffer. -/
abbrev BytecodeBuffer := Vector BytecodeInstruction RANDOMX_PROGRAM_SIZE_MAX

/-- The raw instruction at index `i` of a program. -/
def rawInstruction {n : Nat} (programBytes : Vector Byte n) (i : Nat) : RawInstruction :=
  RawInstruction.fromBytes fun k => byteAt programBytes (INSTRUCTIONS_OFFSET + i * 8 + k)

/-- The loop of `compile_program`, from instruction `i` for `count` instructions. -/
def compileFrom {n : Nat} (programBytes : Vector Byte n) :
    (count i : Nat) → RegisterUsage → BytecodeBuffer → RegisterUsage × BytecodeBuffer
  | 0, _, usage, bytecode => (usage, bytecode)
  | count + 1, i, usage, bytecode =>
    let (ibc, usage) := compileInstruction i (rawInstruction programBytes i) usage
    compileFrom programBytes count (i + 1) usage (bytecode.setIfInBounds i ibc)

/-- `compile_program`: fills the first `programSize` entries of `bytecode`. -/
def compileProgram {n : Nat} (programBytes : Vector Byte n) (bytecode : BytecodeBuffer)
    (programSize : Nat) : RegisterUsage × BytecodeBuffer :=
  compileFrom programBytes programSize 0 (fun _ => -1) bytecode

/-- `&bytecode_buf[..program_size]` after `compile_program`: the instructions of the program. -/
def compiled {n : Nat} (programBytes : Vector Byte n) (bytecode : BytecodeBuffer)
    (programSize : Nat) : List BytecodeInstruction :=
  (compileProgram programBytes bytecode programSize).2.toList.take programSize

end RandomX
end MinerTim
