import MinerTim.Lib.LittleEndian

/-!
# `RandomX.Types` — constants, instructions and machine state of the RandomX virtual machine

The data model of `src/randomx/vm.rs`: the constants of its header, the raw and the compiled
instruction, the register file and the program configuration.

An unchecked access of the source (`get_unchecked`, the raw scratchpad pointers) is a *partial*
operation here: it returns `none` when it is out of bounds, where the source has undefined behaviour.
A computation that ends in `some` therefore made no unchecked access outside its buffer.

Doubles are bit patterns. The floating-point unit is a parameter (`FpUnit`): its operations are
functions of the control word (FPCR on aarch64, MXCSR on x86_64) and of the operand bits.
-/

namespace MinerTim
namespace RandomX

/-! ## Constants -/

/-- Instructions of a V1 program. -/
def RANDOMX_PROGRAM_SIZE : Nat := 256

/-- Instructions of a V2 program. -/
def RANDOMX_PROGRAM_SIZE_V2 : Nat := 384

/-- The larger of the two: it sizes the bytecode buffers. -/
def RANDOMX_PROGRAM_SIZE_MAX : Nat := 384

/-- Iterations of a program. -/
def RANDOMX_PROGRAM_ITERATIONS : Nat := 2048

/-- Programs of a hash. -/
def RANDOMX_PROGRAM_COUNT : Nat := 8

/-- Integer registers. -/
def REGISTERS_COUNT : Nat := 8

/-- Registers of each floating-point group. -/
def REGISTER_COUNT_FLT : Nat := 4

/-- Bytes of the scratchpad. -/
def SCRATCHPAD_L3_SIZE : Nat := 2097152

/-- Bytes of its second level. -/
def SCRATCHPAD_L2_SIZE : Nat := 262144

/-- Bytes of its first level. -/
def SCRATCHPAD_L1_SIZE : Nat := 16384

/-- The offsets of doublewords in L1. -/
def SCRATCHPAD_L1_MASK : BitVec 32 := BitVec.ofNat 32 (SCRATCHPAD_L1_SIZE / 8 - 1) * 8

/-- The offsets of doublewords in L2. -/
def SCRATCHPAD_L2_MASK : BitVec 32 := BitVec.ofNat 32 (SCRATCHPAD_L2_SIZE / 8 - 1) * 8

/-- The offsets of doublewords in L3. -/
def SCRATCHPAD_L3_MASK : BitVec 32 := BitVec.ofNat 32 (SCRATCHPAD_L3_SIZE / 8 - 1) * 8

/-- The offsets of 64-byte lines in L3. -/
def SCRATCHPAD_L3_MASK64 : BitVec 32 := BitVec.ofNat 32 (SCRATCHPAD_L3_SIZE / 64 - 1) * 64

/-- Bytes of a cache line, and of a dataset item. -/
def CACHE_LINE_SIZE : Nat := 64

/-- The offsets of a dataset read. -/
def CACHE_LINE_ALIGN_MASK : BitVec 32 := 0x7FFFFFC0

/-- Largest dataset offset of a program, in items. -/
def DATASET_EXTRA_ITEMS : Nat := 524287

/-- Lowest bit at which a branch condition starts (`RANDOMX_JUMP_OFFSET`). -/
def CONDITION_OFFSET : Nat := 8

/-- Bits of a branch condition: `RANDOMX_JUMP_BITS` ones. -/
def CONDITION_MASK : BitVec 32 := (1#32 <<< 8) - 1

/-- From this `mod` condition on, `ISTORE` reaches L3. -/
def STORE_L3_CONDITION : Nat := 14

/-- Bits of the mantissa of a double. -/
def MANTISSA_SIZE : Nat := 52

/-- Bits of its exponent. -/
def EXPONENT_SIZE : Nat := 11

/-- The mantissa of a double. -/
def MANTISSA_MASK : Word := (1#64 <<< MANTISSA_SIZE) - 1

/-- An exponent, at bit 0. -/
def EXPONENT_MASK : Word := (1#64 <<< EXPONENT_SIZE) - 1

/-- The exponent of 1.0. -/
def EXPONENT_BIAS : Word := 1023

/-- Exponent bits of an `e` operand that the scratchpad decides. -/
def DYNAMIC_EXPONENT_BITS : Nat := 4

/-- Exponent bits of an `e` operand that the configuration decides. -/
def STATIC_EXPONENT_BITS : Nat := 4

/-- Exponent bits that every `e` operand has. -/
def CONST_EXPONENT_BITS : Word := 0x300

/-- The bits of an `e` operand that the scratchpad decides. -/
def DYNAMIC_MANTISSA_MASK : Word := (1#64 <<< (MANTISSA_SIZE + DYNAMIC_EXPONENT_BITS)) - 1

/-- Where the entropy of a program starts. -/
def ENTROPY_OFFSET : Nat := 0

/-- Where its instructions start, after 16 words of entropy. -/
def INSTRUCTIONS_OFFSET : Nat := 16 * 8

/-- RandomX algorithm version: `V1` is rx/0, `V2` is rx/2. -/
inductive RxVersion where
  | V1
  | V2
deriving DecidableEq, Repr

/-- `program_size`. -/
def RxVersion.programSize : RxVersion → Nat
  | .V1 => RANDOMX_PROGRAM_SIZE
  | .V2 => RANDOMX_PROGRAM_SIZE_V2

/-- `program_bytes_size`: the entropy and the instructions. -/
def RxVersion.programBytesSize (v : RxVersion) : Nat := INSTRUCTIONS_OFFSET + v.programSize * 8

theorem RxVersion.programSize_le_max (v : RxVersion) :
    v.programSize ≤ RANDOMX_PROGRAM_SIZE_MAX := by
  cases v <;> decide

/-! ### Opcode ceilings (cumulative frequencies) -/

/-- The end of `IADD_RS`. -/
def CEIL_IADD_RS : Nat := 16

/-- The end of `IADD_M`. -/
def CEIL_IADD_M : Nat := CEIL_IADD_RS + 7

/-- The end of `ISUB_R`. -/
def CEIL_ISUB_R : Nat := CEIL_IADD_M + 16

/-- The end of `ISUB_M`. -/
def CEIL_ISUB_M : Nat := CEIL_ISUB_R + 7

/-- The end of `IMUL_R`. -/
def CEIL_IMUL_R : Nat := CEIL_ISUB_M + 16

/-- The end of `IMUL_M`. -/
def CEIL_IMUL_M : Nat := CEIL_IMUL_R + 4

/-- The end of `IMULH_R`. -/
def CEIL_IMULH_R : Nat := CEIL_IMUL_M + 4

/-- The end of `IMULH_M`. -/
def CEIL_IMULH_M : Nat := CEIL_IMULH_R + 1

/-- The end of `ISMULH_R`. -/
def CEIL_ISMULH_R : Nat := CEIL_IMULH_M + 4

/-- The end of `ISMULH_M`. -/
def CEIL_ISMULH_M : Nat := CEIL_ISMULH_R + 1

/-- The end of `IMUL_RCP`. -/
def CEIL_IMUL_RCP : Nat := CEIL_ISMULH_M + 8

/-- The end of `INEG_R`. -/
def CEIL_INEG_R : Nat := CEIL_IMUL_RCP + 2

/-- The end of `IXOR_R`. -/
def CEIL_IXOR_R : Nat := CEIL_INEG_R + 15

/-- The end of `IXOR_M`. -/
def CEIL_IXOR_M : Nat := CEIL_IXOR_R + 5

/-- The end of `IROR_R`. -/
def CEIL_IROR_R : Nat := CEIL_IXOR_M + 8

/-- The end of `IROL_R`. -/
def CEIL_IROL_R : Nat := CEIL_IROR_R + 2

/-- The end of `ISWAP_R`. -/
def CEIL_ISWAP_R : Nat := CEIL_IROL_R + 4

/-- The end of `FSWAP_R`. -/
def CEIL_FSWAP_R : Nat := CEIL_ISWAP_R + 4

/-- The end of `FADD_R`. -/
def CEIL_FADD_R : Nat := CEIL_FSWAP_R + 16

/-- The end of `FADD_M`. -/
def CEIL_FADD_M : Nat := CEIL_FADD_R + 5

/-- The end of `FSUB_R`. -/
def CEIL_FSUB_R : Nat := CEIL_FADD_M + 16

/-- The end of `FSUB_M`. -/
def CEIL_FSUB_M : Nat := CEIL_FSUB_R + 5

/-- The end of `FSCAL_R`. -/
def CEIL_FSCAL_R : Nat := CEIL_FSUB_M + 6

/-- The end of `FMUL_R`. -/
def CEIL_FMUL_R : Nat := CEIL_FSCAL_R + 32

/-- The end of `FDIV_M`. -/
def CEIL_FDIV_M : Nat := CEIL_FMUL_R + 4

/-- The end of `FSQRT_R`. -/
def CEIL_FSQRT_R : Nat := CEIL_FDIV_M + 6

/-- The end of `CBRANCH`. -/
def CEIL_CBRANCH : Nat := CEIL_FSQRT_R + 25

/-- The end of `CFROUND`. -/
def CEIL_CFROUND : Nat := CEIL_CBRANCH + 1

/-- The end of `ISTORE`. -/
def CEIL_ISTORE : Nat := CEIL_CFROUND + 16

-- the ceilings cover the opcode byte exactly, so that `ISTORE` is the last branch of the decoder
example : CEIL_ISTORE = 256 := rfl

/-! ## Instructions -/

/-- The instructions that the decoder tells apart. `IMUL_RCP` is compiled to an `ImulR` or a `Nop`. -/
inductive InstructionType where
  | IaddRs | IaddM | IsubR | IsubM | ImulR | ImulM | ImulhR | ImulhM | IsmulhR | IsmulhM
  | InegR | IxorR | IxorM | IrorR | IrolR | IswapR
  | FswapR | FaddR | FaddM | FsubR | FsubM | FscalR | FmulR | FdivM | FsqrtR
  | Cbranch | Cfround | Istore | Nop
deriving DecidableEq, Repr

/-- The 8 bytes of an instruction as they stand in the program. -/
structure RawInstruction where
  opcode : Byte
  dst : Byte
  src : Byte
  mod_ : Byte
  imm32 : BitVec 32
deriving DecidableEq, Repr

namespace RawInstruction

/-- `from_bytes`: four bytes and a little-endian word. -/
def fromBytes (data : Nat → Byte) : RawInstruction where
  opcode := data 0
  dst := data 1
  src := data 2
  mod_ := data 3
  imm32 := leWord32 fun k => data (4 + k)

/-- `mod` bits 0 to 1: zero selects L2. -/
def getModMem (i : RawInstruction) : Nat := i.mod_.toNat % 4

/-- `mod` bits 2 to 3: the shift of `IADD_RS`. -/
def getModShift (i : RawInstruction) : Nat := (i.mod_ >>> 2).toNat % 4

/-- `mod` bits 4 to 7: the condition of `CBRANCH` and the level of `ISTORE`. -/
def getModCond (i : RawInstruction) : Nat := (i.mod_ >>> 4).toNat

theorem getModShift_lt (i : RawInstruction) : i.getModShift < 4 := Nat.mod_lt _ (by decide)

theorem getModCond_lt (i : RawInstruction) : i.getModCond < 16 := by
  have h := i.mod_.isLt
  simp only [getModCond, BitVec.toNat_ushiftRight, Nat.shiftRight_eq_div_pow]
  omega

end RawInstruction

/-- A compiled instruction. `src = 8` stands for "no register": the operand is zero or `imm`. -/
structure BytecodeInstruction where
  itype : InstructionType := .Nop
  dst : Nat := 0
  src : Nat := 0
  imm : Word := 0
  memMask : BitVec 32 := 0
  shift : Nat := 0
  target : Int := 0
  dstIsE : Bool := false
  fswapIsE : Bool := false
deriving DecidableEq, Repr

/-- `BytecodeInstruction::new`: a `Nop` with every field at its default. -/
def BytecodeInstruction.new : BytecodeInstruction := {}

/-! ## Register file and configuration -/

/-- A pair of doubles, low lane first, as bit patterns. -/
abbrev F128 := Word × Word

/-- The register file: `r` integer, `f` additive, `e` multiplicative, `a` constant. -/
structure NativeRegisterFile where
  r : Vector Word 8
  f : Vector F128 4
  e : Vector F128 4
  a : Vector F128 4
deriving DecidableEq, Repr

namespace NativeRegisterFile

/-- All registers zero. -/
def new : NativeRegisterFile where
  r := Vector.replicate 8 0
  f := Vector.replicate 4 (0, 0)
  e := Vector.replicate 4 (0, 0)
  a := Vector.replicate 4 (0, 0)

/-! Unchecked register access. -/

/-- Unchecked read of `r[i]`. -/
def getR (n : NativeRegisterFile) (i : Nat) : Option Word := n.r[i]?

/-- Unchecked read of `f[i]`. -/
def getF (n : NativeRegisterFile) (i : Nat) : Option F128 := n.f[i]?

/-- Unchecked read of `e[i]`. -/
def getE (n : NativeRegisterFile) (i : Nat) : Option F128 := n.e[i]?

/-- Unchecked read of `a[i]`. -/
def getA (n : NativeRegisterFile) (i : Nat) : Option F128 := n.a[i]?

/-- Unchecked write of `r[i]`. -/
def setR (n : NativeRegisterFile) (i : Nat) (v : Word) : Option NativeRegisterFile :=
  if h : i < 8 then some { n with r := n.r.set i v h } else none

/-- Unchecked write of `f[i]`. -/
def setF (n : NativeRegisterFile) (i : Nat) (v : F128) : Option NativeRegisterFile :=
  if h : i < 4 then some { n with f := n.f.set i v h } else none

/-- Unchecked write of `e[i]`. -/
def setE (n : NativeRegisterFile) (i : Nat) (v : F128) : Option NativeRegisterFile :=
  if h : i < 4 then some { n with e := n.e.set i v h } else none

end NativeRegisterFile

/-- What the entropy of a program fixes for its run: the two e-masks and the four address registers. -/
structure ProgramConfiguration where
  eMask : Vector Word 2
  readReg0 : Nat
  readReg1 : Nat
  readReg2 : Nat
  readReg3 : Nat
deriving DecidableEq, Repr

/-- The e-mask of the low lane. -/
abbrev ProgramConfiguration.eMask0 (config : ProgramConfiguration) : Word := config.eMask[0]

/-- The e-mask of the high lane. -/
abbrev ProgramConfiguration.eMask1 (config : ProgramConfiguration) : Word := config.eMask[1]

/-! ## Scratchpad -/

/-- The scratchpad of a VM. -/
abbrev Scratchpad := Vector Byte SCRATCHPAD_L3_SIZE

/-- Unchecked 8-byte read. -/
def load64 (scratchpad : Scratchpad) (offset : Nat) : Option Word :=
  if offset + 8 ≤ SCRATCHPAD_L3_SIZE then some (leWord fun k => byteAt scratchpad (offset + k))
  else none

/-- Unchecked 8-byte write. -/
def store64 (scratchpad : Scratchpad) (offset : Nat) (val : Word) : Option Scratchpad :=
  if offset + 8 ≤ SCRATCHPAD_L3_SIZE then some (store scratchpad offset 8 (byteOf val)) else none

/-- Unchecked 4-byte read of a signed integer. -/
def loadI32 (scratchpad : Scratchpad) (offset : Nat) : Option (BitVec 32) :=
  if offset + 4 ≤ SCRATCHPAD_L3_SIZE then some (leWord32 fun k => byteAt scratchpad (offset + k))
  else none

/-! ## Floating-point unit -/

/-- The hardware floating-point unit: double-precision arithmetic under a 32-bit control word, and what
    `set_rounding_mode` does to that word. -/
structure FpUnit where
  fadd : BitVec 32 → Word → Word → Word
  fsub : BitVec 32 → Word → Word → Word
  fmul : BitVec 32 → Word → Word → Word
  fdiv : BitVec 32 → Word → Word → Word
  fsqrt : BitVec 32 → Word → Word
  /-- `i32 as f64`. -/
  ofI32 : BitVec 32 → BitVec 32 → Word
  setRoundingMode : BitVec 32 → BitVec 32 → BitVec 32

/-- `set_rounding_mode` on aarch64: a read-modify-write of FPCR that sets FZ and RMode. -/
def setRoundingModeAarch64 (fpcr mode : BitVec 32) : BitVec 32 :=
  let armMode : BitVec 32 := match (mode &&& 3).toNat with
    | 0 => 0
    | 1 => 2
    | 2 => 1
    | _ => 3
  (fpcr &&& ~~~(0x7#32 <<< 22)) ||| (1#32 <<< 24) ||| (armMode <<< 22)

/-! ## Helper functions -/

/-- `sign_extend_2s_compl`. -/
def signExtend2sCompl (x : BitVec 32) : Word := x.signExtend 64

/-- The high word of the unsigned product. -/
def mulh (a b : Word) : Word := ((a.setWidth 128 * b.setWidth 128) >>> 64).setWidth 64

/-- The high word of the signed product. -/
def smulh (a b : Word) : Word := ((a.signExtend 128 * b.signExtend 128) >>> 64).setWidth 64

/-- Rotation to the right by the low six bits of `count`. -/
def rotr64 (val count : Word) : Word := val.rotateRight (count &&& 63).toNat

/-- Rotation to the left by the low six bits of `count`. -/
def rotl64 (val count : Word) : Word := val.rotateLeft (count &&& 63).toNat

/-- Whether `x` is zero or a power of two. -/
def isZeroOrPowerOf2 (x : Word) : Bool := (x &&& (x - 1)) == 0

/-- A double of exponent 0 to 31: the initial value of an `a` lane. -/
def getSmallPositiveFloatBits (entropy : Word) : Word :=
  let exponent := entropy >>> 59
  let mantissa := entropy &&& MANTISSA_MASK
  let exp := ((exponent + EXPONENT_BIAS) &&& EXPONENT_MASK) <<< MANTISSA_SIZE
  exp ||| mantissa

/-- The exponent bits of an e-mask. -/
def getStaticExponent (entropy : Word) : Word :=
  (CONST_EXPONENT_BITS ||| (entropy >>> (64 - STATIC_EXPONENT_BITS)) <<< DYNAMIC_EXPONENT_BITS)
    <<< MANTISSA_SIZE

/-- An e-mask: 22 mantissa bits of entropy under a static exponent. -/
def getFloatMask (entropy : Word) : Word :=
  let mask22bit := (1#64 <<< 22) - 1
  (entropy &&& mask22bit) ||| getStaticExponent entropy

/-- Two signed 32-bit integers from the scratchpad, converted to doubles. -/
def cvtPackedIntVecF128 (fp : FpUnit) (ctl : BitVec 32) (scratchpad : Scratchpad) (offset : Nat) :
    Option F128 := do
  let loI32 ← loadI32 scratchpad offset
  let hiI32 ← loadI32 scratchpad (offset + 4)
  return (fp.ofI32 ctl loI32, fp.ofI32 ctl hiI32)

/-- The masks that make an `e` operand of two converted doubles. -/
def maskRegisterExponentMantissa (config : ProgramConfiguration) (x : F128) : F128 :=
  ((x.1 &&& DYNAMIC_MANTISSA_MASK) ||| config.eMask0,
   (x.2 &&& DYNAMIC_MANTISSA_MASK) ||| config.eMask1)

/-- Lane-wise XOR. -/
def xorF128 (a b : F128) : F128 := (a.1 ^^^ b.1, a.2 ^^^ b.2)

/-- The lanes swapped. -/
def swapF128 (a : F128) : F128 := (a.2, a.1)

/-- Unchecked store of a pair of doubles, 16 bytes. -/
def storeF128 (scratchpad : Scratchpad) (offset : Nat) (val : F128) : Option Scratchpad := do
  let scratchpad ← store64 scratchpad offset val.1
  store64 scratchpad (offset + 8) val.2

/-- `randomx_reciprocal` (`superscalar.rs`): `2^x / divisor` for the largest `x` whose result is
    below `2^64`. The shifts and the addition are those of `u64`; the divisor is asserted non-zero. -/
def randomxReciprocal (divisor : BitVec 32) : Word :=
  let p2exp63 := 1#64 <<< 63
  let d : Word := divisor.setWidth 64
  let q := p2exp63 / d
  let r := p2exp63 % d
  let shift := 64 - d.clz.toNat
  (q <<< shift) + ((r <<< shift) / d)

end RandomX
end MinerTim
