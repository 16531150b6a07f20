import MinerTim.RandomX.Aes
import MinerTim.RandomX.Compile
import MinerTim.RandomX.Dataset
import MinerTim.RandomX.Execute

/-!
# `RandomX.VmLoop` — running one program (`execute_vm_inner`)

`iteration` is the body of the loop of `execute_vm_inner`. What it calls is a parameter: `body`, which
executes the bytecode, and `line`, which reads a dataset item. `executeVmInner` instantiates them: the
body is the interpreter or the per-iteration native code, a dataset item comes from the dataset or is
computed from the cache, and the native loop, where it applies, replaces the loop altogether.

As in `RandomX.Execute`, an unchecked access out of bounds yields `none`; so does a panic. The prefetches
are left out: they change nothing.
-/

namespace MinerTim
namespace RandomX

/-! ## Program parameters -/

/-- `entropy(idx)`. -/
def entropy {n : Nat} (programBytes : Vector Byte n) (idx : Nat) : Word :=
  leWord fun k => byteAt programBytes (ENTROPY_OFFSET + idx * 8 + k)

/-- What `execute_vm_inner` reads from the entropy of a program. -/
structure ProgramParams where
  config : ProgramConfiguration
  ma : BitVec 32
  mx : BitVec 32
  datasetOffset : Word

/-- `derive_program_params`. -/
def deriveProgramParams {n : Nat} (programBytes : Vector Byte n) : ProgramParams :=
  let addressRegisters := entropy programBytes 12
  { ma := (entropy programBytes 8).setWidth 32 &&& CACHE_LINE_ALIGN_MASK
    mx := (entropy programBytes 10).setWidth 32
    config :=
      { eMask := #v[getFloatMask (entropy programBytes 14), getFloatMask (entropy programBytes 15)]
        readReg0 := (addressRegisters &&& 1).toNat
        readReg1 := 2 + ((addressRegisters >>> 1) &&& 1).toNat
        readReg2 := 4 + ((addressRegisters >>> 2) &&& 1).toNat
        readReg3 := 6 + ((addressRegisters >>> 3) &&& 1).toNat }
    datasetOffset := entropy programBytes 13 % BitVec.ofNat 64 (DATASET_EXTRA_ITEMS + 1)
      * BitVec.ofNat 64 CACHE_LINE_SIZE }

/-- The loop-carried state. -/
structure LoopState where
  ma : BitVec 32
  mx : BitVec 32
  spAddr0 : BitVec 32
  spAddr1 : BitVec 32
deriving DecidableEq, Repr

/-! ## The parts of an iteration -/

/-- `for i in 0..n`. -/
def forRange (n : Nat) (f : Nat → VmState → Option VmState) (s : VmState) : Option VmState :=
  (List.range n).foldlM (fun s i => f i s) s

/-- `*nreg.r_mut(i) ^= load64(scratchpad, addr + 8 * i)`, for the eight registers. -/
def loadR (s : VmState) (addr : Nat) : Option VmState :=
  forRange REGISTERS_COUNT (fun i s => do
    s.setR i ((← s.getR i) ^^^ (← load64 s.scratchpad (addr + 8 * i)))) s

/-- `*nreg.f_mut(i) = cvt_packed_int_vec_f128(…)`, for the four registers. -/
def loadF (fp : FpUnit) (s : VmState) (addr : Nat) : Option VmState :=
  forRange REGISTER_COUNT_FLT (fun i s => do
    s.setF i (← cvtPackedIntVecF128 fp s.ctl s.scratchpad (addr + 8 * i))) s

/-- `*nreg.e_mut(i) = mask_register_exponent_mantissa(…)`, for the four registers. -/
def loadE (fp : FpUnit) (config : ProgramConfiguration) (s : VmState) (addr : Nat) :
    Option VmState :=
  forRange REGISTER_COUNT_FLT (fun i s => do
    let v ← cvtPackedIntVecF128 fp s.ctl s.scratchpad (addr + 8 * (REGISTER_COUNT_FLT + i))
    s.setE i (maskRegisterExponentMantissa config v)) s

/-- `*nreg.r_mut(i) ^= dataset_line[i]`. -/
def mixDatasetLine (s : VmState) (l : Line) : Option VmState :=
  forRange REGISTERS_COUNT (fun i s => do s.setR i ((← s.getR i) ^^^ (← l[i]?))) s

/-- `store64(scratchpad, addr + 8 * i, nreg.r(i))`, for the eight registers. -/
def storeR (s : VmState) (addr : Nat) : Option VmState :=
  forRange REGISTERS_COUNT (fun i s => do
    return { s with scratchpad := ← store64 s.scratchpad (addr + 8 * i) (← s.getR i) }) s

/-- `store_f128(scratchpad, addr + 16 * i, nreg.f(i))`, for the four registers. -/
def storeF (s : VmState) (addr : Nat) : Option VmState :=
  forRange REGISTER_COUNT_FLT (fun i s => do
    return { s with scratchpad := ← storeF128 s.scratchpad (addr + 16 * i) (← s.nreg.getF i) }) s

/-- `f[i] ^= e[i]`. -/
def xorFE (s : VmState) : Option VmState :=
  forRange REGISTER_COUNT_FLT (fun i s => do
    s.setF i (xorF128 (← s.nreg.getF i) (← s.nreg.getE i))) s

/-- The 16 bytes of a register, low lane first. -/
def f128ToBytes (v : F128) : Block :=
  Vector.ofFn fun k => if k.val < 8 then byteOf v.1 k else byteOf v.2 (k - 8)

/-- The register of 16 bytes. -/
def bytesToF128 (b : Block) : F128 := (leWord fun k => byteAt b k, leWord fun k => byteAt b (8 + k))

/-- `aes_mix_f_e`. -/
def aesMixFE (aes : AesRounds) (nreg : NativeRegisterFile) : NativeRegisterFile :=
  { nreg with f := (aesMixFe aes (nreg.f.map f128ToBytes) (nreg.e.map f128ToBytes)).map bytesToF128 }

/-- Combine f with e: V1 XORs, V2 runs four AES rounds. -/
def combineFE (aes : AesRounds) (version : RxVersion) (s : VmState) : Option VmState :=
  match version with
  | .V1 => xorFE s
  | .V2 => some { s with nreg := aesMixFE aes s.nreg }

/-! ## The loop -/

section

variable (fp : FpUnit) (aes : AesRounds) (version : RxVersion) (params : ProgramParams)
  (body : VmState → Option VmState) (line : Word → Option Line)

/-- The address of the dataset item of an iteration. -/
def readPtr (datasetOffset : Word) (memMa : BitVec 32) : Word :=
  datasetOffset + (memMa.setWidth 64 &&& CACHE_LINE_ALIGN_MASK.setWidth 64)

/-- One iteration of the main loop. -/
def iteration (s : VmState) (l : LoopState) : Option (VmState × LoopState) := do
  let config := params.config
  let spMix := (← s.getR config.readReg0) ^^^ (← s.getR config.readReg1)
  let spAddr0 := (l.spAddr0 ^^^ spMix.setWidth 32) &&& SCRATCHPAD_L3_MASK64
  let spAddr1 := (l.spAddr1 ^^^ (spMix >>> 32).setWidth 32) &&& SCRATCHPAD_L3_MASK64
  let s ← loadR s spAddr0.toNat
  let s ← loadF fp s spAddr1.toNat
  let s ← loadE fp config s spAddr1.toNat
  let s ← body s
  let readPtr := readPtr params.datasetOffset l.ma
  let spMix2 := ((← s.getR config.readReg2) ^^^ (← s.getR config.readReg3)).setWidth 32
  let (memMx, memMa) := match version with
    | .V1 => (l.mx ^^^ spMix2, l.ma)
    | .V2 => (l.mx, l.ma ^^^ spMix2)
  let datasetLine ← line (readPtr / BitVec.ofNat 64 CACHE_LINE_SIZE)
  let s ← mixDatasetLine s datasetLine
  let s ← storeR s spAddr1.toNat
  let s ← combineFE aes version s
  let s ← storeF s spAddr0.toNat
  -- `mx` and `ma` are swapped
  return (s, { ma := memMx, mx := memMa, spAddr0 := 0, spAddr1 := 0 })

/-- `for _ic in 0..iterations`. -/
def iterate : (iterations : Nat) → VmState × LoopState → Option (VmState × LoopState)
  | 0, c => some c
  | iterations + 1, c => do
    iterate iterations (← iteration fp aes version params body line c.1 c.2)

end

/-! ## The function -/

/-- What the native code of the aarch64 JIT does when it is called: the body function on the emitted
    body of a program, and the loop function on a whole program. -/
structure NativeCode where
  body : List BytecodeInstruction → RxVersion → ProgramConfiguration → VmState → Option VmState
  loop : List BytecodeInstruction → ProgramParams → RandomXDataset → (iterations : Nat) → VmState →
    Option (VmState × LoopState)

/-- `native_loop_applies`. -/
def nativeLoopApplies (useNativeLoop : Bool) (version : RxVersion) (hasDataset hasJit : Bool) :
    Bool :=
  useNativeLoop && version = .V1 && hasDataset && hasJit

/-- Where dataset items come from. -/
def datasetLine (cacheMemory : List Byte) (programs : Vector SuperscalarProgram 8)
    (dataset : Option RandomXDataset) (itemNumber : Word) : Option Line :=
  match dataset with
  | some ds => ds.getItem itemNumber
  | none => initDatasetItem cacheMemory programs itemNumber

/-- The registers at the start of a program: `r` is zero, `a` comes from the entropy, `f` and `e` are
    left as they were. -/
def initRegisters {n : Nat} (programBytes : Vector Byte n) (nreg : NativeRegisterFile) :
    NativeRegisterFile :=
  { nreg with
    r := Vector.replicate 8 0
    a := Vector.ofFn fun i =>
      (getSmallPositiveFloatBits (entropy programBytes (i * 2)),
        getSmallPositiveFloatBits (entropy programBytes (i * 2 + 1))) }

/-- What `execute_vm_inner` is called with, besides the machine state. -/
structure VmContext where
  cacheMemory : List Byte
  ssPrograms : Vector SuperscalarProgram 8
  dataset : Option RandomXDataset
  jit : Option NativeCode
  useNativeLoop : Bool

/-- `execute_vm_inner`: the final state, the bytecode buffer, and the loop-carried state. -/
def executeVmInner (fp : FpUnit) (aes : AesRounds) (ctx : VmContext) (version : RxVersion)
    {n : Nat} (programBytes : Vector Byte n) (iterations : Nat) (bytecodeBuf : BytecodeBuffer)
    (s : VmState) : Option (VmState × BytecodeBuffer × LoopState) := do
  let s := { s with nreg := initRegisters programBytes s.nreg }
  let params := deriveProgramParams programBytes
  let programSize := version.programSize
  let bytecodeBuf := (compileProgram programBytes bytecodeBuf programSize).2
  let bytecode := bytecodeBuf.toList.take programSize
  let (s, l) ← match ctx.dataset, ctx.jit,
      nativeLoopApplies ctx.useNativeLoop version ctx.dataset.isSome ctx.jit.isSome with
    | some ds, some jit, true => jit.loop bytecode params ds iterations s
    | _, jit, _ =>
      let body := match jit with
        | some jit => jit.body bytecode version params.config
        | none => executeBytecode fp params.config version bytecode
      iterate fp aes version params body
        (datasetLine ctx.cacheMemory ctx.ssPrograms ctx.dataset) iterations
        (s, { ma := params.ma, mx := params.mx, spAddr0 := params.mx, spAddr1 := params.ma })
  return (s, bytecodeBuf, l)

end RandomX
end MinerTim
