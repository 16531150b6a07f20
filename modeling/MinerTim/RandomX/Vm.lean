import MinerTim.RandomX.VmLoop

/-!
# `RandomX.Vm` — the hash functions and the cached VM (`RandomXVm`)

`calculateHashVersioned` is the one-shot light-mode hash. `RandomXVm` keeps its buffers between calls:
`calculateHash` hashes one input, and `prepareScratchpad` followed by `calculateHashPipelined` hashes a
sequence, filling the scratchpad for the next input while it hashes the current one.

What lies below is a parameter (`Platform`): the hash functions, the cache and program generators, the
AES rounds and the floating-point unit. A call takes the floating-point control word of its caller and
returns the word it leaves. `none` is a panic, or an access out of bounds.
-/

namespace MinerTim
namespace RandomX

/-- The primitives a VM is built on. -/
structure Platform where
  fp : FpUnit
  aes : AesRounds
  blake2b512 : List Byte → Vector Byte 64
  /-- `blake2b(32, ·)`. -/
  blake2b256 : List Byte → Vector Byte 32
  argon2dCache : List Byte → List Byte
  /-- The eight `generate_superscalar` calls on `Blake2Generator::new(key, 0)`. -/
  superscalarPrograms : List Byte → Vector SuperscalarProgram 8

/-! ## Register file and bytes -/

/-- The 16 bytes of each register of a class, in order. -/
def serializeF128s (v : Vector F128 4) : List Byte :=
  v.toList.flatMap fun x => (f128ToBytes x).toList

/-- `serialize_register_file`: `r`, `f`, `e`, `a`, little-endian. -/
def serializeRegisterFile (nreg : NativeRegisterFile) : List Byte :=
  nreg.r.toList.flatMap (fun w => (List.range 8).map (byteOf w))
    ++ serializeF128s nreg.f ++ serializeF128s nreg.e ++ serializeF128s nreg.a

/-- Overwrite the `a` registers with the AES hash of the scratchpad. -/
def withAesHash (nreg : NativeRegisterFile) (aesHash : Vector Byte 64) : NativeRegisterFile :=
  { nreg with
    a := Vector.ofFn fun i =>
      (leWord fun k => byteAt aesHash (i * 16 + k), leWord fun k => byteAt aesHash (i * 16 + 8 + k)) }

/-! ## The program chains -/

variable (p : Platform) {version : RxVersion}

/-- What the chain loop carries: the machine, the seed of the next program, and two reused buffers. -/
structure ChainState (version : RxVersion) where
  s : VmState
  tempHash : Vector Byte 64
  programBytes : Vector Byte version.programBytesSize
  bytecode : BytecodeBuffer

/-- One program chain: generate the program, run it, and derive the next seed. -/
def runChain (ctx : VmContext) (c : ChainState version) (chain : Nat) :
    Option (ChainState version) := do
  let programBytes := fillAes4Rx4 p.aes c.tempHash c.programBytes
  let (s, bytecode, _) ← executeVmInner p.fp p.aes ctx version programBytes
    RANDOMX_PROGRAM_ITERATIONS c.bytecode c.s
  let tempHash :=
    if chain < RANDOMX_PROGRAM_COUNT - 1 then p.blake2b512 (serializeRegisterFile s.nreg)
    else c.tempHash
  return { s, tempHash, programBytes, bytecode }

/-- `for chain in 0..RANDOMX_PROGRAM_COUNT`. -/
def runChains (ctx : VmContext) (c : ChainState version) : Option (ChainState version) :=
  (List.range RANDOMX_PROGRAM_COUNT).foldlM (runChain p ctx) c

/-- The machine at the start of a hash: fresh registers, rounding to nearest. -/
def startState (scratchpad : Scratchpad) (ctl : BitVec 32) : VmState :=
  { nreg := NativeRegisterFile.new, scratchpad, ctl := p.fp.setRoundingMode ctl 0 }

/-! ## One-shot -/

/-- `calculate_hash_versioned`: the hash and the control word it leaves. -/
def calculateHashVersioned (key input : List Byte) (version : RxVersion) (ctl : BitVec 32) :
    Option (Vector Byte 32 × BitVec 32) := do
  let savedRm := ctl
  let cacheMemory := p.argon2dCache key
  let ssPrograms := p.superscalarPrograms key
  let tempHash := p.blake2b512 input
  let scratchpad : Scratchpad := Vector.replicate SCRATCHPAD_L3_SIZE 0
  let filled := fillAes1Rx4 p.aes tempHash scratchpad
  let start : ChainState version :=
    { s := startState p filled.2 ctl, tempHash := filled.1, programBytes := Vector.replicate _ 0,
      bytecode := Vector.replicate _ BytecodeInstruction.new }
  let c ← runChains p
    { cacheMemory, ssPrograms, dataset := none, jit := none, useNativeLoop := false } start
  let nreg := withAesHash c.s.nreg (hashAes1Rx4 p.aes c.s.scratchpad)
  return (p.blake2b256 (serializeRegisterFile nreg), savedRm)

/-! ## The cached VM -/

/-- `RandomXVm`, of one algorithm version. -/
structure RandomXVm (version : RxVersion) where
  cacheMemory : List Byte
  ssPrograms : Vector SuperscalarProgram 8
  dataset : Option RandomXDataset
  scratchpad : Scratchpad
  programBytes : Vector Byte version.programBytesSize
  bytecode : BytecodeBuffer
  nreg : NativeRegisterFile
  pipelineState : Vector Byte 64
  jit : Option NativeCode
  useNativeLoop : Bool

namespace RandomXVm

/-- `new_versioned`: a light-mode VM. The JIT is missing where its memory cannot be allocated. -/
def newVersioned (key : List Byte) (version : RxVersion) (jit : Option NativeCode) :
    RandomXVm version where
  cacheMemory := p.argon2dCache key
  ssPrograms := p.superscalarPrograms key
  dataset := none
  scratchpad := Vector.replicate _ 0
  programBytes := Vector.replicate _ 0
  bytecode := Vector.replicate _ BytecodeInstruction.new
  nreg := NativeRegisterFile.new
  pipelineState := Vector.replicate _ 0
  jit := jit
  useNativeLoop := true

/-- `new_full_versioned`: a full-mode VM, which builds no cache. -/
def newFullVersioned (key : List Byte) (dataset : RandomXDataset) (version : RxVersion)
    (jit : Option NativeCode) : RandomXVm version where
  cacheMemory := []
  ssPrograms := p.superscalarPrograms key
  dataset := some dataset
  scratchpad := Vector.replicate _ 0
  programBytes := Vector.replicate _ 0
  bytecode := Vector.replicate _ BytecodeInstruction.new
  nreg := NativeRegisterFile.new
  pipelineState := Vector.replicate _ 0
  jit := jit
  useNativeLoop := true

/-- `reinit`. -/
def reinit (vm : RandomXVm version) (key : List Byte) (dataset : Option RandomXDataset) :
    RandomXVm version :=
  { vm with
    cacheMemory := match dataset with
      | some _ => []
      | none => p.argon2dCache key
    ssPrograms := p.superscalarPrograms key
    dataset := dataset }

/-- `set_native_loop`. -/
def setNativeLoop (vm : RandomXVm version) (enabled : Bool) : RandomXVm version :=
  { vm with useNativeLoop := enabled }

/-- What the VM passes to `execute_vm`. -/
def context (vm : RandomXVm version) : VmContext where
  cacheMemory := vm.cacheMemory
  ssPrograms := vm.ssPrograms
  dataset := vm.dataset
  jit := vm.jit
  useNativeLoop := vm.useNativeLoop

/-- The buffers that a fill overwrites. -/
def withFill (vm : RandomXVm version) (filled : Vector Byte 64 × Scratchpad) : RandomXVm version :=
  { vm with scratchpad := filled.2, pipelineState := filled.1 }

/-- The buffers that the chains of a hash overwrite. -/
def withChains (vm : RandomXVm version) (c : ChainState version) (nreg : NativeRegisterFile) :
    RandomXVm version :=
  { vm with
    scratchpad := c.s.scratchpad, programBytes := c.programBytes, bytecode := c.bytecode, nreg }

/-- `calculate_hash`: the hash, the VM and the control word after the call. -/
def calculateHash (vm : RandomXVm version) (ctl : BitVec 32) (input : List Byte) :
    Option (Vector Byte 32 × RandomXVm version × BitVec 32) := do
  let savedRm := ctl
  let filled := fillAes1Rx4 p.aes (p.blake2b512 input) vm.scratchpad
  let c ← runChains p vm.context
    { s := startState p filled.2 ctl, tempHash := filled.1, programBytes := vm.programBytes,
      bytecode := vm.bytecode }
  let nreg := withAesHash c.s.nreg (hashAes1Rx4 p.aes c.s.scratchpad)
  return (p.blake2b256 (serializeRegisterFile nreg), vm.withChains c nreg, savedRm)

/-- `calculate_hash_pipelined`: the hash of the prepared input, while filling for `nextInput`. -/
def calculateHashPipelined (vm : RandomXVm version) (ctl : BitVec 32) (nextInput : List Byte) :
    Option (Vector Byte 32 × RandomXVm version × BitVec 32) := do
  let savedRm := ctl
  let c ← runChains p vm.context
    { s := startState p vm.scratchpad ctl, tempHash := vm.pipelineState,
      programBytes := vm.programBytes, bytecode := vm.bytecode }
  let fused := hashAndFillAes1Rx4 p.aes c.s.scratchpad (Vector.replicate 64 0)
    (p.blake2b512 nextInput)
  let nreg := withAesHash c.s.nreg fused.2.1
  return (p.blake2b256 (serializeRegisterFile nreg),
    (vm.withChains c nreg).withFill (fused.2.2, fused.1), savedRm)

/-- `prepare_scratchpad`. -/
def prepareScratchpad (vm : RandomXVm version) (input : List Byte) : RandomXVm version :=
  vm.withFill (fillAes1Rx4 p.aes (p.blake2b512 input) vm.scratchpad)

/-- `calculate_hash_pipelined` on each input in turn: the hashes, in order, and the VM at the end. -/
def hashPipelined (vm : RandomXVm version) (ctl : BitVec 32) :
    List (List Byte) → Option (List (Vector Byte 32) × RandomXVm version)
  | [] => some ([], vm)
  | nextInput :: inputs => do
    let (hash, vm, ctl) ← vm.calculateHashPipelined p ctl nextInput
    let (hashes, vm) ← hashPipelined vm ctl inputs
    return (hash :: hashes, vm)

/-! ## Operations -/

/-- The calls a caller can make on a VM. -/
inductive Op where
  | calculateHash (input : List Byte)
  | prepareScratchpad (input : List Byte)
  | calculateHashPipelined (nextInput : List Byte)
  | reinit (key : List Byte) (dataset : Option RandomXDataset)
  | setNativeLoop (enabled : Bool)

/-- The VM after a call made under a control word. -/
def apply (vm : RandomXVm version) (ctl : BitVec 32) : Op → Option (RandomXVm version)
  | .calculateHash input => (vm.calculateHash p ctl input).map (·.2.1)
  | .prepareScratchpad input => some (vm.prepareScratchpad p input)
  | .calculateHashPipelined nextInput => (vm.calculateHashPipelined p ctl nextInput).map (·.2.1)
  | .reinit key dataset => some (vm.reinit p key dataset)
  | .setNativeLoop enabled => some (vm.setNativeLoop enabled)

/-- The VM after a sequence of calls, each made under a control word of its own. -/
def applyAll (vm : RandomXVm version) : List (BitVec 32 × Op) → Option (RandomXVm version)
  | [] => some vm
  | (ctl, op) :: ops => do applyAll (← vm.apply p ctl op) ops

/-- The key of the last `reinit`, or the one the VM was created with. -/
def lastKey (key : List Byte) : List (BitVec 32 × Op) → List Byte
  | [] => key
  | (_, .reinit key' _) :: ops => lastKey key' ops
  | _ :: ops => lastKey key ops

end RandomXVm

/-- A dataset that `RandomXDataset::generate` returned for the cache and programs of this key. -/
def IsDatasetFor (key : List Byte) (ds : RandomXDataset) : Prop :=
  ∃ numThreads, RandomXDataset.Generates (p.argon2dCache key) (p.superscalarPrograms key) numThreads ds

end RandomX
end MinerTim
