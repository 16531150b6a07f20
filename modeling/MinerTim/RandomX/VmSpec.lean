import MinerTim.RandomX.Safety
import MinerTim.RandomX.Vm

/-!
# `RandomX.VmSpec` — a hash is a function of the key, the version and the input

The buffers a VM reuses do not reach its result. This is shown once, bottom up:

* `programRun` is `execute_vm_inner` without the bytecode buffer, `coreChain` a program chain without
  the program buffer;
* `hashOf` is the hash that results, a function of the context, the control word and the input
  (`calculateHash_eq`, `calculateHashVersioned_eq`);
* a VM that is `Prepared` for an input returns that input's hash from `calculate_hash_pipelined`, and is
  then prepared for the next one (`calculateHashPipelined_eq`).

Interpreting contexts that read the same dataset items give the same hash (`hashOf_congr_of_line`);
`RandomX.ControlWord` goes on with native code.
-/

namespace MinerTim
namespace RandomX

/-! ## One program, without its buffer -/

section

variable (fp : FpUnit) (aes : AesRounds) (ctx : VmContext) (version : RxVersion) {n : Nat}
  (programBytes : Vector Byte n)

/-- The instructions of a program. -/
def programOf : List BytecodeInstruction :=
  (List.range version.programSize).map (bytecodeAt programBytes)

/-- The loop-carried state before the first iteration. -/
def initLoopState : LoopState :=
  let params := deriveProgramParams programBytes
  { ma := params.ma, mx := params.mx, spAddr0 := params.mx, spAddr1 := params.ma }

/-- `execute_vm_inner` without the bytecode buffer. -/
def programRun (iterations : Nat) (s : VmState) : Option (VmState × LoopState) :=
  let s := { s with nreg := initRegisters programBytes s.nreg }
  let params := deriveProgramParams programBytes
  let bytecode := programOf version programBytes
  match ctx.dataset, ctx.jit,
      nativeLoopApplies ctx.useNativeLoop version ctx.dataset.isSome ctx.jit.isSome with
  | some ds, some jit, true => jit.loop bytecode params ds iterations s
  | _, jit, _ =>
    let body := match jit with
      | some jit => jit.body bytecode version params.config
      | none => executeBytecode fp params.config version bytecode
    iterate fp aes version params body
      (datasetLine ctx.cacheMemory ctx.ssPrograms ctx.dataset) iterations
      (s, initLoopState programBytes)

/-- **The bytecode buffer does not influence a program.** -/
theorem executeVmInner_eq (iterations : Nat) (buf : BytecodeBuffer) (s : VmState) :
    executeVmInner fp aes ctx version programBytes iterations buf s
      = (programRun fp aes ctx version programBytes iterations s).map fun r =>
          (r.1, (compileProgram programBytes buf version.programSize).2, r.2) := by
  have hcode := compiled_eq programBytes buf version.programSize_le_max
  unfold compiled at hcode
  obtain ⟨cache, programs, dataset, jit, useNativeLoop⟩ := ctx
  unfold executeVmInner programRun programOf initLoopState
  simp only [hcode, Option.map_eq_bind]
  cases dataset <;> cases jit <;> try rfl
  simp only [Option.isSome]
  cases nativeLoopApplies useNativeLoop version true true <;> rfl

end

/-! ## Contexts that interpret their programs -/

/-- The dataset items a context reads. -/
def VmContext.line (ctx : VmContext) : Word → Option Line :=
  datasetLine ctx.cacheMemory ctx.ssPrograms ctx.dataset

section

variable {fp : FpUnit} {aes : AesRounds} {ctx ctx' : VmContext} {version : RxVersion} {n : Nat}
  (programBytes : Vector Byte n)

/-- A context without native code interprets its programs. -/
theorem programRun_eq_iterate (hjit : ctx.jit = none) (iterations : Nat) (s : VmState) :
    programRun fp aes ctx version programBytes iterations s
      = iterate fp aes version (deriveProgramParams programBytes)
          (executeBytecode fp (deriveProgramParams programBytes).config version
            (programOf version programBytes))
          ctx.line iterations
          ({ s with nreg := initRegisters programBytes s.nreg }, initLoopState programBytes) := by
  obtain ⟨cache, programs, dataset, jit, useNativeLoop⟩ := ctx
  obtain rfl : jit = none := hjit
  cases dataset <;> rfl

/-- An iteration reads one dataset item. -/
theorem iteration_congr {params : ProgramParams} {body : VmState → Option VmState}
    {line line' : Word → Option Line} {s : VmState} {l : LoopState}
    (h : line (itemNumber params.datasetOffset l.ma) = line' (itemNumber params.datasetOffset l.ma)) :
    iteration fp aes version params body line s l
      = iteration fp aes version params body line' s l := by
  unfold itemNumber at h
  unfold iteration
  simp only [h]

/-- **The main loop reads dataset items in range only**: what lies outside does not matter. -/
theorem iterate_congr {body : VmState → Option VmState} {line line' : Word → Option Line}
    (h : ∀ k, k.toNat < DATASET_ITEM_COUNT → line k = line' k) (iterations : Nat)
    (c : VmState × LoopState) :
    iterate fp aes version (deriveProgramParams programBytes) body line iterations c
      = iterate fp aes version (deriveProgramParams programBytes) body line' iterations c := by
  induction iterations generalizing c with
  | zero => rfl
  | succ iterations ih =>
    rw [iterate, iterate, iteration_congr (h _ (itemNumber_lt programBytes c.2.ma))]
    simp only [ih]

/-- Contexts without native code that read the same dataset items. -/
theorem programRun_congr (hjit : ctx.jit = none) (hjit' : ctx'.jit = none)
    (hline : ∀ k, k.toNat < DATASET_ITEM_COUNT → ctx.line k = ctx'.line k) (iterations : Nat) (s : VmState) :
    programRun fp aes ctx version programBytes iterations s
      = programRun fp aes ctx' version programBytes iterations s := by
  rw [programRun_eq_iterate programBytes hjit, programRun_eq_iterate programBytes hjit']
  exact iterate_congr programBytes hline iterations _

end

/-! ## Program chains, without their buffers -/

variable (p : Platform) (ctx : VmContext) {version : RxVersion}

theorem programBytesSize_dvd (version : RxVersion) : 64 ∣ version.programBytesSize := by
  cases version <;> decide

theorem scratchpad_dvd : 64 ∣ SCRATCHPAD_L3_SIZE := by decide

/-- A program chain on the machine and the seed alone. -/
def coreChain (version : RxVersion) (c : VmState × Vector Byte 64) (chain : Nat) :
    Option (VmState × Vector Byte 64) :=
  let programBytes : Vector Byte version.programBytesSize :=
    fillAes4Rx4 p.aes c.2 (Vector.replicate _ 0)
  (programRun p.fp p.aes ctx version programBytes RANDOMX_PROGRAM_ITERATIONS c.1).map fun r =>
    (r.1, if chain < RANDOMX_PROGRAM_COUNT - 1 then p.blake2b512 (serializeRegisterFile r.1.nreg)
      else c.2)

/-- The program chains on the machine and the seed alone. -/
def coreChains (version : RxVersion) (c : VmState × Vector Byte 64) :
    Option (VmState × Vector Byte 64) :=
  (List.range RANDOMX_PROGRAM_COUNT).foldlM (coreChain p ctx version) c

/-- The part of the chain state that matters. -/
def ChainState.core (c : ChainState version) : VmState × Vector Byte 64 := (c.s, c.tempHash)

theorem ChainState.core_mk (s : VmState) (tempHash : Vector Byte 64)
    (programBytes : Vector Byte version.programBytesSize) (bytecode : BytecodeBuffer) :
    (ChainState.mk s tempHash programBytes bytecode).core = (s, tempHash) := (rfl)

/-- A fold whose steps commute with a projection commutes with it. -/
theorem map_foldlM {α β γ : Type} {f : β → α → Option β} {g : γ → α → Option γ} {π : β → γ}
    (h : ∀ b a, (f b a).map π = g (π b) a) (l : List α) (b : β) :
    (l.foldlM f b).map π = l.foldlM g (π b) := by
  induction l generalizing b with
  | nil => rfl
  | cons a l ih =>
    rw [List.foldlM_cons, List.foldlM_cons, ← h b a]
    cases f b a with
    | none => rfl
    | some b' => exact ih b'

theorem runChain_core (c : ChainState version) (chain : Nat) :
    (runChain p ctx c chain).map ChainState.core = coreChain p ctx version c.core chain := by
  unfold runChain coreChain ChainState.core
  simp only [fillAes4Rx4_congr p.aes c.tempHash c.programBytes (Vector.replicate _ 0)
    (programBytesSize_dvd version), executeVmInner_eq]
  cases programRun p.fp p.aes ctx version _ RANDOMX_PROGRAM_ITERATIONS c.s with
  | none => rfl
  | some r => rfl

theorem runChains_core (c : ChainState version) :
    (runChains p ctx c).map ChainState.core = coreChains p ctx version c.core :=
  map_foldlM (fun c chain => runChain_core p ctx c chain) _ c

/-! ## The hash -/

/-- The filled scratchpad and the seed of an input. -/
def filled (input : List Byte) : Vector Byte 64 × Scratchpad :=
  fillAes1Rx4 p.aes (p.blake2b512 input) (Vector.replicate _ 0)

theorem fillAes1Rx4_eq_filled (input : List Byte) (scratchpad : Scratchpad) :
    fillAes1Rx4 p.aes (p.blake2b512 input) scratchpad = filled p input :=
  fillAes1Rx4_congr p.aes _ _ _ scratchpad_dvd

/-- The hash of a machine at the end of the chains. -/
def finish (s : VmState) : Vector Byte 32 :=
  p.blake2b256 (serializeRegisterFile (withAesHash s.nreg (hashAes1Rx4 p.aes s.scratchpad)))

/-- **The RandomX hash** of an input, under a context. -/
def hashOf (version : RxVersion) (ctl : BitVec 32) (input : List Byte) : Option (Vector Byte 32) :=
  (coreChains p ctx version (startState p (filled p input).2 ctl, (filled p input).1)).map fun c =>
    finish p c.1

/-- The hash, from the chains of a machine with any buffers. -/
theorem hashOf_eq_runChains (ctl : BitVec 32) (input : List Byte)
    (programBytes : Vector Byte version.programBytesSize) (bytecode : BytecodeBuffer) :
    hashOf p ctx version ctl input
      = (runChains p ctx (.mk (startState p (filled p input).2 ctl) (filled p input).1 programBytes bytecode)).map
          fun c => finish p c.s := by
  have hcore := runChains_core p ctx
    (@ChainState.mk version (startState p (filled p input).2 ctl) (filled p input).1 programBytes bytecode)
  rw [ChainState.core_mk] at hcore
  rw [hashOf, ← hcore, Option.map_map]
  rfl

/-- The context of the one-shot hash: light mode, interpreted. -/
def lightContext (key : List Byte) : VmContext where
  cacheMemory := p.argon2dCache key
  ssPrograms := p.superscalarPrograms key
  dataset := none
  jit := none
  useNativeLoop := false

/-- **`calculate_hash_versioned` returns the hash** and restores the control word. -/
theorem calculateHashVersioned_eq (key input : List Byte) (ctl : BitVec 32) :
    calculateHashVersioned p key input version ctl
      = (hashOf p (lightContext p key) version ctl input).map (·, ctl) := by
  rw [hashOf_eq_runChains p (lightContext p key) ctl input (Vector.replicate _ 0)
    (Vector.replicate _ BytecodeInstruction.new)]
  unfold calculateHashVersioned
  simp only [fillAes1Rx4_eq_filled]
  rw [lightContext]
  cases runChains p _ _ with
  | none => rfl
  | some c => rfl

namespace RandomXVm

/-! What the record updates change. The proofs stand in brackets, as in `RandomX.ExecuteSpec`. -/

variable (vm : RandomXVm version) (fill : Vector Byte 64 × Scratchpad) (c : ChainState version)
  (nreg : NativeRegisterFile)

@[simp] theorem context_withFill : (vm.withFill fill).context = vm.context := (rfl)
@[simp] theorem context_withChains : (vm.withChains c nreg).context = vm.context := (rfl)
@[simp] theorem scratchpad_withFill : (vm.withFill fill).scratchpad = fill.2 := (rfl)
@[simp] theorem pipelineState_withFill : (vm.withFill fill).pipelineState = fill.1 := (rfl)

/-- **`calculate_hash` returns the hash** and restores the control word; the VM keeps its context. -/
theorem calculateHash_eq (ctl : BitVec 32) (input : List Byte) :
    ((vm.calculateHash p ctl input).map fun r => (r.1, r.2.2))
        = (hashOf p vm.context version ctl input).map (·, ctl) ∧
      ∀ r, vm.calculateHash p ctl input = some r → r.2.1.context = vm.context := by
  rw [hashOf_eq_runChains p vm.context ctl input vm.programBytes vm.bytecode]
  unfold calculateHash
  simp only [fillAes1Rx4_eq_filled]
  cases runChains p _ _ with
  | none => exact ⟨rfl, nofun⟩
  | some c =>
    refine ⟨rfl, ?_⟩
    rintro r h
    obtain rfl := Option.some.inj h
    exact context_withChains vm c _

/-- The scratchpad and the pipeline state hold the fill of this input. -/
def Prepared (vm : RandomXVm version) (input : List Byte) : Prop :=
  vm.pipelineState = (filled p input).1 ∧ vm.scratchpad = (filled p input).2

theorem withFill_prepared (input : List Byte) (h : fill = filled p input) :
    (vm.withFill fill).Prepared p input := by
  simp only [Prepared, pipelineState_withFill, scratchpad_withFill, h, and_self]

theorem prepareScratchpad_eq (input : List Byte) :
    vm.prepareScratchpad p input = vm.withFill (filled p input) := by
  rw [prepareScratchpad, fillAes1Rx4_eq_filled]

/-- **A prepared VM returns the hash of the input it is prepared for**, and is then prepared for the
    next one. -/
theorem calculateHashPipelined_eq {vm : RandomXVm version} {input : List Byte}
    (h : vm.Prepared p input) (ctl : BitVec 32) (nextInput : List Byte) :
    ((vm.calculateHashPipelined p ctl nextInput).map fun r => (r.1, r.2.2))
        = (hashOf p vm.context version ctl input).map (·, ctl) ∧
      ∀ r, vm.calculateHashPipelined p ctl nextInput = some r →
        r.2.1.Prepared p nextInput ∧ r.2.1.context = vm.context := by
  obtain ⟨hstate, hscratchpad⟩ := h
  rw [hashOf_eq_runChains p vm.context ctl input vm.programBytes vm.bytecode]
  unfold calculateHashPipelined
  simp only [hstate, hscratchpad, hashAndFillAes1Rx4_eq, fillAes1Rx4_eq_filled]
  cases runChains p _ _ with
  | none => exact ⟨rfl, nofun⟩
  | some c =>
    refine ⟨rfl, ?_⟩
    rintro r h
    obtain rfl := Option.some.inj h
    refine ⟨withFill_prepared p _ _ nextInput Prod.mk.eta, ?_⟩
    rw [context_withFill, context_withChains]

/-- A hash call restores the control word of its caller. -/
theorem ctl_calculateHash (ctl : BitVec 32) (input : List Byte)
    {r : Vector Byte 32 × RandomXVm version × BitVec 32}
    (h : vm.calculateHash p ctl input = some r) : r.2.2 = ctl := by
  unfold calculateHash at h
  obtain ⟨c, _, hr⟩ := Option.bind_eq_some_iff.mp h
  obtain rfl := Option.some.inj hr
  rfl

/-- A pipelined call restores it too. -/
theorem ctl_calculateHashPipelined (ctl : BitVec 32) (nextInput : List Byte)
    {r : Vector Byte 32 × RandomXVm version × BitVec 32}
    (h : vm.calculateHashPipelined p ctl nextInput = some r) : r.2.2 = ctl := by
  unfold calculateHashPipelined at h
  obtain ⟨c, _, hr⟩ := Option.bind_eq_some_iff.mp h
  obtain rfl := Option.some.inj hr
  rfl

/-- A pipelined call keeps the context, whatever the VM was prepared for. -/
theorem context_calculateHashPipelined (ctl : BitVec 32) (nextInput : List Byte)
    {r : Vector Byte 32 × RandomXVm version × BitVec 32}
    (h : vm.calculateHashPipelined p ctl nextInput = some r) : r.2.1.context = vm.context := by
  unfold calculateHashPipelined at h
  obtain ⟨c, _, hr⟩ := Option.bind_eq_some_iff.mp h
  rw [hashAndFillAes1Rx4_eq, fillAes1Rx4_eq_filled] at hr
  obtain rfl := Option.some.inj hr
  rw [context_withFill, context_withChains]

end RandomXVm

/-! ## Interpreting contexts that give the same hash -/

variable {p} {ctx} {ctx' : VmContext}

/-- **The hash depends on the dataset items and on nothing else of the context.** -/
theorem hashOf_congr_of_line (hjit : ctx.jit = none) (hjit' : ctx'.jit = none)
    (hline : ∀ k, k.toNat < DATASET_ITEM_COUNT → ctx.line k = ctx'.line k) (ctl : BitVec 32) (input : List Byte) :
    hashOf p ctx version ctl input = hashOf p ctx' version ctl input := by
  have hchain : coreChain p ctx version = coreChain p ctx' version := by
    funext c chain
    unfold coreChain
    simp only [programRun_congr _ hjit hjit' hline]
  unfold hashOf coreChains
  rw [hchain]

/-- Where every dataset item exists, a program of a chain ends. -/
theorem exists_coreChain (hjit : ctx.jit = none)
    (hline : ∀ k, k.toNat < DATASET_ITEM_COUNT → ∃ l, ctx.line k = some l) (c : VmState × Vector Byte 64)
    (chain : Nat) : ∃ c', coreChain p ctx version c chain = some c' := by
  unfold coreChain
  simp only [programRun_eq_iterate _ hjit]
  unfold programOf
  rw [← compiled_eq _ (Vector.replicate _ BytecodeInstruction.new) version.programSize_le_max]
  obtain ⟨r, hr⟩ := @exists_iterate p.fp p.aes version _ _
    (Vector.replicate _ BytecodeInstruction.new) _ hline RANDOMX_PROGRAM_ITERATIONS _
  rw [hr]
  exact ⟨_, rfl⟩

/-- So every input has a hash. -/
theorem exists_hashOf_of_line (hjit : ctx.jit = none)
    (hline : ∀ k, k.toNat < DATASET_ITEM_COUNT → ∃ l, ctx.line k = some l) (ctl : BitVec 32) (input : List Byte) :
    ∃ hash, hashOf p ctx version ctl input = some hash := by
  obtain ⟨c, hc⟩ := exists_foldlM_eq_some (fun chain _ c => exists_coreChain hjit hline c chain)
    (startState p (filled p input).2 ctl, (filled p input).1)
  unfold hashOf coreChains
  rw [hc]
  exact ⟨_, rfl⟩

end RandomX
end MinerTim
