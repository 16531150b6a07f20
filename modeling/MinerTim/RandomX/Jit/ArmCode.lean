import MinerTim.RandomX.ControlWord
import MinerTim.RandomX.FloatRanges
import MinerTim.RandomX.Hashing
import MinerTim.RandomX.Jit.LoopCall

/-!
# `RandomX.Jit.ArmCode` — a VM that runs the emitted code

`execute_vm_inner` calls what the compiler emitted through a function pointer. `armCode` is that: it compiles the
program, calls the code in buffers laid out as a `CallSite` says, and reads the register file, the scratchpad and the
control register back. It does what the interpreter does, up to control words that no arithmetic tells apart
(`bodyInterprets_armCode`, `loopInterprets_armCode`), so a VM that runs the emitted code hashes like one that
interprets.
-/

namespace MinerTim
namespace Arm64

variable {fp : FpOps} {code : Code} {W : Word → Prop} {pc : Nat} {s s' : State}

/-- A call that returns has changed memory only where it may store. -/
theorem Returns.mem_eq (h : Returns fp code W pc s s') {a : Word} (ha : ¬ W a) : s'.mem a = s.mem a := by
  obtain ⟨⟨n, hn⟩, hall⟩ := h
  have hrun := hn n (Nat.le_refl n)
  clear hn
  induction n generalizing pc s with
  | zero => cases hrun
  | succ n ih =>
    cases hstep : step fp code pc s with
    | stuck =>
      rw [run, hstep] at hrun
      cases hrun
    | returned s₁ =>
      rw [run, hstep] at hrun
      obtain rfl := Outcome.returned.inj hrun
      unfold step jump at hstep
      cases hi : code[pc]? with
      | none => simp [hi] at hstep
      | some i =>
        rw [hi] at hstep
        cases i <;> simp only at hstep <;> split at hstep <;> grind
    | running pc₁ s₁ =>
      rw [run, hstep] at hrun
      obtain ⟨i, hi⟩ : ∃ i, code[pc]? = some i := by
        cases hi : code[pc]? with
        | none => simp [step, hi] at hstep
        | some i => exact ⟨i, rfl⟩
      have hstores : ∀ b ∈ i.stores s, ¬ InRegion b 8 a :=
        fun b hb hin => ha (hall 0 pc s i rfl hi b hb a hin)
      rw [ih (fun m pc₂ s₂ j hrun₂ hj => hall (m + 1) pc₂ s₂ j (by rw [run, hstep]; exact hrun₂) hj) hrun]
      exact step_mem hi hstep hstores

open Classical in
/-- The state that a call ends in. -/
noncomputable def called (fp : FpOps) (code : Code) (s : State) : Option State :=
  if h : ∃ s', ∃ n, ∀ m, n ≤ m → run fp code m 0 s = .returned s' then some h.choose else none

theorem called_eq (h : Returns fp code W 0 s s') : called fp code s = some s' := by
  obtain ⟨⟨n, hn⟩, -⟩ := h
  have hex : ∃ s', ∃ n, ∀ m, n ≤ m → run fp code m 0 s = .returned s' := ⟨s', n, hn⟩
  obtain ⟨n', hn'⟩ := hex.choose_spec
  rw [called, dif_pos hex]
  -- both are what a run with enough fuel for both ends in
  have heq := (hn (max n n') (Nat.le_max_left n n')).symm.trans (hn' (max n n') (Nat.le_max_right n n'))
  rw [← Outcome.returned.inj heq]

end Arm64

namespace RandomX

open Arm64

/-! ## Call sites -/

/-- Where the buffers of a call lie, and what else the caller has in its registers. -/
structure CallSite where
  registers : Word
  scratchpad : Word
  config : Word
  dataset : Word
  out : Word
  sp : Word
  x : Nat → Word
  d : Nat → Word
  flags : Flags
  registers_scratchpad : Apart registers REGISTER_FILE_SIZE scratchpad SCRATCHPAD_L3_SIZE
  registers_frame : Apart registers REGISTER_FILE_SIZE (sp - BitVec.ofNat 64 FRAME_SIZE) FRAME_SIZE
  scratchpad_frame : Apart scratchpad SCRATCHPAD_L3_SIZE (sp - BitVec.ofNat 64 FRAME_SIZE) FRAME_SIZE
  config_registers : Apart config 16 registers REGISTER_FILE_SIZE
  config_scratchpad : Apart config 16 scratchpad SCRATCHPAD_L3_SIZE
  config_frame : Apart config 16 (sp - BitVec.ofNat 64 FRAME_SIZE) FRAME_SIZE
  dataset_registers : Apart dataset DATASET_TOTAL_SIZE registers REGISTER_FILE_SIZE
  dataset_scratchpad : Apart dataset DATASET_TOTAL_SIZE scratchpad SCRATCHPAD_L3_SIZE
  dataset_frame : Apart dataset DATASET_TOTAL_SIZE (sp - BitVec.ofNat 64 FRAME_SIZE) FRAME_SIZE
  out_registers : Apart out LOOP_OUT_SIZE registers REGISTER_FILE_SIZE
  out_scratchpad : Apart out LOOP_OUT_SIZE scratchpad SCRATCHPAD_L3_SIZE
  out_frame : Apart out LOOP_OUT_SIZE (sp - BitVec.ofNat 64 FRAME_SIZE) FRAME_SIZE

namespace CallSite

variable (site : CallSite)

/-- The machine at a call: the register file and the scratchpad of a state, and `size` bytes behind `x2`. -/
def state (s : VmState) (operand : Word) (size : Nat) (bytes : Nat → Byte) (count : Word) : State where
  x := fun n => match n with
    | 0 => site.registers
    | 1 => site.scratchpad
    | 2 => operand
    | 3 => count
    | 4 => site.out
    | n => site.x n
  sp := site.sp
  d := site.d
  flags := site.flags
  fpcr := s.ctl
  mem := regionsMem [(site.registers, REGISTER_FILE_SIZE, blockByte (regWord s)),
    (site.scratchpad, SCRATCHPAD_L3_SIZE, byteAt s.scratchpad), (operand, size, bytes)]

/-- The call of a body function. -/
def bodyState (config : ProgramConfiguration) (s : VmState) : State :=
  site.state s site.config 16 (blockByte fun k => config.eMask[k]?.getD 0) 0

/-- The call of a loop function. -/
def loopState (ds : RandomXDataset) (iterations : Nat) (s : VmState) : State :=
  site.state s site.dataset DATASET_TOTAL_SIZE (blockByte (datasetWord ds)) (BitVec.ofNat 64 iterations)

variable {site}

theorem callBuffers_state {s : VmState} {operand : Word} {size : Nat} {bytes : Nat → Byte} {count : Word} :
    CallBuffers s (site.state s operand size bytes count) := by
  refine ⟨?_, ?_, rfl, site.registers_scratchpad, site.registers_frame, site.scratchpad_frame⟩
  · exact State.holds_regionsMem rfl (by decide)
  · exact State.Holds.regionsMem_cons rfl (State.holds_regionsMem rfl (by decide)) (by decide)
      site.registers_scratchpad.symm

theorem holds_state {s : VmState} {operand : Word} {size : Nat} {bytes : Nat → Byte} {count : Word}
    (hsize : size ≤ 2 ^ 64) (hregs : Apart operand size site.registers REGISTER_FILE_SIZE)
    (hpad : Apart operand size site.scratchpad SCRATCHPAD_L3_SIZE) :
    (site.state s operand size bytes count).Holds operand size bytes :=
  State.Holds.regionsMem_cons rfl
    (State.Holds.regionsMem_cons rfl (State.holds_regionsMem rfl hsize) hsize hpad) hsize hregs

theorem bodyCall_bodyState (config : ProgramConfiguration) (s : VmState) :
    BodyCall config s (site.bodyState config s) :=
  ⟨callBuffers_state, holds_state (by decide) site.config_registers site.config_scratchpad, site.config_frame⟩

theorem loopCall_loopState (ds : RandomXDataset) {iterations : Nat} (hlt : iterations < 2 ^ 64) (s : VmState) :
    LoopCall ds iterations s (site.loopState ds iterations s) :=
  ⟨callBuffers_state, holds_state (by decide) site.dataset_registers site.dataset_scratchpad, rfl, hlt,
    site.dataset_scratchpad, site.dataset_frame, site.out_registers, site.out_scratchpad, site.out_frame⟩

end CallSite

/-- Buffers far apart. -/
def CallSite.sample : CallSite where
  registers := 0x1000
  scratchpad := 0x1000000
  config := 0x3000
  dataset := 0x100000000
  out := 0x2000
  sp := 0x5000
  x := fun _ => 0
  d := fun _ => 0
  flags := { n := false, z := false, c := false, v := false }
  registers_scratchpad := apart_of_le (by decide) (by decide)
  registers_frame := apart_of_le (by decide) (by decide)
  scratchpad_frame := (apart_of_le (by decide) (by decide)).symm
  config_registers := (apart_of_le (by decide) (by decide)).symm
  config_scratchpad := apart_of_le (by decide) (by decide)
  config_frame := apart_of_le (by decide) (by decide)
  dataset_registers := (apart_of_le (by decide) (by decide)).symm
  dataset_scratchpad := (apart_of_le (by decide) (by decide)).symm
  dataset_frame := (apart_of_le (by decide) (by decide)).symm
  out_registers := (apart_of_le (by decide) (by decide)).symm
  out_scratchpad := apart_of_le (by decide) (by decide)
  out_frame := apart_of_le (by decide) (by decide)

/-! ## What is read back -/

/-- Doubleword `k` of the register file in memory. -/
def fileWord (base : Word) (t : State) (k : Nat) : Word := t.read (base + BitVec.ofNat 64 (8 * k))

/-- The machine state that the caller finds. -/
def readBack (site : CallSite) (t : State) : VmState where
  nreg :=
    { r := Vector.ofFn fun i => fileWord site.registers t i
      f := Vector.ofFn fun i => (fileWord site.registers t (8 + i * 2), fileWord site.registers t (8 + (i * 2 + 1)))
      e := Vector.ofFn fun i => (fileWord site.registers t (16 + i * 2), fileWord site.registers t (16 + (i * 2 + 1)))
      a := Vector.ofFn fun i => (fileWord site.registers t (24 + i * 2), fileWord site.registers t (24 + (i * 2 + 1))) }
  scratchpad := Vector.ofFn fun k => t.mem (site.scratchpad + BitVec.ofNat 64 k)
  ctl := t.fpcr

/-- The loop state that the caller finds. -/
def readOut (site : CallSite) (t : State) : LoopState where
  ma := (fileWord site.out t 0).setWidth 32
  mx := (fileWord site.out t 1).setWidth 32
  spAddr0 := (fileWord site.out t 2).setWidth 32
  spAddr1 := (fileWord site.out t 3).setWidth 32

/-- The native code of a VM: the functions that the compiler emits, called on the machine. -/
noncomputable def armCode (fp : FpOps) (site : CallSite) : NativeCode where
  body := fun bytecode version config s => do
    let code ← (JitCompiler.new.compile bytecode version).bind JitCompiler.getFn
    let t ← called fp code (site.bodyState config s)
    return readBack site t
  loop := fun bytecode params ds iterations s => do
    let code ← (JitCompiler.new.compileNativeLoop bytecode .V1 params.config params.ma params.mx
      params.datasetOffset).bind JitCompiler.getLoopFn
    let t ← called fp code (site.loopState ds iterations s)
    return (readBack site t, readOut site t)

variable {fp : FpOps} {site : CallSite} {s s' : VmState} {t : State}

/-- The arithmetic sees the rounding mode of a control word and nothing else. -/
theorem alike_of_mode {c c' : BitVec 32} (h : c.extractLsb' 22 2 = c'.extractLsb' 22 2) :
    (fpUnit fp).Alike c c' := by
  intro modes
  induction modes generalizing c c' with
  | nil =>
    constructor <;> simp only [List.foldl_nil, fpUnit, h]
  | cons mode modes ih =>
    refine ih ?_
    show (setRoundingModeAarch64 c mode).extractLsb' 22 2 = (setRoundingModeAarch64 c' mode).extractLsb' 22 2
    rw [extract_setRoundingModeAarch64, extract_setRoundingModeAarch64 c']

/-- **What is read back is the state that was written**, as far as arithmetic can tell. -/
theorem alike_readBack (hregs : t.Holds site.registers REGISTER_FILE_SIZE (blockByte (regWord s)))
    (hpad : t.Holds site.scratchpad SCRATCHPAD_L3_SIZE (byteAt s.scratchpad))
    (hmode : t.rmode = s.ctl.extractLsb' 22 2) : (readBack site t).Alike (fpUnit fp) s := by
  have hword : ∀ k < 32, fileWord site.registers t k = regWord s k := by
    intro k hk
    exact read_block hregs (by unfold REGISTER_FILE_SIZE; omega)
  have heq : (readBack site t).putCtl s.ctl = s := by
    apply VmState.ext_of
    · intro j hj
      have hreg : (readBack site t).rAt j = fileWord site.registers t j := by
        simp [VmState.rAt, readBack, hj]
      rw [VmState.rAt_putCtl, hreg, hword j (by omega), regWord, if_pos hj]
    · intro j hj
      have hlanes : (readBack site t).fAt j
          = (fileWord site.registers t (8 + j * 2), fileWord site.registers t (8 + (j * 2 + 1))) := by
        simp [VmState.fAt, readBack, hj]
      rw [VmState.fAt_putCtl, hlanes, hword _ (by omega), hword _ (by omega), regWord_f (by omega),
        regWord_f (by omega), laneWord_lo, laneWord_hi]
    · intro j hj
      have hlanes : (readBack site t).eAt j
          = (fileWord site.registers t (16 + j * 2), fileWord site.registers t (16 + (j * 2 + 1))) := by
        simp [VmState.eAt, readBack, hj]
      rw [VmState.eAt_putCtl, hlanes, hword _ (by omega), hword _ (by omega), regWord_e (by omega),
        regWord_e (by omega), laneWord_lo, laneWord_hi]
    · intro j hj
      have hlanes : (readBack site t).aAt j
          = (fileWord site.registers t (24 + j * 2), fileWord site.registers t (24 + (j * 2 + 1))) := by
        simp [VmState.aAt, readBack, hj]
      rw [VmState.aAt_putCtl, hlanes, hword _ (by omega), hword _ (by omega), regWord_a, regWord_a, laneWord_lo,
        laneWord_hi]
    · apply Vector.ext
      intro k hk
      have hbyte : (readBack site t).scratchpad[k] = t.mem (site.scratchpad + BitVec.ofNat 64 k) := by
        simp [readBack]
      rw [VmState.scratchpad_putCtl, hbyte, hpad k hk]
      simp [byteAt, hk]
    · rfl
  exact ⟨(congrArg VmState.nreg heq).symm, (congrArg VmState.scratchpad heq).symm, alike_of_mode hmode⟩

/-- The `a` registers are behind what the functions store. -/
theorem holds_registerFile {t₀ : State} {W : Word → Prop} (hbuffers : CallBuffers s t₀)
    (hmem : ∀ a, ¬ W a → t.mem a = t₀.mem a)
    (hW : ∀ k, REGISTER_FILE_RFE ≤ k → k < REGISTER_FILE_SIZE → ¬ W (t₀.x 0 + BitVec.ofNat 64 k))
    (hregs : t.Holds (t₀.x 0) REGISTER_FILE_RFE (blockByte (regWord s'))) (ha : s'.nreg.a = s.nreg.a) :
    t.Holds (t₀.x 0) REGISTER_FILE_SIZE (blockByte (regWord s')) := by
  have hRFE : REGISTER_FILE_RFE = 192 := rfl
  have haAt : s'.aAt = s.aAt := by
    funext i
    rw [VmState.aAt, VmState.aAt, ha]
  intro k hk
  by_cases hlt : k < REGISTER_FILE_RFE
  · exact hregs k hlt
  · have hbyte := hbuffers.registers k hk
    rw [hmem _ (hW k (by omega) hk), hbyte, blockByte, blockByte]
    congr 1
    obtain ⟨j, hj⟩ := Nat.exists_eq_add_of_le (show 24 ≤ k / 8 by omega)
    rw [hj, regWord_a, regWord_a, haAt]

/-- No byte of the `a` registers is written by a body function. -/
theorem not_bodyWrites {t₀ : State} (hbuffers : CallBuffers s t₀) {k : Nat} (hlo : REGISTER_FILE_RFE ≤ k)
    (hhi : k < REGISTER_FILE_SIZE) : ¬ BodyWrites t₀ (t₀.x 0 + BitVec.ofNat 64 k) := by
  have hsize : REGISTER_FILE_SIZE = 256 := rfl
  have hin : InRegion (t₀.x 0) REGISTER_FILE_SIZE (t₀.x 0 + BitVec.ofNat 64 k) :=
    inRegion_iff.mpr ⟨k, hhi, by omega, rfl⟩
  rintro (hpad | hrfe | hframe)
  · exact hbuffers.registers_scratchpad _ hin hpad
  · obtain ⟨j, hj, hlt, heq⟩ := inRegion_iff.mp hrfe
    have hkj := congrArg BitVec.toNat (BitVec.add_right_inj _ |>.mp heq)
    rw [BitVec.toNat_ofNat, BitVec.toNat_ofNat, Nat.mod_eq_of_lt (by omega), Nat.mod_eq_of_lt hlt] at hkj
    omega
  · exact hbuffers.registers_frame _ hin hframe

/-! ## The emitted code does what the interpreter does -/

/-- **The emitted body** does what the interpreter does. -/
theorem bodyInterprets_armCode (fp : FpOps) (site : CallSite) : (armCode fp site).BodyInterprets (fpUnit fp) := by
  intro version n programBytes s
  let buf : BytecodeBuffer := Vector.replicate _ BytecodeInstruction.new
  have hcall : BodyCall (deriveProgramParams programBytes).config s
      (site.bodyState (deriveProgramParams programBytes).config s) := CallSite.bodyCall_bodyState _ s
  obtain ⟨hcompile, hplaced⟩ := wellPlaced_compile programBytes buf JitCompiler.new version
  obtain ⟨s', t', hexec, hreturns, hend⟩ := exists_bodyReturns fp buf hplaced hcall
  rw [compiled_eq programBytes buf version.programSize_le_max] at hcompile hexec
  have hnative : (armCode fp site).body (programOf version programBytes) version
      (deriveProgramParams programBytes).config s = some (readBack site t') := by
    unfold armCode programOf
    simp only [hcompile, Option.bind_eq_bind, Option.bind_some, JitCompiler.getFn, if_true]
    rw [called_eq hreturns]
    rfl
  have hkept : s'.nreg.a = s.nreg.a := keeps_executeFrom _ _ _ rfl s' hexec
  unfold programOf at hnative ⊢
  rw [hnative, hexec]
  refine .some (alike_readBack ?_ hend.scratchpad hend.mode)
  exact holds_registerFile hcall.toCallBuffers (fun a ha => hreturns.mem_eq ha)
    (fun k hlo hhi => not_bodyWrites hcall.toCallBuffers hlo hhi) hend.registers hkept

/-- The loop state that was stored. -/
theorem readOut_eq {l : LoopState} (h : t.Holds site.out LOOP_OUT_SIZE (blockByte (loopWord l))) :
    readOut site t = l := by
  have hword : ∀ k < 4, fileWord site.out t k = loopWord l k := by
    intro k hk
    exact read_block h (by unfold LOOP_OUT_SIZE; omega)
  obtain ⟨ma, mx, spAddr0, spAddr1⟩ := l
  rw [readOut, hword 0 (by omega), hword 1 (by omega), hword 2 (by omega), hword 3 (by omega)]
  simp [loopWord]

/-- **The emitted loop** does what the main loop does. -/
theorem loopInterprets_armCode (fp : FpOps) (site : CallSite) (aes : AesRounds) :
    (armCode fp site).LoopInterprets (fpUnit fp) aes := by
  intro n programBytes ds iterations s hpos hlt
  let buf : BytecodeBuffer := Vector.replicate _ BytecodeInstruction.new
  generalize hs₀ : ({ s with nreg := initRegisters programBytes s.nreg } : VmState) = s₀
  have hcall : LoopCall ds iterations s₀ (site.loopState ds iterations s₀) := CallSite.loopCall_loopState ds hlt s₀
  obtain ⟨c, log, pc, t', hiter, hrun, hret, hend⟩ := @exists_loopReturns _ programBytes _ _ fp aes buf _ _ hcall
  have hreturns := hrun.steps.returned hret
  have hcode := compileNativeLoop_loopCodeOf programBytes buf JitCompiler.new
  obtain ⟨k, rfl⟩ : ∃ k, iterations = k + 1 := ⟨iterations - 1, by omega⟩
  -- `f` and `e` are loaded before they are read, so the run is the one from `s₀`
  rw [prefetchingIterate_machineFE] at hiter
  have hmap : (prefetchingIterate (fpUnit fp) aes .V1 (deriveProgramParams programBytes)
      (interpretV1 fp programBytes buf) ds.getItem (k + 1) (s₀, initLoopState programBytes)).map Prod.fst
      = iterate (fpUnit fp) aes .V1 (deriveProgramParams programBytes) (interpretV1 fp programBytes buf) ds.getItem
        (k + 1) (s₀, initLoopState programBytes) :=
    map_prefetchingIterate (deriveProgramParams_wellFormed programBytes) _ _
  rw [hiter, Option.map_some] at hmap
  unfold interpretV1 at hmap
  rw [compiled_eq programBytes buf RxVersion.V1.programSize_le_max] at hcode hmap
  have hnative : (armCode fp site).loop (programOf .V1 programBytes) (deriveProgramParams programBytes) ds (k + 1) s₀
      = some (readBack site t', readOut site t') := by
    unfold armCode programOf
    simp only [hcode, Option.bind_eq_bind, Option.bind_some]
    rw [called_eq hreturns]
    rfl
  have hkept : c.1.nreg.a = s₀.nreg.a :=
    aAt_of_iterate (deriveProgramParams_wellFormed programBytes) (fun s hs => keeps_executeFrom _ _ _ hs) rfl hmap.symm
  unfold programOf at hnative ⊢
  rw [hnative, ← hmap]
  refine .some ⟨alike_readBack ?_ hend.scratchpad hend.mode, readOut_eq hend.out⟩
  refine holds_registerFile hcall.toCallBuffers (fun a ha => hreturns.mem_eq ha) ?_ hend.registers hkept
  rintro j hlo hhi (hbody | hout)
  · exact not_bodyWrites hcall.toCallBuffers hlo hhi hbody
  · have hsize : REGISTER_FILE_SIZE = 256 := rfl
    exact hcall.out_registers _ hout (inRegion_iff.mpr ⟨j, hhi, by omega, rfl⟩)

theorem jitInterprets_armCode {p : Platform} (hfp : p.fp = fpUnit fp) (site : CallSite) :
    JitInterprets p (some (armCode fp site)) := by
  intro native hnative
  obtain rfl := Option.some.inj hnative
  rw [hfp]
  exact ⟨bodyInterprets_armCode fp site, loopInterprets_armCode fp site p.aes⟩

/-- The null platform with the arithmetic of a machine. -/
def armPlatform : Platform := { nullPlatform with fp := fpUnit sampleFpOps }

/-! ## A VM on the emitted code -/

namespace RandomXVm

variable {p : Platform} {version : RxVersion} {key : List Byte} {vm : RandomXVm version}

/-- **A VM on the emitted code hashes like the interpreter.** Whatever calls have been made on it, `calculate_hash`
    returns the one-shot, interpreted hash of the last key and restores the control word, and so do the pipelined
    calls for all inputs but the last: on the body code or on the native loop, in light or in full mode, in either
    version, wherever its buffers lie. Where every dataset item exists, no call panics. -/
theorem emitted_code_computes_hashes {fp : FpOps} (hfp : p.fp = fpUnit fp) {site : CallSite}
    {ops : List (BitVec 32 × Op)} (hcreated : CreatedFor p key vm) (hjit : vm.jit = some (armCode fp site))
    (hops : ∀ o ∈ ops, o.2.DatasetOk p) :
    (∀ vm', vm.applyAll p ops = some vm' → ∀ (ctl : BitVec 32) (input : List Byte) (inputs : List (List Byte)),
      (vm'.calculateHash p ctl input).map (fun r => (r.1, r.2.2))
        = calculateHashVersioned p (lastKey key ops) input version ctl ∧
      ((vm'.prepareScratchpad p input).hashPipelined p ctl inputs).map (·.1)
        = (input :: inputs).dropLast.mapM fun b =>
            (calculateHashVersioned p (lastKey key ops) b version ctl).map (·.1)) ∧
    ((∀ key k, k.toNat < DATASET_ITEM_COUNT → ∃ l, (lightContext p key).line k = some l) →
      ∃ vm', vm.applyAll p ops = some vm') := by
  have hstart : vm.KeyedTo p key := hcreated.keyedTo (hjit ▸ jitInterprets_armCode hfp site)
  refine ⟨?_, fun hline => hstart.exists_applyAll hline hops⟩
  intro vm' hrun ctl input inputs
  have hend := hstart.applyAll hops hrun
  refine ⟨?_, ?_⟩
  · rw [(vm'.calculateHash_eq p ctl input).1]
    exact hend.hashOf_eq ctl input
  · have hprep : (vm'.prepareScratchpad p input).Prepared p input := by
      rw [prepareScratchpad_eq]
      exact withFill_prepared p vm' _ input rfl
    have hctx : (vm'.prepareScratchpad p input).context = vm'.context := by
      rw [prepareScratchpad_eq, context_withFill]
    rw [hashPipelined_eq hprep, hctx]
    congr 1
    funext b
    rw [← hend.hashOf_eq ctl b, Option.map_map]
    exact (congrFun Option.map_id (hashOf p vm'.context version ctl b)).symm

/-- On the platform of a machine every key has a dataset. -/
theorem exists_dataset_arm (key : List Byte) : ∃ ds, IsDatasetFor armPlatform key ds := by
  obtain ⟨ds, hds⟩ := exists_generates_null key 3
  exact ⟨ds, 3, hds⟩

theorem exists_line_arm (key : List Byte) (k : Word) (hk : k.toNat < DATASET_ITEM_COUNT) :
    ∃ l, (lightContext armPlatform key).line k = some l := by
  obtain ⟨ds, hkey⟩ := exists_dataset_arm key
  have hsize : k.toNat < ds.items.size := by
    rw [ds.size_eq]
    exact hk
  refine ⟨ds.items[k.toNat], (line_of_isDatasetFor hkey hk).symm.trans ?_⟩
  simp [RandomXDataset.getItem, hsize]

/-- A full-mode V1 VM, which runs the native loop. -/
theorem emitted_code_computes_hashes_sample : ∃ ds vm', IsDatasetFor armPlatform [1] ds ∧
    (newFullVersioned armPlatform [1] ds .V1 (some (armCode sampleFpOps .sample))).applyAll armPlatform
      [(0, .calculateHash [2])] = some vm' ∧
    (vm'.calculateHash armPlatform 0 [3]).map (fun r => (r.1, r.2.2))
      = calculateHashVersioned armPlatform [1] [3] .V1 0 := by
  obtain ⟨ds, hdataset⟩ := exists_dataset_arm [1]
  obtain ⟨hhash, hreturns⟩ := @emitted_code_computes_hashes armPlatform .V1 [1] _ sampleFpOps rfl .sample
    [(0, .calculateHash [2])] (.full (some (armCode sampleFpOps .sample)) ds hdataset) rfl (by simp [Op.DatasetOk])
  obtain ⟨vm', hrun⟩ := hreturns exists_line_arm
  exact ⟨ds, vm', hdataset, hrun, (hhash vm' hrun 0 [3] []).1⟩

end RandomXVm

end RandomX
end MinerTim
