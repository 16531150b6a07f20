import MinerTim.RandomX.Jit.BodyRun
import MinerTim.RandomX.Jit.Calls

/-!
# `RandomX.Jit.BodyCall` — the body function refines the interpreter

`BodyCall` says what `execute_vm_inner` calls the function with, `BodyReturn` what the function leaves behind.
The prologue leads from the one to the simulation relation (`exists_emitPrologue`), a run of the interpreter
keeps it (`RandomX.Jit.BodyRun`), and the epilogue stores the registers and restores those of the caller
(`exists_emitEpilogue`).
-/

namespace MinerTim
namespace RandomX

open Arm64 Emitter BackEdges

/-- **The call of a body function**: besides the buffers, the configuration at `x2`, whose first two
    doublewords are the e-masks. -/
structure BodyCall (config : ProgramConfiguration) (s : VmState) (t : State) : Prop extends
    CallBuffers s t where
  config : t.Holds (t.x 2) 16 (blockByte fun k => config.eMask[k]?.getD 0)
  config_frame : Apart (t.x 2) 16 (frameOf t) FRAME_SIZE

/-- **What a body function leaves behind**, when the interpreter ends in `s`. -/
structure BodyReturn (s : VmState) (t t' : State) : Prop where
  registers : t'.Holds (t.x 0) REGISTER_FILE_RFE (blockByte (regWord s))
  scratchpad : t'.Holds (t.x 1) SCRATCHPAD_L3_SIZE (byteAt s.scratchpad)
  mode : t'.rmode = s.ctl.extractLsb' 22 2
  saved : CalleeSaved t t'

/-- The memory that a body function may write. -/
def BodyWrites (t : State) (a : Word) : Prop :=
  Pad (t.x 1) a ∨ InRegion (t.x 0) REGISTER_FILE_RFE a ∨ Frame t a

variable {fp : FpOps} {config : ProgramConfiguration} {s : VmState} {t : State}

/-! ## Prologue -/

/-- The prologue, after the registers of the caller are saved. -/
def emitLoadRegisters : Code :=
  movReg 21 0 ++ movReg 16 1 ++ ldrImm 19 2 0 ++ ldrImm 20 2 8
    ++ emitFor 8 (fun i => ldrImm (8 + i) 0 (i * 8))
    ++ emitFor 8 (fun i => ldrFpImm i 0 (64 + i * 8))
    ++ emitFor 8 (fun i => ldrFpImm (8 + i) 0 (128 + i * 8))
    ++ emitFor 8 (fun i => ldrFpImm (16 + i) 0 (192 + i * 8))
    ++ movImm64 0 JIT_FSCAL_MASK ++ fmovDx 24 0

theorem emitPrologue_eq : emitPrologue = emitSave ++ emitLoadRegisters := by
  simp only [emitPrologue, emitLoadRegisters, List.append_assoc]

/-- The registers after they are loaded. -/
def loadedRegisters (config : ProgramConfiguration) (s : VmState) (t : State) : State :=
  (((((((((t.setX 21 (t.x 0)).setX 16 (t.x 1)).setX 19 config.eMask0).setX 20 config.eMask1).setXs 8 8
    fun i => regWord s (0 + i)).setDs 0 8 fun i => regWord s (8 + i)).setDs 8 8
    fun i => regWord s (16 + i)).setDs 16 8 fun i => regWord s (24 + i)).setX 0 JIT_FSCAL_MASK).setD 24
    JIT_FSCAL_MASK

theorem straight_emitLoadRegisters {W : Word → Prop}
    (hregs : t.Holds (t.x 0) REGISTER_FILE_SIZE (blockByte (regWord s)))
    (hconfig : t.Holds (t.x 2) 16 (blockByte fun k => config.eMask[k]?.getD 0)) :
    Straight fp W emitLoadRegisters t (loadedRegisters config s t) := by
  simp only [emitLoadRegisters, List.append_assoc]
  refine Straight.append (straight_movReg 21 0) ?_
  refine Straight.append (straight_movReg 16 1) ?_
  refine Straight.append (straight_loadX hconfig (by rfl) (by rfl) (by decide) 0 (by rfl) (by decide) (by decide) 19) ?_
  refine Straight.append (straight_loadX hconfig (by rfl) (by rfl) (by decide) 1 (by rfl) (by decide) (by decide) 20) ?_
  refine Straight.append (straight_loadXs hregs (by rfl) (by rfl) (by decide) (b := 8) (n := 8) (o := 0)
    (fun i _ => rfl) (fun i _ => by omega) (by decide) (by decide) (by decide) (by decide)) ?_
  refine Straight.append (straight_loadDs hregs (by rfl) (by rfl) (by decide) (b := 0) (n := 8) (o := 8)
    (fun i _ => by omega) (fun i _ => by omega) (by decide) (by decide)) ?_
  refine Straight.append (straight_loadDs hregs (by rfl) (by rfl) (by decide) (b := 8) (n := 8) (o := 16)
    (fun i _ => rfl) (fun i _ => by omega) (by decide) (by decide)) ?_
  refine Straight.append (straight_loadDs hregs (by rfl) (by rfl) (by decide) (b := 16) (n := 8) (o := 24)
    (fun i _ => rfl) (fun i _ => by omega) (by decide) (by decide)) ?_
  refine Straight.append (straight_movImm64 (by decide) _) ?_
  exact (straight_fmovDx 24 0).eq rfl

theorem regWord_r {i : Nat} (hi : i < 8) : regWord s (0 + i) = s.rAt i := by
  rw [regWord, Nat.zero_add, if_pos hi]

theorem regWord_f {i : Nat} (hi : i < 8) : regWord s (8 + i) = laneWord s.fAt i := by
  rw [regWord, if_neg (by omega), if_pos (by omega), Nat.add_sub_cancel_left]

theorem regWord_e {i : Nat} (hi : i < 8) : regWord s (16 + i) = laneWord s.eAt i := by
  rw [regWord, if_neg (by omega), if_neg (by omega), if_pos (by omega), Nat.add_sub_cancel_left]

theorem regWord_a (i : Nat) : regWord s (24 + i) = laneWord s.aAt i := by
  rw [regWord, if_neg (by omega), if_neg (by omega), if_neg (by omega), Nat.add_sub_cancel_left]

/-- A floating-point register after they are loaded. -/
theorem d_loadedRegisters {m : Nat} (hm : m < 24) : (loadedRegisters config s t).d m = regWord s (8 + m) := by
  rw [loadedRegisters, State.d_setD_of_ne (by omega), State.d_setX]
  by_cases h16 : 16 ≤ m
  · obtain ⟨k, rfl⟩ := Nat.exists_eq_add_of_le h16
    rw [State.d_setDs_of_lt (by omega)]
    congr 1
    omega
  · rw [State.d_setDs_of_not (by omega)]
    by_cases h8 : 8 ≤ m
    · obtain ⟨k, rfl⟩ := Nat.exists_eq_add_of_le h8
      rw [State.d_setDs_of_lt (by omega)]
      congr 1
      omega
    · rw [State.d_setDs_of_not (by omega)]
      obtain ⟨k, rfl⟩ := Nat.exists_eq_add_of_le (Nat.zero_le m)
      rw [State.d_setDs_of_lt (by omega)]
      congr 1
      omega

/-- The lanes of four pairs of consecutive registers. -/
theorem lanes_loadedRegisters {v : Nat → F128} {b i : Nat} (hb : b + 8 ≤ 24) (hi : i < 4)
    (hv : ∀ k < 8, regWord s (8 + b + k) = laneWord v k) :
    (loadedRegisters config s t).d (b + i * 2) = (v i).1 ∧
      (loadedRegisters config s t).d (b + i * 2 + 1) = (v i).2 := by
  refine ⟨?_, ?_⟩
  · rw [d_loadedRegisters (by omega), ← Nat.add_assoc, hv _ (by omega), laneWord_lo]
  · rw [d_loadedRegisters (by omega), ← Nat.add_assoc, ← Nat.add_assoc, Nat.add_assoc _ _ 1, hv _ (by omega),
      laneWord_hi]

/-- **Loaded registers are related to the state they were loaded from.** -/
theorem sim_loadedRegisters (hpad : t.Holds (t.x 1) SCRATCHPAD_L3_SIZE (byteAt s.scratchpad))
    (hmode : t.rmode = s.ctl.extractLsb' 22 2) : Sim config (t.x 1) s (loadedRegisters config s t) := by
  refine ⟨?_, ?_, ?_, ⟨rfl, rfl, rfl, rfl, ?_⟩, hpad, hmode⟩
  · intro i hi
    have hx : (loadedRegisters config s t).x (8 + i) = regWord s (0 + i) := by
      rw [loadedRegisters, State.x_setD, State.x_setX_of_ne (by omega), State.x_setDs, State.x_setDs,
        State.x_setDs, State.x_setXs_of_lt hi]
    rw [rReg, Nat.add_comm, hx, regWord_r hi]
  · intro i hi
    have h := @lanes_loadedRegisters config s t s.fAt 0 i (by decide) hi fun k hk => regWord_f hk
    rw [Nat.zero_add] at h
    exact h
  · intro i hi
    exact lanes_loadedRegisters (b := 8) (by decide) hi fun k hk => regWord_e hk
  · intro i hi
    exact lanes_loadedRegisters (b := 16) (by decide) hi fun k hk => regWord_a k

/-- **The prologue** leads from a call to related states, with the registers of the caller on the stack. -/
theorem exists_emitPrologue (fp : FpOps) (h : BodyCall config s t) :
    ∃ t', Straight fp (Frame t) emitPrologue t t' ∧ Sim config (t.x 1) s t' ∧ t'.x 21 = t.x 0 ∧
      Stacked (frameOf t) FRAME_SIZE (savedWords t) t' := by
  obtain ⟨t₁, hsave, hstack, hx, hd, hregs, hpad, hmode⟩ := h.toCallBuffers.exists_saved fp
  rw [← hx] at hregs hpad
  have hconfig : t₁.Holds (t₁.x 2) 16 (blockByte fun k => config.eMask[k]?.getD 0) := by
    rw [hx]
    exact h.config.of_mem (by decide) fun a ha => hsave.mem_eq (h.config_frame a ha)
  refine ⟨loadedRegisters config s t₁, ?_, ?_, ?_, ?_⟩
  · rw [emitPrologue_eq]
    exact hsave.append (straight_emitLoadRegisters hregs hconfig)
  · have hsim := @sim_loadedRegisters config s t₁ hpad hmode
    rw [hx] at hsim
    exact hsim
  · show t₁.x 0 = t.x 0
    rw [hx]
  · exact hstack.of_mem (by decide) rfl fun a _ => rfl

/-! ## Epilogue -/

/-- **What both epilogues end with**: from any state that has the registers of the caller on its stack, `r`, `f`
    and `e` are stored and the registers of the caller restored. -/
theorem exists_emitStoreRestore (fp : FpOps) {t₀ : State} {regs : Word} (hx21 : t.x 21 = regs)
    (hstack : Stacked (frameOf t₀) FRAME_SIZE (savedWords t₀) t)
    (hframe : Apart regs REGISTER_FILE_SIZE (frameOf t₀) FRAME_SIZE) :
    ∃ t', Straight fp (InRegion regs REGISTER_FILE_RFE) (emitStoreRegisters ++ emitRestore) t t' ∧
      CalleeSaved t₀ t' ∧ t'.Holds regs REGISTER_FILE_RFE (blockByte (outWord t)) ∧ t'.fpcr = t.fpcr := by
  subst hx21
  obtain ⟨t₁, hstore, hregs, hmem, hsp, hx, hd, hfpcr⟩ :=
    @exists_emitStoreRegisters fp (InRegion (t.x 21) REGISTER_FILE_RFE) t fun _ => id
  have hstack₁ : Stacked (frameOf t₀) FRAME_SIZE (savedWords t₀) t₁ := by
    refine hstack.of_mem (by decide) hsp fun a ha => hmem a fun ha' => hframe a ?_ ha
    exact Nat.lt_trans ha' (by decide)
  obtain ⟨t₂, hrestore, hsaved, hmem₂, hfpcr₂⟩ :=
    @exists_emitRestore fp (InRegion (t.x 21) REGISTER_FILE_RFE) t₁ t₀ hstack₁
  refine ⟨t₂, hstore.append hrestore, hsaved, ?_, hfpcr₂.trans hfpcr⟩
  exact hregs.of_mem (by decide) fun a _ => by rw [hmem₂]

/-! ## The whole function -/

section

variable {n : Nat} (programBytes : Vector Byte n) (version : RxVersion)

/-- The code of the body function of a program. -/
abbrev bodyCodeOf : Code := bodyCode (bytecodeAt programBytes) version.programSize version

theorem embeds_emitPrologue : Embeds (bodyCodeOf programBytes version) 0 emitPrologue :=
  embeds_before _ _ _ _ _

theorem embeds_emitEpilogue : Embeds (bodyCodeOf programBytes version)
    (offsetOf (bytecodeAt programBytes) version.programSize version emitPrologue version.programSize)
    emitEpilogue := by
  have hemb := embeds_append
    (emittedAt (bytecodeAt programBytes) version.programSize version emitPrologue version.programSize).2
    emitEpilogue []
  rwa [List.append_nil] at hemb

/-- **A body function returns**, having done what the interpreter does and stored only where it may. -/
theorem exists_bodyReturns (fp : FpOps) {programBytes : Vector Byte n} (buf : BytecodeBuffer) {version : RxVersion}
    (hplaced : WellPlaced (bytecodeAt programBytes) version.programSize version emitPrologue (fun _ _ => False)
      (bodyCodeOf programBytes version)) (h : BodyCall config s t) :
    ∃ s' t', executeBytecode (fpUnit fp) config version (compiled programBytes buf version.programSize) s = some s' ∧
      Returns fp (bodyCodeOf programBytes version) (BodyWrites t) 0 t t' ∧ BodyReturn s' t t' := by
  obtain ⟨tr, s', hrun, hlt, hexec⟩ :=
    exists_executeBytecode (fpUnit fp) config version programBytes buf s
  obtain ⟨t₁, hprologue, hsim₁, hx21, hstack⟩ := exists_emitPrologue fp h
  obtain ⟨t₂, hbody, hsim₂, hkept⟩ :=
    traced_run (wellFormed_compiled programBytes version) hplaced hrun hlt hsim₁
  have hpad_frame : ∀ a, Frame t a → ¬ Pad (t.x 1) a := fun a ha ha' => h.scratchpad_frame a ha' ha
  -- the body leaves the frame and the pointer to the register file alone
  have hstack₂ : Stacked (frameOf t) FRAME_SIZE (savedWords t) t₂ :=
    hstack.of_mem (by decide) hkept.sp fun a ha => hbody.steps.mem_eq (hpad_frame a ha)
  have hx21₂ : t₂.x 21 = t.x 0 := (hkept.x 21 (by unfold IsBodyX; omega)).trans hx21
  obtain ⟨t₃, hepilogue, hsaved, hregs, hfpcr⟩ := exists_emitStoreRestore fp hx21₂ hstack₂ h.registers_frame
  refine ⟨s', t₃, hexec, ?_, ?_, ?_, ?_, hsaved⟩
  · have hstart := hprologue.steps (embeds_emitPrologue programBytes version)
    have hend := hepilogue.steps (embeds_emitEpilogue programBytes version).left
    rw [Nat.zero_add] at hstart
    have hframe : ∀ a, Frame t a → BodyWrites t a := fun a ha => .inr (.inr ha)
    have hpad : ∀ a, Pad (t.x 1) a → BodyWrites t a := fun a ha => .inl ha
    have hfile : ∀ a, InRegion (t.x 0) REGISTER_FILE_RFE a → BodyWrites t a := fun a ha => .inr (.inl ha)
    have hall := ((hstart.mono hframe).trans (hbody.steps.mono hpad)).trans (hend.mono hfile)
    exact hall.returned (embeds_emitEpilogue programBytes version).right.head
  · exact hregs.congr fun k hk => by
      rw [blockByte, blockByte, hsim₂.outWord (by unfold REGISTER_FILE_RFE at hk; omega)]
  · refine hsim₂.pad.of_mem (by decide) fun a ha => hepilogue.mem_eq fun ha' => ?_
    exact h.registers_scratchpad a (Nat.lt_trans ha' (by decide)) ha
  · rw [State.rmode_congr hfpcr, hsim₂.mode]

/-- **The body JIT refines the interpreter**: for every program, register file, scratchpad, pair of e-masks and
    rounding mode, the compiled function returns with the registers, the scratchpad and the rounding mode that the
    interpreter ends with. -/
theorem body_jit_refines_interpreter (fp : FpOps) (buf : BytecodeBuffer) (jit : JitCompiler)
    (h : BodyCall config s t) :
    ∃ code s' t',
      (jit.compile (compiled programBytes buf version.programSize) version).bind JitCompiler.getFn = some code ∧
      executeBytecode (fpUnit fp) config version (compiled programBytes buf version.programSize) s = some s' ∧
      Returns fp code (BodyWrites t) 0 t t' ∧
      t'.Holds (t.x 0) REGISTER_FILE_RFE (blockByte (regWord s')) ∧
      t'.Holds (t.x 1) SCRATCHPAD_L3_SIZE (byteAt s'.scratchpad) ∧
      t'.rmode = s'.ctl.extractLsb' 22 2 := by
  obtain ⟨hcompile, hplaced⟩ := wellPlaced_compile programBytes buf jit version
  obtain ⟨s', t', hexec, hreturns, hend⟩ := exists_bodyReturns fp buf hplaced h
  refine ⟨_, s', t', ?_, hexec, hreturns, hend.registers, hend.scratchpad, hend.mode⟩
  rw [hcompile]
  rfl

end

/-- Every state of the interpreter can be handed to the function. -/
theorem bodyCall_callState (config : ProgramConfiguration) (s : VmState) :
    BodyCall config s (callState s (blockByte fun k => config.eMask[k]?.getD 0) 0) := by
  obtain ⟨hbuffers, hoperand⟩ := callBuffers_callState s (blockByte fun k => config.eMask[k]?.getD 0) 0
  have hframe : Apart (0x4000 - BitVec.ofNat 64 FRAME_SIZE) FRAME_SIZE 0x100000000 16 :=
    apart_of_le (by decide) (by decide)
  exact ⟨hbuffers, hoperand.mono (by decide), hframe.symm⟩

/-! ## A program with a store and a branch -/

/-- The double of a signed integer below `2 ^ 53` in size. -/
def intDouble (v : Word) : Word :=
  let m := v.toInt.natAbs
  if m = 0 then 0
  else
    let k := m.log2
    (if v.msb then 1#64 <<< 63 else 0) ||| BitVec.ofNat 64 (1023 + k) <<< 52
      ||| BitVec.ofNat 64 (m * 2 ^ (52 - k) - 2 ^ 52)

example : intDouble (-3) = 0xC008000000000000 := by decide

/-- A unit for programs that only convert integers: that is exact in every mode, and nothing else is asked for. -/
def sampleFpOps : FpOps where
  fadd := fun _ _ _ => 0
  fsub := fun _ _ _ => 0
  fmul := fun _ _ _ => 0
  fdiv := fun _ _ _ => 0
  fsqrt := fun _ _ => 0
  scvtf := fun _ v => intDouble v

/-- `ISTORE` of `r2` to L1 at `r0`, `CBRANCH` on `r1` back to the start, and additions to `r0`. -/
def storeAndBranch (version : RxVersion) : Vector Byte version.programBytesSize :=
  Vector.ofFn fun k =>
    match k.val with
    | 128 => 240
    | 130 => 2
    | 131 => 1
    | 136 => 214
    | 137 => 1
    | _ => 0

def sampleConfig : ProgramConfiguration where
  eMask := #v[0x3FF0000000000000, 0x3FF0000000000001]
  readReg0 := 0
  readReg1 := 2
  readReg2 := 4
  readReg3 := 6

/-- A machine that takes the branch once: the addend `0x100` first makes `r1` zero, then not. -/
def sampleState : VmState where
  nreg :=
    { r := #v[8, -0x100, 5, 1, 2, 3, 4, 6]
      f := Vector.replicate 4 (intDouble 3, intDouble (-3))
      e := Vector.replicate 4 (intDouble 5, intDouble 7)
      a := Vector.replicate 4 (intDouble 2, intDouble 1) }
  scratchpad := Vector.replicate _ 7
  ctl := 0x1400000

/-- The call of a body function with it. -/
def sampleBodyCall : State := callState sampleState (blockByte fun k => sampleConfig.eMask[k]?.getD 0) 0

theorem body_jit_refines_interpreter_sample :
    let bytecode := compiled (storeAndBranch .V2) (Vector.replicate _ BytecodeInstruction.new) RxVersion.V2.programSize
    let t := sampleBodyCall
    ∃ code s' t',
      (JitCompiler.new.compile bytecode .V2).bind JitCompiler.getFn = some code ∧
      executeBytecode (fpUnit sampleFpOps) sampleConfig .V2 bytecode sampleState = some s' ∧
      Returns sampleFpOps code (BodyWrites t) 0 t t' ∧
      t'.Holds (t.x 0) REGISTER_FILE_RFE (blockByte (regWord s')) ∧
      t'.Holds (t.x 1) SCRATCHPAD_L3_SIZE (byteAt s'.scratchpad) ∧
      t'.rmode = s'.ctl.extractLsb' 22 2 :=
  body_jit_refines_interpreter _ .V2 sampleFpOps _ _ (bodyCall_callState sampleConfig sampleState)

end RandomX
end MinerTim
