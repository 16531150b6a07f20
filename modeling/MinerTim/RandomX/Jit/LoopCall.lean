import MinerTim.RandomX.Jit.LoopRun
import MinerTim.RandomX.Jit.BodyCall
import MinerTim.RandomX.SoftAes

/-!
# `RandomX.Jit.LoopCall` — the native loop refines the main loop

`LoopCall` says what `execute_vm_inner` calls the loop function with, `LoopReturn` what the function leaves
behind. The prologue leaves `f` and `e` as the caller had them (`machineFE`): an iteration loads both before it
reads them, so they reach nothing once there is an iteration to run (`prefetchingIterate_machineFE`).
-/

namespace MinerTim
namespace RandomX

open Arm64 Emitter

/-- The result buffer: the loop state, each part in a doubleword. -/
def loopWord (l : LoopState) (k : Nat) : Word :=
  match k with
  | 0 => l.ma.setWidth 64
  | 1 => l.mx.setWidth 64
  | 2 => l.spAddr0.setWidth 64
  | _ => l.spAddr1.setWidth 64

/-- `size_of::<[u64; 4]>()`. -/
def LOOP_OUT_SIZE : Nat := 32

/-- **The call of a loop function**: besides the buffers, the dataset at `x2`, the number of iterations in `x3`
    and the result buffer at `x4`. -/
structure LoopCall (ds : RandomXDataset) (iterations : Nat) (s : VmState) (t : State) : Prop extends
    CallBuffers s t where
  dataset : HoldsDataset t (t.x 2) ds
  count : t.x 3 = BitVec.ofNat 64 iterations
  count_lt : iterations < 2 ^ 64
  dataset_scratchpad : Apart (t.x 2) DATASET_TOTAL_SIZE (t.x 1) SCRATCHPAD_L3_SIZE
  dataset_frame : Apart (t.x 2) DATASET_TOTAL_SIZE (frameOf t) FRAME_SIZE
  out_registers : Apart (t.x 4) LOOP_OUT_SIZE (t.x 0) REGISTER_FILE_SIZE
  out_scratchpad : Apart (t.x 4) LOOP_OUT_SIZE (t.x 1) SCRATCHPAD_L3_SIZE
  out_frame : Apart (t.x 4) LOOP_OUT_SIZE (frameOf t) FRAME_SIZE

/-- **What a loop function leaves behind**, when the main loop ends in `s` and `l`. -/
structure LoopReturn (s : VmState) (l : LoopState) (t t' : State) : Prop where
  registers : t'.Holds (t.x 0) REGISTER_FILE_RFE (blockByte (regWord s))
  scratchpad : t'.Holds (t.x 1) SCRATCHPAD_L3_SIZE (byteAt s.scratchpad)
  out : t'.Holds (t.x 4) LOOP_OUT_SIZE (blockByte (loopWord l))
  mode : t'.rmode = s.ctl.extractLsb' 22 2
  saved : CalleeSaved t t'

/-- The memory that a loop function may write. -/
def LoopWrites (t : State) (a : Word) : Prop := BodyWrites t a ∨ InRegion (t.x 4) LOOP_OUT_SIZE a

/-! ## Prologue -/

section

variable {fp : FpOps} {n : Nat} {programBytes : Vector Byte n} {s : VmState} {t : State}

/-- The moves of the arguments. -/
def emitMoveArgs : Code := movReg 22 2 ++ movReg 28 3 ++ movReg 23 4 ++ movReg 21 0 ++ movReg 16 1

/-- The loads of `r` and `a`. -/
def emitLoadRA : Code :=
  emitFor 8 (fun i => ldrImm (8 + i) 21 (i * 8)) ++ emitFor 8 (fun i => ldrFpImm (16 + i) 21 (192 + i * 8))

/-- The constants of a program: the e-masks, the `FSCAL_R` mask and the initial loop state. -/
def emitConstants (config : ProgramConfiguration) (initMa initMx : BitVec 32) : Code :=
  movImm64 19 config.eMask0 ++ (movImm64 20 config.eMask1 ++ (movImm64 0 JIT_FSCAL_MASK ++ (fmovDx 24 0
    ++ (movImm64 24 (initMa.setWidth 64) ++ (movImm64 25 (initMx.setWidth 64)
    ++ (movImm64 26 (initMx.setWidth 64) ++ movImm64 27 (initMa.setWidth 64)))))))

theorem emitLoopPrologue_eq (config : ProgramConfiguration) (initMa initMx : BitVec 32) (datasetOffset : Word) :
    emitLoopPrologue config initMa initMx datasetOffset
      = emitSave ++ (emitMoveArgs ++ ((movImm64 0 datasetOffset ++ addReg 22 22 0) ++ (emitLoadRA
        ++ emitConstants config initMa initMx))) := by
  unfold emitLoopPrologue emitMoveArgs emitLoadRA emitConstants
  simp only [List.append_assoc]

theorem noPrefetch_emitLoopPrologue (config : ProgramConfiguration) (initMa initMx : BitVec 32)
    (datasetOffset : Word) : NoPrefetch (emitLoopPrologue config initMa initMx datasetOffset) := by
  have hmov := noPrefetch_movImm64
  rw [emitLoopPrologue_eq]
  refine NoPrefetch.append (by decide) (NoPrefetch.append (by decide) ?_)
  refine NoPrefetch.append ((hmov _ _).append (noPrefetch_single rfl)) ?_
  refine NoPrefetch.append (by decide) ((hmov _ _).append ((hmov _ _).append ((hmov _ _).append ?_)))
  exact (noPrefetch_single rfl).append
    ((hmov _ _).append ((hmov _ _).append ((hmov _ _).append (hmov _ _))))

/-- The arguments, moved. -/
def movedArgs (t : State) : State :=
  ((((t.setX 22 (t.x 2)).setX 28 (t.x 3)).setX 23 (t.x 4)).setX 21 (t.x 0)).setX 16 (t.x 1)

/-- The dataset pointer at the offset of the program, and the registers of the program. -/
def loadedRA (datasetOffset : Word) (s : VmState) (t : State) : State :=
  (((((movedArgs t).setX 0 datasetOffset).setX 22 (t.x 2 + datasetOffset)).setXs 8 8
    fun i => regWord s (0 + i)).setDs 16 8 fun i => regWord s (24 + i))

/-- The registers that the loop starts with. -/
def loopRegisters (params : ProgramParams) (s : VmState) (t : State) : State :=
  ((((((((loadedRA params.datasetOffset s t).setX 19 params.config.eMask0).setX 20 params.config.eMask1).setX 0
    JIT_FSCAL_MASK).setD 24 JIT_FSCAL_MASK).setX 24 (params.ma.setWidth 64)).setX 25 (params.mx.setWidth 64)).setX 26
    (params.mx.setWidth 64)).setX 27 (params.ma.setWidth 64)

theorem straight_emitMoveArgs {W : Word → Prop} : Straight fp W emitMoveArgs t (movedArgs t) := by
  simp only [emitMoveArgs, List.append_assoc]
  refine Straight.append (straight_movReg 22 2) ?_
  refine Straight.append (straight_movReg 28 3) ?_
  refine Straight.append (straight_movReg 23 4) ?_
  refine Straight.append (straight_movReg 21 0) ?_
  exact (straight_movReg 16 1).eq rfl

theorem straight_loadedRA {W : Word → Prop} (datasetOffset : Word)
    (hregs : t.Holds (t.x 0) REGISTER_FILE_SIZE (blockByte (regWord s))) :
    Straight fp W ((movImm64 0 datasetOffset ++ addReg 22 22 0) ++ emitLoadRA) (movedArgs t)
      (loadedRA datasetOffset s t) := by
  refine Straight.append ((straight_movImm64 (by decide) _).append (straight_addReg 22 22 0)) ?_
  refine Straight.append (straight_loadXs hregs (by rfl) (by rfl) (by decide) (b := 8) (n := 8) (o := 0)
    (fun i _ => rfl) (fun i _ => by omega) (by decide) (by decide) (by decide) (by decide)) ?_
  exact (straight_loadDs hregs (by rfl) (by rfl) (by decide) (b := 16) (n := 8) (o := 24) (fun i _ => rfl)
    (fun i _ => by omega) (by decide) (by decide)).eq rfl

theorem straight_emitConstants {W : Word → Prop} (params : ProgramParams) :
    Straight fp W (emitConstants params.config params.ma params.mx) (loadedRA params.datasetOffset s t)
      (loopRegisters params s t) := by
  refine Straight.append (straight_movImm64 (by decide) _) ?_
  refine Straight.append (straight_movImm64 (by decide) _) ?_
  refine Straight.append (straight_movImm64 (by decide) _) ?_
  refine Straight.append (straight_fmovDx 24 0) ?_
  refine Straight.append (straight_movImm64 (by decide) _) ?_
  refine Straight.append (straight_movImm64 (by decide) _) ?_
  refine Straight.append (straight_movImm64 (by decide) _) ?_
  exact (straight_movImm64 (by decide) _).eq rfl

/-- The state, with `f` and `e` as the machine has them. -/
def machineFE (s : VmState) (t : State) : VmState :=
  (s.mapF fun i _ => (t.d (fRegs i).1, t.d (fRegs i).2)).mapE fun i _ => (t.d (eRegs i).1, t.d (eRegs i).2)

/-- **The registers that the loop starts with are related to the state they were loaded from.** -/
theorem sim_loopRegisters {params : ProgramParams}
    (hpad : t.Holds (t.x 1) SCRATCHPAD_L3_SIZE (byteAt s.scratchpad)) (hmode : t.rmode = s.ctl.extractLsb' 22 2) :
    Sim params.config (t.x 1) (machineFE s t) (loopRegisters params s t) := by
  -- the A registers are the last that are loaded, and no later write touches them
  have ha : ∀ m < 8, (loopRegisters params s t).d (16 + m) = laneWord s.aAt m := by
    intro m hm
    have hd : (loopRegisters params s t).d (16 + m) = (loadedRA params.datasetOffset s t).d (16 + m) := by
      simp only [loopRegisters, State.d_setX]
      exact State.d_setD_of_ne (by omega)
    rw [hd, loadedRA, State.d_setDs_of_lt hm, regWord_a]
  -- d0 to d15 are as before the call: F and E are whatever the machine has there
  have hfe : ∀ m < 16, (loopRegisters params s t).d m = t.d m := by
    intro m hm
    simp only [loopRegisters, State.d_setX]
    rw [State.d_setD_of_ne (by omega), State.d_setX, State.d_setX, State.d_setX, loadedRA,
      State.d_setDs_of_not (by omega)]
    rfl
  refine ⟨?_, ?_, ?_, ⟨rfl, rfl, rfl, rfl, ?_⟩, hpad, hmode⟩
  · intro i hi
    have hx : (loopRegisters params s t).x (8 + i) = regWord s (0 + i) := by
      simp only [loopRegisters]
      rw [State.x_setX_of_ne (by omega), State.x_setX_of_ne (by omega), State.x_setX_of_ne (by omega),
        State.x_setX_of_ne (by omega), State.x_setD, State.x_setX_of_ne (by omega), State.x_setX_of_ne (by omega),
        State.x_setX_of_ne (by omega), loadedRA, State.x_setDs, State.x_setXs_of_lt hi]
    rw [rReg, Nat.add_comm, hx, regWord_r hi]
    rfl
  · intro i hi
    rw [machineFE, VmState.fAt_mapE, VmState.fAt_mapF hi]
    simp only [fRegs]
    exact ⟨hfe _ (by omega), hfe _ (by omega)⟩
  · intro i hi
    rw [machineFE, VmState.eAt_mapE hi]
    simp only [eRegs]
    exact ⟨hfe _ (by omega), hfe _ (by omega)⟩
  · intro i hi
    have hlo := ha (i * 2) (by omega)
    have hhi := ha (i * 2 + 1) (by omega)
    rw [laneWord_lo] at hlo
    rw [laneWord_hi, ← Nat.add_assoc] at hhi
    exact ⟨hlo, hhi⟩

/-- **The prologue** leads from a call to the head of the loop, with the registers of the caller on the stack. -/
theorem exists_emitLoopPrologue (fp : FpOps) {ds : RandomXDataset} {iterations : Nat}
    (h : LoopCall ds iterations s t) :
    ∃ t', Straight fp (Frame t) (loopPrologueOf programBytes) t t' ∧
      Sim (deriveProgramParams programBytes).config (t.x 1) (machineFE s t) t' ∧
      LoopRegs (t.x 2 + (deriveProgramParams programBytes).datasetOffset) (initLoopState programBytes) t' ∧
      t'.x 21 = t.x 0 ∧ t'.x 23 = t.x 4 ∧ t'.x 28 = t.x 3 ∧
      Stacked (frameOf t) FRAME_SIZE (savedWords t) t' := by
  obtain ⟨t₁, hsave, hstack, hx, hd, hregs, hpad, hmode⟩ := h.toCallBuffers.exists_saved fp
  rw [← hx] at hregs hpad
  have hsim := @sim_loopRegisters s t₁ (deriveProgramParams programBytes) hpad hmode
  rw [hx, machineFE, hd, ← machineFE] at hsim
  refine ⟨loopRegisters (deriveProgramParams programBytes) s t₁, ?_, hsim, ⟨?_, rfl, rfl, rfl, rfl⟩, ?_, ?_, ?_, ?_⟩
  · rw [loopPrologueOf, emitLoopPrologue_eq, ← List.append_assoc _ emitLoadRA]
    exact hsave.append (straight_emitMoveArgs.append ((straight_loadedRA _ hregs).append (straight_emitConstants _)))
  · show t₁.x 2 + _ = _
    rw [hx]
  · show t₁.x 0 = _
    rw [hx]
  · show t₁.x 4 = _
    rw [hx]
  · show t₁.x 3 = _
    rw [hx]
  · exact hstack.of_mem (by decide) rfl fun a _ => rfl

/-! ## Epilogue -/

theorem emitLoopEpilogue_eq : emitLoopEpilogue
    = emitFor 4 (fun i => strImm (24 + i) 23 (i * 8)) ++ ((emitStoreRegisters ++ emitRestore) ++ ret) := by
  rfl

/-- The loop state is stored to the result buffer. -/
theorem exists_emitStoreOut (fp : FpOps) {dataset : Word} {l : LoopState} (hl : LoopRegs dataset l t) :
    ∃ t', Straight fp (InRegion (t.x 23) LOOP_OUT_SIZE) (emitFor 4 fun i => strImm (24 + i) 23 (i * 8)) t t' ∧
      t'.Holds (t.x 23) LOOP_OUT_SIZE (blockByte (loopWord l)) ∧ t'.x = t.x ∧ t'.d = t.d ∧ t'.sp = t.sp ∧
      t'.fpcr = t.fpcr := by
  have hcode := @straight_strXs fp (InRegion (t.x 23) LOOP_OUT_SIZE) t (fun i => 24 + i) (fun i => i * 8) 24 4 0 23
    (fun i _ => rfl) (fun i _ => by omega) (by decide) (by decide) (by decide)
    (fun a ha => ha.mono (by decide) (by decide)) (by decide)
  refine ⟨_, hcode, ?_, rfl, rfl, rfl, rfl⟩
  have hholds : (t.writeBlock (t.x 23 + BitVec.ofNat 64 0) 4 fun i => t.x (24 + i)).Holds
      (t.x 23 + BitVec.ofNat 64 0) LOOP_OUT_SIZE (blockByte fun i => t.x (24 + i)) :=
    State.holds_writeBlock (by decide)
  rw [show t.x 23 + BitVec.ofNat 64 0 = t.x 23 from BitVec.add_zero _] at hholds ⊢
  refine hholds.congr fun k hk => ?_
  rw [blockByte, blockByte]
  congr 1
  have hword : ∀ i < 4, t.x (24 + i) = loopWord l i := by
    intro i hi
    interval_cases i
    · exact hl.ma
    · exact hl.mx
    · exact hl.spAddr0
    · exact hl.spAddr1
  exact hword _ (by unfold LOOP_OUT_SIZE at hk; omega)

/-! ## The whole function -/

/-- Between the guard and the end of the loop: the turns, if any are to be made. -/
theorem exists_turns (fp : FpOps) (aes : AesRounds) (buf : BytecodeBuffer) {ds : RandomXDataset} {iterations : Nat}
    {dsPtr base : Word} {l : LoopState} (hap : Apart dsPtr DATASET_TOTAL_SIZE base SCRATCHPAD_L3_SIZE)
    (hds : HoldsDataset t dsPtr ds) (hsim : Sim (deriveProgramParams programBytes).config base s t)
    (hl : LoopRegs (dsPtr + (deriveProgramParams programBytes).datasetOffset) l t) (hlt : iterations < 2 ^ 64)
    (hx28 : t.x 28 = BitVec.ofNat 64 iterations) :
    ∃ c log t', prefetchingIterate (fpUnit fp) aes .V1 (deriveProgramParams programBytes)
        (interpretV1 fp programBytes buf) ds.getItem iterations (s, l) = some (c, log) ∧
      Traced fp (loopCodeOf programBytes) (Pad base) (guardAt programBytes) t
        (log.flatMap (machinePrefetches dsPtr base)) (endAt programBytes) t' ∧
      Sim (deriveProgramParams programBytes).config base c.1 t' ∧
      LoopRegs (dsPtr + (deriveProgramParams programBytes).datasetOffset) c.2 t' ∧ Kept IsTurnX IsBodyD t t' := by
  cases iterations with
  | zero =>
    have hguard := @traced_guard _ programBytes fp (Pad base) t
    rw [State.getX_of_ne (by decide), hx28] at hguard
    exact ⟨_, [], t, rfl, hguard, hsim, hl, .refl _ _ _⟩
  | succ k =>
    obtain ⟨c, log, t', hiter, hrun, h'⟩ := @traced_loop _ _ fp _ _ _ _ _ _ aes buf hap hds hsim hl _ hlt hx28
    exact ⟨c, log, t', hiter, (traced_guard_succ programBytes hlt hx28).trans hrun, h'⟩

/-- From the call to the guard. -/
theorem exists_loopStart (fp : FpOps) {ds : RandomXDataset} {iterations : Nat} (h : LoopCall ds iterations s t) :
    ∃ t', Traced fp (loopCodeOf programBytes) (Frame t) 0 t [] (guardAt programBytes) t' ∧
      Sim (deriveProgramParams programBytes).config (t.x 1) (machineFE s t) t' ∧
      LoopRegs (t.x 2 + (deriveProgramParams programBytes).datasetOffset) (initLoopState programBytes) t' ∧
      HoldsDataset t' (t.x 2) ds ∧ t'.x 21 = t.x 0 ∧ t'.x 23 = t.x 4 ∧ t'.x 28 = BitVec.ofNat 64 iterations ∧
      Stacked (frameOf t) FRAME_SIZE (savedWords t) t' := by
  obtain ⟨t', hcode, hsim, hl, hx21, hx23, hx28, hstack⟩ := @exists_emitLoopPrologue _ programBytes _ _ fp _ _ h
  have hrun := (hcode.emits (noPrefetch_emitLoopPrologue _ _ _ _)).traced (embeds_loopPrologueOf programBytes).left
  rw [Nat.zero_add] at hrun
  refine ⟨t', hrun, hsim, hl, ?_, hx21, hx23, hx28.trans h.count, hstack⟩
  exact h.dataset.of_mem (by decide) fun a ha => hcode.mem_eq (h.dataset_frame a ha)

/-- **A loop function returns**, having done what the main loop does from the state with the `f` and `e` of the
    machine, with the same prefetches. -/
theorem exists_loopReturns (fp : FpOps) (aes : AesRounds) (buf : BytecodeBuffer) {ds : RandomXDataset}
    {iterations : Nat} (h : LoopCall ds iterations s t) :
    ∃ c log pc t', prefetchingIterate (fpUnit fp) aes .V1 (deriveProgramParams programBytes)
        (interpretV1 fp programBytes buf) ds.getItem iterations (machineFE s t, initLoopState programBytes)
          = some (c, log) ∧
      Traced fp (loopCodeOf programBytes) (LoopWrites t) 0 t (log.flatMap (machinePrefetches (t.x 2) (t.x 1))) pc t' ∧
      (loopCodeOf programBytes)[pc]? = some .ret ∧ LoopReturn c.1 c.2 t t' := by
  obtain ⟨-, -, hend⟩ := wellPlaced_loopCodeOf programBytes
  obtain ⟨t₁, hrun₁, hsim₁, hl₁, hds₁, hx21₁, hx23₁, hx28₁, hstack₁⟩ := @exists_loopStart _ programBytes _ _ fp _ _ h
  -- the turns
  obtain ⟨c, log, t₂, hiter, hrun₂, hsim₂, hl₂, hkept₂⟩ := exists_turns fp aes buf h.dataset_scratchpad hds₁ hsim₁ hl₁
    h.count_lt hx28₁
  have hkeptX : ∀ m, m = 21 ∨ m = 23 → t₂.x m = t₁.x m := fun m hm => hkept₂.x m (by
    unfold IsTurnX IsLoopX IsBodyX
    omega)
  have hx21₂ : t₂.x 21 = t.x 0 := (hkeptX 21 (.inl rfl)).trans hx21₁
  have hx23₂ : t₂.x 23 = t.x 4 := (hkeptX 23 (.inr rfl)).trans hx23₁
  have hstack₂ : Stacked (frameOf t) FRAME_SIZE (savedWords t) t₂ :=
    hstack₁.of_mem (by decide) hkept₂.sp fun a ha => hrun₂.steps.mem_eq fun hpad => h.scratchpad_frame a hpad ha
  -- the epilogue: the result buffer, then what both epilogues end with
  obtain ⟨t₃, hcode₃, hout₃, hx₃, hd₃, hsp₃, hfpcr₃⟩ := exists_emitStoreOut fp hl₂
  rw [hx23₂] at hcode₃ hout₃
  have hstack₃ : Stacked (frameOf t) FRAME_SIZE (savedWords t) t₃ :=
    hstack₂.of_mem (by decide) hsp₃ fun a ha => hcode₃.mem_eq fun hout => h.out_frame a hout ha
  obtain ⟨t₄, hcode₄, hsaved, hregs₄, hfpcr₄⟩ := exists_emitStoreRestore fp
    (show t₃.x 21 = t.x 0 by rw [hx₃, hx21₂]) hstack₃ h.registers_frame
  rw [emitLoopEpilogue_eq] at hend
  have hrun₃ := (hcode₃.emits (by decide +kernel)).traced hend.left
  have hrun₄ := (hcode₄.emits (by decide +kernel)).traced hend.right.left
  have hret := hend.right.right.head
  refine ⟨c, log, _, t₄, hiter, ?_, hret, ?_⟩
  · have hframe : ∀ a, Frame t a → LoopWrites t a := fun a ha => .inl (.inr (.inr ha))
    have hpad : ∀ a, Pad (t.x 1) a → LoopWrites t a := fun a ha => .inl (.inl ha)
    have hfile : ∀ a, InRegion (t.x 0) REGISTER_FILE_RFE a → LoopWrites t a := fun a ha => .inl (.inr (.inl ha))
    have hout : ∀ a, InRegion (t.x 4) LOOP_OUT_SIZE a → LoopWrites t a := fun a ha => .inr ha
    have hall := (((hrun₁.mono hframe).trans (hrun₂.mono hpad)).trans (hrun₃.mono hout)).trans (hrun₄.mono hfile)
    rwa [List.nil_append, List.append_nil, List.append_nil] at hall
  · have hfile_lt : ∀ a, InRegion (t.x 0) REGISTER_FILE_RFE a → InRegion (t.x 0) REGISTER_FILE_SIZE a := fun a ha =>
      Nat.lt_trans ha (by decide)
    refine ⟨?_, ?_, ?_, ?_, hsaved⟩
    · refine hregs₄.congr fun k hk => ?_
      have hword : outWord t₃ (k / 8) = outWord t₂ (k / 8) := by
        rw [outWord, outWord, hx₃, hd₃]
      rw [blockByte, blockByte, hword, hsim₂.outWord (by unfold REGISTER_FILE_RFE at hk; omega)]
    · have hpad₃ : t₃.Holds (t.x 1) SCRATCHPAD_L3_SIZE (byteAt c.1.scratchpad) :=
        hsim₂.pad.of_mem (by decide) fun a ha => hcode₃.mem_eq fun hout => h.out_scratchpad a hout ha
      exact hpad₃.of_mem (by decide) fun a ha =>
        hcode₄.mem_eq fun hfile => h.registers_scratchpad a (hfile_lt a hfile) ha
    · exact hout₃.of_mem (by decide) fun a ha => hcode₄.mem_eq fun hfile => h.out_registers a ha (hfile_lt a hfile)
    · rw [State.rmode_congr (hfpcr₄.trans hfpcr₃), hsim₂.mode]

/-- **`f` and `e` reach nothing**: an iteration loads them before it reads them. -/
theorem prefetchingIterate_machineFE (fp : FpOps) (aes : AesRounds) (buf : BytecodeBuffer) (ds : RandomXDataset)
    (l : LoopState) (k : Nat) :
    prefetchingIterate (fpUnit fp) aes .V1 (deriveProgramParams programBytes) (interpretV1 fp programBytes buf)
        ds.getItem (k + 1) (machineFE s t, l)
      = prefetchingIterate (fpUnit fp) aes .V1 (deriveProgramParams programBytes) (interpretV1 fp programBytes buf)
        ds.getItem (k + 1) (s, l) := by
  have hconfig := deriveProgramParams_wellFormed programBytes
  obtain ⟨dataLine, hline⟩ := exists_getItem programBytes ds l.ma
  obtain ⟨-, s', -, -, hbody⟩ := exists_executeBytecode (fpUnit fp) (deriveProgramParams programBytes).config .V1
    programBytes buf (loopHead (fpUnit fp) (deriveProgramParams programBytes).config
      (spAddr0 (deriveProgramParams programBytes).config s l).toNat
      (spAddr1 (deriveProgramParams programBytes).config s l).toNat s)
  have hbody' : interpretV1 fp programBytes buf (loopHead (fpUnit fp) (deriveProgramParams programBytes).config
      (spAddr0 (deriveProgramParams programBytes).config (machineFE s t) l).toNat
      (spAddr1 (deriveProgramParams programBytes).config (machineFE s t) l).toNat (machineFE s t)) = some s' := hbody
  have hstep := @prefetchingIteration_eq (fpUnit fp) aes .V1 (deriveProgramParams programBytes)
    (interpretV1 fp programBytes buf) ds.getItem hconfig
  rw [prefetchingIterate, prefetchingIterate, hstep, hstep, iteration_eq hconfig hbody hline,
    iteration_eq hconfig hbody' hline]
  rfl

end

/-! ## Refinement -/

section

variable {n : Nat} (programBytes : Vector Byte n) (fp : FpOps) (aes : AesRounds) (buf : BytecodeBuffer)
  (jit : JitCompiler) {ds : RandomXDataset} {iterations : Nat} {s : VmState} {t : State}

/-- **The native loop refines the main loop**: for every program, dataset, register file, scratchpad, rounding mode
    and number of iterations, the compiled function returns with what the main loop ends with. Without an iteration
    to run it returns the integer registers, the scratchpad, the rounding mode and the loop state as they were. -/
theorem native_loop_refines_interpreter (h : LoopCall ds iterations s t) :
    ∃ code t',
      (jit.compileNativeLoop (compiled programBytes buf RxVersion.V1.programSize) .V1
          (deriveProgramParams programBytes).config (deriveProgramParams programBytes).ma
          (deriveProgramParams programBytes).mx (deriveProgramParams programBytes).datasetOffset).bind
        JitCompiler.getLoopFn = some code ∧
      Returns fp code (LoopWrites t) 0 t t' ∧
      (0 < iterations → ∃ s' l',
        iterate (fpUnit fp) aes .V1 (deriveProgramParams programBytes)
            (executeBytecode (fpUnit fp) (deriveProgramParams programBytes).config .V1
              (compiled programBytes buf RxVersion.V1.programSize))
            ds.getItem iterations (s, initLoopState programBytes) = some (s', l') ∧
        t'.Holds (t.x 0) REGISTER_FILE_RFE (blockByte (regWord s')) ∧
        t'.Holds (t.x 1) SCRATCHPAD_L3_SIZE (byteAt s'.scratchpad) ∧
        t'.Holds (t.x 4) LOOP_OUT_SIZE (blockByte (loopWord l')) ∧
        t'.rmode = s'.ctl.extractLsb' 22 2) ∧
      (iterations = 0 →
        t'.Holds (t.x 0) 64 (blockByte (regWord s)) ∧
        t'.Holds (t.x 1) SCRATCHPAD_L3_SIZE (byteAt s.scratchpad) ∧
        t'.Holds (t.x 4) LOOP_OUT_SIZE (blockByte (loopWord (initLoopState programBytes))) ∧
        t'.rmode = s.ctl.extractLsb' 22 2) := by
  obtain ⟨c, log, pc, t', hiter, hrun, hret, hend⟩ := @exists_loopReturns _ programBytes _ _ fp aes buf _ _ h
  refine ⟨_, t', compileNativeLoop_loopCodeOf programBytes buf jit, hrun.steps.returned hret, ?_, ?_⟩
  · intro hpos
    obtain ⟨k, rfl⟩ := Nat.exists_eq_add_of_le' hpos
    rw [prefetchingIterate_machineFE] at hiter
    refine ⟨c.1, c.2, ?_, hend.registers, hend.scratchpad, hend.out, hend.mode⟩
    rw [← map_prefetchingIterate (deriveProgramParams_wellFormed programBytes), hiter]
    rfl
  · rintro rfl
    obtain ⟨rfl, -⟩ := Prod.mk.inj (Option.some.inj hiter)
    refine ⟨?_, hend.scratchpad, hend.out, hend.mode⟩
    refine (hend.registers.mono (by decide)).congr fun k hk => ?_
    -- the integer registers are not those that the machine had
    have hword : regWord (machineFE s t) (k / 8) = regWord s (k / 8) := by
      rw [regWord, regWord, if_pos (by omega), if_pos (by omega)]
      rfl
    rw [blockByte, blockByte, hword]

end

/-- Every state of the interpreter and every dataset can be handed to the function. -/
theorem loopCall_callState (ds : RandomXDataset) {iterations : Nat} (hlt : iterations < 2 ^ 64) (s : VmState) :
    LoopCall ds iterations s (callState s (blockByte (datasetWord ds)) (BitVec.ofNat 64 iterations)) := by
  obtain ⟨hbuffers, hoperand⟩ := callBuffers_callState s (blockByte (datasetWord ds)) (BitVec.ofNat 64 iterations)
  have hds_pad : Apart 0x1000000 SCRATCHPAD_L3_SIZE 0x100000000 DATASET_TOTAL_SIZE :=
    apart_of_le (by decide) (by decide)
  have hds_frame : Apart (0x4000 - BitVec.ofNat 64 FRAME_SIZE) FRAME_SIZE 0x100000000 DATASET_TOTAL_SIZE :=
    apart_of_le (by decide) (by decide)
  have hregs_out : Apart 0x1000 REGISTER_FILE_SIZE 0x2000 LOOP_OUT_SIZE := apart_of_le (by decide) (by decide)
  have hout_pad : Apart 0x2000 LOOP_OUT_SIZE 0x1000000 SCRATCHPAD_L3_SIZE := apart_of_le (by decide) (by decide)
  have hout_frame : Apart 0x2000 LOOP_OUT_SIZE (0x4000 - BitVec.ofNat 64 FRAME_SIZE) FRAME_SIZE :=
    apart_of_le (by decide) (by decide)
  exact ⟨hbuffers, hoperand, rfl, hlt, hds_pad.symm, hds_frame.symm, hregs_out.symm, hout_pad, hout_frame⟩

/-- The same line everywhere. -/
def sampleDataset : RandomXDataset where
  items := Array.replicate DATASET_ITEM_COUNT #v[1, 2, 3, 4, 5, 6, 7, 8]
  size_eq := Array.size_replicate

/-- Two turns of `storeAndBranch`. -/
theorem native_loop_refines_interpreter_sample :
    let programBytes := storeAndBranch .V1
    let params := deriveProgramParams programBytes
    let bytecode := compiled programBytes (Vector.replicate _ BytecodeInstruction.new) RxVersion.V1.programSize
    let t := callState sampleState (blockByte (datasetWord sampleDataset)) 2
    ∃ code s' l' t',
      (JitCompiler.new.compileNativeLoop bytecode .V1 params.config params.ma params.mx params.datasetOffset).bind
        JitCompiler.getLoopFn = some code ∧
      iterate (fpUnit sampleFpOps) softRounds .V1 params
        (executeBytecode (fpUnit sampleFpOps) params.config .V1 bytecode) sampleDataset.getItem 2
        (sampleState, initLoopState programBytes) = some (s', l') ∧
      Returns sampleFpOps code (LoopWrites t) 0 t t' ∧
      t'.Holds (t.x 0) REGISTER_FILE_RFE (blockByte (regWord s')) ∧
      t'.Holds (t.x 1) SCRATCHPAD_L3_SIZE (byteAt s'.scratchpad) ∧
      t'.Holds (t.x 4) LOOP_OUT_SIZE (blockByte (loopWord l')) ∧
      t'.rmode = s'.ctl.extractLsb' 22 2 := by
  intro programBytes params bytecode t
  have hcall : LoopCall sampleDataset 2 sampleState t := loopCall_callState sampleDataset (by decide) sampleState
  obtain ⟨code, t', hcode, hreturns, hpos, -⟩ :=
    native_loop_refines_interpreter programBytes sampleFpOps softRounds (Vector.replicate _ BytecodeInstruction.new)
      JitCompiler.new hcall
  obtain ⟨s', l', hiter, hend⟩ := hpos (by decide)
  exact ⟨code, s', l', t', hcode, hiter, hreturns, hend⟩

/-! ## Prefetches -/

/-- **Prefetches hit**, for every program. On every run of the main loop, whatever the body and the dataset, the
    scratchpad blocks prefetched in an iteration are those of the next one, and the dataset item is that of the next
    iteration of V1 and of the one after it of V2. The native loop prefetches the same addresses, turn by turn: at the
    head of the loop the counter tells which iteration it is. -/
theorem prefetches_hit {n : Nat} (programBytes : Vector Byte n) :
    (∀ (fp : FpUnit) (aes : AesRounds) (version : RxVersion) (body : VmState → Option VmState)
        (line : Word → Option Line) (iterations : Nat) (c : VmState × LoopState),
      (prefetchingIterate fp aes version (deriveProgramParams programBytes) body line iterations c).map Prod.fst
        = iterate fp aes version (deriveProgramParams programBytes) body line iterations c ∧
      ∀ (c' : VmState × LoopState) (log : List IterationAccess),
        prefetchingIterate fp aes version (deriveProgramParams programBytes) body line iterations c
          = some (c', log) →
        log.length = iterations ∧
        (∀ (i : Nat) (a b : IterationAccess), log[i]? = some a → log[i + 1]? = some b →
          a.scratchpadPrefetch0 = b.spAddr0 ∧ a.scratchpadPrefetch1 = b.spAddr1 ∧
          (version = .V1 → a.datasetPrefetch = b.itemNumber * BitVec.ofNat 64 CACHE_LINE_SIZE)) ∧
        (version = .V2 → ∀ (i : Nat) (a b : IterationAccess), log[i]? = some a → log[i + 2]? = some b →
          a.datasetPrefetch = b.itemNumber * BitVec.ofNat 64 CACHE_LINE_SIZE)) ∧
    (∀ (fp : FpOps) (aes : AesRounds) (buf : BytecodeBuffer) (jit : JitCompiler) (ds : RandomXDataset)
        (iterations : Nat) (s : VmState) (t : State), LoopCall ds iterations s t →
      ∃ code c log,
        (jit.compileNativeLoop (compiled programBytes buf RxVersion.V1.programSize) .V1
            (deriveProgramParams programBytes).config (deriveProgramParams programBytes).ma
            (deriveProgramParams programBytes).mx (deriveProgramParams programBytes).datasetOffset).bind
          JitCompiler.getLoopFn = some code ∧
        prefetchingIterate (fpUnit fp) aes .V1 (deriveProgramParams programBytes) (interpretV1 fp programBytes buf)
          ds.getItem iterations (s, initLoopState programBytes) = some (c, log) ∧
        (∃ steps, ∀ m, steps ≤ m →
          prefetched fp code m 0 t = log.flatMap (machinePrefetches (t.x 2) (t.x 1))) ∧
        (0 < iterations → ∃ turns : Nat → State,
          Traced fp code (LoopWrites t) 0 t [] (guardAt programBytes + 1) (turns 0) ∧
          ∀ (i : Nat) (access : IterationAccess), log[i]? = some access →
            (turns i).x 28 = BitVec.ofNat 64 (iterations - i) ∧
            Traced fp code (LoopWrites t) (guardAt programBytes + 1) (turns i)
              (machinePrefetches (t.x 2) (t.x 1) access)
              (if i + 1 = iterations then endAt programBytes else guardAt programBytes + 1) (turns (i + 1)))) := by
  have hconfig := deriveProgramParams_wellFormed programBytes
  refine ⟨fun fp aes version body line iterations c => ⟨map_prefetchingIterate hconfig iterations c, ?_⟩, ?_⟩
  · intro c' log hiter
    exact ⟨(exists_states hconfig hiter).1, prefetch_spec hconfig (datasetOffset_aligned programBytes) hiter⟩
  · intro fp aes buf jit ds iterations s t h
    obtain ⟨c, log, pc, t', hiter, hrun, hret, -⟩ := @exists_loopReturns _ programBytes _ _ fp aes buf _ _ h
    have hcode := compileNativeLoop_loopCodeOf programBytes buf jit
    -- with no iterations the guard returns at once, and nothing is prefetched
    cases iterations with
    | zero =>
      obtain ⟨rfl, rfl⟩ := Prod.mk.inj (Option.some.inj hiter)
      exact ⟨_, _, _, hcode, rfl, hrun.prefetched hret, fun hpos => absurd hpos (Nat.lt_irrefl 0)⟩
    | succ k =>
      rw [prefetchingIterate_machineFE] at hiter
      refine ⟨_, _, _, hcode, hiter, hrun.prefetched hret, fun _ => ?_⟩
      obtain ⟨t₁, hrun₁, hsim₁, hl₁, hds₁, -, -, hx28₁, -⟩ := @exists_loopStart _ programBytes _ _ fp _ _ h
      obtain ⟨c₁, log₁, hiter₁, turns, rfl, hturns⟩ := @exists_turnStates _ _ fp _ _ _ _ _ _ aes buf
        h.dataset_scratchpad hds₁ hsim₁ hl₁ _ h.count_lt hx28₁
      rw [prefetchingIterate_machineFE] at hiter₁
      -- the turns are of the run that the call makes: both are the value of one `prefetchingIterate`
      obtain ⟨rfl, rfl⟩ := Prod.mk.inj (Option.some.inj (hiter.symm.trans hiter₁))
      refine ⟨turns, ?_, fun i access haccess => ?_⟩
      · exact (hrun₁.mono fun a ha => .inl (.inr (.inr ha))).trans (traced_guard_succ programBytes h.count_lt hx28₁)
      · obtain ⟨hcount, hturn⟩ := hturns i access haccess
        simp only [Nat.add_right_cancel_iff]
        exact ⟨hcount, hturn.mono fun a ha => .inl (.inl ha)⟩

/-- Two turns of `storeAndBranch`. -/
theorem prefetches_hit_sample :
    let programBytes := storeAndBranch .V1
    let buf : BytecodeBuffer := Vector.replicate _ BytecodeInstruction.new
    let params := deriveProgramParams programBytes
    let bytecode := compiled programBytes buf RxVersion.V1.programSize
    let t := callState sampleState (blockByte (datasetWord sampleDataset)) 2
    ∃ code c log,
      (JitCompiler.new.compileNativeLoop bytecode .V1 params.config params.ma params.mx params.datasetOffset).bind
        JitCompiler.getLoopFn = some code ∧
      prefetchingIterate (fpUnit sampleFpOps) softRounds .V1 params (interpretV1 sampleFpOps programBytes buf)
        sampleDataset.getItem 2 (sampleState, initLoopState programBytes) = some (c, log) ∧
      log.length = 2 ∧
      (∀ (i : Nat) (a b : IterationAccess), log[i]? = some a → log[i + 1]? = some b →
        a.scratchpadPrefetch0 = b.spAddr0 ∧ a.scratchpadPrefetch1 = b.spAddr1 ∧
        a.datasetPrefetch = b.itemNumber * BitVec.ofNat 64 CACHE_LINE_SIZE) ∧
      ∃ steps, ∀ m, steps ≤ m →
        prefetched sampleFpOps code m 0 t = log.flatMap (machinePrefetches 0x100000000 0x1000000) := by
  intro programBytes buf params bytecode t
  have hcall : LoopCall sampleDataset 2 sampleState t := loopCall_callState sampleDataset (by decide) sampleState
  obtain ⟨hloop, hnative⟩ := prefetches_hit programBytes
  obtain ⟨code, c, log, hcode, hiter, hprefetched, -⟩ :=
    hnative sampleFpOps softRounds buf JitCompiler.new sampleDataset 2 sampleState t hcall
  obtain ⟨-, hruns⟩ := hloop (fpUnit sampleFpOps) softRounds .V1 (interpretV1 sampleFpOps programBytes buf)
    sampleDataset.getItem 2 (sampleState, initLoopState programBytes)
  obtain ⟨hlen, hhit, -⟩ := hruns c log hiter
  refine ⟨code, c, log, hcode, hiter, hlen, fun i a b ha hb => ?_, hprefetched⟩
  obtain ⟨h0, h1, hline⟩ := hhit i a b ha hb
  exact ⟨h0, h1, hline rfl⟩

end RandomX
end MinerTim
