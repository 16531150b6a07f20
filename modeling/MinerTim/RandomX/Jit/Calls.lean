import MinerTim.Lib.Arm64.Block
import MinerTim.RandomX.Jit.Simulation
import MinerTim.RandomX.VmLoopSpec

/-!
# `RandomX.Jit.Calls` — what both calling conventions share

* `emit_prologue` and `emit_loop_prologue` begin by saving the callee-saved registers in a frame of
  `FRAME_SIZE` bytes below the stack pointer; both epilogues restore them (`exists_emitSave`,
  `exists_emitRestore`).
* The register file is a block of 32 doublewords (`regWord`). Runs of loads and of stores, register by
  register, are one update each (`straight_ldrXs`, `straight_ldrDs`, `straight_strXs`, `straight_strDs`).
-/

namespace MinerTim
namespace RandomX

open Arm64 Emitter

/-! ## Callee-saved registers -/

/-- What the prologues push. -/
def FRAME_SIZE : Nat := 160

/-- The base of the frame of a call. -/
abbrev frameOf (t : State) : Word := t.sp - BitVec.ofNat 64 FRAME_SIZE

/-- The addresses of the frame of a call. -/
abbrev Frame (t : State) : Word → Prop := InRegion (frameOf t) FRAME_SIZE

/-- What a function gives back to its caller. -/
structure CalleeSaved (t t' : State) : Prop where
  sp : t'.sp = t.sp
  x : ∀ n, 19 ≤ n → n ≤ 30 → t'.x n = t.x n
  d : ∀ n, 8 ≤ n → n ≤ 15 → t'.d n = t.d n

/-- The pairs in the order of the prologues. -/
def savedX : List (Nat × Nat) := [(29, 30), (19, 20), (21, 22), (23, 24), (25, 26), (27, 28)]

/-- The pairs of `d` registers that a function saves. -/
def savedD : List (Nat × Nat) := [(8, 9), (10, 11), (12, 13), (14, 15)]

/-- The saved words, from the top of the stack. -/
def savedWords (t : State) : List Word :=
  (pairRegs savedD.reverse).map t.d ++ ((pairRegs savedX.reverse).map t.getX ++ [])

theorem emitSave_eq : emitSave
    = savedX.flatMap (fun p => [.stpPre p.1 p.2 31 (BitVec.ofInt 7 ((-16 : Int).tdiv 8))])
      ++ savedD.flatMap fun p => [.stpFpPre p.1 p.2 31 (BitVec.ofInt 7 ((-16 : Int).tdiv 8))] := by
  decide

theorem emitRestore_eq : emitRestore
    = savedD.reverse.flatMap (fun p => [.ldpFpPost p.1 p.2 31 (BitVec.ofInt 7 ((16 : Int).tdiv 8))])
      ++ savedX.reverse.flatMap fun p => [.ldpPost p.1 p.2 31 (BitVec.ofInt 7 ((16 : Int).tdiv 8))] := by
  decide

variable {fp : FpOps} {W : Word → Prop} {t t' : State}

/-- **The callee-saved registers are saved**, and no register changes but the stack pointer. -/
theorem exists_emitSave (fp : FpOps) (t : State) :
    ∃ t', Straight fp (Frame t) emitSave t t' ∧ Stacked (frameOf t) FRAME_SIZE (savedWords t) t' ∧
      t'.x = t.x ∧ t'.d = t.d ∧ t'.fpcr = t.fpcr := by
  have hempty : Stacked (frameOf t) FRAME_SIZE [] t :=
    stacked_nil (BitVec.sub_add_cancel t.sp _).symm
  have himm : pairOffset (BitVec.ofInt 7 ((-16 : Int).tdiv 8)) = -16 := by decide
  obtain ⟨t₁, hcode₁, hstack₁, hx₁, hd₁, hfpcr₁⟩ :=
    exists_stpPres fp himm (by decide) savedX hempty (by decide)
  obtain ⟨t₂, hcode₂, hstack₂, hx₂, hd₂, hfpcr₂⟩ :=
    exists_stpFpPres fp himm (by decide) savedD hstack₁ (show 8 * 12 + 16 * 4 ≤ 160 by decide)
  refine ⟨t₂, ?_, ?_, hx₂.trans hx₁, hd₂.trans hd₁, hfpcr₂.trans hfpcr₁⟩
  · rw [emitSave_eq]
    exact hcode₁.append hcode₂
  · rw [hd₁] at hstack₂
    exact hstack₂

/-- **They are restored** from the frame, and nothing else changes. -/
theorem exists_emitRestore {t₀ : State} (h : Stacked (frameOf t₀) FRAME_SIZE (savedWords t₀) t) :
    ∃ t', Straight fp W emitRestore t t' ∧ CalleeSaved t₀ t' ∧ t'.mem = t.mem ∧ t'.fpcr = t.fpcr := by
  have himm : pairOffset (BitVec.ofInt 7 ((16 : Int).tdiv 8)) = 16 := by decide
  obtain ⟨t₁, hcode₁, hstack₁, hd₁, hx₁, hmem₁, hfpcr₁⟩ :=
    exists_ldpFpPosts fp W himm t₀.d h
  obtain ⟨t₂, hcode₂, hstack₂, hx₂, hd₂, hmem₂, hfpcr₂⟩ :=
    exists_ldpPosts fp W himm t₀.getX (by decide) hstack₁
  refine ⟨t₂, ?_, ⟨?_, ?_, ?_⟩, hmem₂.trans hmem₁, hfpcr₂.trans hfpcr₁⟩
  · rw [emitRestore_eq]
    exact hcode₁.append hcode₂
  · exact hstack₂.sp.trans (BitVec.sub_add_cancel t₀.sp _)
  · intro n hlo hhi
    have hmem : n ∈ pairRegs savedX.reverse := by
      interval_cases n <;> decide
    rw [hx₂ n, if_pos hmem, State.getX_of_ne (by omega)]
  · intro n hlo hhi
    have hmem : n ∈ pairRegs savedD.reverse := by
      interval_cases n <;> decide
    rw [hd₂, hd₁ n, if_pos hmem]

/-! ## Runs of loads and stores -/

section

variable {reg addr : Nat → Nat} {b n off rn : Nat} (hreg : ∀ i < n, reg i = b + i)
  (haddr : ∀ i < n, addr i = off + 8 * i) (hrn : rn ≠ 31) (h8 : off % 8 = 0) (hlt : off + 8 * n ≤ 32768)
include hreg haddr hrn h8 hlt

theorem straight_ldrXs (hb : b + n ≤ 31) (hout : ¬ (b ≤ rn ∧ rn < b + n)) :
    Straight fp W (emitFor n fun i => ldrImm (reg i) rn (addr i)) t
      (t.setXs b n fun i => t.read (t.x rn + BitVec.ofNat 64 (off + 8 * i))) := by
  have hrun := @straight_flatMap fp W (fun i => ldrImm (reg i) rn (addr i))
    (fun i => t.setXs b i fun i => t.read (t.x rn + BitVec.ofNat 64 (off + 8 * i))) n fun k hk => by
      have hx : (t.setXs b k fun i => t.read (t.x rn + BitVec.ofNat 64 (off + 8 * i))).x rn = t.x rn :=
        State.x_setXs_of_not (by omega)
      refine (straight_ldrImm hrn (by rw [haddr k hk]; omega) (by rw [haddr k hk]; omega) _).eq ?_
      rw [hx, hreg k hk, haddr k hk, State.read_congr State.mem_setXs]
      exact State.setX_setXs (by omega)
  rw [State.setXs_zero] at hrun
  exact hrun

theorem straight_ldrDs :
    Straight fp W (emitFor n fun i => ldrFpImm (reg i) rn (addr i)) t
      (t.setDs b n fun i => t.read (t.x rn + BitVec.ofNat 64 (off + 8 * i))) := by
  have hrun := @straight_flatMap fp W (fun i => ldrFpImm (reg i) rn (addr i))
    (fun i => t.setDs b i fun i => t.read (t.x rn + BitVec.ofNat 64 (off + 8 * i))) n fun k hk => by
      refine (straight_ldrFpImm hrn (by rw [haddr k hk]; omega) (by rw [haddr k hk]; omega) _).eq ?_
      rw [State.x_setDs, hreg k hk, haddr k hk, State.read_congr State.mem_setDs]
      exact State.setD_setDs
  rw [State.setDs_zero] at hrun
  exact hrun

variable (hW : ∀ a, InRegion (t.x rn + BitVec.ofNat 64 off) (8 * n) a → W a)
include hW

omit hreg h8 hrn in
/-- The doubleword of one step of a run of stores. -/
theorem inRegion_store {k : Nat} (hk : k < n) :
    t.x rn + BitVec.ofNat 64 (addr k) = t.x rn + BitVec.ofNat 64 off + BitVec.ofNat 64 (8 * k) ∧
      ∀ a, InRegion (t.x rn + BitVec.ofNat 64 (addr k)) 8 a → W a := by
  have heq : t.x rn + BitVec.ofNat 64 (addr k)
      = t.x rn + BitVec.ofNat 64 off + BitVec.ofNat 64 (8 * k) := by
    rw [haddr k hk, BitVec.ofNat_add, BitVec.add_assoc]
  refine ⟨heq, ?_⟩
  intro a ha
  rw [heq] at ha
  exact hW a (ha.mono (by omega) (by omega))

theorem straight_strXs (hb : b + n ≤ 31) :
    Straight fp W (emitFor n fun i => strImm (reg i) rn (addr i)) t
      (t.writeBlock (t.x rn + BitVec.ofNat 64 off) n fun i => t.x (b + i)) := by
  have hrun := @straight_flatMap fp W (fun i => strImm (reg i) rn (addr i))
    (fun i => t.writeBlock (t.x rn + BitVec.ofNat 64 off) i fun i => t.x (b + i)) n fun k hk => by
      obtain ⟨heq, hin⟩ := inRegion_store haddr hlt hW hk
      refine (straight_strImm (t := t.writeBlock _ k _) hrn (by rw [haddr k hk]; omega) (by rw [haddr k hk]; omega) _
        hin).eq ?_
      rw [State.x_writeBlock, State.getX_of_ne (by rw [hreg k hk]; omega), State.x_writeBlock, heq,
        hreg k hk]
      exact State.write_writeBlock (by omega)
  rw [State.writeBlock_zero] at hrun
  exact hrun

theorem straight_strDs :
    Straight fp W (emitFor n fun i => strFpImm (reg i) rn (addr i)) t
      (t.writeBlock (t.x rn + BitVec.ofNat 64 off) n fun i => t.d (b + i)) := by
  have hrun := @straight_flatMap fp W (fun i => strFpImm (reg i) rn (addr i))
    (fun i => t.writeBlock (t.x rn + BitVec.ofNat 64 off) i fun i => t.d (b + i)) n fun k hk => by
      obtain ⟨heq, hin⟩ := inRegion_store haddr hlt hW hk
      refine (straight_strFpImm (t := t.writeBlock _ k _) hrn (by rw [haddr k hk]; omega) (by rw [haddr k hk]; omega) _
        hin).eq ?_
      rw [State.x_writeBlock, State.d_writeBlock, heq, hreg k hk]
      exact State.write_writeBlock (by omega)
  rw [State.writeBlock_zero] at hrun
  exact hrun

end

/-! ## The register file -/

/-- Doubleword `k` of four pairs of doubles. -/
def laneWord (v : Nat → F128) (k : Nat) : Word := if k % 2 = 0 then (v (k / 2)).1 else (v (k / 2)).2

theorem laneWord_lo (v : Nat → F128) (i : Nat) : laneWord v (i * 2) = (v i).1 := by
  rw [laneWord, if_pos (Nat.mul_mod_left i 2), Nat.mul_div_cancel i (by decide)]

theorem laneWord_hi (v : Nat → F128) (i : Nat) : laneWord v (i * 2 + 1) = (v i).2 := by
  rw [laneWord, if_neg (by omega), show (i * 2 + 1) / 2 = i by omega]

/-- `size_of::<NativeRegisterFile>()`, and the part of it before the `a` registers. -/
def REGISTER_FILE_SIZE : Nat := 256

/-- Where the register file has `a`. -/
def REGISTER_FILE_RFE : Nat := 192

/-- Doubleword `k` of the register file (`repr(C)`). -/
def regWord (s : VmState) (k : Nat) : Word :=
  if k < 8 then s.rAt k
  else if k < 16 then laneWord s.fAt (k - 8)
  else if k < 24 then laneWord s.eAt (k - 16)
  else laneWord s.aAt (k - 24)

/-- A doubleword of a block in memory. -/
theorem read_block {base : Word} {size : Nat} {w : Nat → Word} (h : t.Holds base size (blockByte w)) {k : Nat}
    (hk : 8 * k + 8 ≤ size) : t.read (base + BitVec.ofNat 64 (8 * k)) = w k := by
  rw [h.read hk]
  exact leWord_blockByte w k

section

variable {t₀ : State} {base : Word} {w : Nat → Word} {size rn : Nat}
  (h : t₀.Holds base size (blockByte w)) (hmem : t.mem = t₀.mem) (hbase : t.x rn = base) (hrn : rn ≠ 31)
include h hmem hbase hrn

/-- One doubleword of a block. -/
theorem straight_loadX {addr : Nat} (k : Nat) (haddr : addr = 8 * k) (hsize : 8 * k + 8 ≤ size)
    (hlt : 8 * k < 32768) (rt : Nat) : Straight fp W (ldrImm rt rn addr) t (t.setX rt (w k)) := by
  subst haddr
  refine (straight_ldrImm hrn (Nat.mul_mod_right 8 k) hlt rt).eq ?_
  rw [hbase, State.read_congr hmem, read_block h hsize]

variable {reg addr : Nat → Nat} {b n o : Nat} (hreg : ∀ i < n, reg i = b + i)
  (haddr : ∀ i < n, addr i = 8 * o + 8 * i) (hsize : 8 * o + 8 * n ≤ size) (hlt : 8 * o + 8 * n ≤ 32768)
include hreg haddr hsize hlt

/-- Consecutive doublewords of a block, loaded into consecutive registers. -/
theorem straight_loadXs (hb : b + n ≤ 31) (hout : ¬ (b ≤ rn ∧ rn < b + n)) :
    Straight fp W (emitFor n fun i => ldrImm (reg i) rn (addr i)) t (t.setXs b n fun i => w (o + i)) := by
  refine (straight_ldrXs hreg haddr hrn (Nat.mul_mod_right 8 o) hlt hb hout).eq ?_
  refine State.setXs_congr fun i hi => ?_
  rw [hbase, State.read_congr hmem, ← Nat.mul_add, read_block h (by omega)]

theorem straight_loadDs :
    Straight fp W (emitFor n fun i => ldrFpImm (reg i) rn (addr i)) t (t.setDs b n fun i => w (o + i)) := by
  refine (straight_ldrDs hreg haddr hrn (Nat.mul_mod_right 8 o) hlt).eq ?_
  refine State.setDs_congr fun i hi => ?_
  rw [hbase, State.read_congr hmem, ← Nat.mul_add, read_block h (by omega)]

end

/-- What both functions are called with: the register file at `x0` and the scratchpad at `x1`, apart from each
    other and from the frame that the function is about to use. -/
structure CallBuffers (s : VmState) (t : State) : Prop where
  registers : t.Holds (t.x 0) REGISTER_FILE_SIZE (blockByte (regWord s))
  scratchpad : t.Holds (t.x 1) SCRATCHPAD_L3_SIZE (byteAt s.scratchpad)
  mode : t.rmode = s.ctl.extractLsb' 22 2
  registers_scratchpad : Apart (t.x 0) REGISTER_FILE_SIZE (t.x 1) SCRATCHPAD_L3_SIZE
  registers_frame : Apart (t.x 0) REGISTER_FILE_SIZE (frameOf t) FRAME_SIZE
  scratchpad_frame : Apart (t.x 1) SCRATCHPAD_L3_SIZE (frameOf t) FRAME_SIZE

/-- **Saving the registers** leaves the buffers of a call as they were. -/
theorem CallBuffers.exists_saved {s : VmState} (h : CallBuffers s t) (fp : FpOps) :
    ∃ t', Straight fp (Frame t) emitSave t t' ∧ Stacked (frameOf t) FRAME_SIZE (savedWords t) t' ∧
      t'.x = t.x ∧ t'.d = t.d ∧ t'.Holds (t.x 0) REGISTER_FILE_SIZE (blockByte (regWord s)) ∧
      t'.Holds (t.x 1) SCRATCHPAD_L3_SIZE (byteAt s.scratchpad) ∧ t'.rmode = s.ctl.extractLsb' 22 2 := by
  obtain ⟨t', hsave, hstack, hx, hd, hfpcr⟩ := exists_emitSave fp t
  refine ⟨t', hsave, hstack, hx, hd, ?_, ?_, ?_⟩
  · exact h.registers.of_mem (by decide) fun a ha => hsave.mem_eq (h.registers_frame a ha)
  · exact h.scratchpad.of_mem (by decide) fun a ha => hsave.mem_eq (h.scratchpad_frame a ha)
  · rw [State.rmode_congr hfpcr, h.mode]

/-- A state that the functions can be called in: the register file, the scratchpad, what `x2` points to, an
    iteration count and a result buffer. -/
def callState (s : VmState) (operand : Nat → Byte) (count : Word) : State where
  x := fun n => match n with
    | 0 => 0x1000
    | 1 => 0x1000000
    | 2 => 0x100000000
    | 3 => count
    | 4 => 0x2000
    | _ => 0
  sp := 0x4000
  d := fun _ => 0
  flags := { n := false, z := false, c := false, v := false }
  fpcr := s.ctl
  mem := regionsMem [(0x1000, REGISTER_FILE_SIZE, blockByte (regWord s)),
    (0x1000000, SCRATCHPAD_L3_SIZE, byteAt s.scratchpad), (0x100000000, DATASET_TOTAL_SIZE, operand)]

theorem callBuffers_callState (s : VmState) (operand : Nat → Byte) (count : Word) :
    CallBuffers s (callState s operand count) ∧
      (callState s operand count).Holds 0x100000000 DATASET_TOTAL_SIZE operand := by
  have hregs_pad : Apart 0x1000 REGISTER_FILE_SIZE 0x1000000 SCRATCHPAD_L3_SIZE :=
    apart_of_le (by decide) (by decide)
  have hregs_operand : Apart 0x1000 REGISTER_FILE_SIZE 0x100000000 DATASET_TOTAL_SIZE :=
    apart_of_le (by decide) (by decide)
  have hpad_operand : Apart 0x1000000 SCRATCHPAD_L3_SIZE 0x100000000 DATASET_TOTAL_SIZE :=
    apart_of_le (by decide) (by decide)
  have hregs_frame : Apart 0x1000 REGISTER_FILE_SIZE (0x4000 - BitVec.ofNat 64 FRAME_SIZE) FRAME_SIZE :=
    apart_of_le (by decide) (by decide)
  have hframe_pad : Apart (0x4000 - BitVec.ofNat 64 FRAME_SIZE) FRAME_SIZE 0x1000000 SCRATCHPAD_L3_SIZE :=
    apart_of_le (by decide) (by decide)
  refine ⟨⟨?_, ?_, rfl, hregs_pad, hregs_frame, hframe_pad.symm⟩, ?_⟩
  · exact State.holds_regionsMem rfl (by decide)
  · exact State.Holds.regionsMem_cons rfl (State.holds_regionsMem rfl (by decide)) (by decide) hregs_pad.symm
  · exact State.Holds.regionsMem_cons rfl (State.Holds.regionsMem_cons rfl
      (State.holds_regionsMem rfl (by decide)) (by decide) hpad_operand.symm) (by decide) hregs_operand.symm

/-- Doubleword `k` of the part of the register file that the epilogues store. -/
def outWord (t : State) (k : Nat) : Word := if k < 8 then t.x (8 + k) else t.d (k - 8)

theorem Sim.outWord {config : ProgramConfiguration} {base : Word} {s : VmState} (h : Sim config base s t)
    {k : Nat} (hk : k < 24) : outWord t k = regWord s k := by
  unfold RandomX.outWord regWord
  -- the words of `r`, then the lanes of `f`, then those of `e`
  by_cases h8 : k < 8
  · rw [if_pos h8, if_pos h8, Nat.add_comm]
    exact h.r k h8
  · rw [if_neg h8, if_neg h8]
    by_cases h16 : k < 16
    · rw [if_pos h16]
      obtain ⟨hlo, hhi⟩ := h.f ((k - 8) / 2) (by omega)
      simp only [fRegs] at hlo hhi
      rcases Nat.mod_two_eq_zero_or_one (k - 8) with hmod | hmod
      · rw [laneWord, if_pos hmod, ← hlo]
        congr 1
        omega
      · rw [laneWord, if_neg (by omega), ← hhi]
        congr 1
        omega
    · rw [if_neg h16, if_pos hk]
      obtain ⟨hlo, hhi⟩ := h.e ((k - 16) / 2) (by omega)
      simp only [eRegs] at hlo hhi
      rcases Nat.mod_two_eq_zero_or_one (k - 16) with hmod | hmod
      · rw [laneWord, if_pos hmod, ← hlo]
        congr 1
        omega
      · rw [laneWord, if_neg (by omega), ← hhi]
        congr 1
        omega

/-- **The epilogues store `r`, `f` and `e`**, and nothing else. -/
theorem exists_emitStoreRegisters (hW : ∀ a, InRegion (t.x 21) REGISTER_FILE_RFE a → W a) :
    ∃ t', Straight fp W emitStoreRegisters t t' ∧
      t'.Holds (t.x 21) REGISTER_FILE_RFE (blockByte (outWord t)) ∧
      (∀ a, ¬ InRegion (t.x 21) REGISTER_FILE_RFE a → t'.mem a = t.mem a) ∧
      t'.sp = t.sp ∧ t'.x = t.x ∧ t'.d = t.d ∧ t'.fpcr = t.fpcr := by
  have hsize : REGISTER_FILE_RFE = 192 := rfl
  have hsub : ∀ off, off + 64 ≤ REGISTER_FILE_RFE → ∀ a, InRegion (t.x 21 + BitVec.ofNat 64 off) (8 * 8) a →
      InRegion (t.x 21) REGISTER_FILE_RFE a :=
    fun off hoff a ha => ha.mono hoff (by decide)
  have hr := @straight_strXs fp (InRegion (t.x 21) REGISTER_FILE_RFE) t (fun i => 8 + i) (fun i => i * 8) 8 8 0 21
    (fun i _ => rfl) (fun i _ => by omega) (by decide) (by decide) (by decide) (hsub 0 (by decide)) (by decide)
  have hf := @straight_strDs fp (InRegion (t.x 21) REGISTER_FILE_RFE)
    (t.writeBlock (t.x 21 + BitVec.ofNat 64 0) 8 fun i => t.x (8 + i)) (fun i => i)
    (fun i => 64 + i * 8) 0 8 64 21 (fun i _ => by omega) (fun i _ => by omega) (by decide) (by decide) (by decide)
    (hsub 64 (by decide))
  have he := @straight_strDs fp (InRegion (t.x 21) REGISTER_FILE_RFE)
    ((t.writeBlock (t.x 21 + BitVec.ofNat 64 0) 8 fun i => t.x (8 + i)).writeBlock
      (t.x 21 + BitVec.ofNat 64 64) 8 fun i => t.d (0 + i))
    (fun i => 8 + i) (fun i => 128 + i * 8) 8 8 128 21 (fun i _ => rfl) (fun i _ => by omega) (by decide)
    (by decide) (by decide) (hsub 128 (by decide))
  have hcode := (hr.append hf).append he
  refine ⟨_, hcode.mono hW, ?_, fun a ha => hcode.mem_eq ha, rfl, rfl, rfl, rfl⟩
  have hstart : t.Holds (t.x 21) REGISTER_FILE_RFE fun k => t.mem (t.x 21 + BitVec.ofNat 64 k) := fun k _ => rfl
  -- the three blocks lie behind each other and fill the region
  have hall := ((hstart.writeBlock (by decide) 0 8 (fun i => t.x (8 + i)) (by decide)).writeBlock (by decide) 64 8
    (fun i => t.d (0 + i)) (by decide)).writeBlock (by decide) 128 8 (fun i => t.d (8 + i)) (by decide)
  refine hall.congr ?_
  intro k hk
  simp only [blockByte, outWord]
  by_cases h128 : 128 ≤ k
  · rw [if_pos (by omega), if_neg (by omega), show k / 8 - 8 = 8 + (k - 128) / 8 by omega,
      show (k - 128) % 8 = k % 8 by omega]
  · rw [if_neg (by omega)]
    by_cases h64 : 64 ≤ k
    · rw [if_pos (by omega), if_neg (by omega), show k / 8 - 8 = 0 + (k - 64) / 8 by omega,
        show (k - 64) % 8 = k % 8 by omega]
    · rw [if_neg (by omega), if_pos (by omega), if_pos (by omega), Nat.sub_zero]

end RandomX
end MinerTim
