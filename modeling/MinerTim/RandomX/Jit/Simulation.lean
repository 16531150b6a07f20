import MinerTim.RandomX.Jit.EmitterSpec
import MinerTim.RandomX.Jit.Compiler
import MinerTim.RandomX.ExecuteSpec

/-!
# `RandomX.Jit.Simulation` — the code of one instruction does what the interpreter does

`Sim` relates the interpreter's state to the machine's between two instructions: the register allocation of
`RandomX.Jit.Compiler`, the scratchpad at its base, and the rounding mode. It is kept by writes to the scratch
registers, and follows the interpreter's writes (`Sim.setR`, `Sim.setF`, `Sim.setE`, `Sim.write`,
`Sim.setFpcr`). Each emitter is then a fragment that leads from related states to related states; the families
of emitters share one lemma each.
-/

namespace MinerTim
namespace RandomX

open Arm64 Emitter

/-- The floating-point unit of the interpreter, made of the machine's arithmetic: the control word is FPCR,
    of which the arithmetic sees the rounding mode. -/
def fpUnit (fp : FpOps) : FpUnit where
  fadd := fun ctl a b => fp.fadd (ctl.extractLsb' 22 2) a b
  fsub := fun ctl a b => fp.fsub (ctl.extractLsb' 22 2) a b
  fmul := fun ctl a b => fp.fmul (ctl.extractLsb' 22 2) a b
  fdiv := fun ctl a b => fp.fdiv (ctl.extractLsb' 22 2) a b
  fsqrt := fun ctl a => fp.fsqrt (ctl.extractLsb' 22 2) a
  ofI32 := fun ctl v => fp.scvtf (ctl.extractLsb' 22 2) (v.signExtend 64)
  setRoundingMode := setRoundingModeAarch64

/-- What the body code keeps in registers and never writes. -/
structure Resident (config : ProgramConfiguration) (base : Word) (a : Vector F128 4) (t : State) :
    Prop where
  base : t.x 16 = base
  mask0 : t.x 19 = config.eMask0
  mask1 : t.x 20 = config.eMask1
  fscal : t.d 24 = JIT_FSCAL_MASK
  a : ∀ i < 4, t.d (aRegs i).1 = (a[i]?.getD (0, 0)).1 ∧ t.d (aRegs i).2 = (a[i]?.getD (0, 0)).2

/-- **The simulation relation.** -/
structure Sim (config : ProgramConfiguration) (base : Word) (s : VmState) (t : State) : Prop where
  r : ∀ i < 8, t.x (rReg i) = s.rAt i
  f : ∀ i < 4, t.d (fRegs i).1 = (s.fAt i).1 ∧ t.d (fRegs i).2 = (s.fAt i).2
  e : ∀ i < 4, t.d (eRegs i).1 = (s.eAt i).1 ∧ t.d (eRegs i).2 = (s.eAt i).2
  resident : Resident config base s.nreg.a t
  pad : t.Holds base SCRATCHPAD_L3_SIZE (byteAt s.scratchpad)
  mode : t.rmode = s.ctl.extractLsb' 22 2

variable {config : ProgramConfiguration} {base : Word} {s : VmState} {t : State}

theorem Sim.a (h : Sim config base s t) {i : Nat} (hi : i < 4) :
    t.d (aRegs i).1 = (s.aAt i).1 ∧ t.d (aRegs i).2 = (s.aAt i).2 :=
  h.resident.a i hi

/-! ## What keeps the relation -/

theorem Resident.congr {a : Vector F128 4} {t' : State} (h : Resident config base a t)
    (hx : ∀ n, 16 ≤ n → t'.x n = t.x n) (hd : ∀ n, 16 ≤ n → n ≤ 24 → t'.d n = t.d n) :
    Resident config base a t' := by
  refine ⟨?_, ?_, ?_, ?_, ?_⟩
  · rw [hx 16 (by omega), h.base]
  · rw [hx 19 (by omega), h.mask0]
  · rw [hx 20 (by omega), h.mask1]
  · rw [hd 24 (by omega) (by omega), h.fscal]
  · intro i hi
    simp only [aRegs] at *
    rw [hd _ (by omega) (by omega), hd _ (by omega) (by omega)]
    exact h.a i hi

theorem Resident.of_eq {a : Vector F128 4} {t' : State} (h : Resident config base a t) (hx : t'.x = t.x)
    (hd : t'.d = t.d) : Resident config base a t' :=
  h.congr (fun m _ => by rw [hx]) fun m _ _ => by rw [hd]

/-- Registers that hold nothing between two instructions. -/
theorem Sim.setScratchX (h : Sim config base s t) {n : Nat} (hn : n < 4) (v : Word) :
    Sim config base s (t.setX n v) := by
  refine ⟨?_, ?_, ?_, ?_, ?_, ?_⟩
  · intro i hi
    rw [State.x_setX_of_ne (by unfold rReg; omega), h.r i hi]
  · rw [State.d_setX]
    exact h.f
  · rw [State.d_setX]
    exact h.e
  · refine h.resident.congr (fun m hm => State.x_setX_of_ne (by omega)) ?_
    rw [State.d_setX]
    exact fun m _ _ => rfl
  · intro k hk
    rw [State.mem_setX, h.pad k hk]
  · rw [State.rmode_congr State.fpcr_setX, h.mode]

theorem Sim.setScratchD (h : Sim config base s t) {n : Nat} (hn : 25 ≤ n) (v : Word) :
    Sim config base s (t.setD n v) := by
  refine ⟨h.r, ?_, ?_, ?_, h.pad, h.mode⟩
  · intro i hi
    rw [State.d_setD_of_ne (by simp only [fRegs]; omega),
      State.d_setD_of_ne (by simp only [fRegs]; omega)]
    exact h.f i hi
  · intro i hi
    rw [State.d_setD_of_ne (by simp only [eRegs]; omega),
      State.d_setD_of_ne (by simp only [eRegs]; omega)]
    exact h.e i hi
  · exact h.resident.congr (fun m _ => rfl) fun m _ hm => State.d_setD_of_ne (by omega)

theorem Sim.setFlags (h : Sim config base s t) (f : Flags) : Sim config base s (t.setFlags f) :=
  ⟨h.r, h.f, h.e, h.resident.of_eq rfl rfl, h.pad, h.mode⟩

/-- A write to an integer register. -/
theorem Sim.setR (h : Sim config base s t) {i : Nat} (hi : i < 8) (v : Word) :
    Sim config base (s.putR i v) (t.setX (rReg i) v) := by
  refine ⟨?_, ?_, ?_, ?_, ?_, ?_⟩
  · intro j hj
    rw [VmState.rAt_putR hi, State.x_setX (by unfold rReg; omega)]
    by_cases hji : j = i
    · rw [if_pos hji, if_pos (by rw [hji])]
    · rw [if_neg hji, if_neg (by unfold rReg; omega), h.r j hj]
  · rw [State.d_setX]
    exact h.f
  · rw [State.d_setX]
    exact h.e
  · refine Resident.congr (t := t) h.resident (fun m hm => State.x_setX_of_ne ?_) ?_
    · unfold rReg
      omega
    · rw [State.d_setX]
      exact fun m _ _ => rfl
  · intro k hk
    rw [State.mem_setX, VmState.scratchpad_putR, h.pad k hk]
  · rw [State.rmode_congr State.fpcr_setX, VmState.ctl_putR, h.mode]

/-- A write to both lanes of an `f` register. -/
theorem Sim.setF (h : Sim config base s t) {i : Nat} (hi : i < 4) (lo hi' : Word) :
    Sim config base (s.putF i (lo, hi')) ((t.setD (fRegs i).1 lo).setD (fRegs i).2 hi') := by
  refine ⟨h.r, ?_, ?_, ?_, ?_, ?_⟩
  · intro j hj
    rw [VmState.fAt_putF hi]
    simp only [State.d_setD, fRegs]
    by_cases hji : j = i
    · subst hji
      rw [if_pos rfl, if_neg (by omega), if_pos rfl, if_pos rfl]
      exact ⟨rfl, rfl⟩
    · rw [if_neg hji, if_neg (by omega), if_neg (by omega), if_neg (by omega), if_neg (by omega)]
      exact h.f j hj
  · intro j hj
    rw [VmState.eAt_putF]
    simp only [State.d_setD, fRegs, eRegs]
    rw [if_neg (by omega), if_neg (by omega), if_neg (by omega), if_neg (by omega)]
    exact h.e j hj
  · refine Resident.congr (t := t) h.resident (fun m _ => rfl) ?_
    intro m hm _
    rw [State.d_setD_of_ne (by simp only [fRegs]; omega),
      State.d_setD_of_ne (by simp only [fRegs]; omega)]
  · intro k hk
    rw [VmState.scratchpad_putF]
    exact h.pad k hk
  · rw [VmState.ctl_putF]
    exact h.mode

/-- A write to both lanes of an `e` register. -/
theorem Sim.setE (h : Sim config base s t) {i : Nat} (hi : i < 4) (lo hi' : Word) :
    Sim config base (s.putE i (lo, hi')) ((t.setD (eRegs i).1 lo).setD (eRegs i).2 hi') := by
  refine ⟨h.r, ?_, ?_, ?_, ?_, ?_⟩
  · intro j hj
    rw [VmState.fAt_putE]
    simp only [State.d_setD, fRegs, eRegs]
    rw [if_neg (by omega), if_neg (by omega), if_neg (by omega), if_neg (by omega)]
    exact h.f j hj
  · intro j hj
    rw [VmState.eAt_putE hi]
    simp only [State.d_setD, eRegs]
    by_cases hji : j = i
    · subst hji
      rw [if_pos rfl, if_neg (by omega), if_pos rfl, if_pos rfl]
      exact ⟨rfl, rfl⟩
    · rw [if_neg hji, if_neg (by omega), if_neg (by omega), if_neg (by omega), if_neg (by omega)]
      exact h.e j hj
  · refine Resident.congr (t := t) h.resident (fun m _ => rfl) ?_
    intro m hm _
    rw [State.d_setD_of_ne (by simp only [eRegs]; omega),
      State.d_setD_of_ne (by simp only [eRegs]; omega)]
  · intro k hk
    rw [VmState.scratchpad_putE]
    exact h.pad k hk
  · rw [VmState.ctl_putE]
    exact h.mode

/-- Another scratchpad, under the same registers. -/
theorem Sim.putSp (h : Sim config base s t) {t' : State} {sp : Scratchpad} (hx : t'.x = t.x)
    (hd : t'.d = t.d) (hfpcr : t'.fpcr = t.fpcr) (hpad : t'.Holds base SCRATCHPAD_L3_SIZE (byteAt sp)) :
    Sim config base (s.putSp sp) t' := by
  refine ⟨?_, ?_, ?_, ?_, ?_, ?_⟩
  · intro i hi
    rw [VmState.rAt_putSp, hx, h.r i hi]
  · intro i hi
    rw [VmState.fAt_putSp, hd]
    exact h.f i hi
  · intro i hi
    rw [VmState.eAt_putSp, hd]
    exact h.e i hi
  · exact h.resident.of_eq hx hd
  · rw [VmState.scratchpad_putSp]
    exact hpad
  · rw [VmState.ctl_putSp, State.rmode_congr hfpcr, h.mode]

/-- A store to the scratchpad. -/
theorem Sim.write (h : Sim config base s t) {off : Nat} (hoff : off + 8 ≤ SCRATCHPAD_L3_SIZE) (v : Word) :
    Sim config base (s.putSp (store s.scratchpad off 8 (byteOf v)))
      (t.write (base + BitVec.ofNat 64 off) v) := by
  have hsize : SCRATCHPAD_L3_SIZE ≤ 2 ^ 64 := by decide
  have hpad := (h.pad.write (v := v) hsize hoff).congr fun k hk =>
    (byteAt_store s.scratchpad off 8 (byteOf v) hk).symm
  exact Sim.putSp h rfl rfl rfl hpad

/-- A change of the rounding mode. -/
theorem Sim.setFpcr (h : Sim config base s t) {fpcr ctl : BitVec 32}
    (hmode : fpcr.extractLsb' 22 2 = ctl.extractLsb' 22 2) :
    Sim config base (s.putCtl ctl) (t.setFpcr fpcr) := by
  refine ⟨h.r, h.f, h.e, h.resident.of_eq rfl rfl, ?_, ?_⟩
  · rw [VmState.scratchpad_putCtl]
    exact h.pad
  · rw [VmState.ctl_putCtl]
    exact hmode

end RandomX
end MinerTim
