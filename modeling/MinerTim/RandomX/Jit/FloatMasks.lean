import MinerTim.RandomX.FloatRanges
import MinerTim.RandomX.Jit.BodyCall
import MinerTim.RandomX.Jit.Instructions

/-!
# `RandomX.Jit.FloatMasks` — the masks of the compiler are those of the interpreter

The compiler emits the masking of a converted pair twice: before the division of `FDIV_M`, into `d25` and
`d26`, and at the head of an iteration of the native loop, into an `e` register. `straight_emitMaskLanes` is
what both do, for any pair; the two places are `exists_fdivMDivisor` and `exists_emitLoadE`. With the ranges of
`RandomX.FloatRanges`, `float_inputs_in_range` is about every double that enters the unit.
-/

namespace MinerTim
namespace RandomX

open Arm64 Emitter

variable {fp : FpOps} {config : ProgramConfiguration} {base : Word} {s : VmState} {t : State}
  {W : Word → Prop}

/-- The masks of a pair in `d25` and `d26`, into two other registers or where it is. -/
theorem straight_emitMaskLanes {lo hi : Nat} (hlo : lo ≠ 26) (h0 : t.x 19 = config.eMask0)
    (h1 : t.x 20 = config.eMask1) :
    let x := maskRegisterExponentMantissa config (t.d 25, t.d 26)
    Straight fp W (emitMaskLane 25 19 lo ++ emitMaskLane 26 20 hi) t
      (((t.setX 0 x.2).setD lo x.1).setD hi x.2) := by
  intro x
  refine ((straight_emitMaskLane 25 (by decide) (by decide) lo).append
    (straight_emitMaskLane 26 (by decide) (by decide) hi)).eq ?_
  rw [State.d_setD_of_ne (Ne.symm hlo), State.d_setX, State.x_setD, State.x_setX_of_ne (by decide), h0, h1,
    State.setX_setD, State.setX_setX]
  rfl

/-- **An `e` register at the head of an iteration** of the native loop, where the block is at the offset in
    `x27`. -/
theorem exists_emitLoadE (h : Sim config base s t) {addr i : Nat} (hx27 : t.x 27 = BitVec.ofNat 64 addr)
    (haddr : addr + 64 ≤ SCRATCHPAD_L3_SIZE) (hi : i < 4) :
    let x := maskRegisterExponentMantissa config
      (spPair (fpUnit fp) s.ctl s.scratchpad (addr + 8 * (4 + i)))
    ∃ t', Straight fp W (addImm 0 27 (32 + i * 8) ++ emitCvtPackedInt ++ emitMaskLane 25 19 (eRegs i).1
      ++ emitMaskLane 26 20 (eRegs i).2) t t' ∧ Sim config base (s.putE i x) t' := by
  intro x
  have haddr0 : Straight fp W (addImm 0 27 (32 + i * 8)) t
      (t.setX 0 (BitVec.ofNat 64 (addr + 8 * (4 + i)))) := by
    refine (straight_addImm (by decide) (by decide) (by omega)).eq ?_
    rw [hx27, ← BitVec.ofNat_add, show addr + (32 + i * 8) = addr + 8 * (4 + i) by omega]
  obtain ⟨t', hcvt, hsim, hlo, hhi⟩ := @exists_emitCvtPackedInt fp _ _ _ _ W
    (h.setScratchX (n := 0) (by decide) (BitVec.ofNat 64 (addr + 8 * (4 + i)))) (addr + 8 * (4 + i))
    (by omega) (State.x_setX_same (by decide))
  have hmask := @straight_emitMaskLanes fp config t' W (eRegs i).1 (eRegs i).2
    (by simp only [eRegs]; omega) hsim.resident.mask0 hsim.resident.mask1
  rw [hlo, hhi] at hmask
  refine ⟨_, ?_, (hsim.setScratchX (n := 0) (by decide) x.2).setE hi x.1 x.2⟩
  rw [List.append_assoc _ (emitMaskLane 25 19 _)]
  exact (haddr0.append hcvt).append hmask

end RandomX
end MinerTim
