import MinerTim.RandomX.Jit.Simulation

/-!
# `RandomX.Jit.Instructions` — every emitter does what the interpreter does

`Simulates is s s'` says that the fragment `is` takes each machine state related to `s` to one related to
`s'`, storing inside the scratchpad only. The emitters of one family share one lemma (`simulates_emitIntM`,
`simulates_emitIntRegOrImm`, `simulates_emitFltR`, `simulates_emitFltM`), which asks what the operation does to
registers; the others have their own. They are collected in `simulates_emitInstruction`, for every
well-formed instruction that does not branch.
-/

namespace MinerTim
namespace RandomX

open Arm64 Emitter

/-- The addresses that the body may store to. -/
abbrev Pad (base : Word) : Word → Prop := InRegion base SCRATCHPAD_L3_SIZE

variable {fp : FpOps} {config : ProgramConfiguration} {base : Word} {s : VmState} {t : State}
  {W : Word → Prop} {ibc : BytecodeInstruction}

/-- From states related to `s` the fragment leads to states related to `s'`. -/
def Simulates (fp : FpOps) (config : ProgramConfiguration) (base : Word) (is : Code) (s s' : VmState) :
    Prop :=
  ∀ t, Sim config base s t → ∃ t', Straight fp (Pad base) is t t' ∧ Sim config base s' t'

/-! ## Register reads -/

theorem Sim.getX_rReg (h : Sim config base s t) {i : Nat} (hi : i < 8) : t.getX (rReg i) = s.rAt i := by
  rw [State.getX_of_ne (by unfold rReg; omega), h.r i hi]

theorem getX_setX_same {n : Nat} (hn : n ≠ 31) (v : Word) : (t.setX n v).getX n = v := by
  rw [State.getX_of_ne hn, State.x_setX_same hn]

theorem getX_setX_of_ne {m n : Nat} (hn : m ≠ n) (v : Word) : (t.setX n v).getX m = t.getX m := by
  unfold State.getX
  rw [State.x_setX_of_ne hn]

/-! ## Memory operands -/

/-- The masks of memory operands have an encoding. -/
theorem isEncodable_scratchpadMask {m : BitVec 32} (h : IsScratchpadMask m) :
    isEncodable (m.setWidth 64) = true := by
  rcases h with rfl | rfl | rfl <;> decide

/-- Masking with a zero-extended mask looks at the low half only. -/
theorem and_setWidth (v : Word) (m : BitVec 32) :
    v &&& m.setWidth 64 = BitVec.ofNat 64 (v.setWidth 32 &&& m).toNat := by
  apply BitVec.eq_of_getLsbD_eq
  intro k hk
  rw [BitVec.ofNat_toNat]
  simp only [BitVec.getLsbD_and, BitVec.getLsbD_setWidth, hk, decide_true, Bool.true_and]
  by_cases h32 : k < 32
  · simp [h32]
  · simp [BitVec.getLsbD_of_ge m k (by omega)]

/-- **The address of a memory operand**, left in `x0`. -/
theorem straight_emitMemAddr (h : Sim config base s t) (hm : IsScratchpadMask ibc.memMask) :
    Straight fp W (emitMemAddr ibc) t (t.setX 0 (BitVec.ofNat 64 (memAddr ibc (srcVal s ibc 0)))) := by
  have hmask := isEncodable_scratchpadMask hm
  rw [memAddr, ← and_setWidth]
  unfold emitMemAddr srcVal
  split
  next hsrc =>
    have hsum : Straight fp W (movImm64 0 ibc.imm ++ addReg 0 (rReg ibc.src) 0) t
        (t.setX 0 (s.rAt ibc.src + ibc.imm)) := by
      refine ((straight_movImm64 (by decide) _).append (straight_addReg _ _ _)).eq ?_
      rw [getX_setX_same (by decide), getX_setX_of_ne (by unfold rReg; omega), h.getX_rReg hsrc,
        State.setX_setX]
    refine (hsum.append (straight_andBitmask (by decide) _ hmask _)).eq ?_
    rw [getX_setX_same (by decide), State.setX_setX]
  next =>
    refine ((straight_movImm64 (by decide) _).append (straight_andBitmask (by decide) _ hmask _)).eq ?_
    rw [getX_setX_same (by decide), State.setX_setX,
      show (0 : Word) + ibc.imm = ibc.imm from BitVec.zero_add _]

/-- A load from the scratchpad, at the offset in `x0`. -/
theorem straight_emitMemLoad (h : Sim config base s t) {off : Nat} (hoff : off + 8 ≤ SCRATCHPAD_L3_SIZE) :
    Straight fp W emitMemLoad (t.setX 0 (BitVec.ofNat 64 off))
      (t.setX 0 (spWord s.scratchpad off)) := by
  refine (straight_ldrReg (by decide)).eq ?_
  rw [State.x_setX_of_ne (by decide), h.resident.base, getX_setX_same (by decide),
    State.read_congr State.mem_setX, h.pad.read hoff, State.setX_setX]
  rfl

/-- The memory operand of an integer instruction, left in `x0`. -/
theorem straight_memOperand (h : Sim config base s t) (hm : IsScratchpadMask ibc.memMask) :
    Straight fp W (emitMemAddr ibc ++ emitMemLoad) t
      (t.setX 0 (spWord s.scratchpad (memAddr ibc (srcVal s ibc 0)))) :=
  (straight_emitMemAddr h hm).append (straight_emitMemLoad h (memAddr_le hm _))

/-- A sign-extended word of the scratchpad, from the address in `x1`. -/
theorem straight_ldrsw (h : Sim config base s t) {off k : Nat} {imm : BitVec 12}
    (hx1 : t.x 1 = base + BitVec.ofNat 64 off) (himm : imm.setWidth 64 <<< 2 = BitVec.ofNat 64 k)
    (hle : off + k + 4 ≤ SCRATCHPAD_L3_SIZE) :
    Straight fp W [.ldrswImm 0 1 imm] t
      (t.setX 0 ((spWord32 s.scratchpad (off + k)).signExtend 64)) := by
  refine straight_single rfl rfl rfl ?_
  rw [exec, State.getXSp_of_ne (by decide), himm, hx1, BitVec.add_assoc, ← BitVec.ofNat_add,
    h.pad.read32 (by omega)]
  rfl

/-- What `scvtf` makes of it. -/
theorem straight_scvtf (h : Sim config base s t) {v : BitVec 32} (hx0 : t.x 0 = v.signExtend 64) (dd : Nat) :
    Straight fp W (scvtfDx dd 0) t (t.setD dd ((fpUnit fp).ofI32 s.ctl v)) := by
  refine (straight_scvtfDx _ _).eq ?_
  rw [State.getX_of_ne (by decide), hx0, h.mode]
  rfl

/-- **The two converted integers** at the scratchpad offset in `x0`, left in `d25` and `d26`. -/
theorem exists_emitCvtPackedInt (h : Sim config base s t) {off : Nat}
    (hoff : off + 8 ≤ SCRATCHPAD_L3_SIZE) (hx0 : t.x 0 = BitVec.ofNat 64 off) :
    ∃ t', Straight fp W emitCvtPackedInt t t' ∧ Sim config base s t' ∧
      t'.d 25 = (spPair (fpUnit fp) s.ctl s.scratchpad off).1 ∧
      t'.d 26 = (spPair (fpUnit fp) s.ctl s.scratchpad off).2 := by
  have hadd : Straight fp W (addReg 1 16 0) t (t.setX 1 (base + BitVec.ofNat 64 off)) := by
    refine (straight_addReg _ _ _).eq ?_
    rw [State.getX_of_ne (by decide), State.getX_of_ne (by decide), h.resident.base, hx0]
  have h1 := h.setScratchX (n := 1) (by decide) (base + BitVec.ofNat 64 off)
  have hlo := @straight_ldrsw fp _ _ _ _ W h1 off 0 0 (State.x_setX_same (by decide)) (by decide)
    (by omega)
  have h2 := h1.setScratchX (n := 0) (by decide) ((spWord32 s.scratchpad (off + 0)).signExtend 64)
  have hcvt := @straight_scvtf fp _ _ _ _ W h2 _ (State.x_setX_same (by decide)) 25
  have h3 := h2.setScratchD (n := 25) (by decide)
    ((fpUnit fp).ofI32 s.ctl (spWord32 s.scratchpad (off + 0)))
  have hhi := @straight_ldrsw fp _ _ _ _ W h3 off 4 1
    (by rw [State.x_setD, State.x_setX_of_ne (by decide), State.x_setX_same (by decide)]) (by decide)
    (by omega)
  have h4 := h3.setScratchX (n := 0) (by decide) ((spWord32 s.scratchpad (off + 4)).signExtend 64)
  have hcvt' := @straight_scvtf fp _ _ _ _ W h4 _ (State.x_setX_same (by decide)) 26
  refine ⟨_, (((hadd.append hlo).append hcvt).append hhi).append hcvt', h4.setScratchD (by decide) _,
    ?_, ?_⟩
  · rw [State.d_setD_of_ne (by decide), State.d_setX, State.d_setD_same]
    rfl
  · rw [State.d_setD_same]
    rfl

/-! ## Integer instructions -/

/-- A register operation with two register operands. -/
def Computes (fp : FpOps) (op : Nat → Nat → Nat → Code) (f : Word → Word → Word) : Prop :=
  ∀ (W : Word → Prop) (t : State) (rd rn rm : Nat),
    Straight fp W (op rd rn rm) t (t.setX rd (f (t.getX rn) (t.getX rm)))

theorem simulates_emitIntM {op : Nat → Nat → Nat → Code} {f : Word → Word → Word}
    (hop : Computes fp op f) (hdst : ibc.dst < 8) (hm : IsScratchpadMask ibc.memMask) :
    Simulates fp config base (emitIntM op ibc) s (s.putR ibc.dst
      (f (s.rAt ibc.dst) (spWord s.scratchpad (memAddr ibc (srcVal s ibc 0))))) := by
  intro t h
  refine ⟨_, (straight_memOperand h hm).append (hop _ _ _ _ _), ?_⟩
  rw [getX_setX_of_ne (by unfold rReg; omega), getX_setX_same (by decide), h.getX_rReg hdst]
  exact (h.setScratchX (by decide) _).setR hdst _

theorem simulates_emitIntRegOrImm {op : Nat → Nat → Nat → Code} {f : Word → Word → Word}
    (hop : Computes fp op f) (hdst : ibc.dst < 8) :
    Simulates fp config base (emitIntRegOrImm op ibc) s (s.putR ibc.dst
      (f (s.rAt ibc.dst) (srcVal s ibc ibc.imm))) := by
  intro t h
  unfold emitIntRegOrImm srcVal
  split
  next hsrc =>
    refine ⟨_, hop _ _ _ _ _, ?_⟩
    rw [h.getX_rReg hdst, h.getX_rReg hsrc]
    exact h.setR hdst _
  next =>
    refine ⟨_, (straight_movImm64 (by decide) _).append (hop _ _ _ _ _), ?_⟩
    rw [getX_setX_of_ne (by unfold rReg; omega), getX_setX_same (by decide), h.getX_rReg hdst]
    exact (h.setScratchX (by decide) _).setR hdst _

/-- An integer instruction on two registers. -/
theorem simulates_regReg {op : Nat → Nat → Nat → Code} {f : Word → Word → Word}
    (hop : Computes fp op f) (hdst : ibc.dst < 8) (hsrc : ibc.src < 8) :
    Simulates fp config base (op (rReg ibc.dst) (rReg ibc.dst) (rReg ibc.src)) s
      (s.putR ibc.dst (f (s.rAt ibc.dst) (s.rAt ibc.src))) := by
  intro t h
  refine ⟨_, hop _ _ _ _ _, ?_⟩
  rw [h.getX_rReg hdst, h.getX_rReg hsrc]
  exact h.setR hdst _

theorem computes_addReg : Computes fp addReg (· + ·) := fun _ _ => straight_addReg
theorem computes_subReg : Computes fp subReg (· - ·) := fun _ _ => straight_subReg
theorem computes_mul : Computes fp mul (· * ·) := fun _ _ => straight_mul
theorem computes_umulh : Computes fp umulh mulh := fun _ _ => straight_umulh
theorem computes_smulh : Computes fp Emitter.smulh smulh := fun _ _ => straight_smulh
theorem computes_eorReg : Computes fp eorReg (· ^^^ ·) := fun _ _ => straight_eorReg

/-- The immediate of `IADD_RS`: an immediate addition or subtraction where it is short enough. -/
theorem exists_addImmediate (h : Sim config base s t) (hdst : ibc.dst < 8) (v imm : Word) :
    ∃ t', Straight fp W (if imm ≠ 0 then
        if imm < 4096 then addImm (rReg ibc.dst) (rReg ibc.dst) imm.toNat
        else if ~~~imm + 1 < 4096 then subImm (rReg ibc.dst) (rReg ibc.dst) (~~~imm + 1).toNat
        else movImm64 0 imm ++ addReg (rReg ibc.dst) (rReg ibc.dst) 0
      else []) (t.setX (rReg ibc.dst) v) t' ∧ Sim config base (s.putR ibc.dst (v + imm)) t' := by
  have hne : rReg ibc.dst ≠ 31 := by
    unfold rReg
    omega
  have h0 : rReg ibc.dst ≠ 0 := by
    unfold rReg
    omega
  by_cases hzero : imm ≠ 0
  · rw [if_pos hzero]
    by_cases hadd : imm < 4096
    · rw [if_pos hadd]
      refine ⟨_, straight_addImm hne hne hadd, ?_⟩
      rw [State.x_setX_same hne, State.setX_setX, BitVec.ofNat_toNat, BitVec.setWidth_eq]
      exact h.setR hdst _
    · rw [if_neg hadd]
      by_cases hsub : ~~~imm + 1 < 4096
      · rw [if_pos hsub]
        -- a small negative immediate is subtracted
        refine ⟨_, straight_subImm hne hne hsub, ?_⟩
        have hneg : ~~~imm + 1 = -imm := (BitVec.neg_eq_not_add imm).symm
        rw [State.x_setX_same hne, State.setX_setX, BitVec.ofNat_toNat, BitVec.setWidth_eq, hneg,
          BitVec.sub_neg]
        exact h.setR hdst _
      · rw [if_neg hsub]
        -- a large one goes through `x0`
        refine ⟨_, (straight_movImm64 (by decide) _).append (straight_addReg _ _ _), ?_⟩
        rw [getX_setX_same (by decide), getX_setX_of_ne h0, getX_setX_same hne, State.setX_comm h0,
          State.setX_setX]
        exact (h.setScratchX (by decide) _).setR hdst _
  · rw [if_neg hzero, not_not.mp hzero, show v + 0 = v from BitVec.add_zero v]
    exact ⟨_, .nil, h.setR hdst _⟩

theorem simulates_emitIaddRs (hdst : ibc.dst < 8) (hsrc : ibc.src < 8) (hshift : ibc.shift < 4) :
    Simulates fp config base (emitIaddRs ibc) s
      (s.putR ibc.dst (s.rAt ibc.dst + ((s.rAt ibc.src <<< ibc.shift) + ibc.imm))) := by
  intro t h
  have hadd : Straight fp (Pad base) (if 0 < ibc.shift then
        addRegShifted (rReg ibc.dst) (rReg ibc.dst) (rReg ibc.src) ibc.shift
      else addReg (rReg ibc.dst) (rReg ibc.dst) (rReg ibc.src)) t
      (t.setX (rReg ibc.dst) (s.rAt ibc.dst + s.rAt ibc.src <<< ibc.shift)) := by
    rw [← h.getX_rReg hdst, ← h.getX_rReg hsrc]
    split
    · exact straight_addRegShifted _ _ _ (by omega)
    next hzero =>
      rw [show ibc.shift = 0 by omega, BitVec.shiftLeft_zero]
      exact straight_addReg _ _ _
  rw [← BitVec.add_assoc]
  obtain ⟨t', himm, hsim⟩ := @exists_addImmediate fp _ _ _ _ (Pad base) _ h hdst
    (s.rAt ibc.dst + s.rAt ibc.src <<< ibc.shift) ibc.imm
  exact ⟨t', hadd.append himm, hsim⟩

theorem simulates_emitInegR (hdst : ibc.dst < 8) :
    Simulates fp config base (emitInegR ibc) s (s.putR ibc.dst (~~~s.rAt ibc.dst + 1)) := by
  intro t h
  refine ⟨_, straight_neg _ _, ?_⟩
  rw [h.getX_rReg hdst, BitVec.neg_eq_not_add]
  exact h.setR hdst _

/-- The low six bits of a word, as a rotation amount. -/
theorem toNat_and_63 (v : Word) : (v &&& 63).toNat = v.toNat % 64 := by
  rw [BitVec.toNat_and]
  exact Nat.and_two_pow_sub_one_eq_mod v.toNat 6

theorem simulates_emitIrorR (hdst : ibc.dst < 8) :
    Simulates fp config base (emitIrorR ibc) s
      (s.putR ibc.dst (rotr64 (s.rAt ibc.dst) (srcVal s ibc ibc.imm))) := by
  intro t h
  unfold emitIrorR srcVal rotr64
  simp only [toNat_and_63]
  split
  next hsrc =>
    refine ⟨_, straight_rorv _ _ _, ?_⟩
    rw [h.getX_rReg hdst, h.getX_rReg hsrc]
    exact h.setR hdst _
  next =>
    refine ⟨_, straight_rorImm _ _ (Nat.mod_lt _ (by decide)), ?_⟩
    rw [h.getX_rReg hdst]
    exact h.setR hdst _

/-- A left rotation is a right rotation by the negated amount. -/
theorem rotateLeft_eq_rotateRight (v : Word) {k m : Nat} (hk : k < 64) (hm : m = (64 - k) % 64) :
    v.rotateLeft k = v.rotateRight m := by
  apply BitVec.eq_of_getLsbD_eq
  intro i hi
  rw [BitVec.getLsbD_rotateLeft, BitVec.getLsbD_rotateRight, Nat.mod_eq_of_lt hk, hm, Nat.mod_mod]
  rcases Nat.eq_zero_or_pos k with rfl | hpos
  · simp [hi]
  · rw [Nat.mod_eq_of_lt (by omega), show 64 - (64 - k) = k by omega]

theorem simulates_emitIrolR (hdst : ibc.dst < 8) :
    Simulates fp config base (emitIrolR ibc) s
      (s.putR ibc.dst (rotl64 (s.rAt ibc.dst) (srcVal s ibc ibc.imm))) := by
  intro t h
  unfold emitIrolR srcVal rotl64
  simp only [toNat_and_63]
  split
  next hsrc =>
    refine ⟨_, (straight_neg _ _).append (straight_rorv _ _ _), ?_⟩
    rw [getX_setX_same (by decide), getX_setX_of_ne (by unfold rReg; omega), h.getX_rReg hdst,
      h.getX_rReg hsrc, ← rotateLeft_eq_rotateRight _ (Nat.mod_lt (s.rAt ibc.src).toNat (by decide)) ?_]
    · exact (h.setScratchX (by decide) _).setR hdst _
    · rw [BitVec.toNat_neg]
      omega
  next =>
    have hmod : (64 - ibc.imm.toNat % 64) &&& 63 = (64 - ibc.imm.toNat % 64) % 64 :=
      Nat.and_two_pow_sub_one_eq_mod _ 6
    rw [hmod]
    refine ⟨_, straight_rorImm _ _ (Nat.mod_lt _ (by decide)), ?_⟩
    rw [h.getX_rReg hdst, ← rotateLeft_eq_rotateRight _ (Nat.mod_lt _ (by decide)) rfl]
    exact h.setR hdst _

theorem simulates_emitIswapR (hdst : ibc.dst < 8) (hsrc : ibc.src < 8) :
    Simulates fp config base (emitIswapR ibc) s
      ((s.putR ibc.dst (s.rAt ibc.src)).putR ibc.src (s.rAt ibc.dst)) := by
  intro t h
  refine ⟨_, ((straight_movReg _ _).append (straight_movReg _ _)).append (straight_movReg _ _), ?_⟩
  have h0 : 0 ≠ rReg ibc.dst := by
    unfold rReg
    omega
  rw [getX_setX_of_ne h0, getX_setX_same (by decide), getX_setX_of_ne (by unfold rReg; omega),
    h.getX_rReg hdst, h.getX_rReg hsrc]
  exact ((h.setScratchX (by decide) _).setR hdst _).setR hsrc _

/-! ## Floating-point instructions -/

/-- An operation on two floating-point registers, under the rounding mode. -/
def ComputesD (fp : FpOps) (op : Nat → Nat → Nat → Code) (f : RMode → Word → Word → Word) : Prop :=
  ∀ (W : Word → Prop) (t : State) (rd rn rm : Nat),
    Straight fp W (op rd rn rm) t (t.setD rd (f t.rmode (t.d rn) (t.d rm)))

/-- Both lanes of a register pair. -/
theorem straight_lanes {op : Nat → Nat → Nat → Code} {f : RMode → Word → Word → Word}
    (hop : ComputesD fp op f) {lo hi : Nat} (x : Nat) {y : Nat} (hhi : hi ≠ lo) (hy : y ≠ lo) :
    Straight fp W (op lo lo x ++ op hi hi y) t
      ((t.setD lo (f t.rmode (t.d lo) (t.d x))).setD hi (f t.rmode (t.d hi) (t.d y))) := by
  refine ((hop _ _ _ _ _).append (hop _ _ _ _ _)).eq ?_
  rw [State.d_setD_of_ne hhi, State.d_setD_of_ne hy, State.rmode_congr State.fpcr_setD]

theorem computesD_fadd : ComputesD fp fadd fp.fadd := fun _ _ => straight_fadd
theorem computesD_fsub : ComputesD fp fsub fp.fsub := fun _ _ => straight_fsub
theorem computesD_fmul : ComputesD fp fmul fp.fmul := fun _ _ => straight_fmul
theorem computesD_fdiv : ComputesD fp fdiv fp.fdiv := fun _ _ => straight_fdiv
theorem computesD_fsqrt : ComputesD fp (fun rd rn _ => fsqrt rd rn) fun mode a _ => fp.fsqrt mode a :=
  fun _ _ rd rn _ => straight_fsqrt rd rn
theorem computesD_eorV8b : ComputesD fp eorV8b fun _ a b => a ^^^ b := fun _ _ => straight_eorV8b

section

variable {op : Nat → Nat → Nat → Code} {f : RMode → Word → Word → Word} (hop : ComputesD fp op f)
include hop

theorem simulates_lanesF (hdst : ibc.dst < 4) (hsrc : ibc.src < 4) :
    Simulates fp config base (emitFltR op (fRegs ibc.dst) ibc) s (s.putF ibc.dst
      (f (s.ctl.extractLsb' 22 2) (s.fAt ibc.dst).1 (s.aAt ibc.src).1,
        f (s.ctl.extractLsb' 22 2) (s.fAt ibc.dst).2 (s.aAt ibc.src).2)) := by
  intro t h
  refine ⟨_, straight_lanes hop _ (by simp [fRegs]) (by simp only [aRegs, fRegs]; omega), ?_⟩
  rw [h.mode, (h.f _ hdst).1, (h.f _ hdst).2, (h.a hsrc).1, (h.a hsrc).2]
  exact h.setF hdst _ _

theorem simulates_lanesE (hdst : ibc.dst < 4) (hsrc : ibc.src < 4) :
    Simulates fp config base (emitFltR op (eRegs ibc.dst) ibc) s (s.putE ibc.dst
      (f (s.ctl.extractLsb' 22 2) (s.eAt ibc.dst).1 (s.aAt ibc.src).1,
        f (s.ctl.extractLsb' 22 2) (s.eAt ibc.dst).2 (s.aAt ibc.src).2)) := by
  intro t h
  refine ⟨_, straight_lanes hop _ (by simp [eRegs]) (by simp only [aRegs, eRegs]; omega), ?_⟩
  rw [h.mode, (h.e _ hdst).1, (h.e _ hdst).2, (h.a hsrc).1, (h.a hsrc).2]
  exact h.setE hdst _ _

end

theorem simulates_emitFswapR (hdst : ibc.dst < 4) :
    Simulates fp config base (emitFswapR ibc) s
      (if ibc.fswapIsE then s.putE ibc.dst (swapF128 (s.eAt ibc.dst))
        else s.putF ibc.dst (swapF128 (s.fAt ibc.dst))) := by
  intro t h
  have hswap : ∀ {lo hi : Nat}, lo < 25 → hi < 25 → lo ≠ hi →
      Straight fp (Pad base) (fmovDd 25 lo ++ fmovDd lo hi ++ fmovDd hi 25) t
        (((t.setD 25 (t.d lo)).setD lo (t.d hi)).setD hi (t.d lo)) := by
    intro lo hi hlo hhi hne
    refine (((straight_fmovDd _ _).append (straight_fmovDd _ _)).append (straight_fmovDd _ _)).eq ?_
    rw [State.d_setD_of_ne (n := 25) (m := hi) (by omega), State.d_setD_of_ne (n := lo) (m := 25)
      (by omega), State.d_setD_same]
  unfold emitFswapR
  split
  · refine ⟨_, hswap (by simp only [eRegs]; omega) (by simp only [eRegs]; omega) (by simp [eRegs]), ?_⟩
    rw [(h.e _ hdst).1, (h.e _ hdst).2]
    exact (h.setScratchD (by decide) _).setE hdst _ _
  · refine ⟨_, hswap (by simp only [fRegs]; omega) (by simp only [fRegs]; omega) (by simp [fRegs]), ?_⟩
    rw [(h.f _ hdst).1, (h.f _ hdst).2]
    exact (h.setScratchD (by decide) _).setF hdst _ _

/-- The converted memory operand of a floating-point instruction. -/
theorem exists_fltOperand (h : Sim config base s t) (hsrc : ibc.src < 8) (hm : IsScratchpadMask ibc.memMask) :
    ∃ t', Straight fp W (emitMemAddr ibc ++ emitCvtPackedInt) t t' ∧ Sim config base s t' ∧
      t'.d 25 = (spPair (fpUnit fp) s.ctl s.scratchpad (memAddr ibc (s.rAt ibc.src))).1 ∧
      t'.d 26 = (spPair (fpUnit fp) s.ctl s.scratchpad (memAddr ibc (s.rAt ibc.src))).2 := by
  have haddr := @straight_emitMemAddr fp _ _ _ _ W _ h hm
  rw [show srcVal s ibc 0 = s.rAt ibc.src from if_pos hsrc] at haddr
  obtain ⟨t', hcvt, hsim, hlo, hhi⟩ := @exists_emitCvtPackedInt fp _ _ _ _ W
    (h.setScratchX (n := 0) (by decide) (BitVec.ofNat 64 (memAddr ibc (s.rAt ibc.src)))) _
    (memAddr_le hm _) (State.x_setX_same (by decide))
  exact ⟨t', haddr.append hcvt, hsim, hlo, hhi⟩

theorem simulates_emitFltM {op : Nat → Nat → Nat → Code} {f : RMode → Word → Word → Word}
    (hop : ComputesD fp op f) (hdst : ibc.dst < 4) (hsrc : ibc.src < 8)
    (hm : IsScratchpadMask ibc.memMask) :
    let v := spPair (fpUnit fp) s.ctl s.scratchpad (memAddr ibc (s.rAt ibc.src))
    Simulates fp config base (emitFltM op (fRegs ibc.dst) ibc) s (s.putF ibc.dst
      (f (s.ctl.extractLsb' 22 2) (s.fAt ibc.dst).1 v.1,
        f (s.ctl.extractLsb' 22 2) (s.fAt ibc.dst).2 v.2)) := by
  intro v t h
  obtain ⟨t', hmem, hsim, hlo, hhi⟩ := @exists_fltOperand fp _ _ _ _ (Pad base) _ h hsrc hm
  have hlanes := @straight_lanes fp t' (Pad base) _ _ hop (fRegs ibc.dst).1 (fRegs ibc.dst).2 25 26
    (by simp [fRegs]) (by simp only [fRegs]; omega)
  rw [hsim.mode, (hsim.f _ hdst).1, (hsim.f _ hdst).2, hlo, hhi] at hlanes
  refine ⟨_, ?_, hsim.setF hdst _ _⟩
  rw [emitFltM, List.append_assoc _ (op _ _ _)]
  exact hmem.append hlanes

theorem simulates_emitFscalR (hdst : ibc.dst < 4) :
    Simulates fp config base (emitFscalR ibc) s
      (s.putF ibc.dst ((s.fAt ibc.dst).1 ^^^ FSCAL_MASK, (s.fAt ibc.dst).2 ^^^ FSCAL_MASK)) := by
  intro t h
  refine ⟨_, straight_lanes computesD_eorV8b _ (by simp [fRegs]) (by simp only [fRegs]; omega), ?_⟩
  rw [(h.f _ hdst).1, (h.f _ hdst).2, h.resident.fscal]
  exact h.setF hdst _ _

theorem simulates_emitFsqrtR (hdst : ibc.dst < 4) :
    Simulates fp config base (emitFsqrtR ibc) s (s.putE ibc.dst
      (fp.fsqrt (s.ctl.extractLsb' 22 2) (s.eAt ibc.dst).1,
        fp.fsqrt (s.ctl.extractLsb' 22 2) (s.eAt ibc.dst).2)) := by
  intro t h
  refine ⟨_, straight_lanes computesD_fsqrt 0 (y := 0) (by simp [eRegs]) (by simp only [eRegs]; omega), ?_⟩
  rw [h.mode, (h.e _ hdst).1, (h.e _ hdst).2]
  exact h.setE hdst _ _

/-- The compiler's copy of the mask constant. -/
theorem jit_dynamicMantissaMask : JIT_DYNAMIC_MANTISSA_MASK = DYNAMIC_MANTISSA_MASK := by decide

/-- The masks of `FDIV_M` and of the `e` registers, on one lane. -/
theorem straight_emitMaskLane (d : Nat) {x : Nat} (hx : x ≠ 0) (hx' : x ≠ 31) (dd : Nat) :
    Straight fp W (emitMaskLane d x dd) t
      ((t.setX 0 ((t.d d &&& DYNAMIC_MANTISSA_MASK) ||| t.x x)).setD dd
        ((t.d d &&& DYNAMIC_MANTISSA_MASK) ||| t.x x)) := by
  unfold emitMaskLane
  rw [jit_dynamicMantissaMask]
  refine ((((straight_fmovXd _ _).append (straight_andBitmask (by decide) _ (by decide) _)).append
    (straight_orrReg _ _ _)).append (straight_fmovDx _ _)).eq ?_
  rw [getX_setX_same (by decide), State.setX_setX, getX_setX_same (by decide),
    getX_setX_of_ne hx, State.setX_setX, getX_setX_same (by decide), State.getX_of_ne hx',
    State.x_setX_of_ne hx]

/-- Both lanes of a pair in `d25` and `d26`, left there. -/
theorem exists_emitMaskLanes (h : Sim config base s t) :
    ∃ t', Straight fp W (emitMaskLane 25 19 25 ++ emitMaskLane 26 20 26) t t' ∧ Sim config base s t' ∧
      t'.d 25 = (maskRegisterExponentMantissa config (t.d 25, t.d 26)).1 ∧
      t'.d 26 = (maskRegisterExponentMantissa config (t.d 25, t.d 26)).2 := by
  have h1 := (h.setScratchX (n := 0) (by decide) ((t.d 25 &&& DYNAMIC_MANTISSA_MASK) ||| t.x 19)).setScratchD
    (n := 25) (by decide) ((t.d 25 &&& DYNAMIC_MANTISSA_MASK) ||| t.x 19)
  have hlo := @straight_emitMaskLane fp t W 25 19 (by decide) (by decide) 25
  refine ⟨_, hlo.append (straight_emitMaskLane 26 (by decide) (by decide) 26),
    (h1.setScratchX (by decide) _).setScratchD (by decide) _, ?_, ?_⟩
  · rw [State.d_setD_of_ne (by decide), State.d_setX, State.d_setD_same, h.resident.mask0]
    rfl
  · rw [State.d_setD_same, State.d_setD_of_ne (by decide), State.d_setX, h1.resident.mask1]
    rfl

theorem simulates_emitFdivM (hdst : ibc.dst < 4) (hsrc : ibc.src < 8) (hm : IsScratchpadMask ibc.memMask) :
    let v := maskRegisterExponentMantissa config
      (spPair (fpUnit fp) s.ctl s.scratchpad (memAddr ibc (s.rAt ibc.src)))
    Simulates fp config base (emitFdivM ibc) s (s.putE ibc.dst
      (fp.fdiv (s.ctl.extractLsb' 22 2) (s.eAt ibc.dst).1 v.1,
        fp.fdiv (s.ctl.extractLsb' 22 2) (s.eAt ibc.dst).2 v.2)) := by
  intro v t h
  obtain ⟨t', hmem, hsim, hlo, hhi⟩ := @exists_fltOperand fp _ _ _ _ (Pad base) _ h hsrc hm
  obtain ⟨t'', hmask, hsim', hlo', hhi'⟩ := @exists_emitMaskLanes fp _ _ _ _ (Pad base) hsim
  have hlanes := @straight_lanes fp t'' (Pad base) _ _ computesD_fdiv (eRegs ibc.dst).1 (eRegs ibc.dst).2
    25 26 (by simp [eRegs]) (by simp only [eRegs]; omega)
  rw [hsim'.mode, (hsim'.e _ hdst).1, (hsim'.e _ hdst).2, hlo', hhi', hlo, hhi] at hlanes
  refine ⟨_, ?_, hsim'.setE hdst _ _⟩
  have hcode := (hmem.append hmask).append hlanes
  simp only [List.append_assoc] at hcode
  simp only [emitFdivM, List.append_assoc]
  exact hcode

/-! ## Stores -/

theorem simulates_emitIstore (hdst : ibc.dst < 8) (hsrc : ibc.src < 8) (hm : IsScratchpadMask ibc.memMask) :
    Simulates fp config base (emitIstore ibc) s (s.putSp
      (store s.scratchpad (memAddr ibc (s.rAt ibc.dst)) 8 (byteOf (s.rAt ibc.src)))) := by
  intro t h
  have hsum : Straight fp (Pad base) (if ibc.imm ≠ 0 then movImm64 0 ibc.imm ++ addReg 0 (rReg ibc.dst) 0
      else movReg 0 (rReg ibc.dst)) t (t.setX 0 (s.rAt ibc.dst + ibc.imm)) := by
    split
    · refine ((straight_movImm64 (by decide) _).append (straight_addReg _ _ _)).eq ?_
      rw [getX_setX_same (by decide), getX_setX_of_ne (by unfold rReg; omega), h.getX_rReg hdst,
        State.setX_setX]
    next himm =>
      refine (straight_movReg _ _).eq ?_
      rw [h.getX_rReg hdst, not_not.mp himm, show s.rAt ibc.dst + 0 = s.rAt ibc.dst from BitVec.add_zero _]
  have haddr : Straight fp (Pad base) ((if ibc.imm ≠ 0 then movImm64 0 ibc.imm ++ addReg 0 (rReg ibc.dst) 0
      else movReg 0 (rReg ibc.dst)) ++ andBitmask 0 0 (ibc.memMask.setWidth 64) 1) t
      (t.setX 0 (BitVec.ofNat 64 (memAddr ibc (s.rAt ibc.dst)))) := by
    rw [memAddr, ← and_setWidth]
    refine (hsum.append (straight_andBitmask (by decide) _ (isEncodable_scratchpadMask hm) _)).eq ?_
    rw [getX_setX_same (by decide), State.setX_setX]
  have hle := memAddr_le hm (s.rAt ibc.dst)
  have h0 := h.setScratchX (n := 0) (by decide) (BitVec.ofNat 64 (memAddr ibc (s.rAt ibc.dst)))
  have hstr := @straight_strReg fp (Pad base) (t.setX 0 (BitVec.ofNat 64 (memAddr ibc (s.rAt ibc.dst))))
    (rReg ibc.src) 16 0 (by decide)
  rw [h0.resident.base, getX_setX_same (by decide), h0.getX_rReg hsrc] at hstr
  exact ⟨_, haddr.append (hstr fun a ha => ha.mono hle (by decide)), h0.write hle _⟩

/-! ## Rounding -/

/-- The rotated source of `CFROUND`, left in `x0`. -/
theorem straight_emitRotated (h : Sim config base s t) (hsrc : ibc.src < 8) (himm : ibc.imm.toNat < 64) :
    Straight fp W (emitRotated ibc) t (t.setX 0 ((s.rAt ibc.src).rotateRight ibc.imm.toNat)) := by
  have hshift : (ibc.imm &&& 63).toNat = ibc.imm.toNat := by
    rw [toNat_and_63, Nat.mod_eq_of_lt himm]
  unfold emitRotated
  rw [hshift, ← h.getX_rReg hsrc]
  dsimp only
  split
  · exact straight_rorImm _ _ himm
  next hzero =>
    rw [show ibc.imm.toNat = 0 by omega]
    refine (straight_movReg _ _).eq ?_
    congr 1
    apply BitVec.eq_of_getLsbD_eq
    intro k hk
    simp [hk]

/-- The rounding mode that `set_rounding_mode` leaves. -/
theorem extract_setRoundingModeAarch64 (fpcr mode : BitVec 32) :
    (setRoundingModeAarch64 fpcr mode).extractLsb' 22 2
      = (setRoundingModeAarch64 0 mode).extractLsb' 22 2 := by
  unfold setRoundingModeAarch64
  dsimp only
  simp only [BitVec.extractLsb'_or, BitVec.extractLsb'_and]
  have hmask : (~~~(0x7#32 <<< 22)).extractLsb' 22 2 = 0#2 := by decide
  rw [hmask, BitVec.and_zero, BitVec.and_zero]

/-- The bits of the mode that the emitted code computes. -/
theorem extract_setMode (v : Word) :
    ((((v &&& 3) >>> 1 &&& (1 : Word) ||| (v &&& 3) <<< 1 &&& (2 : Word)) <<< 22 ||| 1#64 <<< 24).setWidth
      32).extractLsb' 22 2 = (setRoundingModeAarch64 0 ((v &&& 3).setWidth 32)).extractLsb' 22 2 := by
  have hcases : v &&& 3 = 0 ∨ v &&& 3 = 1 ∨ v &&& 3 = 2 ∨ v &&& 3 = 3 := by
    have hlt : (v &&& 3).toNat < 4 := by
      rw [BitVec.toNat_and]
      exact lt_of_le_of_lt Nat.and_le_right (by decide)
    generalize v &&& 3 = w at hlt
    have : w.toNat = 0 ∨ w.toNat = 1 ∨ w.toNat = 2 ∨ w.toNat = 3 := by omega
    rcases this with h | h | h | h
    · exact .inl (BitVec.eq_of_toNat_eq h)
    · exact .inr (.inl (BitVec.eq_of_toNat_eq h))
    · exact .inr (.inr (.inl (BitVec.eq_of_toNat_eq h)))
    · exact .inr (.inr (.inr (BitVec.eq_of_toNat_eq h)))
  rcases hcases with h | h | h | h <;> rw [h] <;> decide

/-- **The mode update of `CFROUND`**, by the value in `x0`. -/
theorem exists_emitSetMode (h : Sim config base s t) :
    ∃ t', Straight fp W emitSetMode t t' ∧
      Sim config base (s.putCtl (setRoundingModeAarch64 s.ctl ((t.x 0 &&& 3).setWidth 32))) t' := by
  have hcode := ((((((((((straight_andBitmask (by decide) 0 (by decide) 1).append
    (straight_lsrImm 1 0 (by decide))).append (straight_lslImm 2 0 (by decide) (by decide))).append
    (straight_andBitmask (by decide) 1 (by decide) 3)).append
    (straight_andBitmask (by decide) 2 (by decide) 3)).append (straight_orrReg 0 1 2)).append
    (straight_lslImm 0 0 (by decide) (by decide))).append
    (straight_movImm64 (by decide) (1#64 <<< 24))).append (straight_orrReg 0 0 1)).append
    (straight_msrFpcr 0) : Straight fp W emitSetMode t _)
  refine ⟨_, hcode, ?_⟩
  refine ((((((((((h.setScratchX ?_ _).setScratchX ?_ _).setScratchX ?_ _).setScratchX ?_ _).setScratchX
    ?_ _).setScratchX ?_ _).setScratchX ?_ _).setScratchX ?_ _).setScratchX ?_ _).setFpcr ?_)
  all_goals try decide
  simp (disch := decide) only [State.getX_of_ne, State.x_setX_same, State.x_setX_of_ne]
  rw [extract_setMode, extract_setRoundingModeAarch64 s.ctl]

/-- The guard of a V2 `CFROUND`, in the flags. -/
theorem straight_guard (h : Sim config base s t) (hsrc : ibc.src < 8) (himm : ibc.imm.toNat < 64) :
    ∃ t', Straight fp W (emitRotated ibc ++ tstBitmask 0 0x3C 1) t t' ∧ Sim config base s t' ∧
      t'.x 0 = (s.rAt ibc.src).rotateRight ibc.imm.toNat ∧
      t'.flags.z = ((s.rAt ibc.src).rotateRight ibc.imm.toNat &&& 0x3C == 0) := by
  refine ⟨_, (straight_emitRotated h hsrc himm).append (straight_tstBitmask 0 (by decide) 1),
    (h.setScratchX (by decide) _).setFlags _, ?_, ?_⟩
  · rw [State.x_setFlags, State.x_setX_same (by decide)]
  · rw [getX_setX_same (by decide)]
    rfl

/-! ## Branches -/

/-- The masks of `CBRANCH` have an encoding. -/
theorem isEncodable_condition {m : BitVec 32} {imm : Word} {shift : Nat} (h : IsCondition m imm shift) :
    isEncodable (m.setWidth 64) = true := by
  obtain ⟨hlo, hhi, rfl, _, _⟩ := h
  interval_cases shift <;> decide

/-- **The test of a `CBRANCH`**: the register is updated, and the zero flag says whether to branch. -/
theorem exists_emitCbranchTest (h : Sim config base s t) (hdst : ibc.dst < 8) {shift : Nat}
    (hcond : IsCondition ibc.memMask ibc.imm shift) :
    ∃ t', Straight fp W (emitCbranchTest ibc) t t' ∧
      Sim config base (s.putR ibc.dst (s.rAt ibc.dst + ibc.imm)) t' ∧
      t'.flags.z = ((s.rAt ibc.dst + ibc.imm) &&& ibc.memMask.setWidth 64 == 0) := by
  have hadd : Straight fp W (movImm64 0 ibc.imm ++ addReg (rReg ibc.dst) (rReg ibc.dst) 0) t
      ((t.setX 0 ibc.imm).setX (rReg ibc.dst) (s.rAt ibc.dst + ibc.imm)) := by
    refine ((straight_movImm64 (by decide) _).append (straight_addReg _ _ _)).eq ?_
    rw [getX_setX_of_ne (by unfold rReg; omega), getX_setX_same (by decide), h.getX_rReg hdst]
  refine ⟨_, hadd.append (straight_tstBitmask _ (isEncodable_condition hcond) _),
    ((h.setScratchX (by decide) _).setR hdst _).setFlags _, ?_⟩
  rw [getX_setX_same (by unfold rReg; omega)]
  rfl

/-! ## All instructions -/

/-- **Straight-line instructions do what the interpreter does.** -/
theorem simulates_emitInstruction {version : RxVersion} {i : Nat} (hwf : ibc.WellFormed i)
    (hb : ibc.itype ≠ .Cbranch) (hc : ibc.itype = .Cfround → version = .V1) (len : Nat)
    (offsets : Offsets) (programSize : Nat) :
    Simulates fp config base (emitInstruction len ibc offsets programSize version) s
      (effect (fpUnit fp) config version ibc s) := by
  unfold BytecodeInstruction.WellFormed at hwf
  unfold emitInstruction effect
  cases ht : ibc.itype <;> simp only [ht] at hwf ⊢
  case IaddRs => exact simulates_emitIaddRs hwf.1 hwf.2.1 hwf.2.2
  case IaddM => exact simulates_emitIntM computes_addReg hwf.1 hwf.2.2
  case IsubR => exact simulates_emitIntRegOrImm computes_subReg hwf.1
  case IsubM => exact simulates_emitIntM computes_subReg hwf.1 hwf.2.2
  case ImulR => exact simulates_emitIntRegOrImm computes_mul hwf.1
  case ImulM => exact simulates_emitIntM computes_mul hwf.1 hwf.2.2
  case ImulhR => exact simulates_regReg computes_umulh hwf.1 hwf.2
  case ImulhM => exact simulates_emitIntM computes_umulh hwf.1 hwf.2.2
  case IsmulhR => exact simulates_regReg computes_smulh hwf.1 hwf.2
  case IsmulhM => exact simulates_emitIntM computes_smulh hwf.1 hwf.2.2
  case InegR => exact simulates_emitInegR hwf
  case IxorR => exact simulates_emitIntRegOrImm computes_eorReg hwf.1
  case IxorM => exact simulates_emitIntM computes_eorReg hwf.1 hwf.2.2
  case IrorR => exact simulates_emitIrorR hwf.1
  case IrolR => exact simulates_emitIrolR hwf.1
  case IswapR => exact simulates_emitIswapR hwf.1 hwf.2.1
  case FswapR => exact simulates_emitFswapR hwf
  case FaddR => exact simulates_lanesF computesD_fadd hwf.1 hwf.2
  case FaddM => exact simulates_emitFltM computesD_fadd hwf.1 hwf.2.1 hwf.2.2
  case FsubR => exact simulates_lanesF computesD_fsub hwf.1 hwf.2
  case FsubM => exact simulates_emitFltM computesD_fsub hwf.1 hwf.2.1 hwf.2.2
  case FscalR => exact simulates_emitFscalR hwf
  case FmulR => exact simulates_lanesE computesD_fmul hwf.1 hwf.2
  case FdivM => exact simulates_emitFdivM hwf.1 hwf.2.1 hwf.2.2
  case FsqrtR => exact simulates_emitFsqrtR hwf
  case Cbranch => exact absurd ht hb
  case Cfround =>
    obtain rfl := hc ht
    intro t h
    obtain ⟨t', hcode, hsim⟩ := @exists_emitSetMode fp _ _ _ _ (Pad base)
      (h.setScratchX (n := 0) (by decide) ((s.rAt ibc.src).rotateRight ibc.imm.toNat))
    rw [State.x_setX_same (by decide)] at hsim
    exact ⟨t', (straight_emitRotated h hwf.1 hwf.2).append hcode, hsim⟩
  case Istore => exact simulates_emitIstore hwf.1 hwf.2.1 hwf.2.2
  case Nop => exact fun t h => ⟨t, .nil, h⟩

end RandomX
end MinerTim
