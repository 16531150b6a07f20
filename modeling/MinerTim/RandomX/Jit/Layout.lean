import MinerTim.Lib.Arm64.Prefetch
import MinerTim.RandomX.Jit.Instructions
import MinerTim.RandomX.WellFormed

/-!
# `RandomX.Jit.Layout` — what the emitted code looks like

Facts about the code as a list, whatever it is run on:

* one fragment: its length, that it does not branch, and the registers it may write (`Fits`);
* one instruction: at most `INSTRUCTION_WORDS` words, where its branch stands, if it has one
  (`branch_emitInstruction`), and that it prefetches nothing (`noPrefetch_emitInstruction`);
* the fragments of the native loop.
-/

namespace MinerTim
namespace RandomX

open Arm64 Emitter

/-! ## Fragments -/

/-- The integer registers that the body may write: scratch and `r`. -/
def IsBodyX (n : Nat) : Prop := n < 4 ∨ 8 ≤ n ∧ n < 16

/-- The floating-point registers that the body may write: `f`, `e` and scratch. -/
def IsBodyD (n : Nat) : Prop := n < 16 ∨ n = 25 ∨ n = 26

/-- An instruction that writes integer registers in `X` and floating-point registers in `D` only. -/
structure Confined (X D : Nat → Prop) (i : Inst) : Prop where
  destX : ∀ n ∈ i.destX, X n
  destD : ∀ n ∈ i.destD, D n

/-- A fragment of at most `n` words, confined to these registers, that does not branch. -/
structure Fits (X D : Nat → Prop) (is : Code) (n : Nat) : Prop where
  length_le : is.length ≤ n
  confined : ∀ i ∈ is, Confined X D i
  straight : ∀ i ∈ is, i.isBranch = false

variable {X D X' D' : Nat → Prop} {is js : Code} {i : Inst} {n m rd : Nat}

theorem fits_nil : Fits X D [] 0 :=
  ⟨le_rfl, fun _ h => absurd h List.not_mem_nil, fun _ h => absurd h List.not_mem_nil⟩

theorem Fits.append (h : Fits X D is n) (h' : Fits X D js m) : Fits X D (is ++ js) (n + m) := by
  refine ⟨?_, ?_, ?_⟩
  · rw [List.length_append]
    exact Nat.add_le_add h.length_le h'.length_le
  · intro i hi
    exact (List.mem_append.mp hi).elim (h.confined i) (h'.confined i)
  · intro i hi
    exact (List.mem_append.mp hi).elim (h.straight i) (h'.straight i)

theorem Fits.mono (h : Fits X D is n) (hn : n ≤ m) : Fits X D is m :=
  ⟨h.length_le.trans hn, h.confined, h.straight⟩

/-- More registers. -/
theorem Fits.weaken (h : Fits X D is n) (hX : ∀ n, X n → X' n) (hD : ∀ n, D n → D' n) :
    Fits X' D' is n :=
  ⟨h.length_le, fun i hi => ⟨fun n hn => hX n ((h.confined i hi).destX n hn),
    fun n hn => hD n ((h.confined i hi).destD n hn)⟩, h.straight⟩

theorem fits_ite {c : Prop} [Decidable c] (h : Fits X D is n) (h' : Fits X D js n) :
    Fits X D (if c then is else js) n := by
  split
  · exact h
  · exact h'

theorem fits_single (hbranch : i.isBranch = false) (hx : ∀ n ∈ i.destX, X n)
    (hd : ∀ n ∈ i.destD, D n) : Fits X D [i] 1 :=
  ⟨le_rfl, by simpa using ⟨hx, hd⟩, by simpa using hbranch⟩

/-- An instruction that writes one integer register. -/
theorem fits_x (hbranch : i.isBranch = false) (hx : i.destX ⊆ [rd]) (hd : i.destD = [])
    (hrd : X rd) : Fits X D [i] 1 := by
  refine fits_single hbranch ?_ ?_
  · intro n hn
    rw [List.mem_singleton.mp (hx hn)]
    exact hrd
  · rw [hd]
    exact fun _ h => absurd h List.not_mem_nil

/-- An instruction that writes one floating-point register. -/
theorem fits_d (hbranch : i.isBranch = false) (hx : i.destX = []) (hd : i.destD = [rd])
    (hrd : D rd) : Fits X D [i] 1 := by
  refine fits_single hbranch ?_ ?_
  · rw [hx]
    exact fun _ h => absurd h List.not_mem_nil
  · rw [hd]
    intro n hn
    rw [List.mem_singleton.mp hn]
    exact hrd

/-- An instruction that writes no register. -/
theorem fits_none (hbranch : i.isBranch = false) (hx : i.destX = []) (hd : i.destD = []) : Fits X D [i] 1 := by
  refine fits_single hbranch ?_ ?_
  · rw [hx]
    exact fun _ h => absurd h List.not_mem_nil
  · rw [hd]
    exact fun _ h => absurd h List.not_mem_nil

theorem nonZero_subset (rs : List Nat) : nonZero rs ⊆ rs := List.filter_subset_self _

theorem isBodyX_rReg {k : Nat} (h : k < 8) : IsBodyX (rReg k) := by
  unfold IsBodyX rReg
  omega

theorem isBodyD_fRegs {k : Nat} (h : k < 4) : IsBodyD (fRegs k).1 ∧ IsBodyD (fRegs k).2 := by
  simp only [IsBodyD, fRegs]
  omega

theorem isBodyD_eRegs {k : Nat} (h : k < 4) : IsBodyD (eRegs k).1 ∧ IsBodyD (eRegs k).2 := by
  simp only [IsBodyD, eRegs]
  omega

section

variable (hrd : X rd)
include hrd

theorem fits_movz (c : BitVec 16) (shift : Nat) : Fits X D (movz rd c shift) 1 :=
  fits_x rfl (nonZero_subset _) rfl hrd

theorem fits_movk (c : BitVec 16) (shift : Nat) : Fits X D (movk rd c shift) 1 :=
  fits_x rfl (nonZero_subset _) rfl hrd

theorem fits_movzLoop (imm : Word) (is : List Nat) (first : Bool) :
    Fits X D (movzLoop rd imm is first) is.length := by
  induction is generalizing first with
  | nil => exact fits_nil
  | cons i is ih =>
    rw [List.length_cons, Nat.add_comm]
    unfold movzLoop
    refine fits_ite (fits_ite ?_ ?_) ?_
    · exact (fits_movz hrd _ _).append (ih _)
    · exact (fits_movk hrd _ _).append (ih _)
    · exact (ih _).mono (by omega)

theorem fits_movnLoop (imm : Word) (is : List Nat) :
    Fits X D (movnLoop rd imm is false) is.length := by
  induction is with
  | nil => exact fits_nil
  | cons i is ih =>
    rw [List.length_cons, Nat.add_comm]
    unfold movnLoop
    refine fits_ite ?_ (ih.mono (by omega))
    rw [if_neg Bool.false_ne_true]
    exact (fits_ite (fits_movk hrd _ _) (fits_nil.mono (by omega))).append ih

theorem fits_movImm64 (imm : Word) : Fits X D (movImm64 rd imm) 5 := by
  unfold movImm64
  refine fits_ite ((fits_movz hrd _ _).mono (by decide)) (fits_ite ?_ ?_)
  · -- the first pass makes the move and at most one more
    have hrest : Fits X D (movnLoop rd imm [1, 2, 3] false) 3 := fits_movnLoop hrd imm _
    rw [show List.range 4 = [0, 1, 2, 3] from rfl, movnLoop, if_pos (Or.inr rfl), if_pos rfl]
    refine ((fits_x rfl (nonZero_subset _) rfl hrd : Fits X D (movn rd _ _) 1).append (m := 4) ?_)
    refine fits_ite (hrest.mono (by decide)) (fits_ite (hrest.mono (by decide)) ?_)
    exact (fits_ite (fits_movk hrd _ _) (fits_nil.mono (by omega))).append hrest
  · exact (fits_movzLoop hrd imm _ true).mono (by decide)

theorem fits_addReg (rn rm : Nat) : Fits X D (addReg rd rn rm) 1 := fits_x rfl (nonZero_subset _) rfl hrd
theorem fits_subReg (rn rm : Nat) : Fits X D (subReg rd rn rm) 1 := fits_x rfl (nonZero_subset _) rfl hrd
theorem fits_mul (rn rm : Nat) : Fits X D (mul rd rn rm) 1 := fits_x rfl (nonZero_subset _) rfl hrd
theorem fits_umulh (rn rm : Nat) : Fits X D (umulh rd rn rm) 1 := fits_x rfl (nonZero_subset _) rfl hrd
theorem fits_smulh (rn rm : Nat) : Fits X D (Emitter.smulh rd rn rm) 1 :=
  fits_x rfl (nonZero_subset _) rfl hrd
theorem fits_eorReg (rn rm : Nat) : Fits X D (eorReg rd rn rm) 1 := fits_x rfl (nonZero_subset _) rfl hrd
theorem fits_orrReg (rn rm : Nat) : Fits X D (orrReg rd rn rm) 1 := fits_x rfl (nonZero_subset _) rfl hrd
theorem fits_rorv (rn rm : Nat) : Fits X D (rorv rd rn rm) 1 := fits_x rfl (nonZero_subset _) rfl hrd
theorem fits_rorImm (rs imm6 : Nat) : Fits X D (rorImm rd rs imm6) 1 := fits_x rfl (nonZero_subset _) rfl hrd
theorem fits_lsrImm (rn imm6 : Nat) : Fits X D (lsrImm rd rn imm6) 1 := fits_x rfl (nonZero_subset _) rfl hrd
theorem fits_lslImm (rn imm6 : Nat) : Fits X D (lslImm rd rn imm6) 1 := fits_x rfl (nonZero_subset _) rfl hrd
theorem fits_addRegShifted (rn rm shift : Nat) : Fits X D (addRegShifted rd rn rm shift) 1 :=
  fits_x rfl (nonZero_subset _) rfl hrd
theorem fits_addImm (rn imm12 : Nat) : Fits X D (addImm rd rn imm12) 1 :=
  fits_x rfl (List.Subset.refl _) rfl hrd
theorem fits_subImm (rn imm12 : Nat) : Fits X D (subImm rd rn imm12) 1 :=
  fits_x rfl (List.Subset.refl _) rfl hrd
theorem fits_fmovXd (dn : Nat) : Fits X D (fmovXd rd dn) 1 := fits_x rfl (nonZero_subset _) rfl hrd
theorem fits_ldrsw (rn : Nat) (imm : BitVec 12) : Fits X D [.ldrswImm rd rn imm] 1 :=
  fits_x rfl (nonZero_subset _) rfl hrd
theorem fits_ldrReg (rn rm : Nat) : Fits X D (ldrReg rd rn rm) 1 := fits_x rfl (nonZero_subset _) rfl hrd

theorem fits_andBitmask (rn : Nat) (value : Word) {tmp : Nat} (htmp : X tmp) :
    Fits X D (andBitmask rd rn value tmp) 6 := by
  unfold andBitmask
  split
  · exact (fits_x rfl (List.Subset.refl _) rfl hrd).mono (by decide)
  · exact (fits_movImm64 htmp value).append (fits_x rfl (nonZero_subset _) rfl hrd : Fits X D (andReg _ _ _) 1)

end

theorem fits_tstBitmask (rn : Nat) (value : Word) {tmp : Nat} (htmp : X tmp) :
    Fits X D (tstBitmask rn value tmp) 6 := by
  unfold tstBitmask
  split
  · exact (fits_none rfl rfl rfl).mono (by decide)
  · exact (fits_movImm64 htmp value).append (fits_none rfl rfl rfl)

section

variable (hrd : D rd)
include hrd

theorem fits_fadd (rn rm : Nat) : Fits X D (fadd rd rn rm) 1 := fits_d rfl rfl rfl hrd
theorem fits_fsub (rn rm : Nat) : Fits X D (fsub rd rn rm) 1 := fits_d rfl rfl rfl hrd
theorem fits_fmul (rn rm : Nat) : Fits X D (fmul rd rn rm) 1 := fits_d rfl rfl rfl hrd
theorem fits_fdiv (rn rm : Nat) : Fits X D (fdiv rd rn rm) 1 := fits_d rfl rfl rfl hrd
theorem fits_fsqrt (rn : Nat) : Fits X D (fsqrt rd rn) 1 := fits_d rfl rfl rfl hrd
theorem fits_fmovDd (rn : Nat) : Fits X D (fmovDd rd rn) 1 := fits_d rfl rfl rfl hrd
theorem fits_fmovDx (rn : Nat) : Fits X D (fmovDx rd rn) 1 := fits_d rfl rfl rfl hrd
theorem fits_scvtfDx (rn : Nat) : Fits X D (scvtfDx rd rn) 1 := fits_d rfl rfl rfl hrd
theorem fits_eorV8b (vn vm : Nat) : Fits X D (eorV8b rd vn vm) 1 := fits_d rfl rfl rfl hrd

end

/-! ## Instructions -/

/-- A fragment of the body. -/
abbrev FitsBody : Code → Nat → Prop := Fits IsBodyX IsBodyD

variable {ibc : BytecodeInstruction}

theorem fits_emitMemAddr : FitsBody (emitMemAddr ibc) 12 := by
  have h0 : IsBodyX 0 := .inl (by decide)
  have h1 : IsBodyX 1 := .inl (by decide)
  refine Fits.append (n := 6) (fits_ite ?_ ?_) (fits_andBitmask h0 _ _ h1)
  · exact (fits_movImm64 h0 _).append (fits_addReg h0 _ _)
  · exact (fits_movImm64 h0 _).mono (by decide)

theorem fits_emitCvtPackedInt : FitsBody emitCvtPackedInt 5 := by
  have h0 : IsBodyX 0 := .inl (by decide)
  have h1 : IsBodyX 1 := .inl (by decide)
  exact ((((fits_addReg h1 _ _).append (fits_ldrsw h0 _ _)).append
    (fits_scvtfDx (.inr (.inl rfl)) _)).append (fits_ldrsw h0 _ _)).append
    (fits_scvtfDx (.inr (.inr rfl)) _)

theorem fits_emitIntM {op : Nat → Nat → Nat → Code} (hop : ∀ rd, IsBodyX rd → ∀ rn rm, FitsBody (op rd rn rm) 1)
    (hdst : ibc.dst < 8) : FitsBody (emitIntM op ibc) 14 :=
  (fits_emitMemAddr.append (fits_ldrReg (.inl (by decide)) _ _)).append (hop _ (isBodyX_rReg hdst) _ _)

theorem fits_emitIntRegOrImm {op : Nat → Nat → Nat → Code}
    (hop : ∀ rd, IsBodyX rd → ∀ rn rm, FitsBody (op rd rn rm) 1) (hdst : ibc.dst < 8) :
    FitsBody (emitIntRegOrImm op ibc) 6 :=
  fits_ite ((hop _ (isBodyX_rReg hdst) _ _).mono (by decide))
    ((fits_movImm64 (.inl (by decide)) _).append (hop _ (isBodyX_rReg hdst) _ _))

theorem fits_emitFltR {op : Nat → Nat → Nat → Code} {dst : Nat × Nat}
    (hop : ∀ rd, IsBodyD rd → ∀ rn rm, FitsBody (op rd rn rm) 1) (hdst : IsBodyD dst.1 ∧ IsBodyD dst.2) :
    FitsBody (emitFltR op dst ibc) 2 :=
  (hop _ hdst.1 _ _).append (hop _ hdst.2 _ _)

theorem fits_emitFltM {op : Nat → Nat → Nat → Code} {dst : Nat × Nat}
    (hop : ∀ rd, IsBodyD rd → ∀ rn rm, FitsBody (op rd rn rm) 1) (hdst : IsBodyD dst.1 ∧ IsBodyD dst.2) :
    FitsBody (emitFltM op dst ibc) 19 :=
  ((fits_emitMemAddr.append fits_emitCvtPackedInt).append (hop _ hdst.1 _ _)).append (hop _ hdst.2 _ _)

theorem fits_emitMaskLane (d x : Nat) {dd : Nat} (hdd : IsBodyD dd) : FitsBody (emitMaskLane d x dd) 9 := by
  have h0 : IsBodyX 0 := .inl (by decide)
  have h1 : IsBodyX 1 := .inl (by decide)
  exact (((fits_fmovXd h0 _).append (fits_andBitmask h0 _ _ h1)).append (fits_orrReg h0 _ _)).append
    (fits_fmovDx hdd _)

theorem fits_emitIaddRs (hdst : ibc.dst < 8) : FitsBody (emitIaddRs ibc) 7 := by
  have hrd := isBodyX_rReg hdst
  refine Fits.append (n := 1) (fits_ite (fits_addRegShifted hrd _ _ _) (fits_addReg hrd _ _)) (m := 6) ?_
  refine fits_ite (fits_ite ?_ (fits_ite ?_ ?_)) (fits_nil.mono (by decide))
  · exact (fits_addImm hrd _ _).mono (by decide)
  · exact (fits_subImm hrd _ _).mono (by decide)
  · exact (fits_movImm64 (.inl (by decide)) _).append (fits_addReg hrd _ _)

theorem fits_emitIswapR (hdst : ibc.dst < 8) (hsrc : ibc.src < 8) : FitsBody (emitIswapR ibc) 3 :=
  ((fits_orrReg (.inl (by decide)) _ _).append (fits_orrReg (isBodyX_rReg hdst) _ _)).append
    (fits_orrReg (isBodyX_rReg hsrc) _ _)

theorem fits_emitFswapR (hdst : ibc.dst < 4) : FitsBody (emitFswapR ibc) 3 := by
  have hregs : IsBodyD (if ibc.fswapIsE then eRegs ibc.dst else fRegs ibc.dst).1 ∧
      IsBodyD (if ibc.fswapIsE then eRegs ibc.dst else fRegs ibc.dst).2 := by
    split
    · exact isBodyD_eRegs hdst
    · exact isBodyD_fRegs hdst
  exact ((fits_fmovDd (.inr (.inl rfl)) _).append (fits_fmovDd hregs.1 _)).append (fits_fmovDd hregs.2 _)

theorem fits_emitFdivM (hdst : ibc.dst < 4) : FitsBody (emitFdivM ibc) 37 := by
  have hregs := isBodyD_eRegs hdst
  exact ((((fits_emitMemAddr.append fits_emitCvtPackedInt).append
    (fits_emitMaskLane _ _ (.inr (.inl rfl)))).append (fits_emitMaskLane _ _ (.inr (.inr rfl)))).append
    (fits_fdiv hregs.1 _ _)).append (fits_fdiv hregs.2 _ _)

theorem fits_emitIrolR (hdst : ibc.dst < 8) : FitsBody (emitIrolR ibc) 2 := by
  have hrd := isBodyX_rReg hdst
  refine fits_ite ?_ ((fits_rorImm hrd _ _).mono (by decide))
  exact (fits_subReg (.inl (by decide)) _ _).append (fits_rorv hrd _ _)

theorem fits_emitIstore : FitsBody (emitIstore ibc) 13 := by
  have h0 : IsBodyX 0 := .inl (by decide)
  have h1 : IsBodyX 1 := .inl (by decide)
  refine (Fits.append (n := 6) (fits_ite ?_ ?_) (fits_andBitmask h0 _ _ h1)).append (fits_none rfl rfl rfl)
  · exact (fits_movImm64 h0 _).append (fits_addReg h0 _ _)
  · exact (fits_orrReg h0 _ _).mono (by decide)

theorem fits_emitRotated : FitsBody (emitRotated ibc) 1 := by
  have h0 : IsBodyX 0 := .inl (by decide)
  exact fits_ite (fits_rorImm h0 _ _) (fits_orrReg h0 _ _)

theorem fits_emitSetMode : FitsBody emitSetMode 29 := by
  have h0 : IsBodyX 0 := .inl (by decide)
  have h1 : IsBodyX 1 := .inl (by decide)
  have h2 : IsBodyX 2 := .inl (by decide)
  have h3 : IsBodyX 3 := .inl (by decide)
  exact ((((((((((fits_andBitmask h0 _ _ h1).append (fits_lsrImm h1 _ _)).append (fits_lslImm h2 _ _)).append
    (fits_andBitmask h1 _ _ h3)).append (fits_andBitmask h2 _ _ h3)).append (fits_orrReg h0 _ _)).append
    (fits_lslImm h0 _ _)).append (fits_movImm64 h1 _)).append (fits_orrReg h0 _ _)).append
    (fits_none rfl rfl rfl)).mono (by decide)

theorem fits_emitCbranchTest (hdst : ibc.dst < 8) : FitsBody (emitCbranchTest ibc) 12 :=
  ((fits_movImm64 (.inl (by decide)) _).append (fits_addReg (isBodyX_rReg hdst) _ _)).append
    (fits_tstBitmask _ _ (.inl (by decide)))

/-- The part of a V2 `CFROUND` before its guard. -/
def emitGuard (ibc : BytecodeInstruction) : Code := emitRotated ibc ++ tstBitmask 0 0x3C 1

theorem fits_emitGuard : FitsBody (emitGuard ibc) 7 :=
  fits_emitRotated.append (fits_tstBitmask _ _ (.inl (by decide)))

/-- The patched guard skips the block. -/
theorem emitCfround_V2 (ibc : BytecodeInstruction) :
    emitCfround ibc .V2
      = emitGuard ibc ++ .bCond 1 (BitVec.ofNat 19 (emitSetMode.length + 1)) :: emitSetMode := by
  show ((emitGuard ibc ++ bCond 1 0) ++ emitSetMode).set (emitGuard ibc).length
    (.bCond 1 (BitVec.ofNat 19 (((emitGuard ibc ++ bCond 1 0) ++ emitSetMode).length
      - (emitGuard ibc).length))) = _
  have hrel : ((emitGuard ibc ++ bCond 1 0) ++ emitSetMode).length - (emitGuard ibc).length
      = emitSetMode.length + 1 := by
    simp only [List.length_append, bCond, List.length_singleton]
    omega
  rw [hrel, List.append_assoc, List.set_append_right _ _ le_rfl, Nat.sub_self]
  rfl

/-- No instruction is longer. -/
def INSTRUCTION_WORDS : Nat := 38

/-- **A straight-line instruction.** -/
theorem fits_emitInstruction {version : RxVersion} {i : Nat} (hwf : ibc.WellFormed i)
    (hb : ibc.itype ≠ .Cbranch) (hc : ibc.itype = .Cfround → version = .V1) (len : Nat)
    (offsets : Offsets) (programSize : Nat) :
    FitsBody (emitInstruction len ibc offsets programSize version) INSTRUCTION_WORDS := by
  unfold BytecodeInstruction.WellFormed at hwf
  unfold emitInstruction
  cases ht : ibc.itype <;> simp only [ht] at hwf ⊢
  case IaddRs => exact (fits_emitIaddRs hwf.1).mono (by decide)
  case IaddM => exact (fits_emitIntM (fun _ => fits_addReg) hwf.1).mono (by decide)
  case IsubR => exact (fits_emitIntRegOrImm (fun _ => fits_subReg) hwf.1).mono (by decide)
  case IsubM => exact (fits_emitIntM (fun _ => fits_subReg) hwf.1).mono (by decide)
  case ImulR => exact (fits_emitIntRegOrImm (fun _ => fits_mul) hwf.1).mono (by decide)
  case ImulM => exact (fits_emitIntM (fun _ => fits_mul) hwf.1).mono (by decide)
  case ImulhR => exact (fits_umulh (isBodyX_rReg hwf.1) _ _).mono (by decide)
  case ImulhM => exact (fits_emitIntM (fun _ => fits_umulh) hwf.1).mono (by decide)
  case IsmulhR => exact (fits_smulh (isBodyX_rReg hwf.1) _ _).mono (by decide)
  case IsmulhM => exact (fits_emitIntM (fun _ => fits_smulh) hwf.1).mono (by decide)
  case InegR => exact (fits_subReg (isBodyX_rReg hwf) _ _).mono (by decide)
  case IxorR => exact (fits_emitIntRegOrImm (fun _ => fits_eorReg) hwf.1).mono (by decide)
  case IxorM => exact (fits_emitIntM (fun _ => fits_eorReg) hwf.1).mono (by decide)
  case IrorR =>
    exact (fits_ite (fits_rorv (isBodyX_rReg hwf.1) _ _) (fits_rorImm (isBodyX_rReg hwf.1) _ _)).mono
      (by decide)
  case IrolR => exact (fits_emitIrolR hwf.1).mono (by decide)
  case IswapR => exact (fits_emitIswapR hwf.1 hwf.2.1).mono (by decide)
  case FswapR => exact (fits_emitFswapR hwf).mono (by decide)
  case FaddR => exact (fits_emitFltR (fun _ => fits_fadd) (isBodyD_fRegs hwf.1)).mono (by decide)
  case FaddM => exact (fits_emitFltM (fun _ => fits_fadd) (isBodyD_fRegs hwf.1)).mono (by decide)
  case FsubR => exact (fits_emitFltR (fun _ => fits_fsub) (isBodyD_fRegs hwf.1)).mono (by decide)
  case FsubM => exact (fits_emitFltM (fun _ => fits_fsub) (isBodyD_fRegs hwf.1)).mono (by decide)
  case FscalR =>
    have hregs := isBodyD_fRegs hwf
    exact ((fits_eorV8b hregs.1 _ _).append (fits_eorV8b hregs.2 _ _)).mono (by decide)
  case FmulR => exact (fits_emitFltR (fun _ => fits_fmul) (isBodyD_eRegs hwf.1)).mono (by decide)
  case FdivM => exact (fits_emitFdivM hwf.1).mono (by decide)
  case FsqrtR =>
    have hregs := isBodyD_eRegs hwf
    exact ((fits_fsqrt hregs.1 _).append (fits_fsqrt hregs.2 _)).mono (by decide)
  case Cbranch => exact absurd ht hb
  case Cfround =>
    obtain rfl := hc ht
    exact (fits_emitRotated.append fits_emitSetMode).mono (by decide)
  case Istore => exact fits_emitIstore.mono (by decide)
  case Nop => exact fits_nil.mono (by decide)

/-- A fragment with one branch in it. -/
structure FitsAround (is : Code) (p : Nat) (b : Inst) : Prop where
  length_le : is.length ≤ INSTRUCTION_WORDS
  confined : ∀ i ∈ is, Confined IsBodyX IsBodyD i
  branch : ∀ k i, is[k]? = some i ∧ i.isBranch = true ↔ k = p ∧ i = b

theorem fitsAround {is js : Code} {b : Inst} (h : FitsBody is n) (h' : FitsBody js m)
    (hb : b.isBranch = true) (hx : b.destX = []) (hd : b.destD = []) (hle : n + 1 + m ≤ INSTRUCTION_WORDS) :
    FitsAround (is ++ b :: js) is.length b := by
  have hlen := h.length_le
  have hlen' := h'.length_le
  refine ⟨?_, ?_, ?_⟩
  · rw [List.length_append, List.length_cons]
    omega
  · intro i hi
    rcases List.mem_append.mp hi with hi | hi
    · exact h.confined i hi
    · rcases List.mem_cons.mp hi with rfl | hi
      · refine ⟨?_, ?_⟩
        · rw [hx]
          exact fun _ hn => absurd hn List.not_mem_nil
        · rw [hd]
          exact fun _ hn => absurd hn List.not_mem_nil
      · exact h'.confined i hi
  · intro k i
    constructor
    · rintro ⟨hk, hi⟩
      -- before and after `b` there is no branch
      rcases Nat.lt_trichotomy k is.length with hlt | rfl | hgt
      · rw [List.getElem?_append_left hlt] at hk
        have := h.straight i (List.mem_of_getElem? hk)
        rw [hi] at this
        cases this
      · rw [List.getElem?_append_right le_rfl, Nat.sub_self] at hk
        exact ⟨rfl, (Option.some.inj hk).symm⟩
      · rw [List.getElem?_append_right hgt.le] at hk
        obtain ⟨d, hd⟩ := Nat.exists_eq_add_of_lt hgt
        rw [show k - is.length = d + 1 by omega, List.getElem?_cons_succ] at hk
        have := h'.straight i (List.mem_of_getElem? hk)
        rw [hi] at this
        cases this
    · rintro ⟨rfl, rfl⟩
      refine ⟨?_, hb⟩
      rw [List.getElem?_append_right le_rfl, Nat.sub_self]
      rfl

/-- The branch of an instruction at word offset `len`, if it has one: where it stands in the code of the
    instruction, and what it is. -/
def branchOf (len : Nat) (ibc : BytecodeInstruction) (offsets : Offsets) (programSize : Nat)
    (version : RxVersion) : Option (Nat × Inst) :=
  match ibc.itype, version with
  | .Cbranch, _ =>
    let current := len + (emitCbranchTest ibc).length
    some ((emitCbranchTest ibc).length,
      .bCond 0 (BitVec.ofInt 19 ((cbranchTarget ibc offsets programSize current : Int) - (current : Int))))
  | .Cfround, .V2 => some ((emitGuard ibc).length, .bCond 1 (BitVec.ofNat 19 (emitSetMode.length + 1)))
  | _, _ => none

theorem branchOf_cbranch {len : Nat} {offsets : Offsets} {programSize : Nat} {version : RxVersion}
    (hb : ibc.itype = .Cbranch) : branchOf len ibc offsets programSize version
      = some ((emitCbranchTest ibc).length, .bCond 0 (BitVec.ofInt 19 ((cbranchTarget ibc offsets programSize
        (len + (emitCbranchTest ibc).length) : Int) - ((len + (emitCbranchTest ibc).length : Nat) : Int)))) := by
  unfold branchOf
  rw [hb]

theorem branchOf_cfround {len : Nat} {offsets : Offsets} {programSize : Nat} (hc : ibc.itype = .Cfround) :
    branchOf len ibc offsets programSize .V2
      = some ((emitGuard ibc).length, .bCond 1 (BitVec.ofNat 19 (emitSetMode.length + 1))) := by
  unfold branchOf
  rw [hc]

section

variable {version : RxVersion} {k : Nat} (hwf : ibc.WellFormed k) (len : Nat) (offsets : Offsets)
  (programSize : Nat)
include hwf

theorem fitsAround_cbranch (hb : ibc.itype = .Cbranch) :
    FitsAround (emitInstruction len ibc offsets programSize version) (emitCbranchTest ibc).length
      (.bCond 0 (BitVec.ofInt 19 ((cbranchTarget ibc offsets programSize
        (len + (emitCbranchTest ibc).length) : Int) - ((len + (emitCbranchTest ibc).length : Nat) : Int)))) := by
  unfold emitInstruction
  rw [hb]
  exact fitsAround (fits_emitCbranchTest (hwf.cbranch hb).1) fits_nil rfl rfl rfl (by decide)

omit hwf in
theorem fitsAround_cfround (hc : ibc.itype = .Cfround) :
    FitsAround (emitInstruction len ibc offsets programSize .V2) (emitGuard ibc).length
      (.bCond 1 (BitVec.ofNat 19 (emitSetMode.length + 1))) := by
  unfold emitInstruction
  rw [hc]
  dsimp only
  rw [emitCfround_V2]
  exact fitsAround fits_emitGuard fits_emitSetMode rfl rfl rfl (by decide)

/-- **An instruction is either straight-line code or has its one branch where `branchOf` says.** -/
theorem fits_or_fitsAround :
    (branchOf len ibc offsets programSize version = none ∧
      FitsBody (emitInstruction len ibc offsets programSize version) INSTRUCTION_WORDS) ∨
    ∃ p b, branchOf len ibc offsets programSize version = some (p, b) ∧
      FitsAround (emitInstruction len ibc offsets programSize version) p b := by
  by_cases hb : ibc.itype = .Cbranch
  · exact .inr ⟨_, _, branchOf_cbranch hb, fitsAround_cbranch hwf len offsets programSize hb⟩
  · by_cases hc : ibc.itype = .Cfround ∧ version = .V2
    · obtain ⟨hc, rfl⟩ := hc
      exact .inr ⟨_, _, branchOf_cfround hc, fitsAround_cfround len offsets programSize hc⟩
    · refine .inl ⟨?_, ?_⟩
      · unfold branchOf
        split
        next h => exact absurd h hb
        next h => exact absurd ⟨h, rfl⟩ hc
        next => rfl
      · refine fits_emitInstruction hwf hb ?_ len offsets programSize
        intro h
        cases version with
        | V1 => rfl
        | V2 => exact absurd ⟨h, rfl⟩ hc

theorem length_emitInstruction_le :
    (emitInstruction len ibc offsets programSize version).length ≤ INSTRUCTION_WORDS := by
  rcases fits_or_fitsAround hwf len offsets programSize with ⟨_, h⟩ | ⟨_, _, _, h⟩
  · exact h.length_le
  · exact h.length_le

theorem confined_emitInstruction :
    ∀ i ∈ emitInstruction len ibc offsets programSize version, Confined IsBodyX IsBodyD i := by
  rcases fits_or_fitsAround hwf len offsets programSize with ⟨_, h⟩ | ⟨_, _, _, h⟩
  · exact h.confined
  · exact h.confined

theorem branch_emitInstruction (p : Nat) (i : Inst) :
    (emitInstruction len ibc offsets programSize version)[p]? = some i ∧ i.isBranch = true ↔
      branchOf len ibc offsets programSize version = some (p, i) := by
  rcases fits_or_fitsAround hwf len offsets programSize with ⟨hnone, h⟩ | ⟨q, b, hsome, h⟩
  · rw [hnone]
    refine ⟨?_, nofun⟩
    rintro ⟨hp, hi⟩
    have := h.straight i (List.mem_of_getElem? hp)
    rw [hi] at this
    cases this
  · rw [hsome, h.branch, Option.some.injEq, Prod.mk.injEq]
    exact ⟨fun ⟨h, h'⟩ => ⟨h.symm, h'.symm⟩, fun ⟨h, h'⟩ => ⟨h.symm, h'.symm⟩⟩

end

/-! ## Prefetches -/

theorem noPrefetch_movzLoop (imm : Word) (is : List Nat) (first : Bool) :
    NoPrefetch (movzLoop rd imm is first) := by
  induction is generalizing first with
  | nil => exact noPrefetch_nil
  | cons i is ih =>
    unfold movzLoop
    refine .ite (.ite ?_ ?_) (ih _)
    · exact (noPrefetch_single rfl).append (ih _)
    · exact (noPrefetch_single rfl).append (ih _)

theorem noPrefetch_movnLoop (imm : Word) (is : List Nat) (first : Bool) :
    NoPrefetch (movnLoop rd imm is first) := by
  induction is generalizing first with
  | nil => exact noPrefetch_nil
  | cons i is ih =>
    have hmovk : NoPrefetch ((if chunk imm i ≠ 0xFFFF then movk rd (chunk imm i) (i * 16) else [])
        ++ movnLoop rd imm is false) :=
      (NoPrefetch.ite (noPrefetch_single rfl) noPrefetch_nil).append (ih _)
    unfold movnLoop
    refine .ite (.ite ?_ hmovk) (ih _)
    exact (noPrefetch_single rfl).append (.ite (ih _) (.ite (ih _) hmovk))

theorem noPrefetch_movImm64 (rd : Nat) (imm : Word) : NoPrefetch (movImm64 rd imm) :=
  .ite (noPrefetch_single rfl) (.ite (noPrefetch_movnLoop imm _ _) (noPrefetch_movzLoop imm _ _))

theorem noPrefetch_andBitmask (rd rn : Nat) (value : Word) (tmp : Nat) :
    NoPrefetch (andBitmask rd rn value tmp) := by
  unfold andBitmask
  split
  · exact noPrefetch_single rfl
  · exact (noPrefetch_movImm64 _ _).append (noPrefetch_single rfl)

theorem noPrefetch_tstBitmask (rn : Nat) (value : Word) (tmp : Nat) :
    NoPrefetch (tstBitmask rn value tmp) := by
  unfold tstBitmask
  split
  · exact noPrefetch_single rfl
  · exact (noPrefetch_movImm64 _ _).append (noPrefetch_single rfl)

theorem noPrefetch_emitMemAddr : NoPrefetch (emitMemAddr ibc) := by
  refine .append (.ite ?_ (noPrefetch_movImm64 _ _)) (noPrefetch_andBitmask _ _ _ _)
  exact (noPrefetch_movImm64 _ _).append (noPrefetch_single rfl)

theorem noPrefetch_emitCvtPackedInt : NoPrefetch emitCvtPackedInt := by decide

theorem noPrefetch_emitMaskLane (d x dd : Nat) : NoPrefetch (emitMaskLane d x dd) :=
  (((noPrefetch_single rfl).append (noPrefetch_andBitmask _ _ _ _)).append (noPrefetch_single rfl)).append
    (noPrefetch_single rfl)

section

variable {op : Nat → Nat → Nat → Code} (hop : ∀ rd rn rm, NoPrefetch (op rd rn rm))
include hop

theorem noPrefetch_emitIntM : NoPrefetch (emitIntM op ibc) :=
  (noPrefetch_emitMemAddr.append (noPrefetch_single rfl)).append (hop _ _ _)

theorem noPrefetch_emitIntRegOrImm : NoPrefetch (emitIntRegOrImm op ibc) :=
  .ite (hop _ _ _) ((noPrefetch_movImm64 _ _).append (hop _ _ _))

theorem noPrefetch_emitFltR (dst : Nat × Nat) : NoPrefetch (emitFltR op dst ibc) :=
  (hop _ _ _).append (hop _ _ _)

theorem noPrefetch_emitFltM (dst : Nat × Nat) : NoPrefetch (emitFltM op dst ibc) :=
  ((noPrefetch_emitMemAddr.append noPrefetch_emitCvtPackedInt).append (hop _ _ _)).append (hop _ _ _)

end

theorem noPrefetch_emitIaddRs : NoPrefetch (emitIaddRs ibc) := by
  refine .append (.ite (noPrefetch_single rfl) (noPrefetch_single rfl)) (.ite ?_ noPrefetch_nil)
  refine .ite (noPrefetch_single rfl) (.ite (noPrefetch_single rfl) ?_)
  exact (noPrefetch_movImm64 _ _).append (noPrefetch_single rfl)

theorem noPrefetch_emitFdivM : NoPrefetch (emitFdivM ibc) :=
  ((((noPrefetch_emitMemAddr.append noPrefetch_emitCvtPackedInt).append (noPrefetch_emitMaskLane _ _ _)).append
    (noPrefetch_emitMaskLane _ _ _)).append (noPrefetch_single rfl)).append (noPrefetch_single rfl)

theorem noPrefetch_emitCbranchTest : NoPrefetch (emitCbranchTest ibc) :=
  ((noPrefetch_movImm64 _ _).append (noPrefetch_single rfl)).append (noPrefetch_tstBitmask _ _ _)

theorem noPrefetch_emitRotated : NoPrefetch (emitRotated ibc) :=
  .ite (noPrefetch_single rfl) (noPrefetch_single rfl)

theorem noPrefetch_emitSetMode : NoPrefetch emitSetMode := by decide +kernel

theorem noPrefetch_emitGuard : NoPrefetch (emitGuard ibc) :=
  noPrefetch_emitRotated.append (noPrefetch_tstBitmask _ _ _)

theorem noPrefetch_emitIstore : NoPrefetch (emitIstore ibc) := by
  refine .append (.append (.ite ?_ (noPrefetch_single rfl)) (noPrefetch_andBitmask _ _ _ _)) (noPrefetch_single rfl)
  exact (noPrefetch_movImm64 _ _).append (noPrefetch_single rfl)

/-- **No instruction prefetches.** -/
theorem noPrefetch_emitInstruction (len : Nat) (ibc : BytecodeInstruction) (offsets : Offsets)
    (programSize : Nat) (version : RxVersion) :
    NoPrefetch (emitInstruction len ibc offsets programSize version) := by
  unfold emitInstruction
  cases ibc.itype with
  | IaddRs => exact noPrefetch_emitIaddRs
  | IaddM | IsubM | ImulM | ImulhM | IsmulhM | IxorM => exact noPrefetch_emitIntM fun _ _ _ => noPrefetch_single rfl
  | IsubR | ImulR | IxorR => exact noPrefetch_emitIntRegOrImm fun _ _ _ => noPrefetch_single rfl
  | ImulhR | IsmulhR | InegR => exact noPrefetch_single rfl
  | IrorR => exact .ite (noPrefetch_single rfl) (noPrefetch_single rfl)
  | IrolR => exact .ite ((noPrefetch_single rfl).append (noPrefetch_single rfl)) (noPrefetch_single rfl)
  | IswapR | FswapR =>
    exact ((noPrefetch_single rfl).append (noPrefetch_single rfl)).append (noPrefetch_single rfl)
  | FaddR | FsubR | FmulR => exact noPrefetch_emitFltR (fun _ _ _ => noPrefetch_single rfl) _
  | FaddM | FsubM => exact noPrefetch_emitFltM (fun _ _ _ => noPrefetch_single rfl) _
  | FscalR | FsqrtR => exact (noPrefetch_single rfl).append (noPrefetch_single rfl)
  | FdivM => exact noPrefetch_emitFdivM
  | Cbranch => exact noPrefetch_emitCbranchTest.append (noPrefetch_single rfl)
  | Cfround =>
    cases version with
    | V1 => exact noPrefetch_emitRotated.append noPrefetch_emitSetMode
    | V2 =>
      dsimp only
      rw [emitCfround_V2]
      exact noPrefetch_emitGuard.append ((noPrefetch_single rfl).append noPrefetch_emitSetMode)
  | Istore => exact noPrefetch_emitIstore
  | Nop => exact noPrefetch_nil

/-! ## The native loop -/

/-- The integer registers that the loop may write: those of the body and the loop state. -/
def IsLoopX (n : Nat) : Prop := IsBodyX n ∨ 24 ≤ n ∧ n < 28

/-- A fragment of the loop. -/
abbrev FitsLoop : Code → Nat → Prop := Fits IsLoopX IsBodyD

theorem Fits.loop (h : FitsBody is n) : FitsLoop is n := h.weaken (fun _ => .inl) fun _ => id

/-- A fragment that may write any register. -/
abbrev FitsAny : Code → Nat → Prop := Fits (fun _ => True) fun _ => True

theorem fitsAny (h : ∀ i ∈ is, i.isBranch = false) : FitsAny is is.length :=
  ⟨le_rfl, fun _ _ => ⟨fun _ _ => trivial, fun _ _ => trivial⟩, h⟩

theorem fits_emitFor {f : Nat → Code} (h : ∀ k < n, Fits X D (f k) m) : Fits X D (emitFor n f) (n * m) := by
  induction n with
  | zero => rw [Nat.zero_mul]; exact fits_nil
  | succ n ih =>
    rw [emitFor, List.range_succ, List.flatMap_append, List.flatMap_singleton, Nat.succ_mul]
    exact (ih fun k hk => h k (by omega)).append (h n (by omega))

theorem fits_eorRegW (hrd : X rd) (rn rm : Nat) : Fits X D (eorRegW rd rn rm) 1 :=
  fits_x rfl (nonZero_subset _) rfl hrd

theorem fits_ldrImm (hrd : X rd) (rn off : Nat) : Fits X D (ldrImm rd rn off) 1 :=
  fits_x rfl (nonZero_subset _) rfl hrd

/-! ### Fragments -/

/-- `r[i] ^= word i` of a block, through a scratch register. -/
def emitXorR (rt rn : Nat) : Code := emitFor 8 fun i => ldrImm rt rn (i * 8) ++ eorReg (rReg i) (rReg i) rt

/-- `sp_addr ^= mix; sp_addr &= MASK`, in the low half of a register. -/
def emitMixAddr (rd rs : Nat) : Code := eorRegW rd rd rs ++ andBitmask rd rd JIT_SCRATCHPAD_L3_MASK64 1

/-- The scratchpad addresses of an iteration. -/
def emitAddresses (config : ProgramConfiguration) : Code :=
  eorReg 0 (rReg config.readReg0) (rReg config.readReg1) ++ emitMixAddr 26 0 ++ lsrImm 1 0 32 ++ emitMixAddr 27 1

/-- The load of `f[i]`. -/
def emitLoadF (i : Nat) : Code :=
  addImm 0 27 (i * 8) ++ emitCvtPackedInt ++ fmovDd (fRegs i).1 25 ++ fmovDd (fRegs i).2 26

/-- The load of `e[i]`. -/
def emitLoadE (i : Nat) : Code :=
  addImm 0 27 (32 + i * 8) ++ emitCvtPackedInt ++ emitMaskLane 25 19 (eRegs i).1 ++ emitMaskLane 26 20 (eRegs i).2

/-- The loads of `r`, `f` and `e`. -/
def emitLoads : Code := addReg 2 16 26 ++ emitXorR 3 2 ++ emitFor 4 emitLoadF ++ emitFor 4 emitLoadE

theorem emitIterationPre_eq (config : ProgramConfiguration) :
    emitIterationPre config = emitAddresses config ++ emitLoads := by
  have hf : emitLoadF = fun i => addImm 0 27 (i * 8) ++ emitCvtPackedInt ++ fmovDd (fRegs i).1 25
      ++ fmovDd (fRegs i).2 26 := rfl
  have he : emitLoadE = fun i => addImm 0 27 (32 + i * 8) ++ emitCvtPackedInt
      ++ emitMaskLane 25 19 (eRegs i).1 ++ emitMaskLane 26 20 (eRegs i).2 := rfl
  simp only [emitIterationPre, emitAddresses, emitMixAddr, emitLoads, emitXorR, hf, he, List.append_assoc]

/-- The address of the dataset item, and the mix into `mx`. -/
def emitReadPtr (config : ProgramConfiguration) : Code :=
  andBitmask 0 24 JIT_CACHE_LINE_ALIGN_MASK 1 ++ addReg 0 22 0
    ++ eorReg 1 (rReg config.readReg2) (rReg config.readReg3) ++ eorRegW 25 25 1

/-- `swap(mx, ma)`. -/
def emitSwap : Code := movReg 1 24 ++ movReg 24 25 ++ movReg 25 1

/-- The prefetch of a dataset item. -/
def emitPrefetchLine : Code := andBitmask 0 24 JIT_CACHE_LINE_ALIGN_MASK 1 ++ prfmReg 22 0

/-- The store of the integer registers. -/
def emitStoreR : Code := addReg 0 16 27 ++ emitFor 8 fun i => strImm (rReg i) 0 (i * 8)

/-- `f[i] ^= e[i]`. -/
def emitXorF (i : Nat) : Code :=
  eorV8b (fRegs i).1 (fRegs i).1 (eRegs i).1 ++ eorV8b (fRegs i).2 (fRegs i).2 (eRegs i).2

/-- The store of the `f` registers. -/
def emitStoreF : Code :=
  addReg 0 16 26 ++ emitFor 4 fun i => stpFpImm (fRegs i).1 (fRegs i).2 0 ((i * 16 : Nat) : Int)

/-- The prefetches of two scratchpad blocks. -/
def emitPrefetchBlocks (config : ProgramConfiguration) : Code :=
  eorReg 0 (rReg config.readReg0) (rReg config.readReg1)
    ++ andBitmask 1 0 JIT_SCRATCHPAD_L3_MASK64 2 ++ prfmReg 16 1
    ++ lsrImm 1 0 32 ++ andBitmask 1 1 JIT_SCRATCHPAD_L3_MASK64 2 ++ prfmReg 16 1

/-- `sp_addr0 = sp_addr1 = 0`. -/
def emitResetAddresses : Code := movz 26 0 0 ++ movz 27 0 0

theorem emitIterationPost_eq (config : ProgramConfiguration) : emitIterationPost config
    = emitReadPtr config ++ (emitXorR 2 0 ++ (emitSwap ++ (emitPrefetchLine ++ (emitStoreR
      ++ (emitFor 4 emitXorF ++ (emitStoreF ++ (emitPrefetchBlocks config ++ emitResetAddresses))))))) := by
  have hf : emitXorF = fun i => eorV8b (fRegs i).1 (fRegs i).1 (eRegs i).1
      ++ eorV8b (fRegs i).2 (fRegs i).2 (eRegs i).2 := rfl
  unfold emitIterationPost emitReadPtr emitXorR emitSwap emitPrefetchLine emitStoreR emitStoreF emitPrefetchBlocks
    emitResetAddresses
  -- the masks are not to be encoded here
  generalize andBitmask 0 24 JIT_CACHE_LINE_ALIGN_MASK 1 = mask
  generalize andBitmask 1 0 JIT_SCRATCHPAD_L3_MASK64 2 = mask'
  generalize andBitmask 1 1 JIT_SCRATCHPAD_L3_MASK64 2 = mask''
  simp only [hf, List.append_assoc]

theorem fits_emitXorR {rt : Nat} (hrt : IsBodyX rt) (rn : Nat) : FitsBody (emitXorR rt rn) 16 :=
  fits_emitFor fun _ hi => (fits_ldrImm hrt _ _).append (fits_eorReg (isBodyX_rReg hi) _ _)

theorem fits_emitLoadF {i : Nat} (hi : i < 4) : FitsBody (emitLoadF i) 8 :=
  (((fits_addImm (.inl (by decide)) _ _).append fits_emitCvtPackedInt).append
    (fits_fmovDd (isBodyD_fRegs hi).1 _)).append (fits_fmovDd (isBodyD_fRegs hi).2 _)

theorem fits_emitLoadE {i : Nat} (hi : i < 4) : FitsBody (emitLoadE i) 24 :=
  (((fits_addImm (.inl (by decide)) _ _).append fits_emitCvtPackedInt).append
    (fits_emitMaskLane _ _ (isBodyD_eRegs hi).1)).append (fits_emitMaskLane _ _ (isBodyD_eRegs hi).2)

theorem fits_emitLoads : FitsBody emitLoads 145 :=
  (((fits_addReg (.inl (by decide)) _ _).append (fits_emitXorR (.inl (by decide)) _)).append
    (fits_emitFor fun _ => fits_emitLoadF)).append (fits_emitFor fun _ => fits_emitLoadE)

theorem fits_emitXorF {i : Nat} (hi : i < 4) : FitsBody (emitXorF i) 2 :=
  (fits_eorV8b (isBodyD_fRegs hi).1 _ _).append (fits_eorV8b (isBodyD_fRegs hi).2 _ _)

theorem fits_emitMixAddr (hrd : IsLoopX rd) (rs : Nat) : FitsLoop (emitMixAddr rd rs) 7 :=
  (fits_eorRegW hrd _ _).append (fits_andBitmask hrd _ _ (.inl (.inl (by decide))))

theorem fits_emitIterationPre (config : ProgramConfiguration) : FitsLoop (emitIterationPre config) 184 := by
  have h0 : IsLoopX 0 := .inl (.inl (by decide))
  have h1 : IsLoopX 1 := .inl (.inl (by decide))
  rw [emitIterationPre_eq]
  exact (((((fits_eorReg h0 _ _).append (fits_emitMixAddr (.inr (by decide)) _)).append
    (fits_lsrImm h1 _ _)).append (fits_emitMixAddr (.inr (by decide)) _)).append fits_emitLoads.loop).mono
    (by decide)

theorem fits_emitIterationPost (config : ProgramConfiguration) : FitsLoop (emitIterationPost config) 88 := by
  have h0 : IsLoopX 0 := .inl (.inl (by decide))
  have h1 : IsLoopX 1 := .inl (.inl (by decide))
  have h2 : IsLoopX 2 := .inl (.inl (by decide))
  have h24 : IsLoopX 24 := .inr (by decide)
  have h25 : IsLoopX 25 := .inr (by decide)
  have h26 : IsLoopX 26 := .inr (by decide)
  have h27 : IsLoopX 27 := .inr (by decide)
  have hnone : ∀ {i : Inst}, i.isBranch = false → i.destX = [] → i.destD = [] → FitsLoop [i] 1 := fits_none
  have hread : FitsLoop (emitReadPtr config) 9 := (((fits_andBitmask h0 _ _ h1).append
    (fits_addReg h0 _ _)).append (fits_eorReg h1 _ _)).append (fits_eorRegW h25 _ _)
  have hswap : FitsLoop emitSwap 3 :=
    ((fits_orrReg h1 _ _).append (fits_orrReg h24 _ _)).append (fits_orrReg h25 _ _)
  have hline : FitsLoop emitPrefetchLine 7 := (fits_andBitmask h0 _ _ h1).append (hnone rfl rfl rfl)
  have hstoreR : FitsLoop emitStoreR 9 :=
    (fits_addReg h0 _ _).append (fits_emitFor fun _ _ => hnone rfl rfl rfl)
  have hstoreF : FitsLoop emitStoreF 5 :=
    (fits_addReg h0 _ _).append (fits_emitFor fun _ _ => hnone rfl rfl rfl)
  have hblocks : FitsLoop (emitPrefetchBlocks config) 16 := (((((fits_eorReg h0 _ _).append
    (fits_andBitmask h1 _ _ h2)).append (hnone rfl rfl rfl)).append (fits_lsrImm h1 _ _)).append
    (fits_andBitmask h1 _ _ h2)).append (hnone rfl rfl rfl)
  have hreset : FitsLoop emitResetAddresses 2 := (fits_movz h26 _ _).append (fits_movz h27 _ _)
  rw [emitIterationPost_eq]
  exact (hread.append ((fits_emitXorR (.inl (by decide)) _).loop.append (hswap.append (hline.append
    (hstoreR.append ((fits_emitFor fun _ => fits_emitXorF).loop.append (hstoreF.append
    (hblocks.append hreset)))))))).mono (by decide)

theorem noPrefetch_emitFor {f : Nat → Code} (h : ∀ k, NoPrefetch (f k)) (n : Nat) : NoPrefetch (emitFor n f) := by
  induction n with
  | zero => exact noPrefetch_nil
  | succ n ih =>
    rw [emitFor, List.range_succ, List.flatMap_append, List.flatMap_singleton]
    exact ih.append (h n)

theorem noPrefetch_emitXorR (rt rn : Nat) : NoPrefetch (emitXorR rt rn) :=
  noPrefetch_emitFor (fun _ => (noPrefetch_single rfl).append (noPrefetch_single rfl)) 8

theorem noPrefetch_emitMixAddr (rd rs : Nat) : NoPrefetch (emitMixAddr rd rs) :=
  (noPrefetch_single rfl).append (noPrefetch_andBitmask _ _ _ _)

theorem noPrefetch_emitIterationPre (config : ProgramConfiguration) : NoPrefetch (emitIterationPre config) := by
  have hf : ∀ i, NoPrefetch (emitLoadF i) := fun _ => (((noPrefetch_single rfl).append
    noPrefetch_emitCvtPackedInt).append (noPrefetch_single rfl)).append (noPrefetch_single rfl)
  have he : ∀ i, NoPrefetch (emitLoadE i) := fun _ => (((noPrefetch_single rfl).append
    noPrefetch_emitCvtPackedInt).append (noPrefetch_emitMaskLane _ _ _)).append (noPrefetch_emitMaskLane _ _ _)
  rw [emitIterationPre_eq]
  exact ((((noPrefetch_single rfl).append (noPrefetch_emitMixAddr _ _)).append (noPrefetch_single rfl)).append
    (noPrefetch_emitMixAddr _ _)).append ((((noPrefetch_single rfl).append (noPrefetch_emitXorR _ _)).append
    (noPrefetch_emitFor hf 4)).append (noPrefetch_emitFor he 4))

/-- The moves that initialise the loop may write any register. -/
theorem fits_emitLoopPrologue (config : ProgramConfiguration) (initMa initMx : BitVec 32)
    (datasetOffset : Word) : FitsAny (emitLoopPrologue config initMa initMx datasetOffset) 80 := by
  have hmov : ∀ (rd : Nat) (imm : Word), FitsAny (movImm64 rd imm) 5 := fun rd imm => fits_movImm64 trivial imm
  have hsave : FitsAny (emitSave ++ movReg 22 2 ++ movReg 28 3 ++ movReg 23 4 ++ movReg 21 0 ++ movReg 16 1)
      15 := fitsAny (by decide)
  have hr : FitsAny (emitFor 8 fun i => ldrImm (8 + i) 21 (i * 8)) 8 := fitsAny (by decide)
  have ha : FitsAny (emitFor 8 fun i => ldrFpImm (16 + i) 21 (192 + i * 8)) 8 := fitsAny (by decide)
  exact (((((((((((((hsave.append (hmov 0 datasetOffset)).append (fits_addReg trivial 22 0)).append hr).append
    ha).append (hmov 19 _)).append (hmov 20 _)).append (hmov 0 _)).append (fits_fmovDx trivial 0)).append
    (hmov 24 _)).append (hmov 25 _)).append (hmov 26 _)).append (hmov 27 _))).mono (by decide)

end RandomX
end MinerTim
