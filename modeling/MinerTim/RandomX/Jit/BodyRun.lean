import MinerTim.RandomX.Jit.Branches
import MinerTim.RandomX.Termination

/-!
# `RandomX.Jit.BodyRun` — the body code follows the interpreter

A lock-step simulation: when the interpreter executes instruction `i`, the machine runs the block of
instruction `i`, from its offset to that of the instruction the interpreter goes to (`traced_block`). A run of
the interpreter is then a run of the machine (`traced_run`), by induction on the run. Besides the simulation
relation, each step leaves every register outside the body's alone (`Kept`), and prefetches nothing.
-/

namespace MinerTim
namespace RandomX

open Arm64 Emitter BackEdges

/-! ## Registers that are left alone -/

/-- Only integer registers in `X` and floating-point registers in `D` differ. -/
structure Kept (X D : Nat → Prop) (t t' : State) : Prop where
  x : ∀ n, ¬ X n → t'.x n = t.x n
  sp : t'.sp = t.sp
  d : ∀ n, ¬ D n → t'.d n = t.d n

variable {X D : Nat → Prop} {fp : FpOps} {W : Word → Prop} {is : Code} {t t' t'' : State}

theorem Kept.refl (X D : Nat → Prop) (t : State) : Kept X D t t := ⟨fun _ _ => rfl, rfl, fun _ _ => rfl⟩

theorem Kept.trans (h : Kept X D t t') (h' : Kept X D t' t'') : Kept X D t t'' :=
  ⟨fun n hn => (h'.x n hn).trans (h.x n hn), h'.sp.trans h.sp, fun n hn => (h'.d n hn).trans (h.d n hn)⟩

/-- More registers. -/
theorem Kept.weaken {X' D' : Nat → Prop} (h : Kept X D t t') (hX : ∀ n, X n → X' n) (hD : ∀ n, D n → D' n) :
    Kept X' D' t t' :=
  ⟨fun n hn => h.x n fun hx => hn (hX n hx), h.sp, fun n hn => h.d n fun hd => hn (hD n hd)⟩

/-- A confined fragment. -/
theorem kept_of_straight (h : Straight fp W is t t') (hconf : ∀ i ∈ is, Confined X D i) (h31 : ¬ X 31) :
    Kept X D t t' where
  x n hn := h.x_eq fun i hi hx => hn ((hconf i hi).destX n hx)
  sp := h.sp_eq fun i hi hx => h31 ((hconf i hi).destX 31 hx)
  d n hn := h.d_eq fun i hi hd => hn ((hconf i hi).destD n hd)

/-- What the body leaves alone. -/
abbrev BodyKept : State → State → Prop := Kept IsBodyX IsBodyD

theorem not_isBodyX_31 : ¬ IsBodyX 31 := by
  unfold IsBodyX
  omega

/-! ## One instruction -/

section

variable {n : Nat} {programBytes : Vector Byte n} {count : Nat} {version : RxVersion} {before code : Code}
  {intended : Nat → Int → Prop} {config : ProgramConfiguration} {base : Word} {s : VmState}
  (hwf : ∀ i < count, (bytecodeAt programBytes i).WellFormed i)
  (hplaced : WellPlaced (bytecodeAt programBytes) count version before intended code)
include hwf hplaced

omit hwf in
/-- The word distance of an intended branch. -/
theorem distance_of_intended {p : Nat} {target : Int} {cond : BitVec 4} {imm19 : BitVec 19}
    (hcode : code[p]? = some (.bCond cond imm19))
    (hintended : Intended (bytecodeAt programBytes) count version before p target) :
    (p : Int) + imm19.toInt = target := by
  obtain ⟨i, hi, hlands⟩ := (hplaced.branches p target).mpr (.inl hintended)
  obtain rfl := Option.some.inj (hcode.symm.trans hi)
  exact (lands_bCond _ _ _ _).mp hlands

/-- **A `CBRANCH` goes where the interpreter goes.** -/
theorem traced_cbranch {i : Nat} (hi : i < count) (hb : (bytecodeAt programBytes i).itype = .Cbranch)
    (hsim : Sim config base s t) :
    ∃ t', Traced fp code (Pad base) (offsetOf (bytecodeAt programBytes) count version before i) t []
        (offsetOf (bytecodeAt programBytes) count version before
          (machine (fpUnit fp) config version programBytes i s).1) t' ∧
      Sim config base (machine (fpUnit fp) config version programBytes i s).2 t' ∧ BodyKept t t' := by
  obtain ⟨hdst, hlo, _, shift, hcond⟩ := (hwf i hi).cbranch hb
  obtain ⟨j, hj⟩ := Int.eq_ofNat_of_zero_le (show 0 ≤ (bytecodeAt programBytes i).target + 1 by omega)
  obtain ⟨t', htest, hsim', hz⟩ := @exists_emitCbranchTest fp _ _ _ _ (Pad base) _ hsim hdst _ hcond
  have hblock := hplaced.blocks i hi
  have hlen := offsetOf_succ (bytecodeAt programBytes) count version before i
  unfold blockAt emitInstruction at hblock hlen
  rw [hb] at hblock hlen
  dsimp only at hblock hlen
  rw [emitCbranch, List.length_append, bCond, List.length_singleton, ← Nat.add_assoc] at hlen
  have hbranch := Embeds.head hblock.right
  have hjump := distance_of_intended hplaced hbranch (.cbranch hi hb hj)
  have hsteps := ((htest.emits noPrefetch_emitCbranchTest).traced hblock.left).trans (traced_bCond hbranch hjump)
  have heffect : effect (fpUnit fp) config version (bytecodeAt programBytes i) s
      = s.putR (bytecodeAt programBytes i).dst
        (s.rAt (bytecodeAt programBytes i).dst + (bytecodeAt programBytes i).imm) := by
    unfold effect
    rw [hb]
  refine ⟨t', ?_, ?_, kept_of_straight htest (fits_emitCbranchTest hdst).confined not_isBodyX_31⟩
  · -- the flag is the condition that the interpreter tests
    have hcondHolds : condHolds 0 t'.flags = t'.flags.z := rfl
    rw [hcondHolds, hz] at hsteps
    rw [machine, branchTarget]
    by_cases h : (s.rAt (bytecodeAt programBytes i).dst + (bytecodeAt programBytes i).imm)
        &&& (bytecodeAt programBytes i).memMask.setWidth 64 = 0
    · rw [if_pos (by rw [h]; rfl)] at hsteps
      rw [if_pos ⟨hb, h⟩, Option.getD_some, hj]
      exact hsteps
    · rw [if_neg (by simpa using h)] at hsteps
      rw [if_neg (fun h' => h h'.2), Option.getD_none]
      dsimp only
      rw [show ((i : Int) + 1).toNat = i + 1 by omega, hlen]
      exact hsteps
  · rw [machine, heffect]
    exact hsim'

/-- **A V2 `CFROUND`** skips the mode update when its guard says so. -/
theorem traced_cfround {i : Nat} (hi : i < count) (hc : (bytecodeAt programBytes i).itype = .Cfround)
    (hv : version = .V2) (hsim : Sim config base s t) :
    ∃ t', Traced fp code (Pad base) (offsetOf (bytecodeAt programBytes) count version before i) t []
        (offsetOf (bytecodeAt programBytes) count version before
          (machine (fpUnit fp) config version programBytes i s).1) t' ∧
      Sim config base (machine (fpUnit fp) config version programBytes i s).2 t' ∧ BodyKept t t' := by
  subst hv
  obtain ⟨hsrc, himm⟩ := (hwf i hi).cfround hc
  obtain ⟨t₁, hguard, hsim₁, hx0, hz⟩ := @straight_guard fp _ _ _ _ (Pad base) _ hsim hsrc himm
  have hkept₁ := kept_of_straight hguard fits_emitGuard.confined not_isBodyX_31
  have hblock := hplaced.blocks i hi
  have hlen := offsetOf_succ (bytecodeAt programBytes) count .V2 before i
  unfold blockAt emitInstruction at hblock hlen
  rw [hc] at hblock hlen
  dsimp only at hblock hlen
  rw [emitCfround_V2] at hblock hlen
  rw [List.length_append, List.length_cons, ← Nat.add_assoc] at hlen
  have hbranch := Embeds.head hblock.right
  have hjump := distance_of_intended hplaced hbranch (.cfround hi hc rfl)
  have hsteps := ((hguard.emits noPrefetch_emitGuard).traced hblock.left).trans (traced_bCond hbranch hjump)
  have hpc : (machine (fpUnit fp) config .V2 programBytes i s).1 = i + 1 :=
    machine_fst_of_none _ _ _ _ (if_neg fun h => by rw [hc] at h; cases h.1)
  have hcondHolds : condHolds 1 t₁.flags = !t₁.flags.z := rfl
  rw [hpc]
  rw [hcondHolds, hz] at hsteps
  have heffect : (machine (fpUnit fp) config .V2 programBytes i s).2
      = if (s.rAt (bytecodeAt programBytes i).src).rotateRight (bytecodeAt programBytes i).imm.toNat
          &&& 60 = 0 then
        s.putCtl (setRoundingModeAarch64 s.ctl (((s.rAt (bytecodeAt programBytes i).src).rotateRight
          (bytecodeAt programBytes i).imm.toNat &&& 3).setWidth 32)) else s := by
    rw [machine, effect, hc]
    simp [fpUnit]
  rw [heffect]
  by_cases h : (s.rAt (bytecodeAt programBytes i).src).rotateRight (bytecodeAt programBytes i).imm.toNat
      &&& 60 = 0
  · -- the mode is updated
    rw [if_neg (by simpa using h)] at hsteps
    rw [if_pos h]
    obtain ⟨t', hmode, hsim'⟩ := @exists_emitSetMode fp _ _ _ _ (Pad base) hsim₁
    rw [hx0] at hsim'
    refine ⟨t', ?_, hsim', hkept₁.trans (kept_of_straight hmode fits_emitSetMode.confined not_isBodyX_31)⟩
    have hrest := (hmode.emits noPrefetch_emitSetMode).traced (@Embeds.right [_] emitSetMode code _ hblock.right)
    rw [hlen, Nat.add_comm emitSetMode.length, ← Nat.add_assoc]
    exact hsteps.trans hrest
  · -- the branch skips the mode setter
    rw [if_pos (by simpa using h)] at hsteps
    rw [if_neg h]
    exact ⟨t₁, hsteps, hsim₁, hkept₁⟩

/-- **One instruction.** -/
theorem traced_block {i : Nat} (hi : i < count) (hsim : Sim config base s t) :
    ∃ t', Traced fp code (Pad base) (offsetOf (bytecodeAt programBytes) count version before i) t []
        (offsetOf (bytecodeAt programBytes) count version before
          (machine (fpUnit fp) config version programBytes i s).1) t' ∧
      Sim config base (machine (fpUnit fp) config version programBytes i s).2 t' ∧ BodyKept t t' := by
  by_cases hb : (bytecodeAt programBytes i).itype = .Cbranch
  · exact traced_cbranch hwf hplaced hi hb hsim
  · by_cases hc : (bytecodeAt programBytes i).itype = .Cfround ∧ version = .V2
    · exact traced_cfround hwf hplaced hi hc.1 hc.2 hsim
    · have hv1 : (bytecodeAt programBytes i).itype = .Cfround → version = .V1 := by
        intro h
        cases version with
        | V1 => rfl
        | V2 => exact absurd ⟨h, rfl⟩ hc
      obtain ⟨t', hcode, hsim'⟩ := @simulates_emitInstruction fp _ _ _ _ _ _ (hwf i hi) hb hv1
        (offsetOf (bytecodeAt programBytes) count version before i)
        (offsetsAt (bytecodeAt programBytes) count version before i) count t hsim
      have hpc : (machine (fpUnit fp) config version programBytes i s).1 = i + 1 :=
        machine_fst_of_none _ _ _ _ (if_neg fun h => hb h.1)
      refine ⟨t', ?_, hsim', kept_of_straight hcode (confined_emitInstruction (hwf i hi) _ _ _) not_isBodyX_31⟩
      rw [hpc, offsetOf_succ]
      exact (hcode.emits (noPrefetch_emitInstruction _ _ _ _ _)).traced (hplaced.blocks i hi)

/-- **A run of the interpreter is a run of the machine.** -/
theorem traced_run {tr : List Nat} {c c' : Nat × VmState}
    (hrun : Run (machine (fpUnit fp) config version programBytes) tr c c') (hlt : ∀ k ∈ tr, k < count)
    (hsim : Sim config base c.2 t) :
    ∃ t', Traced fp code (Pad base) (offsetOf (bytecodeAt programBytes) count version before c.1) t []
        (offsetOf (bytecodeAt programBytes) count version before c'.1) t' ∧
      Sim config base c'.2 t' ∧ BodyKept t t' := by
  induction hrun generalizing t with
  | refl => exact ⟨t, .refl, hsim, .refl _ _ _⟩
  | @head k s c tr _ ih =>
    obtain ⟨t₁, hsteps, hsim₁, hkept⟩ :=
      @traced_block fp _ _ _ _ _ _ _ _ _ _ _ hwf hplaced _ (hlt k List.mem_cons_self) hsim
    obtain ⟨t', hsteps', hsim', hkept'⟩ := ih (fun j hj => hlt j (List.mem_cons_of_mem k hj)) hsim₁
    exact ⟨t', hsteps.trans hsteps', hsim', hkept.trans hkept'⟩

end

end RandomX
end MinerTim
