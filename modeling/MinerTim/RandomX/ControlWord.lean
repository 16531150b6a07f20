import MinerTim.Lib.Lockstep
import MinerTim.RandomX.VmSpec

/-!
# `RandomX.ControlWord` — a hash does not see all of the control word

Native code keeps the rounding mode where the interpreter keeps it, but not every bit of the control word: the
emitted `CFROUND` writes flush-to-zero and the mode and clears all other bits, `set_rounding_mode` leaves these as
they are. Two control words are alike when no arithmetic tells them apart, now or after any changes of the rounding
mode (`FpUnit.Alike`); two machine states are alike when only such control words differ.

The interpreter, the main loop and the program chains take alike states to alike states. So native code that
returns what the interpreter returns, up to alike states, gives the same hash (`hashOf_interpreted`), and contexts
that read the same dataset items do (`hashOf_congr`).
-/

namespace MinerTim
namespace RandomX

/-! ## Control words -/

section

variable {fp : FpUnit} {c c' c'' : BitVec 32}

/-- The arithmetic gives the same results under both control words. -/
structure FpUnit.SameResults (fp : FpUnit) (c c' : BitVec 32) : Prop where
  fadd : fp.fadd c' = fp.fadd c
  fsub : fp.fsub c' = fp.fsub c
  fmul : fp.fmul c' = fp.fmul c
  fdiv : fp.fdiv c' = fp.fdiv c
  fsqrt : fp.fsqrt c' = fp.fsqrt c
  ofI32 : fp.ofI32 c' = fp.ofI32 c

/-- It gives the same results after any changes of the rounding mode. -/
def FpUnit.Alike (fp : FpUnit) (c c' : BitVec 32) : Prop :=
  ∀ modes : List (BitVec 32),
    fp.SameResults (modes.foldl fp.setRoundingMode c) (modes.foldl fp.setRoundingMode c')

theorem FpUnit.Alike.refl (fp : FpUnit) (c : BitVec 32) : fp.Alike c c :=
  fun _ => ⟨rfl, rfl, rfl, rfl, rfl, rfl⟩

theorem FpUnit.Alike.trans (h : fp.Alike c c') (h' : fp.Alike c' c'') : fp.Alike c c'' := by
  intro modes
  obtain ⟨h₁, h₂, h₃, h₄, h₅, h₆⟩ := h modes
  obtain ⟨h₁', h₂', h₃', h₄', h₅', h₆'⟩ := h' modes
  exact ⟨h₁'.trans h₁, h₂'.trans h₂, h₃'.trans h₃, h₄'.trans h₄, h₅'.trans h₅, h₆'.trans h₆⟩

theorem FpUnit.Alike.results (h : fp.Alike c c') : fp.SameResults c c' := h []

theorem FpUnit.Alike.setRoundingMode (h : fp.Alike c c') (mode : BitVec 32) :
    fp.Alike (fp.setRoundingMode c mode) (fp.setRoundingMode c' mode) :=
  fun modes => h (mode :: modes)

end

/-! ## Machine states -/

/-- States that differ in alike control words only. -/
structure VmState.Alike (fp : FpUnit) (s s' : VmState) : Prop where
  nreg : s'.nreg = s.nreg
  scratchpad : s'.scratchpad = s.scratchpad
  ctl : fp.Alike s.ctl s'.ctl

namespace VmState

variable {fp : FpUnit} {s s' s'' : VmState}

theorem Alike.refl (fp : FpUnit) (s : VmState) : s.Alike fp s := ⟨rfl, rfl, .refl fp s.ctl⟩

theorem Alike.trans (h : s.Alike fp s') (h' : s'.Alike fp s'') : s.Alike fp s'' :=
  ⟨h'.nreg.trans h.nreg, h'.scratchpad.trans h.scratchpad, h.ctl.trans h'.ctl⟩

section

variable (h : s.Alike fp s')
include h

theorem Alike.rAt : s'.rAt = s.rAt := by
  funext i
  rw [VmState.rAt, VmState.rAt, h.nreg]

theorem Alike.fAt : s'.fAt = s.fAt := by
  funext i
  rw [VmState.fAt, VmState.fAt, h.nreg]

theorem Alike.eAt : s'.eAt = s.eAt := by
  funext i
  rw [VmState.eAt, VmState.eAt, h.nreg]

theorem Alike.aAt : s'.aAt = s.aAt := by
  funext i
  rw [VmState.aAt, VmState.aAt, h.nreg]

theorem Alike.srcVal (ibc : BytecodeInstruction) (o : Word) : RandomX.srcVal s' ibc o = RandomX.srcVal s ibc o := by
  rw [RandomX.srcVal, RandomX.srcVal, h.rAt]

theorem Alike.spPair (sp : Scratchpad) (off : Nat) :
    RandomX.spPair fp s'.ctl sp off = RandomX.spPair fp s.ctl sp off := by
  rw [RandomX.spPair, RandomX.spPair, h.ctl.results.ofI32]

theorem Alike.putR (i : Nat) (v : Word) : (s.putR i v).Alike fp (s'.putR i v) := by
  refine ⟨?_, h.scratchpad, h.ctl⟩
  rw [VmState.putR, VmState.putR, h.nreg]

theorem Alike.putF (i : Nat) (v : F128) : (s.putF i v).Alike fp (s'.putF i v) := by
  refine ⟨?_, h.scratchpad, h.ctl⟩
  rw [VmState.putF, VmState.putF, h.nreg]

theorem Alike.putE (i : Nat) (v : F128) : (s.putE i v).Alike fp (s'.putE i v) := by
  refine ⟨?_, h.scratchpad, h.ctl⟩
  rw [VmState.putE, VmState.putE, h.nreg]

theorem Alike.putSp (sp : Scratchpad) : (s.putSp sp).Alike fp (s'.putSp sp) := ⟨h.nreg, rfl, h.ctl⟩

theorem Alike.putCtl (mode : BitVec 32) :
    (s.putCtl (fp.setRoundingMode s.ctl mode)).Alike fp (s'.putCtl (fp.setRoundingMode s'.ctl mode)) :=
  ⟨h.nreg, h.scratchpad, h.ctl.setRoundingMode mode⟩

theorem Alike.mapR (f : Nat → Word → Word) : (s.mapR f).Alike fp (s'.mapR f) := by
  refine ⟨?_, h.scratchpad, h.ctl⟩
  rw [VmState.mapR, VmState.mapR, h.nreg, h.rAt]

theorem Alike.mapF (f : Nat → F128 → F128) : (s.mapF f).Alike fp (s'.mapF f) := by
  refine ⟨?_, h.scratchpad, h.ctl⟩
  rw [VmState.mapF, VmState.mapF, h.nreg, h.fAt]

theorem Alike.mapE (f : Nat → F128 → F128) : (s.mapE f).Alike fp (s'.mapE f) := by
  refine ⟨?_, h.scratchpad, h.ctl⟩
  rw [VmState.mapE, VmState.mapE, h.nreg, h.eAt]

end

end VmState

/-! ## The interpreter -/

section

variable {fp : FpUnit} {config : ProgramConfiguration} {version : RxVersion} {s s' : VmState}

/-- **One instruction** takes alike states to alike states. -/
theorem VmState.Alike.effect (h : s.Alike fp s') (ibc : BytecodeInstruction) :
    (RandomX.effect fp config version ibc s).Alike fp (RandomX.effect fp config version ibc s') := by
  obtain ⟨hadd, hsub, hmul, hdiv, hsqrt, -⟩ := h.ctl.results
  unfold RandomX.effect
  simp only [h.rAt, h.fAt, h.eAt, h.aAt, h.srcVal, h.spPair, h.scratchpad, hadd, hsub, hmul, hdiv, hsqrt]
  cases ibc.itype <;> dsimp only
  case IswapR => exact (h.putR _ _).putR _ _
  case FswapR =>
    split
    · exact h.putE _ _
    · exact h.putF _ _
  case FaddR | FaddM | FsubR | FsubM | FscalR => exact h.putF _ _
  case FmulR | FdivM | FsqrtR => exact h.putE _ _
  case Cfround =>
    split
    · exact h.putCtl _
    · exact h
  case Istore => exact h.putSp _
  case Nop => exact h
  all_goals exact h.putR _ _

theorem VmState.Alike.branchTarget (h : s.Alike fp s') (ibc : BytecodeInstruction) :
    RandomX.branchTarget ibc s' = RandomX.branchTarget ibc s := by
  rw [RandomX.branchTarget, RandomX.branchTarget, h.rAt]

/-- **The interpreter** runs in lockstep from alike states. -/
theorem VmState.Alike.executeFrom {bytecode : List BytecodeInstruction}
    (hwf : ∀ (i : Nat) (ibc : BytecodeInstruction), bytecode[i]? = some ibc → ibc.WellFormed i) (h : s.Alike fp s')
    (fuel : Nat) (pc : Int) :
    Option.Rel (VmState.Alike fp) (RandomX.executeFrom fp config version bytecode fuel pc s)
      (RandomX.executeFrom fp config version bytecode fuel pc s') := by
  induction fuel generalizing pc s s' with
  | zero =>
    unfold RandomX.executeFrom
    split
    · exact .none
    · exact .some h
  | succ fuel ih =>
    unfold RandomX.executeFrom
    split
    · cases hfetch : fetch bytecode pc with
      | none => exact .none
      | some ibc =>
        obtain ⟨i, hi⟩ : ∃ i : Nat, bytecode[i]? = some ibc := by
          unfold fetch at hfetch
          split at hfetch
          · exact ⟨_, hfetch⟩
          · cases hfetch
        simp only [Option.bind_eq_bind, Option.bind_some, executeInstruction_eq (hwf i ibc hi), h.branchTarget ibc]
        exact ih (h.effect ibc) _
    · exact .some h

variable {n : Nat} (programBytes : Vector Byte n)

theorem wellFormed_programOf (version : RxVersion) {i : Nat} {ibc : BytecodeInstruction}
    (h : (programOf version programBytes)[i]? = some ibc) : ibc.WellFormed i := by
  have hmax := version.programSize_le_max
  have hsize : RANDOMX_PROGRAM_SIZE_MAX = 384 := rfl
  obtain ⟨hi, rfl⟩ := List.getElem?_eq_some_iff.mp h
  unfold programOf at hi ⊢
  rw [List.length_map, List.length_range] at hi
  rw [List.getElem_map, List.getElem_range]
  exact bytecodeAt_wellFormed programBytes (by omega)

/-- A compiled program. -/
theorem VmState.Alike.executeBytecode (h : s.Alike fp s') :
    Option.Rel (VmState.Alike fp) (RandomX.executeBytecode fp config version (programOf version programBytes) s)
      (RandomX.executeBytecode fp config version (programOf version programBytes) s') :=
  h.executeFrom (fun _ _ => wellFormed_programOf programBytes version) _ _

/-! ## The main loop -/

variable {aes : AesRounds} {params : ProgramParams} {body body' : VmState → Option VmState}
  {line : Word → Option Line}

theorem VmState.Alike.loopHead (h : s.Alike fp s') (addr0 addr1 : Nat) :
    (RandomX.loopHead fp config addr0 addr1 s).Alike fp (RandomX.loopHead fp config addr0 addr1 s') := by
  unfold RandomX.loopHead
  simp only [h.spPair, h.scratchpad]
  exact ((h.mapR _).mapF _).mapE _

theorem VmState.Alike.combined (h : s.Alike fp s') :
    (RandomX.combined aes version s).Alike fp (RandomX.combined aes version s') := by
  cases version with
  | V1 =>
    unfold RandomX.combined
    simp only [h.eAt]
    exact h.mapF _
  | V2 =>
    refine ⟨?_, h.scratchpad, h.ctl⟩
    simp only [RandomX.combined, h.nreg]

theorem VmState.Alike.fWord (h : s.Alike fp s') : RandomX.fWord s' = RandomX.fWord s := by
  funext k
  rw [RandomX.fWord, RandomX.fWord, h.fAt]

/-- A store of words that both states have, to a scratchpad that both have. -/
theorem VmState.Alike.putStore (h : s.Alike fp s') {w w' : Nat → Word} (hw : w' = w) (addr : Nat) :
    (s.putSp (store s.scratchpad addr 64 (blockByte w))).Alike fp
      (s'.putSp (store s'.scratchpad addr 64 (blockByte w'))) := by
  rw [hw, h.scratchpad]
  exact h.putSp _

theorem VmState.Alike.loopTail (h : s.Alike fp s') (addr0 addr1 : Nat) (l : Line) :
    (RandomX.loopTail aes version addr0 addr1 l s).Alike fp (RandomX.loopTail aes version addr0 addr1 l s') := by
  have hmixed := h.mapR fun j v => v ^^^ l[j]?.getD 0
  have hstored := hmixed.putStore hmixed.rAt addr1
  refine VmState.Alike.putStore hstored.combined ?_ addr0
  exact hstored.combined.fWord

/-- **One iteration** runs in lockstep from alike states, when the bodies do. -/
theorem iteration_alike (hconfig : params.config.WellFormed)
    (hbody : ∀ s s', s.Alike fp s' → Option.Rel (VmState.Alike fp) (body s) (body' s')) (h : s.Alike fp s')
    (l : LoopState) :
    Option.Rel (fun c c' : VmState × LoopState => c.1.Alike fp c'.1 ∧ c.2 = c'.2)
      (iteration fp aes version params body line s l) (iteration fp aes version params body' line s' l) := by
  have hmix : spMix params.config s' = spMix params.config s := by
    rw [spMix, spMix, h.rAt]
  have h0 : spAddr0 params.config s' l = spAddr0 params.config s l := by
    rw [spAddr0, spAddr0, hmix]
  have h1 : spAddr1 params.config s' l = spAddr1 params.config s l := by
    rw [spAddr1, spAddr1, hmix]
  rw [iteration_eq_bind hconfig, iteration_eq_bind hconfig, h0, h1]
  refine Lockstep.bind (hbody _ _ (h.loopHead _ _)) fun s₁ s₁' h₁ => ?_
  refine Lockstep.map (Lockstep.refl (fun _ => rfl) _) fun dataLine dataLine' heq => ?_
  subst heq
  refine ⟨h₁.loopTail _ _ _, ?_⟩
  unfold nextLoopState
  rw [h₁.rAt]

/-- **The main loop**, by induction on the iterations. -/
theorem iterate_alike (hconfig : params.config.WellFormed)
    (hbody : ∀ s s', s.Alike fp s' → Option.Rel (VmState.Alike fp) (body s) (body' s')) (iterations : Nat)
    {c c' : VmState × LoopState} (h : c.1.Alike fp c'.1 ∧ c.2 = c'.2) :
    Option.Rel (fun c c' : VmState × LoopState => c.1.Alike fp c'.1 ∧ c.2 = c'.2)
      (iterate fp aes version params body line iterations c)
      (iterate fp aes version params body' line iterations c') := by
  induction iterations generalizing c c' with
  | zero => exact .some h
  | succ iterations ih =>
    rw [iterate, iterate, h.2]
    exact Lockstep.bind (iteration_alike hconfig hbody h.1 _) fun _ _ h' => ih h'

end

/-! ## Contexts that run no wrong code

Native code need not agree as a whole: the loop function matters only where the native loop applies. -/

section

variable {fp : FpUnit} {aes : AesRounds} {ctx : VmContext} {version : RxVersion}

/-- The body function does what the interpreter does, on every compiled program. -/
def NativeCode.BodyInterprets (native : NativeCode) (fp : FpUnit) : Prop :=
  ∀ (version : RxVersion) {n : Nat} (programBytes : Vector Byte n) (s : VmState),
    Option.Rel (VmState.Alike fp)
      (native.body (programOf version programBytes) version (deriveProgramParams programBytes).config s)
      (executeBytecode fp (deriveProgramParams programBytes).config version (programOf version programBytes) s)

/-- The loop function does what the main loop does, on every compiled program. -/
def NativeCode.LoopInterprets (native : NativeCode) (fp : FpUnit) (aes : AesRounds) : Prop :=
  ∀ {n : Nat} (programBytes : Vector Byte n) (ds : RandomXDataset) (iterations : Nat) (s : VmState),
    0 < iterations → iterations < 2 ^ 64 →
    Option.Rel (fun c c' : VmState × LoopState => c.1.Alike fp c'.1 ∧ c.2 = c'.2)
      (native.loop (programOf .V1 programBytes) (deriveProgramParams programBytes) ds iterations
        { s with nreg := initRegisters programBytes s.nreg })
      (iterate fp aes .V1 (deriveProgramParams programBytes)
        (executeBytecode fp (deriveProgramParams programBytes).config .V1 (programOf .V1 programBytes)) ds.getItem
        iterations ({ s with nreg := initRegisters programBytes s.nreg }, initLoopState programBytes))

/-- Native code, where there is any, does what the interpreter does. -/
def JitInterprets (p : Platform) (jit : Option NativeCode) : Prop :=
  ∀ native, jit = some native → native.BodyInterprets p.fp ∧ native.LoopInterprets p.fp p.aes

/-- The native code that a context calls does what the interpreter does. The loop function is called only where the
    native loop applies. -/
structure VmContext.Interprets (ctx : VmContext) (fp : FpUnit) (aes : AesRounds) (version : RxVersion) : Prop where
  body : ∀ native, ctx.jit = some native → native.BodyInterprets fp
  loop : nativeLoopApplies ctx.useNativeLoop version ctx.dataset.isSome ctx.jit.isSome = true →
    ∀ native, ctx.jit = some native → native.LoopInterprets fp aes

theorem JitInterprets.context {p : Platform} (h : JitInterprets p ctx.jit) : ctx.Interprets p.fp p.aes version :=
  ⟨fun native hjit => (h native hjit).1, fun _ native hjit => (h native hjit).2⟩

/-- The same context without native code. -/
def VmContext.interpreted (ctx : VmContext) : VmContext := { ctx with jit := none }

/-- **A context that calls no wrong code interprets its programs.** -/
theorem programRun_interpreted (h : ctx.Interprets fp aes version) {n : Nat} (programBytes : Vector Byte n)
    {iterations : Nat} (hpos : 0 < iterations) (hlt : iterations < 2 ^ 64) {s s' : VmState} (hs : s.Alike fp s') :
    Option.Rel (fun c c' : VmState × LoopState => c.1.Alike fp c'.1 ∧ c.2 = c'.2)
      (programRun fp aes ctx version programBytes iterations s)
      (programRun fp aes ctx.interpreted version programBytes iterations s') := by
  have hconfig := deriveProgramParams_wellFormed programBytes
  have hstart : VmState.Alike fp { s with nreg := initRegisters programBytes s.nreg }
      { s' with nreg := initRegisters programBytes s'.nreg } :=
    ⟨congrArg (initRegisters programBytes) hs.nreg, hs.scratchpad, hs.ctl⟩
  have hinterpreted : ∀ s s' : VmState, s.Alike fp s' →
      Option.Rel (VmState.Alike fp)
        (executeBytecode fp (deriveProgramParams programBytes).config version (programOf version programBytes) s)
        (executeBytecode fp (deriveProgramParams programBytes).config version (programOf version programBytes) s') :=
    fun s s' hs => hs.executeBytecode programBytes
  rw [programRun_eq_iterate programBytes (show ctx.interpreted.jit = none from rfl)]
  obtain ⟨cache, programs, dataset, jit, useNativeLoop⟩ := ctx
  unfold programRun VmContext.interpreted VmContext.line
  cases jit with
  | none =>
    cases dataset <;> exact iterate_alike hconfig hinterpreted iterations ⟨hstart, rfl⟩
  | some native =>
    -- a body function that interprets runs in lockstep too
    have hbody : ∀ s s' : VmState, s.Alike fp s' →
        Option.Rel (VmState.Alike fp)
          (native.body (programOf version programBytes) version (deriveProgramParams programBytes).config s)
          (executeBytecode fp (deriveProgramParams programBytes).config version (programOf version programBytes) s') :=
      fun s s' hs => Lockstep.trans (h.body native rfl version programBytes s) (hinterpreted s s' hs)
        fun _ _ _ h₁ h₂ => h₁.trans h₂
    cases dataset with
    | none => exact iterate_alike hconfig hbody iterations ⟨hstart, rfl⟩
    | some ds =>
      cases happ : nativeLoopApplies useNativeLoop version true true with
      | false =>
        simp only [Option.isSome, happ]
        exact iterate_alike hconfig hbody iterations ⟨hstart, rfl⟩
      | true =>
        -- the native loop applies to V1 only
        obtain rfl : version = .V1 := by
          cases version
          · rfl
          · simp [nativeLoopApplies] at happ
        simp only [Option.isSome, happ]
        refine Lockstep.trans (h.loop happ native rfl programBytes ds iterations s hpos hlt)
          (iterate_alike hconfig hinterpreted iterations ⟨hstart, rfl⟩) ?_
        rintro _ _ _ ⟨h₁, hl₁⟩ ⟨h₂, hl₂⟩
        exact ⟨h₁.trans h₂, hl₁.trans hl₂⟩

/-- **Chains of programs** run in lockstep. -/
theorem coreChains_interpreted {p : Platform} (h : ctx.Interprets p.fp p.aes version)
    (c : VmState × Vector Byte 64) :
    Option.Rel (fun c c' : VmState × Vector Byte 64 => c.1.Alike p.fp c'.1 ∧ c.2 = c'.2)
      (coreChains p ctx version c) (coreChains p ctx.interpreted version c) := by
  refine Lockstep.foldlM ?_ _ ⟨.refl p.fp _, rfl⟩
  rintro c c' chain ⟨hs, hhash⟩
  unfold coreChain
  rw [hhash]
  refine Lockstep.map (programRun_interpreted h _ (by decide) (by decide) hs) fun r r' hr => ?_
  rw [hr.1.nreg]
  exact ⟨hr.1, rfl⟩

/-- **Nor does the hash depend on the native code.** -/
theorem hashOf_interpreted {p : Platform} (h : ctx.Interprets p.fp p.aes version) (ctl : BitVec 32)
    (input : List Byte) : hashOf p ctx version ctl input = hashOf p ctx.interpreted version ctl input := by
  refine Lockstep.map_eq (coreChains_interpreted h _) fun c c' hc => ?_
  rw [finish, finish, hc.1.nreg, hc.1.scratchpad]

/-- A context under which every hash is computed without a panic: it calls no wrong code, and every dataset item
    exists. -/
def VmContext.Ready (ctx : VmContext) (fp : FpUnit) (aes : AesRounds) (version : RxVersion) : Prop :=
  ctx.Interprets fp aes version ∧ ∀ k, k.toNat < DATASET_ITEM_COUNT → ∃ l, ctx.line k = some l

/-- A ready context runs every chain to its end. -/
theorem exists_runChains {p : Platform} (h : ctx.Ready p.fp p.aes version) (c : ChainState version) :
    ∃ c', runChains p ctx c = some c' := by
  have hjit : ctx.interpreted.jit = none := rfl
  obtain ⟨r, hr⟩ : ∃ r, coreChains p ctx.interpreted version c.core = some r :=
    exists_foldlM_eq_some (fun chain _ c => exists_coreChain hjit h.2 c chain) _
  have hrel := coreChains_interpreted h.1 c.core
  rw [hr, ← runChains_core] at hrel
  cases hchains : runChains p ctx c with
  | some c' => exact ⟨c', rfl⟩
  | none =>
    rw [hchains] at hrel
    cases hrel

/-- A ready context hashes every input. -/
theorem exists_hashOf {p : Platform} (h : ctx.Ready p.fp p.aes version) (ctl : BitVec 32) (input : List Byte) :
    ∃ hash, hashOf p ctx version ctl input = some hash := by
  have hjit : ctx.interpreted.jit = none := rfl
  rw [hashOf_interpreted h.1]
  exact exists_hashOf_of_line hjit h.2 ctl input

/-- Two contexts under which every program does the same: they are the same one, or both call no wrong code and read
    the same dataset items. -/
def VmContext.Same (ctx ctx' : VmContext) (fp : FpUnit) (aes : AesRounds) (version : RxVersion) : Prop :=
  ctx = ctx' ∨ ctx.Interprets fp aes version ∧ ctx'.Interprets fp aes version ∧
    ∀ k, k.toNat < DATASET_ITEM_COUNT → ctx.line k = ctx'.line k

/-- **Such contexts give the same hash.** -/
theorem hashOf_congr {p : Platform} {ctx' : VmContext} (h : ctx.Same ctx' p.fp p.aes version) (ctl : BitVec 32)
    (input : List Byte) : hashOf p ctx version ctl input = hashOf p ctx' version ctl input := by
  rcases h with rfl | ⟨hctx, hctx', hline⟩
  · rfl
  · have hjit : ctx.interpreted.jit = none := rfl
    have hjit' : ctx'.interpreted.jit = none := rfl
    rw [hashOf_interpreted hctx, hashOf_interpreted hctx']
    exact hashOf_congr_of_line hjit hjit' hline ctl input

/-- A context without native code calls none that is wrong. -/
theorem VmContext.interprets_of_jit (h : ctx.jit = none) : ctx.Interprets fp aes version := by
  constructor
  · intro native hnative
    cases h.symm.trans hnative
  · intro _ native hnative
    cases h.symm.trans hnative

end

end RandomX
end MinerTim
