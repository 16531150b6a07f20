import MinerTim.RandomX.Jit.LoopCall

/-!
# `RandomX.Jit.Residency` — what the emitted functions leave alone

Both functions give the callee-saved registers back and store only where they may; that is part of
`RandomX.Jit.BodyCall` and `RandomX.Jit.LoopCall`. In between they keep values in registers that nothing reloads.
Which registers an instruction writes is read off the code (`Confined`), so it holds on every path, taken or not:
`Confines` says it of a stretch of code, `exists_body` of what `emit_body` emits, and `confines_loop` of the whole
loop. What the prologue loads is therefore still there whatever the loop has done (`Resident.kept`).
-/

namespace MinerTim
namespace RandomX

open Arm64 Emitter

variable {fp : FpOps} {code pre is post : Code} {X D : Nat → Prop} {lo hi pc pc' : Nat} {t t' : State} {i : Inst}

/-! ## Paths through confined code -/

/-- **A stretch of code that writes these registers only**, and so does every path through it. -/
structure Confines (fp : FpOps) (code : Code) (X D : Nat → Prop) (lo hi : Nat) : Prop where
  writes : ∀ p i, lo ≤ p → p < hi → code[p]? = some i → Confined X D i
  keeps : ∀ pc t pc' t', Inside fp code lo hi pc t pc' t' → Kept X D t t'

/-- A step of a confined instruction. -/
theorem kept_of_step (h : Confined X D i) (h31 : ¬ X 31) (hi : code[pc]? = some i)
    (hstep : step fp code pc t = .running pc' t') : Kept X D t t' := by
  rcases step_running hi hstep with rfl | rfl
  · exact ⟨fun n hn => x_exec fun hx => hn (h.destX n hx), sp_exec fun hx => h31 (h.destX 31 hx),
      fun n hn => d_exec fun hd => hn (h.destD n hd)⟩
  · exact .refl _ _ _

/-- A path of steps of confined instructions. -/
theorem kept_of_inside (hwrites : ∀ p i, lo ≤ p → p < hi → code[p]? = some i → Confined X D i) (h31 : ¬ X 31)
    (h : Inside fp code lo hi pc t pc' t') : Kept X D t t' := by
  induction h with
  | refl => exact .refl _ _ _
  | head hlo hhi hi hstep _ ih => exact (kept_of_step (hwrites _ _ hlo hhi hi) h31 hi hstep).trans ih

/-- **A fragment of confined instructions**, inside a program. -/
theorem confines_fragment (fp : FpOps) (hcode : code = pre ++ is ++ post) (hconf : ∀ i ∈ is, Confined X D i)
    (h31 : ¬ X 31) : Confines fp code X D pre.length (pre.length + is.length) := by
  have hwrites : ∀ p i, pre.length ≤ p → p < pre.length + is.length → code[p]? = some i → Confined X D i := by
    intro p i hlo hhi hp
    obtain ⟨k, rfl⟩ := Nat.exists_eq_add_of_le hlo
    rw [hcode, List.append_assoc, List.getElem?_append_right (by omega), Nat.add_sub_cancel_left,
      List.getElem?_append_left (by omega)] at hp
    exact hconf i (List.mem_of_getElem? hp)
  exact ⟨hwrites, fun _ _ _ _ h => kept_of_inside hwrites h31 h⟩

/-! ## The body -/

/-- **What `emit_body` emits** writes the registers of the body only. -/
theorem exists_body {prog : Nat → BytecodeInstruction} {count : Nat} (hwf : ∀ i < count, (prog i).WellFormed i)
    (version : RxVersion) (before : Code) {k : Nat} (hk : k ≤ count) :
    ∃ body, (emittedAt prog count version before k).2 = before ++ body ∧ ∀ i ∈ body, Confined IsBodyX IsBodyD i := by
  induction k with
  | zero => exact ⟨[], (List.append_nil _).symm, fun _ h => absurd h List.not_mem_nil⟩
  | succ k ih =>
    obtain ⟨body, hbody, hconf⟩ := ih (by omega)
    refine ⟨body ++ blockAt prog count version before k, ?_, ?_⟩
    · rw [emittedAt_succ, ← List.append_assoc, ← hbody]
    · intro i hi
      rcases List.mem_append.mp hi with hi | hi
      · exact hconf i hi
      · exact confined_emitInstruction (hwf k (by omega)) _ _ _ i hi

/-! ## The loop -/

theorem not_isTurnX_31 : ¬ IsTurnX 31 := by
  unfold IsTurnX IsLoopX IsBodyX
  omega

/-- The registers that the loop reads and never writes. -/
theorem Resident.kept {config : ProgramConfiguration} {base : Word} {a : Vector F128 4}
    (h : Resident config base a t) (hkept : Kept IsTurnX IsBodyD t t') : Resident config base a t' := by
  have hx : ∀ n, n = 16 ∨ n = 19 ∨ n = 20 → t'.x n = t.x n := fun n hn => hkept.x n (by
    unfold IsTurnX IsLoopX IsBodyX
    omega)
  have hd : ∀ n, 16 ≤ n → n ≤ 24 → t'.d n = t.d n := fun n hlo hhi => hkept.d n (by
    unfold IsBodyD
    omega)
  refine ⟨(hx 16 (by decide)).trans h.base, (hx 19 (by decide)).trans h.mask0, (hx 20 (by decide)).trans h.mask1,
    (hd 24 (by decide) (by decide)).trans h.fscal, fun i hi => ?_⟩
  simp only [aRegs]
  rw [hd _ (by omega) (by omega), hd _ (by omega) (by omega)]
  exact h.a i hi

section

variable {m : Nat} (programBytes : Vector Byte m)

/-- The code of a loop function, cut at the body and at the loop. -/
theorem exists_loopCodeOf : ∃ body,
    emitBody (loopBeforeOf programBytes) (programOf .V1 programBytes) .V1 = some (loopBeforeOf programBytes ++ body) ∧
    loopCodeOf programBytes = loopBeforeOf programBytes ++ body ++ (loopAfterOf programBytes ++ emitLoopEpilogue) ∧
    ∀ i ∈ body, Confined IsBodyX IsBodyD i := by
  obtain ⟨body, hbody, hconf⟩ :=
    exists_body (wellFormed_compiled programBytes .V1) .V1 (loopBeforeOf programBytes) le_rfl
  refine ⟨body, ?_, ?_, hconf⟩
  · rw [programOf, emitBody_eq _ _ _ _ RxVersion.V1.programSize_le_max, hbody]
  · rw [loopCodeOf, loopCode, loopBody, hbody, List.append_assoc]

/-- A fragment of the loop is confined to the registers of a turn. -/
theorem Fits.turn {n : Nat} (h : FitsLoop is n) : ∀ i ∈ is, Confined IsTurnX IsBodyD i :=
  (h.weaken (fun _ => .inl) fun _ => id).confined

theorem confined_loopAfterOf : ∀ i ∈ loopAfterOf programBytes, Confined IsTurnX IsBodyD i := by
  have h28 : IsTurnX 28 := .inr rfl
  have hcount : Confined IsTurnX IsBodyD (.subsImm 28 28 1) := by
    refine ⟨fun n hn => ?_, fun n hn => absurd hn List.not_mem_nil⟩
    rw [List.mem_singleton.mp (nonZero_subset _ hn)]
    exact h28
  intro i hi
  rw [loopAfterOf, loopAfter, List.append_assoc, List.mem_append, List.mem_append] at hi
  rcases hi with hi | hi | hi
  · exact Fits.turn (fits_emitIterationPost _) i hi
  · rw [List.mem_singleton.mp hi]
    exact hcount
  · rw [List.mem_singleton.mp hi]
    exact ⟨fun n hn => absurd hn List.not_mem_nil, fun n hn => absurd hn List.not_mem_nil⟩

/-- **The loop**, from the guard to its end, writes the registers of a turn only. -/
theorem confines_loop (fp : FpOps) :
    Confines fp (loopCodeOf programBytes) IsTurnX IsBodyD (guardAt programBytes) (endAt programBytes) := by
  obtain ⟨body, -, hcode, hbody⟩ := exists_loopCodeOf programBytes
  -- the loop is what stands between the prologue and the epilogue, the guard included
  let guard : Inst := .cbz 28 (BitVec.ofNat 19 (loopSkip (bytecodeAt programBytes) RxVersion.V1.programSize
    (deriveProgramParams programBytes).config (deriveProgramParams programBytes).ma
    (deriveProgramParams programBytes).mx (deriveProgramParams programBytes).datasetOffset))
  let loop : Code := [guard] ++ emitIterationPre (deriveProgramParams programBytes).config ++ body
    ++ loopAfterOf programBytes
  have hsplit : loopCodeOf programBytes = loopPrologueOf programBytes ++ loop ++ emitLoopEpilogue := by
    rw [hcode, loopBeforeOf, loopBefore]
    simp only [loop, List.append_assoc]
    rfl
  have hlen : (loopPrologueOf programBytes).length + loop.length = endAt programBytes := by
    have htotal : (loopCodeOf programBytes).length = endAt programBytes + emitLoopEpilogue.length := by
      rw [loopCodeOf, loopCode, List.length_append, length_loopBody]
    rw [hsplit, List.length_append, List.length_append] at htotal
    omega
  have hconf : ∀ i ∈ loop, Confined IsTurnX IsBodyD i := by
    intro i hi
    rcases List.mem_append.mp hi with hi | hi
    · rcases List.mem_append.mp hi with hi | hi
      · rcases List.mem_append.mp hi with hi | hi
        · rw [List.mem_singleton.mp hi]
          exact ⟨fun n hn => absurd hn List.not_mem_nil, fun n hn => absurd hn List.not_mem_nil⟩
        · exact Fits.turn (fits_emitIterationPre _) i hi
      · exact ⟨fun n hn => .inl (.inl ((hbody i hi).destX n hn)), (hbody i hi).destD⟩
    · exact confined_loopAfterOf programBytes i hi
  rw [← hlen]
  exact confines_fragment fp hsplit hconf not_isTurnX_31

/-- The code of a body function, cut at the body. -/
theorem exists_bodyCodeOf (version : RxVersion) : ∃ body,
    emitBody emitPrologue (programOf version programBytes) version = some (emitPrologue ++ body) ∧
    bodyCodeOf programBytes version = emitPrologue ++ body ++ emitEpilogue ∧
    ∀ i ∈ body, Confined IsBodyX IsBodyD i := by
  obtain ⟨body, hbody, hconf⟩ := exists_body (wellFormed_compiled programBytes version) version emitPrologue le_rfl
  refine ⟨body, ?_, ?_, hconf⟩
  · rw [programOf, emitBody_eq _ _ _ _ version.programSize_le_max, hbody]
  · rw [bodyCodeOf, bodyCode, hbody]

/-- **The emitted functions keep to the calling convention, and the body to its registers**, for every program.
    A body function and a loop function give the callee-saved registers back and store only where they may. On every
    path through what `emit_body` emits, only `x0 … x3`, `x8 … x15`, `d0 … d15`, `d25` and `d26` are written; on
    every path through the loop, only these, the loop state and the counter: after any number of turns the
    scratchpad, the e-masks, the `FSCAL_R` mask, the `a` registers and the pointers are what the prologue loaded. -/
theorem jit_functions_keep_registers (fp : FpOps) (buf : BytecodeBuffer) (jit : JitCompiler) :
    (∀ version : RxVersion, ∃ code body,
      (jit.compile (compiled programBytes buf version.programSize) version).bind JitCompiler.getFn = some code ∧
      emitBody emitPrologue (compiled programBytes buf version.programSize) version = some (emitPrologue ++ body) ∧
      code = emitPrologue ++ body ++ emitEpilogue ∧
      Confines fp code IsBodyX IsBodyD emitPrologue.length (emitPrologue.length + body.length) ∧
      ∀ (config : ProgramConfiguration) (s : VmState) (t : State), BodyCall config s t →
        ∃ t', Returns fp code (BodyWrites t) 0 t t' ∧ CalleeSaved t t') ∧
    ∃ code before body after,
      (jit.compileNativeLoop (compiled programBytes buf RxVersion.V1.programSize) .V1
          (deriveProgramParams programBytes).config (deriveProgramParams programBytes).ma
          (deriveProgramParams programBytes).mx (deriveProgramParams programBytes).datasetOffset).bind
        JitCompiler.getLoopFn = some code ∧
      emitBody before (compiled programBytes buf RxVersion.V1.programSize) .V1 = some (before ++ body) ∧
      code = before ++ body ++ after ∧
      Confines fp code IsBodyX IsBodyD before.length (before.length + body.length) ∧
      Confines fp code IsTurnX IsBodyD (guardAt programBytes) (endAt programBytes) ∧
      ∀ (ds : RandomXDataset) (iterations : Nat) (s : VmState) (t : State), LoopCall ds iterations s t →
        (∃ t', Returns fp code (LoopWrites t) 0 t t' ∧ CalleeSaved t t') ∧
        ∃ t₁, Steps fp code (LoopWrites t) 0 t (guardAt programBytes) t₁ ∧
          ∀ pc t₂, Inside fp code (guardAt programBytes) (endAt programBytes) (guardAt programBytes) t₁ pc t₂ →
            Resident (deriveProgramParams programBytes).config (t.x 1) s.nreg.a t₂ ∧ t₂.x 21 = t.x 0 ∧
            t₂.x 22 = t.x 2 + (deriveProgramParams programBytes).datasetOffset ∧ t₂.x 23 = t.x 4 := by
  refine ⟨fun version => ?_, ?_⟩
  · obtain ⟨body, hemit, hcode, hconf⟩ := exists_bodyCodeOf programBytes version
    obtain ⟨hcompile, hplaced⟩ := wellPlaced_compile programBytes buf jit version
    rw [programOf, ← compiled_eq programBytes buf version.programSize_le_max] at hemit
    refine ⟨_, body, ?_, hemit, hcode, confines_fragment fp hcode hconf not_isBodyX_31, fun config s t h => ?_⟩
    · rw [hcompile]
      rfl
    · obtain ⟨_, t', -, hreturns, hend⟩ := exists_bodyReturns fp buf hplaced h
      exact ⟨t', hreturns, hend.saved⟩
  · obtain ⟨body, hemit, hcode, hconf⟩ := exists_loopCodeOf programBytes
    rw [programOf, ← compiled_eq programBytes buf RxVersion.V1.programSize_le_max] at hemit
    have hloop := confines_loop programBytes fp
    refine ⟨_, _, body, _, compileNativeLoop_loopCodeOf programBytes buf jit, hemit, hcode,
      confines_fragment fp hcode hconf not_isBodyX_31, hloop, fun ds iterations s t h => ⟨?_, ?_⟩⟩
    · obtain ⟨c, log, pc, t', -, hrun, hret, hend⟩ := @exists_loopReturns _ programBytes _ _ fp softRounds buf _ _ h
      exact ⟨t', hrun.steps.returned hret, hend.saved⟩
    · obtain ⟨t₁, hrun, hsim, hl, -, hx21, hx23, -⟩ := @exists_loopStart _ programBytes _ _ fp _ _ h
      refine ⟨t₁, hrun.steps.mono fun a ha => .inl (.inr (.inr ha)), fun pc t₂ hinside => ?_⟩
      -- a path inside the loop keeps what is not of a turn, and so all that the prologue loaded
      have hkept := hloop.keeps _ _ _ _ hinside
      have hx : ∀ n, n = 21 ∨ n = 22 ∨ n = 23 → t₂.x n = t₁.x n := fun n hn => hkept.x n (by
        unfold IsTurnX IsLoopX IsBodyX
        omega)
      exact ⟨hsim.resident.kept hkept, (hx 21 (by decide)).trans hx21, (hx 22 (by decide)).trans hl.dataset,
        (hx 23 (by decide)).trans hx23⟩

end

/-- `storeAndBranch`, as a body and as a loop of three turns. -/
theorem jit_functions_keep_registers_sample :
    let programBytes := storeAndBranch .V1
    let params := deriveProgramParams programBytes
    let bytecode := compiled programBytes (Vector.replicate _ BytecodeInstruction.new) RxVersion.V1.programSize
    let t := sampleBodyCall
    let t' := callState sampleState (blockByte (datasetWord sampleDataset)) 3
    (∃ code t₁, (JitCompiler.new.compile bytecode .V1).bind JitCompiler.getFn = some code ∧
      Returns sampleFpOps code (BodyWrites t) 0 t t₁ ∧ CalleeSaved t t₁) ∧
    ∃ code t₁,
      (JitCompiler.new.compileNativeLoop bytecode .V1 params.config params.ma params.mx params.datasetOffset).bind
        JitCompiler.getLoopFn = some code ∧
      Returns sampleFpOps code (LoopWrites t') 0 t' t₁ ∧ CalleeSaved t' t₁ := by
  intro programBytes params bytecode t t'
  obtain ⟨hbody, code', _, _, _, hcode', -, -, -, -, hloop⟩ :=
    jit_functions_keep_registers programBytes sampleFpOps (Vector.replicate _ BytecodeInstruction.new) JitCompiler.new
  obtain ⟨code, _, hcode, -, -, -, hcalls⟩ := hbody .V1
  obtain ⟨t₁, hreturns, hsaved⟩ := hcalls sampleConfig sampleState t (bodyCall_callState sampleConfig sampleState)
  obtain ⟨⟨t₂, hreturns', hsaved'⟩, -⟩ :=
    hloop sampleDataset 3 sampleState t' (loopCall_callState sampleDataset (by decide) sampleState)
  exact ⟨⟨code, t₁, hcode, hreturns, hsaved⟩, code', t₂, hcode', hreturns', hsaved'⟩

end RandomX
end MinerTim
