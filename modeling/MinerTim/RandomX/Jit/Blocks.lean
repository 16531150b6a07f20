import MinerTim.RandomX.Jit.Layout

/-!
# `RandomX.Jit.Blocks` — the emitted programs, block by block

The body is one block for each instruction. `emittedAt` is the loop of `emit_body` with its table of offsets:
the length of the code before an instruction is its offset (`offsetOf`), the table records the offsets so far
(`getElem?_offsetsAt`), and the look-up of a `CBRANCH` reads one of them (`cbranchTarget_eq`).

`bodyCode` and `loopCode` are the whole programs (`compile_eq`, `compileNativeLoop_eq`). Patching the guard of
the native loop changes one word before the body, and nothing else (`emittedAt_congr`).
-/

namespace MinerTim
namespace RandomX

open Arm64 Emitter

/-! ## The body -/

section

variable (prog : Nat → BytecodeInstruction) (count : Nat) (version : RxVersion) (e : Code)

/-- The table of offsets and the code before instruction `i`, in the loop of `emit_body`. -/
def emittedAt : Nat → Offsets × Code
  | 0 => (Vector.replicate _ 0, e)
  | i + 1 =>
    let (offsets, e) := emittedAt i
    let offsets := offsets.setIfInBounds i e.length
    (offsets, e ++ emitInstruction e.length (prog i) offsets count version)

/-- The word offset of instruction `i`. -/
def offsetOf (i : Nat) : Nat := (emittedAt prog count version e i).2.length

/-- The table of offsets that instruction `i` reads. -/
def offsetsAt (i : Nat) : Offsets :=
  (emittedAt prog count version e i).1.setIfInBounds i (offsetOf prog count version e i)

/-- The code of instruction `i`. -/
def blockAt (i : Nat) : Code :=
  emitInstruction (offsetOf prog count version e i) (prog i) (offsetsAt prog count version e i) count
    version

theorem emittedAt_succ (i : Nat) : emittedAt prog count version e (i + 1)
    = (offsetsAt prog count version e i,
      (emittedAt prog count version e i).2 ++ blockAt prog count version e i) := rfl

/-- The loop, from instruction `i`. -/
theorem emitBodyFrom_eq (k i : Nat) :
    emitBodyFrom count version ((List.range' i k).map prog) i (emittedAt prog count version e i).1
      (emittedAt prog count version e i).2 = (emittedAt prog count version e (i + k)).2 := by
  induction k generalizing i with
  | zero => rfl
  | succ k ih =>
    rw [show i + (k + 1) = i + 1 + k by omega, ← ih (i + 1), emittedAt_succ]
    rfl

/-- **`emit_body` emits the blocks one after the other.** -/
theorem emitBody_eq (hcount : count ≤ RANDOMX_PROGRAM_SIZE_MAX) :
    emitBody e ((List.range count).map prog) version = some (emittedAt prog count version e count).2 := by
  have hrun := emitBodyFrom_eq prog count version e count 0
  have hlen : ((List.range count).map prog).length = count := by simp
  rw [← List.range_eq_range', Nat.zero_add] at hrun
  unfold emitBody
  rw [hlen, if_pos hcount]
  exact congrArg some hrun

theorem offsetOf_zero : offsetOf prog count version e 0 = e.length := rfl

theorem offsetOf_succ (i : Nat) : offsetOf prog count version e (i + 1)
    = offsetOf prog count version e i + (blockAt prog count version e i).length := by
  rw [offsetOf, emittedAt_succ, List.length_append]
  rfl

theorem offsetOf_mono {i j : Nat} (h : i ≤ j) :
    offsetOf prog count version e i ≤ offsetOf prog count version e j := by
  induction j, h using Nat.le_induction with
  | base => exact le_rfl
  | succ j _ ih =>
    rw [offsetOf_succ]
    omega

/-- **The table records the offset of every instruction so far.** -/
theorem getElem?_offsetsAt {i j : Nat} (hij : j ≤ i) (hi : i < RANDOMX_PROGRAM_SIZE_MAX) :
    (offsetsAt prog count version e i)[j]? = some (offsetOf prog count version e j) := by
  induction i with
  | zero =>
    obtain rfl : j = 0 := by omega
    rw [offsetsAt, Vector.getElem?_setIfInBounds, if_pos rfl, if_pos hi]
  | succ i ih =>
    rw [offsetsAt, Vector.getElem?_setIfInBounds]
    by_cases hj : i + 1 = j
    · rw [if_pos hj, if_pos hi, ← hj]
    · rw [if_neg hj, emittedAt_succ]
      exact ih (by omega) (by omega)

/-- The code so far stays at the front. -/
theorem exists_emittedAt_append {i j : Nat} (h : i ≤ j) : ∃ post,
    (emittedAt prog count version e j).2 = (emittedAt prog count version e i).2 ++ post := by
  induction j, h using Nat.le_induction with
  | base => exact ⟨[], by simp⟩
  | succ j _ ih =>
    obtain ⟨post, hpost⟩ := ih
    exact ⟨post ++ blockAt prog count version e j, by rw [emittedAt_succ, hpost, List.append_assoc]⟩

/-- **Each block stands at its offset.** -/
theorem embeds_blockAt {i : Nat} (h : i < count) (post : Code) :
    Embeds ((emittedAt prog count version e count).2 ++ post) (offsetOf prog count version e i)
      (blockAt prog count version e i) := by
  obtain ⟨rest, hrest⟩ := exists_emittedAt_append prog count version e (show i + 1 ≤ count by omega)
  rw [hrest, emittedAt_succ]
  dsimp only
  rw [List.append_assoc]
  exact embeds_append _ _ _

/-- The code before the body stays in place. -/
theorem embeds_before (post : Code) : Embeds ((emittedAt prog count version e count).2 ++ post) 0 e := by
  obtain ⟨rest, hrest⟩ := exists_emittedAt_append prog count version e (Nat.zero_le count)
  rw [hrest, List.append_assoc]
  exact embeds_append [] e _

/-- The blocks do not depend on what stands before the body, only on how long it is. -/
theorem emittedAt_congr {e' : Code} (he : e'.length = e.length) (i : Nat) : ∃ rest,
    emittedAt prog count version e i = ((emittedAt prog count version e i).1, e ++ rest) ∧
      emittedAt prog count version e' i = ((emittedAt prog count version e i).1, e' ++ rest) := by
  induction i with
  | zero => exact ⟨[], by simp [emittedAt], by simp [emittedAt]⟩
  | succ i ih =>
    obtain ⟨rest, hrest, hrest'⟩ := ih
    generalize hoffsets : (emittedAt prog count version e i).1 = offsets at hrest hrest'
    have hlen : (e' ++ rest).length = (e ++ rest).length := by
      rw [List.length_append, List.length_append, he]
    refine ⟨rest ++ emitInstruction (e ++ rest).length (prog i)
      (offsets.setIfInBounds i (e ++ rest).length) count version, ?_, ?_⟩
    · simp only [emittedAt, hrest, List.append_assoc]
    · simp only [emittedAt, hrest, hrest', hlen, List.append_assoc]

theorem offsetOf_congr {e' : Code} (he : e'.length = e.length) (i : Nat) :
    offsetOf prog count version e' i = offsetOf prog count version e i := by
  obtain ⟨rest, hrest, hrest'⟩ := emittedAt_congr prog count version e he i
  rw [offsetOf, offsetOf, hrest, hrest', List.length_append, List.length_append, he]

variable (hwf : ∀ i < count, (prog i).WellFormed i)
include hwf

/-- The length of the body. -/
theorem offsetOf_le {i : Nat} (hi : i ≤ count) :
    offsetOf prog count version e i ≤ e.length + INSTRUCTION_WORDS * i := by
  induction i with
  | zero => rw [offsetOf_zero]; omega
  | succ i ih =>
    have hlen := @length_emitInstruction_le _ version _ (hwf i (by omega))
      (offsetOf prog count version e i) (offsetsAt prog count version e i) count
    have := ih (by omega)
    rw [offsetOf_succ, blockAt, Nat.mul_succ]
    omega

/-- **The look-up of a `CBRANCH`**: a recorded offset, of an instruction at or before it. -/
theorem cbranchTarget_eq {i : Nat} (hi : i < count) (hcount : count ≤ RANDOMX_PROGRAM_SIZE_MAX)
    (hb : (prog i).itype = .Cbranch) (current : Nat) :
    ∃ j ≤ i, (prog i).target + 1 = j ∧ (offsetsAt prog count version e i)[j]? = some (offsetOf prog count version e j)
      ∧ cbranchTarget (prog i) (offsetsAt prog count version e i) count current
        = offsetOf prog count version e j := by
  obtain ⟨_, hlo, hhi, _⟩ := (hwf i hi).cbranch hb
  obtain ⟨j, hj⟩ := Int.eq_ofNat_of_zero_le (show 0 ≤ (prog i).target + 1 by omega)
  have hji : j ≤ i := by omega
  have hget := getElem?_offsetsAt prog count version e hji (by omega)
  refine ⟨j, hji, hj, hget, ?_⟩
  unfold cbranchTarget
  rw [hj, if_pos ⟨by omega, by omega⟩, Int.toNat_natCast, hget, Option.getD_some]

end

/-! ## Whole programs -/

section

variable (prog : Nat → BytecodeInstruction) (count : Nat)

/-- The code of a body function. -/
def bodyCode (version : RxVersion) : Code := (emittedAt prog count version emitPrologue count).2 ++ emitEpilogue

theorem compile_eq (jit : JitCompiler) (version : RxVersion) (hcount : count ≤ RANDOMX_PROGRAM_SIZE_MAX) :
    jit.compile ((List.range count).map prog) version
      = (writeCode (bodyCode prog count version)).map fun memory => { memory, kind := some .Body } := by
  unfold JitCompiler.compile
  rw [emitBody_eq prog count version emitPrologue hcount]
  show (writeCode (bodyCode prog count version)).bind _ = _
  cases writeCode (bodyCode prog count version) <;> rfl

variable (config : ProgramConfiguration) (initMa initMx : BitVec 32) (datasetOffset : Word)

/-- The word offset of the zero-iteration guard. -/
def loopGuard : Nat := (emitLoopPrologue config initMa initMx datasetOffset).length

/-- The code of the native loop before the body, with a guard that skips `skip` words. -/
def loopBefore (skip : Nat) : Code :=
  emitLoopPrologue config initMa initMx datasetOffset ++ [.cbz 28 (BitVec.ofNat 19 skip)]
    ++ emitIterationPre config

/-- The word offset of the end of the loop. -/
def loopEnd : Nat :=
  offsetOf prog count .V1 (loopBefore config initMa initMx datasetOffset 0) count
    + (emitIterationPost config).length + 2

/-- The words that the guard skips. -/
def loopSkip : Nat :=
  loopEnd prog count config initMa initMx datasetOffset - loopGuard config initMa initMx datasetOffset

/-- The code of a native loop after the body, up to its end. -/
def loopAfter : Code :=
  emitIterationPost config ++ subsImm 28 28 1
    ++ bCond COND_NE ((loopGuard config initMa initMx datasetOffset + 1 : Nat)
      - (loopEnd prog count config initMa initMx datasetOffset - 1 : Nat))

/-- The code of a native loop, up to its end. -/
def loopBody : Code :=
  (emittedAt prog count .V1 (loopBefore config initMa initMx datasetOffset
      (loopSkip prog count config initMa initMx datasetOffset)) count).2
    ++ loopAfter prog count config initMa initMx datasetOffset

/-- The code of a native loop. -/
def loopCode : Code := loopBody prog count config initMa initMx datasetOffset ++ emitLoopEpilogue

theorem compileNativeLoop_eq (jit : JitCompiler) (hcount : count ≤ RANDOMX_PROGRAM_SIZE_MAX)
    (hoffset : datasetOffset.toNat ≤ DATASET_EXTRA_ITEMS * 64) :
    jit.compileNativeLoop ((List.range count).map prog) .V1 config initMa initMx datasetOffset
      = (writeCode (loopCode prog count config initMa initMx datasetOffset)).map fun memory =>
          { memory, kind := some .NativeLoop } := by
  obtain ⟨rest, hrest, hrest'⟩ := emittedAt_congr prog count .V1
    (loopBefore config initMa initMx datasetOffset 0)
    (show (loopBefore config initMa initMx datasetOffset
      (loopSkip prog count config initMa initMx datasetOffset)).length = _ by simp [loopBefore]) count
  have hend : loopEnd prog count config initMa initMx datasetOffset
      = (loopBefore config initMa initMx datasetOffset 0 ++ rest).length
        + (emitIterationPost config).length + 2 := by
    rw [loopEnd, offsetOf, hrest]
  have hlen : (loopBefore config initMa initMx datasetOffset 0 ++ rest ++ emitIterationPost config
      ++ subsImm 28 28 1).length = loopEnd prog count config initMa initMx datasetOffset - 1 := by
    simp only [hend, List.length_append, subsImm, List.length_singleton]
    omega
  have hlen' : (loopBefore config initMa initMx datasetOffset 0 ++ rest ++ emitIterationPost config
      ++ subsImm 28 28 1 ++ bCond COND_NE ((loopGuard config initMa initMx datasetOffset + 1 : Nat)
        - (loopEnd prog count config initMa initMx datasetOffset - 1 : Nat))).length
      = loopEnd prog count config initMa initMx datasetOffset := by
    simp only [hend, List.length_append, subsImm, bCond, List.length_singleton]
  -- `CBZ` is emitted with distance zero and patched once the end of the loop is known
  have hpatch : (loopBefore config initMa initMx datasetOffset 0 ++ rest ++ emitIterationPost config
      ++ subsImm 28 28 1 ++ bCond COND_NE ((loopGuard config initMa initMx datasetOffset + 1 : Nat)
        - (loopEnd prog count config initMa initMx datasetOffset - 1 : Nat))).set
      (loopGuard config initMa initMx datasetOffset)
      (.cbz 28 (BitVec.ofNat 19 (loopSkip prog count config initMa initMx datasetOffset)))
      = loopBody prog count config initMa initMx datasetOffset := by
    rw [loopBody, hrest', loopAfter]
    simp only [loopBefore, List.append_assoc]
    rw [loopGuard, List.set_append_right _ _ le_rfl, Nat.sub_self]
    rfl
  have hbody := emitBody_eq prog count .V1 (loopBefore config initMa initMx datasetOffset 0) hcount
  rw [hrest] at hbody
  have hhead : (emitLoopPrologue config initMa initMx datasetOffset ++ [Inst.cbz 28 0]).length
      = loopGuard config initMa initMx datasetOffset + 1 := by
    rw [List.length_append, List.length_singleton, loopGuard]
  unfold JitCompiler.compileNativeLoop
  rw [if_pos ⟨rfl, hoffset⟩]
  show (emitBody (loopBefore config initMa initMx datasetOffset 0) _ .V1).bind _ = _
  rw [hbody, Option.bind_some]
  dsimp only
  rw [hlen, hhead, hlen', ← loopGuard, ← loopSkip, hpatch, ← loopCode]
  cases writeCode (loopCode prog count config initMa initMx datasetOffset) <;> rfl

end

end RandomX
end MinerTim
