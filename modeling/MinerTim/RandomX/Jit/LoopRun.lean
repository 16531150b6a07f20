import MinerTim.RandomX.Jit.LoopIteration
import MinerTim.RandomX.Prefetch
import MinerTim.RandomX.VmSpec

/-!
# `RandomX.Jit.LoopRun` — the native loop follows the main loop

One turn of the loop is the code before the body, the body (`RandomX.Jit.BodyRun`) and the code after it:
`traced_iteration` says that it is one iteration of the main loop on a dataset in memory, with the same
prefetches. The back-branch then goes to the head of the loop or past its end (`traced_back`), and
`traced_loop` is the whole run, by induction on the number of turns.
-/

namespace MinerTim
namespace RandomX

open Arm64 Emitter

/-! ## The dataset in memory -/

/-- Doubleword `k` of a dataset. -/
def datasetWord (ds : RandomXDataset) (k : Nat) : Word := (ds.items[k / 8]?.bind fun l => l[k % 8]?).getD 0

/-- A doubleword of an item. -/
theorem datasetWord_eq {ds : RandomXDataset} {item : Word} {dataLine : Line} (h : ds.getItem item = some dataLine)
    {j : Nat} (hj : j < 8) : datasetWord ds (8 * item.toNat + j) = dataLine[j]?.getD 0 := by
  rw [datasetWord, show (8 * item.toNat + j) / 8 = item.toNat by omega,
    show (8 * item.toNat + j) % 8 = j by omega, show ds.items[item.toNat]? = some dataLine from h]
  rfl

/-- The dataset has every item that an iteration reads. -/
theorem exists_getItem {n : Nat} (programBytes : Vector Byte n) (ds : RandomXDataset) (memMa : BitVec 32) :
    ∃ dataLine, ds.getItem (itemNumber (deriveProgramParams programBytes).datasetOffset memMa) = some dataLine :=
  ⟨_, Array.getElem?_eq_getElem (by rw [ds.size_eq]; exact itemNumber_lt programBytes memMa)⟩

/-- The dataset at an address. -/
abbrev HoldsDataset (t : State) (base : Word) (ds : RandomXDataset) : Prop :=
  t.Holds base DATASET_TOTAL_SIZE (blockByte (datasetWord ds))

/-- **What the loop reads is the item that the interpreter reads.** -/
theorem read_datasetLine {n : Nat} (programBytes : Vector Byte n) {t : State} {dsPtr : Word} {ds : RandomXDataset}
    (h : HoldsDataset t dsPtr ds) {memMa : BitVec 32} {dataLine : Line}
    (hline : ds.getItem (itemNumber (deriveProgramParams programBytes).datasetOffset memMa) = some dataLine)
    {j : Nat} (hj : j < 8) :
    t.read (readPtr (dsPtr + (deriveProgramParams programBytes).datasetOffset) memMa + BitVec.ofNat 64 (j * 8))
      = dataLine[j]?.getD 0 := by
  have hlt := itemNumber_lt programBytes memMa
  have hcount : DATASET_ITEM_COUNT = 34078720 := by decide
  have htotal : DATASET_TOTAL_SIZE = 2181038080 := by decide
  have hptr := itemNumber_mul (datasetOffset_aligned programBytes) memMa
  generalize hitem : itemNumber (deriveProgramParams programBytes).datasetOffset memMa = item at *
  have haddr : readPtr (dsPtr + (deriveProgramParams programBytes).datasetOffset) memMa + BitVec.ofNat 64 (j * 8)
      = dsPtr + BitVec.ofNat 64 (8 * (8 * item.toNat + j)) := by
    rw [show readPtr (dsPtr + (deriveProgramParams programBytes).datasetOffset) memMa
      = dsPtr + readPtr (deriveProgramParams programBytes).datasetOffset memMa from BitVec.add_assoc _ _ _, ← hptr,
      BitVec.add_assoc]
    congr 1
    apply BitVec.eq_of_toNat_eq
    simp only [BitVec.toNat_add, BitVec.toNat_mul, BitVec.toNat_ofNat, CACHE_LINE_SIZE]
    omega
  rw [haddr, read_block h (by omega), datasetWord_eq hline hj]

/-! ## Where the parts of the loop stand -/

section

variable {n : Nat} (programBytes : Vector Byte n)

/-- The prologue of the native loop of a program. -/
abbrev loopPrologueOf : Code :=
  emitLoopPrologue (deriveProgramParams programBytes).config (deriveProgramParams programBytes).ma
    (deriveProgramParams programBytes).mx (deriveProgramParams programBytes).datasetOffset

/-- The code before the body. -/
abbrev loopBeforeOf : Code :=
  loopBefore (deriveProgramParams programBytes).config (deriveProgramParams programBytes).ma
    (deriveProgramParams programBytes).mx (deriveProgramParams programBytes).datasetOffset
    (loopSkip (bytecodeAt programBytes) RxVersion.V1.programSize (deriveProgramParams programBytes).config
      (deriveProgramParams programBytes).ma (deriveProgramParams programBytes).mx
      (deriveProgramParams programBytes).datasetOffset)

/-- The code after the body. -/
abbrev loopAfterOf : Code :=
  loopAfter (bytecodeAt programBytes) RxVersion.V1.programSize (deriveProgramParams programBytes).config
    (deriveProgramParams programBytes).ma (deriveProgramParams programBytes).mx
    (deriveProgramParams programBytes).datasetOffset

/-- The code of the native loop of a program. -/
abbrev loopCodeOf : Code :=
  loopCode (bytecodeAt programBytes) RxVersion.V1.programSize (deriveProgramParams programBytes).config
    (deriveProgramParams programBytes).ma (deriveProgramParams programBytes).mx
    (deriveProgramParams programBytes).datasetOffset

/-- The word offset of the guard. -/
abbrev guardAt : Nat := (loopPrologueOf programBytes).length

/-- The word offset of the code after the body. -/
abbrev tailAt : Nat :=
  offsetOf (bytecodeAt programBytes) RxVersion.V1.programSize .V1 (loopBeforeOf programBytes)
    RxVersion.V1.programSize

/-- The word offset of the end of the loop. -/
abbrev endAt : Nat :=
  loopEnd (bytecodeAt programBytes) RxVersion.V1.programSize (deriveProgramParams programBytes).config
    (deriveProgramParams programBytes).ma (deriveProgramParams programBytes).mx
    (deriveProgramParams programBytes).datasetOffset

theorem endAt_eq : endAt programBytes
    = tailAt programBytes + (emitIterationPost (deriveProgramParams programBytes).config).length + 2 :=
  loopEnd_eq _ _ _ _ _ _

/-- The loop of a program is compiled to this code. -/
theorem compileNativeLoop_loopCodeOf (buf : BytecodeBuffer) (jit : JitCompiler) :
    (jit.compileNativeLoop (compiled programBytes buf RxVersion.V1.programSize) .V1
        (deriveProgramParams programBytes).config (deriveProgramParams programBytes).ma
        (deriveProgramParams programBytes).mx (deriveProgramParams programBytes).datasetOffset).bind
      JitCompiler.getLoopFn = some (loopCodeOf programBytes) := by
  obtain ⟨hcompile, -⟩ := wellPlaced_compileNativeLoop programBytes buf jit _ (deriveProgramParams programBytes).ma
    (deriveProgramParams programBytes).mx _ (datasetOffset_le programBytes)
  rw [hcompile]
  rfl

theorem wellPlaced_loopCodeOf :
    WellPlaced (bytecodeAt programBytes) RxVersion.V1.programSize .V1 (loopBeforeOf programBytes)
        (IntendedLoop (bytecodeAt programBytes) RxVersion.V1.programSize (deriveProgramParams programBytes).config
          (deriveProgramParams programBytes).ma (deriveProgramParams programBytes).mx
          (deriveProgramParams programBytes).datasetOffset) (loopCodeOf programBytes) ∧
      Embeds (loopCodeOf programBytes) (guardAt programBytes + 1)
        (emitIterationPre (deriveProgramParams programBytes).config) ∧
      Embeds (loopCodeOf programBytes) (endAt programBytes) emitLoopEpilogue := by
  obtain ⟨-, h⟩ := wellPlaced_compileNativeLoop programBytes (Vector.replicate _ BytecodeInstruction.new)
    JitCompiler.new _ (deriveProgramParams programBytes).ma (deriveProgramParams programBytes).mx _
    (datasetOffset_le programBytes)
  exact h

/-- The prologue and the guard stand at the start. -/
theorem embeds_loopPrologueOf : Embeds (loopCodeOf programBytes) 0 (loopPrologueOf programBytes
    ++ [.cbz 28 (BitVec.ofNat 19 (endAt programBytes - guardAt programBytes))]) := by
  have hbefore := embeds_before (bytecodeAt programBytes) RxVersion.V1.programSize .V1 (loopBeforeOf programBytes)
    (loopAfterOf programBytes ++ emitLoopEpilogue)
  rw [← List.append_assoc] at hbefore
  exact hbefore.left

theorem embeds_loopAfterOf : Embeds (loopCodeOf programBytes) (tailAt programBytes) (loopAfterOf programBytes) :=
  embeds_append _ _ _

/-- The body starts after the code before it. -/
theorem offsetOf_bodyStart : offsetOf (bytecodeAt programBytes) RxVersion.V1.programSize .V1
    (loopBeforeOf programBytes) 0
      = guardAt programBytes + 1 + (emitIterationPre (deriveProgramParams programBytes).config).length := by
  simp only [offsetOf_zero, loopBefore, List.length_append, List.length_singleton]

variable {fp : FpOps} {W : Word → Prop} {t : State}

/-- **The guard** goes past the loop when there is nothing to do. -/
theorem traced_guard : Traced fp (loopCodeOf programBytes) W (guardAt programBytes) t []
    (if t.getX 28 = 0 then endAt programBytes else guardAt programBytes + 1) t := by
  obtain ⟨hplaced, -, -⟩ := wellPlaced_loopCodeOf programBytes
  obtain ⟨i, hi, hlands⟩ := (hplaced.branches _ _).mpr (.inr .guard)
  have hguard := (embeds_loopPrologueOf programBytes).right.head
  rw [Nat.zero_add] at hguard
  obtain rfl := Option.some.inj (hi.symm.trans hguard)
  exact traced_cbz hguard ((lands_cbz (by decide) _ _ _).mp hlands)

/-- With turns to make, the guard enters the loop. -/
theorem traced_guard_succ {k : Nat} (hk : k + 1 < 2 ^ 64) (hx28 : t.x 28 = BitVec.ofNat 64 (k + 1)) :
    Traced fp (loopCodeOf programBytes) W (guardAt programBytes) t [] (guardAt programBytes + 1) t := by
  have hne : t.getX 28 ≠ 0 := by
    rw [State.getX_of_ne (by decide), hx28]
    intro h0
    have htoNat := congrArg BitVec.toNat h0
    rw [BitVec.toNat_ofNat, Nat.mod_eq_of_lt hk] at htoNat
    exact Nat.succ_ne_zero k htoNat
  have hguard := @traced_guard _ programBytes fp W t
  rwa [if_neg hne] at hguard

/-- What the back-branch leaves in the counter and the flags. -/
def counted (t : State) (count : Word) : State :=
  (t.setX 28 (count - 1)).setFlags (State.subFlags count 1)

theorem x_counted_of_ne {m : Nat} (hm : m ≠ 28) (t : State) (count : Word) : (counted t count).x m = t.x m :=
  State.x_setX_of_ne hm

theorem x_counted_counter (t : State) (k : Nat) : (counted t (BitVec.ofNat 64 (k + 1))).x 28 = BitVec.ofNat 64 k := by
  rw [counted, State.x_setFlags, State.x_setX_same (by decide), BitVec.ofNat_add]
  exact BitVec.add_sub_cancel _ _

/-- The flags tell whether the counter has reached zero. -/
theorem condHolds_counted (t : State) {k : Nat} (hk : k + 1 < 2 ^ 64) :
    condHolds COND_NE (counted t (BitVec.ofNat 64 (k + 1))).flags = decide (k ≠ 0) := by
  have hsub : BitVec.ofNat 64 (k + 1) - 1 = BitVec.ofNat 64 k := by
    rw [BitVec.ofNat_add]
    exact BitVec.add_sub_cancel _ _
  have hzero : BitVec.ofNat 64 k = 0 ↔ k = 0 := by
    rw [← BitVec.toNat_inj, BitVec.toNat_ofNat, Nat.mod_eq_of_lt (by omega)]
    rfl
  show (!(BitVec.ofNat 64 (k + 1) - 1 == 0)) = _
  rw [hsub, Bool.eq_iff_iff]
  simp only [Bool.not_eq_true', beq_eq_false_iff_ne, ne_eq, hzero, decide_eq_true_eq]

/-- **The back-branch** counts down, and goes to the head of the loop until the counter is zero. -/
theorem traced_back {k : Nat} (hk : k + 1 < 2 ^ 64) (hx28 : t.x 28 = BitVec.ofNat 64 (k + 1)) :
    Traced fp (loopCodeOf programBytes) W (endAt programBytes - 2) t []
      (if k = 0 then endAt programBytes else guardAt programBytes + 1) (counted t (BitVec.ofNat 64 (k + 1))) := by
  obtain ⟨hplaced, -, -⟩ := wellPlaced_loopCodeOf programBytes
  -- the last branch of the loop lands behind the guard, which is not tested again
  obtain ⟨i, hi, hlands⟩ := (hplaced.branches _ _).mpr (.inr .back)
  have hend := endAt_eq programBytes
  have hafter := embeds_loopAfterOf programBytes
  rw [loopAfterOf, loopAfter, List.append_assoc] at hafter
  have hsubs := hafter.right.left
  have hback := hafter.right.right.head
  rw [subsImm, List.length_singleton] at hback
  rw [show tailAt programBytes + (emitIterationPost (deriveProgramParams programBytes).config).length
    = endAt programBytes - 2 by omega] at hsubs hback
  have hcode : Straight fp W (subsImm 28 28 1) t (counted t (BitVec.ofNat 64 (k + 1))) := by
    refine straight_single rfl rfl rfl ?_
    simp only [exec, State.getXSp_of_ne (show (28 : Nat) ≠ 31 by decide), hx28]
    rfl
  rw [show endAt programBytes - 2 + 1 = endAt programBytes - 1 by omega] at hback
  obtain rfl := Option.some.inj (hi.symm.trans hback)
  have hbranch := @traced_bCond fp _ W (counted t (BitVec.ofNat 64 (k + 1))) _ _ _ _ hback
    ((lands_bCond _ _ _ _).mp hlands)
  have hrun := ((hcode.emits (noPrefetch_single rfl)).traced hsubs).trans
    (show Traced fp _ W (endAt programBytes - 2 + (subsImm 28 28 1).length) _ [] _ _ by
      rw [show endAt programBytes - 2 + (subsImm 28 28 1).length = endAt programBytes - 1 by
        simp only [subsImm, List.length_singleton]; omega]
      exact hbranch)
  rw [condHolds_counted t hk] at hrun
  by_cases h0 : k = 0
  · simp only [h0, ne_eq, not_true_eq_false, decide_false, Bool.false_eq_true, if_false, if_true] at hrun ⊢
    rwa [show endAt programBytes - 1 + 1 = endAt programBytes by omega] at hrun
  · simp only [h0, ne_eq, not_false_eq_true, decide_true, if_true, if_false] at hrun ⊢
    exact hrun

end

/-! ## The run -/

/-- The addresses that an iteration prefetches, in the memory of the machine. -/
def machinePrefetches (dsPtr base : Word) (access : IterationAccess) : List Word :=
  [dsPtr + access.datasetPrefetch, base + BitVec.ofNat 64 access.scratchpadPrefetch0,
    base + BitVec.ofNat 64 access.scratchpadPrefetch1]

/-- The interpreter on the body of a V1 program. -/
abbrev interpretV1 (fp : FpOps) {n : Nat} (programBytes : Vector Byte n) (buf : BytecodeBuffer) :
    VmState → Option VmState :=
  executeBytecode (fpUnit fp) (deriveProgramParams programBytes).config .V1
    (compiled programBytes buf RxVersion.V1.programSize)

section

variable {n : Nat} {programBytes : Vector Byte n} {fp : FpOps} {ds : RandomXDataset} {base dsPtr : Word}
  {s : VmState} {l : LoopState} {t : State}

theorem not_isLoopX_31 : ¬ IsLoopX 31 := by
  unfold IsLoopX IsBodyX
  omega

/-- **One turn of the loop is one iteration**, with the same prefetches. -/
theorem traced_iteration (aes : AesRounds) (buf : BytecodeBuffer)
    (hap : Apart dsPtr DATASET_TOTAL_SIZE base SCRATCHPAD_L3_SIZE) (hds : HoldsDataset t dsPtr ds)
    (h : Sim (deriveProgramParams programBytes).config base s t)
    (hl : LoopRegs (dsPtr + (deriveProgramParams programBytes).datasetOffset) l t) :
    ∃ c access t', prefetchingIteration (fpUnit fp) aes .V1 (deriveProgramParams programBytes)
        (interpretV1 fp programBytes buf) ds.getItem s l = some (c, access) ∧
      Traced fp (loopCodeOf programBytes) (Pad base) (guardAt programBytes + 1) t
        (machinePrefetches dsPtr base access) (endAt programBytes - 2) t' ∧
      Sim (deriveProgramParams programBytes).config base c.1 t' ∧
      LoopRegs (dsPtr + (deriveProgramParams programBytes).datasetOffset) c.2 t' ∧ Kept IsLoopX IsBodyD t t' := by
  obtain ⟨hplaced, hpre, -⟩ := wellPlaced_loopCodeOf programBytes
  have hconfig := deriveProgramParams_wellFormed programBytes
  have hwf := wellFormed_compiled programBytes .V1
  -- before the body
  obtain ⟨t₁, hcode₁, h₁, hl₁⟩ := @exists_emitIterationPre fp _ _ _ _ _ _ (Pad base) h hl hconfig
  have hkept₁ := kept_of_straight hcode₁ (fits_emitIterationPre _).confined not_isLoopX_31
  have hrun₁ := (hcode₁.emits (noPrefetch_emitIterationPre _)).traced hpre
  rw [← offsetOf_bodyStart] at hrun₁
  -- the body
  obtain ⟨tr, s', hrun, hlt, hbody⟩ := exists_executeBytecode (fpUnit fp) (deriveProgramParams programBytes).config .V1
    programBytes buf (loopHead (fpUnit fp) (deriveProgramParams programBytes).config
      (spAddr0 (deriveProgramParams programBytes).config s l).toNat
      (spAddr1 (deriveProgramParams programBytes).config s l).toNat s)
  obtain ⟨t₂, hrun₂, h₂, hkept₂⟩ := traced_run hwf hplaced hrun hlt h₁
  have hl₂ := hl₁.bodyKept hkept₂
  -- after the body: the dataset is where it was
  obtain ⟨dataLine, hline⟩ := exists_getItem programBytes ds l.ma
  have hds₂ : HoldsDataset t₂ dsPtr ds := hds.of_mem (by decide) fun a ha =>
    (hrun₁.trans hrun₂).steps.mem_eq (hap a ha)
  obtain ⟨t₃, hcode₃, h₃, hl₃⟩ := @exists_emitIterationPost fp _ _ _ _ _ _ aes h₂ hl₂ hconfig _
    (fun i hi => read_datasetLine programBytes hds₂ hline hi) (and_mask64_le _) (and_mask64_le _)
  have hkept₃ := kept_of_straight hcode₃.straight (fits_emitIterationPost _).confined not_isLoopX_31
  have hafter := embeds_loopAfterOf programBytes
  rw [loopAfterOf, loopAfter, List.append_assoc] at hafter
  have hrun₃ := hcode₃.traced hafter.left
  rw [show tailAt programBytes + (emitIterationPost (deriveProgramParams programBytes).config).length
    = endAt programBytes - 2 by have := endAt_eq programBytes; omega] at hrun₃
  have hstep := @prefetchingIteration_eq (fpUnit fp) aes .V1 (deriveProgramParams programBytes)
    (interpretV1 fp programBytes buf) ds.getItem hconfig s l
  rw [iteration_eq hconfig hbody hline] at hstep
  refine ⟨_, _, t₃, hstep, ?_, h₃, hl₃, (hkept₁.trans (hkept₂.weaken (fun _ => .inl) fun _ => id)).trans hkept₃⟩
  have hptr : ∀ ma, readPtr (dsPtr + (deriveProgramParams programBytes).datasetOffset) ma
      = dsPtr + readPtr (deriveProgramParams programBytes).datasetOffset ma := fun ma => BitVec.add_assoc _ _ _
  rw [hptr] at hrun₃
  exact (hrun₁.trans hrun₂).trans hrun₃

/-- What the loop may write: the registers of a turn, and the counter. -/
def IsTurnX (n : Nat) : Prop := IsLoopX n ∨ n = 28

/-- A turn, and the back-branch. -/
theorem traced_turn (aes : AesRounds) (buf : BytecodeBuffer)
    (hap : Apart dsPtr DATASET_TOTAL_SIZE base SCRATCHPAD_L3_SIZE) (hds : HoldsDataset t dsPtr ds)
    (h : Sim (deriveProgramParams programBytes).config base s t)
    (hl : LoopRegs (dsPtr + (deriveProgramParams programBytes).datasetOffset) l t) {k : Nat} (hk : k + 1 < 2 ^ 64)
    (hx28 : t.x 28 = BitVec.ofNat 64 (k + 1)) :
    ∃ c access t', prefetchingIteration (fpUnit fp) aes .V1 (deriveProgramParams programBytes)
        (interpretV1 fp programBytes buf) ds.getItem s l = some (c, access) ∧
      Traced fp (loopCodeOf programBytes) (Pad base) (guardAt programBytes + 1) t
        (machinePrefetches dsPtr base access) (if k = 0 then endAt programBytes else guardAt programBytes + 1) t' ∧
      Sim (deriveProgramParams programBytes).config base c.1 t' ∧
      LoopRegs (dsPtr + (deriveProgramParams programBytes).datasetOffset) c.2 t' ∧ Kept IsTurnX IsBodyD t t' ∧
      t'.x 28 = BitVec.ofNat 64 k := by
  obtain ⟨c, access, t₁, hstep, hrun, h₁, hl₁, hkept⟩ := @traced_iteration _ _ fp _ _ _ _ _ _ aes buf hap hds h hl
  have hx28₁ : t₁.x 28 = BitVec.ofNat 64 (k + 1) := by
    rw [hkept.x 28 (by unfold IsLoopX IsBodyX; omega), hx28]
  have hback := @traced_back _ programBytes fp (Pad base) _ _ hk hx28₁
  have hrun' := hrun.trans hback
  rw [List.append_nil] at hrun'
  refine ⟨c, access, _, hstep, hrun', (h₁.setLoopX (by decide) _).setFlags _, ?_, ?_, x_counted_counter _ k⟩
  · exact hl₁.congr fun m _ hm => x_counted_of_ne (by omega) _ _
  · refine (hkept.weaken (fun _ => .inl) fun _ => id).trans ⟨fun m hm => ?_, State.sp_setX, fun _ _ => ?_⟩
    · exact x_counted_of_ne (fun h => hm (.inr h)) _ _
    · rw [counted, State.d_setFlags, State.d_setX]

/-- **The native loop is the main loop**, for any number of turns. -/
theorem traced_loop (aes : AesRounds) (buf : BytecodeBuffer)
    (hap : Apart dsPtr DATASET_TOTAL_SIZE base SCRATCHPAD_L3_SIZE) (hds : HoldsDataset t dsPtr ds)
    (h : Sim (deriveProgramParams programBytes).config base s t)
    (hl : LoopRegs (dsPtr + (deriveProgramParams programBytes).datasetOffset) l t) {k : Nat} (hk : k + 1 < 2 ^ 64)
    (hx28 : t.x 28 = BitVec.ofNat 64 (k + 1)) :
    ∃ c log t', prefetchingIterate (fpUnit fp) aes .V1 (deriveProgramParams programBytes)
        (interpretV1 fp programBytes buf) ds.getItem (k + 1) (s, l) = some (c, log) ∧
      Traced fp (loopCodeOf programBytes) (Pad base) (guardAt programBytes + 1) t
        (log.flatMap (machinePrefetches dsPtr base)) (endAt programBytes) t' ∧
      Sim (deriveProgramParams programBytes).config base c.1 t' ∧
      LoopRegs (dsPtr + (deriveProgramParams programBytes).datasetOffset) c.2 t' ∧ Kept IsTurnX IsBodyD t t' := by
  induction k generalizing s l t with
  | zero =>
    obtain ⟨c, access, t', hstep, hrun, h', hl', hkept, -⟩ :=
      @traced_turn _ _ fp _ _ _ _ _ _ aes buf hap hds h hl 0 hk hx28
    refine ⟨c, [access], t', ?_, hrun, h', hl', hkept⟩
    rw [prefetchingIterate, hstep]
    rfl
  | succ k ih =>
    obtain ⟨c₁, access, t₁, hstep, hrun, h₁, hl₁, hkept₁, hx28₁⟩ :=
      @traced_turn _ _ fp _ _ _ _ _ _ aes buf hap hds h hl (k + 1) hk hx28
    -- a turn stores to the scratchpad only, and the dataset lies apart from it
    have hds₁ : HoldsDataset t₁ dsPtr ds := hds.of_mem (by decide) fun a ha => hrun.steps.mem_eq (hap a ha)
    obtain ⟨c, log, t', hrest, hrun', h', hl', hkept'⟩ := ih hds₁ h₁ hl₁ (by omega) hx28₁
    refine ⟨c, access :: log, t', ?_, ?_, h', hl', hkept₁.trans hkept'⟩
    · rw [prefetchingIterate, hstep]
      show (prefetchingIterate (fpUnit fp) aes .V1 (deriveProgramParams programBytes)
        (interpretV1 fp programBytes buf) ds.getItem (k + 1) c₁).bind _ = _
      rw [hrest]
      rfl
    · rw [List.flatMap_cons]
      exact hrun.trans hrun'

/-- **The turns one by one**: the counter at the head of the loop tells how many are left, and turn `i` prefetches
    what iteration `i` prefetches. -/
theorem exists_turnStates (aes : AesRounds) (buf : BytecodeBuffer)
    (hap : Apart dsPtr DATASET_TOTAL_SIZE base SCRATCHPAD_L3_SIZE) (hds : HoldsDataset t dsPtr ds)
    (h : Sim (deriveProgramParams programBytes).config base s t)
    (hl : LoopRegs (dsPtr + (deriveProgramParams programBytes).datasetOffset) l t) {k : Nat} (hk : k + 1 < 2 ^ 64)
    (hx28 : t.x 28 = BitVec.ofNat 64 (k + 1)) :
    ∃ c log, prefetchingIterate (fpUnit fp) aes .V1 (deriveProgramParams programBytes)
        (interpretV1 fp programBytes buf) ds.getItem (k + 1) (s, l) = some (c, log) ∧
      ∃ turns : Nat → State, turns 0 = t ∧ ∀ (i : Nat) (access : IterationAccess), log[i]? = some access →
        (turns i).x 28 = BitVec.ofNat 64 (k + 1 - i) ∧
        Traced fp (loopCodeOf programBytes) (Pad base) (guardAt programBytes + 1) (turns i)
          (machinePrefetches dsPtr base access)
          (if i = k then endAt programBytes else guardAt programBytes + 1) (turns (i + 1)) := by
  induction k generalizing s l t with
  | zero =>
    obtain ⟨c, access, t', hstep, hrun, -⟩ := @traced_turn _ _ fp _ _ _ _ _ _ aes buf hap hds h hl 0 hk hx28
    refine ⟨c, [access], ?_, startingWith t fun _ => t', rfl, ?_⟩
    · rw [prefetchingIterate, hstep]
      rfl
    · intro i a ha
      cases i with
      | zero =>
        obtain rfl := Option.some.inj ha
        exact ⟨hx28, hrun⟩
      | succ i => cases ha
  | succ k ih =>
    obtain ⟨c₁, access, t₁, hstep, hrun, h₁, hl₁, hkept₁, hx28₁⟩ :=
      @traced_turn _ _ fp _ _ _ _ _ _ aes buf hap hds h hl (k + 1) hk hx28
    have hds₁ : HoldsDataset t₁ dsPtr ds := hds.of_mem (by decide) fun a ha => hrun.steps.mem_eq (hap a ha)
    obtain ⟨c, log, hrest, turns₁, rfl, hturns₁⟩ := ih hds₁ h₁ hl₁ (by omega) hx28₁
    refine ⟨c, access :: log, ?_, startingWith t turns₁, rfl, ?_⟩
    · rw [prefetchingIterate, hstep]
      show (prefetchingIterate (fpUnit fp) aes .V1 (deriveProgramParams programBytes)
        (interpretV1 fp programBytes buf) ds.getItem (k + 1) c₁).bind _ = _
      rw [hrest]
      rfl
    · intro i a ha
      cases i with
      | zero =>
        obtain rfl := Option.some.inj ha
        exact ⟨hx28, hrun⟩
      | succ i =>
        obtain ⟨hcount, hturn⟩ := hturns₁ i a ha
        simp only [Nat.add_sub_add_right, Nat.add_right_cancel_iff]
        exact ⟨hcount, hturn⟩

end

end RandomX
end MinerTim
