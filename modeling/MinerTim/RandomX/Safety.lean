import MinerTim.RandomX.Termination
import MinerTim.RandomX.VmLoopSpec

/-!
# `RandomX.Safety` — no unchecked access is out of bounds

The main loop runs for any number of iterations, from any machine state and any loop state, on a dataset
that has nothing outside its `DATASET_ITEM_COUNT` items (`exists_iterate`). Since an access out of bounds
ends the model's run, none is made. The bound on the dataset index (`itemNumber_lt`) needs no invariant
on `ma`: it is masked at every read.
-/

namespace MinerTim
namespace RandomX

variable {fp : FpUnit} {aes : AesRounds} {version : RxVersion} {n : Nat} (programBytes : Vector Byte n)

/-- The four address registers are `r0`/`r1`, `r2`/`r3`, `r4`/`r5` and `r6`/`r7`. -/
theorem deriveProgramParams_wellFormed : (deriveProgramParams programBytes).config.WellFormed := by
  have hbit : ∀ x : Word, (x &&& 1).toNat ≤ 1 := fun x => by
    rw [BitVec.toNat_and]
    exact Nat.and_le_right
  have h0 := hbit (entropy programBytes 12)
  have h1 := hbit (entropy programBytes 12 >>> 1)
  have h2 := hbit (entropy programBytes 12 >>> 2)
  have h3 := hbit (entropy programBytes 12 >>> 3)
  refine ⟨?_, ?_, ?_, ?_⟩ <;> simp only [deriveProgramParams] <;> omega

/-- The dataset offset is a whole number of cache lines, at most `DATASET_EXTRA_ITEMS` of them. -/
theorem datasetOffset_le : (deriveProgramParams programBytes).datasetOffset.toNat ≤ 33554368 := by
  have hmod : (entropy programBytes 13 % BitVec.ofNat 64 (DATASET_EXTRA_ITEMS + 1)).toNat < 524288 := by
    rw [BitVec.toNat_umod]
    exact Nat.mod_lt _ (by decide)
  have hline : (BitVec.ofNat 64 CACHE_LINE_SIZE).toNat = 64 := by decide
  simp only [deriveProgramParams]
  rw [BitVec.toNat_mul, hline, Nat.mod_eq_of_lt (by omega)]
  omega

/-- **Every dataset item index is in range**, whatever `ma` is. -/
theorem itemNumber_lt (memMa : BitVec 32) :
    (itemNumber (deriveProgramParams programBytes).datasetOffset memMa).toNat
      < DATASET_ITEM_COUNT := by
  have hoff := datasetOffset_le programBytes
  have hma : (memMa.setWidth 64 &&& CACHE_LINE_ALIGN_MASK.setWidth 64).toNat ≤ 2147483584 := by
    rw [BitVec.toNat_and, show (CACHE_LINE_ALIGN_MASK.setWidth 64).toNat = 2147483584 by decide]
    exact Nat.and_le_right
  have hcount : DATASET_ITEM_COUNT = 34078720 := by decide
  have hline : (BitVec.ofNat 64 CACHE_LINE_SIZE).toNat = 64 := by decide
  rw [itemNumber, readPtr, BitVec.toNat_udiv, BitVec.toNat_add, hline, hcount,
    Nat.mod_eq_of_lt (by omega)]
  omega

/-- The main loop on a compiled program runs for any number of iterations, from any state, when every
    dataset item exists. -/
theorem exists_iterate (bytecode : BytecodeBuffer) {line : Word → Option Line}
    (hline : ∀ k, k.toNat < DATASET_ITEM_COUNT → ∃ l, line k = some l) (iterations : Nat)
    (c : VmState × LoopState) :
    ∃ c', iterate fp aes version (deriveProgramParams programBytes)
      (executeBytecode fp (deriveProgramParams programBytes).config version
        (compiled programBytes bytecode version.programSize)) line iterations c = some c' := by
  induction iterations generalizing c with
  | zero => exact ⟨c, rfl⟩
  | succ iterations ih =>
    obtain ⟨s, l⟩ := c
    obtain ⟨_, s', _, _, hbody⟩ := exists_executeBytecode fp
      (deriveProgramParams programBytes).config version programBytes bytecode
      (loopHead fp (deriveProgramParams programBytes).config
        (spAddr0 (deriveProgramParams programBytes).config s l).toNat
        (spAddr1 (deriveProgramParams programBytes).config s l).toNat s)
    obtain ⟨dataLine, hdata⟩ := hline _ (itemNumber_lt programBytes l.ma)
    rw [iterate, iteration_eq (deriveProgramParams_wellFormed programBytes) hbody hdata]
    exact ih _

/-- **No unchecked access of the VM is out of bounds.** Every compiled instruction is well formed; the
    main loop runs any number of iterations from any state, on a dataset with nothing past its items;
    and so does `execute_vm_inner` on a dataset, interpreting the program. -/
theorem vm_accesses_in_bounds (bytecode : BytecodeBuffer) :
    (∀ i < version.programSize, ∃ ibc,
      (compiled programBytes bytecode version.programSize)[i]? = some ibc ∧ ibc.WellFormed i) ∧
    (∀ (items : Nat → Line) (iterations : Nat) (c : VmState × LoopState),
      ∃ c', iterate fp aes version (deriveProgramParams programBytes)
        (executeBytecode fp (deriveProgramParams programBytes).config version
          (compiled programBytes bytecode version.programSize))
        (fun k => if k.toNat < DATASET_ITEM_COUNT then some (items k.toNat) else none)
        iterations c = some c') ∧
    (∀ (cacheMemory : List Byte) (ssPrograms : Vector SuperscalarProgram 8) (ds : RandomXDataset)
      (useNativeLoop : Bool) (iterations : Nat) (s : VmState),
      ∃ r, executeVmInner fp aes
        { cacheMemory, ssPrograms, dataset := some ds, jit := none, useNativeLoop } version
        programBytes iterations bytecode s = some r) := by
  have hmax := version.programSize_le_max
  have hsize : RANDOMX_PROGRAM_SIZE_MAX = 384 := rfl
  refine ⟨fun i hi => ?_, fun items iterations c => ?_,
    fun cacheMemory ssPrograms ds useNativeLoop iterations s => ?_⟩
  · exact ⟨_, getElem?_compiled programBytes bytecode hmax hi,
      bytecodeAt_wellFormed programBytes (by omega)⟩
  · exact exists_iterate programBytes bytecode (fun k hk => ⟨_, if_pos hk⟩) iterations c
  · have hline : ∀ k, k.toNat < DATASET_ITEM_COUNT →
        ∃ l, datasetLine cacheMemory ssPrograms (some ds) k = some l := fun k hk =>
      ⟨_, Array.getElem?_eq_getElem (by rw [ds.size_eq]; exact hk)⟩
    obtain ⟨⟨s', l⟩, h⟩ := @exists_iterate fp aes version _ programBytes bytecode _ hline iterations
      ({ s with nreg := initRegisters programBytes s.nreg },
        { ma := (deriveProgramParams programBytes).ma, mx := (deriveProgramParams programBytes).mx,
          spAddr0 := (deriveProgramParams programBytes).mx,
          spAddr1 := (deriveProgramParams programBytes).ma })
    unfold compiled at h
    simp only [executeVmInner, h, Option.bind_eq_bind, Option.bind_some]
    exact ⟨_, rfl⟩

end RandomX
end MinerTim
