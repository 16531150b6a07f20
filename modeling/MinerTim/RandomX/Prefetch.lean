import MinerTim.RandomX.Safety

/-!
# `RandomX.Prefetch` — what the main loop prefetches

`prefetchingIteration` is `iteration` with its accesses recorded: the two scratchpad blocks and the dataset item
it uses, and what it prefetches on the aarch64 build in full mode. The prefetches change nothing
(`map_prefetchingIterate`); what the addresses are is said once, for one iteration (`access_eq`), and a run is a
chain of such iterations (`exists_states`). From this each prefetched address is the one a later iteration uses
(`prefetch_spec`).
-/

namespace MinerTim
namespace RandomX

/-- What an iteration reads, and what it prefetches. The dataset prefetch is an offset in bytes. -/
structure IterationAccess where
  spAddr0 : Nat
  spAddr1 : Nat
  itemNumber : Word
  datasetPrefetch : Word
  scratchpadPrefetch0 : Nat
  scratchpadPrefetch1 : Nat
deriving DecidableEq, Repr

section

variable (fp : FpUnit) (aes : AesRounds) (version : RxVersion) (params : ProgramParams)
  (body : VmState → Option VmState) (line : Word → Option Line)

/-- One iteration of the main loop, with its accesses. -/
def prefetchingIteration (s : VmState) (l : LoopState) : Option ((VmState × LoopState) × IterationAccess) := do
  let config := params.config
  let spMix := (← s.getR config.readReg0) ^^^ (← s.getR config.readReg1)
  let spAddr0 := (l.spAddr0 ^^^ spMix.setWidth 32) &&& SCRATCHPAD_L3_MASK64
  let spAddr1 := (l.spAddr1 ^^^ (spMix >>> 32).setWidth 32) &&& SCRATCHPAD_L3_MASK64
  let s ← loadR s spAddr0.toNat
  let s ← loadF fp s spAddr1.toNat
  let s ← loadE fp config s spAddr1.toNat
  let s ← body s
  let currentReadPtr := readPtr params.datasetOffset l.ma
  let spMix2 := ((← s.getR config.readReg2) ^^^ (← s.getR config.readReg3)).setWidth 32
  let (memMx, memMa) := match version with
    | .V1 => (l.mx ^^^ spMix2, l.ma)
    | .V2 => (l.mx, l.ma ^^^ spMix2)
  let itemNumber := currentReadPtr / BitVec.ofNat 64 CACHE_LINE_SIZE
  let datasetLine ← line itemNumber
  let s ← mixDatasetLine s datasetLine
  -- `mx` and `ma` are swapped
  let l' : LoopState := { ma := memMx, mx := memMa, spAddr0 := 0, spAddr1 := 0 }
  let mp := match version with
    | .V1 => l'.ma
    | .V2 => l'.mx
  let nextReadPtr := readPtr params.datasetOffset mp
  let s ← storeR s spAddr1.toNat
  let s ← combineFE aes version s
  let s ← storeF s spAddr0.toNat
  let nextSpMix := (← s.getR config.readReg0) ^^^ (← s.getR config.readReg1)
  let nextSpAddr0 := nextSpMix.setWidth 32 &&& SCRATCHPAD_L3_MASK64
  let nextSpAddr1 := (nextSpMix >>> 32).setWidth 32 &&& SCRATCHPAD_L3_MASK64
  return ((s, l'),
    { spAddr0 := spAddr0.toNat, spAddr1 := spAddr1.toNat, itemNumber, datasetPrefetch := nextReadPtr,
      scratchpadPrefetch0 := nextSpAddr0.toNat, scratchpadPrefetch1 := nextSpAddr1.toNat })

/-- The loop, with the accesses of every iteration. -/
def prefetchingIterate :
    (iterations : Nat) → VmState × LoopState → Option ((VmState × LoopState) × List IterationAccess)
  | 0, c => some (c, [])
  | iterations + 1, c => do
    let (c, access) ← prefetchingIteration fp aes version params body line c.1 c.2
    let (c, log) ← prefetchingIterate iterations c
    return (c, access :: log)

end

/-! ## One iteration -/

/-- The accesses of an iteration from `(s, l)` that ends in `(s', l')`. -/
def accessOf (version : RxVersion) (params : ProgramParams) (s : VmState) (l : LoopState) (s' : VmState)
    (l' : LoopState) : IterationAccess where
  spAddr0 := (spAddr0 params.config s l).toNat
  spAddr1 := (spAddr1 params.config s l).toNat
  itemNumber := itemNumber params.datasetOffset l.ma
  datasetPrefetch := readPtr params.datasetOffset (match version with | .V1 => l'.ma | .V2 => l'.mx)
  scratchpadPrefetch0 := ((spMix params.config s').setWidth 32 &&& SCRATCHPAD_L3_MASK64).toNat
  scratchpadPrefetch1 := ((spMix params.config s' >>> 32).setWidth 32 &&& SCRATCHPAD_L3_MASK64).toNat

variable {fp : FpUnit} {aes : AesRounds} {version : RxVersion} {params : ProgramParams}
  {body : VmState → Option VmState} {line : Word → Option Line}

/-- **The accesses of an iteration**: the iteration is the one without them, and they are a function of the
    states before and after it. -/
theorem prefetchingIteration_eq (hconfig : params.config.WellFormed) (s : VmState) (l : LoopState) :
    prefetchingIteration fp aes version params body line s l
      = (iteration fp aes version params body line s l).map fun c =>
          (c, accessOf version params s l c.1 c.2) := by
  obtain ⟨h0, h1, _, _⟩ := hconfig
  unfold prefetchingIteration iteration
  simp only [VmState.getR_eq h0, VmState.getR_eq h1, Option.bind_eq_bind, Option.bind_some,
    Option.map_bind, Function.comp_def, Option.pure_def, Option.map_some]
  rw [← spMix]
  cases version <;> rfl

/-- What an iteration makes of the loop state. -/
theorem loopState_of_iteration (hconfig : params.config.WellFormed) {s : VmState} {l : LoopState}
    {c : VmState × LoopState} (h : iteration fp aes version params body line s l = some c) :
    c.2.spAddr0 = 0 ∧ c.2.spAddr1 = 0 ∧ (version = .V2 → c.2.ma = l.mx) := by
  rw [iteration_eq_bind hconfig] at h
  obtain ⟨s', _, hline⟩ := Option.bind_eq_some_iff.mp h
  obtain ⟨dataLine, _, rfl⟩ := Option.map_eq_some_iff.mp hline
  cases version with
  | V1 => exact ⟨rfl, rfl, nofun⟩
  | V2 => exact ⟨rfl, rfl, fun _ => rfl⟩

/-! ## A run -/

/-- **The prefetches change nothing.** -/
theorem map_prefetchingIterate (hconfig : params.config.WellFormed) (iterations : Nat)
    (c : VmState × LoopState) :
    (prefetchingIterate fp aes version params body line iterations c).map Prod.fst
      = iterate fp aes version params body line iterations c := by
  induction iterations generalizing c with
  | zero => rfl
  | succ iterations ih =>
    rw [iterate, prefetchingIterate, prefetchingIteration_eq hconfig]
    cases iteration fp aes version params body line c.1 c.2 with
    | none => rfl
    | some c₁ =>
      simp only [Option.map_some, Option.bind_eq_bind, Option.bind_some]
      rw [← ih c₁]
      cases prefetchingIterate fp aes version params body line iterations c₁ <;> rfl

/-- A sequence of states with one more in front. -/
def startingWith {σ : Type} (s : σ) (states : Nat → σ) : Nat → σ
  | 0 => s
  | i + 1 => states i

/-- **A run is a chain of iterations**, whose accesses are the log. -/
theorem exists_states (hconfig : params.config.WellFormed) {iterations : Nat} {c c' : VmState × LoopState}
    {log : List IterationAccess}
    (h : prefetchingIterate fp aes version params body line iterations c = some (c', log)) :
    log.length = iterations ∧ ∃ states : Nat → VmState × LoopState, states 0 = c ∧ states iterations = c' ∧
      ∀ i < iterations,
        iteration fp aes version params body line (states i).1 (states i).2 = some (states (i + 1)) ∧
        log[i]? = some (accessOf version params (states i).1 (states i).2 (states (i + 1)).1
          (states (i + 1)).2) := by
  induction iterations generalizing c log with
  | zero =>
    obtain ⟨rfl, rfl⟩ := Prod.mk.inj (Option.some.inj h)
    exact ⟨rfl, fun _ => c, rfl, rfl, fun i hi => absurd hi (Nat.not_lt_zero i)⟩
  | succ iterations ih =>
    rw [prefetchingIterate, prefetchingIteration_eq hconfig] at h
    cases hstep : iteration fp aes version params body line c.1 c.2 with
    | none =>
      rw [hstep] at h
      cases h
    | some c₁ =>
      rw [hstep] at h
      simp only [Option.map_some, Option.bind_eq_bind, Option.bind_some, Option.bind_eq_some_iff] at h
      obtain ⟨⟨c₂, log'⟩, hrest, heq⟩ := h
      obtain ⟨rfl, rfl⟩ := Prod.mk.inj (Option.some.inj heq)
      obtain ⟨hlen, states, hzero, hlast, hstates⟩ := ih hrest
      refine ⟨by rw [List.length_cons, hlen], startingWith c states, rfl, hlast, ?_⟩
      intro i hi
      cases i with
      | zero =>
        simp only [startingWith, hzero]
        exact ⟨hstep, rfl⟩
      | succ i => exact hstates i (by omega)

/-! ## Prefetches hit -/

theorem toNat_mod_64 {x : Word} (h : ∀ k < 6, x.getLsbD k = false) : x.toNat % 64 = 0 := by
  have hmod : x.toNat % 2 ^ 6 = 0 := by
    apply Nat.eq_of_testBit_eq
    intro k
    rw [Nat.testBit_mod_two_pow, Nat.zero_testBit]
    by_cases hk : k < 6
    · rw [show x.toNat.testBit k = false from h k hk, Bool.and_false]
    · simp [hk]
  exact hmod

/-- The address of a dataset item, for an offset that is a whole number of cache lines. -/
theorem itemNumber_mul {datasetOffset : Word} (h : datasetOffset.toNat % 64 = 0) (memMa : BitVec 32) :
    itemNumber datasetOffset memMa * BitVec.ofNat 64 CACHE_LINE_SIZE = readPtr datasetOffset memMa := by
  have hma : (memMa.setWidth 64 &&& CACHE_LINE_ALIGN_MASK.setWidth 64).toNat % 64 = 0 := by
    have hmask : ∀ k < 6, (CACHE_LINE_ALIGN_MASK.setWidth 64).getLsbD k = false := by decide
    refine toNat_mod_64 fun k hk => ?_
    rw [BitVec.getLsbD_and, hmask k hk, Bool.and_false]
  have hle : (memMa.setWidth 64 &&& CACHE_LINE_ALIGN_MASK.setWidth 64).toNat ≤ 2147483584 := by
    rw [BitVec.toNat_and, show (CACHE_LINE_ALIGN_MASK.setWidth 64).toNat = 2147483584 by decide]
    exact Nat.and_le_right
  have hline : (BitVec.ofNat 64 CACHE_LINE_SIZE).toNat = 64 := by decide
  apply BitVec.eq_of_toNat_eq
  rw [BitVec.toNat_mul, itemNumber, BitVec.toNat_udiv, hline, readPtr, BitVec.toNat_add]
  omega

/-- **What is prefetched is used later**: the scratchpad blocks in the next iteration, the dataset line in the
    next one of V1 and in the one after it of V2. -/
theorem prefetch_spec (hconfig : params.config.WellFormed) (halign : params.datasetOffset.toNat % 64 = 0)
    {iterations : Nat} {c c' : VmState × LoopState} {log : List IterationAccess}
    (h : prefetchingIterate fp aes version params body line iterations c = some (c', log)) :
    (∀ (i : Nat) (a b : IterationAccess), log[i]? = some a → log[i + 1]? = some b →
      a.scratchpadPrefetch0 = b.spAddr0 ∧ a.scratchpadPrefetch1 = b.spAddr1 ∧
      (version = .V1 → a.datasetPrefetch = b.itemNumber * BitVec.ofNat 64 CACHE_LINE_SIZE)) ∧
    (version = .V2 → ∀ (i : Nat) (a b : IterationAccess), log[i]? = some a → log[i + 2]? = some b →
      a.datasetPrefetch = b.itemNumber * BitVec.ofNat 64 CACHE_LINE_SIZE) := by
  obtain ⟨hlen, states, _, _, hstates⟩ := exists_states hconfig h
  have hbound : ∀ {i : Nat} {a : IterationAccess}, log[i]? = some a → i < iterations := fun ha =>
    hlen ▸ (List.getElem?_eq_some_iff.mp ha).1
  refine ⟨fun i a b ha hb => ?_, fun hversion i a b ha hb => ?_⟩
  · obtain ⟨hstep, hlog⟩ := hstates i (hbound ha)
    obtain ⟨_, hlog'⟩ := hstates (i + 1) (hbound hb)
    obtain ⟨hzero0, hzero1, _⟩ := loopState_of_iteration hconfig hstep
    obtain rfl := Option.some.inj (ha.symm.trans hlog)
    obtain rfl := Option.some.inj (hb.symm.trans hlog')
    refine ⟨?_, ?_, ?_⟩
    · simp [accessOf, spAddr0, hzero0]
    · simp [accessOf, spAddr1, hzero1]
    · rintro rfl
      simp only [accessOf, itemNumber_mul halign]
  · subst hversion
    obtain ⟨_, hlog⟩ := hstates i (hbound ha)
    obtain ⟨hstep, _⟩ := hstates (i + 1) (by have := hbound hb; omega)
    obtain ⟨_, hlog'⟩ := hstates (i + 2) (hbound hb)
    obtain ⟨_, _, hma⟩ := loopState_of_iteration hconfig hstep
    obtain rfl := Option.some.inj (ha.symm.trans hlog)
    obtain rfl := Option.some.inj (hb.symm.trans hlog')
    simp only [accessOf, itemNumber_mul halign]
    rw [show i + 2 = i + 1 + 1 from rfl, hma rfl]

/-- The dataset offset of a program is a whole number of cache lines. -/
theorem datasetOffset_aligned {n : Nat} (programBytes : Vector Byte n) :
    (deriveProgramParams programBytes).datasetOffset.toNat % 64 = 0 := by
  have hline : (BitVec.ofNat 64 CACHE_LINE_SIZE).toNat = 64 := by decide
  simp only [deriveProgramParams]
  rw [BitVec.toNat_mul, hline]
  omega

end RandomX
end MinerTim
