import MinerTim.RandomX.Jit.BodyCall
import MinerTim.RandomX.Jit.Memory
import MinerTim.RandomX.Jit.WordsSpec

/-!
# `RandomX.Jit.MemorySpec` — a call runs the code that was compiled

The words of a compiler that is not being written are in memory, executable, and no cache holds anything else for them
(`Resident`). A step touches one region, and all that is known of the others stays (`Frame`), so this is a protocol of
the threads (`protocol_jit`): no thread has to know what another one does.

A call then takes the steps of the machine on the decoded words (`Follows`), whichever cores it runs on. It faults only
where these steps are stuck themselves. Where nothing fails a compile ends (`exists_alone_written`), and so does a call
of code that returns (`alone_returned`).
-/

namespace MinerTim
namespace RandomX
namespace Memory

open Arm64 SharedThreads

section

variable {ι κ ρ : Type} {fp : FpOps} {b : Backend} {g g' g'' : Shared ι κ ρ} {t t' : Thread ρ} {i j : ι} {r r₀ : ρ}
  {c : Compiler}

/-! ## Invariants -/

/-- The first `n` words are in memory. -/
def Written (g : Shared ι κ ρ) (r : ρ) (words : List U32) (n : Nat) : Prop :=
  ∀ k w, k < n → words[k]? = some w → g.code.word (r, k) = w

/-- No cache holds anything else for the first `n` words. -/
def Flushed (g : Shared ι κ ρ) (r : ρ) (n : Nat) : Prop := ∀ k, k < n → g.code.Coherent (r, k)

/-- The region of a compiler is mapped, at its size. -/
def MappedAs (g : Shared ι κ ρ) (r : ρ) (c : Compiler) (prot : Prot) : Prop :=
  g.mapped r = some { size := c.memory.size, prot }

/-- The code of a compiler, ready to be run. -/
structure Resident (b : Backend) (g : Shared ι κ ρ) (r : ρ) (c : Compiler) : Prop where
  fits : c.emitter.length * 4 ≤ c.memory.size
  mapped : MappedAs g r c b.executeProt
  written : Written g r c.emitter c.emitter.length
  flushed : Flushed g r c.emitter.length

/-- A run of the words from `start` comes to `o`, unless it gets stuck. -/
def Follows (fp : FpOps) (words : List U32) (start : State) (o : Outcome) : Prop :=
  ∀ code, decodeAll words = some code → (∃ n, run fp code n 0 start = o) ∨ ∃ n, run fp code n 0 start = .stuck

/-- On macOS the bit of the thread is set. -/
def Protected (b : Backend) (t : Thread ρ) : Prop := b = .macos → t.writeProtected = true

/-- On macOS the bit of the thread is clear. -/
def Unprotected (b : Backend) (t : Thread ρ) : Prop := b = .macos → t.writeProtected = false

/-- What holds inside `write_code`. -/
def StageOk (b : Backend) (g : Shared ι κ ρ) (t : Thread ρ) (r : ρ) (c : Compiler) : Stage → Prop
  | .checkLen => Protected b t
  | .enableWrite => Protected b t ∧ c.emitter.length * 4 ≤ c.memory.size
  | .copy k =>
    Unprotected b t ∧ c.emitter.length * 4 ≤ c.memory.size ∧ MappedAs g r c b.allocProt ∧ Written g r c.emitter k
  | .enableExecute =>
    c.emitter.length * 4 ≤ c.memory.size ∧ Written g r c.emitter c.emitter.length ∧
      c.memory.codeLen = c.emitter.length * 4
  | .flush k =>
    Protected b t ∧ c.emitter.length * 4 ≤ c.memory.size ∧ MappedAs g r c b.executeProt ∧
      Written g r c.emitter c.emitter.length ∧ c.memory.codeLen = c.emitter.length * 4 ∧ Flushed g r k

/-- What holds where a thread is. -/
def PointOk (fp : FpOps) (b : Backend) (g : Shared ι κ ρ) (t : Thread ρ) : Point ρ → Prop
  | .idle => Protected b t
  | .compiling r _ stage => ∃ c, t.compilers r = some c ∧ StageOk b g t r c stage
  | .calling r start pc s =>
    Protected b t ∧ ∃ c, t.compilers r = some c ∧ Resident b g r c ∧ Follows fp c.emitter start (.running pc s)
  | .returned r start s => Protected b t ∧ ∃ c, t.compilers r = some c ∧ Follows fp c.emitter start (.returned s)
  | .panicked _ => True
  | .faulted point =>
    ∃ r start pc s c, point = .calling r start pc s ∧ t.compilers r = some c ∧ Follows fp c.emitter start .stuck

/-- The region is being written, or was when the thread panicked. -/
def Point.Busy : Point ρ → ρ → Prop
  | .compiling r _ _, r' => r' = r
  | .panicked point, r' => point.Busy r'
  | .faulted point, r' => point.Busy r'
  | _, _ => False

/-- What a thread knows of a region that it has a compiler for. -/
structure RegionOk (b : Backend) (g : Shared ι κ ρ) (i : ι) (t : Thread ρ) (r : ρ) : Prop where
  owner : ∀ c, t.compilers r = some c → g.owner r = some i
  mapped : ∀ c, t.compilers r = some c → ∃ prot, MappedAs g r c prot
  resident : ∀ c kind, t.compilers r = some c → ¬ t.point.Busy r → c.kind = some kind → Resident b g r c

/-- What holds of a thread. -/
structure ThreadOk (fp : FpOps) (b : Backend) (i : ι) (g : Shared ι κ ρ) (t : Thread ρ) : Prop where
  region : ∀ r, RegionOk b g i t r
  point : PointOk fp b g t t.point

/-- What holds of a region, whoever has it. -/
structure SharedOk (b : Backend) (g : Shared ι κ ρ) (r : ρ) : Prop where
  prot : ∀ m, g.mapped r = some m → m.prot = b.allocProt ∨ m.prot = b.executeProt
  unmapped : g.mapped r = none → g.owner r = none ∧ g.parked r = none
  parked : ∀ c, g.parked r = some c → g.owner r = none ∧ (∃ prot, MappedAs g r c prot) ∧
    ∀ kind, c.kind = some kind → Resident b g r c

/-! ## Runs of the decoded words -/

/-- One step of a call. -/
theorem Follows.step {words : List U32} {start s : State} {pc : Nat} {o : Outcome}
    (h : Follows fp words start (.running pc s))
    (hstep : ∀ code, decodeAll words = some code → Arm64.step fp code pc s = o) : Follows fp words start o := by
  intro code hcode
  rcases h code hcode with ⟨n, hn⟩ | hstuck
  · exact .inl ⟨n + 1, (run_succ hn).trans (hstep code hcode)⟩
  · exact .inr hstuck

theorem Follows.of_stuck {words : List U32} {start : State} (h : Follows fp words start .stuck) (o : Outcome) :
    Follows fp words start o := by
  intro code hcode
  exact .inr (or_self_iff.mp (h code hcode))

/-! ## Regions that a step leaves alone -/

/-- What is known of a region stays. -/
structure Frame (g g' : Shared ι κ ρ) (r : ρ) : Prop where
  mapped : g'.mapped r = g.mapped r
  owner : g'.owner r = g.owner r
  parked : g'.parked r = g.parked r
  word : ∀ k, g'.code.word (r, k) = g.code.word (r, k)
  coherent : ∀ k, g.code.Coherent (r, k) → g'.code.Coherent (r, k)

namespace Frame

theorem refl (g : Shared ι κ ρ) (r : ρ) : Frame g g r := ⟨rfl, rfl, rfl, fun _ => rfl, fun _ h => h⟩

theorem trans (h : Frame g g' r) (h' : Frame g' g'' r) : Frame g g'' r where
  mapped := h'.mapped.trans h.mapped
  owner := h'.owner.trans h.owner
  parked := h'.parked.trans h.parked
  word k := (h'.word k).trans (h.word k)
  coherent k hk := h'.coherent k (h.coherent k hk)

theorem mappedAs (h : Frame g g' r) {prot : Prot} (hm : MappedAs g r c prot) : MappedAs g' r c prot :=
  h.mapped.trans hm

theorem written (h : Frame g g' r) {words : List U32} {n : Nat} (hw : Written g r words n) : Written g' r words n :=
  fun k w hk hget => (h.word k).trans (hw k w hk hget)

theorem flushed (h : Frame g g' r) {n : Nat} (hf : Flushed g r n) : Flushed g' r n :=
  fun k hk => h.coherent k (hf k hk)

theorem resident (h : Frame g g' r) (hres : Resident b g r c) : Resident b g' r c where
  fits := hres.fits
  mapped := h.mappedAs hres.mapped
  written := h.written hres.written
  flushed := h.flushed hres.flushed

theorem stageOk (h : Frame g g' r) {stage : Stage} (hst : StageOk b g t r c stage) : StageOk b g' t r c stage := by
  cases stage with
  | checkLen => exact hst
  | enableWrite => exact hst
  | copy k =>
    obtain ⟨hbit, hfits, hmapped, hwritten⟩ := hst
    exact ⟨hbit, hfits, h.mappedAs hmapped, h.written hwritten⟩
  | enableExecute =>
    obtain ⟨hfits, hwritten, hlen⟩ := hst
    exact ⟨hfits, h.written hwritten, hlen⟩
  | flush k =>
    obtain ⟨hbit, hfits, hmapped, hwritten, hlen, hflushed⟩ := hst
    exact ⟨hbit, hfits, h.mappedAs hmapped, h.written hwritten, hlen, h.flushed hflushed⟩

theorem sharedOk (h : Frame g g' r) (hG : SharedOk b g r) : SharedOk b g' r where
  prot m hm := hG.prot m (h.mapped ▸ hm)
  unmapped hm := by
    rw [h.owner, h.parked]
    exact hG.unmapped (h.mapped ▸ hm)
  parked c hc := by
    obtain ⟨howner, ⟨prot, hmapped⟩, hres⟩ := hG.parked c (h.parked ▸ hc)
    exact ⟨h.owner.trans howner, ⟨prot, h.mappedAs hmapped⟩, fun kind hkind => h.resident (hres kind hkind)⟩

theorem regionOk (h : Frame g g' r) (hL : RegionOk b g i t r) : RegionOk b g' i t r where
  owner c hc := h.owner.trans (hL.owner c hc)
  mapped c hc := by
    obtain ⟨prot, hmapped⟩ := hL.mapped c hc
    exact ⟨prot, h.mappedAs hmapped⟩
  resident c kind hc hbusy hkind := h.resident (hL.resident c kind hc hbusy hkind)

end Frame

/-- **A thread sees no change** where its own regions are left alone. -/
theorem ThreadOk.frame (h : ThreadOk fp b i g t) (hframe : ∀ r, g.owner r = some i → Frame g g' r) :
    ThreadOk fp b i g' t := by
  have hof : ∀ r c, t.compilers r = some c → Frame g g' r := fun r c hc => hframe r ((h.region r).owner c hc)
  constructor
  · intro r
    constructor
    · intro c hc
      exact ((hof r c hc).regionOk (h.region r)).owner c hc
    · intro c hc
      exact ((hof r c hc).regionOk (h.region r)).mapped c hc
    · intro c kind hc
      exact ((hof r c hc).regionOk (h.region r)).resident c kind hc
  · have hpoint := h.point
    cases hp : t.point with
    | idle =>
      rw [hp] at hpoint
      exact hpoint
    | compiling r kind stage =>
      rw [hp] at hpoint
      obtain ⟨c, hc, hst⟩ := hpoint
      exact ⟨c, hc, (hof r c hc).stageOk hst⟩
    | calling r start pc s =>
      rw [hp] at hpoint
      obtain ⟨hbit, c, hc, hres, hfollows⟩ := hpoint
      exact ⟨hbit, c, hc, (hof r c hc).resident hres, hfollows⟩
    | returned r start s =>
      rw [hp] at hpoint
      exact hpoint
    | panicked point => trivial
    | faulted point =>
      rw [hp] at hpoint
      exact hpoint

end

/-! ## One step -/

section

variable {ι κ ρ : Type} [DecidableEq ι] [DecidableEq κ] [DecidableEq ρ] {fp : FpOps} {b : Backend}
  {g g' : Shared ι κ ρ} {t t' : Thread ρ} {i j : ι} {r r₀ : ρ} {c : Compiler}

omit [DecidableEq ι] [DecidableEq κ] in
theorem frame_map (h : r ≠ r₀) (m : Option Mapping) : Frame g (g.map r₀ m) r :=
  ⟨Function.update_of_ne h _ _, rfl, rfl, fun _ => rfl, fun _ hk => hk⟩

omit [DecidableEq ι] [DecidableEq κ] in
theorem frame_own (h : r ≠ r₀) (i : Option ι) : Frame g (g.own r₀ i) r :=
  ⟨rfl, Function.update_of_ne h _ _, rfl, fun _ => rfl, fun _ hk => hk⟩

omit [DecidableEq ι] [DecidableEq κ] in
theorem frame_park (h : r ≠ r₀) (c : Option Compiler) : Frame g (g.park r₀ c) r :=
  ⟨rfl, rfl, Function.update_of_ne h _ _, fun _ => rfl, fun _ hk => hk⟩

omit [DecidableEq ι] [DecidableEq κ] in
theorem frame_zero (h : r ≠ r₀) : Frame g (g.zero r₀) r := by
  have hword : ∀ k, (g.zero r₀).code.word (r, k) = g.code.word (r, k) := by
    intro k
    simp [Shared.zero, h]
  refine ⟨rfl, rfl, rfl, hword, ?_⟩
  intro k hk core w hw
  rw [hword]
  exact hk core w hw

omit [DecidableEq ι] [DecidableEq κ] in
theorem frame_store (h : r ≠ r₀) (k₀ : Nat) (w : U32) : Frame g { g with code := g.code.store (r₀, k₀) w } r := by
  have hne : ∀ k, (r, k) ≠ (r₀, k₀) := by
    intro k heq
    exact h (congrArg Prod.fst heq)
  exact ⟨rfl, rfl, rfl, fun k => CodeMemory.word_store_of_ne (hne k) _ _, fun k hk => hk.store (hne k) w⟩

omit [DecidableEq ι] [DecidableEq κ] in
theorem frame_invalidate (k₀ : Nat) : Frame g { g with code := g.code.invalidate (r₀, k₀) } r :=
  ⟨rfl, rfl, rfl, fun _ => rfl, fun _ hk => hk.invalidate⟩

/-- A step of thread `i` touches one region, which is its own or nobody's. -/
structure Touches (i : ι) (g : Shared ι κ ρ) (t : Thread ρ) (g' : Shared ι κ ρ) (t' : Thread ρ) (r₀ : ρ) : Prop where
  owner : g.owner r₀ = some i ∨ g.owner r₀ = none
  frame : ∀ r, r ≠ r₀ → Frame g g' r
  compilers : ∀ r, r ≠ r₀ → t'.compilers r = t.compilers r
  busy : ∀ r, r ≠ r₀ → t.point.Busy r → t'.point.Busy r

/-- What a step has to show. -/
def Keeps (fp : FpOps) (b : Backend) (i : ι) (g : Shared ι κ ρ) (t : Thread ρ) (g' : Shared ι κ ρ) (t' : Thread ρ) :
    Prop :=
  ∃ r₀, Touches i g t g' t' r₀ ∧ SharedOk b g' r₀ ∧ RegionOk b g' i t' r₀ ∧ PointOk fp b g' t' t'.point

omit [DecidableEq ι] [DecidableEq κ] [DecidableEq ρ] in
/-- A step that only moves the thread. -/
theorem keeps_goto (hG : ∀ r, SharedOk b g r) (hL : ThreadOk fp b i g t) {point : Point ρ}
    (howner : g.owner r = some i) (hbusy : ∀ r, t.point.Busy r → point.Busy r)
    (hpoint : PointOk fp b g (t.goto point) point) : Keeps fp b i g t g (t.goto point) := by
  refine ⟨r, ⟨.inl howner, fun r _ => Frame.refl g r, fun _ _ => rfl, fun r _ => hbusy r⟩, hG r, ?_, hpoint⟩
  have hregion := hL.region r
  exact ⟨hregion.owner, hregion.mapped, fun c kind hc hn => hregion.resident c kind hc fun h => hn (hbusy r h)⟩

/-! ### The switches -/

omit [DecidableEq ι] [DecidableEq κ] in
/-- The switch to writing leaves the other regions, and the region of the compiler is writable. -/
theorem enableWrite_spec {rc : Bool} (h : enableWrite b rc r g t = some (g', t')) {prot : Prot}
    (hmapped : MappedAs g r c prot) (hprot : prot = b.allocProt ∨ prot = b.executeProt) :
    (∀ r', r' ≠ r → Frame g g' r') ∧ MappedAs g' r c b.allocProt ∧ g'.owner = g.owner ∧ g'.parked = g.parked ∧
      g'.code = g.code ∧ t'.compilers = t.compilers ∧ Unprotected b t' := by
  cases b with
  | macos =>
    obtain ⟨rfl, rfl⟩ := Prod.mk.inj (Option.some.inj h)
    have hboth : prot = Backend.allocProt .macos := by
      rcases hprot with rfl | rfl <;> rfl
    exact ⟨fun r' _ => Frame.refl g r', hboth ▸ hmapped, rfl, rfl, rfl, rfl, fun _ => rfl⟩
  | linux =>
    cases rc with
    | false => cases h
    | true =>
      obtain ⟨rfl, rfl⟩ := Prod.mk.inj (Option.some.inj h)
      refine ⟨fun r' hr' => frame_map hr' _, ?_, rfl, rfl, rfl, rfl, by intro hb; cases hb⟩
      rw [MappedAs] at hmapped
      simp [MappedAs, Shared.mprotect, Shared.map, hmapped, Backend.allocProt]

omit [DecidableEq ι] [DecidableEq κ] in
theorem enableExecute_spec {rc : Bool} (h : enableExecute b rc r g t = some (g', t')) {prot : Prot}
    (hmapped : MappedAs g r c prot) (hprot : prot = b.allocProt ∨ prot = b.executeProt) :
    (∀ r', r' ≠ r → Frame g g' r') ∧ MappedAs g' r c b.executeProt ∧ g'.owner = g.owner ∧ g'.parked = g.parked ∧
      g'.code = g.code ∧ t'.compilers = t.compilers ∧ Protected b t' := by
  cases b with
  | macos =>
    obtain ⟨rfl, rfl⟩ := Prod.mk.inj (Option.some.inj h)
    have hboth : prot = Backend.executeProt .macos := by
      rcases hprot with rfl | rfl <;> rfl
    exact ⟨fun r' _ => Frame.refl g r', hboth ▸ hmapped, rfl, rfl, rfl, rfl, fun _ => rfl⟩
  | linux =>
    cases rc with
    | false => cases h
    | true =>
      obtain ⟨rfl, rfl⟩ := Prod.mk.inj (Option.some.inj h)
      refine ⟨fun r' hr' => frame_map hr' _, ?_, rfl, rfl, rfl, rfl, by intro hb; cases hb⟩
      rw [MappedAs] at hmapped
      simp [MappedAs, Shared.mprotect, Shared.map, hmapped, Backend.executeProt]

/-! ### `write_code` -/

omit [DecidableEq ι] [DecidableEq κ] [DecidableEq ρ] in
theorem accessible_of {prot : Prot} {may : Prot → Bool} {k : Nat} (hmapped : MappedAs g r c prot)
    (hfits : 4 * (k + 1) ≤ c.memory.size) (hmay : may prot = true) : g.accessible may r k = true := by
  unfold Shared.accessible
  rw [hmapped]
  simp [hfits, hmay]

omit [DecidableEq ρ] in
theorem writable_allocProt (h : Unprotected b t) : b.writable b.allocProt t.writeProtected = true := by
  cases b with
  | macos => simp [Backend.writable, Backend.allocProt, h rfl]
  | linux => rfl

omit [DecidableEq ρ] in
theorem executable_executeProt (h : Protected b t) : b.executable b.executeProt t.writeProtected = true := by
  cases b with
  | macos => simp [Backend.executable, Backend.executeProt, h rfl]
  | linux => rfl

omit [DecidableEq ι] [DecidableEq κ] [DecidableEq ρ] in
theorem SharedOk.not_parked (h : SharedOk b g r) (howner : g.owner r = some i) : g.parked r = none := by
  cases hparked : g.parked r with
  | none => rfl
  | some c =>
    have hnone := (h.parked c hparked).1
    rw [howner] at hnone
    cases hnone

omit [DecidableEq ι] [DecidableEq κ] [DecidableEq ρ] in
theorem sharedOk_owned {prot : Prot} (hmapped : MappedAs g r c prot)
    (hprot : prot = b.allocProt ∨ prot = b.executeProt) (hparked : g.parked r = none) : SharedOk b g r where
  prot m hm := by
    obtain rfl := Option.some.inj (hmapped.symm.trans hm)
    exact hprot
  unmapped hm := by
    rw [MappedAs, hm] at hmapped
    cases hmapped
  parked c hc := by
    rw [hparked] at hc
    cases hc

omit [DecidableEq ι] [DecidableEq κ] [DecidableEq ρ] in
theorem regionOk_busy {prot : Prot} (hc : t.compilers r = some c) (howner : g.owner r = some i)
    (hmapped : MappedAs g r c prot) (hbusy : t.point.Busy r) : RegionOk b g i t r where
  owner _ _ := howner
  mapped c' hc' := by
    obtain rfl := Option.some.inj (hc.symm.trans hc')
    exact ⟨prot, hmapped⟩
  resident _ _ _ hn _ := absurd hbusy hn

omit [DecidableEq ι] [DecidableEq κ] [DecidableEq ρ] in
theorem regionOk_put {prot : Prot} (hc : t.compilers r = some c) (howner : g.owner r = some i)
    (hmapped : MappedAs g r c prot) (hresident : ∀ kind, c.kind = some kind → Resident b g r c) :
    RegionOk b g i t r where
  owner _ _ := howner
  mapped c' hc' := by
    obtain rfl := Option.some.inj (hc.symm.trans hc')
    exact ⟨prot, hmapped⟩
  resident c' kind hc' _ hkind := by
    obtain rfl := Option.some.inj (hc.symm.trans hc')
    exact hresident kind hkind

omit [DecidableEq ι] [DecidableEq κ] in
/-- **A step of `write_code`.** -/
theorem write_keeps (hG : ∀ r, SharedOk b g r) (hL : ThreadOk fp b i g t) (rc : Bool) {kind : CompiledKind}
    {stage : Stage} (hpoint : t.point = .compiling r kind stage) (hc : t.compilers r = some c) :
    Keeps fp b i g t (writeStep b rc r kind stage c g t).1 (writeStep b rc r kind stage c g t).2 := by
  have howner := (hL.region r).owner c hc
  obtain ⟨prot, hmapped⟩ := (hL.region r).mapped c hc
  have hprot := (hG r).prot _ hmapped
  have hparked := (hG r).not_parked howner
  have hstage : StageOk b g t r c stage := by
    have hpt := hL.point
    rw [hpoint] at hpt
    obtain ⟨c', hc', hst⟩ := hpt
    obtain rfl := Option.some.inj (hc.symm.trans hc')
    exact hst
  have hbusy : ∀ stage' r', t.point.Busy r' → (Point.compiling r kind stage').Busy r' := by
    intro stage' r' h
    rw [hpoint] at h
    exact h
  have hpanic : Keeps fp b i g t g t.panic := keeps_goto hG hL howner (fun _ h => h) trivial
  cases stage with
  | checkLen =>
    unfold writeStep
    dsimp only
    split
    case isTrue hfits => exact keeps_goto hG hL howner (hbusy _) ⟨c, hc, hstage, hfits⟩
    case isFalse => exact hpanic
  | enableWrite =>
    obtain ⟨-, hfits⟩ := hstage
    cases henable : enableWrite b rc r g t with
    | none =>
      simp only [writeStep, henable]
      exact hpanic
    | some x =>
      obtain ⟨g', t'⟩ := x
      obtain ⟨hframe, hmapped', howner', hparked', -, hcompilers, hbit⟩ := enableWrite_spec henable hmapped hprot
      have hc' : t'.compilers r = some c := (congrFun hcompilers r).trans hc
      simp only [writeStep, henable]
      refine ⟨r, ⟨.inl howner, hframe, fun r' _ => congrFun hcompilers r', fun r' _ => hbusy _ r'⟩,
        sharedOk_owned hmapped' (.inl rfl) ((congrFun hparked' r).trans hparked),
        regionOk_busy hc' ((congrFun howner' r).trans howner) hmapped' rfl, c, hc', hbit, hfits, hmapped', ?_⟩
      intro k w hk
      exact absurd hk (Nat.not_lt_zero k)
  | copy k =>
    obtain ⟨hbit, hfits, hmapped', hwritten⟩ := hstage
    cases hget : c.emitter[k]? with
    | none =>
      have hlen : c.emitter.length ≤ k := List.getElem?_eq_none_iff.mp hget
      simp only [writeStep, hget]
      refine ⟨r, ⟨.inl howner, fun r' _ => Frame.refl g r', fun r' hr' => Function.update_of_ne hr' _ _,
        fun r' _ => hbusy _ r'⟩, hG r, regionOk_busy (Function.update_self _ _ _) howner hmapped rfl, _,
        Function.update_self _ _ _, hfits, ?_, rfl⟩
      intro k' w hk' hw
      exact hwritten k' w (hk'.trans_le hlen) hw
    | some w =>
      have hk : k < c.emitter.length := (List.getElem?_eq_some_iff.mp hget).1
      have hallowed : g.accessible (b.writable · t.writeProtected) r k = true :=
        accessible_of hmapped' (by omega) (writable_allocProt hbit)
      simp only [writeStep, hget, hallowed, if_true]
      refine ⟨r, ⟨.inl howner, fun r' hr' => frame_store hr' k w, fun _ _ => rfl, fun r' _ => hbusy _ r'⟩,
        sharedOk_owned hmapped' (.inl rfl) hparked, regionOk_busy hc howner hmapped' rfl, c, hc, hbit, hfits,
        hmapped', ?_⟩
      intro k' w' hk' hw'
      by_cases heq : k' = k
      · subst heq
        obtain rfl := Option.some.inj (hget.symm.trans hw')
        exact Function.update_self _ _ _
      · have hne : (r, k') ≠ (r, k) := fun h => heq (congrArg Prod.snd h)
        refine (CodeMemory.word_store_of_ne hne _ _).trans (hwritten k' w' ?_ hw')
        omega
  | enableExecute =>
    obtain ⟨hfits, hwritten, hlen⟩ := hstage
    cases henable : enableExecute b rc r g t with
    | none =>
      simp only [writeStep, henable]
      exact hpanic
    | some x =>
      obtain ⟨g', t'⟩ := x
      obtain ⟨hframe, hmapped', howner', hparked', hcode, hcompilers, hbit⟩ :=
        enableExecute_spec henable hmapped hprot
      have hc' : t'.compilers r = some c := (congrFun hcompilers r).trans hc
      simp only [writeStep, henable]
      refine ⟨r, ⟨.inl howner, hframe, fun r' _ => congrFun hcompilers r', fun r' _ => hbusy _ r'⟩,
        sharedOk_owned hmapped' (.inr rfl) ((congrFun hparked' r).trans hparked),
        regionOk_busy hc' ((congrFun howner' r).trans howner) hmapped' rfl, c, hc', hbit, hfits, hmapped', ?_, hlen,
        ?_⟩
      · intro k w hk hw
        rw [hcode]
        exact hwritten k w hk hw
      · intro k hk
        exact absurd hk (Nat.not_lt_zero k)
  | flush k =>
    obtain ⟨hbit, hfits, hmapped', hwritten, hlen, hflushed⟩ := hstage
    unfold writeStep
    dsimp only
    split
    case isTrue hk =>
      refine ⟨r, ⟨.inl howner, fun r' _ => frame_invalidate k, fun _ _ => rfl, fun r' _ => hbusy _ r'⟩,
        sharedOk_owned hmapped' (.inr rfl) hparked, regionOk_busy hc howner hmapped' rfl, c, hc, hbit, hfits,
        hmapped', hwritten, hlen, ?_⟩
      intro k' hk'
      by_cases heq : k' = k
      · subst heq
        exact CodeMemory.coherent_invalidate _ _
      · exact (hflushed k' (by omega)).invalidate
    case isFalse hk =>
      -- every word of the code has been invalidated, so the code is ready
      have hall : c.emitter.length ≤ k := by omega
      have hresident : Resident b g r { c with kind := some kind } :=
        ⟨hfits, hmapped', hwritten, fun k' hk' => hflushed k' (Nat.lt_of_lt_of_le hk' hall)⟩
      refine ⟨r, ⟨.inl howner, fun r' _ => Frame.refl g r', fun r' hr' => Function.update_of_ne hr' _ _, ?_⟩, hG r,
        regionOk_put (Function.update_self _ _ _) howner hresident.mapped (fun _ _ => hresident), hbit⟩
      intro r' hr' h
      exact absurd (hbusy (.flush k) r' h) hr'

/-! ### Calls -/

omit [DecidableEq ι] [DecidableEq κ] [DecidableEq ρ] in
/-- A word of code that is ready is let through, and no core sees another one. -/
theorem Resident.fetch (h : Resident b g r c) (hbit : Protected b t) (core : κ) {pc : Nat} {w : U32}
    (hw : c.emitter[pc]? = some w) :
    g.accessible (b.executable · t.writeProtected) r pc = true ∧ g.code.fetched core (r, pc) = w := by
  have hpc : pc < c.emitter.length := (List.getElem?_eq_some_iff.mp hw).1
  have hfits := h.fits
  constructor
  · exact accessible_of h.mapped (by omega) (executable_executeProt hbit)
  · exact ((h.flushed pc hpc).fetched_eq core).trans (h.written pc w hpc hw)

omit [DecidableEq ι] [DecidableEq κ] [DecidableEq ρ] in
/-- **A step of a call** fetches a word of the code that was compiled, on any core. -/
theorem fetch_keeps (hG : ∀ r, SharedOk b g r) (hL : ThreadOk fp b i g t) (core : κ) {start s : State} {pc : Nat}
    (hpoint : t.point = .calling r start pc s) :
    Keeps fp b i g t g (fetchStep fp b core r start pc s g t) := by
  have hpt := hL.point
  rw [hpoint] at hpt
  obtain ⟨hbit, c, hc, hresident, hfollows⟩ := hpt
  have howner := (hL.region r).owner c hc
  have hidle : ∀ point r', t.point.Busy r' → Point.Busy point r' := by
    intro point r' h
    rw [hpoint] at h
    exact h.elim
  have hrunning : ∀ pc' s', Follows fp c.emitter start (.running pc' s') →
      Keeps fp b i g t g (t.goto (.calling r start pc' s')) :=
    fun pc' s' h => keeps_goto hG hL howner (hidle _) ⟨hbit, c, hc, hresident, h⟩
  have hreturned : ∀ s', Follows fp c.emitter start (.returned s') →
      Keeps fp b i g t g (t.goto (.returned r start s')) :=
    fun s' h => keeps_goto hG hL howner (hidle _) ⟨hbit, c, hc, h⟩
  have hfault : Follows fp c.emitter start .stuck → Keeps fp b i g t g t.fault :=
    fun h => keeps_goto hG hL howner (hidle _) ⟨r, start, pc, s, c, hpoint, hc, h⟩
  unfold fetchStep
  cases hw : c.emitter[pc]? with
  | none =>
    -- outside the code anything may be fetched, and the machine on the words is stuck
    have hstuck : Follows fp c.emitter start .stuck := by
      apply hfollows.step
      intro code hcode
      apply step_of_none
      rw [getElem?_decodeAll hcode, hw]
      rfl
    split
    · split
      · exact hfault hstuck
      · split
        · exact hrunning _ _ (hstuck.of_stuck _)
        · exact hreturned _ (hstuck.of_stuck _)
        · exact hfault hstuck
    · exact hfault hstuck
  | some w =>
    obtain ⟨hallowed, hfetched⟩ := hresident.fetch hbit core hw
    have hinst : ∀ code, decodeAll c.emitter = some code → code[pc]? = decode w := by
      intro code hcode
      rw [getElem?_decodeAll hcode, hw]
      rfl
    rw [if_pos hallowed, hfetched]
    cases hdecode : decode w with
    | none => exact hfault (hfollows.step fun code hcode => step_of_none ((hinst code hcode).trans hdecode))
    | some inst =>
      have hnext : Follows fp c.emitter start (issue fp inst pc s) :=
        hfollows.step fun code hcode => step_eq_issue ((hinst code hcode).trans hdecode)
      dsimp only
      cases hissue : issue fp inst pc s with
      | running pc' s' => exact hrunning pc' s' (hissue ▸ hnext)
      | returned s' => exact hreturned s' (hissue ▸ hnext)
      | stuck => exact hfault (hissue ▸ hnext)

/-! ### Every step -/

omit [DecidableEq ι] [DecidableEq κ] [DecidableEq ρ] in
theorem regionOk_none (h : t.compilers r = none) : RegionOk b g i t r := by
  constructor
  · intro c hc
    cases h.symm.trans hc
  · intro c hc
    cases h.symm.trans hc
  · intro c kind hc
    cases h.symm.trans hc

omit [DecidableEq ι] [DecidableEq κ] [DecidableEq ρ] in
theorem ThreadOk.protected_of_idle (h : ThreadOk fp b i g t) (hidle : t.point = .idle) : Protected b t := by
  have hpoint := h.point
  rw [hidle] at hpoint
  exact hpoint

omit [DecidableEq ι] [DecidableEq κ] [DecidableEq ρ] in
/-- A thread that stays idle. -/
theorem ThreadOk.pointOk_idle (h : ThreadOk fp b i g t) (hidle : t.point = .idle) (hpoint : t'.point = t.point)
    (hbit : t'.writeProtected = t.writeProtected) : PointOk fp b g' t' t'.point := by
  rw [hpoint, hidle]
  intro hb
  rw [hbit]
  exact h.protected_of_idle hidle hb

omit [DecidableEq ι] [DecidableEq κ] [DecidableEq ρ] in
theorem Resident.congr (h : Resident b g r c) (hmapped : g'.mapped = g.mapped) (hcode : g'.code = g.code) :
    Resident b g' r c where
  fits := h.fits
  mapped := (congrFun hmapped r).trans h.mapped
  written := by
    unfold Written
    rw [hcode]
    exact h.written
  flushed := by
    unfold Flushed
    rw [hcode]
    exact h.flushed

omit [DecidableEq ι] [DecidableEq κ] in
/-- **A step of a thread** keeps what is known of the region it touches. -/
theorem act_keeps (hG : ∀ r, SharedOk b g r) (hL : ThreadOk fp b i g t) (h : Act fp b i g t g' t') :
    Keeps fp b i g t g' t' := by
  have hnot : ∀ {point r'}, t.point = .idle → t.point.Busy r' → Point.Busy point r' := by
    intro point r' hidle hbusy
    rw [hidle] at hbusy
    exact hbusy.elim
  cases h with
  | new r size hidle hunmapped =>
    obtain ⟨hnone, hparked⟩ := (hG r).unmapped hunmapped
    have hmapped : MappedAs (((g.map r (some { size, prot := b.allocProt })).zero r).own r (some i)) r
        (.new size) b.allocProt := by
      simp [MappedAs, Shared.own, Shared.zero, Shared.map, Compiler.new]
    refine ⟨r, ⟨.inr hnone, ?_, fun r' hr' => Function.update_of_ne hr' _ _, fun _ _ hb => hb⟩,
      sharedOk_owned hmapped (.inl rfl) hparked,
      regionOk_put (Function.update_self _ _ _) (Function.update_self _ _ _) hmapped ?_, hL.pointOk_idle hidle rfl rfl⟩
    · intro r' hr'
      exact ((frame_map hr' _).trans (frame_zero hr')).trans (frame_own hr' _)
    · intro kind hkind
      cases hkind
  | @drop r c hat hc =>
    have howner := (hL.region r).owner c hc
    have hparked := (hG r).not_parked howner
    refine ⟨r, ⟨.inl howner, fun r' hr' => (frame_map hr' _).trans (frame_own hr' _),
      fun r' hr' => Function.update_of_ne hr' _ _, fun _ _ hb => hb⟩, ?_,
      regionOk_none (Function.update_self _ _ _), ?_⟩
    · constructor
      · intro m hm
        simp [Shared.map, Shared.own] at hm
      · intro _
        exact ⟨Function.update_self _ _ _, hparked⟩
      · intro c' hc'
        cases hparked.symm.trans hc'
    · rcases hat with hidle | ⟨point, hpanicked⟩
      · exact hL.pointOk_idle hidle rfl rfl
      · show PointOk fp b _ _ t.point
        rw [hpanicked]
        trivial
  | @send r c hidle hc =>
    have howner := (hL.region r).owner c hc
    obtain ⟨prot, hmapped⟩ := (hL.region r).mapped c hc
    refine ⟨r, ⟨.inl howner, fun r' hr' => (frame_park hr' _).trans (frame_own hr' _),
      fun r' hr' => Function.update_of_ne hr' _ _, fun _ _ hb => hb⟩, ?_,
      regionOk_none (Function.update_self _ _ _), ?_⟩
    · constructor
      · exact (hG r).prot
      · intro hm
        cases hmapped.symm.trans hm
      · intro c' hc'
        obtain rfl : c = c' := by simpa [Shared.park, Shared.own] using hc'
        refine ⟨Function.update_self _ _ _, ⟨prot, hmapped⟩, ?_⟩
        intro kind hkind
        exact ((hL.region r).resident c kind hc (by rw [hidle]; exact id) hkind).congr rfl rfl
    · exact hL.pointOk_idle hidle rfl rfl
  | @receive r c hidle hparked =>
    obtain ⟨hnone, ⟨prot, hmapped⟩, hres⟩ := (hG r).parked c hparked
    have hmapped' : MappedAs ((g.park r none).own r (some i)) r c prot := hmapped
    refine ⟨r, ⟨.inr hnone, fun r' hr' => (frame_park hr' _).trans (frame_own hr' _),
      fun r' hr' => Function.update_of_ne hr' _ _, fun _ _ hb => hb⟩,
      sharedOk_owned hmapped' ((hG r).prot _ hmapped) (Function.update_self _ _ _),
      regionOk_put (Function.update_self _ _ _) (Function.update_self _ _ _) hmapped' ?_, hL.pointOk_idle hidle rfl rfl⟩
    intro kind hkind
    exact (hres kind hkind).congr rfl rfl
  | @compile r c kind words hidle hc =>
    have howner := (hL.region r).owner c hc
    obtain ⟨prot, hmapped⟩ := (hL.region r).mapped c hc
    exact ⟨r, ⟨.inl howner, fun r' _ => Frame.refl g r', fun r' hr' => Function.update_of_ne hr' _ _,
      fun r' _ => hnot hidle⟩, hG r, regionOk_busy (Function.update_self _ _ _) howner hmapped rfl, _,
      Function.update_self _ _ _, hL.protected_of_idle hidle⟩
  | @emitFails r c kind words hidle hc =>
    have howner := (hL.region r).owner c hc
    obtain ⟨prot, hmapped⟩ := (hL.region r).mapped c hc
    exact ⟨r, ⟨.inl howner, fun r' _ => Frame.refl g r', fun r' hr' => Function.update_of_ne hr' _ _,
      fun r' _ => hnot hidle⟩, hG r, regionOk_busy (Function.update_self _ _ _) howner hmapped rfl, trivial⟩
  | @write rc r c kind stage hpoint hc => exact write_keeps hG hL rc hpoint hc
  | @call r c kind start hidle hc hkind =>
    have hres := (hL.region r).resident c kind hc (by rw [hidle]; exact id) hkind
    exact keeps_goto hG hL ((hL.region r).owner c hc) (fun _ => hnot hidle)
      ⟨hL.protected_of_idle hidle, c, hc, hres, fun _ _ => .inl ⟨0, rfl⟩⟩
  | @refused r c kind hidle hc _ => exact keeps_goto hG hL ((hL.region r).owner c hc) (fun _ hb => hb) trivial
  | @fetch core r start s pc hpoint => exact fetch_keeps hG hL core hpoint
  | @leave r start s hpoint =>
    have hpt := hL.point
    rw [hpoint] at hpt
    obtain ⟨hbit, c, hc, -⟩ := hpt
    refine keeps_goto hG hL ((hL.region r).owner c hc) ?_ hbit
    intro r' hbusy
    rw [hpoint] at hbusy
    exact hbusy.elim

/-! ## Every run -/

omit [DecidableEq ι] in
/-- **The protocol of the regions.** -/
theorem protocol_jit : Protocol (jitThreads ι κ ρ fp b) (fun g => ∀ r, SharedOk b g r) (ThreadOk fp b) := by
  constructor
  · intro i g t g' t' hG hL hact
    obtain ⟨r₀, htouches, hshared, hregion, hpoint⟩ := act_keeps hG hL hact
    refine ⟨?_, ?_, hpoint⟩
    · intro r
      by_cases hr : r = r₀
      · subst hr
        exact hshared
      · exact (htouches.frame r hr).sharedOk (hG r)
    · intro r
      by_cases hr : r = r₀
      · subst hr
        exact hregion
      · have hframed := (htouches.frame r hr).regionOk (hL.region r)
        have hcompilers := htouches.compilers r hr
        exact ⟨fun c hc => hframed.owner c (hcompilers ▸ hc), fun c hc => hframed.mapped c (hcompilers ▸ hc),
          fun c kind hc hbusy hkind =>
            hframed.resident c kind (hcompilers ▸ hc) (fun h => hbusy (htouches.busy r hr h)) hkind⟩
  · intro i j g t g' t' u hj hG hL hact hu
    obtain ⟨r₀, htouches, -⟩ := act_keeps hG hL hact
    refine hu.frame fun r hr => htouches.frame r ?_
    rintro rfl
    -- a region has one owner
    rcases htouches.owner with howner | howner
    · exact hj (Option.some.inj (hr.symm.trans howner))
    · cases hr.symm.trans howner
  · rintro g g' hG ⟨code, hages, rfl⟩
    have hframe : ∀ r, Frame g { g with code } r :=
      fun r => ⟨rfl, rfl, rfl, fun k => congrFun hages.word_eq (r, k), fun k hk => hk.ages hages⟩
    exact ⟨fun r => (hframe r).sharedOk (hG r), fun i t hL => hL.frame fun r _ => hframe r⟩

omit [DecidableEq ι] [DecidableEq κ] [DecidableEq ρ] in
theorem sharedOk_started (code : CodeMemory κ (ρ × Nat) U32) (r : ρ) :
    SharedOk b (started code : SharedThreads.State ι _ _).shared r := by
  constructor
  · intro m hm
    cases hm
  · intro _
    exact ⟨rfl, rfl⟩
  · intro c hc
    cases hc

omit [DecidableEq ι] [DecidableEq κ] [DecidableEq ρ] in
theorem threadOk_started (code : CodeMemory κ (ρ × Nat) U32) (i : ι) :
    ThreadOk fp b i (started code : SharedThreads.State ι _ _).shared ((started code).threads i) :=
  ⟨fun _ => regionOk_none rfl, fun _ => rfl⟩

/-- The call a thread is in, or has just left. -/
def Point.Calls : Point ρ → ρ → State → Prop
  | .calling r start _ _, r', start' => r' = r ∧ start' = start
  | .returned r start _, r', start' => r' = r ∧ start' = start
  | .faulted (.calling r start _ _), r', start' => r' = r ∧ start' = start
  | _, _, _ => False

/-- A call whose code returns by itself does not end in another way. -/
theorem Follows.end_eq {words : List U32} {code : Code} {W : Word → Prop} {start t' : State} {o : Outcome}
    (h : Follows fp words start o) (hcode : decodeAll words = some code) (hreturns : Returns fp code W 0 start t')
    (hend : ∀ pc s, o ≠ .running pc s) : o = .returned t' := by
  rcases h code hcode with ⟨n, hn⟩ | ⟨n, hn⟩
  · exact hreturns.end_eq hn hend
  · have hstuck := hreturns.end_eq hn (by simp)
    cases hstuck

/-- **A call runs the code that was compiled**, in every interleaving of the threads, on any cores, whatever their
    caches held before and load on the way. No thread may ever write a region and run it. No fault is raised outside
    of a call; and a call of code that returns `t'` by itself is still inside that run or has returned `t'`. -/
theorem calls_run_compiled_code {code₀ : CodeMemory κ (ρ × Nat) U32}
    {s : SharedThreads.State ι (Shared ι κ ρ) (Thread ρ)}
    (hruns : Runs (jitThreads ι κ ρ fp b) (started code₀) s) (i : ι) :
    (∀ r m, s.shared.mapped r = some m → ¬ (b.writable m.prot (s.threads i).writeProtected = true ∧
      b.executable m.prot (s.threads i).writeProtected = true)) ∧
    (∀ point, (s.threads i).point = .faulted point → ∃ r start, (s.threads i).point.Calls r start) ∧
    ∀ r start, (s.threads i).point.Calls r start → ∃ c, (s.threads i).compilers r = some c ∧
      ∀ code W t', decodeAll c.emitter = some code → Returns fp code W 0 start t' →
        (∃ pc u n, (s.threads i).point = .calling r start pc u ∧ run fp code n 0 start = .running pc u) ∨
          (s.threads i).point = .returned r start t' := by
  obtain ⟨hG, hL⟩ := protocol_jit.runs (sharedOk_started code₀) (threadOk_started code₀) hruns
  have hpt := (hL i).point
  refine ⟨?_, ?_, ?_⟩
  · rintro r m hm ⟨hwrite, hexec⟩
    have hprot := (hG r).prot m hm
    cases b with
    | macos =>
      simp only [Backend.writable, Backend.executable, Bool.and_eq_true, Bool.not_eq_true'] at hwrite hexec
      exact absurd hexec.2 (by simp [hwrite.2])
    | linux =>
      rcases hprot with hp | hp
      · simp [Backend.executable, Backend.allocProt, hp] at hexec
      · simp [Backend.writable, Backend.executeProt, hp] at hwrite
  · intro point hfault
    rw [hfault] at hpt ⊢
    obtain ⟨r, start, pc, u, c, rfl, -⟩ := hpt
    exact ⟨r, start, rfl, rfl⟩
  · intro r start hcalls
    cases hp : (s.threads i).point with
    | idle =>
      rw [hp] at hcalls
      exact hcalls.elim
    | compiling r' kind stage =>
      rw [hp] at hcalls
      exact hcalls.elim
    | panicked point =>
      rw [hp] at hcalls
      exact hcalls.elim
    | calling r' start' pc u =>
      rw [hp] at hcalls hpt
      obtain ⟨rfl, rfl⟩ := hcalls
      obtain ⟨-, c, hc, -, hfollows⟩ := hpt
      refine ⟨c, hc, ?_⟩
      intro code W t' hcode hreturns
      rcases hfollows code hcode with ⟨n, hn⟩ | ⟨n, hn⟩
      · exact .inl ⟨pc, u, n, rfl, hn⟩
      · have hstuck := hreturns.end_eq hn (by simp)
        cases hstuck
    | returned r' start' u =>
      rw [hp] at hcalls hpt
      obtain ⟨rfl, rfl⟩ := hcalls
      obtain ⟨-, c, hc, hfollows⟩ := hpt
      refine ⟨c, hc, ?_⟩
      intro code W t' hcode hreturns
      obtain rfl := Outcome.returned.inj (hfollows.end_eq hcode hreturns (by simp))
      exact .inr rfl
    | faulted point =>
      rw [hp] at hcalls hpt
      obtain ⟨r', start', pc, u, c, rfl, hc, hfollows⟩ := hpt
      obtain ⟨rfl, rfl⟩ := hcalls
      refine ⟨c, hc, ?_⟩
      intro code W t' hcode hreturns
      have hstuck := hfollows.end_eq hcode hreturns (by simp)
      cases hstuck

/-! ## A thread that goes on alone -/

/-- What is left of `write_code`, of `n` words. -/
def Stage.left (n : Nat) : Stage → Nat
  | .checkLen => 2 * n + 5
  | .enableWrite => 2 * n + 4
  | .copy k => n - k + (n + 3)
  | .enableExecute => n + 2
  | .flush k => n - k + 1

variable (fp b i) in
/-- The accesses of a thread while the others rest. -/
abbrev Alone : Shared ι κ ρ × Thread ρ → Shared ι κ ρ × Thread ρ → Prop :=
  Relation.ReflTransGen fun x y => Act fp b i x.1 x.2 y.1 y.2

omit [DecidableEq ι] [DecidableEq κ] in
/-- A step of `write_code` where `mprotect` succeeds is the last one, or less is left after it. -/
theorem writeStep_left (hL : ThreadOk fp b i g t) {kind : CompiledKind} {stage : Stage}
    (hpoint : t.point = .compiling r kind stage) (hc : t.compilers r = some c)
    (hfits : c.emitter.length * 4 ≤ c.memory.size) :
    ∃ c', (writeStep b true r kind stage c g t).2.compilers r = some c' ∧ c'.emitter = c.emitter ∧
      c'.memory.size = c.memory.size ∧
      ((writeStep b true r kind stage c g t).2.point = .idle ∧ c'.kind = some kind ∨
        ∃ stage', (writeStep b true r kind stage c g t).2.point = .compiling r kind stage' ∧
          stage'.left c.emitter.length < stage.left c.emitter.length) := by
  have hstage : StageOk b g t r c stage := by
    have hpt := hL.point
    rw [hpoint] at hpt
    obtain ⟨c', hc', hst⟩ := hpt
    obtain rfl := Option.some.inj (hc.symm.trans hc')
    exact hst
  cases stage with
  | checkLen =>
    simp only [writeStep, if_pos hfits]
    exact ⟨c, hc, rfl, rfl, .inr ⟨_, rfl, by simp [Stage.left]⟩⟩
  | enableWrite =>
    cases b with
    | macos => exact ⟨c, hc, rfl, rfl, .inr ⟨_, rfl, by simp [Stage.left]; omega⟩⟩
    | linux => exact ⟨c, hc, rfl, rfl, .inr ⟨_, rfl, by simp [Stage.left]; omega⟩⟩
  | copy k =>
    obtain ⟨hbit, -, hmapped, -⟩ := hstage
    cases hget : c.emitter[k]? with
    | none =>
      simp only [writeStep, hget]
      exact ⟨_, Function.update_self _ _ _, rfl, rfl, .inr ⟨_, rfl, by simp [Stage.left]; omega⟩⟩
    | some w =>
      have hk : k < c.emitter.length := (List.getElem?_eq_some_iff.mp hget).1
      have hallowed : g.accessible (b.writable · t.writeProtected) r k = true :=
        accessible_of hmapped (by omega) (writable_allocProt hbit)
      simp only [writeStep, hget, hallowed, if_true]
      exact ⟨c, hc, rfl, rfl, .inr ⟨_, rfl, by simp [Stage.left]; omega⟩⟩
  | enableExecute =>
    cases b with
    | macos => exact ⟨c, hc, rfl, rfl, .inr ⟨_, rfl, by simp [Stage.left]⟩⟩
    | linux => exact ⟨c, hc, rfl, rfl, .inr ⟨_, rfl, by simp [Stage.left]⟩⟩
  | flush k =>
    obtain ⟨-, -, -, -, hlen, -⟩ := hstage
    unfold writeStep
    dsimp only
    split
    case isTrue hk => exact ⟨c, hc, rfl, rfl, .inr ⟨_, rfl, by simp [Stage.left]; omega⟩⟩
    case isFalse => exact ⟨_, Function.update_self _ _ _, rfl, rfl, .inl ⟨rfl, rfl⟩⟩

omit [DecidableEq ι] in
/-- **A compile ends**: where `mprotect` succeeds and the words fit, the code comes to be ready. -/
theorem exists_alone_written (hG : ∀ r, SharedOk b g r) (hL : ThreadOk fp b i g t) {kind : CompiledKind}
    {stage : Stage} (hpoint : t.point = .compiling r kind stage) (hc : t.compilers r = some c)
    (hfits : c.emitter.length * 4 ≤ c.memory.size) :
    ∃ g' t' c', Alone fp b i (g, t) (g', t') ∧ t'.point = .idle ∧ t'.compilers r = some c' ∧
      c'.emitter = c.emitter ∧ c'.kind = some kind := by
  induction hn : stage.left c.emitter.length using Nat.strong_induction_on generalizing g t stage c with
  | _ n ih =>
    have hact : Act fp b i g t (writeStep b true r kind stage c g t).1 (writeStep b true r kind stage c g t).2 :=
      .write true hpoint hc
    obtain ⟨c', hc', hemitter, hsize, ⟨hidle, hkind⟩ | ⟨stage', hpoint', hless⟩⟩ :=
      writeStep_left hL hpoint hc hfits
    · exact ⟨_, _, c', .single hact, hidle, hc', hemitter, hkind⟩
    · obtain ⟨hG', hL'⟩ := protocol_jit.own hG hL hact
      obtain ⟨g', t', c'', halone, hidle, hc'', hemitter', hkind⟩ :=
        ih _ (by rw [hemitter]; omega) hG' hL' hpoint' hc' (by rw [hemitter, hsize]; exact hfits) rfl
      exact ⟨g', t', c'', .head hact halone, hidle, hc'', hemitter'.trans hemitter, hkind⟩

omit [DecidableEq ι] in
/-- **A call ends** where the machine on the decoded words does, on whatever core each word is fetched. -/
theorem alone_returned (hG : ∀ r, SharedOk b g r) (hL : ThreadOk fp b i g t) {start s s' : State} {pc n : Nat}
    {code : Code} (hpoint : t.point = .calling r start pc s) (hc : t.compilers r = some c)
    (hcode : decodeAll c.emitter = some code) (hrun : run fp code n pc s = .returned s') (cores : Nat → κ) :
    Alone fp b i (g, t) (g, t.goto (.returned r start s')) := by
  induction n generalizing t pc s with
  | zero => cases hrun
  | succ n ih =>
    have hact : Act fp b i g t g (fetchStep fp b (cores n) r start pc s g t) := .fetch (cores n) hpoint
    obtain ⟨-, hL'⟩ := protocol_jit.own hG hL hact
    have hpt := hL.point
    rw [hpoint] at hpt
    obtain ⟨hbit, c', hc', hresident, -⟩ := hpt
    obtain rfl := Option.some.inj (hc.symm.trans hc')
    rw [run] at hrun
    -- the machine is not stuck, so there is a word, and it decodes
    cases hw : c.emitter[pc]? with
    | none =>
      rw [step_of_none (by rw [getElem?_decodeAll hcode, hw]; rfl)] at hrun
      cases hrun
    | some w =>
      obtain ⟨hallowed, hfetched⟩ := hresident.fetch hbit (cores n) hw
      have hinst : code[pc]? = decode w := by
        rw [getElem?_decodeAll hcode, hw]
        rfl
      cases hdecode : decode w with
      | none =>
        rw [step_of_none (hinst.trans hdecode)] at hrun
        cases hrun
      | some inst =>
        rw [step_eq_issue (hinst.trans hdecode)] at hrun
        simp only [fetchStep, hallowed, if_true, hfetched, hdecode] at hact hL'
        cases hissue : issue fp inst pc s with
        | stuck =>
          rw [hissue] at hrun
          cases hrun
        | returned s₁ =>
          rw [hissue] at hrun hact
          obtain rfl := Outcome.returned.inj hrun
          exact .single hact
        | running pc₁ s₁ =>
          rw [hissue] at hrun hact hL'
          have hrest := ih hL' rfl hc hrun
          exact .head hact hrest

end

/-! ## A run -/

/-- The caches of both cores hold zeros everywhere. -/
def staleCode : CodeMemory Bool (Bool × Nat) U32 where
  word _ := 0
  cached _ _ := some 0

/-- Two threads compile into regions of their own, word by word and in turns. One hands its code to the other, which
    calls it, on two cores. -/
theorem calls_run_compiled_code_sample :
    ∃ (start : Arm64.State) (s : SharedThreads.State Bool (Shared Bool Bool Bool) (Thread Bool)),
      Runs (jitThreads Bool Bool Bool sampleFpOps .linux) (started staleCode) s ∧
      (s.threads true).point = .returned false start (start.setX 0 42) ∧
      ∃ c, (s.threads true).compilers false = some c ∧ c.emitter = [0xD2800540#32, 0xD65F03C0#32] ∧
        ∀ code W t', decodeAll c.emitter = some code → Returns sampleFpOps code W 0 start t' →
          t' = start.setX 0 42 := by
  let start : Arm64.State :=
    { x := fun _ => 0, sp := 0, d := fun _ => 0, flags := { n := false, z := false, c := false, v := false }
      fpcr := 0, mem := fun _ => 0 }
  let words : List U32 := [0xD2800540#32, 0xD65F03C0#32]
  have hdecode : decodeAll words = some [.movz 0 42 0, .ret] :=
    decodeAll_append (Words.Call.movz 0 42 0).decodeAll_words Words.Call.ret.decodeAll_words
  have hrun : run sampleFpOps [.movz 0 42 0, .ret] 2 0 start = .returned (start.setX 0 42) := rfl
  let Reaches := Runs (jitThreads Bool Bool Bool sampleFpOps .linux) (started staleCode)
  have hstep : ∀ {s : SharedThreads.State Bool (Shared Bool Bool Bool) (Thread Bool)} (i : Bool) {g' t'}, Reaches s →
      Act sampleFpOps .linux i s.shared (s.threads i) g' t' → Reaches ⟨g', Function.update s.threads i t'⟩ :=
    fun i _ _ h hact => h.tail (.act i hact)
  have hok : ∀ {s}, Reaches s → (∀ r, SharedOk .linux s.shared r) ∧
      ∀ i, ThreadOk sampleFpOps .linux i s.shared (s.threads i) :=
    fun h => protocol_jit.runs (sharedOk_started _) (threadOk_started _) h
  -- both have begun to write when the second thread goes on to the end, and then the first
  have h₁ := hstep false .refl (.new false 8 rfl rfl)
  have h₂ := hstep true h₁ (.new true 4 rfl rfl)
  have h₃ := hstep false h₂ (.compile false .Body words rfl rfl)
  have h₄ := hstep true h₃ (.compile true .Body [0xD65F03C0#32] rfl rfl)
  have h₅ := hstep false h₄ (.write true rfl rfl)
  have h₆ := hstep true h₅ (.write true rfl rfl)
  have h₇ := hstep false h₆ (.write true rfl rfl)
  have h₈ := hstep false h₇ (.write true rfl rfl)
  obtain ⟨g₁, t₁, -, halone₁, hidle₁, -⟩ :=
    exists_alone_written (hok h₈).1 ((hok h₈).2 true) rfl rfl (by decide)
  have h₉ := h₈.trans (runs_solo true halone₁)
  obtain ⟨g₂, t₂, c, halone₂, hidle₂, hc, hemitter, hkind⟩ :=
    exists_alone_written (hok h₉).1 ((hok h₉).2 false) rfl rfl (by decide)
  have h₁₀ := h₉.trans (runs_solo false halone₂)
  -- the first hands its code over, and the second calls it
  have hparked : ((g₂.park false (some c)).own false none).parked false = some c := by
    simp [Shared.park, Shared.own]
  have hput : (t₁.put false (some c)).compilers false = some c := by simp [Thread.put]
  have h₁₁ := hstep false h₁₀ (.send false (c := c) hidle₂ hc)
  have h₁₂ := hstep true h₁₁ (.receive false hidle₁ hparked)
  have h₁₃ := hstep true h₁₂ (.call false .Body start hidle₁ hput hkind)
  have hreturned := alone_returned (hok h₁₃).1 ((hok h₁₃).2 true) rfl hput (by rw [hemitter]; exact hdecode) hrun
    (fun k => k % 2 == 0)
  obtain ⟨s, hruns, hpoint, hcompiler⟩ : ∃ s, Reaches s ∧
      (s.threads true).point = .returned false start (start.setX 0 42) ∧ (s.threads true).compilers false = some c :=
    ⟨_, h₁₃.trans (runs_solo true hreturned), rfl, hput⟩
  obtain ⟨c', hc', hend⟩ :=
    (calls_run_compiled_code hruns true).2.2 false start (by rw [hpoint]; exact ⟨rfl, rfl⟩)
  obtain rfl := Option.some.inj (hcompiler.symm.trans hc')
  refine ⟨start, s, hruns, hpoint, c, hcompiler, hemitter, ?_⟩
  intro code W t' hcode hreturns
  rcases hend code W t' hcode hreturns with ⟨pc, u, n, hcalling, -⟩ | hreturned
  · cases hpoint.symm.trans hcalling
  · cases hpoint.symm.trans hreturned
    rfl

end Memory
end RandomX
end MinerTim
