import MinerTim.Lib.Arm64.Fetch
import MinerTim.Lib.SharedThreads
import MinerTim.RandomX.Jit.Compiler

/-!
# `RandomX.Jit.Memory` — the memory of emitted code (`jit/memory.rs`)

A `JitCompiler` keeps its code in a region of its own. Threads compile into their regions and call what they compiled,
each on whatever core it is scheduled, and a compiler may move to another thread. The kernel checks each access:

* on Linux a region is `RW` or `RX`, and `mprotect` swaps the two;
* on macOS every region is `RWX`, and a bit of the running thread says which of the two it may do.

`write_code` is followed word by word: the switch, the copy, the switch back and the invalidation are steps of their
own, and `mprotect` may fail, which panics. So does an assertion that fails while the words are emitted. A call fetches
its words through the cache of a core, so it may see what was there before. An access that the kernel refuses, or a word
that is no instruction, ends in `Point.faulted`.

A thread's own fetch pipeline is not modelled: both flushes end in a barrier, and so does a switch of the core.
-/

namespace MinerTim
namespace RandomX
namespace Memory

open Arm64 SharedThreads

/-- A word of code. -/
abbrev U32 := BitVec 32

/-! ## Protection -/

/-- The two arms of `mod platform`. -/
inductive Backend where
  | macos
  | linux
deriving DecidableEq

/-- `PROT_WRITE` and `PROT_EXEC`; every region has `PROT_READ`. -/
structure Prot where
  write : Bool
  exec : Bool
deriving DecidableEq

/-- The protection `alloc` maps a region with, and that of a region that is written. -/
def Backend.allocProt : Backend → Prot
  | .macos => { write := true, exec := true }
  | .linux => { write := true, exec := false }

/-- The protection of a region that is run. -/
def Backend.executeProt : Backend → Prot
  | .macos => { write := true, exec := true }
  | .linux => { write := false, exec := true }

/-- Whether a thread may write; `writeProtected` is its bit for `MAP_JIT` regions. -/
def Backend.writable : Backend → Prot → Bool → Bool
  | .macos, prot, writeProtected => prot.write && !writeProtected
  | .linux, prot, _ => prot.write

/-- Whether a thread may run. -/
def Backend.executable : Backend → Prot → Bool → Bool
  | .macos, prot, writeProtected => prot.exec && writeProtected
  | .linux, prot, _ => prot.exec

/-! ## States -/

/-- `JitMemory`. Its pointer is the region that it is kept under. -/
structure JitMemory where
  size : Nat
  codeLen : Nat

/-- `JitCompiler`, with the words that its emitter holds. -/
structure Compiler where
  memory : JitMemory
  emitter : List U32
  kind : Option CompiledKind

/-- `JitCompiler::new`. -/
def Compiler.new (size : Nat) : Compiler where
  memory := { size, codeLen := 0 }
  emitter := []
  kind := none

/-- The points of `write_code`. -/
inductive Stage where
  | checkLen
  | enableWrite
  /-- Before word `k` is copied. -/
  | copy (k : Nat)
  | enableExecute
  /-- Before word `k` is invalidated. -/
  | flush (k : Nat)

variable {ι κ ρ : Type}

/-- Where a thread is. -/
inductive Point (ρ : Type) where
  | idle
  | compiling (r : ρ) (kind : CompiledKind) (stage : Stage)
  /-- In a call that was made in state `start`. -/
  | calling (r : ρ) (start : State) (pc : Nat) (s : State)
  | returned (r : ρ) (start s : State)
  | panicked (point : Point ρ)
  | faulted (point : Point ρ)

/-- A thread: its write-protection bit, the compilers that it has and where it is. -/
structure Thread (ρ : Type) where
  writeProtected : Bool
  compilers : ρ → Option Compiler
  point : Point ρ

/-- A mapped region. -/
structure Mapping where
  size : Nat
  prot : Prot

/-- What the threads share. `owner` is no part of the program: it says which thread has the compiler. -/
structure Shared (ι κ ρ : Type) where
  mapped : ρ → Option Mapping
  code : CodeMemory κ (ρ × Nat) U32
  owner : ρ → Option ι
  /-- The compilers that are on their way to another thread. -/
  parked : ρ → Option Compiler

/-- The thread at another point. -/
def Thread.goto (t : Thread ρ) (point : Point ρ) : Thread ρ := { t with point }

/-- A panic: the thread stays where it was and does nothing more. -/
def Thread.panic (t : Thread ρ) : Thread ρ := t.goto (.panicked t.point)

/-- A signal, after an access that is refused or at a word that is no instruction. -/
def Thread.fault (t : Thread ρ) : Thread ρ := t.goto (.faulted t.point)

/-- Whether the kernel lets an access to word `k` through. -/
def Shared.accessible (g : Shared ι κ ρ) (may : Prot → Bool) (r : ρ) (k : Nat) : Bool :=
  match g.mapped r with
  | some m => decide (4 * (k + 1) ≤ m.size) && may m.prot
  | none => false

variable [DecidableEq κ] [DecidableEq ρ]

/-- The compiler of region `r` replaced. -/
def Thread.put (t : Thread ρ) (r : ρ) (c : Option Compiler) : Thread ρ :=
  { t with compilers := Function.update t.compilers r c }

/-- Region `r` mapped, or unmapped. -/
def Shared.map (g : Shared ι κ ρ) (r : ρ) (m : Option Mapping) : Shared ι κ ρ :=
  { g with mapped := Function.update g.mapped r m }

/-- The compiler of region `r` given to a thread, or to none. -/
def Shared.own (g : Shared ι κ ρ) (r : ρ) (i : Option ι) : Shared ι κ ρ :=
  { g with owner := Function.update g.owner r i }

/-- The compiler of region `r` on its way, or arrived. -/
def Shared.park (g : Shared ι κ ρ) (r : ρ) (c : Option Compiler) : Shared ι κ ρ :=
  { g with parked := Function.update g.parked r c }

/-- Fresh pages are zero; the caches may still hold what was mapped here before. -/
def Shared.zero (g : Shared ι κ ρ) (r : ρ) : Shared ι κ ρ :=
  { g with code := { g.code with word := fun a => if a.1 = r then 0 else g.code.word a } }

/-- `mprotect`, where it succeeds. -/
def Shared.mprotect (g : Shared ι κ ρ) (r : ρ) (prot : Prot) : Shared ι κ ρ :=
  g.map r ((g.mapped r).map fun m => { m with prot })

/-! ## The steps of `memory.rs` -/

variable (fp : FpOps) (b : Backend)

/-- The switch of either backend; `rc` says whether `mprotect` succeeds, and `none` that its assertion fails. -/
def switchProt (rc : Bool) (r : ρ) (prot : Prot) (writeProtected : Bool) (g : Shared ι κ ρ) (t : Thread ρ) :
    Option (Shared ι κ ρ × Thread ρ) :=
  match b with
  | .macos => some (g, { t with writeProtected })
  | .linux => if rc then some (g.mprotect r prot, t) else none

/-- `enable_write`. -/
def enableWrite (rc : Bool) (r : ρ) : Shared ι κ ρ → Thread ρ → Option (Shared ι κ ρ × Thread ρ) :=
  switchProt b rc r { write := true, exec := false } false

/-- `enable_execute`, up to the invalidation. -/
def enableExecute (rc : Bool) (r : ρ) : Shared ι κ ρ → Thread ρ → Option (Shared ι κ ρ × Thread ρ) :=
  switchProt b rc r { write := false, exec := true } true

/-- A step of `write_code`, and what the compiler does after it. -/
def writeStep (rc : Bool) (r : ρ) (kind : CompiledKind) (stage : Stage) (c : Compiler) (g : Shared ι κ ρ)
    (t : Thread ρ) : Shared ι κ ρ × Thread ρ :=
  match stage with
  | .checkLen =>
    if c.emitter.length * 4 ≤ c.memory.size then (g, t.goto (.compiling r kind .enableWrite)) else (g, t.panic)
  | .enableWrite =>
    match enableWrite b rc r g t with
    | some (g', t') => (g', t'.goto (.compiling r kind (.copy 0)))
    | none => (g, t.panic)
  | .copy k =>
    match c.emitter[k]? with
    | some w =>
      if g.accessible (b.writable · t.writeProtected) r k then
        ({ g with code := g.code.store (r, k) w }, t.goto (.compiling r kind (.copy (k + 1))))
      else (g, t.fault)
    | none =>
      let memory := { c.memory with codeLen := c.emitter.length * 4 }
      (g, (t.put r (some { c with memory })).goto (.compiling r kind .enableExecute))
  | .enableExecute =>
    match enableExecute b rc r g t with
    | some (g', t') => (g', t'.goto (.compiling r kind (.flush 0)))
    | none => (g, t.panic)
  | .flush k =>
    if k * 4 < c.memory.codeLen then
      ({ g with code := g.code.invalidate (r, k) }, t.goto (.compiling r kind (.flush (k + 1))))
    else (g, (t.put r (some { c with kind := some kind })).goto .idle)

omit [DecidableEq κ] [DecidableEq ρ] in
/-- A step of a call, on a core. -/
def fetchStep (core : κ) (r : ρ) (start : State) (pc : Nat) (s : State) (g : Shared ι κ ρ) (t : Thread ρ) :
    Thread ρ :=
  if g.accessible (b.executable · t.writeProtected) r pc then
    match decode (g.code.fetched core (r, pc)) with
    | none => t.fault
    | some i =>
      match issue fp i pc s with
      | .running pc' s' => t.goto (.calling r start pc' s')
      | .returned s' => t.goto (.returned r start s')
      | .stuck => t.fault
  else t.fault

/-- What a thread can do next. -/
inductive Act (i : ι) (g : Shared ι κ ρ) (t : Thread ρ) : Shared ι κ ρ → Thread ρ → Prop where
  /-- `JitMemory::new`, where `mmap` succeeds. -/
  | new (r : ρ) (size : Nat) : t.point = .idle → g.mapped r = none →
      Act i g t (((g.map r (some { size, prot := b.allocProt })).zero r).own r (some i)) (t.put r (some (.new size)))
  /-- `Drop`, also while a panic unwinds. -/
  | drop (r : ρ) {c : Compiler} : t.point = .idle ∨ (∃ point, t.point = .panicked point) → t.compilers r = some c →
      Act i g t ((g.map r none).own r none) (t.put r none)
  | send (r : ρ) {c : Compiler} : t.point = .idle → t.compilers r = some c →
      Act i g t ((g.park r (some c)).own r none) (t.put r none)
  | receive (r : ρ) {c : Compiler} : t.point = .idle → g.parked r = some c →
      Act i g t ((g.park r none).own r (some i)) (t.put r (some c))
  /-- `compile` or `compile_native_loop`, which emit before they write. -/
  | compile (r : ρ) {c : Compiler} (kind : CompiledKind) (words : List U32) : t.point = .idle →
      t.compilers r = some c →
      Act i g t g ((t.put r (some { c with emitter := words })).goto (.compiling r kind .checkLen))
  /-- An assertion fails while they emit: `words` is what the emitter holds by then. -/
  | emitFails (r : ρ) {c : Compiler} (kind : CompiledKind) (words : List U32) : t.point = .idle →
      t.compilers r = some c →
      Act i g t g ((t.put r (some { c with emitter := words })).goto (.compiling r kind .checkLen)).panic
  | write (rc : Bool) {r : ρ} {c : Compiler} {kind : CompiledKind} {stage : Stage} :
      t.point = .compiling r kind stage → t.compilers r = some c →
      Act i g t (writeStep b rc r kind stage c g t).1 (writeStep b rc r kind stage c g t).2
  /-- `get_fn` or `get_loop_fn`, and the call. -/
  | call (r : ρ) {c : Compiler} (kind : CompiledKind) (start : State) : t.point = .idle → t.compilers r = some c →
      c.kind = some kind → Act i g t g (t.goto (.calling r start 0 start))
  /-- Code for another convention: the assertion fails. -/
  | refused (r : ρ) {c : Compiler} (kind : CompiledKind) : t.point = .idle → t.compilers r = some c →
      c.kind ≠ some kind → Act i g t g t.panic
  | fetch (core : κ) {r : ρ} {start s : State} {pc : Nat} : t.point = .calling r start pc s →
      Act i g t g (fetchStep fp b core r start pc s g t)
  | leave {r : ρ} {start s : State} : t.point = .returned r start s → Act i g t g (t.goto .idle)

/-- The threads of a process, around caches that do what they like. -/
def jitThreads (ι κ ρ : Type) [DecidableEq κ] [DecidableEq ρ] (fp : FpOps) (b : Backend) :
    System ι (Shared ι κ ρ) (Thread ρ) where
  act := Act fp b
  outside g g' := ∃ code, g.code.Ages code ∧ g' = { g with code }

/-- Nothing is mapped, and every thread starts out write-protected. -/
def started (code : CodeMemory κ (ρ × Nat) U32) : SharedThreads.State ι (Shared ι κ ρ) (Thread ρ) where
  shared := { mapped := fun _ => none, code, owner := fun _ => none, parked := fun _ => none }
  threads _ := { writeProtected := true, compilers := fun _ => none, point := .idle }

end Memory
end RandomX
end MinerTim
