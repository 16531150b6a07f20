import MinerTim.Lib.Locking
import MinerTim.Miner.Threads

/-!
# `Miner.Locks` — the workers, lock by lock

An `Act` of a worker takes what it needs and gives it back in one step. Here its locks are operations of their own: the
cache is locked while a dataset is generated, which takes half a minute, and all workers that need it wait; the stream
is locked while a share is written. The other threads of the process, of which the receiver is one, use the locks of
the pool in between, one at a time.

The order in which a lock goes to those that wait for it is not determined.
-/

namespace MinerTim
namespace Miner

open RandomX SharedThreads Locking

/-- The mutexes that workers take: `dataset_cache`, and four of `PoolConnection`. -/
inductive Lock where
  | datasetCache
  | currentJob
  | sessionId
  | stream
  | pendingShares
deriving DecidableEq

instance : Fintype Lock where
  elems := {.datasetCache, .currentJob, .sessionId, .stream, .pendingShares}
  complete := by
    intro l
    cases l <;> decide

/-- Under the stream lock, `write_and_register` takes that of the pending shares. -/
def Lock.level : Lock → Nat
  | .stream => 1
  | _ => 0

/-- An access in a critical section. -/
def locked (l : Lock) : List (Op Lock) := [.lock l, .access, .unlock l]

/-- `submit_share`: the session id is read first; what has been written is registered before the stream is given back.
    Nothing is registered where there is no stream, the job is stale or the write fails. -/
def submitShare (written : Bool) : List (Op Lock) :=
  let register : List (Op Lock) := if written then [.lock .pendingShares, .unlock .pendingShares] else []
  .lock .sessionId :: .unlock .sessionId :: .lock .stream :: .access :: (register ++ [.unlock .stream])

instance (jobs : JobRef → Job) (st : WorkerState) (j : JobRef) : Decidable (NeedsRekey jobs st j) :=
  inferInstanceAs (Decidable (_ ∨ _))

variable (p : Platform) (rc : RigConfig) (T : BitVec 32) (J : Option NativeCode → Prop)

/-- The operations of the next access of a worker. -/
def workerPlans {T : BitVec 32} (th : Thread T) : List (List (Op Lock)) :=
  match th.phase with
  | .stopped => []
  | .panicked _ => []
  | .getWork => [locked .currentJob]
  | .setUp j => if NeedsRekey rc.jobs (installJob rc.jobs th.st j) j then [locked .datasetCache] else [[.access]]
  | .submit _ _ => [submitShare true, submitShare false]
  | _ => [[.access]]

/-- Only the workers have the cache. -/
def workerLocks : Discipline (Thread T) Lock where
  plans := workerPlans rc
  visits l := l ≠ .datasetCache

/-- The workers, with the other threads of the process. -/
abbrev lockedWorkers (κ : Type) :
    System (Fin T.toNat) (Guarded (Shared T) (Fin T.toNat) κ Lock) (Locker (Thread T) Lock) :=
  (workerLocks rc T).system (workerThreads p rc T J) κ

variable {p rc T J}

theorem wellOrdered_workerLocks : (workerLocks rc T).WellOrdered Lock.level := by
  rintro ⟨st, n, phase⟩ ops hops
  change ops ∈ workerPlans rc ⟨st, n, phase⟩ at hops
  cases phase with
  | stopped => cases hops
  | panicked point => cases hops
  | getWork =>
    obtain rfl := List.mem_singleton.mp hops
    simp [locked, Ordered]
  | setUp j =>
    simp only [workerPlans] at hops
    split at hops <;> obtain rfl := List.mem_singleton.mp hops <;> simp [locked, Ordered]
  | submit e sub =>
    simp only [workerPlans, List.mem_cons, List.not_mem_nil, or_false] at hops
    rcases hops with rfl | rfl <;> simp [submitShare, Ordered, Lock.level]
  | _ =>
    obtain rfl := List.mem_singleton.mp hops
    simp [Ordered]

/-- A worker has a plan, unless it has stopped or panicked. -/
theorem plans_eq_nil_iff {th : Thread T} :
    (workerLocks rc T).plans th = [] ↔ th.phase = .stopped ∨ ∃ point, th.phase = .panicked point := by
  obtain ⟨st, n, phase⟩ := th
  cases phase with
  | setUp j =>
    simp only [workerLocks, workerPlans, reduceCtorEq, exists_false, or_self, iff_false]
    split <;> simp
  | _ => simp [workerLocks, workerPlans]

end Miner
end MinerTim
