import MinerTim.Lib.SharedThreads
import MinerTim.Miner.Nonces
import MinerTim.Miner.Target

/-!
# `Miner.Threads` — the workers of a miner, access by access

`worker_loop` once more, now as the threads that `Miner::start` spawns. A `Phase` is a point of the loop between two
accesses to something that the workers share: the flag that stops them, the dataset cache behind its lock, the counters
of `MiningStats` and `total_hashes`, and the pool. What lies between two accesses is the code of `Miner.Worker`.

A thread that panics stays where it panicked (`Phase.panicked`); a panic under the lock of the cache poisons it. What
happens under a lock is one step here, as nobody else can come in between; `Miner.Locks` makes the locking steps of
their own, and there a worker can wait.

The counters are atomics, so an access to one is a step of its own. Nothing here depends on the order in which a thread
sees the writes to two of them. The timing fields, the log and the hashrate, a float, are left out; whether the five
seconds of a flush are over is not determined.
-/

namespace MinerTim
namespace Miner

open RandomX SharedThreads

/-- The top four bytes of a hash, as they are tracked. -/
def hashVal (hash : Vector Byte 32) : BitVec 32 := leWord32 fun k => byteAt hash (28 + k)

/-- A hash that a worker computed for a job. -/
structure Hashed (T : BitVec 32) where
  worker : Fin T.toNat
  job : JobRef
  hash : Vector Byte 32
deriving DecidableEq

/-- The points of `worker_loop` at which a thread is about to make an access. -/
inductive Phase (T : BitVec 32) where
  | checkActive
  | getWork
  | setUp (j : JobRef)
  | hash (j : JobRef)
  | recordBest (e : Hashed T)
  | recordDifficulty (e : Hashed T)
  | recordFound (e : Hashed T)
  | verify (e : Hashed T)
  | recordFailure (e : Hashed T)
  | submit (e : Hashed T) (sub : Submission)
  | flush
  | flushRest
  | stopped
  | panicked (point : Phase T)

/-- A worker thread: its loop state and where it is in a pass. -/
structure Thread (T : BitVec 32) where
  st : WorkerState
  localHashes : Word
  phase : Phase T

/-- `DatasetCache`. -/
structure DatasetCache where
  seedHash : List Byte
  dataset : RandomXDataset

/-- `MiningStats`, without the times. -/
structure MiningStats where
  bestHashVal : BitVec 32
  currentDifficulty : Word
  sharesFound : Word
  verifyFailures : Word

/-- What the workers share. The lists are no part of the program: they say what happened so far, in order. -/
structure Shared (T : BitVec 32) where
  miningActive : Bool
  datasetCache : Option DatasetCache
  cachePoisoned : Bool
  totalHashes : Word
  stats : MiningStats
  hashed : List (Hashed T)
  recorded : List (Hashed T)
  withheld : List (Hashed T)
  /-- The calls of `submit_share`, with the hash each is about. -/
  submitted : List (Hashed T × Submission)

/-- `MiningStats::new`. -/
def MiningStats.new : MiningStats where
  bestHashVal := BitVec.allOnes 32
  currentDifficulty := 0
  sharesFound := 0
  verifyFailures := 0

/-- `fetch_update` with the lower of two values. -/
def MiningStats.recordBest (stats : MiningStats) (val : BitVec 32) : MiningStats :=
  if val < stats.bestHashVal then { stats with bestHashVal := val } else stats

/-- A difficulty of zero is not stored. -/
def MiningStats.recordDifficulty (stats : MiningStats) (difficulty : Word) : MiningStats :=
  if 0 < difficulty then { stats with currentDifficulty := difficulty } else stats

/-- What `start` sets up, with `mining_active` as `main` has stored it. -/
def Shared.init (T : BitVec 32) : Shared T where
  miningActive := true
  datasetCache := none
  cachePoisoned := false
  totalHashes := 0
  stats := .new
  hashed := []
  recorded := []
  withheld := []
  submitted := []

/-! ## The dataset cache -/

/-- `get_or_generate_dataset`, from the cache it finds to the one it leaves. -/
inductive GetOrGenerateDataset (p : Platform) (seedHash : List Byte) :
    Option DatasetCache → Option DatasetCache → RandomXDataset → Prop where
  | cached {cache : DatasetCache} : cache.seedHash = seedHash →
      GetOrGenerateDataset p seedHash (some cache) (some cache) cache.dataset
  | generated {cache : Option DatasetCache} {dataset : RandomXDataset} :
      (∀ c, cache = some c → c.seedHash ≠ seedHash) → IsDatasetFor p seedHash dataset →
      GetOrGenerateDataset p seedHash cache (some { seedHash, dataset }) dataset

/-- A thread of `generate` panics, under some schedule. -/
def GenerationPanics (p : Platform) (seedHash : List Byte) : Prop :=
  ∃ numThreads order, RandomXDataset.IsSchedule numThreads order ∧
    RandomXDataset.generateInOrder (p.argon2dCache seedHash) (p.superscalarPrograms seedHash) order = none

/-! ## The accesses of a worker -/

variable (p : Platform) (rc : RigConfig) (T : BitVec 32) (J : Option NativeCode → Prop)

/-- A pass builds the VM, or points it at a new seed. -/
def NeedsRekey (jobs : JobRef → Job) (st : WorkerState) (j : JobRef) : Prop :=
  (jobs j).seedHash ≠ st.currentKey ∨ st.vm.isNone

/-- After the set-up: a blob without room for a nonce is skipped. -/
def afterSetUp {T : BitVec 32} (st : WorkerState) (j : JobRef) : Phase T :=
  if st.blobCurrent.length < 43 ∨ st.blobNext.length < 43 then .checkActive else .hash j

/-- What the set-up of a pass is given. -/
def setUpEnv (j : JobRef) (dataset : RandomXDataset) (jit : Option NativeCode) : Environment :=
  { work := some j, dataset, jit, verifierJit := none }

variable {T} in
/-- After the verdict on a share. -/
def afterVerify (e : Hashed T) : Option Submission → Phase T
  | none => .recordFailure e
  | some sub => .submit e sub

/-- One access of worker `i`. `J` is what a JIT allocation can return. -/
inductive Act (i : Fin T.toNat) : Shared T → Thread T → Shared T → Thread T → Prop where
  -- while mining_active.load(..)
  | active {g : Shared T} {st n} : g.miningActive = true →
      Act i g ⟨st, n, .checkActive⟩ g ⟨st, n, .getWork⟩
  | inactive {g : Shared T} {st n} : g.miningActive = false →
      Act i g ⟨st, n, .checkActive⟩ g ⟨st, n, .flushRest⟩
  -- pool.get_work(): any job, or none yet
  | noWork {g st n} : Act i g ⟨st, n, .getWork⟩ g ⟨st, n, .checkActive⟩
  | work {g st n} (j : JobRef) : Act i g ⟨st, n, .getWork⟩ g ⟨st, n, .setUp j⟩
  | keep {g st n j} : ¬ NeedsRekey rc.jobs (installJob rc.jobs st j) j →
      Act i g ⟨st, n, .setUp j⟩ g ⟨installJob rc.jobs st j, n, afterSetUp (installJob rc.jobs st j) j⟩
  -- the lock of the cache is held until the dataset is there
  | rekey {g : Shared T} {st st' n j cache dataset jit} :
      NeedsRekey rc.jobs (installJob rc.jobs st j) j → g.cachePoisoned = false →
      GetOrGenerateDataset p (rc.jobs j).seedHash g.datasetCache cache dataset → J jit →
      rekeyVm p rc.jobs (rc.worker T i) (installJob rc.jobs st j) (setUpEnv j dataset jit) j = st' →
      Act i g ⟨st, n, .setUp j⟩ { g with datasetCache := cache } ⟨st', n, afterSetUp st' j⟩
  | poisoned {g : Shared T} {st n j} : NeedsRekey rc.jobs (installJob rc.jobs st j) j → g.cachePoisoned = true →
      Act i g ⟨st, n, .setUp j⟩ g ⟨installJob rc.jobs st j, n, .panicked (.setUp j)⟩
  | poison {g : Shared T} {st n j} : NeedsRekey rc.jobs (installJob rc.jobs st j) j → g.cachePoisoned = false →
      (∀ c, g.datasetCache = some c → c.seedHash ≠ (rc.jobs j).seedHash) →
      GenerationPanics p (rc.jobs j).seedHash →
      Act i g ⟨st, n, .setUp j⟩ { g with cachePoisoned := true } ⟨installJob rc.jobs st j, n, .panicked (.setUp j)⟩
  | hash {g : Shared T} {st st' n j hash} : hashNonce p (rc.worker T i) st = some (hash, st') →
      Act i g ⟨st, n, .hash j⟩ { g with hashed := g.hashed ++ [⟨i, j, hash⟩] } ⟨st', n + 1, .recordBest ⟨i, j, hash⟩⟩
  | hashPanics {g st n j} : hashNonce p (rc.worker T i) st = none →
      Act i g ⟨st, n, .hash j⟩ g ⟨st, n, .panicked (.hash j)⟩
  | recordBest {g : Shared T} {st n e} :
      Act i g ⟨st, n, .recordBest e⟩
        { g with stats := g.stats.recordBest (hashVal e.hash), recorded := g.recorded ++ [e] }
        ⟨st, n, .recordDifficulty e⟩
  | recordDifficulty {g : Shared T} {st n} {e : Hashed T} :
      Act i g ⟨st, n, .recordDifficulty e⟩
        { g with stats := g.stats.recordDifficulty (targetToDifficulty (rc.jobs e.job).target) }
        ⟨st, n, if meetsTarget e.hash (rc.jobs e.job).target then .recordFound e else .flush⟩
  | recordFound {g : Shared T} {st n e} :
      Act i g ⟨st, n, .recordFound e⟩
        { g with stats := { g.stats with sharesFound := g.stats.sharesFound + 1 } } ⟨st, n, .verify e⟩
  | verify {g st st' n} {e : Hashed T} {env : Environment} {out} : J env.verifierJit →
      submitHash p rc.jobs st env e.job e.hash = some (st', out) →
      Act i g ⟨st, n, .verify e⟩ g ⟨st', n, afterVerify e out⟩
  | verifyPanics {g st n} {e : Hashed T} {env : Environment} : J env.verifierJit →
      submitHash p rc.jobs st env e.job e.hash = none →
      Act i g ⟨st, n, .verify e⟩ g ⟨st, n, .panicked (.verify e)⟩
  | recordFailure {g : Shared T} {st n e} :
      Act i g ⟨st, n, .recordFailure e⟩
        { g with
          stats := { g.stats with verifyFailures := g.stats.verifyFailures + 1 }
          withheld := g.withheld ++ [e] }
        ⟨st, n, .flush⟩
  | submit {g : Shared T} {st n e sub} :
      Act i g ⟨st, n, .submit e sub⟩ { g with submitted := g.submitted ++ [(e, sub)] } ⟨st, n, .flush⟩
  -- the counter is flushed every five seconds
  | noFlush {g st n} : Act i g ⟨st, n, .flush⟩ g ⟨st, n, .checkActive⟩
  | flush {g : Shared T} {st n} :
      Act i g ⟨st, n, .flush⟩ { g with totalHashes := g.totalHashes + n } ⟨st, 0, .checkActive⟩
  | flushRest {g : Shared T} {st n} :
      Act i g ⟨st, n, .flushRest⟩ { g with totalHashes := g.totalHashes + n } ⟨st, n, .stopped⟩

/-- The workers, and what stops them: `stop`, or the handler of an interrupt. -/
def workerThreads : System (Fin T.toNat) (Shared T) (Thread T) where
  act := Act p rc T J
  outside g g' := g.miningActive = true ∧ g' = { g with miningActive := false }

/-- The threads as they are spawned. -/
def spawned : State (Fin T.toNat) (Shared T) (Thread T) where
  shared := .init T
  threads := fun i => ⟨.init (rc.worker T i) rc.ctl, 0, .checkActive⟩

end Miner
end MinerTim
