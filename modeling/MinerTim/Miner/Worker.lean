import MinerTim.Miner.Share
import MinerTim.RandomX.Vm

/-!
# `Miner.Worker` — the worker loop (`worker_loop`)

One call of `workerIteration` is one pass of the loop of `worker_loop`. What the pass is given by the
rest of the program is an `Environment`: the job that `get_work` returns, the dataset that
`get_or_generate_dataset` would return, and whether the JIT of a VM built in this pass could be
allocated.

An `Arc<Job>` is modelled by its identity, a number, and `jobs` maps it to the job, which is never
mutated: the identities are those of live objects, since the worker keeps the one it compares with alive.
Logging, timing and the statistics counters are left out. `none` is a panic.
-/

namespace MinerTim
namespace Miner

open RandomX

/-- The identity of a job object. -/
abbrev JobRef := Nat

/-- The VM type of a worker: `new_full` builds a V1 machine. -/
abbrev WorkerVm := RandomXVm .V1

/-- `RandomXVm::native_loop_effective`; there is no JIT off aarch64. -/
def nativeLoopEffective (vm : WorkerVm) : Bool :=
  nativeLoopApplies vm.useNativeLoop .V1 vm.dataset.isSome vm.jit.isSome

/-! ## The share verifier -/

/-- `ShareVerifier`: the reference VM used to re-check candidate shares. -/
structure ShareVerifier where
  vm : Option WorkerVm
  dataset : Option RandomXDataset
  key : List Byte
  enabled : Bool

namespace ShareVerifier

/-- `ShareVerifier::new`. -/
def new (enabled : Bool) : ShareVerifier := { vm := none, dataset := none, key := [], enabled }

/-- Point the verifier at a new seed; a cached VM is dropped. -/
def rekey (v : ShareVerifier) (key : List Byte) (dataset : RandomXDataset) : ShareVerifier :=
  { v with vm := none, dataset := some dataset, key }

/-- `set_enabled`. -/
def setEnabled (v : ShareVerifier) (enabled : Bool) : ShareVerifier := { v with enabled }

/-- The reference hash of a blob, or nothing when verification does not apply, with the verifier and the
    control word after the call. `jit` is the JIT of a VM built by it. -/
def reference (p : Platform) (v : ShareVerifier) (jit : Option NativeCode) (ctl : BitVec 32)
    (blob : List Byte) : Option (Option (Vector Byte 32) × ShareVerifier × BitVec 32) :=
  if v.enabled then
    match v.dataset with
    | none => some (none, v, ctl)
    | some ds => do
      let vm := v.vm.getD ((RandomXVm.newFullVersioned p v.key ds .V1 jit).setNativeLoop false)
      let (hash, vm, ctl) ← vm.calculateHash p ctl blob
      return (some hash, { v with vm := some vm }, ctl)
  else some (none, v, ctl)

end ShareVerifier

/-! ## One pass -/

/-- What a worker is started with. -/
structure WorkerConfig where
  threadId : BitVec 32
  threadCount : BitVec 32
  nativeLoop : Bool
  verifyShares : Bool

/-- The locals of `worker_loop`, and the floating-point control word of its thread. -/
structure WorkerState where
  vm : Option WorkerVm
  currentKey : List Byte
  currentJob : Option JobRef
  blobCurrent : List Byte
  blobNext : List Byte
  nonce : Word
  pipelineReady : Bool
  verifier : ShareVerifier
  ctl : BitVec 32

/-- The locals before the loop. -/
def WorkerState.init (cfg : WorkerConfig) (ctl : BitVec 32) : WorkerState where
  vm := none
  currentKey := []
  currentJob := none
  blobCurrent := []
  blobNext := []
  nonce := cfg.threadId.setWidth 64
  pipelineReady := false
  verifier := .new false
  ctl := ctl

/-- What one pass is given by the rest of the program. -/
structure Environment where
  work : Option JobRef
  dataset : RandomXDataset
  jit : Option NativeCode
  verifierJit : Option NativeCode

/-- The arguments of a `submit_share` call. -/
structure Submission where
  jobId : String
  nonceHex : String
  resultHex : String
  generation : Nat
deriving DecidableEq, Repr

/-- `is_new_job`. -/
def isNewJob (cached : Option JobRef) (fetched : JobRef) : Bool := cached != some fetched

variable (p : Platform) (jobs : JobRef → Job) (cfg : WorkerConfig)

/-- Take over the blob of a new job. -/
def installJob (st : WorkerState) (j : JobRef) : WorkerState :=
  if isNewJob st.currentJob j then
    { st with
      currentJob := some j, pipelineReady := false
      blobCurrent := (jobs j).blob, blobNext := (jobs j).blob }
  else st

/-- Build the VM, or point it at a new seed. -/
def rekeyVm (st : WorkerState) (env : Environment) (j : JobRef) : WorkerState :=
  let seed := (jobs j).seedHash
  if seed ≠ st.currentKey ∨ st.vm.isNone then
    let vm := match st.vm with
      | some vm => vm.reinit p seed (some env.dataset)
      | none => (RandomXVm.newFullVersioned p seed env.dataset .V1 env.jit).setNativeLoop
          cfg.nativeLoop
    { st with
      vm := some vm
      verifier := (st.verifier.rekey seed env.dataset).setEnabled
        (cfg.verifyShares && nativeLoopEffective vm)
      currentKey := seed
      pipelineReady := false }
  else st

/-- Hash the current nonce while filling the scratchpad for the next one. -/
def hashNonce (st : WorkerState) : Option (Vector Byte 32 × WorkerState) := do
  let vm ← st.vm
  let nextNonce := st.nonce + cfg.threadCount.setWidth 64
  let blobCurrent := writeNonceLe st.blobCurrent (st.nonce.setWidth 32)
  let blobNext := writeNonceLe st.blobNext (nextNonce.setWidth 32)
  let vm := if st.pipelineReady then vm else vm.prepareScratchpad p blobCurrent
  let (hash, vm, ctl) ← vm.calculateHashPipelined p st.ctl blobNext
  return (hash,
    { st with
      vm := some vm, blobCurrent, blobNext, nonce := nextNonce, pipelineReady := true, ctl })

/-- Verify a candidate share and submit it, unless the reference path disagrees. -/
def submitHash (st : WorkerState) (env : Environment) (j : JobRef) (hash : Vector Byte 32) :
    Option (WorkerState × Option Submission) :=
  if meetsTarget hash (jobs j).target then do
    let (reference, verifier, ctl) ← st.verifier.reference p env.verifierJit st.ctl st.blobCurrent
    let verdict := classifyShare verifier.enabled hash reference
    let submission : Submission :=
      { jobId := (jobs j).jobId
        nonceHex := hexEncode ((st.blobCurrent.drop 39).take 4)
        resultHex := hexEncode hash.toList
        generation := (jobs j).generation }
    return ({ st with verifier, ctl }, if verdict.shouldSubmit then some submission else none)
  else some (st, none)

/-- One pass of the loop: the state after it, and the share it submits, if any. -/
def workerIteration (st : WorkerState) (env : Environment) :
    Option (WorkerState × Option Submission) :=
  match env.work with
  | none => some (st, none)
  | some j =>
    let st := rekeyVm p jobs cfg (installJob jobs st j) env j
    if st.blobCurrent.length < 43 ∨ st.blobNext.length < 43 then some (st, none)
    else do
      let (hash, st) ← hashNonce p cfg st
      submitHash p jobs st env j hash

/-- Passes of the loop in turn: the state after them, and the shares they submit, in order. -/
def workerRun (st : WorkerState) : List Environment → Option (WorkerState × List Submission)
  | [] => some (st, [])
  | env :: envs => do
    let (st, submission) ← workerIteration p jobs cfg st env
    let (st, submissions) ← workerRun st envs
    return (st, submission.toList ++ submissions)

end Miner
end MinerTim
