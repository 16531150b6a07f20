import MinerTim.Miner.Worker
import MinerTim.RandomX.Hashing

/-!
# `Miner.WorkerSpec` — every submitted share is a share of its job

The pipelined VM returns the hash of the blob it was prepared for one pass earlier. The invariant of the
loop (`WorkerInv`) says which blob that is: the blob of the current job with the nonce about to be hashed,
whenever `pipelineReady` is set. Everything that could break the pairing clears the flag: a new job object
(`installJob`), and a new seed (`rekeyVm`).

`workerIteration_inv` is the step, `workerRun_valid` the run.
-/

namespace MinerTim
namespace Miner

open RandomX

variable (p : Platform) (jobs : JobRef → Job) (ctl : BitVec 32)

/-- A submission that names job `j`, a nonce, and the hash of the job's blob with that nonce, which meets
    the job's target. -/
def ValidShare (j : JobRef) (sub : Submission) : Prop :=
  ∃ (nonce : BitVec 32) (result : Vector Byte 32),
    sub.jobId = (jobs j).jobId ∧ sub.generation = (jobs j).generation ∧
    sub.nonceHex = hexEncode (nonceBytes nonce) ∧ sub.resultHex = hexEncode result.toList ∧
    calculateHashVersioned p (jobs j).seedHash (writeNonceLe (jobs j).blob nonce) .V1 ctl
      = some (result, ctl) ∧
    meetsTarget result (jobs j).target = true

/-- A blob that is the job's, up to the nonce. -/
def SameBlob (blob blob' : List Byte) : Prop :=
  ∀ nonce, writeNonceLe blob nonce = writeNonceLe blob' nonce

theorem SameBlob.length_eq {blob blob' : List Byte} (h : SameBlob blob blob') :
    blob.length = blob'.length := by
  have := congrArg List.length (h 0)
  simpa using this

theorem SameBlob.write {blob blob' : List Byte} (h : SameBlob blob blob') (nonce : BitVec 32) :
    SameBlob (writeNonceLe blob nonce) blob' := by
  intro nonce'
  rw [writeNonceLe_writeNonceLe, h nonce']

/-- The invariant between passes. -/
structure WorkerInv (st : WorkerState) : Prop where
  ctl : st.ctl = ctl
  keyed : ∀ vm, st.vm = some vm → vm.KeyedTo p st.currentKey
  blobs : ∀ j, st.currentJob = some j →
    SameBlob st.blobCurrent (jobs j).blob ∧ SameBlob st.blobNext (jobs j).blob
  ready : st.pipelineReady = true → ∃ j vm, st.currentJob = some j ∧ st.vm = some vm ∧
    vm.Prepared p (writeNonceLe (jobs j).blob (st.nonce.setWidth 32))

/-- The worker is set up for job `j`: its blob is installed and the VM is keyed to its seed. -/
structure SetFor (st : WorkerState) (j : JobRef) : Prop where
  job : st.currentJob = some j
  key : st.currentKey = (jobs j).seedHash
  vm : st.vm.isSome = true

/-- What a pass is given: the dataset returned for a seed is that seed's, and native code does what the
    interpreter does. -/
structure EnvOk (env : Environment) : Prop where
  dataset : ∀ j, env.work = some j → IsDatasetFor p (jobs j).seedHash env.dataset
  jit : JitInterprets p env.jit

variable {p jobs ctl}

theorem workerInv_init (cfg : WorkerConfig) : WorkerInv p jobs ctl (.init cfg ctl) :=
  ⟨rfl, nofun, nofun, nofun⟩

theorem installJob_inv {st : WorkerState} (h : WorkerInv p jobs ctl st) (j : JobRef) :
    WorkerInv p jobs ctl (installJob jobs st j) ∧ (installJob jobs st j).currentJob = some j := by
  unfold installJob
  split
  · refine ⟨⟨h.ctl, h.keyed, ?_, nofun⟩, rfl⟩
    intro j' hj'
    obtain rfl := Option.some.inj hj'
    exact ⟨fun _ => rfl, fun _ => rfl⟩
  next hnew =>
    refine ⟨h, ?_⟩
    simpa [isNewJob] using hnew

theorem rekeyVm_inv {cfg : WorkerConfig} {st : WorkerState} (h : WorkerInv p jobs ctl st)
    {env : Environment} {j : JobRef} (hjob : st.currentJob = some j)
    (hds : IsDatasetFor p (jobs j).seedHash env.dataset)
    (hjit : JitInterprets p env.jit) :
    WorkerInv p jobs ctl (rekeyVm p jobs cfg st env j) ∧
      SetFor jobs (rekeyVm p jobs cfg st env j) j := by
  unfold rekeyVm
  simp only
  split
  · refine ⟨⟨h.ctl, ?_, h.blobs, nofun⟩, ⟨hjob, rfl, rfl⟩⟩
    intro vm hvm
    obtain rfl := Option.some.inj hvm
    cases hold : st.vm with
    | none =>
      have hnew : (RandomXVm.newFullVersioned p (jobs j).seedHash env.dataset .V1 env.jit).KeyedTo p
          (jobs j).seedHash :=
        RandomXVm.CreatedFor.keyedTo (.full env.jit env.dataset hds) hjit
      exact hnew.setNativeLoop cfg.nativeLoop
    | some old =>
      refine (h.keyed old hold).reinit ?_
      rintro ds hds'
      obtain rfl := Option.some.inj hds'
      exact hds
  next hkeep =>
    simp only [not_or, not_not, Option.isNone_iff_eq_none] at hkeep
    exact ⟨h, hjob, hkeep.1.symm, Option.isSome_iff_ne_none.mpr hkeep.2⟩

/-- **The hash of a pass is the hash of the current blob**, with the nonce of the pass. -/
theorem hashNonce_spec {cfg : WorkerConfig} {st st' : WorkerState} {j : JobRef}
    {hash : Vector Byte 32} (h : WorkerInv p jobs ctl st) (hset : SetFor jobs st j)
    (hrun : hashNonce p cfg st = some (hash, st')) :
    WorkerInv p jobs ctl st' ∧ SetFor jobs st' j ∧
      st'.blobCurrent = writeNonceLe (jobs j).blob (st.nonce.setWidth 32) ∧
      calculateHashVersioned p (jobs j).seedHash
        (writeNonceLe (jobs j).blob (st.nonce.setWidth 32)) .V1 ctl = some (hash, ctl) := by
  obtain ⟨vm, hvm⟩ := Option.isSome_iff_exists.mp hset.vm
  obtain ⟨hcurrent, hnext⟩ := h.blobs j hset.job
  have hkeyed := h.keyed vm hvm
  unfold hashNonce at hrun
  simp only [hvm, Option.bind_eq_bind, Option.bind_some, hcurrent (st.nonce.setWidth 32),
    hnext ((st.nonce + cfg.threadCount.setWidth 64).setWidth 32), h.ctl] at hrun
  -- whether the pipeline was ready or is filled now, the VM is prepared for the current blob
  obtain ⟨vm₁, hvm₁, hprep, hctx⟩ : ∃ vm₁, (if st.pipelineReady then vm
      else vm.prepareScratchpad p (writeNonceLe (jobs j).blob (st.nonce.setWidth 32))) = vm₁ ∧
      vm₁.Prepared p (writeNonceLe (jobs j).blob (st.nonce.setWidth 32)) ∧
      vm₁.context = vm.context := by
    cases hready : st.pipelineReady with
    | true =>
      obtain ⟨j', vm', hj', hvm', hprep⟩ := h.ready hready
      obtain rfl := Option.some.inj (hj'.symm.trans hset.job)
      obtain rfl := Option.some.inj (hvm'.symm.trans hvm)
      exact ⟨_, rfl, hprep, rfl⟩
    | false =>
      refine ⟨_, rfl, ?_⟩
      simp only [Bool.false_eq_true, if_false, RandomXVm.prepareScratchpad_eq]
      exact ⟨RandomXVm.withFill_prepared p vm _ _ rfl, RandomXVm.context_withFill vm _⟩
  rw [hvm₁] at hrun
  obtain ⟨⟨hash', vm', ctl'⟩, hcall, hres⟩ := Option.bind_eq_some_iff.mp hrun
  obtain ⟨rfl, rfl⟩ := Prod.mk.inj (Option.some.inj hres)
  obtain ⟨hhash, hafter⟩ := RandomXVm.calculateHashPipelined_eq p hprep ctl
    (writeNonceLe (jobs j).blob ((st.nonce + cfg.threadCount.setWidth 64).setWidth 32))
  obtain ⟨hprep', hctx'⟩ := hafter _ hcall
  have hctl' : ctl' = ctl := RandomXVm.ctl_calculateHashPipelined p vm₁ ctl _ hcall
  rw [hcall, hctx, hkeyed.hashOf_eq, hset.key] at hhash
  refine ⟨⟨hctl', ?_, ?_, ?_⟩, ⟨hset.job, hset.key, rfl⟩, rfl, ?_⟩
  · intro w hw
    obtain rfl := Option.some.inj hw
    exact hkeyed.of_context (hctx'.trans hctx)
  · intro j' hj'
    obtain rfl := Option.some.inj (hset.job.symm.trans hj')
    exact ⟨fun nonce => writeNonceLe_writeNonceLe _ _ _,
      fun nonce => writeNonceLe_writeNonceLe _ _ _⟩
  · intro _
    exact ⟨j, vm', hset.job, rfl, hprep'⟩
  · rw [← hhash, Option.map_some, hctl']

/-- The share of a pass is a share of its job; verification can only withhold it. -/
theorem submitHash_spec {st st' : WorkerState} {env : Environment} {j : JobRef}
    {hash : Vector Byte 32} {out : Option Submission} {nonce : BitVec 32}
    (h : WorkerInv p jobs ctl st) (hlen : 43 ≤ (jobs j).blob.length)
    (hblob : st.blobCurrent = writeNonceLe (jobs j).blob nonce)
    (hhash : calculateHashVersioned p (jobs j).seedHash (writeNonceLe (jobs j).blob nonce) .V1 ctl
      = some (hash, ctl))
    (hrun : submitHash p jobs st env j hash = some (st', out)) :
    WorkerInv p jobs ctl st' ∧ ∀ sub, out = some sub → ValidShare p jobs ctl j sub := by
  unfold submitHash at hrun
  split at hrun
  next hmeets =>
    obtain ⟨⟨reference, verifier, ctl'⟩, href, hres⟩ := Option.bind_eq_some_iff.mp hrun
    obtain ⟨rfl, rfl⟩ := Prod.mk.inj (Option.some.inj hres)
    -- the verifier runs in the worker's thread and gives its rounding mode back
    have hctl' : ctl' = st.ctl := by
      unfold ShareVerifier.reference at href
      split at href
      · split at href
        · exact (Prod.mk.inj (Prod.mk.inj (Option.some.inj href)).2).2.symm
        · obtain ⟨⟨hash', vm', ctl''⟩, hcall, hres'⟩ := Option.bind_eq_some_iff.mp href
          obtain rfl := (Prod.mk.inj (Prod.mk.inj (Option.some.inj hres')).2).2
          exact RandomXVm.ctl_calculateHash p _ st.ctl _ hcall
      · exact (Prod.mk.inj (Prod.mk.inj (Option.some.inj href)).2).2.symm
    refine ⟨⟨hctl'.trans h.ctl, h.keyed, h.blobs, h.ready⟩, ?_⟩
    intro sub hsub
    split at hsub
    · obtain rfl := Option.some.inj hsub
      refine ⟨nonce, hash, rfl, rfl, ?_, rfl, hhash, hmeets⟩
      show hexEncode ((st.blobCurrent.drop 39).take 4) = _
      rw [hblob, take_drop_writeNonceLe hlen]
    · cases hsub
  next =>
    obtain ⟨rfl, rfl⟩ := Prod.mk.inj (Option.some.inj hrun)
    exact ⟨h, nofun⟩

/-- What one pass preserves, and what it submits. -/
theorem workerIteration_inv {cfg : WorkerConfig} {st st' : WorkerState} {env : Environment}
    {out : Option Submission} (h : WorkerInv p jobs ctl st) (henv : EnvOk p jobs env)
    (hrun : workerIteration p jobs cfg st env = some (st', out)) :
    WorkerInv p jobs ctl st' ∧
      ∀ sub, out = some sub → ∃ j, env.work = some j ∧ ValidShare p jobs ctl j sub := by
  unfold workerIteration at hrun
  cases hwork : env.work with
  | none =>
    rw [hwork] at hrun
    obtain ⟨rfl, rfl⟩ := Prod.mk.inj (Option.some.inj hrun)
    exact ⟨h, nofun⟩
  | some j =>
    rw [hwork] at hrun
    simp only at hrun
    obtain ⟨hinstall, hjob⟩ := installJob_inv h j
    obtain ⟨hinv, hset⟩ := @rekeyVm_inv p jobs ctl cfg _ hinstall env j hjob
      (henv.dataset j hwork) henv.jit
    generalize rekeyVm p jobs cfg (installJob jobs st j) env j = st₁ at hrun hinv hset
    split at hrun
    · obtain ⟨rfl, rfl⟩ := Prod.mk.inj (Option.some.inj hrun)
      exact ⟨hinv, nofun⟩
    -- the hash is of the blob with the nonce, and what is submitted is that nonce and that hash
    next hlong =>
      obtain ⟨⟨hash, st₂⟩, hhash, hsubmit⟩ := Option.bind_eq_some_iff.mp hrun
      obtain ⟨hinv₂, _, hblob, hvalue⟩ := hashNonce_spec hinv hset hhash
      have hlen : 43 ≤ (jobs j).blob.length := by
        have := (hinv.blobs j hset.job).1.length_eq
        omega
      obtain ⟨hinv', hvalid⟩ := submitHash_spec hinv₂ hlen hblob hvalue hsubmit
      exact ⟨hinv', fun sub hsub => ⟨j, rfl, hvalid sub hsub⟩⟩

/-- **Every submitted share is a share of the job it names**: over any sequence of passes, each
    `submit_share` call passes the job id and the generation of a job object that `get_work` returned, a
    nonce, and the RandomX hash, under the seed of that job, of its blob with that nonce, which meets its
    target. -/
theorem workerRun_valid {cfg : WorkerConfig} {envs : List Environment} {st : WorkerState}
    {subs : List Submission} (henvs : ∀ env ∈ envs, EnvOk p jobs env)
    (hrun : workerRun p jobs cfg (.init cfg ctl) envs = some (st, subs)) :
    ∀ sub ∈ subs, ∃ env ∈ envs, ∃ j, env.work = some j ∧ ValidShare p jobs ctl j sub := by
  suffices ∀ st₀, WorkerInv p jobs ctl st₀ → workerRun p jobs cfg st₀ envs = some (st, subs) →
      ∀ sub ∈ subs, ∃ env ∈ envs, ∃ j, env.work = some j ∧ ValidShare p jobs ctl j sub from
    this _ (workerInv_init cfg) hrun
  clear hrun
  induction envs generalizing subs with
  | nil =>
    intro st₀ _ hrun
    obtain ⟨rfl, rfl⟩ := Prod.mk.inj (Option.some.inj hrun)
    simp
  | cons env envs ih =>
    intro st₀ hinv hrun
    obtain ⟨⟨st₁, out⟩, hstep, hrest⟩ := Option.bind_eq_some_iff.mp hrun
    obtain ⟨⟨st₂, subs'⟩, htail, hres⟩ := Option.bind_eq_some_iff.mp hrest
    obtain ⟨rfl, rfl⟩ := Prod.mk.inj (Option.some.inj hres)
    obtain ⟨hinv₁, hout⟩ := workerIteration_inv hinv (henvs env (by simp)) hstep
    intro sub hsub
    rcases List.mem_append.mp hsub with hsub | hsub
    · obtain ⟨j, hwork, hvalid⟩ := hout sub (by simpa using hsub)
      exact ⟨env, by simp, j, hwork, hvalid⟩
    · obtain ⟨env', hmem, hj⟩ := ih (fun env henv => henvs env (by simp [henv])) st₁ hinv₁ htail
        sub hsub
      exact ⟨env', by simp [hmem], hj⟩

/-! ### Passes that return -/

/-- The worker after a hash, with the VM that the hash leaves. -/
def WorkerState.afterHash (st : WorkerState) (cfg : WorkerConfig) (vm : WorkerVm) : WorkerState :=
  { st with
    vm := some vm
    blobCurrent := writeNonceLe st.blobCurrent (st.nonce.setWidth 32)
    blobNext := writeNonceLe st.blobNext ((st.nonce + cfg.threadCount.setWidth 64).setWidth 32)
    nonce := st.nonce + cfg.threadCount.setWidth 64
    pipelineReady := true }

/-- Where the pipeline is not ready and the blob has a hash, a pass finds it. -/
theorem exists_hashNonce (cfg : WorkerConfig) {st : WorkerState} {vm : WorkerVm} {hash : Vector Byte 32}
    (hvm : st.vm = some vm) (hready : st.pipelineReady = false)
    (hhash : hashOf p vm.context .V1 st.ctl (writeNonceLe st.blobCurrent (st.nonce.setWidth 32)) = some hash) :
    ∃ vm', vm'.context = vm.context ∧ hashNonce p cfg st = some (hash, st.afterHash cfg vm') := by
  have hctx : (vm.prepareScratchpad p (writeNonceLe st.blobCurrent (st.nonce.setWidth 32))).context = vm.context := by
    rw [RandomXVm.prepareScratchpad_eq, RandomXVm.context_withFill]
  have hprep : (vm.prepareScratchpad p (writeNonceLe st.blobCurrent (st.nonce.setWidth 32))).Prepared p
      (writeNonceLe st.blobCurrent (st.nonce.setWidth 32)) := by
    rw [RandomXVm.prepareScratchpad_eq]
    exact RandomXVm.withFill_prepared p vm _ _ rfl
  obtain ⟨hspec, hafter⟩ := RandomXVm.calculateHashPipelined_eq p hprep st.ctl
    (writeNonceLe st.blobNext ((st.nonce + cfg.threadCount.setWidth 64).setWidth 32))
  rw [hctx, hhash] at hspec
  obtain ⟨⟨hash', vm', ctl'⟩, hcall, heq⟩ := Option.map_eq_some_iff.mp hspec
  obtain ⟨rfl, rfl⟩ := Prod.mk.inj heq
  refine ⟨vm', (hafter _ hcall).2.trans hctx, ?_⟩
  unfold hashNonce
  simp only [hvm, hready, Option.bind_eq_bind, Option.bind_some, Bool.false_eq_true, if_false, hcall]
  rfl

/-- A pass whose hash misses the target of the job submits nothing. -/
theorem workerIteration_of_miss {cfg : WorkerConfig} {st st₁ : WorkerState} {env : Environment} {j : JobRef}
    {hash : Vector Byte 32} (hwork : env.work = some j)
    (hlong : 43 ≤ (rekeyVm p jobs cfg (installJob jobs st j) env j).blobCurrent.length ∧
      43 ≤ (rekeyVm p jobs cfg (installJob jobs st j) env j).blobNext.length)
    (hmined : hashNonce p cfg (rekeyVm p jobs cfg (installJob jobs st j) env j) = some (hash, st₁))
    (hmiss : meetsTarget hash (jobs j).target = false) : workerIteration p jobs cfg st env = some (st₁, none) := by
  unfold workerIteration submitHash
  simp only [hwork, if_neg (not_or.mpr ⟨hlong.1.not_gt, hlong.2.not_gt⟩), hmined, Option.bind_eq_bind,
    Option.bind_some, hmiss, Bool.false_eq_true, if_false]

/-- On the null platform every hash is zero. -/
theorem hashOf_null {vm : WorkerVm} {ds : RandomXDataset} (hds : vm.dataset = some ds) (hjit : vm.jit = none)
    (ctl : BitVec 32) (input : List Byte) :
    hashOf nullPlatform vm.context .V1 ctl input = some (Vector.replicate 32 0) := by
  have hready : vm.context.Ready nullPlatform.fp nullPlatform.aes .V1 := by
    refine ⟨VmContext.interprets_of_jit hjit, ?_⟩
    intro k hk
    have hsize : k.toNat < ds.items.size := by rw [ds.size_eq]; exact hk
    exact ⟨ds.items[k.toNat], by
      simp [VmContext.line, RandomXVm.context, hds, datasetLine, RandomXDataset.getItem, hsize]⟩
  obtain ⟨hash, hhash⟩ := exists_hashOf hready ctl input
  obtain ⟨c, _, hfinish⟩ := Option.map_eq_some_iff.mp hhash
  rw [hhash, ← hfinish]
  rfl

/-- A worker that interprets, and so does not verify. -/
structure Quiet (st : WorkerState) : Prop where
  vm : ∀ vm, st.vm = some vm → vm.dataset.isSome = true ∧ vm.jit = none
  verifier : st.verifier.enabled = false

theorem quiet_init (cfg : WorkerConfig) (ctl : BitVec 32) : Quiet (.init cfg ctl) := ⟨nofun, rfl⟩

/-- Setting such a worker up for a new job. -/
theorem Quiet.exists_rekeyVm {cfg : WorkerConfig} {st : WorkerState} {env : Environment} {j : JobRef} (h : Quiet st)
    (hnew : st.currentJob ≠ some j) (hjit : env.jit = none) :
    ∃ st₀ vm ds, rekeyVm p jobs cfg (installJob jobs st j) env j = st₀ ∧ st₀.vm = some vm ∧ vm.dataset = some ds ∧
      vm.jit = none ∧ st₀.verifier.enabled = false ∧ st₀.pipelineReady = false ∧ st₀.currentJob = some j ∧
      st₀.blobCurrent = (jobs j).blob ∧ st₀.blobNext = (jobs j).blob := by
  have hinstall : installJob jobs st j
      = { st with
          currentJob := some j, pipelineReady := false
          blobCurrent := (jobs j).blob, blobNext := (jobs j).blob } := by
    unfold installJob
    rw [if_pos (by simpa [isNewJob] using hnew)]
  have hoff : ∀ vm : WorkerVm, vm.jit = none → (cfg.verifyShares && nativeLoopEffective vm) = false := by
    intro vm hvm
    simp [nativeLoopEffective, nativeLoopApplies, hvm]
  rw [hinstall]
  unfold rekeyVm
  simp only
  split
  · cases hold : st.vm with
    | none => exact ⟨_, _, env.dataset, rfl, rfl, rfl, hjit, hoff _ hjit, rfl, rfl, rfl, rfl⟩
    | some old =>
      have hold' : old.jit = none := (h.vm old hold).2
      exact ⟨_, _, env.dataset, rfl, rfl, rfl, hold', hoff _ hold', rfl, rfl, rfl, rfl⟩
  next hkeep =>
    simp only [not_or, not_not, Option.isNone_iff_eq_none] at hkeep
    obtain ⟨vm, hvm⟩ := Option.ne_none_iff_exists'.mp hkeep.2
    obtain ⟨hsome, hvmjit⟩ := h.vm vm hvm
    obtain ⟨ds, hds⟩ := Option.isSome_iff_exists.mp hsome
    exact ⟨_, vm, ds, rfl, hvm, hds, hvmjit, h.verifier, rfl, rfl, rfl, rfl⟩

/-- On the null platform such a worker hashes in a pass on a new job. -/
theorem Quiet.exists_hashNonce {cfg : WorkerConfig} {st : WorkerState} {env : Environment} {j : JobRef} (h : Quiet st)
    (hnew : st.currentJob ≠ some j) (hjit : env.jit = none) :
    ∃ st₀ st₁, rekeyVm nullPlatform jobs cfg (installJob jobs st j) env j = st₀ ∧
      st₀.blobCurrent = (jobs j).blob ∧ st₀.blobNext = (jobs j).blob ∧
      hashNonce nullPlatform cfg st₀ = some (Vector.replicate 32 0, st₁) ∧ Quiet st₁ ∧ st₁.currentJob = some j := by
  obtain ⟨st₀, vm, ds, hset, hvm, hds, hvmjit, hverifier, hready, hjob, hcurrent, hnext⟩ :=
    @Quiet.exists_rekeyVm nullPlatform jobs cfg st env j h hnew hjit
  obtain ⟨vm', hctx, hhash⟩ := Miner.exists_hashNonce cfg hvm hready (hashOf_null hds hvmjit _ _)
  refine ⟨st₀, _, hset, hcurrent, hnext, hhash, ⟨?_, hverifier⟩, hjob⟩
  intro w hw
  obtain rfl := Option.some.inj hw
  have hds' : vm'.dataset = vm.dataset := congrArg VmContext.dataset hctx
  have hjit' : vm'.jit = vm.jit := congrArg VmContext.jit hctx
  exact ⟨by rw [hds', hds]; rfl, hjit'.trans hvmjit⟩

/-- It submits what meets the target. -/
theorem Quiet.exists_submitHash {st : WorkerState} {env : Environment} {j : JobRef} {hash : Vector Byte 32}
    (h : Quiet st) :
    ∃ out, submitHash p jobs st env j hash = some (st, out) ∧ out.isSome = meetsTarget hash (jobs j).target := by
  unfold submitHash ShareVerifier.reference
  cases hmeets : meetsTarget hash (jobs j).target with
  | true =>
    simp only [if_true, h.verifier, Bool.false_eq_true, if_false, Option.bind_eq_bind, Option.bind_some,
      classifyShare]
    exact ⟨_, rfl, rfl⟩
  | false => exact ⟨none, rfl, rfl⟩

/-- The pass returns. -/
theorem Quiet.exists_workerIteration {cfg : WorkerConfig} {st : WorkerState} {env : Environment} {j : JobRef}
    (h : Quiet st) (hnew : st.currentJob ≠ some j) (hjit : env.jit = none) (hwork : env.work = some j)
    (hlong : 43 ≤ (jobs j).blob.length) :
    ∃ st' out, workerIteration nullPlatform jobs cfg st env = some (st', out) ∧ Quiet st' ∧
      st'.currentJob = some j ∧ out.isSome = meetsTarget (Vector.replicate 32 0) (jobs j).target := by
  obtain ⟨st₀, st₁, hset, hcurrent, hnext, hhash, hquiet, hjob⟩ :=
    @Quiet.exists_hashNonce jobs cfg st env j h hnew hjit
  obtain ⟨out, hsubmit, hout⟩ := @Quiet.exists_submitHash nullPlatform jobs st₁ env j _ hquiet
  refine ⟨st₁, out, ?_, hquiet, hjob, hout⟩
  have hfits : ¬ (st₀.blobCurrent.length < 43 ∨ st₀.blobNext.length < 43) := by
    rw [hcurrent, hnext]
    omega
  unfold workerIteration
  simp only [hwork, hset, if_neg hfits, hhash, Option.bind_eq_bind, Option.bind_some, hsubmit]

/-- A job whose target every hash of zeros meets. -/
def sampleJob : Job where
  blob := List.replicate 76 0
  target := [1, 0, 0, 0, 0, 0, 0, 0]
  jobId := "job-1"
  seedHash := [7]
  generation := 3

/-- Two jobs, of different seeds. -/
def sampleJobs (j : JobRef) : Job :=
  if j = 0 then sampleJob
  else { sampleJob with blob := List.replicate 76 1, jobId := "job-2", seedHash := [8], generation := 4 }

/-- One of eight workers. -/
def sampleConfig : WorkerConfig :=
  { threadId := 5, threadCount := 8, nativeLoop := true, verifyShares := true }

/-- A worker submits a share of its first job, and then one of the next, which has another seed. -/
theorem workerRun_valid_sample : ∃ (envs : List Environment) (st : WorkerState) (sub sub' : Submission),
    envs.map Environment.work = [some 0, some 1] ∧
    workerRun nullPlatform sampleJobs sampleConfig (.init sampleConfig 0) envs = some (st, [sub, sub']) ∧
      ∀ s ∈ [sub, sub'], ∃ e ∈ envs, ∃ j, e.work = some j ∧ ValidShare nullPlatform sampleJobs 0 j s := by
  obtain ⟨ds, hds⟩ := exists_generates_null (sampleJobs 0).seedHash 1
  obtain ⟨ds', hds'⟩ := exists_generates_null (sampleJobs 1).seedHash 2
  let env : Environment := { work := some 0, dataset := ds, jit := none, verifierJit := none }
  let env' : Environment := { work := some 1, dataset := ds', jit := none, verifierJit := none }
  have henvs : ∀ e ∈ [env, env'], EnvOk nullPlatform sampleJobs e := by
    intro e he
    rcases List.mem_pair.mp he with rfl | rfl
    · exact ⟨fun j hj => Option.some.inj hj ▸ ⟨1, hds⟩, nofun⟩
    · exact ⟨fun j hj => Option.some.inj hj ▸ ⟨2, hds'⟩, nofun⟩
  obtain ⟨st₁, out, hpass, hquiet, hjob, hout⟩ :=
    @Quiet.exists_workerIteration sampleJobs sampleConfig _ env 0 (quiet_init sampleConfig 0) nofun rfl rfl (by decide)
  obtain ⟨st₂, out', hpass', -, -, hout'⟩ :=
    @Quiet.exists_workerIteration sampleJobs sampleConfig _ env' 1 hquiet (by rw [hjob]; decide) rfl rfl (by decide)
  obtain ⟨sub, rfl⟩ : ∃ sub, out = some sub := Option.isSome_iff_exists.mp (hout.trans (by decide))
  obtain ⟨sub', rfl⟩ : ∃ sub, out' = some sub := Option.isSome_iff_exists.mp (hout'.trans (by decide))
  have hrun : workerRun nullPlatform sampleJobs sampleConfig (.init sampleConfig 0) [env, env']
      = some (st₂, [sub, sub']) := by
    simp only [workerRun, hpass, hpass', Option.bind_eq_bind, Option.bind_some]
    rfl
  exact ⟨[env, env'], st₂, sub, sub', rfl, hrun, workerRun_valid henvs hrun⟩

end Miner
end MinerTim
