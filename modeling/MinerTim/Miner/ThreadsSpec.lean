import MinerTim.Miner.Threads
import MinerTim.RandomX.ControlWord

/-!
# `Miner.ThreadsSpec` — what the workers keep, however they are scheduled

`Miner.WorkerSpec` is about one worker that is handed its datasets. Here the workers share the dataset cache, and the
native loop may even be wrong, as long as its shares are verified (`Trusted`).

`WorkerOk` is the invariant of a worker between two accesses: its VM and its verifier are on one dataset, generated for
the seed of the worker. `PhaseOk` adds what a phase carries. The one-access lemmas are `WorkerOk.rekey`,
`WorkerOk.hash` and `WorkerOk.verify`; `protocol_shares` puts them together.
-/

namespace MinerTim
namespace Miner

open RandomX SharedThreads

variable (p : Platform) (rc : RigConfig) {T : BitVec 32} (J : Option NativeCode → Prop)

/-- What has to be right: the body code, and the loop code unless it is switched off or its shares are verified. -/
structure Trusted : Prop where
  body : ∀ jit, J jit → ∀ native, jit = some native → native.BodyInterprets p.fp
  loop : rc.verifyShares = true ∨ rc.nativeLoop = false ∨ ∀ jit, J jit → JitInterprets p jit

/-- The invariant of a worker between two accesses. -/
structure WorkerOk (i : Fin T.toNat) (st : WorkerState) : Prop where
  verifier : ∃ last, VerifierInv p J (rc.worker T i) rc.ctl last st ∧
    ∀ seed, last = some seed → IsDatasetFor p seed.1 seed.2
  native : ∀ vm, st.vm = some vm → J vm.jit ∧ vm.useNativeLoop = rc.nativeLoop
  blobs : ∀ j, st.currentJob = some j →
    SameBlob st.blobCurrent (rc.jobs j).blob ∧ SameBlob st.blobNext (rc.jobs j).blob
  ready : st.pipelineReady = true → ∃ j vm, st.currentJob = some j ∧ st.vm = some vm ∧
    vm.Prepared p (writeNonceLe (rc.jobs j).blob (st.nonce.setWidth 32))

/-- The hash is what the VM of the worker made of the blob it holds, the one of the job with some nonce. -/
def Mined (st : WorkerState) (e : Hashed T) : Prop :=
  ∃ vm nonce, SetFor rc.jobs st e.job ∧ st.vm = some vm ∧ 43 ≤ (rc.jobs e.job).blob.length ∧
    st.blobCurrent = writeNonceLe (rc.jobs e.job).blob nonce ∧
    hashOf p vm.context .V1 rc.ctl st.blobCurrent = some e.hash

variable {p rc J} {i : Fin T.toNat} {st st' : WorkerState} {j : JobRef}

theorem workerOk_init : WorkerOk p rc J i (.init (rc.worker T i) rc.ctl) := by
  refine ⟨⟨none, verifierInv_init, nofun⟩, nofun, nofun, nofun⟩

/-! ## Setting up -/

theorem WorkerOk.installJob (h : WorkerOk p rc J i st) (j : JobRef) :
    WorkerOk p rc J i (installJob rc.jobs st j) ∧ (Miner.installJob rc.jobs st j).currentJob = some j := by
  obtain ⟨last, hverifier, hseed⟩ := h.verifier
  have hverifier' : VerifierInv p J (rc.worker T i) rc.ctl last (Miner.installJob rc.jobs st j) :=
    installJob_verifier hverifier j
  unfold Miner.installJob at hverifier' ⊢
  split
  · rw [if_pos ‹_›] at hverifier'
    refine ⟨⟨⟨last, hverifier', hseed⟩, h.native, ?_, nofun⟩, rfl⟩
    intro j' hj'
    obtain rfl := Option.some.inj hj'
    exact ⟨fun _ => rfl, fun _ => rfl⟩
  next hnew => exact ⟨h, by simpa [isNewJob] using hnew⟩

/-- A worker that needs no new VM has the one of its job. -/
theorem setFor_of_keep (hjob : st.currentJob = some j) (hkeep : ¬ NeedsRekey rc.jobs st j) :
    SetFor rc.jobs st j := by
  simp only [NeedsRekey, not_or, not_not, Option.isNone_iff_eq_none] at hkeep
  exact ⟨hjob, hkeep.1.symm, Option.isSome_iff_ne_none.mpr hkeep.2⟩

/-- A worker that gets the dataset of a seed moves its VM and its verifier there. -/
theorem WorkerOk.rekey (h : WorkerOk p rc J i st) (hjob : st.currentJob = some j)
    (hneeds : NeedsRekey rc.jobs st j) {dataset : RandomXDataset} {jit : Option NativeCode}
    (hds : IsDatasetFor p (rc.jobs j).seedHash dataset) (hjit : J jit)
    (hrun : rekeyVm p rc.jobs (rc.worker T i) st (setUpEnv j dataset jit) j = st') :
    WorkerOk p rc J i st' ∧ SetFor rc.jobs st' j := by
  obtain ⟨last, hverifier, _⟩ := h.verifier
  have hwork : (setUpEnv j dataset jit).work = some j := rfl
  obtain ⟨hverifier', _⟩ := rekeyVm_verifier hverifier hwork
  rw [hrun] at hverifier'
  have hrotation : seedRotation rc.jobs st (setUpEnv j dataset jit) = some ((rc.jobs j).seedHash, dataset) :=
    if_pos hneeds
  rw [hrotation, Option.some_or] at hverifier'
  have hmoved : (rc.jobs j).seedHash ≠ st.currentKey ∨ st.vm.isNone = true := hneeds
  unfold rekeyVm at hrun
  simp only at hrun
  rw [if_pos hmoved] at hrun
  subst hrun
  constructor
  · refine ⟨⟨_, hverifier', ?_⟩, ?_, h.blobs, nofun⟩
    · intro seed hseed
      obtain rfl := Option.some.inj hseed
      exact hds
    · -- a VM keeps its code and its switch when it is pointed at a new seed
      intro vm hvm
      obtain rfl := Option.some.inj hvm
      cases hold : st.vm with
      | none => exact ⟨hjit, rfl⟩
      | some old => exact h.native old hold
  · exact ⟨hjob, rfl, rfl⟩

/-! ## Hashing -/

/-- The VM hashes what it is prepared for, and that is the blob the worker holds. -/
theorem WorkerOk.hash (h : WorkerOk p rc J i st) (hset : SetFor rc.jobs st j)
    (hlen : 43 ≤ (rc.jobs j).blob.length) {hash : Vector Byte 32}
    (hrun : hashNonce p (rc.worker T i) st = some (hash, st')) :
    WorkerOk p rc J i st' ∧ Mined p rc st' (⟨i, j, hash⟩ : Hashed T) := by
  obtain ⟨last, hverifier, hseed⟩ := h.verifier
  obtain ⟨hverifier', _, _⟩ := hashNonce_verifier hverifier hrun
  obtain ⟨⟨vm, vm', hvm, hvm', hctx⟩, hnonce, hblob, hjob, hkey, _, _⟩ := hashNonce_frame hrun
  obtain ⟨hcurrent, hnext⟩ := h.blobs j hset.job
  rw [hcurrent (st.nonce.setWidth 32)] at hblob
  unfold hashNonce at hrun
  simp only [hvm, Option.bind_eq_bind, Option.bind_some, hcurrent (st.nonce.setWidth 32),
    hnext ((st.nonce + (rc.worker T i).threadCount.setWidth 64).setWidth 32), hverifier.ctl] at hrun
  -- whether the pipeline was ready or is filled now, the VM is prepared for the current blob
  obtain ⟨vm₁, hvm₁, hprep, hctx₁⟩ : ∃ vm₁, (if st.pipelineReady then vm
      else vm.prepareScratchpad p (writeNonceLe (rc.jobs j).blob (st.nonce.setWidth 32))) = vm₁ ∧
      vm₁.Prepared p (writeNonceLe (rc.jobs j).blob (st.nonce.setWidth 32)) ∧ vm₁.context = vm.context := by
    cases hready : st.pipelineReady with
    | true =>
      obtain ⟨j', w, hj', hw, hprep⟩ := h.ready hready
      obtain rfl := Option.some.inj (hj'.symm.trans hset.job)
      obtain rfl := Option.some.inj (hw.symm.trans hvm)
      exact ⟨_, rfl, hprep, rfl⟩
    | false =>
      refine ⟨_, rfl, ?_⟩
      simp only [Bool.false_eq_true, if_false, RandomXVm.prepareScratchpad_eq]
      exact ⟨RandomXVm.withFill_prepared p vm _ _ rfl, RandomXVm.context_withFill vm _⟩
  rw [hvm₁] at hrun
  obtain ⟨⟨hash', vm₂, ctl⟩, hcall, hres⟩ := Option.bind_eq_some_iff.mp hrun
  obtain ⟨rfl, rfl⟩ := Prod.mk.inj (Option.some.inj hres)
  obtain ⟨hhash, hafter⟩ := RandomXVm.calculateHashPipelined_eq p hprep rc.ctl
    (writeNonceLe (rc.jobs j).blob ((st.nonce + (rc.worker T i).threadCount.setWidth 64).setWidth 32))
  obtain ⟨hprep', hctx'⟩ := hafter _ hcall
  rw [hcall, hctx₁] at hhash
  have hvalue : hashOf p vm.context .V1 rc.ctl (writeNonceLe (rc.jobs j).blob (st.nonce.setWidth 32)) = some hash' := by
    cases hof : hashOf p vm.context .V1 rc.ctl (writeNonceLe (rc.jobs j).blob (st.nonce.setWidth 32)) with
    | none => simp [hof] at hhash
    | some hash =>
      rw [hof, Option.map_some, Option.map_some] at hhash
      exact congrArg some (Prod.mk.inj (Option.some.inj hhash)).1.symm
  have hcode : vm₂.context = vm.context := hctx'.trans hctx₁
  constructor
  · refine ⟨⟨last, hverifier', hseed⟩, ?_, ?_, ?_⟩
    · intro w hw
      obtain rfl := Option.some.inj hw
      obtain ⟨hjit, hloop⟩ := h.native vm hvm
      have hjit' : vm₂.jit = vm.jit := congrArg VmContext.jit hcode
      have hloop' : vm₂.useNativeLoop = vm.useNativeLoop := congrArg VmContext.useNativeLoop hcode
      exact ⟨hjit' ▸ hjit, hloop'.trans hloop⟩
    · intro j' hj'
      obtain rfl := Option.some.inj (hset.job.symm.trans hj')
      exact ⟨fun nonce => writeNonceLe_writeNonceLe _ _ _, fun nonce => writeNonceLe_writeNonceLe _ _ _⟩
    · intro _
      exact ⟨j, vm₂, hset.job, rfl, hprep'⟩
  · refine ⟨vm₂, st.nonce.setWidth 32, ⟨hset.job, hset.key, rfl⟩, rfl, hlen, rfl, ?_⟩
    rw [hcode]
    exact hvalue

/-! ## Verifying -/

/-- A verdict changes the verifier and nothing else, and the share that comes of it is the hash of the blob. -/
theorem submitHash_frame {env : Environment} {hash : Vector Byte 32} {out : Option Submission}
    (hrun : submitHash p rc.jobs st env j hash = some (st', out)) :
    (∃ verifier ctl, st' = { st with verifier, ctl }) ∧
      ∀ sub, out = some sub → sub =
        { jobId := (rc.jobs j).jobId
          nonceHex := hexEncode ((st.blobCurrent.drop 39).take 4)
          resultHex := hexEncode hash.toList
          generation := (rc.jobs j).generation } := by
  unfold submitHash at hrun
  split at hrun
  · obtain ⟨⟨reference, verifier, ctl⟩, _, hres⟩ := Option.bind_eq_some_iff.mp hrun
    obtain ⟨rfl, rfl⟩ := Prod.mk.inj (Option.some.inj hres)
    refine ⟨⟨verifier, ctl, rfl⟩, ?_⟩
    intro sub hsub
    split at hsub
    · exact (Option.some.inj hsub).symm
    · cases hsub
  · obtain ⟨rfl, rfl⟩ := Prod.mk.inj (Option.some.inj hrun)
    exact ⟨⟨st.verifier, st.ctl, rfl⟩, nofun⟩

/-- On a dataset of the seed, code that is not wrong computes the hash of the seed. -/
theorem hash_of_interprets {ctx : VmContext} {key : List Byte} {ds : RandomXDataset} (hds : ctx.dataset = some ds)
    (hseed : IsDatasetFor p key ds) (h : ctx.Interprets p.fp p.aes .V1) {ctl : BitVec 32} {blob : List Byte}
    {hash : Vector Byte 32} (hhash : hashOf p ctx .V1 ctl blob = some hash) :
    calculateHashVersioned p key blob .V1 ctl = some (hash, ctl) := by
  have hlight : (lightContext p key).Interprets p.fp p.aes .V1 := VmContext.interprets_of_jit rfl
  have hline : ∀ k, k.toNat < DATASET_ITEM_COUNT → ctx.line k = (lightContext p key).line k := by
    intro k hk
    have hfull : ctx.line k = ds.getItem k := by
      simp [VmContext.line, datasetLine, hds]
    exact hfull.trans (line_of_isDatasetFor hseed hk)
  rw [hashOf_congr (.inr ⟨h, hlight, hline⟩)] at hhash
  rw [calculateHashVersioned_eq, hhash, Option.map_some]

/-- **A share that passes its verdict is valid**: the loop code is right, is not used, or has been checked against the
    body code. -/
theorem WorkerOk.verify (h : WorkerOk p rc J i st) (htrust : Trusted p rc J) {e : Hashed T} (hmined : Mined p rc st e)
    (hmeets : meetsTarget e.hash (rc.jobs e.job).target = true) {env : Environment} (hjit : J env.verifierJit)
    {out : Option Submission} (hrun : submitHash p rc.jobs st env e.job e.hash = some (st', out)) :
    WorkerOk p rc J i st' ∧ ∀ sub, out = some sub →
      ValidShare p rc.jobs rc.ctl e.job sub ∧ sub.resultHex = hexEncode e.hash.toList := by
  obtain ⟨last, hverifier, hseed⟩ := h.verifier
  obtain ⟨vm, nonce, hset, hvm, hlen, hblob, hhash⟩ := hmined
  obtain ⟨hverifier', hverdict⟩ := submitHash_verifier hverifier hvm hjit hrun
  obtain ⟨⟨verifier, ctl, rfl⟩, hsub⟩ := submitHash_frame hrun
  refine ⟨⟨⟨last, hverifier', hseed⟩, h.native, h.blobs, h.ready⟩, ?_⟩
  intro sub hout
  obtain ⟨ds, jit, hlast, hds, hjit', hiff⟩ := hverdict hmeets
  have hvalid : IsDatasetFor p (rc.jobs e.job).seedHash ds := hset.key ▸ hseed _ hlast
  obtain ⟨hvmjit, hvmloop⟩ := h.native vm hvm
  suffices calculateHashVersioned p (rc.jobs e.job).seedHash st.blobCurrent .V1 rc.ctl = some (e.hash, rc.ctl) by
    rw [hsub sub hout]
    rw [hblob] at this ⊢
    exact ⟨⟨nonce, e.hash, rfl, rfl, congrArg hexEncode (take_drop_writeNonceLe hlen nonce), rfl, this, hmeets⟩, rfl⟩
  by_cases hchecked : (rc.verifyShares && nativeLoopEffective vm) = true
  · -- the reference hash was compared, and it runs no loop code
    have hsame : hashOf p (referenceContext p (st.currentKey, ds) jit) .V1 rc.ctl st.blobCurrent = some e.hash := by
      by_contra hne
      have hnone := hiff.mpr ⟨hchecked, hne⟩
      rw [hout] at hnone
      cases hnone
    have hds : (referenceContext p (st.currentKey, ds) jit).dataset = some ds := rfl
    refine hash_of_interprets hds hvalid ⟨htrust.body jit hjit', ?_⟩ hsame
    intro happlies
    simp [referenceContext, nativeLoopApplies] at happlies
  · have hctx : vm.context.dataset = some ds := hds
    refine hash_of_interprets hctx hvalid ?_ hhash
    refine ⟨htrust.body vm.jit hvmjit, ?_⟩
    intro happlies
    have heffective : nativeLoopEffective vm = true := happlies
    rcases htrust.loop with hverify | hoff | hinterprets
    · exact absurd (by rw [hverify, heffective, Bool.and_self]) hchecked
    · rw [nativeLoopEffective, hvmloop, hoff] at heffective
      simp [nativeLoopApplies] at heffective
    · exact fun native hnative => (hinterprets vm.jit hvmjit native hnative).2

/-! ## Every share is valid -/

section

variable (p rc J)

/-- What a worker brings to the access it is about to make. -/
def PhaseOk (st : WorkerState) : Phase T → Prop
  | .hash j => SetFor rc.jobs st j ∧ 43 ≤ (rc.jobs j).blob.length
  | .recordBest e => Mined p rc st e
  | .recordDifficulty e => Mined p rc st e
  | .recordFound e => Mined p rc st e ∧ meetsTarget e.hash (rc.jobs e.job).target = true
  | .verify e => Mined p rc st e ∧ meetsTarget e.hash (rc.jobs e.job).target = true
  | .submit e sub => ValidShare p rc.jobs rc.ctl e.job sub ∧ sub.resultHex = hexEncode e.hash.toList
  | _ => True

/-- The invariant of a thread. -/
structure ThreadOk (i : Fin T.toNat) (th : Thread T) : Prop where
  worker : WorkerOk p rc J i th.st
  phase : PhaseOk p rc th.st th.phase

/-- The invariant of what the workers share: the cache holds the dataset of its seed, and shares are valid. -/
structure SharedOk (g : Shared T) : Prop where
  cache : ∀ c, g.datasetCache = some c → IsDatasetFor p c.seedHash c.dataset
  submitted : ∀ x ∈ g.submitted, ValidShare p rc.jobs rc.ctl x.1.job x.2 ∧ x.2.resultHex = hexEncode x.1.hash.toList

end

/-- A worker that is set up hashes, or skips a blob without room for a nonce. -/
theorem phaseOk_afterSetUp (h : WorkerOk p rc J i st) (hset : SetFor rc.jobs st j) :
    PhaseOk p rc (T := T) st (afterSetUp st j) := by
  unfold afterSetUp
  split
  · trivial
  · refine ⟨hset, ?_⟩
    have hlen := (h.blobs j hset.job).1.length_eq
    omega

/-- The cache gives a dataset of the seed that is asked for, and keeps one of the seed it names. -/
theorem GetOrGenerateDataset.isDatasetFor {seedHash : List Byte} {cache cache' : Option DatasetCache}
    {dataset : RandomXDataset} (h : GetOrGenerateDataset p seedHash cache cache' dataset)
    (hcache : ∀ c, cache = some c → IsDatasetFor p c.seedHash c.dataset) :
    IsDatasetFor p seedHash dataset ∧ ∀ c, cache' = some c → IsDatasetFor p c.seedHash c.dataset := by
  cases h with
  | @cached c hseed => exact ⟨hseed ▸ hcache c rfl, hcache⟩
  | generated _ hds =>
    refine ⟨hds, ?_⟩
    intro c hc
    obtain rfl := Option.some.inj hc
    exact hds

/-- Code that does what the interpreter does can be trusted. -/
theorem trusted_of_interprets (hJ : ∀ jit, J jit → JitInterprets p jit) : Trusted p rc J :=
  ⟨fun jit hjit native hnative => (hJ jit hjit native hnative).1, .inr (.inr hJ)⟩

/-- What one access keeps. -/
theorem ThreadOk.act (htrust : Trusted p rc J) {g g' : Shared T} {th th' : Thread T} (hg : SharedOk p rc g)
    (h : ThreadOk p rc J i th) (hact : Act p rc T J i g th g' th') : SharedOk p rc g' ∧ ThreadOk p rc J i th' := by
  obtain ⟨hworker, hphase⟩ := h
  cases hact with
  | active _ => exact ⟨hg, hworker, trivial⟩
  | inactive _ => exact ⟨hg, hworker, trivial⟩
  | noWork => exact ⟨hg, hworker, trivial⟩
  | work j => exact ⟨hg, hworker, trivial⟩
  | @keep _ _ j hkeep =>
    obtain ⟨hworker', hjob⟩ := hworker.installJob j
    exact ⟨hg, hworker', phaseOk_afterSetUp hworker' (setFor_of_keep hjob hkeep)⟩
  | @rekey _ _ _ j _ _ _ hneeds _ hget hjit hrun =>
    obtain ⟨hds, hcache⟩ := hget.isDatasetFor hg.cache
    obtain ⟨hinstall, hjob⟩ := hworker.installJob j
    obtain ⟨hworker', hset⟩ := hinstall.rekey hjob hneeds hds hjit hrun
    exact ⟨⟨hcache, hg.submitted⟩, hworker', phaseOk_afterSetUp hworker' hset⟩
  | @poisoned _ _ j _ _ => exact ⟨hg, (hworker.installJob j).1, trivial⟩
  | @poison _ _ j _ _ _ _ => exact ⟨⟨hg.cache, hg.submitted⟩, (hworker.installJob j).1, trivial⟩
  | hash hrun =>
    obtain ⟨hset, hlen⟩ := hphase
    obtain ⟨hworker', hmined⟩ := hworker.hash hset hlen hrun
    exact ⟨⟨hg.cache, hg.submitted⟩, hworker', hmined⟩
  | hashPanics _ => exact ⟨hg, hworker, trivial⟩
  | recordBest => exact ⟨⟨hg.cache, hg.submitted⟩, hworker, hphase⟩
  | recordDifficulty =>
    refine ⟨⟨hg.cache, hg.submitted⟩, hworker, ?_⟩
    show PhaseOk p rc _ (if _ then _ else _)
    split
    next hmeets => exact ⟨hphase, hmeets⟩
    next => trivial
  | recordFound => exact ⟨⟨hg.cache, hg.submitted⟩, hworker, hphase⟩
  | @verify _ _ _ _ _ out hjit hrun =>
    obtain ⟨hmined, hmeets⟩ := hphase
    obtain ⟨hworker', hvalid⟩ := hworker.verify htrust hmined hmeets hjit hrun
    refine ⟨hg, hworker', ?_⟩
    cases out with
    | none => trivial
    | some sub => exact hvalid sub rfl
  | verifyPanics _ _ => exact ⟨hg, hworker, trivial⟩
  | recordFailure => exact ⟨⟨hg.cache, hg.submitted⟩, hworker, trivial⟩
  | submit =>
    refine ⟨⟨hg.cache, ?_⟩, hworker, trivial⟩
    intro x hx
    rcases List.mem_append.mp hx with hx | hx
    · exact hg.submitted x hx
    · obtain rfl := List.mem_singleton.mp hx
      exact hphase
  | noFlush => exact ⟨hg, hworker, trivial⟩
  | flush => exact ⟨⟨hg.cache, hg.submitted⟩, hworker, trivial⟩
  | flushRest => exact ⟨⟨hg.cache, hg.submitted⟩, hworker, trivial⟩

/-- No worker depends on what the others do to the counters, the cache or the lists. -/
theorem protocol_shares (htrust : Trusted p rc J) :
    Protocol (workerThreads p rc T J) (SharedOk p rc) (fun i _ th => ThreadOk p rc J i th) where
  own hg h hact := h.act htrust hg hact
  others _ _ _ _ h := h
  outside hg hout := by
    obtain ⟨_, rfl⟩ := hout
    exact ⟨⟨hg.cache, hg.submitted⟩, fun _ _ h => h⟩

theorem sharedOk_init : SharedOk p rc (.init T) := by
  constructor
  · intro c hc
    cases hc
  · intro x hx
    cases hx

theorem threadOk_spawned (i : Fin T.toNat) : ThreadOk p rc J i ((spawned rc T).threads i) :=
  ⟨workerOk_init, trivial⟩

theorem runs_shares (htrust : Trusted p rc J) {s : State (Fin T.toNat) (Shared T) (Thread T)}
    (h : Runs (workerThreads p rc T J) (spawned rc T) s) :
    SharedOk p rc s.shared ∧ ∀ i, ThreadOk p rc J i (s.threads i) :=
  (protocol_shares htrust).runs (s := spawned rc T) sharedOk_init threadOk_spawned h

/-- **Every share a miner submits is valid**, in every interleaving of its workers, of any number of rotations and of
    what stops them: it names the job it was hashed for, its nonce and the RandomX hash of that job's blob under that
    job's seed, which meets the target. The loop code of the JIT may be wrong, as long as shares are verified or it is
    switched off; the body code must be right. The cache and every VM hold a dataset of their own seed. -/
theorem miner_submits_valid_shares (hbody : ∀ jit, J jit → ∀ native, jit = some native → native.BodyInterprets p.fp)
    (hloop : rc.verifyShares = true ∨ rc.nativeLoop = false ∨ ∀ jit, J jit → JitInterprets p jit)
    {s : State (Fin T.toNat) (Shared T) (Thread T)} (h : Runs (workerThreads p rc T J) (spawned rc T) s) :
    (∀ x ∈ s.shared.submitted,
      ValidShare p rc.jobs rc.ctl x.1.job x.2 ∧ x.2.resultHex = hexEncode x.1.hash.toList) ∧
    (∀ c, s.shared.datasetCache = some c → IsDatasetFor p c.seedHash c.dataset) ∧
    ∀ i vm, (s.threads i).st.vm = some vm →
      ∃ ds, vm.dataset = some ds ∧ IsDatasetFor p (s.threads i).st.currentKey ds := by
  obtain ⟨hshared, hthreads⟩ := runs_shares ⟨hbody, hloop⟩ h
  refine ⟨hshared.submitted, hshared.cache, ?_⟩
  intro i vm hvm
  obtain ⟨last, hverifier, hseed⟩ := (hthreads i).worker.verifier
  obtain ⟨ds, hlast, hds⟩ := hverifier.seeded vm hvm
  exact ⟨ds, hds, hseed _ hlast⟩

/-! ### Two workers on the null platform -/

def sampleRig : RigConfig := { jobs := fun _ => sampleJob, nativeLoop := true, verifyShares := true, ctl := 0 }

/-- The threads of `sampleRig`, where no JIT can be allocated. -/
abbrev sampleThreads : System (Fin (2#32).toNat) (Shared 2#32) (Thread 2#32) :=
  workerThreads nullPlatform sampleRig 2 (· = none)

abbrev firstWorker : Fin (2#32).toNat := ⟨0, by decide⟩

abbrev secondWorker : Fin (2#32).toNat := ⟨1, by decide⟩

theorem sampleWorker_cases (i : Fin (2#32).toNat) : i = firstWorker ∨ i = secondWorker := by
  have hi : i.val < 2 := i.isLt
  have hval : i.val = 0 ∨ i.val = 1 := by omega
  exact hval.imp Fin.ext Fin.ext

/-- A worker of `sampleRig` goes on alone. -/
abbrev SampleAlone (i : Fin (2#32).toNat) : Shared 2 × Thread 2 → Shared 2 × Thread 2 → Prop :=
  Relation.ReflTransGen fun a b => sampleThreads.act i a.1 a.2 b.1 b.2

theorem SampleAlone.next {i : Fin (2#32).toNat} {c : Shared 2 × Thread 2} {g g' : Shared 2} {th th' : Thread 2}
    (h : SampleAlone i c (g, th)) (hact : Act nullPlatform sampleRig 2 (· = none) i g th g' th') :
    SampleAlone i c (g', th') := h.tail hact

theorem runs_sample {s₀ s : State (Fin (2#32).toNat) (Shared 2) (Thread 2)} (h : Runs sampleThreads s₀ s)
    {i : Fin (2#32).toNat} {th : Thread 2} {c : Shared 2 × Thread 2} (hthread : s.threads i = th)
    (halone : SampleAlone i (s.shared, th) c) :
    Runs sampleThreads s₀ ⟨c.1, Function.update s.threads i c.2⟩ := by
  subst hthread
  exact h.trans (runs_solo i halone)

/-- A worker of `sampleRig` as it is spawned, and once it has its first job. -/
abbrev sampleStart (i : Fin (2#32).toNat) : WorkerState := .init (sampleRig.worker 2 i) 0

abbrev sampleReady (i : Fin (2#32).toNat) (ds : RandomXDataset) : WorkerState :=
  rekeyVm nullPlatform sampleRig.jobs (sampleRig.worker 2 i) (installJob sampleRig.jobs (sampleStart i) 0)
    (setUpEnv 0 ds none) 0

theorem needsRekey_sample (i : Fin (2#32).toNat) :
    NeedsRekey sampleRig.jobs (installJob sampleRig.jobs (sampleStart i) 0) 0 := .inr rfl

/-- It gets the dataset, which may have to be generated. -/
theorem sampleAlone_setUp (i : Fin (2#32).toNat) {g : Shared 2} {cache : Option DatasetCache} {ds : RandomXDataset}
    (hsound : g.cachePoisoned = false)
    (hget : GetOrGenerateDataset nullPlatform sampleJob.seedHash g.datasetCache cache ds) :
    SampleAlone i (g, ⟨sampleStart i, 0, .setUp 0⟩)
      ({ g with datasetCache := cache }, ⟨sampleReady i ds, 0, .hash 0⟩) := by
  have hlong : afterSetUp (T := 2) (sampleReady i ds) 0 = .hash 0 := by
    have hshort : ¬ (sampleJob.blob.length < 43 ∨ sampleJob.blob.length < 43) := by decide
    exact if_neg hshort
  have hact : sampleThreads.act i g ⟨sampleStart i, 0, .setUp 0⟩ _ _ :=
    .rekey (needsRekey_sample i) hsound hget rfl rfl
  rw [hlong] at hact
  exact .single hact

/-- It hashes once and submits what it has found. -/
theorem sampleAlone_share (i : Fin (2#32).toNat) (g : Shared 2) (ds : RandomXDataset) :
    ∃ g' st n, SampleAlone i (g, ⟨sampleReady i ds, 0, .hash 0⟩) (g', ⟨st, n, .checkActive⟩) ∧
      g'.submitted.map Prod.fst = g.submitted.map Prod.fst ++ [⟨i, 0, Vector.replicate 32 0⟩] ∧
      g'.miningActive = g.miningActive := by
  obtain ⟨st, hhash, hquiet⟩ : ∃ st,
      hashNonce nullPlatform (sampleRig.worker 2 i) (sampleReady i ds) = some (Vector.replicate 32 0, st) ∧
        Quiet st := by
    obtain ⟨st₀, st, rfl, -, -, hhash, hquiet, -⟩ :=
      @Quiet.exists_hashNonce sampleRig.jobs (sampleRig.worker 2 i) (sampleStart i) (setUpEnv 0 ds none) 0
        (quiet_init _ _) nofun rfl
    exact ⟨st, hhash, hquiet⟩
  have hmeets : meetsTarget (Vector.replicate 32 0) sampleJob.target = true := by decide
  obtain ⟨out, hsub, hout⟩ := @Quiet.exists_submitHash nullPlatform sampleRig.jobs st (setUpEnv 0 ds none) 0
    (Vector.replicate 32 0) hquiet
  obtain ⟨sub, rfl⟩ : ∃ sub, out = some sub := Option.isSome_iff_exists.mp (hout.trans hmeets)
  -- the accesses of the pass, one after the other
  have hstart : SampleAlone i (g, ⟨sampleReady i ds, 0, .hash 0⟩) (g, ⟨sampleReady i ds, 0, .hash 0⟩) := .refl
  have hmined := ((hstart.next (.hash hhash)).next .recordBest).next .recordDifficulty
  rw [show meetsTarget (Vector.replicate 32 0) (sampleRig.jobs 0).target = true from hmeets, if_pos rfl] at hmined
  have hfound := (hmined.next .recordFound).next (.verify rfl hsub)
  refine ⟨_, st, _, (hfound.next .submit).next .noFlush, ?_, rfl⟩
  simp

/-- Both workers have a job, and neither has a dataset. -/
theorem runs_sample_jobs :
    Runs sampleThreads (spawned sampleRig 2) ⟨.init 2, fun i => ⟨sampleStart i, 0, .setUp 0⟩⟩ := by
  have halone : ∀ i, SampleAlone i (.init 2, ⟨sampleStart i, 0, .checkActive⟩)
      (.init 2, ⟨sampleStart i, 0, .setUp 0⟩) := by
    intro i
    have hstart : SampleAlone i (.init 2, ⟨sampleStart i, 0, .checkActive⟩)
      (.init 2, ⟨sampleStart i, 0, .checkActive⟩) := .refl
    exact (hstart.next (.active rfl)).next (.work 0)
  have hstart : Runs sampleThreads (spawned sampleRig 2) (spawned sampleRig 2) := .refl
  have hfirst := runs_sample hstart rfl (halone firstWorker)
  have hsecond := runs_sample hfirst rfl (halone secondWorker)
  convert hsecond using 2
  funext i
  obtain rfl | rfl := sampleWorker_cases i <;> rfl

/-- The first worker generates the dataset, the second one finds it and submits a share before the first one does. -/
theorem exists_sample_shares : ∃ s, Runs sampleThreads (spawned sampleRig 2) s ∧
    s.shared.submitted.map (fun x => x.1.worker) = [secondWorker, firstWorker] ∧ s.shared.miningActive = true ∧
    ∀ i, (s.threads i).phase = .checkActive := by
  obtain ⟨ds, hds⟩ := exists_generates_null sampleJob.seedHash 1
  have hgenerate : GetOrGenerateDataset nullPlatform sampleJob.seedHash none
      (some { seedHash := sampleJob.seedHash, dataset := ds }) ds :=
    .generated (by intro c hc; cases hc) ⟨1, hds⟩
  have hfind : GetOrGenerateDataset nullPlatform sampleJob.seedHash
      (some { seedHash := sampleJob.seedHash, dataset := ds })
      (some { seedHash := sampleJob.seedHash, dataset := ds }) ds := .cached rfl
  let g : Shared 2 := { Shared.init 2 with datasetCache := some { seedHash := sampleJob.seedHash, dataset := ds } }
  obtain ⟨g₁, st₁, n₁, hshare₁, hsubmitted₁, hactive₁⟩ := sampleAlone_share secondWorker g ds
  obtain ⟨g₀, st₀, n₀, hshare₀, hsubmitted₀, hactive₀⟩ := sampleAlone_share firstWorker g₁ ds
  have h₁ := runs_sample runs_sample_jobs rfl (sampleAlone_setUp firstWorker rfl hgenerate)
  have h₂ := runs_sample (i := secondWorker) h₁ rfl ((sampleAlone_setUp secondWorker rfl hfind).trans hshare₁)
  have h₃ := runs_sample h₂ rfl hshare₀
  refine ⟨_, h₃, ?_, hactive₀.trans hactive₁, ?_⟩
  · have hmap : g₀.submitted.map Prod.fst = [⟨secondWorker, 0, Vector.replicate 32 0⟩,
        ⟨firstWorker, 0, Vector.replicate 32 0⟩] := by
      rw [hsubmitted₀, hsubmitted₁]
      rfl
    have hworkers := congrArg (List.map Hashed.worker) hmap
    rwa [List.map_map] at hworkers
  · intro i
    obtain rfl | rfl := sampleWorker_cases i <;> rfl

/-- The shares they submit are valid. -/
theorem miner_submits_valid_shares_sample : ∃ s, Runs sampleThreads (spawned sampleRig 2) s ∧
    s.shared.submitted.map (fun x => x.1.worker) = [secondWorker, firstWorker] ∧ ∀ x ∈ s.shared.submitted,
      ValidShare nullPlatform sampleRig.jobs 0 x.1.job x.2 ∧ x.2.resultHex = hexEncode x.1.hash.toList := by
  obtain ⟨s, hs, hworkers, _⟩ := exists_sample_shares
  refine ⟨s, hs, hworkers, (miner_submits_valid_shares ?_ (.inl rfl) hs).1⟩
  rintro _ rfl native hnative
  cases hnative

end Miner
end MinerTim
