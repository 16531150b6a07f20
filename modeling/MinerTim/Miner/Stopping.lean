import MinerTim.Miner.Locks
import MinerTim.Miner.Statistics

/-!
# `Miner.Stopping` — `stop` joins every worker

`Miner::stop` clears the flag and joins the threads, so it returns when every worker has left its loop. A worker looks
at the flag once in a pass, and a pass has a bounded number of operations (`rank`), its locks among them. Workers do
wait for each other, and for the other threads of the process: a dataset is generated under the lock of the cache, a
share is written under that of the stream. But whoever waits, waits for somebody who goes on (`Lib.Locking`). What could
keep a worker back is a panic: `protocol_sound` excludes it, for seeds from which a dataset can be computed (`SeedOk`)
and code that agrees with the interpreter.
-/

namespace MinerTim
namespace Miner

open RandomX SharedThreads Locking

variable {p : Platform} {rc : RigConfig} {T : BitVec 32} {J : Option NativeCode → Prop}
  {s : State (Fin T.toNat) (Shared T) (Thread T)}

/-! ## Winding down -/

/-- How many operations a worker has left at most, once it is told to stop. -/
def rank : Phase T → Nat
  | .stopped => 0
  | .panicked _ => 0
  | .flushRest => 1
  | .checkActive => 2
  | .flush => 3
  | .recordFailure _ => 4
  | .submit _ _ => 10
  | .verify _ => 11
  | .recordFound _ => 12
  | .recordDifficulty _ => 13
  | .recordBest _ => 14
  | .hash _ => 15
  | .setUp _ => 18
  | .getWork => 21

/-- How many of them belong to the access it is at. -/
def cost : Phase T → Nat
  | .stopped => 0
  | .panicked _ => 0
  | .getWork => 3
  | .setUp _ => 3
  | .submit _ _ => 7
  | _ => 1

theorem rank_afterSetUp (st : WorkerState) (j : JobRef) : rank (T := T) (afterSetUp st j) ≤ 15 := by
  unfold afterSetUp
  split <;> simp [rank]

theorem rank_afterVerify (e : Hashed T) (out : Option Submission) : rank (afterVerify e out) ≤ 10 := by
  cases out <;> simp [afterVerify, rank]

theorem cost_le_rank (phase : Phase T) : cost phase ≤ rank phase := by
  cases phase <;> simp [cost, rank]

theorem length_plan_le {th : Thread T} {ops : List (Op Lock)} (h : ops ∈ (workerLocks rc T).plans th) :
    ops.length ≤ cost th.phase := by
  obtain ⟨st, n, phase⟩ := th
  change ops ∈ workerPlans rc ⟨st, n, phase⟩ at h
  cases phase with
  | stopped => cases h
  | panicked point => cases h
  | setUp j =>
    simp only [workerPlans] at h
    split at h <;> obtain rfl := List.mem_singleton.mp h <;> simp [locked, cost]
  | submit e sub =>
    simp only [workerPlans, List.mem_cons, List.not_mem_nil, or_false] at h
    rcases h with rfl | rfl <;> simp [submitShare, cost]
  | _ =>
    obtain rfl := List.mem_singleton.mp h
    simp [locked, cost]

/-- Once the flag is cleared, every access brings its worker closer to the end. -/
theorem costs_stopping : Costs (workerLocks rc T) (workerThreads p rc T J) (fun g => g.miningActive = false)
    (fun th => rank th.phase) (fun th => rank th.phase - cost th.phase) where
  act := by
    intro i g t g' t' hoff hact
    cases hact with
    | active hon =>
      rw [hoff] at hon
      cases hon
    | keep _ | rekey _ _ _ _ _ => exact ⟨hoff, rank_afterSetUp _ _⟩
    | verify _ _ => exact ⟨hoff, rank_afterVerify _ _⟩
    | recordDifficulty =>
      refine ⟨hoff, ?_⟩
      show rank (if _ then _ else _) ≤ _
      split <;> simp [rank, cost]
    | _ => exact ⟨hoff, by simp [rank, cost]⟩
  outside := by
    rintro g _ _ ⟨_, rfl⟩
    rfl
  plan := by
    intro th ops hops
    have hlen := length_plan_le hops
    have hcost := cost_le_rank th.phase
    omega
  after_le th := Nat.sub_le _ _

/-- An access, and what is left after it, also while the flag is set. -/
theorem rank_add_cost_le {i : Fin T.toNat} {g g' : Shared T} {th th' : Thread T} (h : Act p rc T J i g th g' th') :
    rank th'.phase + cost th.phase ≤ 22 := by
  cases h with
  | keep _ | rekey _ _ _ _ _ => exact Nat.add_le_add_right ((rank_afterSetUp _ _).trans (by decide)) 3
  | verify _ _ => exact Nat.add_le_add_right ((rank_afterVerify _ _).trans (by decide)) 1
  | recordDifficulty =>
    show rank (if _ then _ else _) + 1 ≤ 22
    split <;> simp [rank]
  | _ => simp [rank, cost]

/-- A worker never has more than 21 operations to the end of its pass. -/
theorem protocol_rank {κ : Type} : Protocol (lockedWorkers p rc T J κ) (fun _ => True)
    (fun i g x => LockerOk (workerLocks rc T) Lock.level i g x ∧
      opsRank (fun th : Thread T => rank th.phase) (fun th => rank th.phase - cost th.phase) x.thread x.rest ≤ 21) := by
  refine protocol_opsRank (costs_stopping (p := p) (J := J)) wellOrdered_workerLocks ?_
  intro i g th g' th' before ops hact hplan
  have hlen := length_plan_le hplan
  have hrank := rank_add_cost_le hact
  rw [List.length_append, List.length_cons] at hlen
  omega

/-! ## No panic -/

section

variable (p)

/-- A dataset can be computed for this seed: its cache is full, and its programs stay inside their registers. -/
structure SeedOk (seedHash : List Byte) : Prop where
  cache : CACHE_SIZE ≤ (p.argon2dCache seedHash).length
  programs : ∀ prog ∈ (p.superscalarPrograms seedHash).toList, prog.WellFormed

end

theorem SeedOk.not_panics {seedHash : List Byte} (h : SeedOk p seedHash) : ¬ GenerationPanics p seedHash := by
  rintro ⟨numThreads, order, _, hnone⟩
  obtain ⟨ds, hds⟩ := RandomXDataset.exists_generateInOrder h.cache h.programs order
  rw [hds] at hnone
  cases hnone

/-- The cache gives a dataset of any such seed. -/
theorem SeedOk.exists_dataset {seedHash : List Byte} (h : SeedOk p seedHash) (cache : Option DatasetCache) :
    ∃ cache' dataset, GetOrGenerateDataset p seedHash cache cache' dataset := by
  by_cases hcached : ∃ c, cache = some c ∧ c.seedHash = seedHash
  · obtain ⟨c, rfl, hseed⟩ := hcached
    exact ⟨_, _, .cached hseed⟩
  · obtain ⟨ds, hds⟩ := RandomXDataset.exists_generates h.cache h.programs 1
    refine ⟨_, ds, .generated ?_ ⟨1, hds⟩⟩
    intro c hc hseed
    exact hcached ⟨c, hc, hseed⟩

/-- A worker that is set up computes its hash. -/
theorem WorkerOk.exists_hash {i : Fin T.toNat} {st : WorkerState} {j : JobRef} (h : WorkerOk p rc J i st)
    (hJ : ∀ jit, J jit → JitInterprets p jit) (hset : SetFor rc.jobs st j) :
    ∃ r, hashNonce p (rc.worker T i) st = some r := by
  obtain ⟨vm, hvm⟩ := Option.isSome_iff_exists.mp hset.vm
  obtain ⟨last, hverifier, _⟩ := h.verifier
  obtain ⟨ds, _, hds⟩ := hverifier.seeded vm hvm
  have hinterprets : vm.context.Interprets p.fp p.aes .V1 := JitInterprets.context (hJ vm.jit (h.native vm hvm).1)
  have hline : ∀ k, k.toNat < DATASET_ITEM_COUNT → ∃ l, vm.context.line k = some l := by
    intro k hk
    have hsize : k.toNat < ds.items.size := by
      rw [ds.size_eq]
      exact hk
    refine ⟨ds.items[k.toNat], ?_⟩
    simp [VmContext.line, RandomXVm.context, hds, datasetLine, RandomXDataset.getItem, hsize]
  -- whatever the VM is prepared for, its hash exists
  obtain ⟨input, hprep, hctx⟩ : ∃ input, (if st.pipelineReady then vm
      else vm.prepareScratchpad p (writeNonceLe st.blobCurrent (st.nonce.setWidth 32))).Prepared p input ∧
      (if st.pipelineReady then vm
        else vm.prepareScratchpad p (writeNonceLe st.blobCurrent (st.nonce.setWidth 32))).context = vm.context := by
    cases hpipeline : st.pipelineReady with
    | true =>
      obtain ⟨_, w, _, hw, hprep⟩ := h.ready hpipeline
      obtain rfl := Option.some.inj (hw.symm.trans hvm)
      exact ⟨_, hprep, rfl⟩
    | false =>
      refine ⟨writeNonceLe st.blobCurrent (st.nonce.setWidth 32), ?_, ?_⟩
      · simp only [Bool.false_eq_true, if_false, RandomXVm.prepareScratchpad_eq]
        exact RandomXVm.withFill_prepared p vm _ _ rfl
      · simp only [Bool.false_eq_true, if_false, RandomXVm.prepareScratchpad_eq, RandomXVm.context_withFill]
  obtain ⟨hash, hhash⟩ := exists_hashOf ⟨hinterprets, hline⟩ st.ctl input
  have hcall := (RandomXVm.calculateHashPipelined_eq p hprep st.ctl
    (writeNonceLe st.blobNext ((st.nonce + (rc.worker T i).threadCount.setWidth 64).setWidth 32))).1
  rw [hctx, hhash] at hcall
  obtain ⟨r, hr, _⟩ := Option.map_eq_some_iff.mp hcall
  unfold hashNonce
  simp only [hvm, Option.bind_eq_bind, Option.bind_some, hr]
  exact ⟨_, rfl⟩

/-- A worker gets its verdict. -/
theorem WorkerOk.exists_verdict {i : Fin T.toNat} {st : WorkerState} (h : WorkerOk p rc J i st)
    (hJ : ∀ jit, J jit → JitInterprets p jit) (env : Environment) (hjit : J env.verifierJit) (j : JobRef)
    (hash : Vector Byte 32) : ∃ r, submitHash p rc.jobs st env j hash = some r := by
  obtain ⟨last, hverifier, _⟩ := h.verifier
  obtain ⟨v', href⟩ := hverifier.fresh.exists_reference hJ hjit st.ctl st.blobCurrent
  unfold submitHash
  split
  · rw [href]
    exact ⟨_, rfl⟩
  · exact ⟨_, rfl⟩

/-- No worker has panicked, and the lock of the cache is not poisoned. -/
theorem protocol_sound (hJ : ∀ jit, J jit → JitInterprets p jit) (hseeds : ∀ j, SeedOk p (rc.jobs j).seedHash) :
    Protocol (workerThreads p rc T J) (fun g => SharedOk p rc g ∧ g.cachePoisoned = false)
      (fun i _ th => ThreadOk p rc J i th ∧ ∀ point, th.phase ≠ .panicked point) where
  own := by
    rintro i g t g' t' ⟨hg, hsound⟩ ⟨h, hphase⟩ hact
    obtain ⟨hg', h'⟩ := h.act (trusted_of_interprets hJ) hg hact
    refine ⟨⟨hg', ?_⟩, h', ?_⟩
    · cases hact with
      | @poison _ _ j _ _ _ hpanics => exact absurd hpanics (hseeds j).not_panics
      | _ => exact hsound
    · intro point hpoint
      cases hact with
      | poisoned _ hpoisoned =>
        rw [hsound] at hpoisoned
        cases hpoisoned
      | @poison _ _ j _ _ _ hpanics => exact (hseeds j).not_panics hpanics
      | hashPanics hnone =>
        obtain ⟨r, hr⟩ := h.worker.exists_hash hJ h.phase.1
        rw [hnone] at hr
        cases hr
      | @verifyPanics _ _ e env hjit hnone =>
        obtain ⟨r, hr⟩ := h.worker.exists_verdict hJ env hjit e.job e.hash
        rw [hnone] at hr
        cases hr
      | keep _ | rekey _ _ _ _ _ =>
        unfold afterSetUp at hpoint
        split at hpoint <;> cases hpoint
      | @verify _ _ _ _ _ out _ _ => cases out <;> cases hpoint
      | recordDifficulty => split at hpoint <;> cases hpoint
      | _ => cases hpoint
  others _ _ _ _ h := h
  outside := by
    rintro g _ ⟨hg, hsound⟩ ⟨_, rfl⟩
    exact ⟨⟨⟨hg.cache, hg.submitted⟩, hsound⟩, fun _ _ h => h⟩

/-! ## No deadlock -/

/-- A worker that has not left its loop can make its next access. -/
theorem exists_act (hJ : ∀ jit, J jit → JitInterprets p jit) (hsome : ∃ jit, J jit)
    (hseeds : ∀ j, SeedOk p (rc.jobs j).seedHash) {i : Fin T.toNat} {g : Shared T} {th : Thread T}
    (h : ThreadOk p rc J i th) (hpoisoned : g.cachePoisoned = false) (hpanicked : ∀ point, th.phase ≠ .panicked point) :
    th.phase = .stopped ∨ ∃ g' t', Act p rc T J i g th g' t' := by
  obtain ⟨jit, hjit⟩ := hsome
  obtain ⟨st, n, phase⟩ := th
  obtain ⟨hworker, hphase⟩ := h
  cases phase with
  | checkActive =>
    cases hflag : g.miningActive with
    | true => exact .inr ⟨_, _, .active hflag⟩
    | false => exact .inr ⟨_, _, .inactive hflag⟩
  | getWork => exact .inr ⟨_, _, .noWork⟩
  | setUp j =>
    by_cases hneeds : NeedsRekey rc.jobs (installJob rc.jobs st j) j
    · obtain ⟨cache, dataset, hget⟩ := (hseeds j).exists_dataset g.datasetCache
      exact .inr ⟨_, _, .rekey hneeds hpoisoned hget hjit rfl⟩
    · exact .inr ⟨_, _, .keep hneeds⟩
  | hash j =>
    obtain ⟨⟨hash, st'⟩, hr⟩ := hworker.exists_hash hJ hphase.1
    exact .inr ⟨_, _, .hash hr⟩
  | recordBest e => exact .inr ⟨_, _, .recordBest⟩
  | recordDifficulty e => exact .inr ⟨_, _, .recordDifficulty⟩
  | recordFound e => exact .inr ⟨_, _, .recordFound⟩
  | verify e =>
    -- of what a pass is given, only the JIT of the verifier matters here
    obtain ⟨_, dataset, _⟩ := (hseeds e.job).exists_dataset g.datasetCache
    let env : Environment := { setUpEnv e.job dataset none with verifierJit := jit }
    obtain ⟨⟨st', out⟩, hr⟩ := hworker.exists_verdict hJ env hjit e.job e.hash
    exact .inr ⟨_, _, Act.verify (hjit : J env.verifierJit) hr⟩
  | recordFailure e => exact .inr ⟨_, _, .recordFailure⟩
  | submit e sub => exact .inr ⟨_, _, .submit⟩
  | flush => exact .inr ⟨_, _, .noFlush⟩
  | flushRest => exact .inr ⟨_, _, .flushRest⟩
  | stopped => exact .inl rfl
  | panicked point => exact absurd rfl (hpanicked point)

/-! ## After `stop` -/

/-- What a miner whose workers have all been joined has counted. -/
structure Settled (rc : RigConfig) (g : Shared T) : Prop where
  totalHashes : g.totalHashes = BitVec.ofNat 64 g.hashed.length
  submitted : (g.submitted.map Prod.fst).Perm (found rc g)
  sharesFound : g.stats.sharesFound = BitVec.ofNat 64 g.submitted.length
  verifyFailures : g.stats.verifyFailures = 0
  best : ∀ e ∈ g.hashed, g.stats.bestHashVal ≤ hashVal e.hash
  attained : g.stats.bestHashVal = BitVec.allOnes 32 ∨ ∃ e ∈ g.hashed, g.stats.bestHashVal = hashVal e.hash

theorem settled_of_stopped (hJ : ∀ jit, J jit → JitInterprets p jit)
    (h : Runs (workerThreads p rc T J) (spawned rc T) s) (hstopped : ∀ i, (s.threads i).phase = .stopped) :
    Settled rc s.shared := by
  have haccounts := accounts_of_runs h
  obtain ⟨hnone, hfailures⟩ := withheld_nil hJ h
  -- a thread that has stopped carries nothing
  have hshares : (s.shared.submitted.map Prod.fst).Perm (found rc s.shared) := by
    have heq := haccounts.shares
    simp only [hnone, hstopped, inFlight, Finset.sum_const_zero, add_zero, List.nil_append] at heq
    exact (Multiset.coe_eq_coe.mp heq).symm
  constructor
  · have heq := haccounts.hashes
    simp only [pending, hstopped, Finset.sum_const_zero, add_zero] at heq
    exact heq.symm
  · exact hshares
  · have heq := haccounts.sharesFound
    simp only [hstopped, uncounted, Finset.sum_const_zero, add_zero] at heq
    rw [← heq, ← hshares.length_eq, List.length_map]
  · exact hfailures
  · intro e he
    rcases haccounts.lower e he with hle | ⟨i, hi⟩
    · exact hle
    · rw [hstopped i] at hi
      cases hi
  · exact haccounts.attained

/-- A worker has left its loop, and holds nothing. -/
def HasLeft (x : Locker (Thread T) Lock) : Prop := x.rest = [] ∧ x.thread.phase = .stopped

/-- **`stop` returns, and everything is counted then**, in every interleaving of the workers and of the other threads,
    lock by lock. No worker panics and none is deadlocked, when a dataset can be computed for every seed and the JIT
    agrees with the interpreter: if it waits, the chain of those who wait for each other ends at one who goes on. Once
    the flag is cleared the workers make at most 21 operations each, in any order, and can all leave their loops. Then
    `total_hashes` is the number of hashes, every hash that meets its target has been submitted exactly once and none
    was withheld, the best value is the lowest of all, and no lock is left behind. -/
theorem stop_joins_every_worker (hJ : ∀ jit, J jit → JitInterprets p jit) (hsome : ∃ jit, J jit)
    (hseeds : ∀ j, SeedOk p (rc.jobs j).seedHash) {κ : Type}
    {s : State (Fin T.toNat) (Guarded (Shared T) (Fin T.toNat) κ Lock) (Locker (Thread T) Lock)}
    (h : Runs (lockedWorkers p rc T J κ) (free κ Lock (spawned rc T)) s) :
    (∀ i, (∀ point, (s.threads i).thread.phase ≠ .panicked point) ∧
      (HasLeft (s.threads i) ∨ (workerLocks rc T).Unblocked (workerThreads p rc T J) s i)) ∧
    (s.shared.shared.miningActive = false →
      (∀ n s', RunsIn (lockedWorkers p rc T J κ) n s s' → n ≤ 21 * T.toNat) ∧
      ∃ n s', RunsIn (lockedWorkers p rc T J κ) n s s' ∧ ∀ i, HasLeft (s'.threads i)) ∧
    ((∀ i, HasLeft (s.threads i)) →
      Settled rc s.shared.shared ∧ ∀ i l, s.shared.holder l ≠ some (.inl i)) := by
  have hsound : ∀ {s'}, Runs (lockedWorkers p rc T J κ) (free κ Lock (spawned rc T)) s' → ∀ i,
      (∀ point, (s'.threads i).thread.phase ≠ .panicked point) ∧
        ((workerLocks rc T).plans (s'.threads i).thread ≠ [] →
          ∃ g' t', Act p rc T J i s'.shared.shared (s'.threads i).thread g' t') := by
    intro s' hs' i
    obtain ⟨⟨_, hpoisoned⟩, hthreads⟩ := (protocol_sound hJ hseeds).runs (s := spawned rc T)
      ⟨sharedOk_init, rfl⟩ (fun i => ⟨threadOk_spawned i, nofun⟩) (runs_base hs')
    refine ⟨(hthreads i).2, fun hplans => ?_⟩
    rcases exists_act hJ hsome hseeds (hthreads i).1 hpoisoned (hthreads i).2 with hstopped | hact
    · exact absurd (plans_eq_nil_iff.mpr (.inl hstopped)) hplans
    · exact hact
  have hholds : ∀ {s'}, Runs (lockedWorkers p rc T J κ) (free κ Lock (spawned rc T)) s' → ∀ i,
      LockerOk (workerLocks rc T) Lock.level i s'.shared (s'.threads i) := fun hs' =>
    ((protocol_lockers wellOrdered_workerLocks).runs trivial (lockerOk_free (spawned rc T)) hs').2
  have hgo : ∀ {s'}, Runs (lockedWorkers p rc T J κ) (free κ Lock (spawned rc T)) s' → ∀ i,
      (workerLocks rc T).Finished (s'.threads i) ∨ (workerLocks rc T).Unblocked (workerThreads p rc T J) s' i :=
    fun hs' => exists_canGo wellOrdered_workerLocks (hholds hs') fun i => (hsound hs' i).2
  -- a worker without a plan has stopped, as it has not panicked
  have hleft : ∀ {s'}, Runs (lockedWorkers p rc T J κ) (free κ Lock (spawned rc T)) s' → ∀ i,
      (workerLocks rc T).Finished (s'.threads i) → HasLeft (s'.threads i) := by
    rintro s' hs' i ⟨hrest, hplans⟩
    refine ⟨hrest, (plans_eq_nil_iff.mp hplans).resolve_right ?_⟩
    rintro ⟨point, hpoint⟩
    exact (hsound hs' i).1 point hpoint
  refine ⟨fun i => ⟨(hsound h i).1, (hgo h i).imp_left (hleft h i)⟩, ?_, ?_⟩
  · intro hoff
    have hwinding : Winding (lockedWorkers p rc T J κ) (fun g => g.shared.miningActive = false) _ :=
      winding_locked costs_stopping wellOrdered_workerLocks
    have hbound : ∀ i, opsRank _ _ (s.threads i).thread (s.threads i).rest ≤ 21 := fun i =>
      ((protocol_rank.runs trivial (fun i => ⟨lockerOk_free (spawned rc T) i,
      by simp [opsRank, free, spawned, rank]⟩) h).2 i).2
    constructor
    · intro n s' hruns
      obtain ⟨_, hle⟩ := hwinding.bounded hoff hruns
      have hsum : ∑ i, opsRank _ _ (s.threads i).thread (s.threads i).rest ≤ ∑ _i : Fin T.toNat, 21 :=
        Finset.sum_le_sum fun i _ => hbound i
      rw [Finset.sum_const, Finset.card_univ, Fintype.card_fin, smul_eq_mul] at hsum
      omega
    · obtain ⟨n, s', hruns, hend⟩ := exists_finished hwinding hoff fun s' hs' => hgo (h.trans hs')
      exact ⟨n, s', hruns, fun i => hleft (h.trans hruns.runs) i (hend i)⟩
  · intro hall
    refine ⟨settled_of_stopped hJ (runs_base h) fun i => (hall i).2, ?_⟩
    intro i l hheld
    obtain ⟨held, _, hordered, hholder⟩ := (hholds h i).holds
    rw [(hall i).1] at hordered
    obtain rfl : held = [] := hordered
    cases (hholder l).mp hheld

theorem seedOk_null (seedHash : List Byte) : SeedOk nullPlatform seedHash := by
  constructor
  · simp [nullPlatform]
  · intro q hq
    simp only [nullPlatform, Vector.toList_replicate, List.mem_replicate] at hq
    obtain ⟨_, rfl⟩ := hq
    exact ⟨by simp, by simp, by simp, by simp⟩

/-- The workers of `sampleRig`, with one other thread. -/
abbrev lockedSample := lockedWorkers nullPlatform sampleRig 2 (· = none) Unit

theorem runs_lockedSample {s : State (Fin (2#32).toNat) (Shared 2) (Thread 2)}
    (h : Runs sampleThreads (spawned sampleRig 2) s) :
    Runs lockedSample (free Unit Lock (spawned sampleRig 2)) (free Unit Lock s) := by
  refine runs_lift wellOrdered_workerLocks ?_ h
  intro i g th g' th' hact hplans
  obtain ⟨st, n, phase⟩ := th
  rcases plans_eq_nil_iff.mp hplans with rfl | ⟨point, rfl⟩ <;> cases hact

/-- Both workers have submitted their share, and have been stopped. -/
theorem exists_sample_stopped : ∃ s, Runs sampleThreads (spawned sampleRig 2) s ∧ s.shared.submitted.length = 2 ∧
    ∀ i, (s.threads i).phase = .stopped := by
  obtain ⟨s, hs, hworkers, hactive, hphase⟩ := exists_sample_shares
  have hlength : s.shared.submitted.length = 2 := by
    have hmap := congrArg List.length hworkers
    rwa [List.length_map] at hmap
  have hoff : Step sampleThreads s ⟨{ s.shared with miningActive := false }, s.threads⟩ := .outside ⟨hactive, rfl⟩
  have halone : ∀ i (g : Shared 2) st n, g.miningActive = false →
      SampleAlone i (g, ⟨st, n, .checkActive⟩) ({ g with totalHashes := g.totalHashes + n }, ⟨st, n, .stopped⟩) := by
    intro i g st n hoff
    have hstart : SampleAlone i (g, ⟨st, n, .checkActive⟩) (g, ⟨st, n, .checkActive⟩) := .refl
    exact (hstart.next (.inactive hoff)).next .flushRest
  have hthread : ∀ i, s.threads i = ⟨(s.threads i).st, (s.threads i).localHashes, .checkActive⟩ := by
    intro i
    rw [← hphase i]
  have hfirst := runs_sample (hs.tail hoff) (hthread firstWorker) (halone firstWorker _ _ _ rfl)
  have hsecond := runs_sample (i := secondWorker) hfirst (hthread secondWorker) (halone secondWorker _ _ _ rfl)
  refine ⟨_, hsecond, hlength, ?_⟩
  intro i
  obtain rfl | rfl := sampleWorker_cases i <;> rfl

/-- The first worker has locked the cache, and the second one waits for it. -/
theorem exists_sample_waiting : ∃ s, Runs lockedSample (free Unit Lock (spawned sampleRig 2)) s ∧
    (workerLocks sampleRig 2).WaitsFor s (.inl secondWorker) (.inl firstWorker) := by
  have hdue : ∀ i, (workerLocks sampleRig 2).Due ⟨⟨sampleStart i, 0, .setUp 0⟩, []⟩ (locked .datasetCache) := by
    intro i
    refine .inr ⟨rfl, ?_⟩
    show locked .datasetCache ∈ workerPlans sampleRig (T := 2) ⟨sampleStart i, 0, .setUp 0⟩
    simp only [workerPlans, if_pos (needsRekey_sample i), List.mem_singleton]
  let s : State (Fin (2#32).toNat) (Shared 2) (Thread 2) := ⟨.init 2, fun i => ⟨sampleStart i, 0, .setUp 0⟩⟩
  have hlock : Step lockedSample (free Unit Lock s) _ := .act firstWorker (.lock (hdue firstWorker) rfl)
  exact ⟨_, (runs_lockedSample runs_sample_jobs).tail hlock, secondWorker, _, _, rfl, hdue secondWorker, rfl⟩

/-- Two workers: the second one waits for the first one, which has locked the cache; and later both have left. -/
theorem stop_joins_every_worker_sample :
    (∃ s, Runs lockedSample (free Unit Lock (spawned sampleRig 2)) s ∧
      (workerLocks sampleRig 2).WaitsFor s (.inl secondWorker) (.inl firstWorker) ∧
      (HasLeft (s.threads secondWorker) ∨ (workerLocks sampleRig 2).Unblocked sampleThreads s secondWorker)) ∧
    ∃ s, Runs lockedSample (free Unit Lock (spawned sampleRig 2)) s ∧ s.shared.shared.submitted.length = 2 ∧
      (∀ i, HasLeft (s.threads i)) ∧ Settled sampleRig s.shared.shared := by
  have hJ : ∀ jit : Option NativeCode, jit = none → JitInterprets nullPlatform jit := by
    rintro _ rfl native hnative
    cases hnative
  constructor
  · obtain ⟨s, hs, hwaits⟩ := exists_sample_waiting
    exact ⟨s, hs, hwaits,
      ((stop_joins_every_worker hJ ⟨none, rfl⟩ (fun j => seedOk_null _) hs).1 secondWorker).2⟩
  · obtain ⟨s, hs, hlength, hstopped⟩ := exists_sample_stopped
    have hlocked := runs_lockedSample hs
    have hleft : ∀ i, HasLeft ((free Unit Lock s).threads i) := fun i => ⟨rfl, hstopped i⟩
    exact ⟨_, hlocked, hlength, hleft,
      ((stop_joins_every_worker hJ ⟨none, rfl⟩ (fun j => seedOk_null _) hlocked).2.2 hleft).1⟩

end Miner
end MinerTim
