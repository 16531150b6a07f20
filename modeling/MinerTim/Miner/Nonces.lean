import MinerTim.Lib.Transition
import MinerTim.Miner.Verifier

/-!
# `Miner.Nonces` — which nonces the workers of a miner hash

Worker `i` of `T` starts its 64-bit counter at `i` and adds `T` for each hash; the nonce is the low 32 bits
of the counter, which is never reset. A `Rig` is the `T` workers and a log of what they hashed, and a step
is one pass of one of them, on any job.

The counters of two workers never meet, since they differ modulo `T`. Their low halves do not meet either
when `T` divides `2 ^ 32`, or while the counters are less than `2 ^ 32` apart; otherwise they do.
-/

namespace MinerTim
namespace Miner

open RandomX Transition

/-! ## The workers -/

/-- A hash, as the log has it: who hashed which nonce for which job, and the value the counter of the worker
    would have if it had no width. -/
structure HashedNonce (T : BitVec 32) where
  worker : Fin T.toNat
  job : JobRef
  counter : Nat
  nonce : List Byte

/-- The workers of a miner, and what they have hashed. -/
structure Rig (T : BitVec 32) where
  workers : Fin T.toNat → WorkerState
  log : List (HashedNonce T)

/-- What the workers are started with. -/
structure RigConfig where
  jobs : JobRef → Job
  nativeLoop : Bool
  verifyShares : Bool
  ctl : BitVec 32

/-- The arguments of `worker_loop` for worker `i`, as `start` passes them. -/
def RigConfig.worker (rc : RigConfig) (T : BitVec 32) (i : Fin T.toNat) : WorkerConfig where
  threadId := BitVec.ofNat 32 i
  threadCount := T
  nativeLoop := rc.nativeLoop
  verifyShares := rc.verifyShares

variable (p : Platform) (rc : RigConfig) (T : BitVec 32)

/-- No worker has hashed. -/
def Rig.init : Rig T where
  workers := fun i => .init (rc.worker T i) rc.ctl
  log := []

/-- How many hashes worker `i` has done. -/
def hashesBy {T : BitVec 32} (log : List (HashedNonce T)) (i : Fin T.toNat) : Nat :=
  log.countP fun e => e.worker == i

/-- How many of them were for job `j`. -/
def hashesOn {T : BitVec 32} (log : List (HashedNonce T)) (i : Fin T.toNat) (j : JobRef) : Nat :=
  log.countP fun e => e.worker == i && e.job == j

/-- The job and the blob that a pass hashes, if it gets that far. -/
def hashedBlob (jobs : JobRef → Job) (cfg : WorkerConfig) (st : WorkerState) (env : Environment) :
    Option (JobRef × List Byte) := do
  let j ← env.work
  let st := rekeyVm p jobs cfg (installJob jobs st j) env j
  if st.blobCurrent.length < 43 ∨ st.blobNext.length < 43 then none
  else
    let (_, st) ← hashNonce p cfg st
    return (j, st.blobCurrent)

/-- One pass of worker `a.1`. -/
def rigStep (rig : Rig T) (a : Fin T.toNat × Environment) : Option (Rig T) := do
  let (st, _) ← workerIteration p rc.jobs (rc.worker T a.1) (rig.workers a.1) a.2
  let hashed := (hashedBlob p rc.jobs (rc.worker T a.1) (rig.workers a.1) a.2).map fun r =>
    { worker := a.1, job := r.1, counter := a.1 + T.toNat * hashesBy rig.log a.1,
      nonce := (r.2.drop 39).take 4 : HashedNonce T }
  return { workers := Function.update rig.workers a.1 st, log := rig.log ++ hashed.toList }

/-- No two workers hash one nonce for one job, unless one of them does `2 ^ 32 / T` hashes on it. -/
def Partitioned {T : BitVec 32} (log : List (HashedNonce T)) : Prop :=
  ∀ j, (∀ i, hashesOn log i j * T.toNat < 2 ^ 32) →
    ∀ e ∈ log, ∀ e' ∈ log, e.job = j → e'.job = j → e.worker ≠ e'.worker → e.nonce ≠ e'.nonce

/-- The counters of any two hashes for one job are less than `2 ^ 32` apart. -/
def Close {T : BitVec 32} (log : List (HashedNonce T)) : Prop :=
  ∀ e ∈ log, ∀ e' ∈ log, e.job = e'.job → e.counter < e'.counter + 2 ^ 32

/-! ## One pass -/

variable {p rc T}

theorem submitHash_nonce {jobs : JobRef → Job} {st st' : WorkerState} {env : Environment} {j : JobRef}
    {hash : Vector Byte 32} {out : Option Submission}
    (hrun : submitHash p jobs st env j hash = some (st', out)) : st'.nonce = st.nonce := by
  unfold submitHash at hrun
  split at hrun
  · obtain ⟨_, _, hres⟩ := Option.bind_eq_some_iff.mp hrun
    obtain ⟨rfl, _⟩ := Prod.mk.inj (Option.some.inj hres)
    rfl
  · obtain ⟨rfl, _⟩ := Prod.mk.inj (Option.some.inj hrun)
    rfl

theorem rekeyVm_nonce {jobs : JobRef → Job} {cfg : WorkerConfig} (st : WorkerState) (env : Environment)
    (j : JobRef) : (rekeyVm p jobs cfg (installJob jobs st j) env j).nonce = st.nonce := by
  have hinstall : (installJob jobs st j).nonce = st.nonce := by
    unfold installJob
    split <;> rfl
  unfold rekeyVm
  simp only
  split
  · exact hinstall
  · exact hinstall

/-- **A pass hashes the low half of the counter and moves it on by the stride**, or does neither. -/
theorem workerIteration_nonce {jobs : JobRef → Job} {cfg : WorkerConfig} {st st' : WorkerState}
    {env : Environment} {out : Option Submission}
    (hrun : workerIteration p jobs cfg st env = some (st', out)) :
    (hashedBlob p jobs cfg st env = none ∧ st'.nonce = st.nonce) ∨
    ∃ j blob, hashedBlob p jobs cfg st env = some (j, blob) ∧
      (blob.drop 39).take 4 = nonceBytes (st.nonce.setWidth 32) ∧
      st'.nonce = st.nonce + cfg.threadCount.setWidth 64 := by
  unfold workerIteration at hrun
  unfold hashedBlob
  cases hwork : env.work with
  | none =>
    rw [hwork] at hrun
    obtain ⟨rfl, _⟩ := Prod.mk.inj (Option.some.inj hrun)
    exact .inl ⟨rfl, rfl⟩
  | some j =>
    rw [hwork] at hrun
    simp only [Option.bind_eq_bind, Option.bind_some] at hrun ⊢
    have hnonce : (rekeyVm p jobs cfg (installJob jobs st j) env j).nonce = st.nonce :=
      rekeyVm_nonce st env j
    generalize rekeyVm p jobs cfg (installJob jobs st j) env j = st₁ at hrun hnonce ⊢
    -- a blob without room for a nonce is not hashed
    by_cases hshort : st₁.blobCurrent.length < 43 ∨ st₁.blobNext.length < 43
    · rw [if_pos hshort] at hrun
      obtain ⟨rfl, _⟩ := Prod.mk.inj (Option.some.inj hrun)
      exact .inl ⟨if_pos hshort, hnonce⟩
    · rw [if_neg hshort] at hrun
      rw [if_neg hshort]
      obtain ⟨⟨hash, st₂⟩, hhash, hsubmit⟩ := Option.bind_eq_some_iff.mp hrun
      obtain ⟨_, hnext, hblob, _⟩ := hashNonce_frame hhash
      refine .inr ⟨j, st₂.blobCurrent, ?_, ?_, ?_⟩
      · rw [hhash]
        rfl
      · rw [hblob, take_drop_writeNonceLe (by omega), hnonce]
      · rw [submitHash_nonce hsubmit, hnext, hnonce]

/-! ## A run -/

/-- Every worker's counter is at its start plus its stride for each hash; every hash was of the low half of
    the counter at the time. -/
structure NonceInv (rig : Rig T) : Prop where
  nonce : ∀ i, (rig.workers i).nonce = BitVec.ofNat 64 (i + T.toNat * hashesBy rig.log i)
  hashed : ∀ e ∈ rig.log, e.nonce = nonceBytes (BitVec.ofNat 32 e.counter)
  residue : ∀ e ∈ rig.log, e.counter % T.toNat = e.worker

theorem nonceInv_init : NonceInv (.init rc T) := by
  refine ⟨?_, nofun, nofun⟩
  intro i
  have hi : (i : Nat) < 2 ^ 32 := i.isLt.trans T.isLt
  apply BitVec.eq_of_toNat_eq
  simp only [Rig.init, WorkerState.init, RigConfig.worker, hashesBy, List.countP_nil, Nat.mul_zero,
    Nat.add_zero, BitVec.toNat_setWidth, BitVec.toNat_ofNat]
  omega

theorem rigStep_inv {rig rig' : Rig T} {a : Fin T.toNat × Environment} (h : NonceInv rig)
    (hstep : rigStep p rc T rig a = some rig') : NonceInv rig' := by
  obtain ⟨i, env⟩ := a
  obtain ⟨⟨st, out⟩, hpass, hres⟩ := Option.bind_eq_some_iff.mp hstep
  obtain rfl := Option.some.inj hres
  rcases workerIteration_nonce hpass with ⟨hnone, hkeep⟩ | ⟨j, blob, hsome, hblob, hnext⟩
  · -- no hash in this pass: the nonce stays, and nothing is recorded
    simp only [hnone, Option.map_none, Option.toList_none, List.append_nil]
    refine ⟨?_, h.hashed, h.residue⟩
    intro i'
    show (Function.update rig.workers i st i').nonce = _
    by_cases hi : i' = i
    · subst hi
      rw [Function.update_self, hkeep, h.nonce]
    · rw [Function.update_of_ne hi, h.nonce]
  · -- one more hash: the nonce moves on by the thread count
    simp only [hsome, Option.map_some, Option.toList_some]
    refine ⟨?_, ?_, ?_⟩
    · intro i'
      show (Function.update rig.workers i st i').nonce = _
      by_cases hi : i' = i
      · subst hi
        rw [Function.update_self, hnext, h.nonce]
        apply BitVec.eq_of_toNat_eq
        simp only [hashesBy, List.countP_append, List.countP_singleton, beq_self_eq_true, if_true,
          BitVec.toNat_add, BitVec.toNat_ofNat, BitVec.toNat_setWidth, RigConfig.worker]
        have hT := T.isLt
        rw [Nat.mod_eq_of_lt (a := T.toNat) (by omega), Nat.mod_add_mod, Nat.mul_add, Nat.mul_one,
          Nat.add_assoc]
      · rw [Function.update_of_ne hi, h.nonce]
        simp [hashesBy, Ne.symm hi]
    · intro e he
      rcases List.mem_append.mp he with he | he
      · exact h.hashed e he
      · obtain rfl := List.mem_singleton.mp he
        -- the blob carries the nonce at its offset, little-endian
        show (blob.drop 39).take 4 = _
        rw [hblob, h.nonce, BitVec.setWidth_ofNat_of_le (by decide)]
    · intro e he
      rcases List.mem_append.mp he with he | he
      · exact h.residue e he
      · obtain rfl := List.mem_singleton.mp he
        show (↑i + T.toNat * _) % T.toNat = _
        rw [Nat.add_mul_mod_self_left, Nat.mod_eq_of_lt i.isLt]

theorem nonceInv_reachable {rig : Rig T} (h : Reachable (rigStep p rc T) (.init rc T) rig) :
    NonceInv rig :=
  h.invariant nonceInv_init fun _ _ _ hinv hstep => rigStep_inv hinv hstep

/-! ## When the nonces are partitioned -/

theorem nonceBytes_inj {n n' : BitVec 32} (h : nonceBytes n = nonceBytes n') : n = n' := by
  have hbytes : ∀ k < 4, byteOf n k = byteOf n' k := by
    simp only [nonceBytes, List.cons.injEq, and_true] at h
    obtain ⟨h₀, h₁, h₂, h₃⟩ := h
    intro k hk
    interval_cases k <;> assumption
  calc n = leBits (byteOf n) 4 := (leBits_byteOf (n := 4) n).symm
    _ = leBits (byteOf n') 4 := leBits_congr hbytes
    _ = n' := leBits_byteOf (n := 4) n'

/-- Two hashes of one nonce have counters that agree modulo `2 ^ 32`. -/
theorem NonceInv.mod_eq {rig : Rig T} (h : NonceInv rig) {e e' : HashedNonce T} (he : e ∈ rig.log)
    (he' : e' ∈ rig.log) (heq : e.nonce = e'.nonce) : e.counter % 2 ^ 32 = e'.counter % 2 ^ 32 := by
  rw [h.hashed e he, h.hashed e' he'] at heq
  simpa using congrArg BitVec.toNat (nonceBytes_inj heq)

/-- A stride that divides `2 ^ 32` keeps the workers apart for ever. -/
theorem NonceInv.partitioned_of_dvd {rig : Rig T} (h : NonceInv rig) (hT : T.toNat ∣ 2 ^ 32) :
    Partitioned rig.log := by
  intro j _ e he e' he' _ _ hne heq
  have hmod := congrArg (· % T.toNat) (h.mod_eq he he' heq)
  simp only [Nat.mod_mod_of_dvd _ hT, h.residue e he, h.residue e' he'] at hmod
  exact hne (Fin.ext hmod)

/-- With any stride, counters less than `2 ^ 32` apart have different low halves. -/
theorem NonceInv.partitioned_of_close {rig : Rig T} (h : NonceInv rig) (hclose : Close rig.log) :
    Partitioned rig.log := by
  intro j _ e he e' he' hj hj' hne heq
  have hmod := h.mod_eq he he' heq
  have hlt := hclose e he e' he' (hj.trans hj'.symm)
  have hlt' := hclose e' he' e he (hj'.trans hj.symm)
  have hcounter : e.counter = e'.counter := by omega
  have hworker : (e.worker : Nat) = e'.worker := by
    rw [← h.residue e he, ← h.residue e' he', hcounter]
  exact hne (Fin.ext hworker)

/-! ## When they are not -/

/-- A job that no hash is a share of. -/
def quietJob : Job := { sampleJob with target := [] }

/-- Miners that look for no share. -/
def quietConfig : RigConfig :=
  { jobs := fun _ => quietJob, nativeLoop := false, verifyShares := false, ctl := 0 }

/-- What a pass on job `j` is given. -/
def quietEnv (ds : RandomXDataset) (j : JobRef) : Environment :=
  { work := some j, dataset := ds, jit := none, verifierJit := none }

/-- On the null platform a pass on a new job hashes. -/
theorem exists_workerIteration {cfg : WorkerConfig} {st : WorkerState} {j : JobRef} (h : Quiet st)
    (hnew : st.currentJob ≠ some j) (ds : RandomXDataset) :
    ∃ st' blob,
      workerIteration nullPlatform (fun _ => quietJob) cfg st (quietEnv ds j) = some (st', none) ∧
      hashedBlob nullPlatform (fun _ => quietJob) cfg st (quietEnv ds j) = some (j, blob) ∧
      Quiet st' ∧ st'.currentJob = some j := by
  obtain ⟨st₀, st', hset, hlong, hlong', hhash, hquiet, hjob⟩ :=
    @Quiet.exists_hashNonce (fun _ => quietJob) cfg st (quietEnv ds j) j h hnew rfl
  have hmisses : meetsTarget (Vector.replicate 32 0) quietJob.target = false := by decide
  have hwork : (quietEnv ds j).work = some j := rfl
  have hnot : ¬ (st₀.blobCurrent.length < 43 ∨ st₀.blobNext.length < 43) := by
    rw [hlong, hlong']
    decide
  refine ⟨st', st'.blobCurrent, ?_, ?_, hquiet, hjob⟩
  · unfold workerIteration
    simp only [hwork, hset, if_neg hnot, hhash, Option.bind_eq_bind, Option.bind_some, submitHash,
      hmisses, Bool.false_eq_true, if_false]
  · unfold hashedBlob
    simp only [hwork, hset, if_neg hnot, hhash, Option.bind_eq_bind, Option.bind_some]
    rfl

/-- The same of a miner. -/
theorem exists_rigStep {rig : Rig T} (h : ∀ i, Quiet (rig.workers i)) (i : Fin T.toNat) {j : JobRef}
    (hnew : (rig.workers i).currentJob ≠ some j) (ds : RandomXDataset) :
    ∃ rig' e, rigStep nullPlatform quietConfig T rig (i, quietEnv ds j) = some rig' ∧
      (∀ i', Quiet (rig'.workers i')) ∧ (rig'.workers i).currentJob = some j ∧
      (∀ i' ≠ i, rig'.workers i' = rig.workers i') ∧
      rig'.log = rig.log ++ [e] ∧ e.worker = i ∧ e.job = j ∧
      e.counter = i + T.toNat * hashesBy rig.log i := by
  obtain ⟨st', blob, hpass, hblob, hquiet, hjob⟩ :=
    @exists_workerIteration (quietConfig.worker T i) _ j (h i) hnew ds
  let e : HashedNonce T :=
    { worker := i, job := j, counter := i + T.toNat * hashesBy rig.log i
      nonce := (blob.drop 39).take 4 }
  refine ⟨{ workers := Function.update rig.workers i st', log := rig.log ++ [e] }, e, ?_, ?_, ?_, ?_,
    rfl, rfl, rfl, rfl⟩
  · unfold rigStep
    simp only [show quietConfig.jobs = fun _ => quietJob from rfl, hpass, hblob, Option.bind_eq_bind,
      Option.bind_some, Option.map_some, Option.toList_some]
    rfl
  · intro i'
    show Quiet (Function.update rig.workers i st' i')
    by_cases hi : i' = i
    · subst hi
      rw [Function.update_self]
      exact hquiet
    · rw [Function.update_of_ne hi]
      exact h i'
  · show (Function.update rig.workers i st' i).currentJob = _
    rw [Function.update_self]
    exact hjob
  · intro i' hi
    exact Function.update_of_ne hi _ _

/-- Worker `b` hashes once for each of the jobs `1` to `k`, while the others wait. -/
def runAhead (b : Fin T.toNat) (ds : RandomXDataset) (k : Nat) : List (Fin T.toNat × Environment) :=
  (List.range k).map fun m => (b, quietEnv ds (m + 1))

theorem exists_runAhead (b : Fin T.toNat) (ds : RandomXDataset) (k : Nat) :
    ∃ rig, runs (rigStep nullPlatform quietConfig T) (.init quietConfig T) (runAhead b ds k)
        = some rig ∧
      (∀ i, Quiet (rig.workers i)) ∧ (∀ i ≠ b, (rig.workers i).currentJob = none) ∧
      (∀ j, (rig.workers b).currentJob = some j → 0 < j ∧ j ≤ k) ∧
      (∀ e ∈ rig.log, e.worker = b ∧ e.job ≠ 0) ∧ rig.log.length = k := by
  induction k with
  | zero => exact ⟨_, rfl, fun i => quiet_init _ _, fun _ _ => rfl, nofun, nofun, rfl⟩
  | succ k ih =>
    obtain ⟨rig, hrun, hquiet, hidle, hjob, hlog, hlen⟩ := ih
    -- the next job is new to the worker, so it hashes once more
    have hnew : (rig.workers b).currentJob ≠ some (k + 1) :=
      fun h => Nat.not_succ_le_self k (hjob _ h).2
    obtain ⟨rig', e, hstep, hquiet', hjob', hother, hlog', hworker, hej, _⟩ :=
      exists_rigStep hquiet b hnew ds
    refine ⟨rig', ?_, hquiet', ?_, ?_, ?_, ?_⟩
    · rw [runAhead, List.range_succ, List.map_append, runs_append]
      show Option.bind (runs _ _ (runAhead b ds k)) _ = _
      rw [hrun]
      show Option.bind (rigStep _ _ _ rig (b, quietEnv ds (k + 1))) _ = _
      rw [hstep]
      rfl
    · intro i hi
      rw [hother i hi]
      exact hidle i hi
    · intro j hj
      obtain rfl := Option.some.inj (hjob'.symm.trans hj)
      exact ⟨Nat.succ_pos k, Nat.le_refl _⟩
    · intro e' he'
      rw [hlog'] at he'
      rcases List.mem_append.mp he' with he' | he'
      · exact hlog e' he'
      · obtain rfl := List.mem_singleton.mp he'
        exact ⟨hworker, by rw [hej]; exact Nat.succ_ne_zero k⟩
    · rw [hlog', List.length_append, hlen, List.length_singleton]

/-- **A collision.** With a stride that does not divide `2 ^ 32`, the worker that reaches the counter
    `2 ^ 32` hashes nonce `0` there. If it gets so far on earlier jobs and worker `0` has not hashed yet,
    the next job is hashed by both with nonce `0`. -/
theorem exists_collision (hT : ¬ T.toNat ∣ 2 ^ 32) (hpos : 0 < T.toNat) (ds : RandomXDataset) :
    ∃ rig, runs (rigStep nullPlatform quietConfig T) (.init quietConfig T)
        (runAhead ⟨2 ^ 32 % T.toNat, Nat.mod_lt _ hpos⟩ ds (2 ^ 32 / T.toNat)
          ++ [(⟨2 ^ 32 % T.toNat, Nat.mod_lt _ hpos⟩, quietEnv ds 0), (⟨0, hpos⟩, quietEnv ds 0)])
        = some rig ∧ ¬ Partitioned rig.log := by
  have hne : 2 ^ 32 % T.toNat ≠ 0 := fun h => hT (Nat.dvd_of_mod_eq_zero h)
  generalize hb : (⟨2 ^ 32 % T.toNat, Nat.mod_lt _ hpos⟩ : Fin T.toNat) = b
  have hbval : (b : Nat) = 2 ^ 32 % T.toNat := by rw [← hb]
  have hb0 : (⟨0, hpos⟩ : Fin T.toNat) ≠ b := by
    intro h
    apply hne
    rw [← hbval, ← h]
  obtain ⟨rig₁, hrun₁, hquiet₁, hidle₁, hjob₁, hlog₁, hlen₁⟩ :=
    exists_runAhead b ds (2 ^ 32 / T.toNat)
  have hnew₁ : (rig₁.workers b).currentJob ≠ some 0 := fun h => absurd (hjob₁ 0 h).1 (by decide)
  obtain ⟨rig₂, e₁, hstep₂, hquiet₂, _, hother₂, hlog₂, hworker₁, hej₁, hcounter₁⟩ :=
    exists_rigStep hquiet₁ b hnew₁ ds
  have hnew₂ : (rig₂.workers ⟨0, hpos⟩).currentJob ≠ some 0 := by
    rw [hother₂ _ hb0, hidle₁ _ hb0]
    exact nofun
  obtain ⟨rig₃, e₂, hstep₃, _, _, _, hlog₃, hworker₂, hej₂, hcounter₂⟩ :=
    exists_rigStep hquiet₂ ⟨0, hpos⟩ hnew₂ ds
  have hrun : runs (rigStep nullPlatform quietConfig T) (.init quietConfig T)
      (runAhead b ds (2 ^ 32 / T.toNat) ++ [(b, quietEnv ds 0), (⟨0, hpos⟩, quietEnv ds 0)])
      = some rig₃ := by
    rw [runs_append, hrun₁, Option.bind_some, runs, hstep₂, Option.bind_some, runs, hstep₃]
    rfl
  refine ⟨rig₃, hrun, ?_⟩
  have hinv : NonceInv rig₃ := nonceInv_reachable (Reachable.refl.of_runs hrun)
  have hlog : rig₃.log = rig₁.log ++ [e₁, e₂] := by rw [hlog₃, hlog₂, List.append_assoc]; rfl
  have hmem₁ : e₁ ∈ rig₃.log := by simp [hlog]
  have hmem₂ : e₂ ∈ rig₃.log := by simp [hlog]
  -- the two counters are `2 ^ 32` and `0`
  have hahead : hashesBy rig₁.log b = 2 ^ 32 / T.toNat := by
    rw [hashesBy, List.countP_eq_length.mpr (fun e he => by simp [(hlog₁ e he).1]), hlen₁]
  have hnone : hashesBy rig₂.log ⟨0, hpos⟩ = 0 := by
    rw [hashesBy, List.countP_eq_zero]
    intro e he
    rw [hlog₂] at he
    rcases List.mem_append.mp he with he | he
    · simp [(hlog₁ e he).1, hb0.symm]
    · obtain rfl := List.mem_singleton.mp he
      simp [hworker₁, hb0.symm]
  rw [hahead, hbval, Nat.mod_add_div] at hcounter₁
  rw [hnone, Nat.mul_zero, Nat.add_zero] at hcounter₂
  intro hpart
  refine hpart 0 ?_ e₁ hmem₁ e₂ hmem₂ hej₁ hej₂ (by rw [hworker₁, hworker₂]; exact hb0.symm) ?_
  · intro i
    have hzero : hashesOn rig₁.log i 0 = 0 := by
      rw [hashesOn, List.countP_eq_zero]
      intro e he
      simp [(hlog₁ e he).2]
    have hone : hashesOn rig₃.log i 0 ≤ 1 := by
      have : hashesOn rig₃.log i 0 = hashesOn rig₁.log i 0 + hashesOn [e₁, e₂] i 0 := by
        rw [hlog, hashesOn, List.countP_append]
        rfl
      rw [this, hzero, Nat.zero_add]
      by_cases hi : b = i
      · subst hi
        simp only [hashesOn, List.countP_cons, hworker₁, hworker₂, beq_eq_false_iff_ne.mpr hb0,
          List.countP_nil, Bool.false_and, Bool.false_eq_true, if_false]
        split <;> omega
      · simp only [hashesOn, List.countP_cons, hworker₁, beq_eq_false_iff_ne.mpr hi, List.countP_nil,
          Bool.false_and, Bool.false_eq_true, if_false]
        split <;> omega
    have := Nat.mul_le_mul_right T.toNat hone
    have hlt := T.isLt
    omega
  · have hwrap : BitVec.ofNat 32 (2 ^ 32) = BitVec.ofNat 32 0 := by decide
    rw [hinv.hashed e₁ hmem₁, hinv.hashed e₂ hmem₂, hcounter₁, hcounter₂, hwrap]

/-- **The nonces are partitioned for ever exactly when the number of threads is a power of two.** With any
    other number of threads they are partitioned in a run as long as the counters that the workers hash for
    one job with stay less than `2 ^ 32` apart. -/
theorem nonces_partitioned_iff (T : BitVec 32) (hT : T ≠ 0) :
    ((∀ (p : Platform) (rc : RigConfig) (rig : Rig T),
        Reachable (rigStep p rc T) (.init rc T) rig → Partitioned rig.log)
      ↔ ∃ k, T.toNat = 2 ^ k) ∧
    ∀ (p : Platform) (rc : RigConfig) (rig : Rig T),
      Reachable (rigStep p rc T) (.init rc T) rig → Close rig.log → Partitioned rig.log := by
  have hpos : 0 < T.toNat := by
    rw [Nat.pos_iff_ne_zero]
    intro h
    exact hT (BitVec.eq_of_toNat_eq h)
  have hdvd : T.toNat ∣ 2 ^ 32 ↔ ∃ k, T.toNat = 2 ^ k := by
    constructor
    · intro h
      obtain ⟨k, _, hk⟩ := (Nat.dvd_prime_pow Nat.prime_two).mp h
      exact ⟨k, hk⟩
    · rintro ⟨k, hk⟩
      have hlt : 2 ^ k < 2 ^ 32 := hk ▸ T.isLt
      rw [hk]
      exact Nat.pow_dvd_pow 2 ((Nat.pow_lt_pow_iff_right (by decide)).mp hlt).le
  rw [← hdvd]
  refine ⟨⟨?_, ?_⟩, ?_⟩
  · intro hall
    by_contra hnot
    obtain ⟨ds, _⟩ := exists_generates_null [] 1
    obtain ⟨rig, hrun, hcollide⟩ := exists_collision hnot hpos ds
    exact hcollide (hall nullPlatform quietConfig rig (Reachable.refl.of_runs hrun))
  · intro h p rc rig hreach
    exact (nonceInv_reachable hreach).partitioned_of_dvd h
  · intro p rc rig hreach hclose
    exact (nonceInv_reachable hreach).partitioned_of_close hclose

/-- Two of four workers hash for one job, and one of them for the next. -/
theorem nonces_partitioned_iff_sample : ∃ rig : Rig 4,
    Reachable (rigStep nullPlatform quietConfig 4) (.init quietConfig 4) rig ∧
      rig.log.map (fun e => (e.worker.val, e.job, e.counter)) = [(1, 1, 1), (3, 1, 3), (1, 2, 5)] ∧
      Partitioned rig.log := by
  obtain ⟨ds, _⟩ := exists_generates_null [] 1
  obtain ⟨rig₁, e₁, hstep₁, hquiet₁, hjob₁, hother₁, hlog₁, hworker₁, hej₁, hcounter₁⟩ :=
    @exists_rigStep 4 (.init quietConfig 4) (fun _ => quiet_init _ _) ⟨1, by decide⟩ 1 nofun ds
  have hnew₂ : (rig₁.workers ⟨3, by decide⟩).currentJob ≠ some 1 := by
    rw [hother₁ _ (by decide)]
    exact nofun
  obtain ⟨rig₂, e₂, hstep₂, hquiet₂, _, hother₂, hlog₂, hworker₂, hej₂, hcounter₂⟩ :=
    exists_rigStep hquiet₁ ⟨3, by decide⟩ hnew₂ ds
  have hnew₃ : (rig₂.workers ⟨1, by decide⟩).currentJob ≠ some 2 := by
    rw [hother₂ _ (by decide), hjob₁]
    decide
  obtain ⟨rig₃, e₃, hstep₃, _, _, _, hlog₃, hworker₃, hej₃, hcounter₃⟩ :=
    exists_rigStep hquiet₂ ⟨1, by decide⟩ hnew₃ ds
  have hrun : runs (rigStep nullPlatform quietConfig 4) (.init quietConfig 4)
      [(⟨1, by decide⟩, quietEnv ds 1), (⟨3, by decide⟩, quietEnv ds 1), (⟨1, by decide⟩, quietEnv ds 2)]
      = some rig₃ := by
    rw [runs, hstep₁, Option.bind_some, runs, hstep₂, Option.bind_some, runs, hstep₃]
    rfl
  have hreach := Reachable.refl.of_runs hrun
  refine ⟨rig₃, hreach, ?_, (nonces_partitioned_iff 4 (by decide)).1.mpr ⟨2, by decide⟩ _ _ _ hreach⟩
  have hlog : rig₃.log = [e₁, e₂, e₃] := by
    rw [hlog₃, hlog₂, hlog₁]
    rfl
  rw [hlog₁] at hcounter₂
  rw [hlog₂, hlog₁] at hcounter₃
  simp [hlog, hworker₁, hworker₂, hworker₃, hej₁, hej₂, hej₃, hcounter₁, hcounter₂, hcounter₃, hashesBy, Rig.init]

/-- Three workers: worker 1 hashes for 1431655765 jobs while worker 0 waits, then both hash nonce `0` for
    the next job. -/
theorem three_workers_collide : ∃ (ds : RandomXDataset) (rig : Rig 3),
    runs (rigStep nullPlatform quietConfig 3) (.init quietConfig 3)
        (runAhead ⟨1, by decide⟩ ds 1431655765
          ++ [(⟨1, by decide⟩, quietEnv ds 0), (⟨0, by decide⟩, quietEnv ds 0)]) = some rig ∧
      ¬ Partitioned rig.log := by
  obtain ⟨ds, _⟩ := exists_generates_null [] 1
  exact ⟨ds, @exists_collision 3 (by decide) (by decide) ds⟩

end Miner
end MinerTim
