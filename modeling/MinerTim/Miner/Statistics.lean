import Mathlib.Algebra.Order.BigOperators.Group.Multiset
import Mathlib.Data.BitVec
import MinerTim.Miner.ThreadsSpec

/-!
# `Miner.Statistics` — what the counters of a miner count

A worker does not count a hash where it computes it. It keeps `local_hashes` back until a flush, and a share that it has
found goes through `shares_found`, the verdict and `submit_share` one after the other, while others do the same. What a
thread still has to book is read off its phase (`pending`, `unrecorded`, `uncounted`, `inFlight`); each counter and what
the threads carry add up to what has been hashed. These are balances (`Lib.SharedThreads`), checked access by access.

The words are counted modulo `2 ^ 64`, as `fetch_add` does.
-/

namespace MinerTim
namespace Miner

open RandomX SharedThreads

variable (rc : RigConfig) {T : BitVec 32}

/-- The hash meets the target of its job. -/
def Hashed.meets (e : Hashed T) : Bool := meetsTarget e.hash (rc.jobs e.job).target

/-- The hashes that a thread has not added to `total_hashes`. -/
def pending (th : Thread T) : Word :=
  match th.phase with
  | .stopped => 0
  | _ => th.localHashes

/-- The hash that a thread has not compared with the best one. -/
def unrecorded : Phase T → Multiset (Hashed T)
  | .recordBest e => {e}
  | _ => 0

/-- The share that a thread has not added to `shares_found`. -/
def uncounted : Phase T → Word
  | .recordBest e => if e.meets rc then 1 else 0
  | .recordDifficulty e => if e.meets rc then 1 else 0
  | .recordFound _ => 1
  | _ => 0

/-- The share that a thread has neither submitted nor withheld. -/
def inFlight : Phase T → Multiset (Hashed T)
  | .recordBest e => if e.meets rc then {e} else 0
  | .recordDifficulty e => if e.meets rc then {e} else 0
  | .recordFound e => {e}
  | .verify e => {e}
  | .recordFailure e => {e}
  | .submit e _ => {e}
  | .panicked point => inFlight point
  | _ => 0

/-- The hashes that meet the target of their job. -/
def found (g : Shared T) : List (Hashed T) := g.hashed.filter (Hashed.meets rc)

variable {rc} {p : Platform} {J : Option NativeCode → Prop} {s : State (Fin T.toNat) (Shared T) (Thread T)}

/-! ## What does not count -/

@[simp] theorem pending_afterSetUp (st : WorkerState) (n : Word) (j : JobRef) :
    pending (T := T) ⟨st, n, afterSetUp st j⟩ = n := by
  unfold afterSetUp
  split <;> rfl

@[simp] theorem unrecorded_afterSetUp (st : WorkerState) (j : JobRef) :
    unrecorded (T := T) (afterSetUp st j) = 0 := by
  unfold afterSetUp
  split <;> rfl

@[simp] theorem uncounted_afterSetUp (st : WorkerState) (j : JobRef) :
    uncounted (T := T) rc (afterSetUp st j) = 0 := by
  unfold afterSetUp
  split <;> rfl

@[simp] theorem inFlight_afterSetUp (st : WorkerState) (j : JobRef) :
    inFlight (T := T) rc (afterSetUp st j) = 0 := by
  unfold afterSetUp
  split <;> rfl

@[simp] theorem pending_afterVerify (st : WorkerState) (n : Word) (e : Hashed T) (out : Option Submission) :
    pending ⟨st, n, afterVerify e out⟩ = n := by
  cases out <;> rfl

@[simp] theorem unrecorded_afterVerify (e : Hashed T) (out : Option Submission) :
    unrecorded (afterVerify e out) = 0 := by
  cases out <;> rfl

@[simp] theorem uncounted_afterVerify (e : Hashed T) (out : Option Submission) :
    uncounted rc (afterVerify e out) = 0 := by
  cases out <;> rfl

@[simp] theorem inFlight_afterVerify (e : Hashed T) (out : Option Submission) :
    inFlight rc (afterVerify e out) = {e} := by
  cases out <;> rfl

/-! ## Balances -/

/-- `total_hashes` and what the threads keep back are the hashes. -/
theorem balance_hashes : Balance (workerThreads p rc T J) (fun g => BitVec.ofNat 64 g.hashed.length)
    (fun g => g.totalHashes) pending where
  act := by
    intro i g t g' t' hact
    cases hact with
    | hash _ => exact ⟨1, by simp [BitVec.ofNat_add], by simp [pending, add_assoc]⟩
    | recordDifficulty =>
      refine ⟨0, by simp, ?_⟩
      split <;> simp [pending]
    | flush => exact ⟨0, by simp, by simp [pending]⟩
    | flushRest => exact ⟨0, by simp, by simp [pending]⟩
    | keep _ | rekey _ _ _ _ _ =>
      refine ⟨0, by simp, ?_⟩
      simp only [pending_afterSetUp]
      simp [pending]
    | verify _ _ =>
      refine ⟨0, by simp, ?_⟩
      simp only [pending_afterVerify]
      simp [pending]
    | _ => exact ⟨0, by simp, by simp [pending]⟩
  outside := by
    rintro g _ ⟨_, rfl⟩
    exact ⟨rfl, rfl⟩

/-- What has been compared with the best hash, and what has not. -/
theorem balance_recorded : Balance (workerThreads p rc T J) (fun g => (g.hashed : Multiset (Hashed T)))
    (fun g => (g.recorded : Multiset (Hashed T))) (fun th => unrecorded th.phase) where
  act := by
    intro i g t g' t' hact
    cases hact with
    | @hash _ _ _ j hash _ =>
      exact ⟨{⟨i, j, hash⟩}, by simp [← Multiset.coe_add], by simp [unrecorded]⟩
    | recordBest => exact ⟨0, by simp, by simp [unrecorded, ← Multiset.coe_add]⟩
    | recordDifficulty =>
      refine ⟨0, by simp, ?_⟩
      split <;> simp [unrecorded]
    | keep _ | rekey _ _ _ _ _ =>
      refine ⟨0, by simp, ?_⟩
      simp only [unrecorded_afterSetUp]
      simp [unrecorded]
    | verify _ _ =>
      refine ⟨0, by simp, ?_⟩
      simp only [unrecorded_afterVerify]
      simp [unrecorded]
    | _ => exact ⟨0, by simp, by simp [unrecorded]⟩
  outside := by
    rintro g _ ⟨_, rfl⟩
    exact ⟨rfl, rfl⟩

/-- `shares_found`, and what is still to be added to it. -/
theorem balance_found : Balance (workerThreads p rc T J) (fun g => BitVec.ofNat 64 (found rc g).length)
    (fun g => g.stats.sharesFound) (fun th => uncounted rc th.phase) where
  act := by
    intro i g t g' t' hact
    cases hact with
    | @hash _ _ _ j hash _ =>
      by_cases hmeets : Hashed.meets rc (⟨i, j, hash⟩ : Hashed T) = true
      · exact ⟨1, by simp [found, hmeets, BitVec.ofNat_add], by simp [uncounted, hmeets]⟩
      · exact ⟨0, by simp [found, hmeets], by simp [uncounted, hmeets]⟩
    | recordBest =>
      refine ⟨0, by simp [found], ?_⟩
      unfold MiningStats.recordBest
      split <;> simp [uncounted]
    | @recordDifficulty _ _ e =>
      refine ⟨0, by simp [found], ?_⟩
      have hstats : ∀ d, (g.stats.recordDifficulty d).sharesFound = g.stats.sharesFound := by
        intro d
        unfold MiningStats.recordDifficulty
        split <;> rfl
      by_cases hmeets : e.meets rc = true
      · simp [uncounted, hstats, hmeets, show meetsTarget e.hash (rc.jobs e.job).target = true from hmeets]
      · have hmisses : ¬ meetsTarget e.hash (rc.jobs e.job).target = true := hmeets
        simp [uncounted, hstats, hmeets, hmisses]
    | recordFound => exact ⟨0, by simp [found], by simp [uncounted]⟩
    | keep _ | rekey _ _ _ _ _ =>
      refine ⟨0, by simp [found], ?_⟩
      simp only [uncounted_afterSetUp]
      simp [uncounted]
    | verify _ _ =>
      refine ⟨0, by simp [found], ?_⟩
      simp only [uncounted_afterVerify]
      simp [uncounted]
    | _ => exact ⟨0, by simp [found], by simp [uncounted]⟩
  outside := by
    rintro g _ ⟨_, rfl⟩
    exact ⟨rfl, rfl⟩

/-- **No share is lost**: what meets its target is submitted, withheld, or on its way. -/
theorem balance_shares : Balance (workerThreads p rc T J) (fun g => (found rc g : Multiset (Hashed T)))
    (fun g => (g.withheld ++ g.submitted.map Prod.fst : List (Hashed T))) (fun th => inFlight rc th.phase) where
  act := by
    intro i g t g' t' hact
    cases hact with
    | @hash _ _ _ j hash _ =>
      by_cases hmeets : Hashed.meets rc (⟨i, j, hash⟩ : Hashed T) = true
      · refine ⟨{⟨i, j, hash⟩}, ?_, by simp [inFlight, hmeets]⟩
        simp [found, hmeets, ← Multiset.coe_add]
      · exact ⟨0, by simp [found, hmeets], by simp [inFlight, hmeets]⟩
    | @recordDifficulty _ _ e =>
      refine ⟨0, by simp [found], ?_⟩
      by_cases hmeets : e.meets rc = true
      · simp [inFlight, hmeets, show meetsTarget e.hash (rc.jobs e.job).target = true from hmeets]
      · have hmisses : ¬ meetsTarget e.hash (rc.jobs e.job).target = true := hmeets
        simp [inFlight, hmeets, hmisses]
    | recordFailure =>
      refine ⟨0, by simp [found], ?_⟩
      simp only [← Multiset.coe_add, inFlight, add_zero]
      exact add_right_comm _ _ _
    | submit =>
      refine ⟨0, by simp [found], ?_⟩
      simp only [← Multiset.coe_add, inFlight, add_zero, List.map_append, add_assoc]
      rfl
    | keep _ | rekey _ _ _ _ _ =>
      refine ⟨0, by simp [found], ?_⟩
      simp only [inFlight_afterSetUp]
      simp [inFlight]
    | verify _ _ =>
      refine ⟨0, by simp [found], ?_⟩
      simp only [inFlight_afterVerify]
      simp [inFlight]
    | _ => exact ⟨0, by simp [found], by simp [inFlight]⟩
  outside := by
    rintro g _ ⟨_, rfl⟩
    exact ⟨rfl, rfl⟩

/-- `verify_failures` counts the shares that were withheld. -/
theorem balance_failures : Balance (workerThreads p rc T J) (fun g => BitVec.ofNat 64 g.withheld.length)
    (fun g => g.stats.verifyFailures) (fun _ => 0) where
  act := by
    intro i g t g' t' hact
    have hbest : ∀ v, (g.stats.recordBest v).verifyFailures = g.stats.verifyFailures := by
      intro v
      unfold MiningStats.recordBest
      split <;> rfl
    have hdifficulty : ∀ d, (g.stats.recordDifficulty d).verifyFailures = g.stats.verifyFailures := by
      intro d
      unfold MiningStats.recordDifficulty
      split <;> rfl
    cases hact with
    | recordBest => exact ⟨0, by simp, by simp [hbest]⟩
    | recordDifficulty => exact ⟨0, by simp, by simp [hdifficulty]⟩
    | recordFailure => exact ⟨1, by simp [BitVec.ofNat_add], by simp⟩
    | _ => exact ⟨0, by simp, by simp⟩
  outside := by
    rintro g _ ⟨_, rfl⟩
    exact ⟨rfl, rfl⟩

/-! ## The best hash and the difficulty -/

/-- The best hash is the lowest that was recorded, and the difficulty the one of a job that was hashed. -/
structure Tracked (rc : RigConfig) (g : Shared T) : Prop where
  lower : ∀ e ∈ g.recorded, g.stats.bestHashVal ≤ hashVal e.hash
  attained : g.stats.bestHashVal = BitVec.allOnes 32 ∨ ∃ e ∈ g.recorded, g.stats.bestHashVal = hashVal e.hash
  difficulty : g.stats.currentDifficulty = 0 ∨
    ∃ e ∈ g.recorded, g.stats.currentDifficulty = targetToDifficulty (rc.jobs e.job).target

theorem Tracked.of_stats {g g' : Shared T} (h : Tracked rc g)
    (hbest : g'.stats.bestHashVal = g.stats.bestHashVal)
    (hdifficulty : g'.stats.currentDifficulty = g.stats.currentDifficulty) (hrecorded : g'.recorded = g.recorded) :
    Tracked rc g' := by
  constructor
  · rw [hbest, hrecorded]
    exact h.lower
  · rw [hbest, hrecorded]
    exact h.attained
  · rw [hdifficulty, hrecorded]
    exact h.difficulty

theorem Tracked.recordBest {g : Shared T} (h : Tracked rc g) (e : Hashed T) :
    Tracked rc { g with stats := g.stats.recordBest (hashVal e.hash), recorded := g.recorded ++ [e] } := by
  have hdifficulty : (g.stats.recordBest (hashVal e.hash)).currentDifficulty = g.stats.currentDifficulty := by
    unfold MiningStats.recordBest
    split <;> rfl
  have hkeep : ∀ P : Hashed T → Prop, (∃ e ∈ g.recorded, P e) → ∃ e' ∈ g.recorded ++ [e], P e' := by
    rintro P ⟨e', he', hP⟩
    exact ⟨e', List.mem_append_left _ he', hP⟩
  by_cases hlt : hashVal e.hash < g.stats.bestHashVal
  · -- the hash is the best now
    have hbest : (g.stats.recordBest (hashVal e.hash)).bestHashVal = hashVal e.hash := by
      rw [MiningStats.recordBest, if_pos hlt]
    constructor
    · intro e' he'
      show (g.stats.recordBest (hashVal e.hash)).bestHashVal ≤ _
      rw [hbest]
      rcases List.mem_append.mp he' with he' | he'
      · have hle := h.lower e' he'
        rw [BitVec.lt_def] at hlt
        rw [BitVec.le_def] at hle ⊢
        omega
      · obtain rfl := List.mem_singleton.mp he'
        exact BitVec.le_refl _
    · exact .inr ⟨e, by simp, hbest⟩
    · exact hdifficulty ▸ h.difficulty.imp_right (hkeep _)
  · have hsame : g.stats.recordBest (hashVal e.hash) = g.stats := if_neg hlt
    constructor
    · intro e' he'
      show (g.stats.recordBest (hashVal e.hash)).bestHashVal ≤ _
      rw [hsame]
      rcases List.mem_append.mp he' with he' | he'
      · exact h.lower e' he'
      · obtain rfl := List.mem_singleton.mp he'
        exact BitVec.not_lt.mp hlt
    · show (g.stats.recordBest (hashVal e.hash)).bestHashVal = _ ∨ _
      rw [hsame]
      exact h.attained.imp_right (hkeep _)
    · exact hdifficulty ▸ h.difficulty.imp_right (hkeep _)

theorem Tracked.recordDifficulty {g : Shared T} (h : Tracked rc g) {e : Hashed T} (he : e ∈ g.recorded) :
    Tracked rc
      { g with stats := g.stats.recordDifficulty (targetToDifficulty (rc.jobs e.job).target) } := by
  unfold MiningStats.recordDifficulty
  split
  · exact ⟨h.lower, h.attained, .inr ⟨e, he, rfl⟩⟩
  · exact h

/-- A thread that has recorded its hash goes on to its difficulty. -/
theorem protocol_tracked : Protocol (workerThreads p rc T J) (Tracked rc)
    (fun _ g th => ∀ e, th.phase = .recordDifficulty e → e ∈ g.recorded) where
  own := by
    intro i g t g' t' hg h hact
    cases hact with
    | recordBest =>
      refine ⟨hg.recordBest _, ?_⟩
      intro e he
      obtain rfl := Phase.recordDifficulty.inj he
      exact List.mem_append_right _ (List.mem_singleton_self _)
    | recordDifficulty =>
      refine ⟨hg.recordDifficulty (h _ rfl), ?_⟩
      intro e he
      split at he <;> cases he
    | keep _ | rekey _ _ _ _ _ =>
      refine ⟨hg.of_stats rfl rfl rfl, ?_⟩
      intro e he
      unfold afterSetUp at he
      split at he <;> cases he
    | @verify _ _ _ _ _ out _ _ =>
      refine ⟨hg, ?_⟩
      intro e he
      cases out <;> cases he
    | _ =>
      refine ⟨hg.of_stats rfl rfl rfl, ?_⟩
      intro e he
      cases he
  others := by
    intro i j g t g' t' u _ _ _ hact h e he
    have hmem := h e he
    cases hact with
    | recordBest => exact List.mem_append_left _ hmem
    | _ => exact hmem
  outside := by
    rintro g _ hg ⟨_, rfl⟩
    exact ⟨hg.of_stats rfl rfl rfl, fun _ _ h => h⟩

/-! ## Verification failures -/

/-- A share that right code found is not withheld. -/
theorem WorkerOk.verify_interprets {i : Fin T.toNat} {st st' : WorkerState} (h : WorkerOk p rc J i st)
    (hJ : ∀ jit, J jit → JitInterprets p jit) {e : Hashed T} (hmined : Mined p rc st e)
    (hmeets : meetsTarget e.hash (rc.jobs e.job).target = true) {env : Environment} (hjit : J env.verifierJit)
    {out : Option Submission} (hrun : submitHash p rc.jobs st env e.job e.hash = some (st', out)) : out ≠ none := by
  obtain ⟨last, hverifier, _⟩ := h.verifier
  obtain ⟨vm, nonce, _, hvm, _, _, hhash⟩ := hmined
  obtain ⟨_, hverdict⟩ := submitHash_verifier hverifier hvm hjit hrun
  obtain ⟨ds, jit, _, hds, hjit', hiff⟩ := hverdict hmeets
  intro hnone
  obtain ⟨_, hne⟩ := hiff.mp hnone
  -- the mining VM and the reference read one dataset, and interpret its programs
  have href : (referenceContext p (st.currentKey, ds) jit).Interprets p.fp p.aes .V1 :=
    JitInterprets.context (hJ jit hjit')
  have hvm' : vm.context.Interprets p.fp p.aes .V1 := JitInterprets.context (hJ vm.jit (h.native vm hvm).1)
  have hsame : (referenceContext p (st.currentKey, ds) jit).Same vm.context p.fp p.aes .V1 := by
    refine .inr ⟨href, hvm', ?_⟩
    intro k _
    simp [VmContext.line, referenceContext, RandomXVm.context, datasetLine, hds]
  rw [hashOf_congr hsame] at hne
  exact hne hhash

/-- With right code, nothing is withheld. -/
theorem protocol_withheld (hJ : ∀ jit, J jit → JitInterprets p jit) :
    Protocol (workerThreads p rc T J) (fun g => SharedOk p rc g ∧ g.withheld = [])
      (fun i _ th => ThreadOk p rc J i th ∧ ∀ e, th.phase ≠ .recordFailure e) where
  own := by
    rintro i g t g' t' ⟨hg, hnone⟩ ⟨h, hphase⟩ hact
    obtain ⟨hg', h'⟩ := h.act (trusted_of_interprets hJ) hg hact
    refine ⟨⟨hg', ?_⟩, h', ?_⟩
    · cases hact with
      | recordFailure => exact absurd rfl (hphase _)
      | _ => exact hnone
    · intro e he
      cases hact with
      | recordDifficulty => split at he <;> cases he
      | keep _ | rekey _ _ _ _ _ =>
        unfold afterSetUp at he
        split at he <;> cases he
      | @verify _ _ _ _ _ out hjit hrun =>
        cases out with
        | none => exact h.worker.verify_interprets hJ h.phase.1 h.phase.2 hjit hrun rfl
        | some sub => cases he
      | _ => cases he
  others _ _ _ _ h := h
  outside := by
    rintro g _ ⟨hg, hnone⟩ ⟨_, rfl⟩
    exact ⟨⟨⟨hg.cache, hg.submitted⟩, hnone⟩, fun _ _ h => h⟩

/-! ## What the counters count -/

/-- The counters and what the threads carry add up to what was hashed. -/
structure Accounts (rc : RigConfig) (s : State (Fin T.toNat) (Shared T) (Thread T)) : Prop where
  hashes : BitVec.ofNat 64 s.shared.hashed.length = s.shared.totalHashes + ∑ i, pending (s.threads i)
  shares : (found rc s.shared : Multiset (Hashed T))
    = (s.shared.withheld ++ s.shared.submitted.map Prod.fst : List (Hashed T))
      + ∑ i, inFlight rc (s.threads i).phase
  sharesFound : BitVec.ofNat 64 (found rc s.shared).length
    = s.shared.stats.sharesFound + ∑ i, uncounted rc (s.threads i).phase
  verifyFailures : s.shared.stats.verifyFailures = BitVec.ofNat 64 s.shared.withheld.length
  lower : ∀ e ∈ s.shared.hashed,
    s.shared.stats.bestHashVal ≤ hashVal e.hash ∨ ∃ i, (s.threads i).phase = .recordBest e
  attained : s.shared.stats.bestHashVal = BitVec.allOnes 32 ∨
    ∃ e ∈ s.shared.hashed, s.shared.stats.bestHashVal = hashVal e.hash
  difficulty : s.shared.stats.currentDifficulty = 0 ∨
    ∃ e ∈ s.shared.hashed, s.shared.stats.currentDifficulty = targetToDifficulty (rc.jobs e.job).target

theorem accounts_of_runs (h : Runs (workerThreads p rc T J) (spawned rc T) s) : Accounts rc s := by
  have hrecorded := balance_recorded.runs (by simp [spawned, Shared.init, unrecorded]) h
  have hstart : Tracked rc (spawned rc T).shared :=
    ⟨by simp [spawned, Shared.init], .inl rfl, .inl rfl⟩
  obtain ⟨htracked, _⟩ := protocol_tracked.runs hstart (by simp [spawned]) h
  -- a hash is recorded, or a thread is about to
  have hmem : ∀ e, e ∈ s.shared.hashed ↔ e ∈ s.shared.recorded ∨ ∃ i, (s.threads i).phase = .recordBest e := by
    intro e
    rw [← Multiset.mem_coe, hrecorded, Multiset.mem_add, Multiset.mem_coe, Multiset.mem_sum]
    refine or_congr_right ?_
    constructor
    · rintro ⟨i, _, hi⟩
      refine ⟨i, ?_⟩
      unfold unrecorded at hi
      split at hi
      next e' hphase =>
        obtain rfl := Multiset.mem_singleton.mp hi
        exact hphase
      next => simp at hi
    · rintro ⟨i, hi⟩
      exact ⟨i, Finset.mem_univ i, by simp [hi, unrecorded]⟩
  constructor
  · exact balance_hashes.runs (s := spawned rc T) (by simp [spawned, Shared.init, pending]) h
  · exact balance_shares.runs (s := spawned rc T) (by simp [spawned, Shared.init, found, inFlight]) h
  · exact balance_found.runs (s := spawned rc T)
      (by simp [spawned, Shared.init, found, uncounted, MiningStats.new]) h
  · have hfailures := balance_failures.runs (s := spawned rc T)
      (by simp [spawned, Shared.init, MiningStats.new]) h
    simpa using hfailures.symm
  · intro e he
    rcases (hmem e).mp he with he | he
    · exact .inl (htracked.lower e he)
    · exact .inr he
  · exact htracked.attained.imp_right fun ⟨e, he, heq⟩ => ⟨e, (hmem e).mpr (.inl he), heq⟩
  · exact htracked.difficulty.imp_right fun ⟨e, he, heq⟩ => ⟨e, (hmem e).mpr (.inl he), heq⟩

theorem withheld_nil (hJ : ∀ jit, J jit → JitInterprets p jit) (h : Runs (workerThreads p rc T J) (spawned rc T) s) :
    s.shared.withheld = [] ∧ s.shared.stats.verifyFailures = 0 := by
  have hstart : SharedOk p rc (spawned rc T).shared ∧ (spawned rc T).shared.withheld = [] := ⟨sharedOk_init, rfl⟩
  obtain ⟨⟨_, hnone⟩, _⟩ := (protocol_withheld hJ).runs hstart
    (fun i => ⟨threadOk_spawned i, nofun⟩) h
  refine ⟨hnone, ?_⟩
  rw [(accounts_of_runs h).verifyFailures, hnone]
  rfl

/-- **The counters of a miner are exact**, in every interleaving of its workers. `total_hashes` and what the threads
    have not flushed yet are the hashes computed; every hash that meets its target is submitted once, withheld once, or
    still on its way in one thread; `shares_found` and `verify_failures` count these; the best value is the lowest hash
    but for those that a thread is about to record; and the difficulty is the one of a job that was hashed. When the JIT
    does what the interpreter does, `verify_failures` stays 0. -/
theorem miner_counters_are_exact (h : Runs (workerThreads p rc T J) (spawned rc T) s) :
    Accounts rc s ∧
      ((∀ jit, J jit → JitInterprets p jit) → s.shared.withheld = [] ∧ s.shared.stats.verifyFailures = 0) := by
  exact ⟨accounts_of_runs h, fun hJ => withheld_nil hJ h⟩

/-- Two workers that have submitted a share each. -/
theorem miner_counters_are_exact_sample : ∃ s, Runs sampleThreads (spawned sampleRig 2) s ∧
    s.shared.submitted.map (fun x => x.1.worker) = [secondWorker, firstWorker] ∧ Accounts sampleRig s ∧
    ((∀ jit, jit = none → JitInterprets nullPlatform jit) →
      s.shared.withheld = [] ∧ s.shared.stats.verifyFailures = 0) := by
  obtain ⟨s, hs, hworkers, _⟩ := exists_sample_shares
  exact ⟨s, hs, hworkers, miner_counters_are_exact hs⟩

end Miner
end MinerTim
