import MinerTim.Pool.Wire

/-!
# `Pool.Rotation` — what an early rotation finds pending

`rotation_settled` reads `submits_in_flight` and then the number of pending shares, and lets the rotation
through when both are zero. It takes no lock: a worker may enter `submit_share` after the first read and
register its share before `relogin_as` has cleared the stream, and the drain of `relogin_as` then counts
that share as lost. This is the only way a share is lost so (`early_rotation_drains_nothing_iff`): no share
is outstanding when both counters are read as zero (`inFlight_reachable`), and until the stream is cleared
one becomes outstanding only when it is written.
-/

namespace MinerTim
namespace Pool

open Transition

variable {n : Nat} {decode : List Byte → Option Json} {st st' : State n}

/-! ## Submissions in flight -/

/-- In `submit_share`. -/
def WorkerPc.inSubmit : WorkerPc → Bool
  | .mining _ | .found _ => false
  | _ => true

/-- `submits_in_flight` is the number of workers in `submit_share`. -/
def InFlight (st : State n) : Prop :=
  st.submitsInFlight = ∑ i, if (st.workers i).inSubmit then 1 else 0

/-- A worker moves, and the counter with it. -/
theorem InFlight.move {i : Fin n} {pc : WorkerPc} (h : InFlight st) (hworkers : st'.workers = st.workers)
    (hcount : st'.submitsInFlight + (if (st.workers i).inSubmit then 1 else 0)
      = st.submitsInFlight + if pc.inSubmit then 1 else 0) : InFlight (st'.setWorker i pc) := by
  have hsum := sum_setWorker (fun pc => if pc.inSubmit then 1 else 0) st' i pc
  simp only [hworkers] at hsum
  unfold InFlight at h ⊢
  show st'.submitsInFlight = _
  omega

theorem inFlight_worker {i : Fin n} (h : InFlight st) (hs : WorkerMove st i st') : InFlight st' := by
  cases hs with
  | leave hpc =>
    refine InFlight.move h rfl ?_
    have hpos : 0 < st.submitsInFlight := by
      rw [h]
      refine Finset.sum_pos' (fun _ _ => Nat.zero_le _) ⟨i, Finset.mem_univ i, ?_⟩
      rw [hpc]
      exact Nat.one_pos
    rw [hpc]
    show st.submitsInFlight - 1 + 1 = st.submitsInFlight + 0
    omega
  | getWork hpc | find hpc | withhold hpc | submit hpc | readSession hpc | nextRequestId hpc | lock hpc
  | refuse hpc | write hpc | writeFails hpc | insert hpc | unlock hpc | countUnsent hpc =>
    exact InFlight.move h rfl (by rw [hpc]; rfl)

theorem inFlight_receiver (h : InFlight st) (hs : ReceiverMove decode st st') : InFlight st' := by
  cases hs <;> exact h

theorem inFlight_reachable (h : Reachable (step decode) (.init n) st) : InFlight st := by
  refine h.invariant (P := InFlight) ?_ ?_
  · exact (Finset.sum_eq_zero fun _ _ => rfl).symm
  · rintro s (⟨i, a⟩ | ⟨a⟩) s' hin hs
    · exact inFlight_worker hin (workerMove_of_step hs)
    · exact inFlight_receiver hin (receiverMove_of_step hs)

/-! ## Outstanding shares -/

/-- A share is written, and its entry is pending or about to be inserted. -/
def Outstanding (st : State n) : Prop :=
  st.pendingShares ≠ ∅ ∨ ∃ i s rpcId conn, st.workers i = .written s rpcId conn

/-- The step writes a share. -/
def Writes (st : State n) (a : Action n) : Prop :=
  ∃ i, a = .worker i (.write true) ∧ (st.nextSubmit i).isSome = true

theorem outstanding_setWorker {i : Fin n} {pc : WorkerPc} (hpending : st'.pendingShares = st.pendingShares)
    (hworkers : st'.workers = st.workers) (hold : ∀ s rpcId conn, st.workers i ≠ .written s rpcId conn)
    (hnew : ∀ s rpcId conn, pc ≠ .written s rpcId conn) :
    Outstanding (st'.setWorker i pc) ↔ Outstanding st := by
  unfold Outstanding
  show st'.pendingShares ≠ ∅ ∨ _ ↔ _
  rw [hpending]
  refine or_congr_right ?_
  constructor
  · rintro ⟨j, s, rpcId, conn, hj⟩
    rw [workers_setWorker] at hj
    split at hj
    · exact absurd hj (hnew s rpcId conn)
    · exact ⟨j, s, rpcId, conn, hworkers ▸ hj⟩
  · rintro ⟨j, s, rpcId, conn, hj⟩
    refine ⟨j, s, rpcId, conn, ?_⟩
    rw [workers_setWorker, if_neg, hworkers]
    · exact hj
    · rintro rfl
      exact hold s rpcId conn hj

/-- Only a write takes a worker past its write. -/
theorem writes_of_written {i : Fin n} {a : WorkerAction} {s : Share} {rpcId conn : Nat}
    (hs : workerStep st i a = some st') (hw : st'.workers i = .written s rpcId conn) :
    Writes st (.worker i a) := by
  unfold workerStep at hs
  -- only the case of the lock that is held can end in `.written`
  split at hs
  case h_8 share sid rpcId' ok hpc =>
    split at hs
    next =>
      obtain rfl := Option.some.inj hs
      rw [workers_setWorker, if_pos rfl] at hw
      cases hw
    next conn' hstream =>
      split at hs
      next =>
        obtain rfl := Option.some.inj hs
        rw [workers_setWorker, if_pos rfl] at hw
        cases hw
      next hgen =>
        split at hs
        next hok =>
          subst hok
          refine ⟨i, rfl, ?_⟩
          simp only [State.nextSubmit, hpc, hstream, not_not.mp hgen, if_true, Option.isSome_some]
        next =>
          obtain rfl := Option.some.inj hs
          rw [workers_setWorker, if_pos rfl] at hw
          cases hw
  case h_7 =>
    split at hs
    · obtain rfl := Option.some.inj hs
      rw [workers_setWorker, if_pos rfl] at hw
      cases hw
    · cases hs
  case h_13 => cases hs
  all_goals
    obtain rfl := Option.some.inj hs
    rw [workers_setWorker, if_pos rfl] at hw
    cases hw

/-- A share becomes outstanding when it is written, and stays so while workers move. -/
theorem outstanding_worker {i : Fin n} {a : WorkerAction} (hs : workerStep st i a = some st') :
    Outstanding st' ↔ Outstanding st ∨ Writes st (.worker i a) := by
  by_cases hw : Writes st (.worker i a)
  · obtain ⟨j, haction, hnext⟩ := hw
    obtain ⟨rfl, rfl⟩ := Action.worker.inj haction
    obtain ⟨⟨conn, content⟩, hnext⟩ := Option.isSome_iff_exists.mp hnext
    obtain ⟨share, sid, rpcId, _, _, _, rfl⟩ := nextSubmit_eq hnext
    obtain rfl := Option.some.inj ((workerStep_write hnext).symm.trans hs)
    refine iff_of_true (.inr ⟨i, share, rpcId, conn, ?_⟩) (.inr ⟨i, rfl, by rw [hnext]; rfl⟩)
    rw [workers_setWorker, if_pos rfl]
  · rw [or_iff_left hw]
    have hmove := workerMove_of_step hs
    cases hmove with
    | write hpc => exact absurd (writes_of_written hs (by rw [workers_setWorker, if_pos rfl])) hw
    | @insert share rpcId conn hpc =>
      refine iff_of_true (.inl ?_) (.inr ⟨i, share, rpcId, conn, hpc⟩)
      intro hempty
      have hmem : rpcId ∈ (∅ : PendingShares) := by
        rw [← hempty]
        exact (AList.mem_insert _).mpr (.inl rfl)
      exact AList.notMem_empty rpcId hmem
    | getWork hpc | find hpc | withhold hpc | submit hpc | readSession hpc | nextRequestId hpc | lock hpc
    | refuse hpc | writeFails hpc | unlock hpc | countUnsent hpc | leave hpc =>
      exact outstanding_setWorker rfl rfl (by rw [hpc]; exact nofun) nofun

/-- What is pending stays pending while workers move. -/
theorem pending_worker {i : Fin n} (hs : WorkerMove st i st') (h : st.pendingShares ≠ ∅) :
    st'.pendingShares ≠ ∅ := by
  cases hs with
  | @insert share rpcId conn hpc =>
    intro hempty
    have hmem : rpcId ∈ (∅ : PendingShares) := by
      rw [← hempty]
      exact (AList.mem_insert _).mpr (.inl rfl)
    exact AList.notMem_empty rpcId hmem
  | _ => exact h

/-! ## Runs -/

/-- A step of the receiver, and steps of workers after it. -/
def segment (a : ReceiverAction) (as : List (Fin n × WorkerAction)) : List (Action n) :=
  .receiver a :: as.map fun p => .worker p.1 p.2

/-- No share is written in a run. -/
def NoWrites (decode : List Byte → Option Json) (st : State n) (as : List (Action n)) : Prop :=
  Along (step decode) (fun s a => ¬ Writes s a) st as

/-- While workers move, a share becomes outstanding exactly when one is written. -/
theorem outstanding_workers {as : List (Fin n × WorkerAction)}
    (h : runs (step decode) st (as.map fun p => .worker p.1 p.2) = some st') :
    st'.receiver = st.receiver ∧ (st.pendingShares ≠ ∅ → st'.pendingShares ≠ ∅) ∧
      (Outstanding st' ↔ Outstanding st ∨ ¬ NoWrites decode st (as.map fun p => .worker p.1 p.2)) := by
  induction as generalizing st with
  | nil =>
    obtain rfl := Option.some.inj h
    exact ⟨rfl, id, (or_iff_left (not_not.mpr trivial)).symm⟩
  | cons p as ih =>
    obtain ⟨st₁, hfirst, hrest⟩ := Option.bind_eq_some_iff.mp h
    obtain ⟨hreceiver, hpending, hout⟩ := ih hrest
    have hstep : workerStep st p.1 p.2 = some st₁ := hfirst
    have hmove := workerMove_of_step hstep
    refine ⟨hreceiver.trans (worker_frame hmove).2.1, fun hne => hpending (pending_worker hmove hne), ?_⟩
    rw [hout, outstanding_worker hstep]
    have hwrites : ¬ NoWrites decode st ((p :: as).map fun p => .worker p.1 p.2) ↔
        Writes st (.worker p.1 p.2) ∨
          ¬ NoWrites decode st₁ (as.map fun p => .worker p.1 p.2) := by
      show ¬ (¬ Writes st (.worker p.1 p.2) ∧ ∀ s, step decode st (.worker p.1 p.2) = some s → _) ↔ _
      rw [not_and_or, not_not]
      refine or_congr_right (not_congr ⟨fun hall => hall st₁ hfirst, fun hno s hs => ?_⟩)
      obtain rfl := Option.some.inj (hs.symm.trans hfirst)
      exact hno
    rw [hwrites, or_assoc]

/-- The same, with a step of the receiver before that leaves what is pending alone. -/
theorem outstanding_segment {a : ReceiverAction} {as : List (Fin n × WorkerAction)} {st₁ : State n}
    (hfirst : receiverStep decode st a = some st₁) (hpending : st₁.pendingShares = st.pendingShares)
    (h : runs (step decode) st (segment a as) = some st') :
    st'.receiver = st₁.receiver ∧ (st.pendingShares ≠ ∅ → st'.pendingShares ≠ ∅) ∧
      (Outstanding st' ↔ Outstanding st ∨ ¬ NoWrites decode st (segment a as)) := by
  obtain ⟨st₂, hfirst', hrest⟩ := Option.bind_eq_some_iff.mp h
  obtain rfl := Option.some.inj (hfirst'.symm.trans hfirst)
  obtain ⟨hreceiver, hkeep, hout⟩ := outstanding_workers hrest
  have hworkers : st₂.workers = st.workers := by
    cases receiverMove_of_step hfirst <;> rfl
  refine ⟨hreceiver, fun hne => hkeep (by rw [hpending]; exact hne), ?_⟩
  have hsame : Outstanding st₂ ↔ Outstanding st := by
    unfold Outstanding
    rw [hpending, hworkers]
  have hno : NoWrites decode st (segment a as) ↔
      NoWrites decode st₂ (as.map fun p => .worker p.1 p.2) := by
    constructor
    · rintro ⟨_, hall⟩
      exact hall st₂ hfirst
    · intro hno
      refine ⟨fun ⟨_, haction, _⟩ => (by cases haction), fun s hs => ?_⟩
      obtain rfl := Option.some.inj (hs.symm.trans hfirst)
      exact hno
  rw [hout, hsame, hno]

/-- What no segment of a run writes, the run does not write. -/
theorem none_outstanding {a : ReceiverAction} {as : List (Fin n × WorkerAction)} {Q : Prop}
    (hout : Outstanding st' ↔ Outstanding st ∨ ¬ NoWrites decode st (segment a as))
    (hq : ¬ Outstanding st ↔ Q) : ¬ Outstanding st' ↔ Q ∧ NoWrites decode st (segment a as) := by
  rw [hout, not_or, not_not, hq]

/-- A rotation, from the gate's first read to the drain of `relogin_as`, with what the workers do in between:
    the gate reads `submits_in_flight`, decides before the limit is reached, and `relogin_as` clears the job
    and the stream. -/
def earlyRotation (as bs cs ds : List (Fin n × WorkerAction)) : List (Action n) :=
  segment .readInFlight as ++ (segment (.rotate false) bs ++ (segment .next cs ++ segment .next ds))

/-- No share is outstanding while the gate reads both counters as zero. -/
theorem not_outstanding_of_gate {st₀ : State n} (hreach : Reachable (step decode) (.init n) st₀)
    (hflight : st₀.submitsInFlight = 0) (hpending : st₀.pendingShares = ∅) : ¬ Outstanding st₀ := by
  rintro (hne | ⟨i, s, rpcId, conn, hpc⟩)
  · exact hne hpending
  · have hcount : st₀.submitsInFlight = ∑ i, if (st₀.workers i).inSubmit then 1 else 0 :=
      inFlight_reachable hreach
    have hpos : 0 < ∑ i, if (st₀.workers i).inSubmit then 1 else 0 := by
      refine Finset.sum_pos' (fun _ _ => Nat.zero_le _) ⟨i, Finset.mem_univ i, ?_⟩
      rw [hpc]
      exact Nat.one_pos
    omega

/-- When the drain begins, a share is outstanding if and only if it is pending. -/
theorem outstanding_iff_pending (hreach : Reachable (step decode) (.init n) st) {task : Task}
    (hpc : st.receiver = .draining task) : Outstanding st ↔ st.pendingShares ≠ ∅ := by
  have hinv := session_reachable hreach
  have hidle : Idle st := by
    have hreceiver := hinv.receiver
    rw [hpc] at hreceiver
    exact hreceiver
  refine or_iff_left ?_
  rintro ⟨i, s, rpcId, conn, hw⟩
  obtain ⟨hstream, _⟩ := (hinv.workers i).written s rpcId conn hw
  exact absurd (hidle.1.symm.trans hstream) nofun

/-- **What an early rotation drains.** For any number of workers and any interleaving: when the gate lets a
    rotation through before the settle limit, the drain of `relogin_as` finds nothing pending if and only if
    no share is written between the gate's read of `submits_in_flight` and the clearing of the stream. -/
theorem early_rotation_drains_nothing_iff {st₀ : State n} {as bs cs ds : List (Fin n × WorkerAction)}
    (hreach : Reachable (step decode) (.init n) st₀)
    (hrun : runs (step decode) st₀ (earlyRotation as bs cs ds) = some st) :
    st.receiver = .draining .relogin ∧
      (st.pendingShares = ∅ ↔ NoWrites decode st₀ (earlyRotation as bs cs ds)) := by
  unfold earlyRotation at hrun ⊢
  rw [runs_append] at hrun
  obtain ⟨st₁, has, hrun⟩ := Option.bind_eq_some_iff.mp hrun
  rw [runs_append] at hrun
  obtain ⟨st₂, hbs, hrun⟩ := Option.bind_eq_some_iff.mp hrun
  rw [runs_append] at hrun
  obtain ⟨st₃, hcs, hds⟩ := Option.bind_eq_some_iff.mp hrun
  -- the gate reads the first counter
  obtain ⟨r₁, hr₁, _⟩ := Option.bind_eq_some_iff.mp has
  have hready : st₀.receiver = .ready := ready_of_step hr₁ (.inl rfl)
  have heq₁ : st₀.setReceiver (.settling st₀.submitsInFlight) = r₁ := by
    have hstep : receiverStep decode st₀ .readInFlight = some r₁ := hr₁
    simp only [receiverStep, hready] at hstep
    exact Option.some.inj hstep
  obtain ⟨hpc₁, hkeep₁, hout₁⟩ := outstanding_segment hr₁ (by rw [← heq₁]; rfl) has
  have hsettling : st₁.receiver = .settling st₀.submitsInFlight := by
    rw [hpc₁, ← heq₁]
    rfl
  -- it reads the second, and lets the rotation through
  obtain ⟨r₂, hr₂, _⟩ := Option.bind_eq_some_iff.mp hbs
  obtain ⟨r₃, hr₃, _⟩ := Option.bind_eq_some_iff.mp hcs
  obtain ⟨r₄, hr₄, _⟩ := Option.bind_eq_some_iff.mp hds
  have hstep₂ : receiverStep decode st₁ (.rotate false) = some r₂ := hr₂
  simp only [receiverStep, hsettling] at hstep₂
  have hpending₂ : r₂.pendingShares = st₁.pendingShares := by
    split at hstep₂ <;> (obtain rfl := Option.some.inj hstep₂; rfl)
  obtain ⟨hpc₂, _, hout₂⟩ := outstanding_segment hr₂ hpending₂ hbs
  have hstep₃ : receiverStep decode st₂ .next = some r₃ := hr₃
  have hmay : rotationMayProceed st₀.submitsInFlight st₁.pendingShares.entries.length false = true ∧
      st₂.receiver = .clearJob .relogin := by
    split at hstep₂
    next hmay =>
      obtain rfl := Option.some.inj hstep₂
      exact ⟨hmay, hpc₂⟩
    next =>
      obtain rfl := Option.some.inj hstep₂
      have hpc : st₂.receiver = .ready := hpc₂
      simp only [receiverStep, hpc] at hstep₃
      cases hstep₃
  obtain ⟨hmay, hclearJob⟩ := hmay
  simp only [rotationMayProceed, Bool.or_false, Bool.and_eq_true, beq_iff_eq] at hmay
  have hempty₁ : st₁.pendingShares = ∅ := AList.ext (List.eq_nil_of_length_eq_zero hmay.2)
  -- `relogin_as` clears the job and the stream
  simp only [receiverStep, hclearJob] at hstep₃
  obtain rfl := Option.some.inj hstep₃
  obtain ⟨hpc₃, _, hout₃⟩ := outstanding_segment hr₃ rfl hcs
  have hstep₄ : receiverStep decode st₃ .next = some r₄ := hr₄
  have hclearStream : st₃.receiver = .clearStream .relogin := hpc₃
  simp only [receiverStep, hclearStream] at hstep₄
  split at hstep₄
  next hfree =>
    obtain rfl := Option.some.inj hstep₄
    obtain ⟨hpc₄, _, hout₄⟩ := outstanding_segment hr₄ rfl hds
    have hdraining : st.receiver = .draining .relogin := hpc₄
    refine ⟨hdraining, ?_⟩
    have hreach' : Reachable (step decode) (.init n) st := by
      have hall : runs (step decode) st₀ (segment .readInFlight as ++ (segment (.rotate false) bs ++
          (segment .next cs ++ segment .next ds))) = some st := by
        rw [runs_append, has, Option.bind_some, runs_append, hbs, Option.bind_some, runs_append, hcs]
        exact hds
      exact hreach.of_runs hall
    have hnone : ¬ Outstanding st₀ := by
      refine not_outstanding_of_gate hreach hmay.1 ?_
      by_contra hne
      exact hkeep₁ hne hempty₁
    have hnone₄ := none_outstanding hout₄ (none_outstanding hout₃ (none_outstanding hout₂
      (none_outstanding hout₁ (iff_true_intro hnone))))
    rw [outstanding_iff_pending hreach' hdraining, not_not] at hnone₄
    rw [hnone₄, true_and, and_assoc, and_assoc]
    exact ((along_append has).trans (and_congr_right' ((along_append hbs).trans
      (and_congr_right' (along_append hcs))))).symm
  next => cases hstep₄

/-- A share is written after the gate has decided, and before the stream is cleared. -/
def lateSubmit : List (Fin 1 × WorkerAction) :=
  [(soleWorker, .submit), (soleWorker, .readSession), (soleWorker, .nextRequestId), (soleWorker, .lock),
    (soleWorker, .write true), (soleWorker, .insert), (soleWorker, .unlock), (soleWorker, .leave)]

/-- The gate reads both counters as zero, and the drain finds a share pending. -/
theorem early_rotation_drains_a_share : ∃ st₀ st : State 1,
    Reachable (step fun _ => none) (.init 1) st₀ ∧
      runs (step fun _ => none) st₀ (earlyRotation [] lateSubmit [] []) = some st ∧
      st.receiver = .draining .relogin ∧ st.pendingShares ≠ ∅ := by
  obtain ⟨st₀, hstart, st, hrun, hpc, hlen⟩ : ∃ st₀,
      runs (step fun _ => none) (State.init 1) (sampleRun.take 7) = some st₀ ∧ ∃ st,
      runs (step fun _ => none) st₀ (earlyRotation [] lateSubmit [] []) = some st ∧
      st.receiver = .draining .relogin ∧ st.pendingShares.entries.length = 1 :=
    ⟨_, rfl, _, rfl, rfl, rfl⟩
  refine ⟨st₀, st, .of_runs .refl hstart, hrun, hpc, fun hempty => ?_⟩
  rw [hempty] at hlen
  cases hlen

/-- A worker that only fetches work in between loses nothing. -/
theorem early_rotation_drains_nothing_iff_sample : ∃ st₀ st : State 1,
    runs (step fun _ => none) st₀ (earlyRotation [(0, .submit)] [] [] []) = some st ∧
      st.receiver = .draining .relogin ∧
      (st.pendingShares = ∅ ↔ NoWrites (fun _ => none) st₀ (earlyRotation [(0, .submit)] [] [] [])) := by
  obtain ⟨st₀, hstart, st, hrun⟩ : ∃ st₀,
      runs (step fun _ => none) (State.init 1) (sampleRun.take 7) = some st₀ ∧ ∃ st,
      runs (step fun _ => none) st₀ (earlyRotation [(0, .submit)] [] [] []) = some st :=
    ⟨_, rfl, _, rfl⟩
  exact ⟨st₀, st, hrun, early_rotation_drains_nothing_iff (.of_runs .refl hstart) hrun⟩

end Pool
end MinerTim
