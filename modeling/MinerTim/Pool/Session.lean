import MinerTim.Lib.Transition
import MinerTim.Pool.Steps

/-!
# `Pool.Session` — a share goes to the connection its job came from

A worker may hold a job from a connection that has been replaced, and a session id that it read before the
replacement. What it writes is right all the same: a request is written only while the generation of its
job is the generation of the stream, and

* a job that carries the current generation exists only after this connection's login has set the session
  id (`SessionInv.current`, `WorkerOk.live`), so a session id read by a worker with such a job is this
  connection's (`WorkerOk.request`);
* between a connection's installation and the end of its login no job carries its generation (`NoLive`), so
  nothing is written to it, and nothing is pending on it if the login fails.
-/

namespace MinerTim
namespace Pool

open Transition Miner

variable {n : Nat} (decode : List Byte → Option Json)

/-! ## Who issued what -/

/-- A job that a connection issued: in its reply to `login`, or in a line all of whose bytes were received
    on it. -/
def Issued (trace : List Event) (conn : Nat) (job : Job) : Prop :=
  (∃ reply, .loginReply conn reply ∈ trace ∧ loginJob reply conn = some job) ∨
  (∃ line msg, .line line ∈ trace ∧ line ≠ [] ∧ (∀ b ∈ line, b.1 = conn) ∧
    decode (line.map (·.2)) = some msg ∧ messageJob msg conn = some job)

/-- The session id that a connection's login returned. -/
def LoggedInAs (trace : List Event) (conn : Nat) (sid : String) : Prop :=
  ∃ reply, .loginReply conn reply ∈ trace ∧ loginSession reply = some sid

theorem Issued.mono {decode : List Byte → Option Json} {trace trace' : List Event} {conn : Nat}
    {job : Job} (h : Issued decode trace conn job) (hsub : trace ⊆ trace') :
    Issued decode trace' conn job := by
  rcases h with ⟨reply, hmem, hjob⟩ | ⟨line, msg, hmem, hline⟩
  · exact .inl ⟨reply, hsub hmem, hjob⟩
  · exact .inr ⟨line, msg, hsub hmem, hline⟩

theorem LoggedInAs.mono {trace trace' : List Event} {conn : Nat} {sid : String}
    (h : LoggedInAs trace conn sid) (hsub : trace ⊆ trace') : LoggedInAs trace' conn sid := by
  obtain ⟨reply, hmem, hsid⟩ := h
  exact ⟨reply, hsub hmem, hsid⟩

/-! ## Lines -/

theorem mem_splitLines {bytes line l : List TaggedByte} (h : l ∈ (splitLines line bytes).1) :
    l ≠ [] ∧ ∀ b ∈ l, b ∈ line ∨ b ∈ bytes := by
  induction bytes generalizing line with
  | nil => exact absurd h List.not_mem_nil
  | cons b bytes ih =>
    rw [splitLines] at h
    split at h
    · rcases List.mem_cons.mp h with rfl | hrest
      · refine ⟨by simp, ?_⟩
        intro x hx
        rcases List.mem_append.mp hx with hx | hx
        · exact .inl hx
        · exact .inr (by simp_all)
      · obtain ⟨hne, hmem⟩ := ih hrest
        refine ⟨hne, fun x hx => .inr ?_⟩
        rcases hmem x hx with hx | hx
        · exact absurd hx List.not_mem_nil
        · exact List.mem_cons_of_mem _ hx
    · obtain ⟨hne, hmem⟩ := ih h
      refine ⟨hne, fun x hx => ?_⟩
      rcases hmem x hx with hx | hx
      · rcases List.mem_append.mp hx with hx | hx
        · exact .inl hx
        · exact .inr (by simp_all)
      · exact .inr (List.mem_cons_of_mem _ hx)

theorem rest_splitLines {bytes line : List TaggedByte} :
    ∀ b ∈ (splitLines line bytes).2, b ∈ line ∨ b ∈ bytes := by
  induction bytes generalizing line with
  | nil => exact fun b hb => .inl hb
  | cons c bytes ih =>
    intro b hb
    rw [splitLines] at hb
    split at hb
    · rcases ih b hb with h | h
      · exact absurd h List.not_mem_nil
      · exact .inr (List.mem_cons_of_mem _ h)
    · rcases ih b hb with h | h
      · rcases List.mem_append.mp h with h | h
        · exact .inl h
        · exact .inr (by simp_all)
      · exact .inr (List.mem_cons_of_mem _ h)

/-- Lines that are taken from bytes of one connection are of that connection. -/
theorem takeCompleteLines_tags {pending rest : List TaggedByte} {lines : List (List TaggedByte)}
    {conn : Nat} (h : takeCompleteLines pending = some (lines, rest)) (htags : ∀ b ∈ pending, b.1 = conn) :
    (∀ l ∈ lines, l ≠ [] ∧ ∀ b ∈ l, b.1 = conn) ∧ ∀ b ∈ rest, b.1 = conn := by
  unfold takeCompleteLines at h
  simp only at h
  split at h
  · cases h
  · have hsplit := Option.some.inj h
    constructor
    · intro l hl
      obtain ⟨hne, hmem⟩ := mem_splitLines (show l ∈ (splitLines [] pending).1 by rw [hsplit]; exact hl)
      refine ⟨hne, fun b hb => ?_⟩
      rcases hmem b hb with hb | hb
      · exact absurd hb List.not_mem_nil
      · exact htags b hb
    · intro b hb
      rcases rest_splitLines b (show b ∈ (splitLines [] pending).2 by rw [hsplit]; exact hb) with hb | hb
      · exact absurd hb List.not_mem_nil
      · exact htags b hb

/-! ## The invariant -/

/-- The job that a worker holds. -/
def WorkerPc.job : WorkerPc → Option Job
  | .mining job => job
  | .found share | .entered share | .session share _ | .requesting share _ _ | .locked share _ _
  | .written share _ _ | .refused share => some share.job
  | _ => none

/-- The request that a worker is preparing. -/
def WorkerPc.request : WorkerPc → Option (Share × String)
  | .session share sid | .requesting share sid _ | .locked share sid _ => some (share, sid)
  | _ => none

/-- Whether a worker holds the stream lock. -/
def WorkerPc.holdsLock : WorkerPc → Bool
  | .locked _ _ _ | .written _ _ _ | .registered => true
  | _ => false

theorem WorkerPc.job_of_request {pc : WorkerPc} {share : Share} {sid : String}
    (h : pc.request = some (share, sid)) : pc.job = some share.job := by
  cases pc with
  | session s t | requesting s t _ | locked s t _ =>
    obtain ⟨rfl, _⟩ := Prod.mk.inj (Option.some.inj h)
    rfl
  | _ => cases h

/-- What holds of a worker. -/
structure WorkerOk (st : State n) (i : Fin n) (pc : WorkerPc) : Prop where
  issued : ∀ job, pc.job = some job →
    job.generation ≤ st.generation ∧ Issued decode st.trace job.generation job
  live : ∀ job, pc.job = some job → job.generation = st.generation →
    LoggedInAs st.trace st.generation st.sessionId
  request : ∀ share sid, pc.request = some (share, sid) → share.job.generation = st.generation →
    LoggedInAs st.trace st.generation sid
  lock : pc.holdsLock = true → st.streamLock = some i
  written : ∀ share rpcId conn, pc = .written share rpcId conn →
    st.stream = some conn ∧ share.job.generation = st.generation

/-- No stream, and no job. -/
def Idle (st : State n) : Prop := st.stream = none ∧ st.currentJob = none

/-- No job carries the current generation, and nothing is pending. -/
structure NoLive (st : State n) : Prop where
  currentJob : st.currentJob = none
  pending : st.pendingShares = ∅
  workers : ∀ i job, (st.workers i).job = some job → job.generation ≠ st.generation

/-- What holds of the receiver, by where it is. -/
def ReceiverOk (st : State n) : ReceiverPc → Prop
  | .ready | .settling _ => ∀ conn, st.stream = some conn →
      LoggedInAs st.trace st.generation st.sessionId ∧ ∀ b ∈ st.buffer, b.1 = st.generation
  | .handling lines | .replying _ lines | .counting _ _ lines =>
      LoggedInAs st.trace st.generation st.sessionId ∧ (∀ b ∈ st.buffer, b.1 = st.generation) ∧
        ∀ l ∈ lines, l ≠ [] ∧ ∀ b ∈ l, b.1 = st.generation
  | .clearStream _ => st.currentJob = none
  | .draining _ | .countLost _ _ | .connecting _ => Idle st
  | .loggingIn _ => NoLive st
  | .setSession _ sid reply =>
      NoLive st ∧ .loginReply st.generation reply ∈ st.trace ∧ loginSession reply = some sid
  | .setJob _ reply => st.currentJob = none ∧ .loginReply st.generation reply ∈ st.trace ∧
      LoggedInAs st.trace st.generation st.sessionId
  | .loggedIn _ => LoggedInAs st.trace st.generation st.sessionId
  | .failed _ => Idle st ∨ NoLive st
  | .clearJob _ | .stopped => True

/-- The invariant. -/
structure SessionInv (st : State n) : Prop where
  connections : st.generation = st.connections
  stream : ∀ conn, st.stream = some conn → conn = st.generation
  current : ∀ job, st.currentJob = some job → job.generation = st.generation ∧
    Issued decode st.trace st.generation job ∧ LoggedInAs st.trace st.generation st.sessionId
  workers : ∀ i, WorkerOk decode st i (st.workers i)
  receiver : ReceiverOk st st.receiver
  pending : ∀ k entry, st.pendingShares.lookup k = some entry →
    (∃ task, st.receiver = .draining task) ∨ st.stream = some entry.conn
  submits : ∀ conn rpcId sid share, .submit conn rpcId sid share ∈ st.trace →
    Issued decode st.trace conn share.job ∧ LoggedInAs st.trace conn sid

variable {decode} {st st' : State n}

/-- What the session of a state consists of is unchanged; the trace may have grown. -/
structure SameSession (st st' : State n) : Prop where
  stream : st'.stream = st.stream
  generation : st'.generation = st.generation
  connections : st'.connections = st.connections
  sessionId : st'.sessionId = st.sessionId
  trace : st.trace ⊆ st'.trace

/-- A worker goes on with its job, and its request if it has one. -/
theorem WorkerOk.step {i : Fin n} {pc pc' : WorkerPc} (h : WorkerOk decode st i pc)
    (hsame : SameSession st st') (hjob : ∀ job, pc'.job = some job → pc.job = some job)
    (hrequest : ∀ share sid, pc'.request = some (share, sid) → pc.request = some (share, sid))
    (hlock : pc'.holdsLock = true → st'.streamLock = some i)
    (hwritten : ∀ share rpcId conn, pc' = .written share rpcId conn →
      st.stream = some conn ∧ share.job.generation = st.generation) : WorkerOk decode st' i pc' := by
  constructor
  · intro job hj
    rw [hsame.generation]
    exact ⟨(h.issued job (hjob job hj)).1, (h.issued job (hjob job hj)).2.mono hsame.trace⟩
  · intro job hj hgen
    rw [hsame.generation] at hgen ⊢
    rw [hsame.sessionId]
    exact (h.live job (hjob job hj) hgen).mono hsame.trace
  · intro share sid hreq hgen
    rw [hsame.generation] at hgen ⊢
    exact (h.request share sid (hrequest share sid hreq) hgen).mono hsame.trace
  · exact hlock
  · intro share rpcId conn hpc
    rw [hsame.stream, hsame.generation]
    exact hwritten share rpcId conn hpc

/-- A worker that does nothing. -/
theorem WorkerOk.frame {i : Fin n} {pc : WorkerPc} (h : WorkerOk decode st i pc)
    (hsame : SameSession st st') (hlock : pc.holdsLock = true → st'.streamLock = some i) :
    WorkerOk decode st' i pc :=
  h.step hsame (fun _ hj => hj) (fun _ _ hr => hr) hlock h.written

theorem ReceiverOk.frame {pc : ReceiverPc} (h : ReceiverOk st pc) (hsame : SameSession st st')
    (hcurrent : st'.currentJob = st.currentJob) (hbuffer : st'.buffer = st.buffer)
    (hlive : NoLive st → NoLive st') : ReceiverOk st' pc := by
  have hidle : Idle st → Idle st' := by
    rintro ⟨hstream, hjob⟩
    exact ⟨hsame.stream.trans hstream, hcurrent.trans hjob⟩
  have hlogged : LoggedInAs st.trace st.generation st.sessionId →
      LoggedInAs st'.trace st'.generation st'.sessionId := by
    intro hin
    rw [hsame.generation, hsame.sessionId]
    exact hin.mono hsame.trace
  -- what holds of each place speaks of the connection, the job, the buffer and the trace only
  cases pc with
  | ready | settling _ =>
    intro conn hconn
    obtain ⟨hin, htags⟩ := h conn (hsame.stream.symm.trans hconn)
    rw [hbuffer]
    exact ⟨hlogged hin, fun b hb => (htags b hb).trans hsame.generation.symm⟩
  | handling lines | replying _ lines | counting _ _ lines =>
    obtain ⟨hin, htags, hlines⟩ := h
    refine ⟨hlogged hin, ?_, ?_⟩
    · rw [hbuffer, hsame.generation]
      exact htags
    · rw [hsame.generation]
      exact hlines
  | clearStream _ => exact hcurrent.trans h
  | draining _ | countLost _ _ | connecting _ => exact hidle h
  | loggingIn _ => exact hlive h
  | setSession _ sid reply =>
    obtain ⟨hno, hmem, hsid⟩ := h
    rw [← hsame.generation] at hmem
    exact ⟨hlive hno, hsame.trace hmem, hsid⟩
  | setJob _ reply =>
    obtain ⟨hjob, hmem, hin⟩ := h
    rw [← hsame.generation] at hmem
    exact ⟨hcurrent.trans hjob, hsame.trace hmem, hlogged hin⟩
  | loggedIn _ => exact hlogged h
  | failed _ => exact h.imp hidle hlive
  | clearJob _ | stopped => trivial

/-! ## Steps of a worker -/

/-- What a worker's step preserves, but for what it inserts: it may move the lock that is free or its own,
    hold on to its job or take the current one, and submit what the invariant allows. -/
theorem session_move {i : Fin n} {pc : WorkerPc} (h : SessionInv decode st)
    (hsame : SameSession st st') (hcurrent : st'.currentJob = st.currentJob)
    (hworkers : st'.workers = st.workers)
    (hreceiver : st'.receiver = st.receiver) (hbuffer : st'.buffer = st.buffer)
    (hpending : ∀ k entry, st'.pendingShares.lookup k = some entry →
      st.pendingShares.lookup k = some entry ∨ st.stream = some entry.conn)
    (hempty : NoLive st → st'.pendingShares = ∅)
    (hlock : ∀ j ≠ i, st.streamLock = some j → st'.streamLock = some j)
    (hjob : ∀ job, pc.job = some job → (st.workers i).job = some job ∨ st.currentJob = some job)
    (hok : WorkerOk decode st' i pc)
    (hsubmits : ∀ conn rpcId sid share, .submit conn rpcId sid share ∈ st'.trace →
      Issued decode st'.trace conn share.job ∧ LoggedInAs st'.trace conn sid) :
    SessionInv decode (st'.setWorker i pc) := by
  have hlive : NoLive st → NoLive (st'.setWorker i pc) := by
    intro hnolive
    refine ⟨hcurrent.trans hnolive.currentJob, hempty hnolive, ?_⟩
    intro j job hj
    show job.generation ≠ st'.generation
    rw [hsame.generation]
    have hj' : (if j = i then pc else st.workers j).job = some job := by
      rw [← hworkers]
      exact Function.update_apply st'.workers i pc j ▸ hj
    -- what `i` holds now it held before or took just now, and the others hold what they held
    split at hj'
    · rcases hjob job hj' with hold | hold
      · exact hnolive.workers i job hold
      · exact absurd (hnolive.currentJob.symm.trans hold) nofun
    · exact hnolive.workers j job hj'
  constructor
  · exact hsame.generation.trans (h.connections.trans hsame.connections.symm)
  · intro conn hconn
    exact (h.stream conn (hsame.stream.symm.trans hconn)).trans hsame.generation.symm
  · intro job hcur
    obtain ⟨hgen, hissued, hin⟩ := h.current job (hcurrent.symm.trans hcur)
    refine ⟨hgen.trans hsame.generation.symm, ?_, ?_⟩
    · show Issued decode st'.trace st'.generation job
      rw [hsame.generation]
      exact hissued.mono hsame.trace
    · show LoggedInAs st'.trace st'.generation st'.sessionId
      rw [hsame.generation, hsame.sessionId]
      exact hin.mono hsame.trace
  · intro j
    show WorkerOk decode _ j (Function.update st'.workers i pc j)
    rw [Function.update_apply]
    split
    next hji =>
      subst hji
      exact ⟨hok.issued, hok.live, hok.request, hok.lock, hok.written⟩
    next hji =>
      rw [hworkers]
      exact (h.workers j).frame ⟨hsame.stream, hsame.generation, hsame.connections, hsame.sessionId,
        hsame.trace⟩ fun hheld => hlock j hji ((h.workers j).lock hheld)
  · show ReceiverOk _ st'.receiver
    rw [hreceiver]
    exact h.receiver.frame ⟨hsame.stream, hsame.generation, hsame.connections, hsame.sessionId,
      hsame.trace⟩ hcurrent hbuffer hlive
  · intro k entry hentry
    rcases hpending k entry hentry with hold | hstream
    · rcases h.pending k entry hold with ⟨task, htask⟩ | hstream
      · exact .inl ⟨task, hreceiver.trans htask⟩
      · exact .inr (hsame.stream.trans hstream)
    · exact .inr (hsame.stream.trans hstream)
  · exact hsubmits

/-- A request that is written under the lock names this connection's job and session. -/
theorem submits_emit {i : Fin n} {share : Share} {sid : String} {rpcId conn : Nat}
    (h : SessionInv decode st)
    (hok : WorkerOk decode st i (.locked share sid rpcId)) (hstream : st.stream = some conn)
    (hgen : share.job.generation = st.generation) :
    ∀ conn' rpcId' sid' share', .submit conn' rpcId' sid' share' ∈
      Event.submit conn rpcId sid share :: st.trace →
      Issued decode (.submit conn rpcId sid share :: st.trace) conn' share'.job ∧
        LoggedInAs (.submit conn rpcId sid share :: st.trace) conn' sid' := by
  have hsub : st.trace ⊆ .submit conn rpcId sid share :: st.trace :=
    fun _ he => List.mem_cons_of_mem _ he
  intro conn' rpcId' sid' share' hmem
  rcases List.mem_cons.mp hmem with heq | hold
  · obtain ⟨rfl, rfl, rfl, rfl⟩ := Event.submit.inj heq
    have hconn : conn' = st.generation := h.stream conn' hstream
    have hissued := (hok.issued share'.job rfl).2
    have hin := hok.request share' sid' rfl hgen
    rw [hgen, ← hconn] at hissued
    rw [← hconn] at hin
    exact ⟨hissued.mono hsub, hin.mono hsub⟩
  · obtain ⟨hissued, hin⟩ := h.submits conn' rpcId' sid' share' hold
    exact ⟨hissued.mono hsub, hin.mono hsub⟩

/-- A step of a worker that keeps its job, takes or gives up the lock, and neither writes nor inserts. -/
theorem session_keep {i : Fin n} {pc : WorkerPc} (h : SessionInv decode st)
    (hsame : SameSession st st') (hcurrent : st'.currentJob = st.currentJob)
    (hworkers : st'.workers = st.workers)
    (hreceiver : st'.receiver = st.receiver) (hbuffer : st'.buffer = st.buffer)
    (hpending : st'.pendingShares = st.pendingShares) (htrace : st'.trace = st.trace)
    (hlock : ∀ j ≠ i, st.streamLock = some j → st'.streamLock = some j)
    (hjob : ∀ job, pc.job = some job → (st.workers i).job = some job)
    (hok : WorkerOk decode st' i pc) : SessionInv decode (st'.setWorker i pc) := by
  refine session_move h hsame hcurrent hworkers hreceiver hbuffer ?_ ?_ hlock (fun job hj => .inl (hjob job hj))
    hok ?_
  · intro k entry hentry
    rw [hpending] at hentry
    exact .inl hentry
  · intro hno
    rw [hpending]
    exact hno.pending
  · rw [htrace]
    exact h.submits

theorem session_worker {i : Fin n} (h : SessionInv decode st) (hs : WorkerMove st i st') :
    SessionInv decode st' := by
  have hok := h.workers i
  have hsame : SameSession st st := ⟨rfl, rfl, rfl, rfl, fun _ he => he⟩
  -- the lock is this worker's own, so no other worker's hold is lost when it is released
  have hrelease : (st.workers i).holdsLock = true →
      ∀ j ≠ i, st.streamLock = some j → (none : Option (Fin n)) = some j := by
    intro hheld j hji hj
    exact absurd (Option.some.inj (hj.symm.trans (hok.lock hheld))) hji
  cases hs with
  | getWork hpc =>
    refine session_move h hsame rfl rfl rfl rfl (fun _ _ he => .inl he) NoLive.pending (fun _ _ hj => hj)
      (fun job hjob => .inr hjob) ⟨?_, ?_, nofun, nofun, nofun⟩ h.submits
    · intro job hjob
      obtain ⟨hgen, hissued, _⟩ := h.current job hjob
      rw [hgen]
      exact ⟨le_rfl, hissued⟩
    · intro job hjob _
      exact (h.current job hjob).2.2
  | find hpc | submit hpc =>
    rw [hpc] at hok
    refine session_keep h ⟨rfl, rfl, rfl, rfl, fun _ he => he⟩ rfl rfl rfl rfl rfl rfl
      (fun _ _ hj => hj) (by rw [hpc]; exact fun _ hj => hj) ?_
    exact hok.step ⟨rfl, rfl, rfl, rfl, fun _ he => he⟩ (fun _ hj => hj) nofun nofun nofun
  | withhold hpc | leave hpc | countUnsent hpc =>
    exact session_keep h ⟨rfl, rfl, rfl, rfl, fun _ he => he⟩ rfl rfl rfl rfl rfl rfl
      (fun _ _ hj => hj) nofun ⟨nofun, nofun, nofun, nofun, nofun⟩
  | @readSession share hpc =>
    -- the session id is the current one: if the job is live, this connection's
    rw [hpc] at hok
    refine session_keep h hsame rfl rfl rfl rfl rfl rfl (fun _ _ hj => hj)
      (by rw [hpc]; exact fun _ hj => hj) ⟨hok.issued, hok.live, ?_, nofun, nofun⟩
    intro share' sid hreq hgen
    obtain ⟨rfl, rfl⟩ := Prod.mk.inj (Option.some.inj hreq)
    exact hok.live _ rfl hgen
  | nextRequestId hpc =>
    rw [hpc] at hok
    refine session_keep h ⟨rfl, rfl, rfl, rfl, fun _ he => he⟩ rfl rfl rfl rfl rfl rfl
      (fun _ _ hj => hj) (by rw [hpc]; exact fun _ hj => hj) ?_
    exact hok.step ⟨rfl, rfl, rfl, rfl, fun _ he => he⟩ (fun _ hj => hj) (fun _ _ hr => hr) nofun
      nofun
  | lock hpc hfree =>
    rw [hpc] at hok
    refine session_keep h ⟨rfl, rfl, rfl, rfl, fun _ he => he⟩ rfl rfl rfl rfl rfl rfl
      ?_ (by rw [hpc]; exact fun _ hj => hj) ?_
    · intro j _ hj
      exact absurd (hfree.symm.trans hj) nofun
    · exact ⟨hok.issued, hok.live, hok.request, fun _ => rfl, nofun⟩
  | refuse hpc _ =>
    have hlock := hrelease (by rw [hpc]; rfl)
    rw [hpc] at hok
    refine session_keep h ⟨rfl, rfl, rfl, rfl, fun _ he => he⟩ rfl rfl rfl rfl rfl rfl hlock
      (by rw [hpc]; exact fun _ hj => hj) ?_
    exact hok.step ⟨rfl, rfl, rfl, rfl, fun _ he => he⟩ (fun _ hj => hj) nofun nofun nofun
  | @write share sid rpcId conn hpc hstream hgen =>
    rw [hpc] at hok
    have hgrow : SameSession st (st.emit (.submit conn rpcId sid share)) :=
      ⟨rfl, rfl, rfl, rfl, fun _ he => List.mem_cons_of_mem _ he⟩
    refine session_move h hgrow rfl rfl rfl rfl (fun _ _ he => .inl he) NoLive.pending (fun _ _ hj => hj)
      (by rw [hpc]; exact fun _ hj => .inl hj) ?_ (submits_emit h hok hstream hgen)
    refine hok.step hgrow (fun _ hj => hj) nofun (fun _ => hok.lock rfl) ?_
    rintro _ _ _ ⟨⟩
    exact ⟨hstream, hgen⟩
  | @writeFails share sid rpcId conn hpc hstream hgen =>
    have hlock := hrelease (by rw [hpc]; rfl)
    rw [hpc] at hok
    have hsubmits := submits_emit h hok hstream hgen
    refine session_move h ⟨rfl, rfl, rfl, rfl, fun _ he => List.mem_cons_of_mem _ he⟩ rfl rfl rfl rfl
      (fun _ _ he => .inl he) NoLive.pending hlock (by rw [hpc]; exact fun _ hj => .inl hj) ?_ hsubmits
    exact hok.step ⟨rfl, rfl, rfl, rfl, fun _ he => List.mem_cons_of_mem _ he⟩ (fun _ hj => hj)
      nofun nofun nofun
  | @insert share rpcId conn hpc =>
    rw [hpc] at hok
    obtain ⟨hstream, hgen⟩ := hok.written share rpcId conn rfl
    refine session_move h ⟨rfl, rfl, rfl, rfl, fun _ he => he⟩ rfl rfl rfl rfl ?_ ?_ (fun _ _ hj => hj)
      nofun ⟨nofun, nofun, nofun, fun _ => hok.lock rfl, nofun⟩ h.submits
    · intro k entry hentry
      by_cases hk : k = rpcId
      · subst hk
        rw [AList.lookup_insert] at hentry
        obtain rfl := Option.some.inj hentry
        exact .inr hstream
      · exact .inl ((AList.lookup_insert_ne hk).symm.trans hentry)
    · intro hno
      exact absurd hgen (hno.workers i share.job (by rw [hpc]; rfl))
  | unlock hpc =>
    have hlock := hrelease (by rw [hpc]; rfl)
    exact session_keep h ⟨rfl, rfl, rfl, rfl, fun _ he => he⟩ rfl rfl rfl rfl rfl rfl hlock nofun
      ⟨nofun, nofun, nofun, nofun, nofun⟩

/-! ## Steps of the receiver -/

/-- A step of the receiver that leaves stream and session alone. -/
theorem session_receive (h : SessionInv decode st) (hsame : SameSession st st')
    (hlock : st'.streamLock = st.streamLock) (hworkers : st'.workers = st.workers)
    (hcurrent : ∀ job, st'.currentJob = some job → job.generation = st'.generation ∧
      Issued decode st'.trace st'.generation job ∧
        LoggedInAs st'.trace st'.generation st'.sessionId)
    (hpending : ∀ k entry, st'.pendingShares.lookup k = some entry →
      (∃ task, st'.receiver = .draining task) ∨ st'.stream = some entry.conn)
    (hsubmits : ∀ conn rpcId sid share, .submit conn rpcId sid share ∈ st'.trace →
      .submit conn rpcId sid share ∈ st.trace)
    (hok : ReceiverOk st' st'.receiver) : SessionInv decode st' := by
  constructor
  · exact hsame.generation.trans (h.connections.trans hsame.connections.symm)
  · intro conn hconn
    exact (h.stream conn (hsame.stream.symm.trans hconn)).trans hsame.generation.symm
  · exact hcurrent
  · intro i
    rw [hworkers]
    exact (h.workers i).frame hsame fun hheld => hlock.trans ((h.workers i).lock hheld)
  · exact hok
  · exact hpending
  · intro conn rpcId sid share hmem
    obtain ⟨hissued, hin⟩ := h.submits conn rpcId sid share (hsubmits conn rpcId sid share hmem)
    exact ⟨hissued.mono hsame.trace, hin.mono hsame.trace⟩

/-- The current job, when a step of the receiver leaves it alone. -/
theorem SessionInv.current_same (h : SessionInv decode st) (hsame : SameSession st st')
    (hcurrent : st'.currentJob = st.currentJob) : ∀ job, st'.currentJob = some job →
      job.generation = st'.generation ∧ Issued decode st'.trace st'.generation job ∧
        LoggedInAs st'.trace st'.generation st'.sessionId := by
  intro job hjob
  obtain ⟨hgen, hissued, hin⟩ := h.current job (hcurrent.symm.trans hjob)
  rw [hsame.generation, hsame.sessionId]
  exact ⟨hgen, hissued.mono hsame.trace, hin.mono hsame.trace⟩

/-- The pending entries are on the stream, unless they are being drained. -/
theorem SessionInv.pending_stream (h : SessionInv decode st)
    (hpc : ∀ task, st.receiver ≠ .draining task) {k : Nat} {entry : PendingShare}
    (hentry : st.pendingShares.lookup k = some entry) : st.stream = some entry.conn := by
  rcases h.pending k entry hentry with ⟨task, htask⟩ | hstream
  · exact absurd htask (hpc task)
  · exact hstream

/-- A step of the receiver that moves on and may change its buffer, its counters or the request id. -/
theorem session_next (h : SessionInv decode st) (hsame : SameSession st st')
    (hlock : st'.streamLock = st.streamLock) (hworkers : st'.workers = st.workers)
    (hcurrent : st'.currentJob = st.currentJob) (hpending : st'.pendingShares = st.pendingShares)
    (hpc : ∀ task, st.receiver ≠ .draining task)
    (hsubmits : ∀ conn rpcId sid share, .submit conn rpcId sid share ∈ st'.trace →
      .submit conn rpcId sid share ∈ st.trace)
    (hok : ReceiverOk st' st'.receiver) : SessionInv decode st' := by
  refine session_receive h hsame hlock hworkers (h.current_same hsame hcurrent) ?_ hsubmits hok
  intro k entry hentry
  rw [hpending] at hentry
  exact .inr (hsame.stream.trans (h.pending_stream hpc hentry))

/-- No entry is pending while there is no stream. -/
theorem SessionInv.pending_empty (h : SessionInv decode st)
    (hpc : ∀ task, st.receiver ≠ .draining task) (hstream : st.stream = none) :
    st.pendingShares = ∅ := by
  have hnone : ∀ k, st.pendingShares.lookup k = none := by
    intro k
    cases hentry : st.pendingShares.lookup k with
    | none => rfl
    | some entry => exact absurd (hstream.symm.trans (h.pending_stream hpc hentry)) nofun
  apply AList.ext
  apply List.eq_nil_iff_forall_not_mem.mpr
  rintro ⟨k, entry⟩ hmem
  have hlook := AList.mem_lookup_iff.mpr hmem
  rw [hnone k] at hlook
  cases hlook

/-- The stream is cleared, while nobody holds its lock. -/
theorem session_clearStream {pc : ReceiverPc} (h : SessionInv decode st)
    (hfree : st.streamLock = none)
    (hpending : (∃ task, pc = .draining task) ∨ st.pendingShares = ∅)
    (hok : ReceiverOk { st with stream := none } pc) :
    SessionInv decode ({ st with stream := none }.setReceiver pc) := by
  refine ⟨h.connections, nofun, h.current, ?_, ?_, ?_, h.submits⟩
  · intro i
    have hw := h.workers i
    refine ⟨hw.issued, hw.live, hw.request, hw.lock, ?_⟩
    intro share rpcId conn hpc
    have hheld : (st.workers i).holdsLock = true := by
      rw [show st.workers i = .written share rpcId conn from hpc]
      rfl
    exact absurd (hfree.symm.trans (hw.lock hheld)) nofun
  · exact hok.frame ⟨rfl, rfl, rfl, rfl, fun _ he => he⟩ rfl rfl fun hno => ⟨hno.1, hno.2, hno.3⟩
  · intro k entry hentry
    rcases hpending with ⟨task, rfl⟩ | hempty
    · exact .inl ⟨task, rfl⟩
    · have : st.pendingShares.lookup k = some entry := hentry
      rw [hempty] at this
      cases this

/-- A stream is installed and the generation bumped: no job carries the new generation. -/
theorem session_connect {task : Task} (h : SessionInv decode st)
    (hidle : Idle st) (hempty : st.pendingShares = ∅) :
    SessionInv decode ({ st with
      stream := some (st.connections + 1), connections := st.connections + 1
      generation := st.generation + 1 }.setReceiver (.loggingIn task)) := by
  have hold : ∀ i job, (st.workers i).job = some job → job.generation ≠ st.generation + 1 := by
    intro i job hjob
    exact Nat.ne_of_lt (Nat.lt_succ_of_le ((h.workers i).issued job hjob).1)
  constructor
  · exact congrArg (· + 1) h.connections
  · intro conn hconn
    obtain rfl := Option.some.inj hconn
    exact congrArg (· + 1) h.connections.symm
  · intro job hjob
    exact absurd (hidle.2.symm.trans hjob) nofun
  · intro i
    have hw := h.workers i
    constructor
    · intro job hjob
      obtain ⟨hle, hissued⟩ := hw.issued job hjob
      exact ⟨Nat.le_succ_of_le hle, hissued⟩
    · intro job hjob hgen
      exact absurd hgen (hold i job hjob)
    · intro share sid hreq hgen
      exact absurd hgen (hold i share.job (WorkerPc.job_of_request hreq))
    · exact hw.lock
    · intro share rpcId conn hpc
      have hstream := (hw.written share rpcId conn hpc).1
      exact absurd (hidle.1.symm.trans hstream) nofun
  · exact ⟨hidle.2, hempty, hold⟩
  · intro k entry hentry
    have hlook : st.pendingShares.lookup k = some entry := hentry
    rw [hempty] at hlook
    cases hlook
  · exact h.submits

/-- The session id is set: no worker holds a job of this connection yet. -/
theorem session_setSession {task : Task} {sid : String} {reply : Json} (h : SessionInv decode st)
    (hno : NoLive st) (hmem : .loginReply st.generation reply ∈ st.trace)
    (hsid : loginSession reply = some sid) :
    SessionInv decode ({ st with sessionId := sid }.setReceiver (.setJob task reply)) := by
  constructor
  · exact h.connections
  · exact h.stream
  · intro job hjob
    exact absurd (hno.currentJob.symm.trans hjob) nofun
  · intro i
    have hw := h.workers i
    refine ⟨hw.issued, ?_, hw.request, hw.lock, hw.written⟩
    intro job hjob hgen
    exact absurd hgen (hno.workers i job hjob)
  · exact ⟨hno.currentJob, hmem, reply, hmem, hsid⟩
  · intro k entry hentry
    have hlook : st.pendingShares.lookup k = some entry := hentry
    rw [hno.pending] at hlook
    cases hlook
  · exact h.submits

/-- After a setup that failed nothing is pending: the old connection was drained, and no request was written on a
    new one. -/
theorem SessionInv.pending_failed {task : Task} (h : SessionInv decode st) (hpc : st.receiver = .failed task) :
    st.pendingShares = ∅ := by
  have hok := h.receiver
  rw [hpc] at hok
  rcases hok with hidle | hno
  · exact h.pending_empty (by simp [hpc]) hidle.1
  · exact hno.pending

/-- An event that is no submission adds none to the trace. -/
theorem submit_mem_of_cons {e : Event} (he : ∀ conn rpcId sid share, e ≠ .submit conn rpcId sid share) :
    ∀ conn rpcId sid share, Event.submit conn rpcId sid share ∈ e :: st.trace →
      Event.submit conn rpcId sid share ∈ st.trace := by
  intro conn rpcId sid share hmem
  rcases List.mem_cons.mp hmem with heq | hmem
  · exact absurd heq.symm (he conn rpcId sid share)
  · exact hmem

theorem session_receiver (h : SessionInv decode st) (hs : ReceiverMove decode st st') :
    SessionInv decode st' := by
  have hok := h.receiver
  have hkeep : ∀ conn rpcId sid share, Event.submit conn rpcId sid share ∈ st.trace →
      Event.submit conn rpcId sid share ∈ st.trace := fun _ _ _ _ he => he
  have hgrow : ∀ e, st.trace ⊆ e :: st.trace := fun e _ he => List.mem_cons_of_mem e he
  cases hs with
  | @read chunk conn lines rest hpc hstream hfree hlines =>
    -- what is left in the buffer and what is read now both come from the installed connection
    rw [hpc] at hok
    obtain ⟨hin, htags⟩ := hok conn hstream
    have hconn : conn = st.generation := h.stream conn hstream
    have hbytes : ∀ b ∈ st.buffer ++ chunk.map (conn, ·), b.1 = st.generation := by
      intro b hb
      rcases List.mem_append.mp hb with hb | hb
      · exact htags b hb
      · obtain ⟨_, _, rfl⟩ := List.mem_map.mp hb
        exact hconn
    obtain ⟨hlinesOk, hrest⟩ := takeCompleteLines_tags hlines hbytes
    exact session_next h ⟨rfl, rfl, rfl, rfl, fun _ he => he⟩ rfl rfl rfl rfl (by simp [hpc]) hkeep
      ⟨hin, hrest, hlinesOk⟩
  | overflow hpc | lose hpc | keepaliveFails hpc | rotate hpc _ =>
    exact session_next h ⟨rfl, rfl, rfl, rfl, fun _ he => he⟩ rfl rfl rfl rfl (by simp [hpc]) hkeep
      trivial
  | keepalive hpc =>
    refine session_next h ⟨rfl, rfl, rfl, rfl, fun _ he => he⟩ rfl rfl rfl rfl (by simp [hpc]) hkeep ?_
    exact hok.frame ⟨rfl, rfl, rfl, rfl, fun _ he => he⟩ rfl rfl fun hno => ⟨hno.1, hno.2, hno.3⟩
  | readInFlight hpc | defer hpc =>
    rw [hpc] at hok
    exact session_next h ⟨rfl, rfl, rfl, rfl, fun _ he => he⟩ rfl rfl rfl rfl (by simp [hpc]) hkeep hok
  | handled hpc =>
    rw [hpc] at hok
    exact session_next h ⟨rfl, rfl, rfl, rfl, fun _ he => he⟩ rfl rfl rfl rfl (by simp [hpc]) hkeep
      fun _ _ => ⟨hok.1, hok.2.1⟩
  | @unparsed line lines hpc =>
    rw [hpc] at hok
    obtain ⟨hin, htags, hlines⟩ := hok
    refine session_next h ⟨rfl, rfl, rfl, rfl, hgrow _⟩ rfl rfl rfl rfl (by simp [hpc])
      (submit_mem_of_cons (by simp)) ?_
    exact ⟨hin.mono (hgrow _), htags, fun l hl => hlines l (List.mem_cons_of_mem _ hl)⟩
  | @job line lines msg hpc hmsg =>
    -- a job that is parsed here was issued on this connection, which has logged in
    rw [hpc] at hok
    obtain ⟨hin, htags, hlines⟩ := hok
    obtain ⟨hne, hline⟩ := hlines line (by simp)
    refine session_receive h ⟨rfl, rfl, rfl, rfl, hgrow _⟩ rfl rfl ?_ ?_ (submit_mem_of_cons (by simp)) ?_
    · intro job hjob
      have hjob' : (messageJob msg st.generation).or st.currentJob = some job := hjob
      rcases hnew : messageJob msg st.generation with _ | job'
      · rw [hnew, Option.none_or] at hjob'
        obtain ⟨hgen, hissued, hin'⟩ := h.current job hjob'
        exact ⟨hgen, hissued.mono (hgrow _), hin'.mono (hgrow _)⟩
      · rw [hnew, Option.some_or] at hjob'
        obtain rfl := Option.some.inj hjob'
        refine ⟨generation_messageJob hnew, .inr ⟨line, msg, List.mem_cons_self, hne, hline, hmsg, hnew⟩,
          hin.mono (hgrow _)⟩
    · intro k entry hentry
      exact .inr (h.pending_stream (by simp [hpc]) hentry)
    · exact ⟨hin.mono (hgrow _), htags, fun l hl => hlines l (List.mem_cons_of_mem _ hl)⟩
  | unmatched hpc | count hpc =>
    rw [hpc] at hok
    exact session_next h ⟨rfl, rfl, rfl, rfl, fun _ he => he⟩ rfl rfl rfl rfl (by simp [hpc]) hkeep hok
  | @remove msg lines rpcId entry hpc hentry =>
    rw [hpc] at hok
    refine session_receive h ⟨rfl, rfl, rfl, rfl, fun _ he => he⟩ rfl rfl h.current ?_ hkeep hok
    intro k entry' hentry'
    have hlook : (st.pendingShares.erase rpcId).lookup k = some entry' := hentry'
    -- an entry that is still there is not the one that is removed
    have hk : k ≠ rpcId := by
      rintro rfl
      rw [AList.lookup_erase] at hlook
      cases hlook
    rw [AList.lookup_erase_ne hk] at hlook
    exact .inr (h.pending_stream (by simp [hpc]) hlook)
  | clearJob hpc =>
    refine session_receive h ⟨rfl, rfl, rfl, rfl, fun _ he => he⟩ rfl rfl nofun ?_ hkeep rfl
    intro k entry hentry
    exact .inr (h.pending_stream (by simp [hpc]) hentry)
  | @clearStream task hpc hfree =>
    rw [hpc] at hok
    exact session_clearStream h hfree (.inl ⟨task, rfl⟩) ⟨rfl, hok⟩
  | drain hpc =>
    rw [hpc] at hok
    exact session_receive h ⟨rfl, rfl, rfl, rfl, fun _ he => he⟩ rfl rfl h.current nofun hkeep hok
  | countLost hpc | drained hpc =>
    rw [hpc] at hok
    exact session_next h ⟨rfl, rfl, rfl, rfl, fun _ he => he⟩ rfl rfl rfl rfl (by simp [hpc]) hkeep hok
  | giveUp hpc | startFails hpc =>
    exact session_next h ⟨rfl, rfl, rfl, rfl, fun _ he => he⟩ rfl rfl rfl rfl (by simp [hpc]) hkeep
      trivial
  | connect hpc _ =>
    -- without a stream, and with the drain over, nothing is pending
    rw [hpc] at hok
    exact session_connect h hok (h.pending_empty (by simp [hpc]) hok.1)
  | connectFails hpc =>
    rw [hpc] at hok
    exact session_next h ⟨rfl, rfl, rfl, rfl, fun _ he => he⟩ rfl rfl rfl rfl (by simp [hpc]) hkeep
      (.inl hok)
  | @login task conn reply sid hpc hstream hsid =>
    rw [hpc] at hok
    have hconn : conn = st.generation := h.stream conn hstream
    refine session_next h ⟨rfl, rfl, rfl, rfl, hgrow _⟩ rfl rfl rfl rfl (by simp [hpc])
      (submit_mem_of_cons (by simp)) ⟨⟨hok.1, hok.2, hok.3⟩, ?_, hsid⟩
    rw [hconn]
    exact List.mem_cons_self
  | refused hpc =>
    rw [hpc] at hok
    exact session_next h ⟨rfl, rfl, rfl, rfl, hgrow _⟩ rfl rfl rfl rfl (by simp [hpc])
      (submit_mem_of_cons (by simp)) (.inr ⟨hok.1, hok.2, hok.3⟩)
  | unanswered hpc | unconnected hpc =>
    rw [hpc] at hok
    exact session_next h ⟨rfl, rfl, rfl, rfl, fun _ he => he⟩ rfl rfl rfl rfl (by simp [hpc]) hkeep
      (.inr ⟨hok.1, hok.2, hok.3⟩)
  | @setSession task sid reply hpc =>
    rw [hpc] at hok
    exact session_setSession h hok.1 hok.2.1 hok.2.2
  | @setJob task reply hpc =>
    rw [hpc] at hok
    obtain ⟨hjob, hmem, hin⟩ := hok
    refine session_receive h ⟨rfl, rfl, rfl, rfl, fun _ he => he⟩ rfl rfl ?_ ?_ hkeep hin
    · intro job hjob'
      have hnew : (loginJob reply st.generation).or st.currentJob = some job := hjob'
      rw [hjob, Option.or_none] at hnew
      exact ⟨generation_loginJob hnew, .inl ⟨reply, hmem, hnew⟩, hin⟩
    · intro k entry hentry
      exact .inr (h.pending_stream (by simp [hpc]) hentry)
  | loggedIn hpc =>
    rw [hpc] at hok
    exact session_next h ⟨rfl, rfl, rfl, rfl, fun _ he => he⟩ rfl rfl rfl rfl (by simp [hpc]) hkeep
      fun _ _ => ⟨hok, nofun⟩
  | retry hpc hfree =>
    rw [hpc] at hok
    exact session_clearStream h hfree (.inr (h.pending_failed hpc))
      ⟨rfl, hok.elim (fun hidle => hidle.2) (fun hno => hno.currentJob)⟩
  | reloginFails hpc hfree =>
    exact session_clearStream h hfree (.inr (h.pending_failed hpc)) nofun

/-! ## Runs -/

theorem session_init : SessionInv decode (State.init n) := by
  refine ⟨rfl, nofun, nofun, ?_, ⟨rfl, rfl⟩, nofun, nofun⟩
  intro i
  exact ⟨nofun, nofun, nofun, nofun, nofun⟩

/-- The invariant holds in every reachable state. -/
theorem session_reachable (h : Reachable (step decode) (.init n) st) : SessionInv decode st := by
  refine h.invariant session_init ?_
  rintro s (⟨i, a⟩ | ⟨a⟩) s' hinv hs
  · exact session_worker hinv (workerMove_of_step hs)
  · exact session_receiver hinv (receiverMove_of_step hs)

/-- **A share goes to the connection its job came from.** In every reachable state, every `submit` request
    that was written to the `conn`-th connection carries a job that this connection issued and the session
    id that its login returned; and the current job carries the current generation. -/
theorem submits_on_own_connection (h : Reachable (step decode) (.init n) st) :
    (∀ conn rpcId sid share, .submit conn rpcId sid share ∈ st.trace →
      Issued decode st.trace conn share.job ∧ LoggedInAs st.trace conn sid) ∧
    ∀ job, st.currentJob = some job → job.generation = st.generation := by
  have hinv := session_reachable h
  exact ⟨hinv.submits, fun job hjob => (hinv.current job hjob).1⟩

/-- A login reply with a session id and a first job. -/
def sampleLogin : Json :=
  .obj [("result", .obj [("id", .str "s1"),
    ("job", .obj [("blob", .str ""), ("target", .str ""), ("job_id", .str "j1"),
      ("seed_hash", .str "")])])]

/-- The one worker of the sample runs. -/
def soleWorker : Fin 1 := 0

/-- Connect, log in, and let a worker write a share. -/
def sampleRun : List (Action 1) :=
  [.receiver (.connect true), .receiver (.login (some sampleLogin)), .receiver .next, .receiver .next,
    .receiver .next, .worker 0 .getWork, .worker 0 (.find "n1" "r1"), .worker 0 .submit,
    .worker 0 .readSession, .worker 0 .nextRequestId, .worker 0 .lock, .worker 0 (.write true)]

/-- The request that the sample run writes. -/
theorem submits_on_own_connection_sample :
    ∃ st share, runs (step fun _ => none) (State.init 1) sampleRun = some st ∧
      .submit 1 2 "s1" share ∈ st.trace ∧
      Issued (fun _ => none) st.trace 1 share.job ∧ LoggedInAs st.trace 1 "s1" := by
  obtain ⟨st, hrun, share, hmem⟩ : ∃ st, runs (step fun _ => none) (State.init 1) sampleRun = some st ∧
      ∃ share, .submit 1 2 "s1" share ∈ st.trace := ⟨_, rfl, _, List.mem_cons_self⟩
  obtain ⟨hissued, hin⟩ := (submits_on_own_connection (.of_runs .refl hrun)).1 1 2 "s1" share hmem
  exact ⟨st, share, hrun, hmem, hissued, hin⟩

end Pool
end MinerTim
