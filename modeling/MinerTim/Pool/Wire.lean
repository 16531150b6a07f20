import MinerTim.Lib.Framing
import MinerTim.Pool.Ledger

/-!
# `Pool.Wire` — the bytes of submissions and keepalives

`write_request` writes a request as one line of JSON and flushes the stream. Each of the two may fail, the
write after any part of the line. This module runs the system of `Pool.Connection` with a log of what the
stream of each connection accepted.

A keepalive that fails makes the receiver replace the connection. A submission that fails does not: the
stream stays installed, and the next request is written after the cut one (`glued_submissions`). So what
arrives on a connection is framed in the runs where no submission fails, and none is written to a connection
whose keepalive has failed (`wire_framed`).
-/

namespace MinerTim
namespace Pool

open Transition Framing Miner

variable {n : Nat}

/-! ## Requests -/

/-- The escape of a byte in a JSON string. -/
def escapeByte (b : Byte) : List Byte :=
  if b = 0x22 then [0x5c, 0x22]
  else if b = 0x5c then [0x5c, 0x5c]
  else if b = 0x08 then [0x5c, 0x62]
  else if b = 0x0c then [0x5c, 0x66]
  else if b = 0x0a then [0x5c, 0x6e]
  else if b = 0x0d then [0x5c, 0x72]
  else if b = 0x09 then [0x5c, 0x74]
  else if b < 0x20 then
    -- `\u00` and two lower-case digits
    [0x5c, 0x75, 0x30, 0x30, 0x30 + (b >>> 4),
      if b &&& 0x0f < 10 then 0x30 + (b &&& 0x0f) else 0x57 + (b &&& 0x0f)]
  else [b]

/-- The UTF-8 bytes of a text. -/
def utf8 (s : String) : List Byte := s.toUTF8.data.toList.map UInt8.toBitVec

/-- A JSON string. -/
def jsonString (s : String) : List Byte := 0x22 :: (utf8 s).flatMap escapeByte ++ [0x22]

/-- The decimal digits of a number. -/
def jsonNat (k : Nat) : List Byte := (Nat.toDigits 10 k).map fun c => BitVec.ofNat 8 c.toNat

/-- A JSON object, given the JSON of its values. -/
def jsonObject (fields : List (String × List Byte)) : List Byte :=
  0x7b :: [0x2c].intercalate (fields.map fun f => jsonString f.1 ++ 0x3a :: f.2) ++ [0x7d]

/-- `JsonRpcRequest`; every parameter of the requests here is a string. -/
structure JsonRpcRequest where
  id : Nat
  method : String
  params : List (String × String)

/-- `serde_json::to_string` of a request. -/
def JsonRpcRequest.toJson (r : JsonRpcRequest) : List Byte :=
  jsonObject [("id", jsonNat r.id), ("jsonrpc", jsonString "2.0"), ("method", jsonString r.method),
    ("params", jsonObject (r.params.map fun f => (f.1, jsonString f.2)))]

/-- The line that `write_request` writes. -/
def JsonRpcRequest.line (r : JsonRpcRequest) : List Byte := r.toJson ++ [0x0a]

/-- What a request is sent for. -/
inductive Content where
  | submit (rpcId : Nat) (sessionId : String) (share : Share)
  | keepalive (rpcId : Nat) (sessionId : String)

/-- The request that a line is made of. -/
def Content.request : Content → JsonRpcRequest
  | .submit rpcId sid share =>
    { id := rpcId, method := "submit"
      params := [("id", sid), ("job_id", share.job.jobId), ("nonce", share.nonce),
        ("result", share.result)] }
  | .keepalive rpcId sid => { id := rpcId, method := "keepalived", params := [("id", sid)] }

/-- How `write_request` ends. -/
inductive WriteOutcome where
  | done
  /-- `write_all` fails, after the stream has accepted some bytes. -/
  | writeFails (accepted : Nat)
  /-- The whole line is accepted, and `flush` fails. -/
  | flushFails
deriving DecidableEq

/-- Whether `write_all` and `flush` both returned `Ok`. -/
def WriteOutcome.ok : WriteOutcome → Bool
  | .done => true
  | _ => false

/-- One `write_request`. -/
structure Send where
  conn : Nat
  content : Content
  outcome : WriteOutcome

/-- The part of the line that the stream accepts: all of it, unless `write_all` fails. -/
def Send.accepted (s : Send) : List Byte :=
  match s.outcome with
  | .writeFails k => s.content.request.line.take (min k (s.content.request.line.length - 1))
  | .done | .flushFails => s.content.request.line

/-- A `write_request`, as a message handed to a stream. -/
def Send.delivery (s : Send) : Delivery Byte where
  message := s.content.request.line
  accepted := s.accepted
  ok := s.outcome.ok
  accepted_prefix := by
    unfold Send.accepted
    split
    · exact List.take_prefix _ _
    · exact List.prefix_refl _
    · exact List.prefix_refl _
  accepted_of_ok := by
    intro hok
    unfold Send.accepted
    cases hout : s.outcome with
    | done => rfl
    | writeFails k | flushFails => simp [hout, WriteOutcome.ok] at hok

/-! ## The system with its wire -/

/-- The system, and every request written so far, in order. -/
structure WireState (n : Nat) where
  state : State n
  sent : List Send

/-- Nothing is sent. -/
def WireState.init (n : Nat) : WireState n := { state := .init n, sent := [] }

/-- The request that a worker is about to write, and its connection; a share whose job is stale is not
    written. -/
def State.nextSubmit (st : State n) (i : Fin n) : Option (Nat × Content) :=
  match st.workers i, st.stream with
  | .locked share sid rpcId, some conn =>
    if share.job.generation = st.generation then some (conn, .submit rpcId sid share) else none
  | _, _ => none

/-- The keepalive that the receiver would write, and its connection. -/
def State.nextKeepalive (st : State n) : Option (Nat × Content) :=
  st.stream.map fun conn => (conn, .keepalive st.requestId st.sessionId)

/-- A step, with how a write ends. -/
inductive WireAction (n : Nat) where
  | submit (i : Fin n) (outcome : WriteOutcome)
  | keepalive (outcome : WriteOutcome)
  /-- A step that writes neither. -/
  | other (a : Action n)

/-- The step of `Pool.Connection`. -/
def WireAction.action : WireAction n → Action n
  | .submit i outcome => .worker i (.write outcome.ok)
  | .keepalive outcome => .receiver (.keepalive outcome.ok)
  | .other a => a

/-- What the step writes. -/
def WireAction.sends (st : State n) : WireAction n → List Send
  | .submit i outcome => (st.nextSubmit i).toList.map fun s => { conn := s.1, content := s.2, outcome }
  | .keepalive outcome => st.nextKeepalive.toList.map fun s => { conn := s.1, content := s.2, outcome }
  | .other _ => []

/-- A step that writes is not among the others. -/
def WireAction.valid : WireAction n → Bool
  | .other (.worker _ (.write _)) | .other (.receiver (.keepalive _)) => false
  | _ => true

/-- A step of the connection, with the bytes that it sends. -/
def wireStep (decode : List Byte → Option Json) (w : WireState n) (a : WireAction n) :
    Option (WireState n) :=
  if a.valid then
    (step decode w.state a.action).map fun st => { state := st, sent := w.sent ++ a.sends w.state }
  else none

/-- The requests written to a connection. -/
def WireState.on (w : WireState n) (conn : Nat) : List Send := w.sent.filter (·.conn = conn)

/-- **Wire framing of a connection**: what arrives is whole requests and at most one that is cut short,
    nothing is written after a write that failed, and a share that is counted as unsent has not arrived in
    full. -/
structure WireFramed (w : WireState n) (conn : Nat) : Prop where
  framed : Framed ((w.on conn).map Send.delivery)
  last : (w.on conn).Pairwise fun s _ => s.outcome = .done
  unsent : ∀ s ∈ w.on conn, ∀ rpcId sid share, s.content = .submit rpcId sid share →
    (share.id, Fate.unsent) ∈ w.state.counted → s.accepted ≠ s.content.request.line

/-- What a step has to meet: a submission that is written succeeds, and no keepalive has failed on its
    connection. -/
def Careful (w : WireState n) : WireAction n → Prop
  | .submit i outcome => ∀ conn content, w.state.nextSubmit i = some (conn, content) →
      outcome = .done ∧ ∀ s ∈ w.on conn, ∀ rpcId sid, s.content = .keepalive rpcId sid →
        s.outcome = .done
  | _ => True

variable {decode : List Byte → Option Json}

/-- A step of the system with its wire is a step of the system. -/
theorem step_of_wireStep {w w' : WireState n} {a : WireAction n} (h : wireStep decode w a = some w') :
    ∃ st, step decode w.state a.action = some st ∧
      w' = { state := st, sent := w.sent ++ a.sends w.state } := by
  unfold wireStep at h
  split at h
  · obtain ⟨st, hst, rfl⟩ := Option.map_eq_some_iff.mp h
    exact ⟨st, hst, rfl⟩
  · cases h

/-! ## A share in a worker's hand -/

variable {st st' : State n}

/-- A share in a worker's hand is nowhere else. -/
theorem Balanced.count_inHand (h : Balanced st) {i : Fin n} {k : Nat}
    (hk : (st.workers i).inHand = {k}) :
    k < st.found ∧ k ∉ st.countedIds ∧ ∀ j ≠ i, (st.workers j).inHand ≠ {k} := by
  -- two hands would count the share twice, and the places hold each share once
  have hworkers : ∀ j, j ≠ i → (st.workers j).inHand = {k} → 2 ≤ st.workerIds.count k := by
    intro j hji hj
    unfold State.workerIds
    rw [Multiset.count_sum']
    have hpair : ∑ l ∈ {i, j}, ((st.workers l).inHand).count k
        ≤ ∑ l, ((st.workers l).inHand).count k := Finset.sum_le_sum_of_subset (Finset.subset_univ _)
    rw [Finset.sum_pair hji.symm, hk, hj, Multiset.count_singleton_self] at hpair
    exact hpair
  have hmem : k ∈ st.workerIds := by
    unfold State.workerIds
    rw [Multiset.mem_sum]
    exact ⟨i, Finset.mem_univ i, by rw [hk]; exact Multiset.mem_singleton_self k⟩
  have hone : 1 ≤ st.workerIds.count k := Multiset.one_le_count_iff_mem.mpr hmem
  have hplaces := congrArg (Multiset.count k) h.places
  simp only [Multiset.count_add] at hplaces
  have hrange : (Multiset.range st.found).count k ≤ 1 :=
    Multiset.nodup_iff_count_le_one.mp (Multiset.nodup_range _) k
  refine ⟨?_, ?_, ?_⟩
  · rw [← Multiset.mem_range, ← Multiset.one_le_count_iff_mem]
    omega
  · rw [← Multiset.one_le_count_iff_mem]
    omega
  · intro j hji hj
    have := hworkers j hji hj
    omega

/-- A share that is written for good: it is not counted as unsent, and no worker has it in hand except
    between the write and the insertion of its entry. -/
structure Settled (st : State n) (share : Share) : Prop where
  found : share.id < st.found
  counted : (share.id, Fate.unsent) ∉ st.counted
  hand : ∀ i, (st.workers i).inHand = {share.id} → ∃ s rpcId conn, st.workers i = .written s rpcId conn

/-- The share is not counted as unsent in between, and no worker has moved. -/
structure SameHands (share : Share) (st st' : State n) : Prop where
  found : st'.found = st.found
  counted : (share.id, Fate.unsent) ∈ st'.counted → (share.id, Fate.unsent) ∈ st.counted
  workers : st'.workers = st.workers

theorem Settled.frame {share : Share} (h : Settled st share) (hsame : SameHands share st st') :
    Settled st' share := by
  refine ⟨?_, fun hmem => h.counted (hsame.counted hmem), ?_⟩
  · rw [hsame.found]
    exact h.found
  · rw [hsame.workers]
    exact h.hand

/-- A worker moves; it has the share in hand only if it has just written it. -/
theorem Settled.move {share : Share} {i : Fin n} {pc : WorkerPc} (h : Settled st share)
    (hsame : SameHands share st st')
    (hpc : pc.inHand = {share.id} → ∃ s rpcId conn, pc = .written s rpcId conn) :
    Settled (st'.setWorker i pc) share := by
  have h' := h.frame hsame
  refine ⟨h'.found, h'.counted, ?_⟩
  intro j hj
  rw [workers_setWorker] at hj ⊢
  split
  next hji =>
    rw [if_pos hji] at hj
    exact hpc hj
  next hji =>
    rw [if_neg hji] at hj
    exact h'.hand j hj

/-- A worker that has a share in hand, and has not just written it, has another one. -/
theorem Settled.other {share : Share} (h : Settled st share) {i : Fin n} {pc : WorkerPc}
    (hpc : st.workers i = pc) (hnot : ∀ s rpcId conn, pc ≠ .written s rpcId conn) :
    pc.inHand ≠ {share.id} := by
  intro hhand
  obtain ⟨s, rpcId, conn, hw⟩ := h.hand i (by rw [hpc]; exact hhand)
  exact hnot s rpcId conn (hpc.symm.trans hw)

/-- What is written for good stays so when a worker moves. -/
theorem settled_worker {share : Share} {i : Fin n} (h : Settled st share) (hs : WorkerMove st i st') :
    Settled st' share := by
  have hzero : (0 : Multiset Nat) ≠ {share.id} := (Multiset.singleton_ne_zero _).symm
  cases hs with
  | getWork hpc => exact Settled.move h ⟨rfl, id, rfl⟩ fun hhand => absurd hhand hzero
  | @find job nonce result hpc =>
    have hgrow : Settled { st with found := st.found + 1 } share :=
      ⟨Nat.lt_succ_of_lt h.found, h.counted, h.hand⟩
    refine Settled.move hgrow ⟨rfl, id, rfl⟩ fun hhand => ?_
    have : st.found = share.id := Multiset.singleton_inj.mp hhand
    exact absurd h.found (by omega)
  | withhold hpc =>
    refine Settled.move h ⟨rfl, fun hmem => ?_, rfl⟩ fun hhand => absurd hhand hzero
    exact (List.mem_cons.mp hmem).resolve_left fun heq => absurd (Prod.mk.inj heq).2 (by decide)
  | submit hpc | readSession hpc | nextRequestId hpc | lock hpc | refuse hpc | writeFails hpc =>
    have hother := h.other hpc nofun
    exact Settled.move h ⟨rfl, id, rfl⟩ fun hhand => absurd hhand hother
  | write hpc => exact Settled.move h ⟨rfl, id, rfl⟩ fun _ => ⟨_, _, _, rfl⟩
  | insert hpc | unlock hpc | leave hpc =>
    exact Settled.move h ⟨rfl, id, rfl⟩ fun hhand => absurd hhand hzero
  | @countUnsent s hpc =>
    have hother : ({s.id} : Multiset Nat) ≠ {share.id} := h.other hpc nofun
    refine Settled.move h ⟨rfl, fun hmem => ?_, rfl⟩ fun hhand => absurd hhand hzero
    refine (List.mem_cons.mp hmem).resolve_left fun heq => hother ?_
    rw [(Prod.mk.inj heq).1]

/-- The receiver counts no share as unsent. -/
def NoUnsent (pc : ReceiverPc) : Prop := ∀ share fate lines, pc = .counting share fate lines → fate ≠ .unsent

theorem noUnsent_receiver (h : NoUnsent st.receiver) (hs : ReceiverMove decode st st') :
    NoUnsent st'.receiver := by
  cases hs with
  | @remove msg lines rpcId entry hpc hentry =>
    intro share fate lines' heq
    have hfate : replyFate msg = fate := (ReceiverPc.counting.inj heq).2.1
    rw [← hfate]
    unfold replyFate
    split
    · decide
    · split <;> decide
  | keepalive hpc => exact h
  | _ =>
    intro share fate lines heq
    cases heq

theorem settled_receiver {share : Share} (h : Settled st share) (hno : NoUnsent st.receiver)
    (hs : ReceiverMove decode st st') : Settled st' share := by
  cases hs with
  | @count s fate lines hpc =>
    refine h.frame ⟨rfl, fun hmem => ?_, rfl⟩
    refine (List.mem_cons.mp hmem).resolve_left fun heq => ?_
    exact hno s fate lines hpc (Prod.mk.inj heq).2.symm
  | countLost hpc =>
    refine h.frame ⟨rfl, fun hmem => ?_, rfl⟩
    exact (List.mem_cons.mp hmem).resolve_left fun heq => absurd (Prod.mk.inj heq).2 (by decide)
  | _ => exact h.frame ⟨rfl, id, rfl⟩

/-! ## The invariant -/

/-- The receiver replaces the connection: it has not cleared the stream yet. -/
def TearingDown (pc : ReceiverPc) : Prop := pc = .clearJob .reconnect ∨ pc = .clearStream .reconnect

/-- What holds in a run whose steps are careful. A send that failed is a keepalive, and its connection is
    being replaced or is no longer installed. -/
structure WireInv (w : WireState n) : Prop where
  conns : ∀ s ∈ w.sent, s.conn ≤ w.state.connections
  failed : ∀ s ∈ w.sent, s.outcome ≠ .done → (∃ rpcId sid, s.content = .keepalive rpcId sid) ∧
    (w.state.stream = some s.conn → TearingDown w.state.receiver)
  last : w.sent.Pairwise fun s t => s.conn = t.conn → s.outcome = .done
  settled : ∀ s ∈ w.sent, ∀ rpcId sid share, s.content = .submit rpcId sid share →
    Settled w.state share
  receiver : NoUnsent w.state.receiver

/-- A failed send stays behind when the receiver goes on. -/
theorem tearingDown_receiver {conn : Nat} (hconn : conn ≤ st.connections)
    (h : st.stream = some conn → TearingDown st.receiver) (hs : ReceiverMove decode st st') :
    st'.stream = some conn → TearingDown st'.receiver := by
  have hnot : ∀ pc, st.receiver = pc → ¬ TearingDown pc → st.stream ≠ some conn := by
    intro pc hpc hpc' hstream
    exact hpc' (hpc ▸ h hstream)
  cases hs with
  | connect hpc =>
    intro hstream
    have := Option.some.inj hstream
    omega
  | clearStream | retry | reloginFails => exact nofun
  | @clearJob task hpc =>
    refine fun hstream => .inr ?_
    rcases h hstream with hold | hold
    · obtain rfl := ReceiverPc.clearJob.inj (hpc.symm.trans hold)
      rfl
    · exact absurd (hpc.symm.trans hold) nofun
  | keepalive hpc => exact h
  | overflow | lose | keepaliveFails => exact fun _ => .inl rfl
  | read hpc | readInFlight hpc | rotate hpc | defer hpc | handled hpc | unparsed hpc | job hpc
  | unmatched hpc | remove hpc | count hpc | drain hpc | countLost hpc | drained hpc | giveUp hpc
  | connectFails hpc | login hpc | refused hpc | unanswered hpc | unconnected hpc | setSession hpc
  | setJob hpc | loggedIn hpc | startFails hpc =>
    refine fun hstream => absurd hstream (hnot _ hpc ?_)
    rintro (h | h) <;> cases h

/-- A worker's step leaves the connection and the receiver alone. -/
theorem worker_frame {i : Fin n} (hs : WorkerMove st i st') :
    st'.stream = st.stream ∧ st'.receiver = st.receiver ∧ st'.connections = st.connections := by
  cases hs <;> exact ⟨rfl, rfl, rfl⟩

/-- What a step preserves of the requests that are written before it. -/
theorem wireInv_move {w : WireState n} {a : Action n} (h : WireInv w)
    (hs : step decode w.state a = some st') : WireInv { state := st', sent := w.sent } := by
  rcases a with ⟨i, a⟩ | a
  · have hmove := workerMove_of_step hs
    obtain ⟨hstream, hreceiver, hconnections⟩ := worker_frame hmove
    refine ⟨?_, ?_, h.last, ?_, ?_⟩
    · rw [show WireState.state ⟨st', w.sent⟩ = st' from rfl, hconnections]
      exact h.conns
    · intro s hsent hfail
      rw [show WireState.state ⟨st', w.sent⟩ = st' from rfl, hstream, hreceiver]
      exact h.failed s hsent hfail
    · intro s hsent rpcId sid share hcontent
      exact settled_worker (h.settled s hsent rpcId sid share hcontent) hmove
    · rw [show WireState.state ⟨st', w.sent⟩ = st' from rfl, hreceiver]
      exact h.receiver
  · have hmove := receiverMove_of_step hs
    refine ⟨?_, ?_, h.last, ?_, noUnsent_receiver h.receiver hmove⟩
    · intro s hsent
      refine Nat.le_trans (h.conns s hsent) ?_
      cases hmove <;> first | exact le_rfl | exact Nat.le_succ _
    · intro s hsent hfail
      obtain ⟨hkeepalive, htear⟩ := h.failed s hsent hfail
      exact ⟨hkeepalive, tearingDown_receiver (h.conns s hsent) htear hmove⟩
    · intro s hsent rpcId sid share hcontent
      exact settled_receiver (h.settled s hsent rpcId sid share hcontent) h.receiver hmove

/-- What a request preserves that is written to a connection on which nothing has failed. -/
theorem wireInv_send {w : WireState n} {s : Send} (h : WireInv w)
    (hconn : s.conn ≤ w.state.connections) (hnone : ∀ t ∈ w.sent, t.conn = s.conn → t.outcome = .done)
    (hfailed : s.outcome ≠ .done → (∃ rpcId sid, s.content = .keepalive rpcId sid) ∧
      TearingDown w.state.receiver)
    (hsettled : ∀ rpcId sid share, s.content = .submit rpcId sid share → Settled w.state share) :
    WireInv { w with sent := w.sent ++ [s] } := by
  refine ⟨?_, ?_, ?_, ?_, h.receiver⟩
  · intro t ht
    rcases List.mem_append.mp ht with ht | ht
    · exact h.conns t ht
    · obtain rfl := List.mem_singleton.mp ht
      exact hconn
  · intro t ht hfail
    rcases List.mem_append.mp ht with ht | ht
    · exact h.failed t ht hfail
    · obtain rfl := List.mem_singleton.mp ht
      obtain ⟨hkeepalive, htear⟩ := hfailed hfail
      exact ⟨hkeepalive, fun _ => htear⟩
  · refine List.pairwise_append.mpr ⟨h.last, List.pairwise_singleton _ _, ?_⟩
    intro t ht u hu hsame
    obtain rfl := List.mem_singleton.mp hu
    exact hnone t ht hsame
  · intro t ht
    rcases List.mem_append.mp ht with ht | ht
    · exact h.settled t ht
    · obtain rfl := List.mem_singleton.mp ht
      exact hsettled

/-! ## Steps and runs -/

/-- The worker writes its share to the installed connection. -/
theorem nextSubmit_eq {i : Fin n} {conn : Nat} {content : Content}
    (h : st.nextSubmit i = some (conn, content)) : ∃ share sid rpcId,
      st.workers i = .locked share sid rpcId ∧ st.stream = some conn ∧
      share.job.generation = st.generation ∧ content = .submit rpcId sid share := by
  unfold State.nextSubmit at h
  split at h
  next share sid rpcId conn' hpc hstream =>
    split at h
    next hgen =>
      obtain ⟨rfl, rfl⟩ := Prod.mk.inj (Option.some.inj h)
      exact ⟨share, sid, rpcId, hpc, hstream, hgen, rfl⟩
    next => cases h
  next => cases h

/-- The step that writes a share. -/
theorem workerStep_write {i : Fin n} {conn rpcId : Nat} {sid : String} {share : Share}
    (h : st.nextSubmit i = some (conn, .submit rpcId sid share)) :
    workerStep st i (.write true) = some ((st.emit (.submit conn rpcId sid share)).setWorker i
      (.written share rpcId conn)) := by
  obtain ⟨share', sid', rpcId', hpc, hstream, hgen, hcontent⟩ := nextSubmit_eq h
  obtain ⟨rfl, rfl, rfl⟩ := Content.submit.inj hcontent
  simp only [workerStep, hpc, hstream, hgen, ne_eq, not_true, if_false, if_true]

/-- A share is written for good when its request is. -/
theorem settled_written (h : Balanced st) {i : Fin n} {share : Share} {rpcId conn : Nat}
    (hhand : (st.workers i).inHand = {share.id}) {e : Event} :
    Settled ((st.emit e).setWorker i (.written share rpcId conn)) share := by
  obtain ⟨hfound, hcounted, hother⟩ := h.count_inHand hhand
  refine ⟨hfound, fun hmem => hcounted ?_, ?_⟩
  · exact Multiset.mem_coe.mpr (List.mem_map.mpr ⟨_, hmem, rfl⟩)
  · intro j hj
    rw [workers_setWorker] at hj ⊢
    split
    · exact ⟨_, _, _, rfl⟩
    next hji =>
      rw [if_neg hji] at hj
      exact absurd hj (hother j hji)

theorem wireInv_submit {w w' : WireState n} {i : Fin n} {outcome : WriteOutcome} (h : WireInv w)
    (hreach : Reachable (step decode) (.init n) w.state) (hcareful : Careful w (.submit i outcome))
    (hs : wireStep decode w (.submit i outcome) = some w') : WireInv w' := by
  obtain ⟨st, hstep, rfl⟩ := step_of_wireStep hs
  have hmove := wireInv_move h hstep
  rw [WireAction.sends]
  cases hnext : w.state.nextSubmit i with
  | none =>
    rw [Option.toList_none, List.map_nil, List.append_nil]
    exact hmove
  | some next =>
    obtain ⟨conn, content⟩ := next
    obtain ⟨rfl, hkeepalives⟩ := hcareful conn content hnext
    obtain ⟨share, sid, rpcId, hpc, hstream, _, rfl⟩ := nextSubmit_eq hnext
    have hinv := session_reachable hreach
    obtain ⟨hbal, _⟩ := ledger_reachable hreach
    obtain rfl := Option.some.inj ((workerStep_write hnext).symm.trans hstep)
    refine wireInv_send hmove ?_ ?_ (fun hne => absurd rfl hne) ?_
    · show conn ≤ w.state.connections
      rw [← hinv.connections]
      exact (hinv.stream conn hstream).le
    · intro t ht hconn
      -- an earlier write that failed was a keepalive, and a careful submit does not follow one
      by_contra hfail
      obtain ⟨⟨rpcId', sid', hcontent⟩, _⟩ := h.failed t ht hfail
      exact hfail (hkeepalives t (List.mem_filter.mpr ⟨ht, decide_eq_true hconn⟩) rpcId' sid' hcontent)
    · intro rpcId' sid' share' hcontent
      obtain ⟨_, _, rfl⟩ := Content.submit.inj hcontent
      exact settled_written hbal (by rw [hpc]; rfl)

/-- The receiver keeps the connection alive and looks at the schedule between its steps. -/
theorem ready_of_step {a : ReceiverAction} (h : receiverStep decode st a = some st')
    (ha : a = .readInFlight ∨ ∃ ok, a = .keepalive ok) : st.receiver = .ready := by
  unfold receiverStep at h
  split at h <;> first
    | assumption
    | (rcases ha with ha | ⟨_, ha⟩ <;> cases ha; done)
    | cases h

/-- A keepalive that fails makes the receiver replace the connection. -/
theorem keepalive_step {ok : Bool} (h : receiverStep decode st (.keepalive ok) = some st') :
    st.receiver = .ready ∧ st'.connections = st.connections ∧
      (ok = false → st'.receiver = .clearJob .reconnect) := by
  have hready := ready_of_step h (.inr ⟨ok, rfl⟩)
  refine ⟨hready, ?_⟩
  simp only [receiverStep, hready] at h
  split at h
  · split at h
    · obtain rfl := Option.some.inj h
      exact ⟨rfl, fun _ => rfl⟩
    · cases ok with
      | true =>
        obtain rfl := Option.some.inj h
        exact ⟨rfl, nofun⟩
      | false =>
        obtain rfl := Option.some.inj h
        exact ⟨rfl, fun _ => rfl⟩
  · cases h

theorem wireInv_keepalive {w w' : WireState n} {outcome : WriteOutcome} (h : WireInv w)
    (hreach : Reachable (step decode) (.init n) w.state)
    (hs : wireStep decode w (.keepalive outcome) = some w') : WireInv w' := by
  obtain ⟨st, hstep, rfl⟩ := step_of_wireStep hs
  have hmove := wireInv_move h hstep
  obtain ⟨hready, hconnections, hfails⟩ := keepalive_step hstep
  rw [WireAction.sends, State.nextKeepalive]
  cases hstream : w.state.stream with
  | none =>
    rw [Option.map_none, Option.toList_none, List.map_nil, List.append_nil]
    exact hmove
  | some conn =>
    have hinv := session_reachable hreach
    refine wireInv_send hmove ?_ ?_ ?_ (fun _ _ _ hcontent => by cases hcontent)
    · show conn ≤ st.connections
      rw [hconnections, ← hinv.connections]
      exact (hinv.stream conn hstream).le
    · intro t ht hconn
      -- after a write that failed the receiver is not back in its loop while the connection stands
      by_contra hfail
      obtain ⟨_, htear⟩ := h.failed t ht hfail
      have hsame : t.conn = conn := hconn
      rcases htear (by rw [hstream, hsame]) with hpc | hpc <;> rw [hready] at hpc <;> cases hpc
    · intro hne
      refine ⟨⟨_, _, rfl⟩, .inl (hfails ?_)⟩
      cases outcome with
      | done => exact absurd rfl hne
      | _ => rfl

/-- What a careful step preserves. -/
theorem wireInv_step {w w' : WireState n} {a : WireAction n} (h : WireInv w)
    (hreach : Reachable (step decode) (.init n) w.state) (hcareful : Careful w a)
    (hs : wireStep decode w a = some w') : WireInv w' := by
  cases a with
  | submit i outcome => exact wireInv_submit h hreach hcareful hs
  | keepalive outcome => exact wireInv_keepalive h hreach hs
  | other a =>
    obtain ⟨st, hstep, rfl⟩ := step_of_wireStep hs
    rw [WireAction.sends, List.append_nil]
    exact wireInv_move h hstep

theorem wireInv_init : WireInv (WireState.init n) :=
  ⟨nofun, nofun, .nil, nofun, fun _ _ _ heq => by cases heq⟩

/-- **Wire framing holds in the runs that are careful**: if no write or flush of a submission fails and no
    submission is written to a connection whose keepalive has failed, then on every connection what arrives
    is framed, nothing follows a failed write, and no share that is counted as unsent arrives in full. -/
theorem wire_framed {as : List (WireAction n)} {w : WireState n}
    (hrun : runs (wireStep decode) (.init n) as = some w)
    (hcareful : Along (wireStep decode) Careful (.init n) as) (conn : Nat) : WireFramed w conn := by
  obtain ⟨hinv, _⟩ : WireInv w ∧ Reachable (step decode) (.init n) w.state := by
    refine runs_invariant (P := Careful)
      (Q := fun w => WireInv w ∧ Reachable (step decode) (.init n) w.state) hrun hcareful
      ⟨wireInv_init, .refl⟩ ?_
    rintro s a s' ⟨hinv, hreach⟩ hcare hs
    refine ⟨wireInv_step hinv hreach hcare hs, ?_⟩
    obtain ⟨st, hstep, rfl⟩ := step_of_wireStep hs
    exact hreach.tail hstep
  have hlast : (w.on conn).Pairwise fun s _ => s.outcome = .done := by
    refine (hinv.last.filter _).imp_of_mem ?_
    intro s t hs ht hdone
    have hconns := of_decide_eq_true (List.mem_filter.mp hs).2
    have hconnt := of_decide_eq_true (List.mem_filter.mp ht).2
    exact hdone (hconns.trans hconnt.symm)
  refine ⟨framed_of_pairwise (List.pairwise_map.mpr (hlast.imp fun hdone => ?_)), hlast, ?_⟩
  · show WriteOutcome.ok _ = true
    rw [hdone]
    rfl
  · intro s hs rpcId sid share hcontent hunsent
    exact absurd hunsent (hinv.settled s (List.mem_of_mem_filter hs) rpcId sid share hcontent).counted

/-! ## What goes wrong -/

/-- A request starts with a brace and a quote. -/
theorem line_eq (r : JsonRpcRequest) : ∃ rest, r.line = 0x7b :: 0x22 :: rest := ⟨_, rfl⟩

/-- Bytes that start with two braces are no whole request, and no part of one. -/
theorem not_framed_of_braces {sends : List Send} {rest : List Byte}
    (h : arrived (sends.map Send.delivery) = 0x7b :: 0x7b :: rest) :
    ¬ Framed (sends.map Send.delivery) := by
  rintro ⟨whole, cut, hsub, harrived, hcut⟩
  rw [h] at harrived
  cases whole with
  | nil =>
    rcases hcut with rfl | ⟨d, hd, ⟨more, hprefix⟩, _⟩
    · cases harrived
    · obtain ⟨s, _, rfl⟩ := List.mem_map.mp hd
      obtain ⟨tail, hline⟩ := line_eq s.content.request
      have hbytes : 0x7b :: 0x7b :: rest ++ more = 0x7b :: 0x22 :: tail := by
        rw [harrived]
        exact hprefix.trans hline
      cases hbytes
  | cons d whole =>
    obtain ⟨s, _, rfl⟩ := List.mem_map.mp (hsub List.mem_cons_self)
    obtain ⟨tail, hline⟩ := line_eq s.content.request
    have hmessage : s.delivery.message = 0x7b :: 0x22 :: tail := hline
    rw [List.flatMap_cons, hmessage] at harrived
    cases harrived

/-- One byte of a submission is accepted, and the next submission follows on the same connection. -/
def gluedRun : List (WireAction 1) :=
  (sampleRun.take 11).map .other ++
    ([.submit soleWorker (.writeFails 1), .other (.worker soleWorker .countUnsent),
      .other (.worker soleWorker .leave), .other (.worker soleWorker .getWork),
      .other (.worker soleWorker (.find "n2" "r2")), .other (.worker soleWorker .submit),
      .other (.worker soleWorker .readSession), .other (.worker soleWorker .nextRequestId),
      .other (.worker soleWorker .lock), .submit soleWorker .done] : List (WireAction 1))

/-- A request that is written after a cut one is lost with it: what arrives is not framed. -/
theorem glued_submissions : ∃ w : WireState 1,
    runs (wireStep fun _ => none) (WireState.init 1) gluedRun = some w ∧
      ¬ Framed ((w.on 1).map Send.delivery) ∧ ¬ WireFramed w 1 := by
  obtain ⟨w, hrun, rest, hrest⟩ : ∃ w : WireState 1,
      runs (wireStep fun _ => none) (WireState.init 1) gluedRun = some w ∧
      ∃ rest, arrived ((w.on 1).map Send.delivery) = 0x7b :: 0x7b :: rest := ⟨_, rfl, _, rfl⟩
  have hnot := not_framed_of_braces hrest
  exact ⟨w, hrun, hnot, fun h => hnot h.framed⟩

/-- A run with one submission is careful. -/
theorem wire_framed_sample : ∃ w : WireState 1,
    runs (wireStep fun _ => none) (WireState.init 1)
      ((sampleRun.take 11).map .other ++ [.submit 0 .done]) = some w ∧
      (w.on 1).length = 1 ∧ WireFramed w 1 := by
  obtain ⟨w, hrun, hlen⟩ : ∃ w : WireState 1, runs (wireStep fun _ => none) (WireState.init 1)
      ((sampleRun.take 11).map .other ++ [.submit 0 .done]) = some w ∧ (w.on 1).length = 1 :=
    ⟨_, rfl, rfl⟩
  refine ⟨w, hrun, hlen, wire_framed hrun ?_ 1⟩
  obtain ⟨w₁, hw₁, hsent⟩ : ∃ w₁ : WireState 1,
      runs (wireStep fun _ => none) (WireState.init 1) ((sampleRun.take 11).map .other) = some w₁ ∧
      w₁.sent = [] := ⟨_, rfl, rfl⟩
  refine (along_append hw₁).mpr ⟨along_of_forall ?_, ?_, fun _ _ => trivial⟩
  · intro a ha
    obtain ⟨b, _, rfl⟩ := List.mem_map.mp ha
    exact fun _ => trivial
  · intro conn content _
    refine ⟨rfl, fun s hs => ?_⟩
    rw [WireState.on, hsent] at hs
    exact absurd hs List.not_mem_nil

end Pool
end MinerTim
