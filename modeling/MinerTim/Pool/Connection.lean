import Mathlib.Data.List.AList
import MinerTim.Pool.Message

/-!
# `Pool.Connection` — the pool connection and its threads

Workers and the receiver thread share a `PoolConnection`. One step is one access to shared state by one
thread: an atomic operation, or everything done under one lock where no other lock is taken inside. The
stream lock is explicit, since `write_and_register` takes the lock of `pending_shares` under it.

What the code does not decide is the argument of an action: what the pool sends, which connections and
writes fail, which timers have run out, which verdict a share gets. `decode` stands for trimming a line
and for `serde_json::from_str`.

The receiver's part starts in `main`, which connects and logs in once before it spawns the receiver. The
counters and the generation are naturals. Three fields are histories that the code does not keep, and no
step reads them: the number of connections installed, the trace, and the list of counted shares.
-/

namespace MinerTim
namespace Pool

open Miner

/-- A byte, with the connection it was received on. -/
abbrev TaggedByte := Nat × Byte

/-- A share that a worker found, numbered in the order of finding. -/
structure Share where
  id : Nat
  job : Job
  nonce : String
  result : String
deriving DecidableEq

/-- A submission that is written and not answered, with the connection it was written on. -/
structure PendingShare where
  share : Share
  conn : Nat
deriving DecidableEq

/-- `pending_shares`, keyed by request id. -/
abbrev PendingShares := AList fun _ : Nat => PendingShare

/-- The shares that wait for an answer. -/
def PendingShares.shares (pending : PendingShares) : List Share :=
  pending.entries.map fun e => e.2.share

/-- What the pool sees and says. -/
inductive Event where
  /-- The reply that a connection gave to `login`. -/
  | loginReply (conn : Nat) (reply : Json)
  /-- A line that the receiver handles. -/
  | line (bytes : List TaggedByte)
  /-- A `submit` request that is written to a connection, whether or not the write succeeds. -/
  | submit (conn rpcId : Nat) (sessionId : String) (share : Share)

/-! ## Threads -/

/-- Where a worker is: mining, or in `submit_share` with a share. -/
inductive WorkerPc where
  /-- Hashing, on the job of the last `get_work`. -/
  | mining (job : Option Job)
  /-- A share is counted as found; its verdict comes next. -/
  | found (share : Share)
  /-- In `submit_share`, before the session id is read. -/
  | entered (share : Share)
  /-- Before the request id is drawn. -/
  | session (share : Share) (sessionId : String)
  /-- In `write_and_register`, before the stream lock. -/
  | requesting (share : Share) (sessionId : String) (rpcId : Nat)
  /-- Holds the stream lock. -/
  | locked (share : Share) (sessionId : String) (rpcId : Nat)
  /-- Holds the stream lock; the request is written to a connection. -/
  | written (share : Share) (rpcId conn : Nat)
  /-- Holds the stream lock; the entry is inserted. -/
  | registered
  /-- `write_and_register` returned an error; the share is to be counted. -/
  | refused (share : Share)
  /-- About to leave `submit_share`. -/
  | leaving

/-- Who called `connect` and `login`. -/
inductive Task where
  | start
  | reconnect
  | relogin
deriving DecidableEq

/-- Where the receiver is. -/
inductive ReceiverPc where
  /-- Between steps of `receiver_loop`. -/
  | ready
  /-- In `rotation_settled`, which has read `submits_in_flight`. -/
  | settling (inFlight : Nat)
  /-- Handling lines. -/
  | handling (lines : List (List TaggedByte))
  /-- In `handle_pool_message`, after the job part. -/
  | replying (msg : Json) (lines : List (List TaggedByte))
  /-- In `handle_pool_message`: an entry is removed, and its share is to be counted. -/
  | counting (share : Share) (fate : Fate) (lines : List (List TaggedByte))
  /-- In `reconnect` or `relogin_as`: clear the job. -/
  | clearJob (task : Task)
  /-- Clear the stream. -/
  | clearStream (task : Task)
  /-- In `drain_pending_shares`. -/
  | draining (task : Task)
  /-- In `drain_pending_shares`: shares that are removed and to be counted. -/
  | countLost (task : Task) (shares : List Share)
  /-- In `connect`. -/
  | connecting (task : Task)
  /-- In `login`, before the request. -/
  | loggingIn (task : Task)
  /-- In `login`, with a session id. -/
  | setSession (task : Task) (sessionId : String) (reply : Json)
  /-- In `login`, after the session id is set. -/
  | setJob (task : Task) (reply : Json)
  /-- `login` returned. -/
  | loggedIn (task : Task)
  /-- `connect` or `login` returned an error. -/
  | failed (task : Task)
  /-- The thread has ended. -/
  | stopped

/-! ## State -/

/-- The share counters; `shares_found` is `State.found`. -/
structure Counters where
  verifyFailures : Nat
  accepted : Nat
  rejected : Nat
  lost : Nat
  unsent : Nat
deriving DecidableEq

namespace Counters

/-- All zero. -/
def zero : Counters := { verifyFailures := 0, accepted := 0, rejected := 0, lost := 0, unsent := 0 }

/-- `fetch_add(1)` on one counter. -/
def bump (c : Counters) : Fate → Counters
  | .verifyFailure => { c with verifyFailures := c.verifyFailures + 1 }
  | .accepted => { c with accepted := c.accepted + 1 }
  | .rejected => { c with rejected := c.rejected + 1 }
  | .lost => { c with lost := c.lost + 1 }
  | .unsent => { c with unsent := c.unsent + 1 }

/-- The counter of a fate. -/
def get (c : Counters) : Fate → Nat
  | .verifyFailure => c.verifyFailures
  | .accepted => c.accepted
  | .rejected => c.rejected
  | .lost => c.lost
  | .unsent => c.unsent

/-- All shares that are counted. -/
def total (c : Counters) : Nat :=
  c.verifyFailures + c.accepted + c.rejected + c.lost + c.unsent

end Counters

/-- The connection, the threads, and what happened so far. -/
structure State (n : Nat) where
  /-- The installed connection, by number. -/
  stream : Option Nat
  /-- The worker that holds the stream lock. -/
  streamLock : Option (Fin n)
  generation : Nat
  sessionId : String
  currentJob : Option Job
  requestId : Nat
  pendingShares : PendingShares
  submitsInFlight : Nat
  found : Nat
  counters : Counters
  workers : Fin n → WorkerPc
  receiver : ReceiverPc
  /-- The `pending` buffer of `receiver_loop`. -/
  buffer : List TaggedByte
  /-- How many connections were installed. -/
  connections : Nat
  trace : List Event
  /-- The shares that are counted, with their counters, last first. -/
  counted : List (Nat × Fate)

/-- Before `main` connects. -/
def State.init (n : Nat) : State n where
  stream := none
  streamLock := none
  generation := 0
  sessionId := ""
  currentJob := none
  requestId := 1
  pendingShares := ∅
  submitsInFlight := 0
  found := 0
  counters := .zero
  workers := fun _ => .mining none
  receiver := .connecting .start
  buffer := []
  connections := 0
  trace := []
  counted := []

namespace State

variable {n : Nat}

/-- A worker at another point. -/
def setWorker (st : State n) (i : Fin n) (pc : WorkerPc) : State n :=
  { st with workers := Function.update st.workers i pc }

/-- The receiver at another point. -/
def setReceiver (st : State n) (pc : ReceiverPc) : State n := { st with receiver := pc }

/-- An event on the trace. -/
def emit (st : State n) (e : Event) : State n := { st with trace := e :: st.trace }

/-- Count a share. -/
def count (st : State n) (share : Share) (fate : Fate) : State n :=
  { st with counters := st.counters.bump fate, counted := (share.id, fate) :: st.counted }

end State

/-! ## Workers -/

/-- What a worker does next, with what it is given. -/
inductive WorkerAction where
  | getWork
  | find (nonce result : String)
  | withhold
  | submit
  | readSession
  | nextRequestId
  | lock
  | write (ok : Bool)
  | insert
  | unlock
  | countUnsent
  | leave
deriving DecidableEq

variable {n : Nat}

/-- One step of worker `i`: `worker_loop` from `get_work` to the end of `submit_share`. -/
def workerStep (st : State n) (i : Fin n) (a : WorkerAction) : Option (State n) :=
  match st.workers i, a with
  | .mining _, .getWork => some (st.setWorker i (.mining st.currentJob))
  | .mining (some job), .find nonce result =>
    some ({ st with found := st.found + 1 }.setWorker i (.found { id := st.found, job, nonce, result }))
  | .found share, .withhold => some ((st.count share .verifyFailure).setWorker i (.mining none))
  | .found share, .submit =>
    some ({ st with submitsInFlight := st.submitsInFlight + 1 }.setWorker i (.entered share))
  | .entered share, .readSession => some (st.setWorker i (.session share st.sessionId))
  | .session share sid, .nextRequestId =>
    some ({ st with requestId := st.requestId + 1 }.setWorker i (.requesting share sid st.requestId))
  | .requesting share sid rpcId, .lock =>
    if st.streamLock = none then
      some ({ st with streamLock := some i }.setWorker i (.locked share sid rpcId))
    else none
  | .locked share sid rpcId, .write ok =>
    match st.stream with
    -- "Not connected"; the guard is dropped on return
    | none => some ({ st with streamLock := none }.setWorker i (.refused share))
    | some conn =>
      if share.job.generation ≠ st.generation then
        -- "Stale job"
        some ({ st with streamLock := none }.setWorker i (.refused share))
      else if ok then
        some ((st.emit (.submit conn rpcId sid share)).setWorker i (.written share rpcId conn))
      else
        some (({ st with streamLock := none }.emit (.submit conn rpcId sid share)).setWorker i
          (.refused share))
  | .written share rpcId conn, .insert =>
    some ({ st with
      pendingShares := st.pendingShares.insert rpcId { share, conn } }.setWorker i .registered)
  | .registered, .unlock => some ({ st with streamLock := none }.setWorker i .leaving)
  | .refused share, .countUnsent => some ((st.count share .unsent).setWorker i .leaving)
  | .leaving, .leave =>
    some ({ st with submitsInFlight := st.submitsInFlight - 1 }.setWorker i (.mining none))
  | _, _ => none

/-! ## The receiver -/

/-- `MAX_LINE_BYTES`. -/
def MAX_LINE_BYTES : Nat := 1048576

/-- Split off every complete line, newline included; `line` is the unfinished one so far. -/
def splitLines (line : List TaggedByte) :
    List TaggedByte → List (List TaggedByte) × List TaggedByte
  | [] => ([], line)
  | b :: bytes =>
    if b.2 = 10 then
      let rest := splitLines [] bytes
      ((line ++ [b]) :: rest.1, rest.2)
    else splitLines (line ++ [b]) bytes

/-- `take_complete_lines`: the lines and what is left of the buffer, unless that is too long. -/
def takeCompleteLines (pending : List TaggedByte) :
    Option (List (List TaggedByte) × List TaggedByte) :=
  let split := splitLines [] pending
  if MAX_LINE_BYTES < split.2.length then none else some split

/-- `rotation_may_proceed`, with whether the wait has reached its limit. -/
def rotationMayProceed (inFlight pending : Nat) (waited : Bool) : Bool :=
  (inFlight == 0 && pending == 0) || waited

/-- What the receiver does next, with what it is given. -/
inductive ReceiverAction where
  /-- A read that returns bytes. -/
  | read (chunk : List Byte)
  /-- A read that ends or fails, or the silence limit. -/
  | lose
  | keepalive (ok : Bool)
  | readInFlight
  | rotate (waited : Bool)
  /-- The only step where it stands. -/
  | next
  /-- `reconnect` finds no address or no wallet. -/
  | giveUp
  | connect (ok : Bool)
  /-- The reply to `login`, unless the request fails. -/
  | login (reply : Option Json)

variable (decode : List Byte → Option Json)

/-- One step of the receiver. -/
def receiverStep (st : State n) (a : ReceiverAction) : Option (State n) :=
  match st.receiver, a with
  | .ready, .read chunk =>
    match st.stream with
    | some conn =>
      if st.streamLock = none then
        match takeCompleteLines (st.buffer ++ chunk.map (conn, ·)) with
        | some (lines, rest) => some ({ st with buffer := rest }.setReceiver (.handling lines))
        | none => some ({ st with buffer := [] }.setReceiver (.clearJob .reconnect))
      else none
    | none => none
  | .ready, .lose => some (st.setReceiver (.clearJob .reconnect))
  | .ready, .keepalive ok =>
    if st.streamLock = none then
      match st.stream with
      | none => some (st.setReceiver (.clearJob .reconnect))
      | some _ =>
        if ok then some { st with requestId := st.requestId + 1 }
        else some ({ st with requestId := st.requestId + 1 }.setReceiver (.clearJob .reconnect))
    else none
  | .ready, .readInFlight => some (st.setReceiver (.settling st.submitsInFlight))
  | .settling inFlight, .rotate waited =>
    if rotationMayProceed inFlight st.pendingShares.entries.length waited then
      some (st.setReceiver (.clearJob .relogin))
    else some (st.setReceiver .ready)
  | .handling [], .next => some (st.setReceiver .ready)
  | .handling (line :: lines), .next =>
    match decode (line.map (·.2)) with
    | none => some ((st.emit (.line line)).setReceiver (.handling lines))
    | some msg =>
      some (({ st with
        currentJob := (messageJob msg st.generation).or st.currentJob }.emit (.line line)).setReceiver
          (.replying msg lines))
  | .replying msg lines, .next =>
    match replyId msg with
    | none => some (st.setReceiver (.handling lines))
    | some rpcId =>
      match st.pendingShares.lookup rpcId with
      | none => some (st.setReceiver (.handling lines))
      | some entry =>
        some ({ st with pendingShares := st.pendingShares.erase rpcId }.setReceiver
          (.counting entry.share (replyFate msg) lines))
  | .counting share fate lines, .next => some ((st.count share fate).setReceiver (.handling lines))
  | .clearJob task, .next => some ({ st with currentJob := none }.setReceiver (.clearStream task))
  | .clearStream task, .next =>
    if st.streamLock = none then some ({ st with stream := none }.setReceiver (.draining task))
    else none
  | .draining task, .next =>
    some ({ st with pendingShares := ∅ }.setReceiver
      (.countLost task st.pendingShares.shares))
  | .countLost task (share :: shares), .next =>
    some ((st.count share .lost).setReceiver (.countLost task shares))
  | .countLost task [], .next => some (st.setReceiver (.connecting task))
  | .countLost .reconnect [], .giveUp => some (st.setReceiver .stopped)
  | .connecting task, .connect ok =>
    if ok then
      if st.streamLock = none then
        some ({ st with
          stream := some (st.connections + 1), connections := st.connections + 1
          generation := st.generation + 1 }.setReceiver (.loggingIn task))
      else none
    else some (st.setReceiver (.failed task))
  | .loggingIn task, .login reply =>
    if st.streamLock = none then
      match st.stream, reply with
      | some conn, some reply =>
        let st := { st with requestId := st.requestId + 1 }.emit (.loginReply conn reply)
        match loginSession reply with
        | some sid => some (st.setReceiver (.setSession task sid reply))
        | none => some (st.setReceiver (.failed task))
      | some _, none => some ({ st with requestId := st.requestId + 1 }.setReceiver (.failed task))
      | none, _ => some (st.setReceiver (.failed task))
    else none
  | .setSession task sid reply, .next =>
    some ({ st with sessionId := sid }.setReceiver (.setJob task reply))
  | .setJob task reply, .next =>
    some ({ st with
      currentJob := (loginJob reply st.generation).or st.currentJob }.setReceiver (.loggedIn task))
  | .loggedIn _, .next => some ({ st with buffer := [] }.setReceiver .ready)
  | .failed .start, .next => some (st.setReceiver .stopped)
  | .failed .reconnect, .next =>
    if st.streamLock = none then
      some ({ st with stream := none }.setReceiver (.connecting .reconnect))
    else none
  | .failed .relogin, .next =>
    if st.streamLock = none then some ({ st with stream := none }.setReceiver .ready)
    else none
  | _, _ => none

/-! ## The system -/

/-- A step of some thread. -/
inductive Action (n : Nat) where
  | worker (i : Fin n) (a : WorkerAction)
  | receiver (a : ReceiverAction)

/-- One step of the connection. -/
def step (st : State n) : Action n → Option (State n)
  | .worker i a => workerStep st i a
  | .receiver a => receiverStep decode st a

end Pool
end MinerTim
