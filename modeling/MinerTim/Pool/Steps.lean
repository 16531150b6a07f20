import MinerTim.Pool.Connection

/-!
# `Pool.Steps` — what a step can do

`WorkerMove` and `ReceiverMove` list the steps of `workerStep` and `receiverStep`, one constructor for each
way a step can end, with its guards and the state it leads to. The invariants are proved by cases on these.
-/

namespace MinerTim
namespace Pool

open Miner

variable {n : Nat}

/-- A step of worker `i`. -/
inductive WorkerMove (st : State n) (i : Fin n) : State n → Prop where
  | getWork {job : Option Job} (hpc : st.workers i = .mining job) :
      WorkerMove st i (st.setWorker i (.mining st.currentJob))
  | find {job : Job} {nonce result : String} (hpc : st.workers i = .mining (some job)) :
      WorkerMove st i ({ st with found := st.found + 1 }.setWorker i
        (.found { id := st.found, job, nonce, result }))
  | withhold {share : Share} (hpc : st.workers i = .found share) :
      WorkerMove st i ((st.count share .verifyFailure).setWorker i (.mining none))
  | submit {share : Share} (hpc : st.workers i = .found share) :
      WorkerMove st i ({ st with submitsInFlight := st.submitsInFlight + 1 }.setWorker i
        (.entered share))
  | readSession {share : Share} (hpc : st.workers i = .entered share) :
      WorkerMove st i (st.setWorker i (.session share st.sessionId))
  | nextRequestId {share : Share} {sid : String} (hpc : st.workers i = .session share sid) :
      WorkerMove st i ({ st with requestId := st.requestId + 1 }.setWorker i
        (.requesting share sid st.requestId))
  | lock {share : Share} {sid : String} {rpcId : Nat}
      (hpc : st.workers i = .requesting share sid rpcId) (hfree : st.streamLock = none) :
      WorkerMove st i ({ st with streamLock := some i }.setWorker i (.locked share sid rpcId))
  | refuse {share : Share} {sid : String} {rpcId : Nat} (hpc : st.workers i = .locked share sid rpcId)
      (hrefuse : st.stream = none ∨ share.job.generation ≠ st.generation) :
      WorkerMove st i ({ st with streamLock := none }.setWorker i (.refused share))
  | write {share : Share} {sid : String} {rpcId conn : Nat}
      (hpc : st.workers i = .locked share sid rpcId) (hstream : st.stream = some conn)
      (hgen : share.job.generation = st.generation) :
      WorkerMove st i ((st.emit (.submit conn rpcId sid share)).setWorker i (.written share rpcId conn))
  | writeFails {share : Share} {sid : String} {rpcId conn : Nat}
      (hpc : st.workers i = .locked share sid rpcId) (hstream : st.stream = some conn)
      (hgen : share.job.generation = st.generation) :
      WorkerMove st i (({ st with streamLock := none }.emit (.submit conn rpcId sid share)).setWorker i
        (.refused share))
  | insert {share : Share} {rpcId conn : Nat} (hpc : st.workers i = .written share rpcId conn) :
      WorkerMove st i ({ st with
        pendingShares := st.pendingShares.insert rpcId { share, conn } }.setWorker i .registered)
  | unlock (hpc : st.workers i = .registered) :
      WorkerMove st i ({ st with streamLock := none }.setWorker i .leaving)
  | countUnsent {share : Share} (hpc : st.workers i = .refused share) :
      WorkerMove st i ((st.count share .unsent).setWorker i .leaving)
  | leave (hpc : st.workers i = .leaving) :
      WorkerMove st i ({ st with submitsInFlight := st.submitsInFlight - 1 }.setWorker i (.mining none))

theorem workerMove_of_step {st st' : State n} {i : Fin n} {a : WorkerAction}
    (hs : workerStep st i a = some st') : WorkerMove st i st' := by
  unfold workerStep at hs
  split at hs
  next hpc =>
    obtain rfl := Option.some.inj hs
    exact .getWork hpc
  next hpc =>
    obtain rfl := Option.some.inj hs
    exact .find hpc
  next hpc =>
    obtain rfl := Option.some.inj hs
    exact .withhold hpc
  next hpc =>
    obtain rfl := Option.some.inj hs
    exact .submit hpc
  next hpc =>
    obtain rfl := Option.some.inj hs
    exact .readSession hpc
  next hpc =>
    obtain rfl := Option.some.inj hs
    exact .nextRequestId hpc
  next hpc =>
    -- the stream lock is taken only when it is free
    split at hs
    next hfree =>
      obtain rfl := Option.some.inj hs
      exact .lock hpc hfree
    next => cases hs
  next hpc =>
    -- under the lock: the stream must be there, and of the generation the share was found in
    split at hs
    next hstream =>
      obtain rfl := Option.some.inj hs
      exact .refuse hpc (.inl hstream)
    next conn hstream =>
      split at hs
      next hgen =>
        obtain rfl := Option.some.inj hs
        exact .refuse hpc (.inr hgen)
      next hgen =>
        split at hs
        · obtain rfl := Option.some.inj hs
          exact .write hpc hstream (not_not.mp hgen)
        · obtain rfl := Option.some.inj hs
          exact .writeFails hpc hstream (not_not.mp hgen)
  next hpc =>
    obtain rfl := Option.some.inj hs
    exact .insert hpc
  next hpc =>
    obtain rfl := Option.some.inj hs
    exact .unlock hpc
  next hpc =>
    obtain rfl := Option.some.inj hs
    exact .countUnsent hpc
  next hpc =>
    obtain rfl := Option.some.inj hs
    exact .leave hpc
  next => cases hs

variable (decode : List Byte → Option Json)

/-- A step of the receiver. -/
inductive ReceiverMove (st : State n) : State n → Prop where
  | read {chunk : List Byte} {conn : Nat} {lines : List (List TaggedByte)} {rest : List TaggedByte}
      (hpc : st.receiver = .ready) (hstream : st.stream = some conn) (hfree : st.streamLock = none)
      (hlines : takeCompleteLines (st.buffer ++ chunk.map (conn, ·)) = some (lines, rest)) :
      ReceiverMove st ({ st with buffer := rest }.setReceiver (.handling lines))
  | overflow (hpc : st.receiver = .ready) :
      ReceiverMove st ({ st with buffer := [] }.setReceiver (.clearJob .reconnect))
  | lose (hpc : st.receiver = .ready) :
      ReceiverMove st (st.setReceiver (.clearJob .reconnect))
  | keepalive (hpc : st.receiver = .ready) :
      ReceiverMove st { st with requestId := st.requestId + 1 }
  | keepaliveFails (hpc : st.receiver = .ready) :
      ReceiverMove st ({ st with requestId := st.requestId + 1 }.setReceiver (.clearJob .reconnect))
  | readInFlight (hpc : st.receiver = .ready) :
      ReceiverMove st (st.setReceiver (.settling st.submitsInFlight))
  | rotate {inFlight : Nat} {waited : Bool} (hpc : st.receiver = .settling inFlight)
      (hmay : rotationMayProceed inFlight st.pendingShares.entries.length waited = true) :
      ReceiverMove st (st.setReceiver (.clearJob .relogin))
  | defer {inFlight : Nat} (hpc : st.receiver = .settling inFlight) :
      ReceiverMove st (st.setReceiver .ready)
  | handled (hpc : st.receiver = .handling []) : ReceiverMove st (st.setReceiver .ready)
  | unparsed {line : List TaggedByte} {lines : List (List TaggedByte)}
      (hpc : st.receiver = .handling (line :: lines)) :
      ReceiverMove st ((st.emit (.line line)).setReceiver (.handling lines))
  | job {line : List TaggedByte} {lines : List (List TaggedByte)} {msg : Json}
      (hpc : st.receiver = .handling (line :: lines)) (hmsg : decode (line.map (·.2)) = some msg) :
      ReceiverMove st (({ st with
        currentJob := (messageJob msg st.generation).or st.currentJob }.emit (.line line)).setReceiver
          (.replying msg lines))
  | unmatched {msg : Json} {lines : List (List TaggedByte)} (hpc : st.receiver = .replying msg lines) :
      ReceiverMove st (st.setReceiver (.handling lines))
  | remove {msg : Json} {lines : List (List TaggedByte)} {rpcId : Nat} {entry : PendingShare}
      (hpc : st.receiver = .replying msg lines) (hentry : st.pendingShares.lookup rpcId = some entry) :
      ReceiverMove st ({ st with pendingShares := st.pendingShares.erase rpcId }.setReceiver
        (.counting entry.share (replyFate msg) lines))
  | count {share : Share} {fate : Fate} {lines : List (List TaggedByte)}
      (hpc : st.receiver = .counting share fate lines) :
      ReceiverMove st ((st.count share fate).setReceiver (.handling lines))
  | clearJob {task : Task} (hpc : st.receiver = .clearJob task) :
      ReceiverMove st ({ st with currentJob := none }.setReceiver (.clearStream task))
  | clearStream {task : Task} (hpc : st.receiver = .clearStream task) (hfree : st.streamLock = none) :
      ReceiverMove st ({ st with stream := none }.setReceiver (.draining task))
  | drain {task : Task} (hpc : st.receiver = .draining task) :
      ReceiverMove st ({ st with pendingShares := ∅ }.setReceiver
        (.countLost task st.pendingShares.shares))
  | countLost {task : Task} {share : Share} {shares : List Share}
      (hpc : st.receiver = .countLost task (share :: shares)) :
      ReceiverMove st ((st.count share .lost).setReceiver (.countLost task shares))
  | drained {task : Task} (hpc : st.receiver = .countLost task []) :
      ReceiverMove st (st.setReceiver (.connecting task))
  | giveUp (hpc : st.receiver = .countLost .reconnect []) : ReceiverMove st (st.setReceiver .stopped)
  | connect {task : Task} (hpc : st.receiver = .connecting task) (hfree : st.streamLock = none) :
      ReceiverMove st ({ st with
        stream := some (st.connections + 1), connections := st.connections + 1
        generation := st.generation + 1 }.setReceiver (.loggingIn task))
  | connectFails {task : Task} (hpc : st.receiver = .connecting task) :
      ReceiverMove st (st.setReceiver (.failed task))
  | login {task : Task} {conn : Nat} {reply : Json} {sid : String}
      (hpc : st.receiver = .loggingIn task) (hstream : st.stream = some conn)
      (hsid : loginSession reply = some sid) :
      ReceiverMove st (({ st with requestId := st.requestId + 1 }.emit
        (.loginReply conn reply)).setReceiver (.setSession task sid reply))
  | refused {task : Task} {conn : Nat} {reply : Json} (hpc : st.receiver = .loggingIn task) :
      ReceiverMove st (({ st with requestId := st.requestId + 1 }.emit
        (.loginReply conn reply)).setReceiver (.failed task))
  | unanswered {task : Task} (hpc : st.receiver = .loggingIn task) :
      ReceiverMove st ({ st with requestId := st.requestId + 1 }.setReceiver (.failed task))
  | unconnected {task : Task} (hpc : st.receiver = .loggingIn task) :
      ReceiverMove st (st.setReceiver (.failed task))
  | setSession {task : Task} {sid : String} {reply : Json}
      (hpc : st.receiver = .setSession task sid reply) :
      ReceiverMove st ({ st with sessionId := sid }.setReceiver (.setJob task reply))
  | setJob {task : Task} {reply : Json} (hpc : st.receiver = .setJob task reply) :
      ReceiverMove st ({ st with
        currentJob := (loginJob reply st.generation).or st.currentJob }.setReceiver (.loggedIn task))
  | loggedIn {task : Task} (hpc : st.receiver = .loggedIn task) :
      ReceiverMove st ({ st with buffer := [] }.setReceiver .ready)
  | startFails (hpc : st.receiver = .failed .start) : ReceiverMove st (st.setReceiver .stopped)
  | retry (hpc : st.receiver = .failed .reconnect) (hfree : st.streamLock = none) :
      ReceiverMove st ({ st with stream := none }.setReceiver (.connecting .reconnect))
  | reloginFails (hpc : st.receiver = .failed .relogin) (hfree : st.streamLock = none) :
      ReceiverMove st ({ st with stream := none }.setReceiver .ready)

variable {decode}

theorem receiverMove_of_step {st st' : State n} {a : ReceiverAction}
    (hs : receiverStep decode st a = some st') : ReceiverMove decode st st' := by
  unfold receiverStep at hs
  split at hs
  next hpc =>
    -- a read: there must be a connection, its lock is free, and its last line may be too long
    split at hs
    next conn hstream =>
      split at hs
      next hfree =>
        split at hs
        next lines rest hlines =>
          obtain rfl := Option.some.inj hs
          exact .read hpc hstream hfree hlines
        next =>
          obtain rfl := Option.some.inj hs
          exact .overflow hpc
      next => cases hs
    next => cases hs
  next hpc =>
    obtain rfl := Option.some.inj hs
    exact .lose hpc
  next hpc =>
    -- a keepalive is due only after the interval, and it too needs the connection
    split at hs
    next =>
      split at hs
      next =>
        obtain rfl := Option.some.inj hs
        exact .lose hpc
      next =>
        split at hs
        · obtain rfl := Option.some.inj hs
          exact .keepalive hpc
        · obtain rfl := Option.some.inj hs
          exact .keepaliveFails hpc
    next => cases hs
  next hpc =>
    obtain rfl := Option.some.inj hs
    exact .readInFlight hpc
  next hpc =>
    split at hs
    next hmay =>
      obtain rfl := Option.some.inj hs
      exact .rotate hpc hmay
    next =>
      obtain rfl := Option.some.inj hs
      exact .defer hpc
  next hpc =>
    obtain rfl := Option.some.inj hs
    -- the lines of a read are used up
    exact .handled hpc
  next hpc =>
    split at hs
    next =>
      obtain rfl := Option.some.inj hs
      exact .unparsed hpc
    -- a line that parses may carry a job, and then a reply
    next msg hmsg =>
      obtain rfl := Option.some.inj hs
      exact .job hpc hmsg
  next hpc =>
    split at hs
    next =>
      obtain rfl := Option.some.inj hs
      exact .unmatched hpc
    next =>
      split at hs
      next =>
        obtain rfl := Option.some.inj hs
        exact .unmatched hpc
      next hentry =>
        obtain rfl := Option.some.inj hs
        exact .remove hpc hentry
  next hpc =>
    obtain rfl := Option.some.inj hs
    exact .count hpc
  next hpc =>
    obtain rfl := Option.some.inj hs
    exact .clearJob hpc
  next hpc =>
    split at hs
    next hfree =>
      obtain rfl := Option.some.inj hs
      exact .clearStream hpc hfree
    next => cases hs
  next hpc =>
    obtain rfl := Option.some.inj hs
    exact .drain hpc
  next hpc =>
    obtain rfl := Option.some.inj hs
    exact .countLost hpc
  next hpc =>
    obtain rfl := Option.some.inj hs
    exact .drained hpc
  next hpc =>
    obtain rfl := Option.some.inj hs
    exact .giveUp hpc
  next hpc =>
    split at hs
    next =>
      split at hs
      next hfree =>
        obtain rfl := Option.some.inj hs
        exact .connect hpc hfree
      next => cases hs
    next =>
      obtain rfl := Option.some.inj hs
      exact .connectFails hpc
  next hpc =>
    split at hs
    next =>
      split at hs
      next hstream =>
        split at hs
        next sid hsid =>
          obtain rfl := Option.some.inj hs
          exact .login hpc hstream hsid
        next =>
          obtain rfl := Option.some.inj hs
          exact .refused hpc
      next =>
        obtain rfl := Option.some.inj hs
        exact .unanswered hpc
      next =>
        obtain rfl := Option.some.inj hs
        exact .unconnected hpc
    next => cases hs
  next hpc =>
    obtain rfl := Option.some.inj hs
    exact .setSession hpc
  next hpc =>
    obtain rfl := Option.some.inj hs
    exact .setJob hpc
  next hpc =>
    obtain rfl := Option.some.inj hs
    exact .loggedIn hpc
  next hpc =>
    obtain rfl := Option.some.inj hs
    exact .startFails hpc
  next hpc =>
    split at hs
    next hfree =>
      obtain rfl := Option.some.inj hs
      exact .retry hpc hfree
    next => cases hs
  next hpc =>
    split at hs
    next hfree =>
      obtain rfl := Option.some.inj hs
      exact .reloginFails hpc hfree
    next => cases hs
  next => cases hs

end Pool
end MinerTim
