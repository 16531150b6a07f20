import MinerTim.Pool.Connection

/-!
# `Pool.ReceiverLoop` — the receiver thread, with its clock and its wallets

`Pool.Connection` leaves to chance when a timer has run out and which wallet logs in. Here is
`receiver_loop` with these decided: its locals, the fields that only it and the functions it calls write,
and a clock that moves at any time. What the workers do shows only in the two numbers that
`rotation_settled` reads; they, the beneficiary that the schedule wants, and how reads, writes, connections
and logins end are the arguments of an action.

Times are nanoseconds since some start. The limits are atomics that are set once. Logging, the priority of
the thread, the read timeout and the sleeps are left out; so is `current_job`, which `Pool.Connection` has.
Three fields are histories that no step reads: when the installed connection logged in, when bytes were last
read on it, and the events of the loop.
-/

namespace MinerTim
namespace Pool

/-! ## Beneficiaries -/

/-- Who a slice of the donation schedule belongs to. -/
inductive Beneficiary where
  | user
  | author
  | xmrig
deriving DecidableEq

/-- `AUTHOR_ADDRESS` (`donate.rs`). -/
def AUTHOR_ADDRESS : String :=
  "49stQdfmRNQctnx2wEo7JfZCgWp3WhcF4P1d1MXmiN6PEtd5fjpvVcS8XuYUyx6sdz4nyccsrhjBLgtuD5iejyZVUBbBZng"

/-- `XMRIG_ADDRESS` (`donate.rs`). -/
def XMRIG_ADDRESS : String :=
  "48edfHu7V9Z84YzzMa6fUueoELZ9ZRXq9VetWzYGzKt52XU5xvqgzYnDK9URnRoJMk1j8nLwEVsaSWJ4fhdUyZijBGUicoD"

/-- `beneficiary_address`, given the wallet captured on first login. -/
def beneficiaryAddress (userWallet : String) : Beneficiary → String
  | .user => userWallet
  | .author => AUTHOR_ADDRESS
  | .xmrig => XMRIG_ADDRESS

/-! ## State -/

/-- Milliseconds, as a time. -/
def millis (ms : Nat) : Nat := ms * 1000000

/-- `KEEPALIVE_INTERVAL`, 60 seconds. -/
def KEEPALIVE_INTERVAL : Nat := millis 60000

/-- `silence_timeout_ms` and `rotation_settle_ms`. -/
structure Limits where
  silenceTimeoutMs : Nat
  rotationSettleMs : Nat

/-- The call of `reconnect` in `receiver_loop`. -/
inductive CallSite where
  /-- The read ended or failed. -/
  | read
  /-- A line was too long. -/
  | overflow
  /-- A keepalive could not be written. -/
  | keepalive
  /-- The pool was silent for too long. -/
  | silence
deriving DecidableEq

/-- Who called `connect` and `login`. -/
inductive Caller where
  | relogin
  | reconnect (site : CallSite)
deriving DecidableEq

/-- Where the receiver is. -/
inductive LoopPc where
  /-- At the head of the loop. -/
  | top
  /-- In `rotation_settled`. -/
  | gate (want : Beneficiary)
  /-- In `relogin_as`. -/
  | relogin (wallet : String)
  /-- In `reconnect`. -/
  | reconnect (site : CallSite)
  /-- In `connect`. -/
  | connecting (caller : Caller) (address wallet : String)
  /-- In `login`. -/
  | loggingIn (caller : Caller) (address wallet : String)
  /-- `connect` or `login` returned an error. -/
  | failed (caller : Caller) (address wallet : String)
  /-- `login` returned. -/
  | loggedIn (caller : Caller)
  /-- At the read. -/
  | read
  /-- Handing lines to `handle_pool_message`. -/
  | handling (lines : List (List TaggedByte))
  /-- At the keepalive. -/
  | keepalive
  /-- At the silence check. -/
  | silence
  /-- The thread has ended. -/
  | exited

/-- What has happened in the loop. -/
inductive LoopEvent where
  /-- An iteration observes what the schedule wants, and who is active then. -/
  | observed (want active : Beneficiary)
  /-- `rotation_settled` defers a rotation, at a time. -/
  | deferred (want : Beneficiary) (time : Nat)
  | rotated (want : Beneficiary)
  | reconnected
  /-- A login request is sent for a wallet, while a beneficiary is active. -/
  | login (wallet : String) (active : Beneficiary)

/-- The locals of `receiver_loop`, the fields of the connection that it writes, and the clock. -/
structure LoopState where
  now : Nat
  stream : Option Nat
  address : String
  wallet : String
  userWallet : String
  rotationWaitSince : Option (Beneficiary × Nat)
  pending : List TaggedByte
  lastKeepalive : Nat
  lastRecv : Nat
  active : Beneficiary
  lastWant : Beneficiary
  pc : LoopPc
  /-- How many connections were installed. -/
  connections : Nat
  loggedInAt : Option Nat
  bytesAt : Option Nat
  /-- The events, last first. -/
  history : List LoopEvent

namespace LoopState

/-- The loop at another point. -/
def goto (st : LoopState) (pc : LoopPc) : LoopState := { st with pc }

/-- An event on the history. -/
def record (st : LoopState) (e : LoopEvent) : LoopState := { st with history := e :: st.history }

/-- `connect` succeeds. -/
def connected (st : LoopState) (address : String) : LoopState :=
  { st with
    address, stream := some (st.connections + 1), connections := st.connections + 1
    loggedInAt := none, bytesAt := none }

/-- `login` captures the wallet; the first one is the user's. -/
def capture (st : LoopState) (wallet : String) : LoopState :=
  { st with wallet, userWallet := if st.userWallet = "" then wallet else st.userWallet }

/-- Before anything. -/
def new (now : Nat) : LoopState where
  now := now
  stream := none
  address := ""
  wallet := ""
  userWallet := ""
  rotationWaitSince := none
  pending := []
  lastKeepalive := 0
  lastRecv := 0
  active := .user
  lastWant := .user
  pc := .top
  connections := 0
  loggedInAt := none
  bytesAt := none
  history := []

/-- The receiver starts some time after `connect` and `login` have returned. -/
def start (address wallet : String) (loginTime delay : Nat) : LoopState :=
  { ((LoopState.new (loginTime + delay)).connected address).capture wallet with
    loggedInAt := some loginTime, lastKeepalive := loginTime + delay, lastRecv := loginTime + delay }

end LoopState

/-! ## Donation -/

/-- `note_donation_target`: a change of what is wanted ends a deferral. -/
def LoopState.noteDonationTarget (st : LoopState) (want : Beneficiary) : LoopState :=
  if want ≠ st.lastWant then { st with rotationWaitSince := none, lastWant := want } else st

/-- `rotation_settled`: whether the rotation may proceed, and the deferral after the call. -/
def rotationSettled (limits : Limits) (now : Nat) (waitSince : Option (Beneficiary × Nat))
    (want : Beneficiary) (inFlight pending : Nat) : Bool × Option (Beneficiary × Nat) :=
  let waitSince := waitSince.filter fun w => w.1 = want
  let waited := (waitSince.map fun w => now - w.2).getD 0
  if rotationMayProceed inFlight pending (millis limits.rotationSettleMs ≤ waited) then (true, none)
  else (false, some (waitSince.getD (want, now)))

/-- A rotation is let through: the target is active, and its wallet the one that a reconnect would use. -/
def LoopState.rotate (st : LoopState) (want : Beneficiary) : LoopState :=
  { st with active := want, wallet := beneficiaryAddress st.userWallet want }

/-! ## Steps -/

/-- What a read of the socket returns. -/
inductive ReadResult where
  | data (chunk : List Byte)
  /-- No bytes: the pool closed the connection. -/
  | eof
  | timeout
  | error

/-- What the receiver does next, with what it is given. -/
inductive LoopInput where
  | observe (want : Beneficiary)
  | settle (inFlight pending : Nat)
  | connect (ok : Bool)
  | login (ok : Bool)
  | read (result : ReadResult)
  | keepalive (ok : Bool)
  /-- The only step where it stands. -/
  | next

/-- The start of `reconnect`: the stream is cleared, and any deferral is for an epoch that has ended. -/
def LoopState.tearDown (st : LoopState) : LoopState :=
  { st with stream := none, rotationWaitSince := none }

/-- The end of `reconnect`, and what `receiver_loop` does after it. -/
def LoopState.afterReconnect (st : LoopState) : CallSite → LoopState
  | .read => { st with lastRecv := st.now, pending := [] }.goto .keepalive
  | .overflow => { st with lastRecv := st.now }.goto .keepalive
  | .keepalive | .silence => { st with lastRecv := st.now, pending := [] }.goto .top

/-- Bytes are read; `take_complete_lines` splits them, or finds that a line is too long. -/
def LoopState.receive (st : LoopState) (conn : Nat) (chunk : List Byte) : LoopState :=
  match takeCompleteLines (st.pending ++ chunk.map (conn, ·)) with
  | some (lines, rest) =>
    { st with lastRecv := st.now, bytesAt := some st.now, pending := rest }.goto (.handling lines)
  | none =>
    { st with lastRecv := st.now, bytesAt := some st.now, pending := [] }.goto (.reconnect .overflow)

/-- One step of the receiver. -/
def receiverLoop (limits : Limits) (st : LoopState) (a : LoopInput) : Option LoopState :=
  match st.pc, a with
  | .top, .observe want =>
    some (((st.noteDonationTarget want).record (.observed want st.active)).goto
      (if want ≠ st.active then .gate want else .read))
  | .gate want, .settle inFlight pending =>
    match rotationSettled limits st.now st.rotationWaitSince want inFlight pending with
    | (true, waitSince) =>
      some (({ st with rotationWaitSince := waitSince }.rotate want |>.record (.rotated want)).goto
        (.relogin (beneficiaryAddress st.userWallet want)))
    | (false, waitSince) =>
      some (({ st with rotationWaitSince := waitSince }.record (.deferred want st.now)).goto .read)
  | .relogin wallet, .next =>
    if st.address = "" then some (st.goto .read)
    else some ({ st with stream := none }.goto (.connecting .relogin st.address wallet))
  | .reconnect site, .next =>
    if st.address = "" ∨ st.wallet = "" then some ((st.tearDown.record .reconnected).goto .exited)
    else some ((st.tearDown.record .reconnected).goto
      (.connecting (.reconnect site) st.address st.wallet))
  | .connecting caller address wallet, .connect ok =>
    -- an empty address does not resolve
    if ok = true ∧ address ≠ "" then
      some ((st.connected address).goto (.loggingIn caller address wallet))
    else some (st.goto (.failed caller address wallet))
  | .loggingIn caller address wallet, .login ok =>
    match st.stream with
    | none => some ((st.capture wallet).goto (.failed caller address wallet))
    | some _ =>
      if ok then
        some (({ st with loggedInAt := some st.now }.capture wallet |>.record
          (.login wallet st.active)).goto (.loggedIn caller))
      else
        some (((st.capture wallet).record (.login wallet st.active)).goto
          (.failed caller address wallet))
  | .failed .relogin _ _, .next => some ({ st with stream := none }.goto .read)
  | .failed (.reconnect site) address wallet, .next =>
    some ({ st with stream := none }.goto (.connecting (.reconnect site) address wallet))
  | .loggedIn .relogin, .next => some ({ st with lastRecv := st.now, pending := [] }.goto .top)
  | .loggedIn (.reconnect site), .next => some (st.afterReconnect site)
  | .read, .read result =>
    match st.stream, result with
    | none, _ | some _, .eof | some _, .error => some (st.goto (.reconnect .read))
    | some _, .timeout => some (st.goto .keepalive)
    | some conn, .data chunk => if chunk = [] then none else some (st.receive conn chunk)
  | .handling (_ :: lines), .next => some (st.goto (.handling lines))
  | .handling [], .next => some (st.goto .keepalive)
  | .keepalive, .keepalive ok =>
    if KEEPALIVE_INTERVAL ≤ st.now - st.lastKeepalive then
      if ok = true ∧ st.stream.isSome then some ({ st with lastKeepalive := st.now }.goto .silence)
      else some ({ st with lastKeepalive := st.now }.goto (.reconnect .keepalive))
    else some (st.goto .silence)
  | .silence, .next =>
    if millis limits.silenceTimeoutMs ≤ st.now - st.lastRecv then
      some (st.goto (.reconnect .silence))
    else some (st.goto .top)
  | _, _ => none

/-- What the loop meets at a point. -/
inductive LoopAction where
  /-- Time passes. -/
  | tick (d : Nat)
  | loop (a : LoopInput)

/-- One step of the loop. -/
def loopStep (limits : Limits) (st : LoopState) : LoopAction → Option LoopState
  | .tick d => some { st with now := st.now + d }
  | .loop a => receiverLoop limits st a

end Pool
end MinerTim
