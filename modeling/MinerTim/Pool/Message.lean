import MinerTim.Miner.Share

/-!
# `Pool.Message` — what a line from the pool says

The parts of `login` and `handle_pool_message` that read JSON: the session id and the job of a login
reply, the job of a notification, the request id and the verdict of a reply to a share. Text is turned
into JSON by a library, so a `Json` value is where this module starts.
-/

namespace MinerTim
namespace Pool

open Miner

/-- A JSON value; of a number, only its value as a `u64` is read. -/
inductive Json where
  | null
  | bool (b : Bool)
  | num (asU64 : Option Nat)
  | str (s : String)
  | arr (items : List Json)
  | obj (fields : List (String × Json))

namespace Json

/-- A field of an object. -/
def get : Json → String → Option Json
  | .obj fields, key => fields.lookup key
  | _, _ => none

/-- `as_str`. -/
def asStr : Json → Option String
  | .str s => some s
  | _ => none

/-- `as_u64`. -/
def asU64 : Json → Option Nat
  | .num n => n
  | _ => none

/-- `is_null`. -/
def isNull : Json → Bool
  | .null => true
  | _ => false

/-- A field that is present and not `null`. -/
def getNonNull (msg : Json) (key : String) : Option Json :=
  (msg.get key).filter fun v => !v.isNull

end Json

/-- `parse_job`: a job, stamped with a generation. -/
def parseJob (data : Json) (generation : Nat) : Option Job := do
  let blobHex ← (← data.get "blob").asStr
  let targetHex ← (← data.get "target").asStr
  let jobId ← (← data.get "job_id").asStr
  let seedHashHex ← (← data.get "seed_hash").asStr
  let blob ← hexDecode blobHex
  let target ← hexDecode targetHex
  let seedHash ← hexDecode seedHashHex
  return { blob, target, jobId, seedHash, generation }

/-- A job carries the stamp it was parsed with. -/
theorem generation_parseJob {data : Json} {generation : Nat} {job : Job}
    (h : parseJob data generation = some job) : job.generation = generation := by
  unfold parseJob at h
  simp only [Option.bind_eq_bind, Option.bind_eq_some_iff, Option.pure_def, Option.some.injEq] at h
  obtain ⟨_, _, _, _, _, _, _, _, _, _, _, _, _, _, _, _, _, _, _, _, _, _, rfl⟩ := h
  rfl

/-! ## Replies to `login` -/

/-- The `result` of a login reply, unless it carries an error. -/
def loginResult (reply : Json) : Option Json :=
  match reply.getNonNull "error" with
  | some _ => none
  | none => reply.getNonNull "result"

/-- The session id of a login reply that is accepted. -/
def loginSession (reply : Json) : Option String := do
  (← (← loginResult reply).get "id").asStr

/-- The first job of a login reply. -/
def loginJob (reply : Json) (generation : Nat) : Option Job := do
  parseJob (← (← loginResult reply).get "job") generation

/-! ## Messages -/

/-- Whether the message is a `job` notification. -/
def isJobNotification (msg : Json) : Bool := (msg.get "method").bind Json.asStr == some "job"

/-- Where the job of a message is. -/
def jobParams (msg : Json) : Option Json :=
  if isJobNotification msg then msg.get "params" else (msg.get "result").bind (·.get "job")

/-- The job of a message. -/
def messageJob (msg : Json) (generation : Nat) : Option Job := do
  parseJob (← jobParams msg) generation

/-- The request a message answers: it has a numeric `id` and no `method`. -/
def replyId (msg : Json) : Option Nat :=
  if (msg.get "method").isNone then (msg.get "id").bind Json.asU64 else none

/-- The counters a share can end up in. -/
inductive Fate where
  | verifyFailure
  | accepted
  | rejected
  | lost
  | unsent
deriving DecidableEq, Repr

/-- The counter that a reply to a share moves: an error is a rejection, `OK` is an acceptance, and what is
    neither is a rejection. -/
def replyFate (msg : Json) : Fate :=
  match msg.getNonNull "error" with
  | some _ => .rejected
  | none =>
    if ((msg.get "result").bind (·.get "status")).bind Json.asStr = some "OK" then .accepted
    else .rejected

theorem generation_loginJob {reply : Json} {generation : Nat} {job : Job}
    (h : loginJob reply generation = some job) : job.generation = generation := by
  obtain ⟨_, _, h⟩ := Option.bind_eq_some_iff.mp h
  obtain ⟨_, _, h⟩ := Option.bind_eq_some_iff.mp h
  exact generation_parseJob h

theorem generation_messageJob {msg : Json} {generation : Nat} {job : Job}
    (h : messageJob msg generation = some job) : job.generation = generation := by
  obtain ⟨_, _, h⟩ := Option.bind_eq_some_iff.mp h
  exact generation_parseJob h

end Pool
end MinerTim
