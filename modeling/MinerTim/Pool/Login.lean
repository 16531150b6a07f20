import MinerTim.Pool.Tls

/-!
# `Pool.Login` — replies and messages, one after the other

`login`, `relogin_as` and `handle_pool_message` of `pool_connection.rs` as functions on a connection, with what the
socket does as an argument (`Exchange`). In `hex_decode`, and so in `parse_job` and `handle_pool_message`, an index
out of bounds is a panic, which is `none`. The connection model takes the same replies and messages step by step;
`login_agrees` and `handlePoolMessage_agrees` say that its steps, when no other thread is in between, end in the same
state.
-/

namespace MinerTim
namespace Pool

open Miner
open Text (ReadEnd ReadLineError readLine lineText)

/-! ## Requests -/

/-- What the socket does during a request: the write, and the bytes that follow. -/
structure Exchange where
  write : Except String Unit
  stream : List Byte
  last : ReadEnd

/-- Why `login` fails. -/
inductive LoginError where
  | notConnected
  /-- `write_request`, with its text. -/
  | write (e : String)
  | readLine (e : ReadLineError)
  | parse (e : String)
  | login (error : Json)
  | noSessionId (result : Json)
  | unexpected

/-- The texts of the errors; `utf8Error` is that of `FromUtf8Error`. -/
def LoginError.text (display : Json → String) (utf8Error : String) : LoginError → String
  | .notConnected => "Not connected"
  | .write e => e
  | .readLine .tooLong => "pool response line exceeded " ++ toString MAX_LINE_BYTES ++ " bytes without a newline"
  | .readLine (.readFailed e) => "Read failed: " ++ e
  | .readLine .invalidUtf8 => "Invalid UTF-8 from pool: " ++ utf8Error
  | .parse e => "Parse failed: " ++ e
  | .login error => "Login error: " ++ display error
  | .noSessionId result => "Login response carried no session id: " ++ display result
  | .unexpected => "Unexpected login response"

section

-- `serde_json::from_str`
variable (fromStr : String → Except String Json)

/-- `send_request`. -/
def sendRequest (conn : Conn) (io : Exchange) : Except LoginError Json × Conn :=
  match conn.stream with
  | none => (.error .notConnected, conn)
  | some _ =>
    let conn := { conn with requestId := conn.requestId + 1 }
    match io.write with
    | .error e => (.error (.write e), conn)
    | .ok () =>
      match (readLine io.last io.stream).1 with
      | .error e => (.error (.readLine e), conn)
      | .ok line => ((fromStr line).mapError .parse, conn)

/-- `login`, from the response on. -/
def loginResponse (conn : Conn) (response : Json) : Except LoginError Unit × Conn :=
  match response.getNonNull "error" with
  | some error => (.error (.login error), conn)
  | none =>
    match response.getNonNull "result" with
    | some result =>
      match (result.get "id").bind Json.asStr with
      | none => (.error (.noSessionId result), conn)
      | some id =>
        let conn := { conn with sessionId := id }
        match (result.get "job").bind (parseJob · conn.generation) with
        | some job => (.ok (), { conn with currentJob := some job })
        | none => (.ok (), conn)
    | none => (.error .unexpected, conn)

/-- `login`. -/
def login (conn : Conn) (wallet : String) (io : Exchange) : Except LoginError Unit × Conn :=
  let conn := { conn with wallet, userWallet := if conn.userWallet.isEmpty then wallet else conn.userWallet }
  match sendRequest fromStr conn io with
  | (.error e, conn) => (.error e, conn)
  | (.ok response, conn) => loginResponse conn response

/-! ## Logging in again -/

/-- `drain_pending_shares`. -/
def drainPendingShares (conn : Conn) : Conn :=
  { conn with
    pendingShares := ∅
    counters := { conn.counters with lost := conn.counters.lost + conn.pendingShares.entries.length } }

/-- `relogin_as`. -/
def reloginAs (display : Json → String) (utf8Error : String) (conn : Conn) (wallet : String) (connectIo : ConnectIo)
    (io : Exchange) : Except String Unit × Conn :=
  let address := conn.address
  if address.isEmpty then (.error "no pool address recorded", conn)
  else
    let conn := drainPendingShares { conn with currentJob := none, stream := none }
    match connect conn address connectIo with
    | (.error e, conn) => (.error e, { conn with stream := none })
    | (.ok (), conn) =>
      match login fromStr conn wallet io with
      | (.error e, conn) => (.error (e.text display utf8Error), { conn with stream := none })
      | (.ok (), conn) => (.ok (), conn)

/-! ## Messages -/

/-- `chunks_exact(2)`. -/
def chunksExact : List Byte → List (List Byte)
  | hi :: lo :: raw => [hi, lo] :: chunksExact raw
  | _ => []

/-- The loop of `hex_decode`, with its indices: `none` is a panic. -/
def hexLoop : List (List Byte) → List Byte → Option (Option (List Byte))
  | [], bytes => some (some bytes)
  | pair :: pairs, bytes => do
    let first ← pair[0]?
    match nibble first with
    | none => some none
    | some hi => do
      let second ← pair[1]?
      match nibble second with
      | none => some none
      | some lo => hexLoop pairs (bytes ++ [(hi <<< 4) ||| lo])

/-- `hex_decode`, with its panics. -/
def hexDecodeIndexed (hex : String) : Option (Option (List Byte)) :=
  if hex.utf8ByteSize % 2 ≠ 0 then some none else hexLoop (chunksExact (utf8Bytes hex)) []

/-- The string fields of a job. -/
def jobFields (data : Json) : Option (String × String × String × String) := do
  let blobHex ← (← data.get "blob").asStr
  let targetHex ← (← data.get "target").asStr
  let jobId ← (← data.get "job_id").asStr
  let seedHashHex ← (← data.get "seed_hash").asStr
  return (blobHex, targetHex, jobId, seedHashHex)

/-- `parse_job`, with the panics of `hex_decode`. -/
def parseJobIndexed (data : Json) (generation : Nat) : Option (Option Job) :=
  match jobFields data with
  | none => some none
  | some (blobHex, targetHex, jobId, seedHashHex) => do
    match ← hexDecodeIndexed blobHex with
    | none => return none
    | some blob =>
      match ← hexDecodeIndexed targetHex with
      | none => return none
      | some target =>
        match ← hexDecodeIndexed seedHashHex with
        | none => return none
        | some seedHash => return some { blob, target, jobId, seedHash, generation }

/-- The job part of `handle_pool_message`: a job that does not parse leaves the one before in force. -/
def handleJob (conn : Conn) (msg : Json) : Option Conn :=
  match jobParams msg with
  | none => some conn
  | some data => do
    match ← parseJobIndexed data conn.generation with
    | none => return conn
    | some job => return { conn with currentJob := some job }

/-- The rest of `handle_pool_message`: the reply to a share. -/
def handleReply (conn : Conn) (msg : Json) : Conn :=
  match replyId msg with
  | none => conn
  | some rpcId =>
    match conn.pendingShares.lookup rpcId with
    | none => conn
    | some _ =>
      { conn with
        pendingShares := conn.pendingShares.erase rpcId
        counters := conn.counters.bump (replyFate msg) }

/-- `handle_pool_message`. -/
def handlePoolMessage (conn : Conn) (line : String) : Option Conn :=
  match fromStr line with
  | .error _ => some conn
  | .ok msg => do return handleReply (← handleJob conn msg) msg

end

/-! ## Hex without panics -/

theorem hexLoop_pair (hi lo : Byte) (pairs : List (List Byte)) (bytes : List Byte) :
    hexLoop ([hi, lo] :: pairs) bytes = (nibble hi).elim (some none) fun first =>
      (nibble lo).elim (some none) fun second => hexLoop pairs (bytes ++ [(first <<< 4) ||| second]) := by
  rw [hexLoop]
  simp only [List.getElem?_cons_zero, List.getElem?_cons_succ, Option.bind_eq_bind, Option.bind_some]
  cases nibble hi with
  | none => rfl
  | some first =>
    cases nibble lo with
    | none => rfl
    | some second => rfl

theorem hexLoop_eq (raw : List Byte) (h : raw.length % 2 = 0) (bytes : List Byte) :
    hexLoop (chunksExact raw) bytes = some ((hexPairs raw).map (bytes ++ ·)) := by
  induction raw using hexPairs.induct generalizing bytes with
  | case1 =>
    rw [chunksExact, hexLoop, hexPairs, Option.map_some, List.append_nil]
    intro hi lo rest heq
    cases heq
  | case2 b => cases h
  | case3 hi lo raw ih =>
    rw [List.length_cons, List.length_cons] at h
    rw [chunksExact, hexLoop_pair, hexPairs]
    cases nibble hi with
    | none => rfl
    | some first =>
      cases nibble lo with
      | none => rfl
      | some second =>
        rw [Option.elim_some, Option.elim_some, ih (by omega)]
        cases hexPairs raw with
        | none => rfl
        | some rest => simp

theorem length_utf8Bytes (s : String) : (utf8Bytes s).length = s.utf8ByteSize := by
  rw [utf8Bytes, List.length_map, Array.length_toList]
  rfl

theorem hexPairs_odd {raw : List Byte} (h : raw.length % 2 ≠ 0) : hexPairs raw = none := by
  cases hpairs : hexPairs raw with
  | none => rfl
  | some bytes =>
    have hlen := length_hexPairs hpairs
    omega

/-- `hex_decode` indexes nothing out of bounds. -/
theorem hexDecodeIndexed_eq (hex : String) : hexDecodeIndexed hex = some (hexDecode hex) := by
  unfold hexDecodeIndexed
  by_cases h : hex.utf8ByteSize % 2 = 0
  · rw [if_neg (not_not.mpr h), hexLoop_eq (utf8Bytes hex) (by rwa [length_utf8Bytes])]
    simp only [List.nil_append, Option.map_id_fun', id_eq]
    rfl
  · rw [if_pos h]
    rw [← length_utf8Bytes] at h
    exact congrArg some (hexPairs_odd h).symm

theorem parseJobIndexed_eq (data : Json) (generation : Nat) :
    parseJobIndexed data generation = some (parseJob data generation) := by
  have hparse : parseJob data generation = (do
      let (blobHex, targetHex, jobId, seedHashHex) ← jobFields data
      let blob ← hexDecode blobHex
      let target ← hexDecode targetHex
      let seedHash ← hexDecode seedHashHex
      return { blob, target, jobId, seedHash, generation }) := by
    unfold parseJob jobFields
    simp only [Option.bind_eq_bind, Option.bind_assoc, Option.pure_def, Option.bind_some]
  rw [hparse, parseJobIndexed]
  cases jobFields data with
  | none => rfl
  | some fields =>
    obtain ⟨blobHex, targetHex, jobId, seedHashHex⟩ := fields
    simp only [hexDecodeIndexed_eq, Option.bind_eq_bind, Option.bind_some, Option.pure_def]
    cases hexDecode blobHex with
    | none => rfl
    | some blob =>
      cases hexDecode targetHex with
      | none => rfl
      | some target =>
        cases hexDecode seedHashHex with
        | none => rfl
        | some seedHash => rfl

/-- `handle_pool_message` does not panic; it takes the job of the message, if there is one. -/
theorem handleJob_eq (conn : Conn) (msg : Json) :
    handleJob conn msg = some { conn with currentJob := (messageJob msg conn.generation).or conn.currentJob } := by
  unfold handleJob messageJob
  cases jobParams msg with
  | none => rfl
  | some data =>
    simp only [parseJobIndexed_eq, Option.bind_eq_bind, Option.bind_some]
    cases parseJob data conn.generation with
    | none => rfl
    | some job => rfl

/-! ## What a job says -/

/-- A job is what the fields of a message say. -/
structure IsJob (data : Json) (generation : Nat) (job : Job) : Prop where
  blob : ∃ hex, data.get "blob" = some (.str hex) ∧ hex.toList.map Char.toLower = (hexEncode job.blob).toList
  target : ∃ hex, data.get "target" = some (.str hex) ∧ hex.toList.map Char.toLower = (hexEncode job.target).toList
  seedHash : ∃ hex, data.get "seed_hash" = some (.str hex) ∧
    hex.toList.map Char.toLower = (hexEncode job.seedHash).toList
  jobId : data.get "job_id" = some (.str job.jobId)
  generation : job.generation = generation

theorem Json.asStr_eq_some_iff {v : Json} {s : String} : v.asStr = some s ↔ v = .str s := by
  cases v <;> simp [Json.asStr]

theorem isJob_parseJob {data : Json} {generation : Nat} {job : Job} (h : parseJob data generation = some job) :
    IsJob data generation job := by
  unfold parseJob at h
  simp only [Option.bind_eq_bind, Option.bind_eq_some_iff, Option.pure_def, Option.some.injEq,
    Json.asStr_eq_some_iff] at h
  obtain ⟨_, hblob, blobHex, rfl, _, htarget, targetHex, rfl, _, hjobId, jobId, rfl, _, hseed, seedHex, rfl, blob,
    hblobHex, target, htargetHex, seedHash, hseedHex, rfl⟩ := h
  exact ⟨⟨blobHex, hblob, (hexDecode_eq_some_iff _ _).mp hblobHex⟩,
    ⟨targetHex, htarget, (hexDecode_eq_some_iff _ _).mp htargetHex⟩,
    ⟨seedHex, hseed, (hexDecode_eq_some_iff _ _).mp hseedHex⟩, hjobId, rfl⟩

/-! ## Rejected input -/

/-- A login reply that is accepted: no error, and a result with a string id. -/
structure Accepted (reply : Json) : Prop where
  error : ∀ v, reply.get "error" = some v → v = .null
  result : ∃ result id, reply.get "result" = some result ∧ result ≠ .null ∧ result.get "id" = some (.str id)

theorem Json.isNull_iff {v : Json} : v.isNull = true ↔ v = .null := by
  cases v <;> simp [Json.isNull]

theorem getNonNull_eq_none_iff {msg : Json} {key : String} :
    msg.getNonNull key = none ↔ ∀ v, msg.get key = some v → v = .null := by
  unfold Json.getNonNull
  rw [Option.filter_eq_none_iff]
  refine forall_congr' fun v => ?_
  rw [Bool.not_eq_true, Bool.not_eq_false', Json.isNull_iff]

theorem getNonNull_eq_some_iff {msg v : Json} {key : String} :
    msg.getNonNull key = some v ↔ msg.get key = some v ∧ v ≠ .null := by
  unfold Json.getNonNull
  rw [Option.filter_eq_some_iff, Bool.not_eq_true', ← Bool.not_eq_true, Json.isNull_iff]

/-- What a reply does to a login: it succeeds if it is accepted, and else leaves the session and the job. -/
theorem loginResponse_spec (conn : Conn) (reply : Json) :
    ((loginResponse conn reply).1 = .ok () ↔ Accepted reply) ∧
    ∀ e, (loginResponse conn reply).1 = .error e → (loginResponse conn reply).2 = conn := by
  unfold loginResponse
  cases herror : reply.getNonNull "error" with
  | some error =>
    refine ⟨⟨nofun, fun h => ?_⟩, fun _ _ => rfl⟩
    rw [getNonNull_eq_none_iff.mpr h.error] at herror
    cases herror
  | none =>
    cases hresult : reply.getNonNull "result" with
    | none =>
      refine ⟨⟨nofun, fun h => ?_⟩, fun _ _ => rfl⟩
      obtain ⟨result, id, hget, hnull, _⟩ := h.result
      rw [getNonNull_eq_some_iff.mpr ⟨hget, hnull⟩] at hresult
      cases hresult
    | some result =>
      obtain ⟨hget, hnull⟩ := getNonNull_eq_some_iff.mp hresult
      dsimp only
      cases hid : (result.get "id").bind Json.asStr with
      | none =>
        refine ⟨⟨nofun, fun h => ?_⟩, fun _ _ => rfl⟩
        obtain ⟨result', id, hget', _, hget''⟩ := h.result
        obtain rfl : result = result' := Option.some.inj (hget.symm.trans hget')
        rw [hget''] at hid
        cases hid
      | some id =>
        obtain ⟨v, hv, hstr⟩ := Option.bind_eq_some_iff.mp hid
        rw [Json.asStr_eq_some_iff.mp hstr] at hv
        have haccepted : Accepted reply :=
          ⟨getNonNull_eq_none_iff.mp herror, result, id, hget, hnull, hv⟩
        dsimp only
        cases (result.get "job").bind (parseJob · conn.generation) with
        | none => exact ⟨⟨fun _ => haccepted, fun _ => rfl⟩, nofun⟩
        | some job => exact ⟨⟨fun _ => haccepted, fun _ => rfl⟩, nofun⟩

section

variable {fromStr : String → Except String Json}

/-- A request leaves everything but its number. -/
theorem sendRequest_snd (conn : Conn) (io : Exchange) :
    ∃ requestId, (sendRequest fromStr conn io).2 = { conn with requestId } := by
  unfold sendRequest
  split
  next => exact ⟨conn.requestId, rfl⟩
  next =>
    refine ⟨conn.requestId + 1, ?_⟩
    cases io.write with
    | error e => rfl
    | ok u =>
      cases (readLine io.last io.stream).1 with
      | error e => rfl
      | ok line => rfl

/-- A login that fails leaves the session and the job. -/
theorem login_error {conn : Conn} {wallet : String} {io : Exchange} {e : LoginError}
    (h : (login fromStr conn wallet io).1 = .error e) :
    (login fromStr conn wallet io).2.sessionId = conn.sessionId ∧
      (login fromStr conn wallet io).2.currentJob = conn.currentJob := by
  unfold login at h ⊢
  dsimp only at h ⊢
  generalize hconn' : ({ conn with wallet, userWallet := if conn.userWallet.isEmpty then wallet else conn.userWallet } :
    Conn) = conn' at h ⊢
  have hsame : conn'.sessionId = conn.sessionId ∧ conn'.currentJob = conn.currentJob := by
    rw [← hconn']
    exact ⟨rfl, rfl⟩
  obtain ⟨requestId, hsnd⟩ := @sendRequest_snd fromStr conn' io
  cases hsend : sendRequest fromStr conn' io with
  | mk result conn'' =>
    rw [hsend] at h hsnd
    cases result with
    | error e' =>
      dsimp only at hsnd ⊢
      rw [hsnd]
      exact hsame
    | ok response =>
      dsimp only at h hsnd ⊢
      rw [(loginResponse_spec conn'' response).2 e h, hsnd]
      exact hsame

/-- A failed `relogin_as` leaves no stream and no job. -/
theorem reloginAs_error {display : Json → String} {utf8Error : String} {conn : Conn} {wallet : String}
    {connectIo : ConnectIo} {io : Exchange} (haddress : conn.address.isEmpty = false) {e : String}
    (h : (reloginAs fromStr display utf8Error conn wallet connectIo io).1 = .error e) :
    (reloginAs fromStr display utf8Error conn wallet connectIo io).2.stream = none ∧
      (reloginAs fromStr display utf8Error conn wallet connectIo io).2.currentJob = none := by
  unfold reloginAs at h ⊢
  dsimp only at h ⊢
  rw [haddress, if_neg Bool.false_ne_true] at h ⊢
  -- the stream and the job were dropped first, and only `connect` and `login` set them again
  rcases connect_stream (drainPendingShares { conn with currentJob := none, stream := none }) conn.address connectIo
    with ⟨e', heq⟩ | ⟨stream, heq, _⟩
  · rw [heq]
    exact ⟨rfl, rfl⟩
  · rw [heq] at h ⊢
    dsimp only at h ⊢
    generalize hconn' : ({ drainPendingShares { conn with currentJob := none, stream := none } with
      address := conn.address, stream := some stream
      generation := (drainPendingShares { conn with currentJob := none, stream := none }).generation + 1
      connected := true } : Conn) = conn' at h ⊢
    have hjob : conn'.currentJob = none := by
      rw [← hconn']
      rfl
    cases hlogin : login fromStr conn' wallet io with
    | mk result conn'' =>
      rw [hlogin] at h
      cases result with
      | error e' =>
        have hfail := @login_error fromStr conn' wallet io e' (by rw [hlogin])
        rw [hlogin] at hfail
        exact ⟨rfl, hfail.2.trans hjob⟩
      | ok u => cases h

/-- A login that gets a reply succeeds if the reply is accepted. -/
theorem login_ok_iff {conn : Conn} {io : Exchange} {reply : Json} (h : (sendRequest fromStr conn io).1 = .ok reply)
    (wallet : String) : (login fromStr conn wallet io).1 = .ok () ↔ Accepted reply := by
  have hsend : ∀ w u, (sendRequest fromStr { conn with wallet := w, userWallet := u } io).1
      = (sendRequest fromStr conn io).1 := by
    intro w u
    unfold sendRequest
    dsimp only
    cases conn.stream with
    | none => rfl
    | some stream =>
      cases io.write with
      | error e => rfl
      | ok u =>
        cases (readLine io.last io.stream).1 with
        | error e => rfl
        | ok line => rfl
  unfold login
  dsimp only
  have hreply := (hsend wallet (if conn.userWallet.isEmpty then wallet else conn.userWallet)).trans h
  generalize sendRequest fromStr { conn with
    wallet, userWallet := if conn.userWallet.isEmpty then wallet else conn.userWallet } io = sent at hreply
  obtain ⟨result, conn'⟩ := sent
  obtain rfl : result = .ok reply := hreply
  exact (loginResponse_spec conn' reply).1

/-- `handle_pool_message` ends, without a panic. -/
theorem handlePoolMessage_eq (conn : Conn) (line : String) : handlePoolMessage fromStr conn line =
    some (match fromStr line with
      | .error _ => conn
      | .ok msg =>
        handleReply { conn with currentJob := (messageJob msg conn.generation).or conn.currentJob } msg) := by
  unfold handlePoolMessage
  cases fromStr line with
  | error e => rfl
  | ok msg =>
    simp only [handleJob_eq]
    rfl

theorem currentJob_handleReply (conn : Conn) (msg : Json) : (handleReply conn msg).currentJob = conn.currentJob := by
  unfold handleReply
  split
  · rfl
  · split <;> rfl

/-- **Rejected input leaves the state intact.** A login that gets a reply succeeds exactly if the reply is accepted;
    a login that fails leaves the session and the job; a relogin that fails leaves no stream and no job; a message
    never panics, and installs the job that it says, of the current generation, or none. -/
theorem rejected_input_leaves_state (fromStr : String → Except String Json) (display : Json → String)
    (utf8Error : String) :
    (∀ (conn : Conn) (wallet : String) (io : Exchange) (reply : Json),
      (sendRequest fromStr conn io).1 = .ok reply →
        ((login fromStr conn wallet io).1 = .ok () ↔ Accepted reply)) ∧
    (∀ (conn : Conn) (wallet : String) (io : Exchange) (e : LoginError),
      (login fromStr conn wallet io).1 = .error e →
        (login fromStr conn wallet io).2.sessionId = conn.sessionId ∧
          (login fromStr conn wallet io).2.currentJob = conn.currentJob) ∧
    (∀ (conn : Conn) (wallet : String) (connectIo : ConnectIo) (io : Exchange) (e : String),
      conn.address.isEmpty = false →
      (reloginAs fromStr display utf8Error conn wallet connectIo io).1 = .error e →
        (reloginAs fromStr display utf8Error conn wallet connectIo io).2.stream = none ∧
          (reloginAs fromStr display utf8Error conn wallet connectIo io).2.currentJob = none) ∧
    (∀ (conn : Conn) (line : String), ∃ conn', handlePoolMessage fromStr conn line = some conn' ∧
      (conn'.currentJob = conn.currentJob ∨ ∃ msg data job, fromStr line = .ok msg ∧ jobParams msg = some data ∧
        IsJob data conn.generation job ∧ conn'.currentJob = some job)) := by
  refine ⟨?_, fun conn wallet io e h => login_error h,
    fun conn wallet connectIo io e haddress => reloginAs_error haddress, ?_⟩
  · intro conn wallet io reply h
    exact login_ok_iff h wallet
  · intro conn line
    refine ⟨_, handlePoolMessage_eq conn line, ?_⟩
    cases hmsg : fromStr line with
    | error e => exact .inl rfl
    | ok msg =>
      dsimp only
      -- a reply in the same message leaves the job alone
      rw [currentJob_handleReply]
      cases hjob : messageJob msg conn.generation with
      | none => exact .inl rfl
      | some job =>
        obtain ⟨data, hdata, hparse⟩ := Option.bind_eq_some_iff.mp hjob
        exact .inr ⟨msg, data, job, rfl, hdata, isJob_parseJob hparse, rfl⟩

end

/-! ## The steps of the connection model -/

/-- A state of the connection model, as the receiver sees it. -/
structure Agrees {n : Nat} (st : State n) (conn : Conn) : Prop where
  stream : st.stream.isSome = conn.stream.isSome
  generation : st.generation = conn.generation
  sessionId : st.sessionId = conn.sessionId
  currentJob : st.currentJob = conn.currentJob
  requestId : st.requestId = conn.requestId
  pendingShares : st.pendingShares = conn.pendingShares
  counters : st.counters = conn.counters

/-- What the connection model takes for `decode`. -/
def decodeLine (fromStr : String → Except String Json) (raw : List Byte) : Option Json :=
  match fromStr (lineText raw) with
  | .error _ => none
  | .ok msg => some msg

section

variable {fromStr : String → Except String Json} {n : Nat} {st : State n} {conn : Conn}

/-- **The steps for one line** are `handle_pool_message` on its text. -/
theorem handlePoolMessage_agrees (h : Agrees st conn) {raw : List TaggedByte} {lines : List (List TaggedByte)}
    (hpc : st.receiver = .handling (raw :: lines)) :
    ∃ (actions : List ReceiverAction) (st' : State n) (conn' : Conn),
      actions.foldlM (receiverStep (decodeLine fromStr)) st = some st' ∧ st'.receiver = .handling lines ∧
      handlePoolMessage fromStr conn (lineText (raw.map Prod.snd)) = some conn' ∧ Agrees st' conn' := by
  have hstep : receiverStep (decodeLine fromStr) st .next = match decodeLine fromStr (raw.map Prod.snd) with
      | none => some ((st.emit (.line raw)).setReceiver (.handling lines))
      | some msg => some (({ st with currentJob := (messageJob msg st.generation).or st.currentJob }.emit
          (.line raw)).setReceiver (.replying msg lines)) := by
    unfold receiverStep
    rewrite [hpc]
    rfl
  have heq := @handlePoolMessage_eq fromStr conn (lineText (raw.map Prod.snd))
  cases hmsg : fromStr (lineText (raw.map Prod.snd)) with
  | error e =>
    rw [decodeLine, hmsg] at hstep
    rw [hmsg] at heq
    -- the line does not parse: one step, nothing changes
    refine ⟨[.next], (st.emit (.line raw)).setReceiver (.handling lines), conn, ?_, rfl, heq, h.stream, h.generation,
      h.sessionId, h.currentJob, h.requestId, h.pendingShares, h.counters⟩
    rw [List.foldlM_cons, hstep]
    rfl
  | ok msg =>
    rw [decodeLine, hmsg] at hstep
    rw [hmsg] at heq
    -- first step: the job of the message, when it has one
    have hjob : (messageJob msg st.generation).or st.currentJob
        = (messageJob msg conn.generation).or conn.currentJob := by
      rw [h.generation, h.currentJob]
    dsimp only at hstep heq
    generalize hst1 : ({ st with currentJob := (messageJob msg st.generation).or st.currentJob }.emit
      (.line raw)).setReceiver (.replying msg lines) = st1 at hstep
    have hpc1 : st1.receiver = .replying msg lines := by rw [← hst1]; rfl
    have h1 : Agrees st1 { conn with currentJob := (messageJob msg conn.generation).or conn.currentJob } := by
      rw [← hst1]
      exact ⟨h.stream, h.generation, h.sessionId, hjob, h.requestId, h.pendingShares, h.counters⟩
    generalize ({ conn with currentJob := (messageJob msg conn.generation).or conn.currentJob } : Conn) = conn1
      at heq h1
    -- second step: the pending share that the message answers
    have hreplying : receiverStep (decodeLine fromStr) st1 .next = match replyId msg with
        | none => some (st1.setReceiver (.handling lines))
        | some rpcId => match st1.pendingShares.lookup rpcId with
          | none => some (st1.setReceiver (.handling lines))
          | some entry => some ({ st1 with pendingShares := st1.pendingShares.erase rpcId }.setReceiver
              (.counting entry.share (replyFate msg) lines)) := by
      unfold receiverStep
      rewrite [hpc1]
      rfl
    unfold handleReply at heq
    cases hreply : replyId msg with
    | none =>
      rw [hreply] at heq hreplying
      refine ⟨[.next, .next], st1.setReceiver (.handling lines), conn1, ?_, rfl, heq, h1.stream, h1.generation,
        h1.sessionId, h1.currentJob, h1.requestId, h1.pendingShares, h1.counters⟩
      rw [List.foldlM_cons, hstep, Option.bind_eq_bind, Option.bind_some, List.foldlM_cons, hreplying]
      rfl
    | some rpcId =>
      rw [hreply] at heq hreplying
      dsimp only at heq hreplying
      rw [h1.pendingShares] at hreplying
      cases hentry : conn1.pendingShares.lookup rpcId with
      | none =>
        rw [hentry] at heq hreplying
        refine ⟨[.next, .next], st1.setReceiver (.handling lines), conn1, ?_, rfl, heq, h1.stream, h1.generation,
          h1.sessionId, h1.currentJob, h1.requestId, h1.pendingShares, h1.counters⟩
        rw [List.foldlM_cons, hstep, Option.bind_eq_bind, Option.bind_some, List.foldlM_cons, hreplying]
        rfl
      | some entry =>
        rw [hentry] at heq hreplying
        -- third step: the share is counted
        refine ⟨[.next, .next, .next], ({ st1 with
            pendingShares := conn1.pendingShares.erase rpcId }.count entry.share (replyFate msg)).setReceiver
              (.handling lines), _, ?_, rfl, heq, h1.stream, h1.generation, h1.sessionId, h1.currentJob,
          h1.requestId, rfl, ?_⟩
        · rw [List.foldlM_cons, hstep, Option.bind_eq_bind, Option.bind_some, List.foldlM_cons, hreplying,
            Option.bind_eq_bind, Option.bind_some, List.foldlM_cons]
          rfl
        · show st1.counters.bump _ = conn1.counters.bump _
          rw [h1.counters]

/-- What a reply does to a login, in the words of the connection model. -/
theorem loginResponse_eq (conn : Conn) (reply : Json) :
    (∃ sid, loginSession reply = some sid ∧ loginResponse conn reply = (.ok (), { conn with
      sessionId := sid, currentJob := (loginJob reply conn.generation).or conn.currentJob })) ∨
    (loginSession reply = none ∧ ∃ e, loginResponse conn reply = (.error e, conn)) := by
  unfold loginSession loginJob loginResult loginResponse
  cases reply.getNonNull "error" with
  | some error => exact .inr ⟨rfl, _, rfl⟩
  | none =>
    cases reply.getNonNull "result" with
    | none => exact .inr ⟨rfl, _, rfl⟩
    | some result =>
      dsimp only
      cases hid : (result.get "id").bind Json.asStr with
      | none => exact .inr ⟨hid, _, rfl⟩
      | some id =>
        refine .inl ⟨id, hid, ?_⟩
        show _ = (_, ({ conn with
          sessionId := id
          currentJob := ((result.get "job").bind (parseJob · conn.generation)).or conn.currentJob } : Conn))
        cases (result.get "job").bind (parseJob · conn.generation) with
        | none => rfl
        | some job => rfl

variable {decode : List Byte → Option Json}

/-- Where a reply to the login leads. -/
def afterReply (st : State n) (task : Task) (c : Nat) (reply : Json) : State n :=
  let st := { st with requestId := st.requestId + 1 }.emit (.loginReply c reply)
  match loginSession reply with
  | some sid => st.setReceiver (.setSession task sid reply)
  | none => st.setReceiver (.failed task)

/-- Where a login leads. -/
def loginStep (st : State n) (task : Task) (reply : Option Json) : State n :=
  match st.stream, reply with
  | some c, some reply => afterReply st task c reply
  | some _, none => { st with requestId := st.requestId + 1 }.setReceiver (.failed task)
  | none, _ => st.setReceiver (.failed task)

theorem receiverStep_login {task : Task} (hpc : st.receiver = .loggingIn task) (hlock : st.streamLock = none)
    (reply : Option Json) : receiverStep decode st (.login reply) = some (loginStep st task reply) := by
  unfold receiverStep loginStep afterReply
  rw [hpc]
  dsimp only
  rewrite [if_pos hlock]
  cases st.stream with
  | none => rfl
  | some c => cases reply with
    | none => rfl
    | some reply =>
      dsimp only
      cases loginSession reply with
      | none => rfl
      | some sid => rfl

/-- **The steps of a login** are `login`. -/
theorem login_agrees (h : Agrees st conn) {task : Task} (hpc : st.receiver = .loggingIn task)
    (hlock : st.streamLock = none) (wallet : String) (io : Exchange) :
    ∃ (actions : List ReceiverAction) (st' : State n),
      actions.foldlM (receiverStep decode) st = some st' ∧ Agrees st' (login fromStr conn wallet io).2 ∧
      st'.receiver = match (login fromStr conn wallet io).1 with
        | .ok () => .loggedIn task
        | .error _ => .failed task := by
  have hstep : ∀ reply, receiverStep decode st (.login reply) = some (loginStep st task reply) :=
    receiverStep_login hpc hlock
  unfold loginStep at hstep
  unfold login sendRequest
  dsimp only
  have hstream := h.stream
  cases hconn : conn.stream with
  | none =>
    rw [hconn, Option.isSome_none, Option.isSome_eq_false_iff, Option.isNone_iff_eq_none] at hstream
    refine ⟨[.login none], st.setReceiver (.failed task), ?_, ⟨?_, h.generation, h.sessionId, h.currentJob,
      h.requestId, h.pendingShares, h.counters⟩, rfl⟩
    · rw [List.foldlM_cons, hstep, hstream]
      rfl
    · exact congrArg Option.isSome hstream
  | some stream =>
    rw [hconn, Option.isSome_some, Option.isSome_iff_exists] at hstream
    obtain ⟨c, hc⟩ := hstream
    -- a request that is not answered costs its id and fails the task
    have hfailed : ([.login none] : List ReceiverAction).foldlM (receiverStep decode) st
        = some ({ st with requestId := st.requestId + 1 }.setReceiver (.failed task)) := by
      rw [List.foldlM_cons, hstep, hc]
      rfl
    have hid : st.requestId + 1 = conn.requestId + 1 := by rw [h.requestId]
    have hsome : st.stream.isSome = (some stream).isSome := by rw [hc]; rfl
    dsimp only
    cases io.write with
    | error e =>
      exact ⟨_, _, hfailed, ⟨hsome, h.generation, h.sessionId, h.currentJob, hid, h.pendingShares, h.counters⟩, rfl⟩
    | ok u =>
      cases (readLine io.last io.stream).1 with
      | error e =>
        exact ⟨_, _, hfailed, ⟨hsome, h.generation, h.sessionId, h.currentJob, hid, h.pendingShares, h.counters⟩, rfl⟩
      | ok line =>
        dsimp only
        cases fromStr line with
        | error e =>
          exact ⟨_, _, hfailed, ⟨hsome, h.generation, h.sessionId, h.currentJob, hid, h.pendingShares, h.counters⟩,
            rfl⟩
        | ok reply =>
          dsimp only [Except.mapError]
          generalize hconn1 : ({ conn with
            stream := some stream, requestId := conn.requestId + 1, wallet
            userWallet := if conn.userWallet.isEmpty then wallet else conn.userWallet } : Conn) = conn1
          have h1 : Agrees ({ st with requestId := st.requestId + 1 }.emit (.loginReply c reply)) conn1 := by
            rw [← hconn1]
            exact ⟨hsome, h.generation, h.sessionId, h.currentJob, hid, h.pendingShares, h.counters⟩
          have hreply : receiverStep decode st (.login (some reply)) = some (afterReply st task c reply) := by
            rw [hstep, hc]
          unfold afterReply at hreply
          dsimp only at hreply
          generalize { st with requestId := st.requestId + 1 }.emit (.loginReply c reply) = st1 at h1 hreply
          -- accepted: the session, then the job, are set; otherwise neither
          rcases loginResponse_eq conn1 reply with ⟨sid, hsid, hok⟩ | ⟨hsid, e, herror⟩
          · rw [hsid] at hreply
            rw [hok]
            refine ⟨[.login (some reply), .next, .next], ({ st1 with
                sessionId := sid, currentJob := (loginJob reply conn1.generation).or conn1.currentJob }).setReceiver
                  (.loggedIn task), ?_, ⟨h1.stream, h1.generation, rfl, rfl, h1.requestId, h1.pendingShares,
                  h1.counters⟩, rfl⟩
            rw [List.foldlM_cons, hreply, ← h1.generation, ← h1.currentJob]
            rfl
          · rw [hsid] at hreply
            rw [herror]
            refine ⟨[.login (some reply)], st1.setReceiver (.failed task), ?_, ⟨h1.stream, h1.generation, h1.sessionId,
              h1.currentJob, h1.requestId, h1.pendingShares, h1.counters⟩, rfl⟩
            rw [List.foldlM_cons, hreply]
            rfl

end
end Pool
end MinerTim
