import MinerTim.Miner.HexSpec
import MinerTim.Pool.Lines

/-!
# `Pool.Tls` — the pinned certificate, from the command line to the connection

`parse_tls_fingerprint_with` of `bin/minertim.rs` and `connect` of `pool_connection.rs`, with what lies between. The
state `Conn` is a `PoolConnection` as its receiver thread sees it, whose methods run one after the other; what the
operating system and the TLS library answer is an argument (`ConnectIo`). SHA-256, the validation of a certificate
against the root store and the quoting of a string are parameters.
-/

namespace MinerTim
namespace Pool

open Miner
open Text (trim)

/-- `CertFingerprint`. -/
abbrev CertFingerprint := Vector Byte 32

/-- `str::trim`, on strings. -/
def trimmed (s : String) : String := String.ofList (trim s.toList)

/-- `str::strip_prefix`. -/
def stripPrefix (s pattern : String) : Option String := (pattern.toList.isPrefixOf? s.toList).map String.ofList

/-- `str::rsplit_once`. -/
def rsplitOnce (s : String) (c : Char) : Option (String × String) :=
  match s.toList.reverse.span (· != c) with
  | (after, _ :: before) => some (String.ofList before.reverse, String.ofList after.reverse)
  | (_, []) => none

/-- `str::parse::<u16>`: digits after at most one plus sign. -/
def parseU16 (s : String) : Option Nat :=
  let digits := match s.toList with
    | '+' :: d :: rest => d :: rest
    | chars => chars
  if digits ≠ [] ∧ digits.all Char.isDigit then
    let value := digits.foldl (fun n d => n * 10 + (d.toNat - 48)) 0
    if value < 2 ^ 16 then some value else none
  else none

/-! ## The fingerprint -/

/-- `try_into`, of bytes into a fingerprint. -/
def toFingerprint (bytes : List Byte) : Option CertFingerprint :=
  if h : bytes.length = 32 then some ⟨bytes.toArray, h⟩ else none

/-- `parse_cert_fingerprint`. -/
def parseCertFingerprint (text : String) : Option CertFingerprint :=
  let cleaned := String.ofList (text.toList.filter (· != ':'))
  if cleaned.utf8ByteSize ≠ 64 then none
  else do toFingerprint (← hexDecode cleaned)

/-! ## The command line -/

section

variable (debug : String → String)

/-- The closure `parse`. -/
def parseFingerprintValue (v : String) : Except String (Option CertFingerprint) :=
  if (trimmed v).isEmpty then .ok none
  else
    match parseCertFingerprint (trimmed v) with
    | some fingerprint => .ok (some fingerprint)
    | none => .error ("--tls-fingerprint: expected 64 hex characters (SHA-256), got " ++ debug (trimmed v)
        ++ ".\nRead a pool's fingerprint with:\n  openssl s_client -connect <host>:<port> -servername <host>"
        ++ " </dev/null \\\n    2>/dev/null | openssl x509 -noout -fingerprint -sha256\n"
        ++ "Paste only the hex after the '=' — colons are fine, the label is not.")

/-- The `while` loop of `parse_tls_fingerprint_with`, from some argument on. -/
def parseFingerprintArgs : List String → Option CertFingerprint → Except String (Option CertFingerprint)
  | [], resolved => .ok resolved
  | arg :: args, resolved =>
    match stripPrefix arg "--tls-fingerprint=" with
    | some v => do parseFingerprintArgs args ((← parseFingerprintValue debug v).or resolved)
    | none =>
      if arg = "--tls-fingerprint" then
        match args with
        | v :: args => do parseFingerprintArgs args ((← parseFingerprintValue debug v).or resolved)
        | [] => .ok resolved
      else parseFingerprintArgs args resolved

/-- `parse_tls_fingerprint_with`. -/
def parseTlsFingerprintWith (args : List String) (envValue : Option String) :
    Except String (Option CertFingerprint) := do
  let resolved ← (match envValue with
    | some v => if (trimmed v).isEmpty then .ok none else parseFingerprintValue debug v
    | none => .ok none)
  parseFingerprintArgs debug args resolved

end

/-! ## The verifier -/

/-- The certificate verifier of a connection. -/
inductive ServerVerifier where
  | webPki
  /-- `PinnedCertVerifier`. -/
  | pinned (expected : CertFingerprint)
deriving DecidableEq

/-- `server_verifier`. -/
def serverVerifier : Option CertFingerprint → ServerVerifier
  | some expected => .pinned expected
  | none => .webPki

/-- `verify_server_cert`. -/
def ServerVerifier.verifyServerCert (sha256 : List Byte → CertFingerprint) (webPki : List Byte → Except String Unit)
    (endEntity : List Byte) : ServerVerifier → Except String Unit
  | .webPki => webPki endEntity
  | .pinned expected =>
    let actual := sha256 endEntity
    if actual = expected then .ok ()
    else .error ("pool certificate does not match the pinned fingerprint.\n                   expected: "
      ++ hexEncode expected.toList ++ "\n                   presented: " ++ hexEncode actual.toList
      ++ "\n                   The pool may have renewed its certificate — re-read it with "
      ++ "`openssl s_client -connect <host>:<port> -servername <host> </dev/null "
      ++ "| openssl x509 -noout -fingerprint -sha256` and update "
      ++ "--tls-fingerprint. If you did not expect a change, treat this as a "
      ++ "possible interception and do not simply overwrite the pin.")

/-! ## Connecting -/

/-- `TLS_PORTS`. -/
def TLS_PORTS : List Nat := [443, 993, 995, 3333, 9999, 14433]

/-- `is_tls_port`: TLS unless the address ends in another port. -/
def isTlsPort (address : String) : Bool :=
  ((rsplitOnce address ':').bind fun p => parseU16 p.2).elim true TLS_PORTS.contains

/-- `PoolStream`. -/
inductive PoolStream where
  | Plain
  | Tls (config : ServerVerifier)
deriving DecidableEq

/-- A `PoolConnection`. -/
structure Conn where
  tlsConfig : ServerVerifier
  pinnedFingerprint : Option CertFingerprint
  stream : Option PoolStream
  connected : Bool
  address : String
  wallet : String
  userWallet : String
  sessionId : String
  currentJob : Option Job
  generation : Nat
  requestId : Nat
  pendingShares : PendingShares
  counters : Counters

/-- `with_tls_fingerprint`. -/
def Conn.withTlsFingerprint (fingerprint : Option CertFingerprint) : Conn where
  tlsConfig := serverVerifier fingerprint
  pinnedFingerprint := fingerprint
  stream := none
  connected := false
  address := ""
  wallet := ""
  userWallet := ""
  sessionId := ""
  currentJob := none
  generation := 0
  requestId := 1
  pendingShares := ∅
  counters := .zero

/-- What the operating system and the TLS library answer during `connect`. -/
structure ConnectIo where
  connect : Except String Unit
  setReadTimeout : Except String Unit
  setWriteTimeout : Except String Unit
  setNodelay : Except String Unit
  serverName : Except String Unit
  clientConnection : Except String Unit

/-- `map_err` with a prefix. -/
def mapErr (x : Except String Unit) (text : String) : Except String Unit := x.mapError (text ++ ·)

/-- The stream that `connect` opens. -/
def openStream (conn : Conn) (address : String) (io : ConnectIo) : Except String PoolStream := do
  if conn.pinnedFingerprint.isSome && !isTlsPort address then
    throw ("a TLS certificate is pinned, but port " ++ ((rsplitOnce address ':').map Prod.snd).getD "?"
      ++ " is not treated as a TLS port, so the connection would be plaintext and the pin would do nothing. Refusing"
      ++ " rather than connecting unauthenticated.\n  If this pool speaks TLS on that port, it needs adding to"
      ++ " TLS_PORTS (" ++ toString TLS_PORTS
      ++ ").\n  If it does not, remove the pin — there is no certificate to pin.")
  mapErr io.connect "TCP connect failed: "
  mapErr io.setReadTimeout "Set read timeout failed: "
  mapErr io.setWriteTimeout "Set write timeout failed: "
  mapErr io.setNodelay "Set nodelay failed: "
  if isTlsPort address then
    let host := ((rsplitOnce address ':').map Prod.fst).getD address
    mapErr io.serverName ("Invalid server name '" ++ host ++ "': ")
    mapErr io.clientConnection "TLS setup failed: "
    return .Tls conn.tlsConfig
  else return .Plain

/-- `connect`. -/
def connect (conn : Conn) (address : String) (io : ConnectIo) : Except String Unit × Conn :=
  match openStream conn address io with
  | .error e => (.error e, conn)
  | .ok stream =>
    (.ok (), { conn with
      address, stream := some stream, generation := conn.generation + 1, connected := true })

/-! ## The values of the option -/

/-- The values that the arguments give the option, from left to right. -/
def suppliedValues : List String → List String
  | [] => []
  | arg :: args =>
    match stripPrefix arg "--tls-fingerprint=" with
    | some v => v :: suppliedValues args
    | none =>
      if arg = "--tls-fingerprint" then
        match args with
        | v :: args => v :: suppliedValues args
        | [] => []
      else suppliedValues args

/-- The values that say something, of some values. -/
def nonBlank (values : List String) : List String := values.filter fun v => !(trimmed v).isEmpty

/-- A value is the hex digits of a fingerprint, apart from colons and surrounding whitespace. -/
def IsFingerprint (v : String) (fingerprint : CertFingerprint) : Prop :=
  ((trimmed v).toList.filter (· != ':')).map Char.toLower = (hexEncode fingerprint.toList).toList

theorem length_hexPairs {raw bytes : List Byte} (h : hexPairs raw = some bytes) : raw.length = 2 * bytes.length := by
  induction raw using hexPairs.induct generalizing bytes with
  | case1 =>
    cases h
    rfl
  | case2 b => cases h
  | case3 hi lo raw ih =>
    rw [hexPairs] at h
    simp only [Option.bind_eq_bind, Option.bind_eq_some_iff, Option.pure_def, Option.some.injEq] at h
    obtain ⟨_, _, _, _, rest, hrest, rfl⟩ := h
    have hlen := ih hrest
    rw [List.length_cons, List.length_cons, List.length_cons]
    omega

theorem utf8ByteSize_of_hexDecode {s : String} {bytes : List Byte} (h : hexDecode s = some bytes) :
    s.utf8ByteSize = 2 * bytes.length := by
  rw [← length_hexPairs h, List.length_map, Array.length_toList]
  rfl

/-- `parse_cert_fingerprint` reads exactly the fingerprints. -/
theorem parseCertFingerprint_eq_some_iff (v : String) (fingerprint : CertFingerprint) :
    parseCertFingerprint (trimmed v) = some fingerprint ↔ IsFingerprint v fingerprint := by
  unfold IsFingerprint
  have hdecode := hexDecode_eq_some_iff (String.ofList ((trimmed v).toList.filter (· != ':'))) fingerprint.toList
  rw [String.toList_ofList] at hdecode
  rw [← hdecode]
  unfold parseCertFingerprint
  dsimp only
  refine ⟨?_, ?_⟩
  · intro h
    split at h
    · cases h
    · obtain ⟨bytes, hbytes, hfp⟩ := Option.bind_eq_some_iff.mp h
      unfold toFingerprint at hfp
      split at hfp
      · cases hfp
        exact hbytes
      · cases hfp
  · intro h
    have hsize := utf8ByteSize_of_hexDecode h
    rw [Vector.length_toList] at hsize
    rw [if_neg (not_not.mpr hsize), h]
    exact dif_pos Vector.length_toList

/-! ## A pin is not dropped -/

variable {debug : String → String}

/-- What one value does: nothing if it is blank, an error if it is no fingerprint. -/
theorem parseFingerprintValue_cases (v : String) :
    ((trimmed v).isEmpty = true ∧ parseFingerprintValue debug v = .ok none) ∨
    ((trimmed v).isEmpty = false ∧
      ((∃ fingerprint, IsFingerprint v fingerprint ∧ parseFingerprintValue debug v = .ok (some fingerprint)) ∨
        (∀ fingerprint, ¬ IsFingerprint v fingerprint) ∧ ∃ e, parseFingerprintValue debug v = .error e)) := by
  unfold parseFingerprintValue
  by_cases hblank : (trimmed v).isEmpty = true
  · exact .inl ⟨hblank, if_pos hblank⟩
  · refine .inr ⟨by simpa using hblank, ?_⟩
    rw [if_neg hblank]
    cases hparse : parseCertFingerprint (trimmed v) with
    | some fingerprint => exact .inl ⟨fingerprint, (parseCertFingerprint_eq_some_iff v fingerprint).mp hparse, rfl⟩
    | none =>
      refine .inr ⟨fun fingerprint h => ?_, _, rfl⟩
      rw [(parseCertFingerprint_eq_some_iff v fingerprint).mpr h] at hparse
      cases hparse

/-- What the values make of what was resolved before them. -/
structure Resolves (values : List String) (resolved : Option CertFingerprint)
    (result : Except String (Option CertFingerprint)) : Prop where
  error : (∃ v ∈ nonBlank values, ∀ fingerprint, ¬ IsFingerprint v fingerprint) → ∃ e, result = .error e
  last : (∀ v ∈ nonBlank values, ∃ fingerprint, IsFingerprint v fingerprint) →
    ∀ v, (nonBlank values).getLast? = some v →
      ∃ fingerprint, IsFingerprint v fingerprint ∧ result = .ok (some fingerprint)
  none : nonBlank values = [] → result = .ok resolved

/-- One more value before the others. -/
theorem Resolves.cons {v : String} {values : List String} {resolved : Option CertFingerprint}
    {rest : Option CertFingerprint → Except String (Option CertFingerprint)}
    (h : ∀ resolved, Resolves values resolved (rest resolved)) :
    Resolves (v :: values) resolved (do rest ((← parseFingerprintValue debug v).or resolved)) := by
  have hfilter : nonBlank (v :: values) = if (trimmed v).isEmpty then nonBlank values else v :: nonBlank values := by
    unfold nonBlank
    rw [List.filter_cons]
    cases (trimmed v).isEmpty <;> rfl
  rcases @parseFingerprintValue_cases debug v with ⟨hblank, hparse⟩ | ⟨hblank, ⟨fp, hfp, hparse⟩ | ⟨hbad, e, hparse⟩⟩
  · -- blank: the value is passed over
    have hrest := h resolved
    rw [hblank, if_pos rfl] at hfilter
    rw [hparse]
    refine ⟨?_, ?_, ?_⟩
    · rw [hfilter]
      exact hrest.error
    · rw [hfilter]
      exact hrest.last
    · rw [hfilter]
      exact hrest.none
  · -- a fingerprint: it replaces the earlier one, and a later one replaces it
    have hrest := h (some fp)
    rw [hblank, if_neg Bool.false_ne_true] at hfilter
    rw [hparse]
    refine ⟨?_, ?_, ?_⟩
    · rw [hfilter]
      rintro ⟨w, hw, hbad⟩
      rcases List.mem_cons.mp hw with rfl | hw
      · exact absurd hfp (hbad fp)
      · exact hrest.error ⟨w, hw, hbad⟩
    · rw [hfilter]
      intro hall w hw
      cases hvalues : nonBlank values with
      | nil =>
        rw [hvalues] at hw
        cases hw
        exact ⟨fp, hfp, hrest.none hvalues⟩
      | cons x xs =>
        rw [hvalues, List.getLast?_cons_cons] at hw
        rw [hvalues] at hall
        refine hrest.last ?_ w (hvalues ▸ hw)
        rw [hvalues]
        exact fun y hy => hall y (List.mem_cons_of_mem v hy)
    · rw [hfilter]
      exact fun hnil => absurd hnil (List.cons_ne_nil _ _)
  · rw [hblank, if_neg Bool.false_ne_true] at hfilter
    rw [hparse]
    -- anything else is an error at once, whatever follows
    refine ⟨fun _ => ⟨e, rfl⟩, ?_, ?_⟩
    · rw [hfilter]
      intro hall
      obtain ⟨fp, hfp⟩ := hall v List.mem_cons_self
      exact absurd hfp (hbad fp)
    · rw [hfilter]
      exact fun hnil => absurd hnil (List.cons_ne_nil _ _)

theorem resolves_nil (resolved : Option CertFingerprint) : Resolves [] resolved (.ok resolved) := by
  refine ⟨?_, ?_, fun _ => rfl⟩
  · rintro ⟨v, hv, _⟩
    exact absurd hv List.not_mem_nil
  · intro _ v hv
    cases hv

/-- The loop over the arguments. -/
theorem resolves_parseFingerprintArgs (args : List String) (resolved : Option CertFingerprint) :
    Resolves (suppliedValues args) resolved (parseFingerprintArgs debug args resolved) := by
  induction args using suppliedValues.induct generalizing resolved with
  | case1 => exact resolves_nil resolved
  | case2 arg args v hv ih =>
    unfold suppliedValues parseFingerprintArgs
    rw [hv]
    exact Resolves.cons ih
  | case3 v args hv ih =>
    unfold suppliedValues parseFingerprintArgs
    rw [hv]
    dsimp only
    rw [if_pos rfl, if_pos rfl]
    exact Resolves.cons ih
  | case4 hv =>
    unfold suppliedValues parseFingerprintArgs
    rw [hv]
    dsimp only
    rw [if_pos rfl, if_pos rfl]
    exact resolves_nil resolved
  | case5 arg args hv harg ih =>
    unfold suppliedValues parseFingerprintArgs
    rw [hv]
    dsimp only
    rw [if_neg harg, if_neg harg]
    exact ih resolved

theorem resolves_parseTlsFingerprintWith (args : List String) (envValue : Option String) :
    Resolves (envValue.toList ++ suppliedValues args) none (parseTlsFingerprintWith debug args envValue) := by
  unfold parseTlsFingerprintWith
  cases envValue with
  | none => exact resolves_parseFingerprintArgs args none
  | some v =>
    have hblank : (if (trimmed v).isEmpty then .ok none else parseFingerprintValue debug v)
        = parseFingerprintValue debug v := by
      by_cases h : (trimmed v).isEmpty = true
      · rw [if_pos h, parseFingerprintValue, if_pos h]
      · rw [if_neg h]
    have hcons := @Resolves.cons debug v (suppliedValues args) none _ (@resolves_parseFingerprintArgs debug args)
    simp only [Option.or_none] at hcons
    dsimp only
    rw [hblank]
    exact hcons

/-! ## A pin is not bypassed -/

theorem exists_of_bind_eq_ok {α β : Type} {x : Except String α} {f : α → Except String β} {b : β}
    (h : x >>= f = .ok b) : ∃ a, x = .ok a ∧ f a = .ok b := by
  cases x with
  | error e => cases h
  | ok a => exact ⟨a, rfl, h⟩

/-- What `connect` leaves: nothing new, or a stream that a pinned connection has only over TLS. -/
theorem connect_stream (conn : Conn) (address : String) (io : ConnectIo) :
    (∃ e, connect conn address io = (.error e, conn)) ∨
    ∃ stream, connect conn address io = (.ok (), { conn with
      address, stream := some stream, generation := conn.generation + 1, connected := true }) ∧
      (conn.pinnedFingerprint.isSome = true → stream = .Tls conn.tlsConfig) := by
  unfold connect
  cases hopen : openStream conn address io with
  | error e => exact .inl ⟨e, rfl⟩
  | ok stream =>
    refine .inr ⟨stream, rfl, fun hpin => ?_⟩
    unfold openStream at hopen
    by_cases hport : isTlsPort address = true
    · rw [hpin, hport] at hopen
      obtain ⟨_, _, hopen⟩ := exists_of_bind_eq_ok hopen
      obtain ⟨_, _, hopen⟩ := exists_of_bind_eq_ok hopen
      obtain ⟨_, _, hopen⟩ := exists_of_bind_eq_ok hopen
      obtain ⟨_, _, hopen⟩ := exists_of_bind_eq_ok hopen
      obtain ⟨_, _, hopen⟩ := exists_of_bind_eq_ok hopen
      obtain ⟨_, _, hopen⟩ := exists_of_bind_eq_ok hopen
      exact (Except.ok.inj hopen).symm
    · rw [hpin, Bool.eq_false_of_not_eq_true hport] at hopen
      cases hopen

/-- A connection after any attempts to connect. -/
def connects (conn : Conn) (attempts : List (String × ConnectIo)) : Conn :=
  attempts.foldl (fun conn attempt => (connect conn attempt.1 attempt.2).2) conn

/-- A pinned connection has its stream over TLS, with the verifier of the pin. -/
structure PinHeld (fingerprint : CertFingerprint) (conn : Conn) : Prop where
  pinned : conn.pinnedFingerprint = some fingerprint
  config : conn.tlsConfig = .pinned fingerprint
  stream : ∀ stream, conn.stream = some stream → stream = .Tls (.pinned fingerprint)

theorem PinHeld.connect {fingerprint : CertFingerprint} {conn : Conn} (h : PinHeld fingerprint conn)
    (address : String) (io : ConnectIo) : PinHeld fingerprint (connect conn address io).2 := by
  rcases connect_stream conn address io with ⟨e, heq⟩ | ⟨stream, heq, htls⟩
  · rw [heq]
    exact h
  · rw [heq]
    refine ⟨h.pinned, h.config, fun stream' hstream => ?_⟩
    obtain rfl : stream = stream' := Option.some.inj hstream
    rw [htls (by rw [h.pinned]; rfl), h.config]

theorem pinHeld_connects (fingerprint : CertFingerprint) (attempts : List (String × ConnectIo)) :
    PinHeld fingerprint (connects (.withTlsFingerprint (some fingerprint)) attempts) := by
  have hrun : ∀ conn, PinHeld fingerprint conn → PinHeld fingerprint (connects conn attempts) := by
    induction attempts with
    | nil => exact fun conn h => h
    | cons attempt attempts ih => exact fun conn h => ih _ (h.connect attempt.1 attempt.2)
  exact hrun _ ⟨rfl, rfl, nofun⟩

/-- **A configured pin is never dropped.** The option is refused if one of its values that are not blank, from the
    environment or the arguments, is no fingerprint; otherwise it is the fingerprint of the last of them, and nothing
    only if there is none. A connection that is made with a pin is never in plaintext, and its verifier accepts
    exactly the certificates whose SHA-256 is the pin. -/
theorem pin_is_never_dropped (debug : String → String) (sha256 : List Byte → CertFingerprint)
    (webPki : List Byte → Except String Unit) :
    (∀ (args : List String) (envValue : Option String),
      ((∃ v ∈ nonBlank (envValue.toList ++ suppliedValues args), ∀ fingerprint, ¬ IsFingerprint v fingerprint) →
        ∃ e, parseTlsFingerprintWith debug args envValue = .error e) ∧
      ((∀ v ∈ nonBlank (envValue.toList ++ suppliedValues args), ∃ fingerprint, IsFingerprint v fingerprint) →
        ∀ v, (nonBlank (envValue.toList ++ suppliedValues args)).getLast? = some v → ∃ fingerprint,
          IsFingerprint v fingerprint ∧ parseTlsFingerprintWith debug args envValue = .ok (some fingerprint)) ∧
      (nonBlank (envValue.toList ++ suppliedValues args) = [] →
        parseTlsFingerprintWith debug args envValue = .ok none)) ∧
    (∀ (conn : Conn) (address : String) (io : ConnectIo), conn.pinnedFingerprint.isSome = true →
      (connect conn address io).2.stream = conn.stream ∨
        (connect conn address io).2.stream = some (.Tls conn.tlsConfig)) ∧
    (∀ (fingerprint : CertFingerprint) (attempts : List (String × ConnectIo)) (stream : PoolStream),
      (connects (.withTlsFingerprint (some fingerprint)) attempts).stream = some stream →
      stream = .Tls (serverVerifier (some fingerprint))) ∧
    (∀ (fingerprint : CertFingerprint) (certificate : List Byte),
      (serverVerifier (some fingerprint)).verifyServerCert sha256 webPki certificate = .ok ()
        ↔ sha256 certificate = fingerprint) := by
  refine ⟨?_, ?_, ?_, ?_⟩
  · intro args envValue
    have h := @resolves_parseTlsFingerprintWith debug args envValue
    exact ⟨h.error, h.last, h.none⟩
  · intro conn address io hpin
    rcases connect_stream conn address io with ⟨e, heq⟩ | ⟨stream, heq, htls⟩
    · exact .inl (by rw [heq])
    · exact .inr (by rw [heq, htls hpin])
  · intro fingerprint attempts
    exact (pinHeld_connects fingerprint attempts).stream
  · -- with a pin only the hash of the certificate counts, not its chain
    intro fingerprint certificate
    rw [serverVerifier, ServerVerifier.verifyServerCert]
    by_cases h : sha256 certificate = fingerprint
    · rw [if_pos h]
      exact ⟨fun _ => h, fun _ => rfl⟩
    · rw [if_neg h]
      exact ⟨nofun, fun h' => absurd h' h⟩

end Pool
end MinerTim
