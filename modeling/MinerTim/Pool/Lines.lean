import MinerTim.Lib.Lines
import MinerTim.Pool.Connection

/-!
# `Pool.Lines` — how the bytes of a stream become lines of text

`take_complete_lines` and `read_line` of `pool_connection.rs`, down to the text of a line, with the string functions
of the standard library that they use. `feed` is the read handling of `receiver_loop`: reads are appended to a
buffer, from which the complete lines are taken; it ends when an unfinished line is too long, where the source
discards the buffer and the connection. The connection model works with the bytes of the lines, which
`takeCompleteLines_tagged` connects.
-/

namespace MinerTim
namespace Pool
namespace Text

/-! ## Text -/

/-- `\n`. -/
def NEWLINE : Byte := 10

/-- `char::REPLACEMENT_CHARACTER`. -/
def REPLACEMENT_CHARACTER : Char := '\uFFFD'

/-- The rest of a character: `need` continuation bytes, the first of them between `lo` and `hi`. A byte that does
    not fit is left alone, and what was read of the character is one replacement character. -/
def continuation : Nat → Nat → Nat → Nat → List Byte → Char × List Byte
  | 0, _, _, code, bytes => (Char.ofNat code, bytes)
  | need + 1, lo, hi, code, b :: bytes =>
    if lo ≤ b.toNat ∧ b.toNat ≤ hi then continuation need 0x80 0xBF (code * 64 + (b.toNat - 0x80)) bytes
    else (REPLACEMENT_CHARACTER, b :: bytes)
  | _ + 1, _, _, _, [] => (REPLACEMENT_CHARACTER, [])

/-- The first character, or a replacement character for the longest invalid sequence. -/
def firstChar (b : Byte) (bytes : List Byte) : Char × List Byte :=
  let b := b.toNat
  if b < 0x80 then (Char.ofNat b, bytes)
  else if b < 0xC2 then (REPLACEMENT_CHARACTER, bytes)
  else if b < 0xE0 then continuation 1 0x80 0xBF (b - 0xC0) bytes
  else if b < 0xF0 then
    continuation 2 (if b = 0xE0 then 0xA0 else 0x80) (if b = 0xED then 0x9F else 0xBF) (b - 0xE0) bytes
  else if b < 0xF5 then
    continuation 3 (if b = 0xF0 then 0x90 else 0x80) (if b = 0xF4 then 0x8F else 0xBF) (b - 0xF0) bytes
  else (REPLACEMENT_CHARACTER, bytes)

theorem length_continuation (need lo hi code : Nat) (bytes : List Byte) :
    (continuation need lo hi code bytes).2.length ≤ bytes.length := by
  induction need generalizing lo hi code bytes with
  | zero => exact Nat.le_refl _
  | succ need ih =>
    cases bytes with
    | nil => exact Nat.le_refl _
    | cons b bytes =>
      rw [continuation]
      split
      · exact Nat.le_trans (ih 0x80 0xBF _ bytes) (Nat.le_succ _)
      · exact Nat.le_refl _

theorem length_firstChar (b : Byte) (bytes : List Byte) : (firstChar b bytes).2.length ≤ bytes.length := by
  unfold firstChar
  dsimp only
  repeat' split
  all_goals first | exact Nat.le_refl _ | exact length_continuation _ _ _ _ bytes

/-- `String::from_utf8_lossy`, as characters. -/
def fromUtf8Lossy : List Byte → List Char
  | [] => []
  | b :: bytes =>
    have := length_firstChar b bytes
    (firstChar b bytes).1 :: fromUtf8Lossy (firstChar b bytes).2
termination_by bytes => bytes.length

/-- `char::is_whitespace`. -/
def isWhitespace (c : Char) : Bool :=
  let n := c.toNat
  (9 ≤ n && n ≤ 13) || n == 0x20 || n == 0x85 || n == 0xA0 || n == 0x1680 || (0x2000 ≤ n && n ≤ 0x200A)
    || n == 0x2028 || n == 0x2029 || n == 0x202F || n == 0x205F || n == 0x3000

/-- `str::trim`. -/
def trim (s : List Char) : List Char := ((s.dropWhile isWhitespace).reverse.dropWhile isWhitespace).reverse

/-- `String::from_utf8`. -/
def fromUtf8 (bytes : List Byte) : Option String := String.fromUTF8? ⟨(bytes.map UInt8.ofBitVec).toArray⟩

/-- The text of a line. -/
def lineText (raw : List Byte) : String := String.ofList (trim (fromUtf8Lossy raw))

/-! ## `take_complete_lines` -/

/-- The loop: up to each newline, the text of the line unless it is empty. -/
def drainLines (pending : List Byte) (lines : List String) : List String × List Byte :=
  match h : pending.findIdx? (· == NEWLINE) with
  | some pos =>
    have : (pending.drop (pos + 1)).length < pending.length := by
      have hpos := (List.findIdx?_eq_some_iff_findIdx_eq.mp h).1
      rw [List.length_drop]
      omega
    let line := lineText (pending.take (pos + 1))
    drainLines (pending.drop (pos + 1)) (if line.isEmpty then lines else lines ++ [line])
  | none => (lines, pending)
termination_by pending.length

/-- `take_complete_lines`: the lines, or the length of what is left if that is too long; and what is left. -/
def takeCompleteLines (pending : List Byte) : Except Nat (List String) × List Byte :=
  let (lines, pending) := drainLines pending []
  (if MAX_LINE_BYTES < pending.length then .error pending.length else .ok lines, pending)

/-- The read handling of `receiver_loop`: the lines that are handled, and the buffer after the last read, unless the
    buffer overflows. -/
def feed (pending : List Byte) : List (List Byte) → List String × Option (List Byte)
  | [] => ([], some pending)
  | chunk :: chunks =>
    match takeCompleteLines (pending ++ chunk) with
    | (.ok lines, pending) =>
      let rest := feed pending chunks
      (lines ++ rest.1, rest.2)
    | (.error _, _) => ([], none)

/-! ## `read_line` -/

/-- Why a read gives no byte: the stream has ended, or an error. -/
inductive ReadEnd where
  | eof
  | error (e : String)

/-- What `read_line` returns, apart from a line. -/
inductive ReadLineError where
  | tooLong
  | readFailed (e : String)
  | invalidUtf8
deriving DecidableEq

/-- The loop of `read_line`, on the bytes that the stream still has: the line, and the bytes that are not read. -/
def readLineBytes (line : List Byte) (last : ReadEnd) : List Byte → Except ReadLineError (List Byte) × List Byte
  | [] =>
    match last with
    | .eof => (.ok line, [])
    | .error e => (.error (.readFailed e), [])
  | byte :: stream =>
    if byte = NEWLINE then (.ok line, stream)
    else if MAX_LINE_BYTES < (line ++ [byte]).length then (.error .tooLong, stream)
    else readLineBytes (line ++ [byte]) last stream

/-- `read_line`. -/
def readLine (last : ReadEnd) (stream : List Byte) : Except ReadLineError String × List Byte :=
  match readLineBytes [] last stream with
  | (.ok line, stream) => ((fromUtf8 line).elim (.error .invalidUtf8) .ok, stream)
  | (.error e, stream) => (.error e, stream)

/-! ## Lines of a stream -/

/-- What is delivered of the lines of a stream: their text, unless it is empty. -/
def delivered (bodies : List (List Byte)) : List String :=
  (bodies.map fun body => lineText (body ++ [NEWLINE])).filter fun line => !line.isEmpty

variable {stream pending rest tail : List Byte} {bodies : List (List Byte)}

theorem findIdx?_lines {body : List Byte} (h : NEWLINE ∉ body) (rest : List Byte) :
    (body ++ NEWLINE :: rest).findIdx? (· == NEWLINE) = some body.length := by
  rw [List.findIdx?_eq_some_iff_findIdx_eq]
  have hbody : body.findIdx (· == NEWLINE) = body.length := by
    rw [List.findIdx_eq_length]
    intro x hx
    exact beq_eq_false_iff_ne.mpr fun hxn => h (hxn ▸ hx)
  refine ⟨?_, ?_⟩
  · rw [List.length_append, List.length_cons]
    omega
  · rw [List.findIdx_append, hbody, if_neg (Nat.lt_irrefl _), List.findIdx_cons, beq_self_eq_true]
    exact Nat.zero_add _

/-- The loop finds the lines of the buffer. -/
theorem drainLines_eq (h : Lines NEWLINE pending bodies tail) (lines : List String) :
    drainLines pending lines = (lines ++ delivered bodies, tail) := by
  induction bodies generalizing pending lines with
  | nil =>
    obtain rfl : pending = tail := h.eq
    have hnone : pending.findIdx? (· == NEWLINE) = none := by
      rw [List.findIdx?_eq_none_iff]
      intro x hx
      exact beq_eq_false_iff_ne.mpr fun hxn => h.sep_notMem_tail (hxn ▸ hx)
    rw [drainLines]
    split
    next pos hpos => rw [hnone] at hpos; cases hpos
    next => rw [show delivered [] = [] from rfl, List.append_nil]
  | cons body bodies ih =>
    have hsome := findIdx?_lines (h.sep_notMem body List.mem_cons_self) (bodies.flatMap (· ++ [NEWLINE]) ++ tail)
    have htake : pending.take (body.length + 1) = body ++ [NEWLINE] := by
      rw [h.eq_cons, ← List.singleton_append, ← List.append_assoc]
      exact List.take_left' (by rw [List.length_append, List.length_singleton])
    have hdrop : pending.drop (body.length + 1) = bodies.flatMap (· ++ [NEWLINE]) ++ tail := by
      rw [h.eq_cons, ← List.singleton_append, ← List.append_assoc]
      exact List.drop_left' (by rw [List.length_append, List.length_singleton])
    rw [← h.eq_cons] at hsome
    rw [drainLines]
    split
    next pos hpos =>
      obtain rfl : body.length = pos := Option.some.inj (hsome.symm.trans hpos)
      dsimp only
      rw [htake, hdrop, ih h.tail_lines]
      -- a line that is empty after trimming is dropped
      by_cases hempty : (lineText (body ++ [NEWLINE])).isEmpty = true
      · simp only [delivered, List.map_cons, List.filter_cons, hempty]
        rfl
      · simp only [delivered, List.map_cons, List.filter_cons, hempty]
        simp
    next hnone => rw [hsome] at hnone; cases hnone

theorem takeCompleteLines_eq (h : Lines NEWLINE pending bodies tail) : takeCompleteLines pending
    = (if MAX_LINE_BYTES < tail.length then .error tail.length else .ok (delivered bodies), tail) := by
  unfold takeCompleteLines
  rw [drainLines_eq h, List.nil_append]

theorem delivered_append (bodies bodies' : List (List Byte)) :
    delivered (bodies ++ bodies') = delivered bodies ++ delivered bodies' := by
  unfold delivered
  rw [List.map_append, List.filter_append]

/-- **Reads of a stream without a line that is too long**: the lines that end in them, in order, and the tail. -/
theorem feed_eq {chunks : List (List Byte)} {before : List Byte} {done : List (List Byte)}
    (hcut : Lines NEWLINE before done pending) (hall : Lines NEWLINE (before ++ chunks.flatten) (done ++ bodies) tail)
    (hbodies : ∀ b ∈ done ++ bodies, b.length ≤ MAX_LINE_BYTES) (htail : tail.length ≤ MAX_LINE_BYTES) :
    feed pending chunks = (delivered bodies, some tail) := by
  induction chunks generalizing before done pending bodies with
  | nil =>
    rw [List.flatten_nil, List.append_nil] at hall
    obtain ⟨hdone, rfl⟩ := hcut.unique hall
    obtain rfl : bodies = [] := List.self_eq_append_right.mp hdone
    rfl
  | cons chunk chunks ih =>
    obtain ⟨new, pending', hnew⟩ := Lines.exists_lines NEWLINE (pending ++ chunk)
    have hnext := hcut.append hnew
    rw [List.flatten_cons, ← List.append_assoc] at hall
    obtain ⟨more, tail', hmore⟩ := Lines.exists_lines NEWLINE (pending' ++ chunks.flatten)
    obtain ⟨hsplit, rfl⟩ := hall.unique (hnext.append hmore)
    rw [List.append_assoc] at hsplit
    obtain rfl := List.append_cancel_left hsplit
    rw [← List.append_assoc] at hall hbodies
    have hfits := hnext.length_tail_le hall hbodies htail
    rw [feed, takeCompleteLines_eq hnew, if_neg (by omega)]
    dsimp only
    rw [ih hnext hall hbodies, delivered_append]

/-- `read_line` takes the first line, and nothing after it. -/
theorem readLineBytes_eq (last : ReadEnd) {line body : List Byte} (hbody : NEWLINE ∉ body)
    (hlen : (line ++ body).length ≤ MAX_LINE_BYTES) (rest : List Byte) :
    readLineBytes line last (body ++ NEWLINE :: rest) = (.ok (line ++ body), rest) := by
  induction body generalizing line with
  | nil =>
    rw [List.nil_append, readLineBytes, if_pos rfl, List.append_nil]
  | cons b body ih =>
    have hb : b ≠ NEWLINE := fun h => hbody (h ▸ List.mem_cons_self)
    have hrest := @ih (line ++ [b]) (fun h => hbody (List.mem_cons_of_mem b h))
      (by rwa [List.append_assoc, List.singleton_append])
    rw [List.length_append, List.length_cons] at hlen
    rw [List.cons_append, readLineBytes, if_neg hb, if_neg, hrest, List.append_assoc, List.singleton_append]
    rw [List.length_append, List.length_singleton]
    omega

/-- **Reads of any stream**: what is delivered are the lines of the reads that were accepted, and the buffer is their
    unfinished line, which is not too long. -/
theorem feed_spec {chunks : List (List Byte)} {before : List Byte} {done : List (List Byte)}
    (hcut : Lines NEWLINE before done pending) (hfits : pending.length ≤ MAX_LINE_BYTES) :
    ∃ accepted bodies tail, accepted <+: chunks ∧ Lines NEWLINE (before ++ accepted.flatten) (done ++ bodies) tail ∧
      tail.length ≤ MAX_LINE_BYTES ∧ (feed pending chunks).1 = delivered bodies ∧
      ∀ buffer, (feed pending chunks).2 = some buffer → accepted = chunks ∧ buffer = tail := by
  induction chunks generalizing before done pending with
  | nil =>
    refine ⟨[], [], pending, List.prefix_refl [], ?_, hfits, rfl, ?_⟩
    · rwa [List.flatten_nil, List.append_nil, List.append_nil]
    · intro buffer h
      exact ⟨rfl, (Option.some.inj h).symm⟩
  | cons chunk chunks ih =>
    obtain ⟨new, pending', hnew⟩ := Lines.exists_lines NEWLINE (pending ++ chunk)
    have hnext := hcut.append hnew
    rw [feed, takeCompleteLines_eq hnew]
    by_cases hlong : MAX_LINE_BYTES < pending'.length
    · rw [if_pos hlong]
      -- the rest is too long: the read is not delivered at all, not even its whole lines
      refine ⟨[], [], pending, List.nil_prefix, ?_, hfits, rfl, ?_⟩
      · rwa [List.flatten_nil, List.append_nil, List.append_nil]
      · intro buffer h
        cases h
    · rw [if_neg hlong]
      obtain ⟨accepted, bodies, tail, hprefix, hlines, htail, hfst, hsnd⟩ := ih hnext (by omega)
      refine ⟨chunk :: accepted, new ++ bodies, tail, (List.prefix_cons_inj chunk).mpr hprefix, ?_, htail, ?_, ?_⟩
      · rwa [List.flatten_cons, ← List.append_assoc, ← List.append_assoc]
      · dsimp only
        rw [hfst, delivered_append]
      · intro buffer h
        obtain ⟨rfl, hbuffer⟩ := hsnd buffer h
        exact ⟨rfl, hbuffer⟩

/-- **Framing does not depend on the reads.** A stream without a line that is too long is delivered, however it is cut
    into reads, as its lines, and leaves its tail in the buffer; so is what follows the first line, where `read_line`
    took that line. Of any stream, only lines are delivered; a buffer is left that holds no newline and is not too
    long. -/
theorem feed_lines :
    (∀ (stream : List Byte) (bodies : List (List Byte)) (tail : List Byte), Lines NEWLINE stream bodies tail →
      (∀ b ∈ bodies, b.length ≤ MAX_LINE_BYTES) → tail.length ≤ MAX_LINE_BYTES →
      (∀ chunks, chunks.flatten = stream → feed [] chunks = (delivered bodies, some tail)) ∧
      (∀ first others, bodies = first :: others → ∀ last,
        (readLine last stream).1 = (fromUtf8 first).elim (.error .invalidUtf8) .ok ∧
        ∀ chunks, chunks.flatten = (readLine last stream).2 → feed [] chunks = (delivered others, some tail))) ∧
    (∀ pending lines rest, takeCompleteLines pending = (.ok lines, rest) →
      NEWLINE ∉ rest ∧ rest.length ≤ MAX_LINE_BYTES) ∧
    (∀ chunks : List (List Byte), ∃ accepted bodies tail, accepted <+: chunks ∧
      Lines NEWLINE accepted.flatten bodies tail ∧ (feed [] chunks).1 = delivered bodies ∧
      ∀ buffer, (feed [] chunks).2 = some buffer → accepted = chunks ∧ buffer = tail) := by
  have hempty : Lines NEWLINE [] [] [] := Lines.of_notMem List.not_mem_nil
  refine ⟨?_, ?_, ?_⟩
  · intro stream bodies tail h hbodies htail
    refine ⟨?_, ?_⟩
    · rintro chunks rfl
      exact feed_eq hempty h hbodies htail
    · rintro first others rfl last
      -- `read_line` stops behind the first newline, and what it leaves is cut as before
      have hfirst := readLineBytes_eq last (h.sep_notMem first List.mem_cons_self)
        (show ([] ++ first).length ≤ MAX_LINE_BYTES from hbodies first List.mem_cons_self)
        (others.flatMap (· ++ [NEWLINE]) ++ tail)
      rw [List.nil_append] at hfirst
      rw [h.eq_cons, readLine, hfirst]
      refine ⟨rfl, fun chunks hchunks => ?_⟩
      have hrest : chunks.flatten = others.flatMap (· ++ [NEWLINE]) ++ tail := hchunks
      have hothers := h.tail_lines
      rw [← hrest] at hothers
      exact feed_eq hempty hothers (fun b hb => hbodies b (List.mem_cons_of_mem first hb)) htail
  · intro pending lines rest h
    obtain ⟨bodies, tail, hlines⟩ := Lines.exists_lines NEWLINE pending
    rw [takeCompleteLines_eq hlines] at h
    obtain ⟨hresult, rfl⟩ := Prod.mk.inj h
    refine ⟨hlines.sep_notMem_tail, ?_⟩
    by_contra hlong
    rw [if_pos (by omega)] at hresult
    cases hresult
  · intro chunks
    obtain ⟨accepted, bodies, tail, hprefix, hlines, _, hfst, hsnd⟩ := @feed_spec [] chunks [] [] hempty (Nat.zero_le _)
    exact ⟨accepted, bodies, tail, hprefix, hlines, hfst, hsnd⟩

/-! ## The connection model -/

/-- The lines of the connection model, without their tags. -/
theorem splitLines_lines {line : List TaggedByte} (hline : NEWLINE ∉ line.map Prod.snd) (bytes : List TaggedByte) :
    ∃ bodies, (splitLines line bytes).1.map (·.map Prod.snd) = bodies.map (· ++ [NEWLINE]) ∧
      Lines NEWLINE ((line ++ bytes).map Prod.snd) bodies ((splitLines line bytes).2.map Prod.snd) := by
  induction bytes generalizing line with
  | nil =>
    rw [List.append_nil]
    exact ⟨[], rfl, Lines.of_notMem hline⟩
  | cons b bytes ih =>
    rw [splitLines]
    by_cases hb : b.2 = 10
    · obtain ⟨bodies, hraw, hlines⟩ := @ih [] List.not_mem_nil
      rw [if_pos hb]
      refine ⟨line.map Prod.snd :: bodies, ?_, ?_⟩
      · rw [List.map_cons, List.map_cons, hraw, List.map_append, List.map_singleton, hb]
        rfl
      · rw [List.map_append, List.map_cons, hb]
        exact Lines.cons hline hlines
    · rw [if_neg hb]
      have hline' : NEWLINE ∉ (line ++ [b]).map Prod.snd := by
        rw [List.map_append, List.map_singleton, List.mem_append, List.mem_singleton, not_or]
        exact ⟨hline, fun h => hb h.symm⟩
      obtain ⟨bodies, hraw, hlines⟩ := ih hline'
      refine ⟨bodies, hraw, ?_⟩
      rwa [List.append_assoc, List.singleton_append] at hlines

/-- **`take_complete_lines` of the connection model** takes the bytes of these lines. -/
theorem takeCompleteLines_tagged (pending : List TaggedByte) : takeCompleteLines (pending.map Prod.snd)
    = match Pool.takeCompleteLines pending with
      | some (lines, rest) =>
        (.ok ((lines.map fun l => lineText (l.map Prod.snd)).filter fun line => !line.isEmpty), rest.map Prod.snd)
      | none => (.error (splitLines [] pending).2.length, (splitLines [] pending).2.map Prod.snd) := by
  obtain ⟨bodies, hraw, hlines⟩ := @splitLines_lines [] List.not_mem_nil pending
  have htext : (splitLines [] pending).1.map (fun l => lineText (l.map Prod.snd))
      = bodies.map fun body => lineText (body ++ [NEWLINE]) := by
    have hmap := congrArg (List.map lineText) hraw
    rw [List.map_map, List.map_map] at hmap
    exact hmap
  rw [List.nil_append] at hlines
  rw [takeCompleteLines_eq hlines, List.length_map, Pool.takeCompleteLines]
  by_cases hlong : MAX_LINE_BYTES < (splitLines [] pending).2.length
  · rw [if_pos hlong, if_pos hlong]
  · rw [if_neg hlong, if_neg hlong]
    dsimp only
    rw [htext]
    rfl

end Text
end Pool
end MinerTim
