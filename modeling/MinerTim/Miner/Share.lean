import MinerTim.Lib.LittleEndian

/-!
# `Miner.Share` — jobs, nonces and targets

The parts of `miner.rs`, `hex.rs` and `pool_connection.rs` that say what a share is: a job, the nonce
written into its blob, and the comparison of a hash with the job's target.
-/

namespace MinerTim
namespace Miner

/-- A mining job, stamped with the stream generation it was issued on. The generation is a `u64` that
    counts installed connections; it is a natural number here. -/
structure Job where
  blob : List Byte
  target : List Byte
  jobId : String
  seedHash : List Byte
  generation : Nat
deriving DecidableEq, Repr

/-! ## Hex -/

/-- `HEX[n]`. -/
def hexDigit (n : Nat) : Char := "0123456789abcdef".toList.getD n '0'

/-- `hex_encode`. -/
def hexEncode (bytes : List Byte) : String :=
  String.ofList (bytes.flatMap fun b => [hexDigit (b.toNat / 16), hexDigit (b.toNat % 16)])

/-- The value of a hex digit, given as an ASCII byte. -/
def nibble (c : Byte) : Option Byte :=
  let c := c.toNat
  if 48 ≤ c ∧ c ≤ 57 then some (BitVec.ofNat 8 (c - 48))
  else if 97 ≤ c ∧ c ≤ 102 then some (BitVec.ofNat 8 (c - 97 + 10))
  else if 65 ≤ c ∧ c ≤ 70 then some (BitVec.ofNat 8 (c - 65 + 10))
  else none

/-- The loop of `hex_decode` over pairs of digits. -/
def hexPairs : List Byte → Option (List Byte)
  | [] => some []
  | [_] => none
  | hi :: lo :: raw => do
    let byte := ((← nibble hi) <<< 4) ||| (← nibble lo)
    return byte :: (← hexPairs raw)

/-- `hex_decode`: nothing for an odd number of bytes, or for a byte that is no hex digit. -/
def hexDecode (hex : String) : Option (List Byte) :=
  hexPairs (hex.toUTF8.data.toList.map (·.toBitVec))

/-! ## Nonces -/

/-- `write_nonce_le`: bytes 39 to 42 of the blob. -/
def writeNonceLe (blob : List Byte) (nonce : BitVec 32) : List Byte :=
  (((blob.set 39 (byteOf nonce 0)).set 40 (byteOf nonce 1)).set 41 (byteOf nonce 2)).set 42
    (byteOf nonce 3)

/-- The bytes of a nonce, as they stand in the blob. -/
def nonceBytes (nonce : BitVec 32) : List Byte :=
  [byteOf nonce 0, byteOf nonce 1, byteOf nonce 2, byteOf nonce 3]

@[simp] theorem length_writeNonceLe (blob : List Byte) (nonce : BitVec 32) :
    (writeNonceLe blob nonce).length = blob.length := by
  simp [writeNonceLe]

/-- Byte `i` of a blob with a nonce written into it. -/
theorem getElem?_writeNonceLe (blob : List Byte) (nonce : BitVec 32) (i : Nat) :
    (writeNonceLe blob nonce)[i]?
      = if 39 ≤ i ∧ i < 43 ∧ i < blob.length then some (byteOf nonce (i - 39)) else blob[i]? := by
  unfold writeNonceLe
  simp only [List.getElem?_set, List.length_set]
  rcases Nat.lt_or_ge i blob.length with hlen | hlen
  · rcases (by omega : i = 39 ∨ i = 40 ∨ i = 41 ∨ i = 42 ∨ (i < 39 ∨ 43 ≤ i)) with
      rfl | rfl | rfl | rfl | h
    · simp [hlen]
    · simp [hlen]
    · simp [hlen]
    · simp [hlen]
    · rw [if_neg (by omega), if_neg (by omega), if_neg (by omega), if_neg (by omega),
        if_neg (by omega)]
  · rw [List.getElem?_eq_none hlen, if_neg (c := 39 ≤ i ∧ i < 43 ∧ i < blob.length) (by omega)]
    split_ifs <;> first | rfl | omega

/-- Writing a nonce forgets the one written before. -/
theorem writeNonceLe_writeNonceLe (blob : List Byte) (nonce nonce' : BitVec 32) :
    writeNonceLe (writeNonceLe blob nonce) nonce' = writeNonceLe blob nonce' := by
  apply List.ext_getElem?
  intro i
  simp only [getElem?_writeNonceLe, length_writeNonceLe]
  split_ifs <;> rfl

/-- The nonce is read back from bytes 39 to 42. -/
theorem take_drop_writeNonceLe {blob : List Byte} (h : 43 ≤ blob.length) (nonce : BitVec 32) :
    ((writeNonceLe blob nonce).drop 39).take 4 = nonceBytes nonce := by
  apply List.ext_getElem?
  intro i
  rw [List.getElem?_take, List.getElem?_drop, getElem?_writeNonceLe]
  rcases Nat.lt_or_ge i 4 with hi | hi
  · rw [if_pos hi, if_pos (by omega)]
    interval_cases i <;> rfl
  · rw [if_neg (by omega), List.getElem?_eq_none (by simpa [nonceBytes] using hi)]

/-! ## Targets -/

/-- `meets_target`: a little-endian comparison of the top of the hash with an 8-byte target, or with a
    compact 4-byte one; a target of zero and a shorter one are met by nothing. -/
def meetsTarget (hash : Vector Byte 32) (target : List Byte) : Bool :=
  let targetByte (k : Nat) : Byte := target.getD k 0
  if 8 ≤ target.length then
    let targetVal := leWord targetByte
    targetVal != 0 && decide (leWord (fun k => byteAt hash (24 + k)) ≤ targetVal)
  else if 4 ≤ target.length then
    let targetVal := leWord32 targetByte
    targetVal != 0 && decide (leWord32 (fun k => byteAt hash (28 + k)) ≤ targetVal)
  else false

/-! ## Verdicts -/

/-- What to do with a candidate share once the reference path has had its say. -/
inductive ShareVerdict where
  | SubmitUnverified
  | SubmitVerified
  | SubmitVerifierUnavailable
  | Withhold
deriving DecidableEq, Repr

/-- `should_submit`. -/
def ShareVerdict.shouldSubmit (v : ShareVerdict) : Bool := v != .Withhold

/-- `classify_share`. -/
def classifyShare (verificationApplies : Bool) (mined : Vector Byte 32)
    (reference : Option (Vector Byte 32)) : ShareVerdict :=
  if verificationApplies then
    match reference with
    | none => .SubmitVerifierUnavailable
    | some r => if r = mined then .SubmitVerified else .Withhold
  else .SubmitUnverified

end Miner
end MinerTim
