import MinerTim.Lib.Blake2

/-!
# `RandomX.Blake2b` — the hash function of `src/randomx/blake2b.rs`

`blake2b_full` consumes its input byte by byte, through a buffer that is compressed only when another byte
arrives: a full last block waits for the final compression. `Absorbed` says what the state of that loop is after
any input, in terms of the blocks of the specification, and `blake2bFull_eq` follows.

`none` is a panic: the two assertions on the lengths, and a write past the end of the buffer, which never happens.
The byte counter is a `u128`.
-/

namespace MinerTim
namespace RandomX
namespace Blake2b

open Blake2 (Work)

/-- `IV`. -/
def IV : Vector Word 8 :=
  #v[0x6a09e667f3bcc908, 0xbb67ae8584caa73b, 0x3c6ef372fe94f82b, 0xa54ff53a5f1d36f1,
    0x510e527fade682d1, 0x9b05688c2b3e6c1f, 0x1f83d9abfb41bd6b, 0x5be0cd19137e2179]

/-- `SIGMA`: one row for each of the twelve rounds. -/
def SIGMA : Vector (Vector (Fin 16) 16) 12 :=
  #v[#v[0, 1, 2, 3, 4, 5, 6, 7, 8, 9, 10, 11, 12, 13, 14, 15],
    #v[14, 10, 4, 8, 9, 15, 13, 6, 1, 12, 0, 2, 11, 7, 5, 3],
    #v[11, 8, 12, 0, 5, 2, 15, 13, 10, 14, 3, 6, 7, 1, 9, 4],
    #v[7, 9, 3, 1, 13, 12, 11, 14, 2, 6, 5, 10, 4, 0, 15, 8],
    #v[9, 0, 5, 7, 2, 4, 10, 15, 14, 1, 11, 12, 6, 8, 3, 13],
    #v[2, 12, 6, 10, 0, 11, 8, 3, 4, 13, 7, 5, 15, 14, 1, 9],
    #v[12, 5, 1, 15, 14, 13, 4, 10, 0, 7, 6, 3, 9, 2, 8, 11],
    #v[13, 11, 7, 14, 12, 1, 3, 9, 5, 0, 15, 4, 8, 6, 2, 10],
    #v[6, 15, 14, 9, 11, 3, 0, 8, 12, 2, 13, 7, 1, 4, 10, 5],
    #v[10, 2, 8, 4, 7, 6, 1, 5, 15, 11, 9, 14, 3, 12, 13, 0],
    #v[0, 1, 2, 3, 4, 5, 6, 7, 8, 9, 10, 11, 12, 13, 14, 15],
    #v[14, 10, 4, 8, 9, 15, 13, 6, 1, 12, 0, 2, 11, 7, 5, 3]]

/-- `g`. -/
def g (v : Work) (a b c d : Fin 16) (x y : Word) : Work :=
  let v := v.set a (v[a] + v[b] + x)
  let v := v.set d ((v[d] ^^^ v[a]).rotateRight 32)
  let v := v.set c (v[c] + v[d])
  let v := v.set b ((v[b] ^^^ v[c]).rotateRight 24)
  let v := v.set a (v[a] + v[b] + y)
  let v := v.set d ((v[d] ^^^ v[a]).rotateRight 16)
  let v := v.set c (v[c] + v[d])
  v.set b ((v[b] ^^^ v[c]).rotateRight 63)

/-- The eight calls of one round. -/
def mixRound (m : Vector Word 16) (s : Vector (Fin 16) 16) (v : Work) : Work :=
  let v := g v 0 4 8 12 m[s[0]] m[s[1]]
  let v := g v 1 5 9 13 m[s[2]] m[s[3]]
  let v := g v 2 6 10 14 m[s[4]] m[s[5]]
  let v := g v 3 7 11 15 m[s[6]] m[s[7]]
  let v := g v 0 5 10 15 m[s[8]] m[s[9]]
  let v := g v 1 6 11 12 m[s[10]] m[s[11]]
  let v := g v 2 7 8 13 m[s[12]] m[s[13]]
  g v 3 4 9 14 m[s[14]] m[s[15]]

/-- `compress`. -/
def compress (h : Vector Word 8) (block : Vector Byte 128) (t : BitVec 128) (last : Bool) : Vector Word 8 :=
  let v : Work := h ++ IV
  let v := v.set 12 (v[12] ^^^ t.setWidth 64)
  let v := v.set 13 (v[13] ^^^ (t >>> 64).setWidth 64)
  let v := if last then v.set 14 (~~~v[14]) else v
  let m := Vector.ofFn fun i : Fin 16 => leWord fun k => byteAt block (i * 8 + k)
  let v := (List.finRange 12).foldl (fun v i => mixRound m SIGMA[i] v) v
  Vector.ofFn fun i : Fin 8 => h[i] ^^^ (v[i.val] ^^^ v[i.val + 8])

/-- The variables of `blake2b_full` that its loop changes. -/
structure Hasher where
  h : Vector Word 8
  t : BitVec 128
  buf : Vector Byte 128
  bufLen : Nat

/-- One byte of the input. -/
def absorb (st : Hasher) (byte : Byte) : Option Hasher :=
  let st := if st.bufLen = 128 then
      { h := compress st.h st.buf (st.t + 128) false, t := st.t + 128, buf := Vector.replicate 128 0, bufLen := 0 }
    else st
  if hlt : st.bufLen < 128 then some { st with buf := st.buf.set st.bufLen byte, bufLen := st.bufLen + 1 }
  else none

/-- The state before the input: a key fills the first block. -/
def start (outLen : Nat) (key : List Byte) : Hasher where
  h := IV.set 0 (IV[0] ^^^ (0x01010000 ^^^ BitVec.ofNat 64 key.length <<< 8 ^^^ BitVec.ofNat 64 outLen))
  t := 0
  buf := Vector.ofFn fun i : Fin 128 => if 0 < key.length then key.getD i 0 else 0
  bufLen := if 0 < key.length then 128 else 0

/-- The final compression, of the rest of the buffer padded with zeros. -/
def finish (st : Hasher) : Vector Word 8 :=
  let t := st.t + BitVec.ofNat 128 st.bufLen
  let buf := Vector.ofFn fun i : Fin 128 => if i < st.bufLen then st.buf.get i else 0
  compress st.h buf t true

/-- `blake2b_full`. -/
def blake2bFull (outLen : Nat) (key input : List Byte) : Option (List Byte) :=
  if (1 ≤ outLen ∧ outLen ≤ 64) ∧ key.length ≤ 64 then do
    let st ← input.foldlM absorb (start outLen key)
    let h := finish st
    return (List.range outLen).map fun i => ((h[i / 8]?.getD 0) >>> (8 * (i % 8))).setWidth 8
  else none

/-- `blake2b`. -/
def blake2b (outLen : Nat) (input : List Byte) : Option (List Byte) := blake2bFull outLen [] input

/-- `v.try_into().unwrap()`. -/
def tryInto (n : Nat) (v : List Byte) : Option (Vector Byte n) :=
  if h : v.length = n then some ⟨v.toArray, h⟩ else none

/-- `blake2b_512`. -/
def blake2b512 (input : List Byte) : Option (Vector Byte 64) := (blake2b 64 input).bind (tryInto 64)

/-- `blake2b_256`. -/
def blake2b256 (input : List Byte) : Option (Vector Byte 32) := (blake2b 32 input).bind (tryInto 32)

/-! ## Compression -/

theorem g_eq (v : Work) {a b c d : Fin 16} (h : [a, b, c, d].Nodup) (x y : Word) :
    g v a b c d x y = Blake2.applyQuad (Blake2.mix x y) v a b c d :=
  Blake2.applyQuad_mixWith (fun a b => a + b + x) (fun a b => a + b + y) (fun a b => a + b) v h

/-- The eight calls are a round of the specification. -/
theorem mixRound_eq (m : Vector Word 16) (s : Vector (Fin 16) 16) (v : Work) :
    mixRound m s v = Blake2.round (Blake2.mixes m s) v := by
  rw [← Blake2.round_eq]
  simp only [mixRound]
  rw [g_eq v (by decide), g_eq _ (by decide), g_eq _ (by decide), g_eq _ (by decide), g_eq _ (by decide),
    g_eq _ (by decide), g_eq _ (by decide), g_eq _ (by decide)]
  simp only [Blake2.mixes]
  rfl

/-- The rounds run through the schedule, whose rows repeat after ten. -/
theorem foldl_mixRound (m : Vector Word 16) (v : Work) :
    (List.finRange 12).foldl (fun v i => mixRound m SIGMA[i] v) v
      = (List.range 12).foldl
        (fun v i => Blake2.round (Blake2.mixes m (Blake2.schedule i)) v) v := by
  simp only [mixRound_eq]
  rfl

theorem initialWork_eq (h : Vector Word 8) (t : BitVec 128) (last : Bool) :
    (let v : Work := h ++ IV
     let v := v.set 12 (v[12] ^^^ t.setWidth 64)
     let v := v.set 13 (v[13] ^^^ (t >>> 64).setWidth 64)
     if last then v.set 14 (~~~v[14]) else v) = Blake2.initialWork h t last := by
  have happ : ∀ k (hk : k < 16), (h ++ IV : Work)[k] = if h8 : k < 8 then h[k] else Blake2.IV[k - 8] :=
    fun k hk => Vector.getElem_append hk
  generalize (h ++ IV : Work) = w at happ ⊢
  apply Vector.ext
  intro i hi
  rw [Blake2.initialWork, Vector.getElem_ofFn]
  by_cases h8 : i < 8
  · cases last <;> simp [happ, h8, show ¬ 12 = i by omega, show ¬ 13 = i by omega,
      show ¬ 14 = i by omega]
  · cases last <;> interval_cases i <;> simp [happ]
    exact BitVec.xor_allOnes.symm

theorem compress_eq (h : Vector Word 8) (block : Vector Byte 128) (t : BitVec 128) (last : Bool) :
    compress h block t last = Blake2.F h (Blake2.blockWords (byteAt block)) t last := by
  have hm : (Vector.ofFn fun i : Fin 16 => leWord fun k => byteAt block (i * 8 + k))
      = Blake2.blockWords (byteAt block) := by
    simp only [Blake2.blockWords, Nat.mul_comm]
  unfold compress Blake2.F
  rw [← initialWork_eq, ← foldl_mixRound, ← hm]
  apply Vector.ext
  intro i hi
  simp only [Vector.getElem_ofFn, BitVec.xor_assoc]
  rfl

/-! ## The loop -/

/-- The number of blocks that are compressed while `len` bytes arrive. -/
def fullBlocks (len : Nat) : Nat := (len - 1) / 128

/-- **The state after the bytes of `data`**, key block included: all blocks before the last one are compressed, the
    last one, full or not, is in the buffer. -/
structure Absorbed (h₀ : Vector Word 8) (data : List Byte) (st : Hasher) : Prop where
  h : st.h = Blake2.hashBlocks h₀ data (fullBlocks data.length)
  t : st.t = BitVec.ofNat 128 (128 * fullBlocks data.length)
  bufLen : st.bufLen = data.length - 128 * fullBlocks data.length
  buf : ∀ k < st.bufLen, byteAt st.buf k = data.getD (128 * fullBlocks data.length + k) 0

variable {h₀ : Vector Word 8} {data : List Byte} {st : Hasher}

theorem absorbed_start (outLen : Nat) {key : List Byte} (hkey : key.length ≤ 64) :
    Absorbed (Blake2.parameterIV outLen key.length) (Blake2.keyBlock key) (start outLen key) := by
  have hlen := @Blake2.length_keyBlock key (by omega)
  have hzero : fullBlocks (Blake2.keyBlock key).length = 0 := by
    rw [fullBlocks, hlen]
    split <;> rfl
  refine ⟨?_, ?_, ?_, ?_⟩
  · rw [hzero]
    simp only [start, Blake2.hashBlocks, Blake2.parameterIV, BitVec.xor_assoc]
    rfl
  · rw [hzero]
    rfl
  · rw [hzero, hlen]
    cases key <;> rfl
  · intro k hk
    rw [hzero, Nat.mul_zero, Nat.zero_add]
    cases key with
    | nil => exact absurd hk (Nat.not_lt_zero k)
    | cons b key =>
      have hk' : k < 128 := hk
      rw [byteAt_eq_getElem _ hk']
      simp only [start, Vector.getElem_ofFn, List.length_cons, Nat.zero_lt_succ, if_true]
      simp only [Blake2.keyBlock, reduceCtorEq, if_false, List.getD_eq_getElem?_getD]
      -- the key, and behind it zeros
      by_cases hlt : k < (b :: key).length
      · rw [List.getElem?_append_left hlt]
      · rw [List.getElem?_append_right (by omega), List.getElem?_eq_none (by omega), List.getElem?_replicate]
        split <;> rfl

theorem absorb_full (h : st.bufLen = 128) (byte : Byte) : absorb st byte = some
    { h := compress st.h st.buf (st.t + 128) false, t := st.t + 128,
      buf := (Vector.replicate 128 0).set 0 byte, bufLen := 1 } := by
  unfold absorb
  rw [if_pos h]
  exact dif_pos (show 0 < 128 by decide)

theorem absorb_room (h : st.bufLen < 128) (byte : Byte) : absorb st byte = some
    { st with buf := st.buf.set st.bufLen byte, bufLen := st.bufLen + 1 } := by
  unfold absorb
  rw [if_neg (by omega)]
  exact dif_pos h

/-- **One byte.** -/
theorem exists_absorb (h : Absorbed h₀ data st) (byte : Byte) :
    ∃ st', absorb st byte = some st' ∧ Absorbed h₀ (data ++ [byte]) st' := by
  obtain ⟨hh, ht, hlen, hbuf⟩ := h
  have hlast : (data ++ [byte]).getD data.length 0 = byte := by simp
  by_cases hfull : st.bufLen = 128
  · -- the buffer holds a whole block, which is not the last one
    have hdata : data.length = 128 * (fullBlocks data.length + 1) := by omega
    have hnext : fullBlocks (data ++ [byte]).length = fullBlocks data.length + 1 := by
      rw [List.length_append, List.length_singleton, fullBlocks, fullBlocks]
      unfold fullBlocks at hdata
      omega
    have hblock : Blake2.blockWords (byteAt st.buf) = Blake2.dataBlock data (fullBlocks data.length) :=
      Blake2.blockWords_congr fun k hk => hbuf k (by omega)
    have hcount : st.t + 128 = BitVec.ofNat 128 ((fullBlocks data.length + 1) * 128) := by
      rw [ht, Nat.mul_comm, Nat.add_mul, BitVec.ofNat_add]
      rfl
    have hhash : compress st.h st.buf (st.t + 128) false
        = Blake2.hashBlocks h₀ (data ++ [byte]) (fullBlocks data.length + 1) := by
      rw [Blake2.hashBlocks_append h₀ (by omega), Blake2.hashBlocks, compress_eq, hblock, hh, hcount]
    refine ⟨_, absorb_full hfull byte, ?_, ?_, ?_, ?_⟩
    · rw [hnext]
      exact hhash
    · rw [hnext, Nat.mul_comm]
      exact hcount
    · rw [hnext, List.length_append, List.length_singleton]
      show 0 + 1 = _
      omega
    · intro k hk
      obtain rfl : k = 0 := by
        have : k < 0 + 1 := hk
        omega
      rw [hnext, Nat.add_zero, ← hdata, hlast]
      rfl
  · -- there is room: no block is hashed, and the byte goes behind the others
    have hlt : st.bufLen < 128 := by
      unfold fullBlocks at hlen
      omega
    have hsame : fullBlocks (data ++ [byte]).length = fullBlocks data.length := by
      rw [List.length_append, List.length_singleton]
      unfold fullBlocks at hlen ⊢
      omega
    have hle : 128 * fullBlocks data.length ≤ data.length := by
      unfold fullBlocks
      omega
    refine ⟨_, absorb_room hlt byte, ?_, ?_, ?_, ?_⟩
    · rw [hsame, Blake2.hashBlocks_append h₀ hle]
      exact hh
    · rw [hsame]
      exact ht
    · rw [hsame, List.length_append, List.length_singleton]
      show st.bufLen + 1 = _
      omega
    · intro k hk
      have hk' : k < st.bufLen + 1 := hk
      rw [hsame, byteAt_eq_getElem _ (by omega), Vector.getElem_set]
      by_cases hkl : st.bufLen = k
      · rw [if_pos hkl, show 128 * fullBlocks data.length + k = data.length by omega, hlast]
      · rw [if_neg hkl, ← byteAt_eq_getElem, hbuf k (by omega), List.getD_eq_getElem?_getD,
          List.getD_eq_getElem?_getD, List.getElem?_append_left (by omega)]

theorem exists_foldlM_absorb (h : Absorbed h₀ data st) (input : List Byte) :
    ∃ st', input.foldlM absorb st = some st' ∧ Absorbed h₀ (data ++ input) st' := by
  induction input generalizing data st with
  | nil => exact ⟨st, rfl, by rwa [List.append_nil]⟩
  | cons byte input ih =>
    obtain ⟨st₁, hst₁, h₁⟩ := exists_absorb h byte
    obtain ⟨st', hst', h'⟩ := ih h₁
    refine ⟨st', ?_, ?_⟩
    · rw [List.foldlM_cons, hst₁]
      exact hst'
    · rwa [List.append_assoc] at h'

/-! ## The hash function -/

/-- **The final compression** is that of the last block, at the length of all data. -/
theorem finish_eq (h : Absorbed h₀ data st) :
    finish st = Blake2.F (Blake2.hashBlocks h₀ data (fullBlocks data.length))
      (Blake2.dataBlock data (fullBlocks data.length)) (BitVec.ofNat 128 data.length) true := by
  obtain ⟨hh, ht, hlen, hbuf⟩ := h
  have hle : 128 * fullBlocks data.length ≤ data.length := by
    unfold fullBlocks
    omega
  have hcount : st.t + BitVec.ofNat 128 st.bufLen = BitVec.ofNat 128 data.length := by
    rw [ht, ← BitVec.ofNat_add, show 128 * fullBlocks data.length + st.bufLen = data.length by omega]
  have hblock : Blake2.blockWords
      (byteAt (Vector.ofFn fun i : Fin 128 => if i < st.bufLen then st.buf.get i else 0))
        = Blake2.dataBlock data (fullBlocks data.length) := by
    refine Blake2.blockWords_congr fun k hk => ?_
    rw [byteAt_eq_getElem _ hk, Vector.getElem_ofFn]
    by_cases hlt : k < st.bufLen
    · rw [if_pos hlt, ← hbuf k hlt]
      exact (byteAt_eq_getElem st.buf hk).symm
    · rw [if_neg hlt, List.getD_eq_getElem?_getD, List.getElem?_eq_none (by omega)]
      rfl
  have hfinish : finish st = compress st.h (Vector.ofFn fun i : Fin 128 => if i < st.bufLen then st.buf.get i else 0)
      (st.t + BitVec.ofNat 128 st.bufLen) true := (rfl)
  rw [hfinish, hcount, compress_eq, hh, hblock]

theorem outByte_eq (v : Word) (k : Nat) : (v >>> (8 * k)).setWidth 8 = byteOf v k := by
  apply BitVec.eq_of_getLsbD_eq
  intro i hi
  simp [byteOf, hi]

theorem blake2bFull_eq_spec {outLen : Nat} (hout : 1 ≤ outLen ∧ outLen ≤ 64) {key : List Byte}
    (hkey : key.length ≤ 64) (input : List Byte) :
    blake2bFull outLen key input = some (Blake2.blake2b outLen key input) := by
  obtain ⟨st, hst, habs⟩ := exists_foldlM_absorb (absorbed_start outLen hkey) input
  have hlen : (Blake2.keyBlock key ++ input).length
      = if key.length = 0 then input.length else input.length + 128 := by
    rw [List.length_append, Blake2.length_keyBlock (by omega)]
    cases key with
    | nil => simp
    | cons b key => simp [Nat.add_comm]
  unfold blake2bFull Blake2.blake2b
  rw [if_pos ⟨hout, hkey⟩, hst]
  simp only [Option.bind_eq_bind, Option.bind_some, Option.pure_def]
  rw [finish_eq habs, ← hlen]
  have hdd : max 1 (((Blake2.keyBlock key ++ input).length + 127) / 128) - 1
      = fullBlocks (Blake2.keyBlock key ++ input).length := by
    unfold fullBlocks
    omega
  rw [hdd]
  simp only [outByte_eq]

/-- **`blake2b_full` is the BLAKE2b of RFC 7693** on every output length, key and message that it accepts, and a
    panic on the others. -/
theorem blake2b_full_is_blake2b (outLen : Nat) (key input : List Byte) :
    blake2bFull outLen key input = if (1 ≤ outLen ∧ outLen ≤ 64) ∧ key.length ≤ 64 then
      some (Blake2.blake2b outLen key input) else none := by
  by_cases h : (1 ≤ outLen ∧ outLen ≤ 64) ∧ key.length ≤ 64
  · rw [if_pos h]
    exact blake2bFull_eq_spec h.1 h.2 input
  · rw [if_neg h]
    exact if_neg h

/-! ## Digests of a fixed length -/

/-- The digest of RFC 7693, without a key. -/
def digest (n : Nat) (input : List Byte) : Vector Byte n :=
  ⟨(Blake2.blake2b n [] input).toArray, by simp [Blake2.blake2b]⟩

theorem bind_tryInto {n : Nat} (hn : 1 ≤ n ∧ n ≤ 64) (input : List Byte) :
    (blake2b n input).bind (tryInto n) = some (digest n input) := by
  have hlength : (Blake2.blake2b n [] input).length = n := by simp [Blake2.blake2b]
  have hrun : blake2b n input = some (Blake2.blake2b n [] input) :=
    @blake2bFull_eq_spec n hn [] (Nat.zero_le 64) input
  rw [hrun, Option.bind_some, tryInto, dif_pos hlength]
  rfl

theorem blake2b512_eq (input : List Byte) : blake2b512 input = some (digest 64 input) :=
  bind_tryInto (by decide) input

theorem blake2b256_eq (input : List Byte) : blake2b256 input = some (digest 32 input) :=
  bind_tryInto (by decide) input

end Blake2b
end RandomX
end MinerTim
