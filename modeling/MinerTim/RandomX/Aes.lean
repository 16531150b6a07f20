import MinerTim.RandomX.Types

/-!
# `RandomX.Aes` — the AES generators and the AES hash (`aes_hash.rs`)

The software, NEON and AES-NI paths of `aes_hash.rs` run the same loops over different single-round
primitives, so the loops are written once over a pair of rounds (`AesRounds`). All of them work on four
16-byte lanes and on rows of 64 bytes:

* `fillFrom` writes rows, and is the loop of both generators (`fillAes1Rx4`, `fillAes4Rx4`);
* `hashFrom` reads rows (`hashAes1Rx4`);
* `hashAndFillFrom` does both in one pass (`hashAndFillAes1Rx4`).

The buffer lengths are multiples of 64, which the source asserts; `n / 64` rows are processed.
-/

namespace MinerTim
namespace RandomX

/-- A 16-byte AES block. -/
abbrev Block := Vector Byte 16

/-- Single AES rounds: `aesenc(state, key)` and `aesdec(state, key)`. -/
structure AesRounds where
  enc : Block → Block → Block
  dec : Block → Block → Block

/-! ## Constants -/

/-- The 16 bytes of `_mm_set_epi32(a, b, c, d)`: `d` comes first. -/
def keyFromU32s (a b c d : BitVec 32) : Block :=
  Vector.ofFn fun k => byteOf (a ++ b ++ c ++ d) k

/-- Key 0 of `fill_aes_1rx4`. -/
def GEN_1R_KEY0 : Block := keyFromU32s 0xb4f44917 0xdbb5552b 0x62716609 0x6daca553

/-- Key 1 of `fill_aes_1rx4`. -/
def GEN_1R_KEY1 : Block := keyFromU32s 0x0da1dc4e 0x1725d378 0x846a710d 0x6d7caf07

/-- Key 2 of `fill_aes_1rx4`. -/
def GEN_1R_KEY2 : Block := keyFromU32s 0x3e20e345 0xf4c0794f 0x9f947ec6 0x3f1262f1

/-- Key 3 of `fill_aes_1rx4`. -/
def GEN_1R_KEY3 : Block := keyFromU32s 0x49169154 0x16314c88 0xb1ba317c 0x6aef8135

/-- Key 0 of `fill_aes_4rx4`. -/
def GEN_4R_KEY0 : Block := keyFromU32s 0x99e5d23f 0x2f546d2b 0xd1833ddb 0x6421aadd

/-- Key 1 of `fill_aes_4rx4`. -/
def GEN_4R_KEY1 : Block := keyFromU32s 0xa5dfcde5 0x06f79d53 0xb6913f55 0xb20e3450

/-- Key 2 of `fill_aes_4rx4`. -/
def GEN_4R_KEY2 : Block := keyFromU32s 0x171c02bf 0x0aa4679f 0x515e7baf 0x5c3ed904

/-- Key 3 of `fill_aes_4rx4`. -/
def GEN_4R_KEY3 : Block := keyFromU32s 0xd8ded291 0xcd673785 0xe78f5d08 0x85623763

/-- Key 4 of `fill_aes_4rx4`. -/
def GEN_4R_KEY4 : Block := keyFromU32s 0x229effb4 0x3d518b6d 0xe3d6a7a6 0xb5826f73

/-- Key 5 of `fill_aes_4rx4`. -/
def GEN_4R_KEY5 : Block := keyFromU32s 0xb272b7d2 0xe9024d4e 0x9c10b3d9 0xc7566bf3

/-- Key 6 of `fill_aes_4rx4`. -/
def GEN_4R_KEY6 : Block := keyFromU32s 0xf63befa7 0x2ba9660a 0xf765a38b 0xf273c9e7

/-- Key 7 of `fill_aes_4rx4`. -/
def GEN_4R_KEY7 : Block := keyFromU32s 0xc0b0762d 0x0c06d1fd 0x915839de 0x7a7cd609

/-- Lane 0 of `hash_aes_1rx4` before the first block. -/
def HASH_1R_STATE0 : Block := keyFromU32s 0xd7983aad 0xcc82db47 0x9fa856de 0x92b52c0d

/-- Lane 1 of `hash_aes_1rx4` before the first block. -/
def HASH_1R_STATE1 : Block := keyFromU32s 0xace78057 0xf59e125a 0x15c7b798 0x338d996e

/-- Lane 2 of `hash_aes_1rx4` before the first block. -/
def HASH_1R_STATE2 : Block := keyFromU32s 0xe8a07ce4 0x5079506b 0xae62c7d0 0x6a770017

/-- Lane 3 of `hash_aes_1rx4` before the first block. -/
def HASH_1R_STATE3 : Block := keyFromU32s 0x7e994948 0x79a10005 0x07ad828d 0x630a240c

/-- Key of the first of the two last rounds of `hash_aes_1rx4`. -/
def HASH_1R_XKEY0 : Block := keyFromU32s 0x06890201 0x90dc56bf 0x8b24949f 0xf6fa8389

/-- Key of the second of the two last rounds of `hash_aes_1rx4`. -/
def HASH_1R_XKEY1 : Block := keyFromU32s 0xed18f99b 0xee1043c6 0x51f4e03c 0x61b263d1

/-! ## Lanes -/

/-- The four blocks `s0 … s3` that every loop keeps in registers. -/
structure Lanes where
  s0 : Block
  s1 : Block
  s2 : Block
  s3 : Block
deriving DecidableEq

/-- The 16 bytes at an offset. -/
def loadBlock {n : Nat} (data : Vector Byte n) (offset : Nat) : Block :=
  Vector.ofFn fun k => byteAt data (offset + k)

/-- The 16 bytes at an offset replaced. -/
def storeBlock {n : Nat} (data : Vector Byte n) (offset : Nat) (block : Block) : Vector Byte n :=
  store data offset 16 (byteAt block)

namespace Lanes

/-- The four blocks at `offset`. -/
def load {n : Nat} (data : Vector Byte n) (offset : Nat) : Lanes where
  s0 := loadBlock data offset
  s1 := loadBlock data (offset + 16)
  s2 := loadBlock data (offset + 32)
  s3 := loadBlock data (offset + 48)

/-- Store the four blocks at `offset`. -/
def store {n : Nat} (data : Vector Byte n) (offset : Nat) (l : Lanes) : Vector Byte n :=
  storeBlock (storeBlock (storeBlock (storeBlock data offset l.s0) (offset + 16) l.s1)
    (offset + 32) l.s2) (offset + 48) l.s3

/-- Byte `k < 64` of the four blocks. -/
def byte (l : Lanes) (k : Nat) : Byte :=
  if k < 16 then byteAt l.s0 k
  else if k < 32 then byteAt l.s1 (k - 16)
  else if k < 48 then byteAt l.s2 (k - 32)
  else byteAt l.s3 (k - 48)

end Lanes

variable (aes : AesRounds) {n : Nat}

/-! ## The loops -/

/-- `while offset < output.len()`: advance the lanes by `round` and write them, `rows` times. -/
def fillFrom (round : Lanes → Lanes) :
    (rows offset : Nat) → Lanes → Vector Byte n → Lanes × Vector Byte n
  | 0, _, s, output => (s, output)
  | rows + 1, offset, s, output =>
    fillFrom round rows (offset + 64) (round s) ((round s).store output offset)

/-- One row of the hash: the input blocks are the round keys. -/
def hashRow (s key : Lanes) : Lanes where
  s0 := aes.enc s.s0 key.s0
  s1 := aes.dec s.s1 key.s1
  s2 := aes.enc s.s2 key.s2
  s3 := aes.dec s.s3 key.s3

/-- The hash loop, for `rows` rows. -/
def hashFrom (input : Vector Byte n) : (rows offset : Nat) → Lanes → Lanes
  | 0, _, s => s
  | rows + 1, offset, s => hashFrom input rows (offset + 64) (hashRow aes s (.load input offset))

/-- The loop of the fused pass: hash a row, then overwrite it. -/
def hashAndFillFrom (round : Lanes → Lanes) :
    (rows offset : Nat) → Lanes → Lanes → Vector Byte n → Lanes × Lanes × Vector Byte n
  | 0, _, hs, fs, scratchpad => (hs, fs, scratchpad)
  | rows + 1, offset, hs, fs, scratchpad =>
    hashAndFillFrom round rows (offset + 64) (hashRow aes hs (.load scratchpad offset)) (round fs)
      ((round fs).store scratchpad offset)

/-! ## The functions of `aes_hash.rs` -/

/-- One row of `AesGenerator1R`. -/
def round1R (s : Lanes) : Lanes where
  s0 := aes.dec s.s0 GEN_1R_KEY0
  s1 := aes.enc s.s1 GEN_1R_KEY1
  s2 := aes.dec s.s2 GEN_1R_KEY2
  s3 := aes.enc s.s3 GEN_1R_KEY3

/-- One row of `AesGenerator4R`. -/
def round4R (s : Lanes) : Lanes where
  s0 := aes.dec (aes.dec (aes.dec (aes.dec s.s0 GEN_4R_KEY0) GEN_4R_KEY1) GEN_4R_KEY2) GEN_4R_KEY3
  s1 := aes.enc (aes.enc (aes.enc (aes.enc s.s1 GEN_4R_KEY0) GEN_4R_KEY1) GEN_4R_KEY2) GEN_4R_KEY3
  s2 := aes.dec (aes.dec (aes.dec (aes.dec s.s2 GEN_4R_KEY4) GEN_4R_KEY5) GEN_4R_KEY6) GEN_4R_KEY7
  s3 := aes.enc (aes.enc (aes.enc (aes.enc s.s3 GEN_4R_KEY4) GEN_4R_KEY5) GEN_4R_KEY6) GEN_4R_KEY7

/-- The initial state of `AesHash1R`. -/
def hashInit : Lanes := ⟨HASH_1R_STATE0, HASH_1R_STATE1, HASH_1R_STATE2, HASH_1R_STATE3⟩

/-- The two extra rounds of `AesHash1R`. -/
def hashFinal (s : Lanes) : Lanes where
  s0 := aes.enc (aes.enc s.s0 HASH_1R_XKEY0) HASH_1R_XKEY1
  s1 := aes.dec (aes.dec s.s1 HASH_1R_XKEY0) HASH_1R_XKEY1
  s2 := aes.enc (aes.enc s.s2 HASH_1R_XKEY0) HASH_1R_XKEY1
  s3 := aes.dec (aes.dec s.s3 HASH_1R_XKEY0) HASH_1R_XKEY1

/-- `fill_aes_1rx4`: the new state and the filled output. -/
def fillAes1Rx4 (state : Vector Byte 64) (output : Vector Byte n) : Vector Byte 64 × Vector Byte n :=
  let (s, output) := fillFrom (round1R aes) (n / 64) 0 (.load state 0) output
  (s.store state 0, output)

/-- `fill_aes_4rx4`; the state is not written back. -/
def fillAes4Rx4 (state : Vector Byte 64) (output : Vector Byte n) : Vector Byte n :=
  (fillFrom (round4R aes) (n / 64) 0 (.load state 0) output).2

/-- `hash_aes_1rx4`. -/
def hashAes1Rx4 (input : Vector Byte n) : Vector Byte 64 :=
  (hashFinal aes (hashFrom aes input (n / 64) 0 hashInit)).store (Vector.replicate 64 0) 0

/-- `hash_and_fill_aes_1rx4`: the refilled scratchpad, the hash and the new fill state. -/
def hashAndFillAes1Rx4 (scratchpad : Vector Byte n) (hashOut fillState : Vector Byte 64) :
    Vector Byte n × Vector Byte 64 × Vector Byte 64 :=
  let (hs, fs, scratchpad) :=
    hashAndFillFrom aes (round1R aes) (n / 64) 0 hashInit (.load fillState 0) scratchpad
  (scratchpad, (hashFinal aes hs).store hashOut 0, fs.store fillState 0)

/-- `aes_mix_fe`: four rounds per f-register, keyed by the e-registers. -/
def aesMixFe (f e : Vector Block 4) : Vector Block 4 :=
  e.toList.foldl (fun f key =>
    #v[aes.enc (f.get 0) key, aes.dec (f.get 1) key, aes.enc (f.get 2) key, aes.dec (f.get 3) key]) f

/-! ## What the loops compute -/

theorem byteAt_storeBlock (data : Vector Byte n) (offset : Nat) (block : Block) {i : Nat}
    (h : i < n) : byteAt (storeBlock data offset block) i
      = if offset ≤ i ∧ i < offset + 16 then byteAt block (i - offset) else byteAt data i :=
  byteAt_store data offset 16 (byteAt block) h

/-- Storing four lanes overwrites the 64 bytes of a row. -/
theorem byteAt_storeLanes (data : Vector Byte n) (offset : Nat) (l : Lanes) {i : Nat} (h : i < n) :
    byteAt (l.store data offset) i
      = if offset ≤ i ∧ i < offset + 64 then l.byte (i - offset) else byteAt data i := by
  simp only [Lanes.store, byteAt_storeBlock _ _ _ h]
  by_cases h0 : offset ≤ i ∧ i < offset + 64
  · rw [if_pos h0, Lanes.byte]
    split_ifs <;> first | omega | rfl
  · rw [if_neg h0]
    split_ifs <;> first | omega | rfl

/-- **What a generator writes**: row `q` is the `q + 1`-st iterate of its round, and nothing outside
    the rows changes. -/
theorem byteAt_fillFrom (round : Lanes → Lanes) (rows offset : Nat) (s : Lanes)
    (output : Vector Byte n) {i : Nat} (h : i < n) :
    byteAt (fillFrom round rows offset s output).2 i
      = if offset ≤ i ∧ i < offset + 64 * rows then
          (round^[(i - offset) / 64 + 1] s).byte ((i - offset) % 64)
        else byteAt output i := by
  induction rows generalizing offset s output with
  | zero => simp [fillFrom, show ¬ (offset ≤ i ∧ i < offset) by omega]
  | succ rows ih =>
    rw [fillFrom, ih, byteAt_storeLanes _ _ _ h]
    by_cases hrow : i < offset + 64
    · rw [if_neg (by omega)]
      by_cases hlo : offset ≤ i
      · rw [if_pos ⟨hlo, hrow⟩, if_pos (by omega), show (i - offset) / 64 = 0 by omega,
          Nat.mod_eq_of_lt (by omega)]
        rfl
      · rw [if_neg (by omega), if_neg (by omega)]
    · rw [if_neg (c := offset ≤ i ∧ i < offset + 64) (by omega)]
      by_cases hhi : i < offset + 64 * (rows + 1)
      · rw [if_pos (by omega), if_pos (by omega), ← Function.iterate_succ_apply,
          show (i - (offset + 64)) / 64 + 1 = (i - offset) / 64 by omega,
          show (i - (offset + 64)) % 64 = (i - offset) % 64 by omega]
      · rw [if_neg (by omega), if_neg (by omega)]

theorem fillFrom_fst (round : Lanes → Lanes) (rows offset : Nat) (s : Lanes)
    (output : Vector Byte n) : (fillFrom round rows offset s output).1 = round^[rows] s := by
  induction rows generalizing offset s output with
  | zero => rfl
  | succ rows ih => rw [fillFrom, ih, Function.iterate_succ_apply]

/-- **A fill forgets what the buffer held.** -/
theorem fillFrom_congr (round : Lanes → Lanes) (s : Lanes) (output output' : Vector Byte n)
    (hn : 64 ∣ n) : fillFrom round (n / 64) 0 s output = fillFrom round (n / 64) 0 s output' := by
  refine Prod.ext ?_ (eq_of_byteAt fun i hi => ?_)
  · rw [fillFrom_fst, fillFrom_fst]
  · have hrow : 0 ≤ i ∧ i < 0 + 64 * (n / 64) := by omega
    rw [byteAt_fillFrom _ _ _ _ _ hi, byteAt_fillFrom _ _ _ _ _ hi, if_pos hrow, if_pos hrow]

theorem fillAes1Rx4_congr (state : Vector Byte 64) (output output' : Vector Byte n) (hn : 64 ∣ n) :
    fillAes1Rx4 aes state output = fillAes1Rx4 aes state output' := by
  rw [fillAes1Rx4, fillAes1Rx4, fillFrom_congr _ _ output output' hn]

theorem fillAes4Rx4_congr (state : Vector Byte 64) (output output' : Vector Byte n) (hn : 64 ∣ n) :
    fillAes4Rx4 aes state output = fillAes4Rx4 aes state output' := by
  rw [fillAes4Rx4, fillAes4Rx4, fillFrom_congr _ _ output output' hn]

theorem load_congr {data data' : Vector Byte n} {offset : Nat}
    (h : ∀ k < 64, byteAt data (offset + k) = byteAt data' (offset + k)) :
    Lanes.load data offset = Lanes.load data' offset := by
  have hblock : ∀ j ≤ 48, loadBlock data (offset + j) = loadBlock data' (offset + j) :=
    fun j hj => Vector.ext fun k hk => by
      simp only [loadBlock, Vector.getElem_ofFn]
      rw [Nat.add_assoc]
      exact h (j + k) (by omega)
  have h0 := hblock 0 (by decide)
  have h16 := hblock 16 (by decide)
  have h32 := hblock 32 (by decide)
  have h48 := hblock 48 (by decide)
  rw [Nat.add_zero] at h0
  simp only [Lanes.load, h0, h16, h32, h48]

/-- The hash reads only the rows it visits. -/
theorem hashFrom_congr {input input' : Vector Byte n} {rows offset : Nat} (s : Lanes)
    (h : ∀ i, offset ≤ i → i < offset + 64 * rows → byteAt input i = byteAt input' i) :
    hashFrom aes input rows offset s = hashFrom aes input' rows offset s := by
  induction rows generalizing offset s with
  | zero => rfl
  | succ rows ih =>
    have hrow : Lanes.load input offset = Lanes.load input' offset :=
      load_congr fun k hk => h (offset + k) (by omega) (by omega)
    rw [hashFrom, hashFrom, hrow]
    exact ih _ fun i hi hi' => h i (by omega) (by omega)

/-- **The fused pass is the two passes**: it hashes what the buffer held and leaves what a fill
    writes. -/
theorem hashAndFillFrom_eq (round : Lanes → Lanes) (rows offset : Nat) (hs fs : Lanes)
    (scratchpad : Vector Byte n) (h : offset + 64 * rows ≤ n) :
    hashAndFillFrom aes round rows offset hs fs scratchpad
      = (hashFrom aes scratchpad rows offset hs, fillFrom round rows offset fs scratchpad) := by
  induction rows generalizing offset hs fs scratchpad with
  | zero => rfl
  | succ rows ih =>
    rw [hashAndFillFrom, ih _ _ _ _ (by omega), hashFrom, fillFrom]
    -- the rows still to be hashed lie above the one just overwritten
    refine congrArg (·, _) (hashFrom_congr aes _ fun i hi hi' => ?_)
    rw [byteAt_storeLanes _ _ _ (by omega), if_neg (by omega)]

theorem storeLanes_congr (data data' : Vector Byte 64) (l : Lanes) :
    l.store data 0 = l.store data' 0 := by
  refine eq_of_byteAt fun i hi => ?_
  rw [byteAt_storeLanes _ _ _ hi, byteAt_storeLanes _ _ _ hi, if_pos (by omega), if_pos (by omega)]

/-- `hash_and_fill_aes_1rx4` hashes the old scratchpad and leaves the one `fill_aes_1rx4` writes,
    whatever `hash_out` held. -/
theorem hashAndFillAes1Rx4_eq (scratchpad : Vector Byte n) (hashOut fillState : Vector Byte 64) :
    hashAndFillAes1Rx4 aes scratchpad hashOut fillState
      = ((fillAes1Rx4 aes fillState scratchpad).2, hashAes1Rx4 aes scratchpad,
          (fillAes1Rx4 aes fillState scratchpad).1) := by
  rw [hashAndFillAes1Rx4, hashAndFillFrom_eq _ _ _ _ _ _ _ (by omega)]
  simp only [fillAes1Rx4, hashAes1Rx4, storeLanes_congr hashOut (Vector.replicate 64 0)]

end RandomX
end MinerTim
