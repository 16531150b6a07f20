import MinerTim.RandomX.AesPaths

/-!
# `RandomX.AesPathsSpec` — the three paths of `aes_hash.rs` agree

Each path computes the loops of `RandomX.Aes` at the rounds of the standard. The work per function is
its row: what one turn of the unrolled loop does to the lanes and to the buffer. `whileRows_fill` and
its siblings carry a row over the whole buffer, by induction on the rows left.
-/

namespace MinerTim
namespace RandomX

open Aes

variable {n : Nat}

/-! ## Accesses -/

variable {α : Type}

/-- A read inside the buffer. -/
theorem bind_readBlock (data : Vector Byte n) {offset : Nat} (f : Block → Option α)
    (h : offset + 16 ≤ n) : (readBlock data offset >>= f) = f (loadBlock data offset) := by
  rw [readBlock, if_pos h, Option.bind_eq_bind, Option.bind_some]

/-- A write inside the buffer. -/
theorem bind_writeBlock (data : Vector Byte n) {offset : Nat} (block : Block)
    (f : Vector Byte n → Option α) (h : offset + 16 ≤ n) :
    (writeBlock data offset block >>= f) = f (storeBlock data offset block) := by
  rw [writeBlock, if_pos h, Option.bind_eq_bind, Option.bind_some]

theorem Lanes.load_zero (data : Vector Byte n) : Lanes.load data 0
    = ⟨loadBlock data 0, loadBlock data 16, loadBlock data 32, loadBlock data 48⟩ :=
  rfl

/-- A block is read as a whole. -/
theorem loadBlock_block (b : Block) : loadBlock b 0 = b := by
  refine Vector.ext fun i hi => ?_
  rw [loadBlock, Vector.getElem_ofFn, Nat.zero_add, byteAt_eq_getElem _ hi]

theorem storeBlock_block (b v : Block) : storeBlock b 0 v = v := by
  refine eq_of_byteAt fun i hi => ?_
  rw [byteAt_storeBlock _ _ _ hi, if_pos (by omega), Nat.sub_zero]

/-! ## Rounds -/

/-- `AESMC(AESE(s, 0)) ^ k` is the encryption round. -/
theorem neon_aesenc (s k : Block) :
    veorqU8 (vaesmcqU8 (vaeseqU8 s (vmovqNU8 0))) k = encRound s k := by
  rw [veorqU8, vaesmcqU8, vaeseqU8, vmovqNU8, addRoundKey_zero, subBytes_shiftRows, encRound]

/-- `AESIMC(AESD(s, 0)) ^ k` is the decryption round. -/
theorem neon_aesdec (s k : Block) :
    veorqU8 (vaesimcqU8 (vaesdqU8 s (vmovqNU8 0))) k = decRound s k := by
  rw [veorqU8, vaesimcqU8, vaesdqU8, vmovqNU8, addRoundKey_zero, invSubBytes_invShiftRows, decRound]

theorem aesni_aesenc (s k : Block) : mmAesencSi128 s k = encRound s k := by
  rw [mmAesencSi128, subBytes_shiftRows, encRound]

theorem aesni_aesdec (s k : Block) : mmAesdecSi128 s k = decRound s k := by
  rw [mmAesdecSi128, invSubBytes_invShiftRows, decRound]

/-- Block `j` of row `i`, as `aesni` addresses it. -/
theorem add128_row (i j : Nat) : add128 (i * 4 + j) = 64 * i + 16 * j := by
  rw [add128]
  omega

theorem add128_block (i : Nat) : add128 (i * 4) = 64 * i := by
  rw [add128]
  omega

/-! ## Loops -/

section Loops

variable {σ : Type}

/-- The two ways of counting rows. -/
theorem whileBlocks_eq (body : Nat → σ → Option σ) (i : Nat) (s : σ) :
    whileBlocks n body i s = whileRows n (fun offset => body (offset / 64)) (i * 64) s := by
  induction h : n - i * 64 using Nat.strong_induction_on generalizing i s with
  | _ d ih =>
    rw [whileBlocks, whileRows]
    by_cases hi : i * 64 < n
    · rw [if_pos hi, if_pos hi, Nat.mul_div_cancel _ (by decide : 0 < 64)]
      refine congrArg _ (funext fun s' => ?_)
      rw [ih _ (by omega) (i + 1) s' rfl, Nat.add_mul, Nat.one_mul]
    · rw [if_neg hi, if_neg hi]

/-- **A fill loop writes the iterates of its row.** -/
theorem whileRows_fill (round : Lanes → Lanes) {rows offset : Nat}
    {body : Nat → Lanes × Vector Byte n → Option (Lanes × Vector Byte n)}
    (s : Lanes) (output : Vector Byte n)
    (hrow : ∀ offset s output, 64 ∣ offset → offset + 64 ≤ n →
      body offset (s, output) = some (round s, (round s).store output offset))
    (hoffset : 64 ∣ offset) (hn : offset + 64 * rows = n) :
    whileRows n body offset (s, output) = some (fillFrom round rows offset s output) := by
  induction rows generalizing offset s output with
  | zero => rw [whileRows, if_neg (by omega), fillFrom]
  | succ rows ih =>
    rw [whileRows, if_pos (by omega), hrow _ _ _ hoffset (by omega), Option.bind_eq_bind,
      Option.bind_some, ih _ _ (by omega) (by omega), fillFrom]

/-- **A hash loop absorbs the rows.** -/
theorem whileRows_hash (aes : AesRounds) {rows offset : Nat} {body : Nat → Lanes → Option Lanes}
    (input : Vector Byte n) (s : Lanes)
    (hrow : ∀ offset s, 64 ∣ offset → offset + 64 ≤ n →
      body offset s = some (hashRow aes s (.load input offset)))
    (hoffset : 64 ∣ offset) (hn : offset + 64 * rows = n) :
    whileRows n body offset s = some (hashFrom aes input rows offset s) := by
  induction rows generalizing offset s with
  | zero => rw [whileRows, if_neg (by omega), hashFrom]
  | succ rows ih =>
    rw [whileRows, if_pos (by omega), hrow _ _ hoffset (by omega), Option.bind_eq_bind,
      Option.bind_some, ih _ (by omega) (by omega), hashFrom]

/-- **The fused loop absorbs a row, then overwrites it.** -/
theorem whileRows_hashAndFill (aes : AesRounds) (round : Lanes → Lanes) {rows offset : Nat}
    {body : Nat → Lanes × Lanes × Vector Byte n → Option (Lanes × Lanes × Vector Byte n)}
    (hs fs : Lanes) (scratchpad : Vector Byte n)
    (hrow : ∀ offset hs fs scratchpad, 64 ∣ offset → offset + 64 ≤ n →
      body offset (hs, fs, scratchpad)
        = some (hashRow aes hs (.load scratchpad offset), round fs, (round fs).store scratchpad offset))
    (hoffset : 64 ∣ offset) (hn : offset + 64 * rows = n) :
    whileRows n body offset (hs, fs, scratchpad)
      = some (hashAndFillFrom aes round rows offset hs fs scratchpad) := by
  induction rows generalizing offset hs fs scratchpad with
  | zero => rw [whileRows, if_neg (by omega), hashAndFillFrom]
  | succ rows ih =>
    rw [whileRows, if_pos (by omega), hrow _ _ _ _ hoffset (by omega), Option.bind_eq_bind,
      Option.bind_some, ih _ _ _ (by omega) (by omega), hashAndFillFrom]

end Loops

/-! ## The software paths -/

theorem fillAes1Rx4Soft_eq (hn : 64 ∣ n) (state : Vector Byte 64) (output : Vector Byte n) :
    fillAes1Rx4Soft state output = some (fillAes1Rx4 standardRounds state output) := by
  have hrows : 0 + 64 * (n / 64) = n := by omega
  rw [fillAes1Rx4Soft, fillAes1Rx4]
  dsimp only
  simp (disch := decide) only [bind_readBlock]
  rw [whileRows_fill (round1R standardRounds) _ output ?_ (dvd_zero _) hrows,
    Option.bind_eq_bind, Option.bind_some, ← Lanes.load_zero]
  · generalize fillFrom (round1R standardRounds) _ _ _ _ = r
    obtain ⟨⟨s0, s1, s2, s3⟩, output⟩ := r
    simp (disch := decide) only [bind_writeBlock, Option.pure_def, Lanes.store, Nat.zero_add]
  · intro offset s output _ h
    simp (disch := omega) only [bind_writeBlock, softAesenc_eq, softAesdec_eq, Option.pure_def,
      round1R, standardRounds, Lanes.store]

theorem fillAes4Rx4Soft_eq (hn : 64 ∣ n) (state : Vector Byte 64) (output : Vector Byte n) :
    fillAes4Rx4Soft state output = some (fillAes4Rx4 standardRounds state output) := by
  have hrows : 0 + 64 * (n / 64) = n := by omega
  rw [fillAes4Rx4Soft, fillAes4Rx4]
  dsimp only
  simp (disch := decide) only [bind_readBlock]
  rw [whileRows_fill (round4R standardRounds) _ output ?_ (dvd_zero _) hrows,
    Option.bind_eq_bind, Option.bind_some, ← Lanes.load_zero]
  · rfl
  · intro offset s output _ h
    simp (disch := omega) only [bind_writeBlock, softAesenc_eq, softAesdec_eq, Option.pure_def,
      round4R, standardRounds, Lanes.store]

theorem hashAes1Rx4Soft_eq (hn : 64 ∣ n) (input : Vector Byte n) :
    hashAes1Rx4Soft input = some (hashAes1Rx4 standardRounds input) := by
  have hrows : 0 + 64 * (n / 64) = n := by omega
  rw [hashAes1Rx4Soft, hashAes1Rx4]
  dsimp only
  rw [whileRows_hash standardRounds input _ ?_ (dvd_zero _) hrows,
    Option.bind_eq_bind, Option.bind_some, ← hashInit]
  · generalize hashFrom standardRounds input _ _ _ = r
    obtain ⟨s0, s1, s2, s3⟩ := r
    simp (disch := decide) only [bind_writeBlock, softAesenc_eq, softAesdec_eq, hashFinal, standardRounds,
      Lanes.store, Nat.zero_add]
    exact if_pos (by decide)
  · intro offset s _ h
    simp (disch := omega) only [bind_readBlock, softAesenc_eq, softAesdec_eq, Option.pure_def,
      hashRow, standardRounds, Lanes.load]

theorem hashAndFillAes1Rx4Soft_eq (hn : 64 ∣ n) (scratchpad : Vector Byte n)
    (hashOut fillState : Vector Byte 64) :
    hashAndFillAes1Rx4Soft scratchpad hashOut fillState
      = some (hashAndFillAes1Rx4 standardRounds scratchpad hashOut fillState) := by
  have hrows : 0 + 64 * (n / 64) = n := by omega
  rw [hashAndFillAes1Rx4Soft, hashAndFillAes1Rx4]
  dsimp only
  simp (disch := decide) only [bind_readBlock]
  rw [whileRows_hashAndFill standardRounds (round1R standardRounds) _ _ scratchpad ?_
      (dvd_zero _) hrows,
    Option.bind_eq_bind, Option.bind_some, ← Lanes.load_zero, ← hashInit]
  · generalize hashAndFillFrom standardRounds _ _ _ _ _ _ = r
    obtain ⟨⟨hs0, hs1, hs2, hs3⟩, ⟨fs0, fs1, fs2, fs3⟩, scratchpad⟩ := r
    simp (disch := decide) only [bind_writeBlock, softAesenc_eq, softAesdec_eq, Option.pure_def,
      hashFinal, standardRounds, Lanes.store, Nat.zero_add]
  · intro offset hs fs scratchpad _ h
    simp (disch := omega) only [bind_readBlock, bind_writeBlock, softAesenc_eq, softAesdec_eq, Option.pure_def,
      hashRow, round1R, standardRounds, Lanes.load, Lanes.store]

/-! ## The NEON paths -/

theorem fillAes1Rx4Neon_eq (hn : 64 ∣ n) (state : Vector Byte 64) (output : Vector Byte n) :
    fillAes1Rx4Neon state output = some (fillAes1Rx4 standardRounds state output) := by
  have hrows : 0 + 64 * (n / 64) = n := by omega
  rw [fillAes1Rx4Neon, fillAes1Rx4]
  dsimp only [vld1qU8, vst1qU8]
  simp (disch := decide) only [bind_readBlock, loadBlock_block]
  rw [whileRows_fill (round1R standardRounds) _ output ?_ (dvd_zero _) hrows,
    Option.bind_eq_bind, Option.bind_some, ← Lanes.load_zero]
  · generalize fillFrom (round1R standardRounds) _ _ _ _ = r
    obtain ⟨⟨s0, s1, s2, s3⟩, output⟩ := r
    simp (disch := decide) only [bind_writeBlock, Option.pure_def, Lanes.store, Nat.zero_add]
  · intro offset s output _ h
    simp (disch := omega) only [bind_writeBlock, neon_aesenc, neon_aesdec, Option.pure_def,
      round1R, standardRounds, Lanes.store]

theorem fillAes4Rx4Neon_eq (hn : 64 ∣ n) (state : Vector Byte 64) (output : Vector Byte n) :
    fillAes4Rx4Neon state output = some (fillAes4Rx4 standardRounds state output) := by
  have hrows : 0 + 64 * (n / 64) = n := by omega
  rw [fillAes4Rx4Neon, fillAes4Rx4]
  dsimp only [vld1qU8, vst1qU8]
  simp (disch := decide) only [bind_readBlock, loadBlock_block]
  rw [whileRows_fill (round4R standardRounds) _ output ?_ (dvd_zero _) hrows,
    Option.bind_eq_bind, Option.bind_some, ← Lanes.load_zero]
  · rfl
  · intro offset s output _ h
    simp (disch := omega) only [bind_writeBlock, neon_aesenc, neon_aesdec, Option.pure_def,
      round4R, standardRounds, Lanes.store]

theorem hashAes1Rx4Neon_eq (hn : 64 ∣ n) (input : Vector Byte n) :
    hashAes1Rx4Neon input = some (hashAes1Rx4 standardRounds input) := by
  have hrows : 0 + 64 * (n / 64) = n := by omega
  rw [hashAes1Rx4Neon, hashAes1Rx4]
  dsimp only [vld1qU8, vst1qU8]
  simp (disch := decide) only [bind_readBlock, loadBlock_block]
  rw [whileRows_hash standardRounds input _ ?_ (dvd_zero _) hrows,
    Option.bind_eq_bind, Option.bind_some, ← hashInit]
  · generalize hashFrom standardRounds input _ _ _ = r
    obtain ⟨s0, s1, s2, s3⟩ := r
    simp (disch := decide) only [bind_writeBlock, neon_aesenc, neon_aesdec, hashFinal, standardRounds,
      Lanes.store, Nat.zero_add]
    exact if_pos (by decide)
  · intro offset s _ h
    simp (disch := omega) only [bind_readBlock, neon_aesenc, neon_aesdec, Option.pure_def,
      hashRow, standardRounds, Lanes.load]

theorem hashAndFillAes1Rx4Neon_eq (hn : 64 ∣ n) (scratchpad : Vector Byte n)
    (hashOut fillState : Vector Byte 64) :
    hashAndFillAes1Rx4Neon scratchpad hashOut fillState
      = some (hashAndFillAes1Rx4 standardRounds scratchpad hashOut fillState) := by
  have hrows : 0 + 64 * (n / 64) = n := by omega
  rw [hashAndFillAes1Rx4Neon, hashAndFillAes1Rx4]
  dsimp only [vld1qU8, vst1qU8]
  simp (disch := decide) only [bind_readBlock, loadBlock_block]
  rw [whileRows_hashAndFill standardRounds (round1R standardRounds) _ _ scratchpad ?_
      (dvd_zero _) hrows,
    Option.bind_eq_bind, Option.bind_some, ← Lanes.load_zero, ← hashInit]
  · generalize hashAndFillFrom standardRounds _ _ _ _ _ _ = r
    obtain ⟨⟨hs0, hs1, hs2, hs3⟩, ⟨fs0, fs1, fs2, fs3⟩, scratchpad⟩ := r
    simp (disch := decide) only [bind_writeBlock, neon_aesenc, neon_aesdec, Option.pure_def,
      hashFinal, standardRounds, Lanes.store, Nat.zero_add]
  · intro offset hs fs scratchpad _ h
    simp (disch := omega) only [bind_readBlock, bind_writeBlock, neon_aesenc, neon_aesdec, Option.pure_def,
      hashRow, round1R, standardRounds, Lanes.load, Lanes.store]

/-! ## The AES-NI paths -/

theorem fillAes1Rx4Aesni_eq (hn : 64 ∣ n) (state : Vector Byte 64) (output : Vector Byte n) :
    fillAes1Rx4Aesni state output = some (fillAes1Rx4 standardRounds state output) := by
  have hrows : 0 + 64 * (n / 64) = n := by omega
  rw [fillAes1Rx4Aesni, fillAes1Rx4]
  dsimp only [mmLoaduSi128, mmStoreuSi128]
  simp (disch := decide) only [bind_readBlock, loadBlock_block]
  rw [whileBlocks_eq, Nat.zero_mul,
    whileRows_fill (round1R standardRounds) _ output ?_ (dvd_zero _) hrows,
    Option.bind_eq_bind, Option.bind_some, ← Lanes.load_zero]
  · generalize fillFrom (round1R standardRounds) _ _ _ _ = r
    obtain ⟨⟨s0, s1, s2, s3⟩, output⟩ := r
    simp (disch := decide) only [bind_writeBlock, Option.pure_def, Lanes.store, Nat.zero_add]
  · rintro _ s output ⟨i, rfl⟩ h
    rw [Nat.mul_div_cancel_left _ (by decide : 0 < 64)]
    simp (disch := omega) only [add128_row, add128_block, Nat.reduceMul, bind_writeBlock,
      aesni_aesenc, aesni_aesdec, Option.pure_def, round1R, standardRounds, Lanes.store]

theorem fillAes4Rx4Aesni_eq (hn : 64 ∣ n) (state : Vector Byte 64) (output : Vector Byte n) :
    fillAes4Rx4Aesni state output = some (fillAes4Rx4 standardRounds state output) := by
  have hrows : 0 + 64 * (n / 64) = n := by omega
  rw [fillAes4Rx4Aesni, fillAes4Rx4]
  dsimp only [mmLoaduSi128, mmStoreuSi128]
  simp (disch := decide) only [bind_readBlock, loadBlock_block]
  rw [whileBlocks_eq, Nat.zero_mul,
    whileRows_fill (round4R standardRounds) _ output ?_ (dvd_zero _) hrows,
    Option.bind_eq_bind, Option.bind_some, ← Lanes.load_zero]
  · rfl
  · rintro _ s output ⟨i, rfl⟩ h
    rw [Nat.mul_div_cancel_left _ (by decide : 0 < 64)]
    simp (disch := omega) only [add128_row, add128_block, Nat.reduceMul, bind_writeBlock,
      aesni_aesenc, aesni_aesdec, Option.pure_def, round4R, standardRounds, Lanes.store]

theorem hashAes1Rx4Aesni_eq (hn : 64 ∣ n) (input : Vector Byte n) :
    hashAes1Rx4Aesni input = some (hashAes1Rx4 standardRounds input) := by
  have hrows : 0 + 64 * (n / 64) = n := by omega
  rw [hashAes1Rx4Aesni, hashAes1Rx4]
  dsimp only [mmLoaduSi128, mmStoreuSi128]
  simp (disch := decide) only [bind_readBlock, loadBlock_block]
  rw [whileBlocks_eq, Nat.zero_mul,
    whileRows_hash standardRounds input _ ?_ (dvd_zero _) hrows,
    Option.bind_eq_bind, Option.bind_some, ← hashInit]
  · generalize hashFrom standardRounds input _ _ _ = r
    obtain ⟨s0, s1, s2, s3⟩ := r
    simp (disch := decide) only [bind_writeBlock, aesni_aesenc, aesni_aesdec, hashFinal, standardRounds,
      Lanes.store, Nat.zero_add]
    exact if_pos (by decide)
  · rintro _ s ⟨i, rfl⟩ h
    rw [Nat.mul_div_cancel_left _ (by decide : 0 < 64)]
    simp (disch := omega) only [add128_row, add128_block, Nat.reduceMul, bind_readBlock,
      aesni_aesenc, aesni_aesdec, Option.pure_def, hashRow, standardRounds, Lanes.load]

theorem hashAndFillAes1Rx4Aesni_eq (hn : 64 ∣ n) (scratchpad : Vector Byte n)
    (hashOut fillState : Vector Byte 64) :
    hashAndFillAes1Rx4Aesni scratchpad hashOut fillState
      = some (hashAndFillAes1Rx4 standardRounds scratchpad hashOut fillState) := by
  have hrows : 0 + 64 * (n / 64) = n := by omega
  rw [hashAndFillAes1Rx4Aesni, hashAndFillAes1Rx4]
  dsimp only [mmLoaduSi128, mmStoreuSi128]
  simp (disch := decide) only [bind_readBlock, loadBlock_block]
  rw [whileBlocks_eq, Nat.zero_mul,
    whileRows_hashAndFill standardRounds (round1R standardRounds) _ _ scratchpad ?_
      (dvd_zero _) hrows,
    Option.bind_eq_bind, Option.bind_some, ← Lanes.load_zero, ← hashInit]
  · generalize hashAndFillFrom standardRounds _ _ _ _ _ _ = r
    obtain ⟨⟨hs0, hs1, hs2, hs3⟩, ⟨fs0, fs1, fs2, fs3⟩, scratchpad⟩ := r
    simp (disch := decide) only [bind_writeBlock, aesni_aesenc, aesni_aesdec, Option.pure_def,
      hashFinal, standardRounds, Lanes.store, Nat.zero_add]
  · rintro _ hs fs scratchpad ⟨i, rfl⟩ h
    rw [Nat.mul_div_cancel_left _ (by decide : 0 < 64)]
    simp (disch := omega) only [add128_row, add128_block, Nat.reduceMul, bind_readBlock, bind_writeBlock,
      aesni_aesenc, aesni_aesdec, Option.pure_def, hashRow, round1R, standardRounds, Lanes.load, Lanes.store]

/-! ## The mix of the f- and e-registers -/

theorem lanesOf_injective {f g : Vector Block 4} (h : lanesOf f = lanesOf g) : f = g := by
  simp only [lanesOf, Lanes.mk.injEq] at h
  obtain ⟨h0, h1, h2, h3⟩ := h
  refine Vector.ext fun i hi => ?_
  obtain rfl | rfl | rfl | rfl : i = 0 ∨ i = 1 ∨ i = 2 ∨ i = 3 := by omega
  · exact h0
  · exact h1
  · exact h2
  · exact h3

/-- One key of the mix on lanes: a hash row whose four keys are the same. -/
def mixRow (aes : AesRounds) (s : Lanes) (key : Block) : Lanes :=
  hashRow aes s ⟨key, key, key, key⟩

theorem lanesOf_aesMixFe (aes : AesRounds) (f e : Vector Block 4) :
    lanesOf (aesMixFe aes f e) = e.toList.foldl (mixRow aes) (lanesOf f) := by
  rw [aesMixFe]
  induction e.toList generalizing f with
  | nil => rfl
  | cons key keys ih => exact ih _

/-- A loop over the keys whose every step succeeds. -/
theorem foldlM_mixRow (aes : AesRounds) {body : Lanes → Block → Option Lanes}
    (hbody : ∀ s key, body s key = some (mixRow aes s key)) (keys : List Block) (s : Lanes) :
    keys.foldlM body s = some (keys.foldl (mixRow aes) s) := by
  induction keys generalizing s with
  | nil => rfl
  | cons key keys ih =>
    rw [List.foldlM_cons, hbody, Option.bind_eq_bind, Option.bind_some, ih, List.foldl_cons]

theorem aesMixFeSoft_eq (f e : Vector Block 4) :
    aesMixFeSoft f e = some (aesMixFe standardRounds f e) := by
  rw [aesMixFeSoft]
  refine congrArg some (lanesOf_injective ?_)
  rw [lanesOf_aesMixFe]
  induction e.toList generalizing f with
  | nil => rfl
  | cons key keys ih =>
    rw [List.foldl_cons, List.foldl_cons, ih]
    refine congrArg (fun s => keys.foldl (mixRow standardRounds) s) ?_
    simp [lanesOf, softAesenc_eq, softAesdec_eq, mixRow, hashRow, standardRounds]

theorem aesMixFeNeon_eq (f e : Vector Block 4) :
    aesMixFeNeon f e = some (aesMixFe standardRounds f e) := by
  rw [aesMixFeNeon]
  dsimp only [vld1qU8, vst1qU8]
  simp (disch := decide) only [bind_readBlock, loadBlock_block]
  rw [foldlM_mixRow standardRounds ?_]
  · rw [Option.bind_eq_bind, Option.bind_some, ← lanesOf, ← lanesOf_aesMixFe]
    simp (disch := decide) only [bind_writeBlock, storeBlock_block]
    exact congrArg some (lanesOf_injective (set_lanes f _))
  · intro s key
    rw [vdupqNU8, ← vmovqNU8, neon_aesenc, neon_aesdec, neon_aesenc, neon_aesdec]
    rfl

theorem aesMixFeAesni_eq (f e : Vector Block 4) :
    aesMixFeAesni f e = some (aesMixFe standardRounds f e) := by
  rw [aesMixFeAesni]
  dsimp only [mmLoaduSi128, mmStoreuSi128]
  simp (disch := decide) only [bind_readBlock, loadBlock_block]
  rw [foldlM_mixRow standardRounds ?_]
  · rw [Option.bind_eq_bind, Option.bind_some, ← lanesOf, ← lanesOf_aesMixFe]
    simp (disch := decide) only [bind_writeBlock, storeBlock_block]
    exact congrArg some (lanesOf_injective (set_lanes f _))
  · intro s key
    rw [aesni_aesenc, aesni_aesdec, aesni_aesenc, aesni_aesdec]
    rfl

/-! ## Which branch is taken does not matter -/

/-- The software path returns a result, the other two return the same one, and so does every CPU. -/
def PathsAgree (soft neon aesni : Option α) (on : Cpu → Option α) : Prop :=
  ∃ result, soft = some result ∧ neon = some result ∧ aesni = some result
    ∧ ∀ cpu, on cpu = some result

theorem PathsAgree.of_eq {soft neon aesni : Option α} {on : Cpu → Option α} {result : α}
    (hsoft : soft = some result) (hneon : neon = some result) (haesni : aesni = some result)
    (hon : ∀ cpu, on cpu = cpu.select soft neon aesni) : PathsAgree soft neon aesni on := by
  refine ⟨result, hsoft, hneon, haesni, fun cpu => ?_⟩
  rw [hon, hsoft, hneon, haesni]
  rcases cpu with (_ | _) | (_ | _) | _ <;> rfl

/-- **The hardware paths equal the software path.** On buffers of whole rows, the empty one included,
    the three paths of every function of `aes_hash.rs` return the same bytes and the same states, no
    access leaves its buffer, and the feature test decides nothing but the path. -/
theorem aes_paths_agree (hn : 64 ∣ n) (state hashOut fillState : Vector Byte 64)
    (output input scratchpad : Vector Byte n) (f e : Vector Block 4) :
    PathsAgree (fillAes1Rx4Soft state output) (fillAes1Rx4Neon state output)
        (fillAes1Rx4Aesni state output) (fun cpu => fillAes1Rx4On cpu state output)
      ∧ PathsAgree (fillAes4Rx4Soft state output) (fillAes4Rx4Neon state output)
        (fillAes4Rx4Aesni state output) (fun cpu => fillAes4Rx4On cpu state output)
      ∧ PathsAgree (hashAes1Rx4Soft input) (hashAes1Rx4Neon input) (hashAes1Rx4Aesni input)
        (fun cpu => hashAes1Rx4On cpu input)
      ∧ PathsAgree (hashAndFillAes1Rx4Soft scratchpad hashOut fillState)
        (hashAndFillAes1Rx4Neon scratchpad hashOut fillState)
        (hashAndFillAes1Rx4Aesni scratchpad hashOut fillState)
        (fun cpu => hashAndFillAes1Rx4On cpu scratchpad hashOut fillState)
      ∧ PathsAgree (aesMixFeSoft f e) (aesMixFeNeon f e) (aesMixFeAesni f e)
        (fun cpu => aesMixFeOn cpu f e) := by
  have hmod : n % 64 = 0 := by omega
  refine ⟨.of_eq (fillAes1Rx4Soft_eq hn _ _) (fillAes1Rx4Neon_eq hn _ _) (fillAes1Rx4Aesni_eq hn _ _)
      fun cpu => if_pos hmod,
    .of_eq (fillAes4Rx4Soft_eq hn _ _) (fillAes4Rx4Neon_eq hn _ _) (fillAes4Rx4Aesni_eq hn _ _)
      fun cpu => if_pos hmod,
    .of_eq (hashAes1Rx4Soft_eq hn _) (hashAes1Rx4Neon_eq hn _) (hashAes1Rx4Aesni_eq hn _)
      fun cpu => if_pos hmod,
    .of_eq (hashAndFillAes1Rx4Soft_eq hn _ _ _) (hashAndFillAes1Rx4Neon_eq hn _ _ _)
      (hashAndFillAes1Rx4Aesni_eq hn _ _ _) fun cpu => if_pos hmod,
    .of_eq (aesMixFeSoft_eq _ _) (aesMixFeNeon_eq _ _) (aesMixFeAesni_eq _ _) fun cpu => rfl⟩

/-- Bytes that differ from one another. -/
def sampleBytes (n : Nat) : Vector Byte n := Vector.ofFn fun k => BitVec.ofNat 8 (7 * k + 1)

/-- The paths on two rows. -/
theorem aes_paths_agree_two_rows :
    let data := sampleBytes 128
    let state := sampleBytes 64
    let f := Vector.replicate 4 (sampleBytes 16)
    PathsAgree (fillAes1Rx4Soft state data) (fillAes1Rx4Neon state data) (fillAes1Rx4Aesni state data)
        (fun cpu => fillAes1Rx4On cpu state data)
      ∧ PathsAgree (fillAes4Rx4Soft state data) (fillAes4Rx4Neon state data) (fillAes4Rx4Aesni state data)
        (fun cpu => fillAes4Rx4On cpu state data)
      ∧ PathsAgree (hashAes1Rx4Soft data) (hashAes1Rx4Neon data) (hashAes1Rx4Aesni data)
        (fun cpu => hashAes1Rx4On cpu data)
      ∧ PathsAgree (hashAndFillAes1Rx4Soft data state state) (hashAndFillAes1Rx4Neon data state state)
        (hashAndFillAes1Rx4Aesni data state state) (fun cpu => hashAndFillAes1Rx4On cpu data state state)
      ∧ PathsAgree (aesMixFeSoft f f) (aesMixFeNeon f f) (aesMixFeAesni f f) (fun cpu => aesMixFeOn cpu f f) :=
  aes_paths_agree (by decide) _ _ _ _ _ _ _ _

/-! ## The fused pass -/

/-- **The fused pass equals the two separate passes**, whatever `hash_out` held. -/
theorem hash_and_fill_is_hash_then_fill (hn : 64 ∣ n) (scratchpad : Vector Byte n)
    (hashOut fillState : Vector Byte 64) :
    ∃ hash fillState' scratchpad',
      hashAes1Rx4Soft scratchpad = some hash
        ∧ fillAes1Rx4Soft fillState scratchpad = some (fillState', scratchpad')
        ∧ hashAndFillAes1Rx4Soft scratchpad hashOut fillState
          = some (scratchpad', hash, fillState') := by
  refine ⟨_, (fillAes1Rx4 standardRounds fillState scratchpad).1,
    (fillAes1Rx4 standardRounds fillState scratchpad).2, hashAes1Rx4Soft_eq hn _,
    fillAes1Rx4Soft_eq hn _ _, ?_⟩
  rw [hashAndFillAes1Rx4Soft_eq hn, hashAndFillAes1Rx4_eq]

/-- The fused pass over two rows. -/
theorem hash_and_fill_is_hash_then_fill_two_rows :
    let data := sampleBytes 128
    let state := sampleBytes 64
    ∃ hash fillState' scratchpad',
      hashAes1Rx4Soft data = some hash ∧ fillAes1Rx4Soft state data = some (fillState', scratchpad')
        ∧ hashAndFillAes1Rx4Soft data state state = some (scratchpad', hash, fillState') :=
  hash_and_fill_is_hash_then_fill (by decide) _ _ _

end RandomX
end MinerTim
