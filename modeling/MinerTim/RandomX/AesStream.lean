import MinerTim.RandomX.AesPathsSpec
import MinerTim.RandomX.VmLoop

/-!
# `RandomX.AesStream` — the AES generators are streams

A generator of `aes_hash.rs` writes the iterates of its round (`byteAt_fillFrom`), so that a longer fill
starts with a shorter one. `fill_aes_1rx4` writes its state back and can be continued from there;
`fill_aes_4rx4` does not, and starts over. A V1 program is read off the first 2176 bytes of the second
generator, so that it does not matter how many more are generated (`executeVmInner_congr`).
-/

namespace MinerTim
namespace RandomX

variable {m n : Nat}

/-! ## Continuing a fill -/

theorem byteAt_append (v : Vector Byte m) (w : Vector Byte n) {i : Nat} (h : i < m + n) :
    byteAt (v ++ w) i = if i < m then byteAt v i else byteAt w (i - m) := by
  rw [byteAt_eq_getElem _ h, Vector.getElem_append]
  split_ifs with hi
  · rw [byteAt_eq_getElem _ hi]
  · rw [byteAt_eq_getElem _ (by omega)]

theorem Lanes.byte_injective {s s' : Lanes} (h : ∀ k < 64, s.byte k = s'.byte k) : s = s' := by
  have h0 : s.s0 = s'.s0 := eq_of_byteAt fun i hi => by
    simpa [Lanes.byte, hi] using h i (by omega)
  have h1 : s.s1 = s'.s1 := eq_of_byteAt fun i hi => by
    simpa [Lanes.byte, show 16 + i < 32 by omega] using h (16 + i) (by omega)
  have h2 : s.s2 = s'.s2 := eq_of_byteAt fun i hi => by
    simpa [Lanes.byte, show ¬ 32 + i < 16 by omega, show 32 + i < 48 by omega] using
      h (32 + i) (by omega)
  have h3 : s.s3 = s'.s3 := eq_of_byteAt fun i hi => by
    simpa [Lanes.byte, show ¬ 48 + i < 16 by omega, show ¬ 48 + i < 32 by omega] using
      h (48 + i) (by omega)
  obtain ⟨s0, s1, s2, s3⟩ := s
  rw [Lanes.mk.injEq]
  exact ⟨h0, h1, h2, h3⟩

theorem byte_load (data : Vector Byte n) (offset : Nat) {k : Nat} (h : k < 64) :
    (Lanes.load data offset).byte k = byteAt data (offset + k) := by
  have hblock : ∀ o j, j < 16 → byteAt (loadBlock data o) j = byteAt data (o + j) := fun o j hj => by
    rw [byteAt_eq_getElem _ hj, loadBlock, Vector.getElem_ofFn]
  rw [Lanes.byte]
  split_ifs with h0 h1 h2
  · exact hblock _ _ h0
  · rw [show offset + k = offset + 16 + (k - 16) by omega]
    exact hblock _ _ (by omega)
  · rw [show offset + k = offset + 32 + (k - 32) by omega]
    exact hblock _ _ (by omega)
  · rw [show offset + k = offset + 48 + (k - 48) by omega]
    exact hblock _ _ (by omega)

/-- The state that is written back is the state that is read again. -/
theorem load_store (state : Vector Byte 64) (s : Lanes) : Lanes.load (s.store state 0) 0 = s :=
  Lanes.byte_injective fun k hk => by
    rw [byte_load _ _ hk, Nat.zero_add, byteAt_storeLanes _ _ _ hk, if_pos (by omega), Nat.sub_zero]

/-- **Filling `m + n` bytes is filling `m` bytes, and then `n` from the state reached.** -/
theorem fillFrom_append (round : Lanes → Lanes) (hm : 64 ∣ m) (hn : 64 ∣ n) (s : Lanes)
    (output : Vector Byte (m + n)) (output₁ : Vector Byte m) (output₂ : Vector Byte n) :
    (fillFrom round ((m + n) / 64) 0 s output).2
      = (fillFrom round (m / 64) 0 s output₁).2
        ++ (fillFrom round (n / 64) 0 (round^[m / 64] s) output₂).2 := by
  refine eq_of_byteAt fun i hi => ?_
  rw [byteAt_append _ _ hi, byteAt_fillFrom _ _ _ _ _ hi, if_pos (by omega), Nat.sub_zero]
  split_ifs with hlow
  · rw [byteAt_fillFrom _ _ _ _ _ hlow, if_pos (by omega), Nat.sub_zero]
  · -- the second part goes on where the first stopped
    rw [byteAt_fillFrom _ _ _ _ _ (by omega), if_pos (by omega), Nat.sub_zero,
      ← Function.iterate_add_apply, show (i - m) / 64 + 1 + m / 64 = i / 64 + 1 by omega,
      show (i - m) % 64 = i % 64 by omega]

variable (aes : AesRounds)

theorem fillAes1Rx4_append (hm : 64 ∣ m) (hn : 64 ∣ n) (state : Vector Byte 64)
    (output : Vector Byte (m + n)) (output₁ : Vector Byte m) (output₂ : Vector Byte n) :
    fillAes1Rx4 aes state output
      = ((fillAes1Rx4 aes (fillAes1Rx4 aes state output₁).1 output₂).1,
          (fillAes1Rx4 aes state output₁).2
            ++ (fillAes1Rx4 aes (fillAes1Rx4 aes state output₁).1 output₂).2) := by
  refine Prod.ext ?_ ?_
  · simp only [fillAes1Rx4, fillFrom_fst, load_store]
    rw [storeLanes_congr (Lanes.store state 0 _) state, ← Function.iterate_add_apply,
      show (m + n) / 64 = n / 64 + m / 64 by omega]
  · simp only [fillAes1Rx4, fillFrom_fst, load_store]
    exact fillFrom_append _ hm hn _ _ _ _

/-- The first bytes of a longer fill. -/
theorem fillAes4Rx4_append (hm : 64 ∣ m) (hn : 64 ∣ n) (state : Vector Byte 64)
    (output : Vector Byte (m + n)) (output₁ : Vector Byte m) :
    ∃ rest : Vector Byte n, fillAes4Rx4 aes state output = fillAes4Rx4 aes state output₁ ++ rest :=
  ⟨_, fillFrom_append _ hm hn _ output output₁ (Vector.replicate n 0)⟩

/-! ## What a program is read from -/

section Program

variable {programBytes : Vector Byte m} {programBytes' : Vector Byte n}

theorem entropy_congr (h : ∀ i < INSTRUCTIONS_OFFSET, byteAt programBytes i = byteAt programBytes' i)
    {idx : Nat} (hidx : idx < 16) : entropy programBytes idx = entropy programBytes' idx :=
  leWord_congr fun k hk => h _ (by unfold INSTRUCTIONS_OFFSET ENTROPY_OFFSET; omega)

theorem compileFrom_congr {count i : Nat} (usage : RegisterUsage) (bytecode : BytecodeBuffer)
    (h : ∀ k < INSTRUCTIONS_OFFSET + (i + count) * 8,
      byteAt programBytes k = byteAt programBytes' k) :
    compileFrom programBytes count i usage bytecode
      = compileFrom programBytes' count i usage bytecode := by
  induction count generalizing i usage bytecode with
  | zero => rfl
  | succ count ih =>
    have hraw : rawInstruction programBytes i = rawInstruction programBytes' i := by
      have hbyte : ∀ k < 8, byteAt programBytes (INSTRUCTIONS_OFFSET + i * 8 + k)
          = byteAt programBytes' (INSTRUCTIONS_OFFSET + i * 8 + k) := fun k hk => h _ (by omega)
      simp only [rawInstruction, RawInstruction.fromBytes, hbyte 0 (by decide), hbyte 1 (by decide),
        hbyte 2 (by decide), hbyte 3 (by decide),
        leWord32_congr fun k hk => hbyte (4 + k) (by omega)]
    rw [compileFrom, compileFrom, hraw]
    exact ih _ _ fun k hk => h k (by omega)

theorem deriveProgramParams_congr
    (h : ∀ i < INSTRUCTIONS_OFFSET, byteAt programBytes i = byteAt programBytes' i) :
    deriveProgramParams programBytes = deriveProgramParams programBytes' := by
  -- the masks are rewritten together: the size of their vector depends on both
  have hmask := congrArg₂ (fun a b => #v[getFloatMask a, getFloatMask b])
    (entropy_congr h (show 14 < 16 by decide)) (entropy_congr h (show 15 < 16 by decide))
  rw [deriveProgramParams, deriveProgramParams, hmask, entropy_congr h (show 8 < 16 by decide),
    entropy_congr h (show 10 < 16 by decide), entropy_congr h (show 12 < 16 by decide),
    entropy_congr h (show 13 < 16 by decide)]

theorem initRegisters_congr
    (h : ∀ i < INSTRUCTIONS_OFFSET, byteAt programBytes i = byteAt programBytes' i)
    (nreg : NativeRegisterFile) :
    initRegisters programBytes nreg = initRegisters programBytes' nreg := by
  have ha : ∀ i : Fin 4, entropy programBytes (i * 2) = entropy programBytes' (i * 2)
      ∧ entropy programBytes (i * 2 + 1) = entropy programBytes' (i * 2 + 1) :=
    fun i => ⟨entropy_congr h (by omega), entropy_congr h (by omega)⟩
  simp only [initRegisters, ha]

theorem compileProgram_congr {programSize : Nat} (bytecode : BytecodeBuffer)
    (h : ∀ k < INSTRUCTIONS_OFFSET + programSize * 8, byteAt programBytes k = byteAt programBytes' k) :
    compileProgram programBytes bytecode programSize
      = compileProgram programBytes' bytecode programSize := by
  rw [compileProgram, compileProgram]
  exact compileFrom_congr _ _ fun k hk => h k (by omega)

/-- **`execute_vm_inner` reads the entropy and the instructions of its version**, and nothing else of
    the program bytes. -/
theorem executeVmInner_congr {fp : FpUnit} {ctx : VmContext} {version : RxVersion} (iterations : Nat)
    (buf : BytecodeBuffer) (s : VmState)
    (h : ∀ i < version.programBytesSize, byteAt programBytes i = byteAt programBytes' i) :
    executeVmInner fp aes ctx version programBytes iterations buf s
      = executeVmInner fp aes ctx version programBytes' iterations buf s := by
  have hentropy : ∀ i < INSTRUCTIONS_OFFSET, byteAt programBytes i = byteAt programBytes' i :=
    fun i hi => h i (by unfold RxVersion.programBytesSize; omega)
  rw [executeVmInner, executeVmInner, initRegisters_congr hentropy, deriveProgramParams_congr hentropy,
    compileProgram_congr buf h]

end Program

/-! ## Streams -/

/-- **The AES generators are streams.** Filling `m + n` bytes with `fill_aes_1rx4` is filling `m` bytes
    and then `n` bytes from the state written back; what `fill_aes_4rx4` writes into `m` bytes is the
    start of what it writes into `m + n` from the same state. So `execute_vm_inner` runs the same V1
    program whether 2176 bytes were generated for it or 3200. -/
theorem aes_generators_are_streams (state : Vector Byte 64) :
    (∀ {m n : Nat}, 64 ∣ m → 64 ∣ n → ∀ (output : Vector Byte (m + n)) (output₁ : Vector Byte m)
        (output₂ : Vector Byte n), ∃ state₁ state₂ written₁ written₂,
      fillAes1Rx4Soft state output₁ = some (state₁, written₁)
        ∧ fillAes1Rx4Soft state₁ output₂ = some (state₂, written₂)
        ∧ fillAes1Rx4Soft state output = some (state₂, written₁ ++ written₂))
      ∧ (∀ {m n : Nat}, 64 ∣ m → 64 ∣ n → ∀ (output : Vector Byte (m + n)) (output₁ : Vector Byte m),
        ∃ (written : Vector Byte m) (rest : Vector Byte n),
          fillAes4Rx4Soft state output₁ = some written
            ∧ fillAes4Rx4Soft state output = some (written ++ rest))
      ∧ (∀ (output : Vector Byte RxVersion.V2.programBytesSize)
        (output₁ : Vector Byte RxVersion.V1.programBytesSize), ∃ long short,
        fillAes4Rx4Soft state output = some long ∧ fillAes4Rx4Soft state output₁ = some short
          ∧ (∀ i < RxVersion.V1.programBytesSize, byteAt long i = byteAt short i)
          ∧ ∀ fp aes ctx iterations buf s, executeVmInner fp aes ctx .V1 long iterations buf s
            = executeVmInner fp aes ctx .V1 short iterations buf s) := by
  refine ⟨fun {m n} hm hn output output₁ output₂ => ?_, fun {m n} hm hn output output₁ => ?_,
    fun output output₁ => ?_⟩
  · let r₁ := fillAes1Rx4 standardRounds state output₁
    let r₂ := fillAes1Rx4 standardRounds r₁.1 output₂
    refine ⟨r₁.1, r₂.1, r₁.2, r₂.2, fillAes1Rx4Soft_eq hm _ _, fillAes1Rx4Soft_eq hn _ _, ?_⟩
    rw [fillAes1Rx4Soft_eq (by omega), fillAes1Rx4_append _ hm hn state output output₁ output₂]
  · obtain ⟨rest, hrest⟩ := fillAes4Rx4_append standardRounds hm hn state output output₁
    exact ⟨_, rest, fillAes4Rx4Soft_eq hm _ _, by rw [fillAes4Rx4Soft_eq (by omega), hrest]⟩
  · -- `execute_vm_inner` reads no byte of the program past the length of V1
    have hbytes : ∀ i < RxVersion.V1.programBytesSize,
        byteAt (fillAes4Rx4 standardRounds state output) i
          = byteAt (fillAes4Rx4 standardRounds state output₁) i := fun i hi => by
      rw [fillAes4Rx4, fillAes4Rx4, byteAt_fillFrom _ _ _ _ _ (hi.trans (by decide)),
        byteAt_fillFrom _ _ _ _ _ hi, if_pos ⟨Nat.zero_le _, hi.trans_le (by decide)⟩,
        if_pos ⟨Nat.zero_le _, hi.trans_le (by decide)⟩]
    exact ⟨_, _, fillAes4Rx4Soft_eq (by decide) _ _, fillAes4Rx4Soft_eq (by decide) _ _, hbytes,
      fun fp aes ctx iterations buf s => executeVmInner_congr aes iterations buf s hbytes⟩

/-- One row, then another. -/
theorem aes_generators_are_streams_two_rows :
    let z : Vector Byte 64 := Vector.replicate 64 0
    ∃ state₁ state₂ written₁ written₂, fillAes1Rx4Soft z z = some (state₁, written₁)
      ∧ fillAes1Rx4Soft state₁ z = some (state₂, written₂)
      ∧ fillAes1Rx4Soft z (Vector.replicate 128 0) = some (state₂, written₁ ++ written₂) :=
  (aes_generators_are_streams _).1 (by decide) (by decide) _ _ _

end RandomX
end MinerTim
