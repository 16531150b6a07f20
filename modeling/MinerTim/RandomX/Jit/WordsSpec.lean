import MinerTim.Lib.Arm64.Decode
import MinerTim.RandomX.Jit.BitmaskSpec
import MinerTim.RandomX.Jit.Words

/-!
# `RandomX.Jit.WordsSpec` — the words decode to what the methods are named after

Three facts about every call give its decoding: its row is one of the tables, its word has the fixed bits of the
row, and the fields of the word are the operands. A method that pushes several words decodes word by word.
-/

namespace MinerTim
namespace RandomX
namespace Words

open Arm64

/-! ## Operands -/

theorem sdiv_pairBytes (imm7 : BitVec 7) :
    (BitVec.ofInt 32 (pairBytes imm7)).sdiv 8 &&& 0x7F = u32 imm7 := by
  revert imm7
  decide

theorem ofInt_pairBytes (imm7 : BitVec 7) : BitVec.ofInt 7 ((pairBytes imm7).tdiv 8) = imm7 := by
  rw [pairBytes, Int.mul_tdiv_cancel_left _ (by decide), BitVec.ofInt_toInt]

theorem pairOffset_eq (imm7 : BitVec 7) : pairOffset imm7 = BitVec.ofInt 64 (pairBytes imm7) := by
  revert imm7
  decide

theorem div_scaledBytes (imm12 : BitVec 12) : BitVec.ofNat 32 (scaledBytes imm12) / 8 = u32 imm12 := by
  apply BitVec.eq_of_toNat_eq
  rw [BitVec.toNat_udiv, BitVec.toNat_ofNat, u32, BitVec.toNat_setWidth, scaledBytes]
  show 8 * imm12.toNat % 2 ^ 32 / 8 = imm12.toNat % 2 ^ 32
  omega

theorem ofNat_scaledBytes (imm12 : BitVec 12) : BitVec.ofNat 12 (scaledBytes imm12 / 8) = imm12 := by
  rw [scaledBytes, Nat.mul_div_cancel_left _ (by decide), BitVec.ofNat_toNat, BitVec.setWidth_eq]

theorem scaledOffset_eq (imm12 : BitVec 12) : scaledOffset imm12 = BitVec.ofNat 64 (scaledBytes imm12) := by
  apply BitVec.eq_of_toNat_eq
  rw [scaledOffset, BitVec.toNat_shiftLeft, BitVec.toNat_setWidth, BitVec.toNat_ofNat, Nat.shiftLeft_eq,
    scaledBytes]
  omega

/-- A signed distance, cut to its field. -/
theorem ofInt_and (imm19 : BitVec 19) : BitVec.ofInt 32 imm19.toInt &&& 0x7FFFF = u32 imm19 := by
  apply BitVec.eq_of_getLsbD_eq
  intro k hk
  have hones : (0x7FFFF : BitVec 32) = (BitVec.allOnes 19).setWidth 32 := by decide
  rw [show BitVec.ofInt 32 imm19.toInt = imm19.signExtend 32 from rfl, hones, u32, BitVec.getLsbD_and,
    BitVec.getLsbD_signExtend, BitVec.getLsbD_setWidth, BitVec.getLsbD_setWidth, BitVec.getLsbD_allOnes]
  by_cases h : k < 19
  · simp [h, hk]
  · simp [h, BitVec.getLsbD_of_ge imm19 k (Nat.not_lt.mp h)]

/-- A forward distance fits the signed field. -/
theorem and_skip (skip : BitVec 18) : u32 skip &&& 0x7FFFF = u32 (skip.setWidth 19) := by
  apply BitVec.eq_of_toNat_eq
  have hlt := skip.isLt
  rw [BitVec.toNat_and, show (0x7FFFF : U32).toNat = 2 ^ 19 - 1 from rfl, Nat.and_two_pow_sub_one_eq_mod, u32,
    u32, BitVec.toNat_setWidth, BitVec.toNat_setWidth, BitVec.toNat_setWidth]
  omega

theorem lsl_immr (imm6 : BitVec 6) : (64 - u32 imm6) &&& 0x3F = u32 (BitVec.ofNat 6 (64 - imm6.toNat)) := by
  have hlt := imm6.isLt
  apply BitVec.eq_of_toNat_eq
  rw [BitVec.toNat_and, show (0x3F : U32).toNat = 2 ^ 6 - 1 from rfl, Nat.and_two_pow_sub_one_eq_mod,
    BitVec.toNat_sub, u32, u32, BitVec.toNat_setWidth, BitVec.toNat_setWidth, BitVec.toNat_ofNat,
    show (64 : U32).toNat = 64 from rfl]
  omega

theorem lsl_imms (imm6 : BitVec 6) : (63 - u32 imm6) &&& 0x3F = u32 (BitVec.ofNat 6 (63 - imm6.toNat)) := by
  have hlt := imm6.isLt
  apply BitVec.eq_of_toNat_eq
  rw [BitVec.toNat_and, show (0x3F : U32).toNat = 2 ^ 6 - 1 from rfl, Nat.and_two_pow_sub_one_eq_mod,
    BitVec.toNat_sub, u32, u32, BitVec.toNat_setWidth, BitVec.toNat_setWidth, BitVec.toNat_ofNat,
    show (63 : U32).toNat = 63 from rfl]
  omega

theorem div_hw (hw : BitVec 2) : u32 hw * 16 / 16 = u32 hw := by
  revert hw
  decide

theorem ofNat_hw (hw : BitVec 2) : BitVec.ofNat 2 (hw.toNat * 16 / 16) = hw := by
  rw [Nat.mul_div_cancel _ (by decide), BitVec.ofNat_toNat, BitVec.setWidth_eq]

/-! ## One word -/

namespace Call

open Encodings in
/-- The row of the tables for a call. -/
def row : Call → Encoding
  | addReg .. | addRegShifted .. => Encodings.addReg
  | addImm .. => Encodings.addImm
  | subReg .. | neg .. => Encodings.subReg
  | subImm .. => Encodings.subImm
  | subsImm .. => Encodings.subsImm
  | eorRegW .. => Encodings.eorRegW
  | prfmReg .. => Encodings.prfmReg
  | stpFpImm .. => Encodings.stpFpImm
  | mul .. => madd
  | umulh .. => Encodings.umulh
  | smulh .. => Encodings.smulh
  | eorReg .. => Encodings.eorReg
  | andReg .. => Encodings.andReg
  | andImm .. => Encodings.andImm
  | tstImm .. => andsImm
  | tstReg .. => andsReg
  | orrReg .. | movReg .. => Encodings.orrReg
  | rorv .. => Encodings.rorv
  | rorImm .. => extr
  | lsrImm .. | lslImm .. => ubfm
  | movz .. => Encodings.movz
  | movk .. => Encodings.movk
  | movn .. => Encodings.movn
  | ldrReg .. => Encodings.ldrReg
  | ldrImm .. => Encodings.ldrImm
  | strReg .. => Encodings.strReg
  | strImm .. => Encodings.strImm
  | ldrFpImm .. => Encodings.ldrFpImm
  | strFpImm .. => Encodings.strFpImm
  | stpPre .. => Encodings.stpPre
  | ldpPost .. => Encodings.ldpPost
  | stpFpPre .. => Encodings.stpFpPre
  | ldpFpPost .. => Encodings.ldpFpPost
  | fadd .. => Encodings.fadd
  | fsub .. => Encodings.fsub
  | fmul .. => Encodings.fmul
  | fdiv .. => Encodings.fdiv
  | fsqrt .. => Encodings.fsqrt
  | fmovDd .. => fmovDD
  | fmovXd .. => fmovXD
  | fmovDx .. => fmovDX
  | scvtfDx .. => scvtfDX
  | eorV8b .. => Encodings.eorV8b
  | bCond .. => Encodings.bCond
  | ret => Encodings.ret
  | msrFpcr .. => Encodings.msrFpcr
  | ldrswLow | ldrswHigh => ldrswImm
  | cbzGuard .. => cbz

theorem row_mem (c : Call) : c.row ∈ encodings := by
  unfold encodings Encodings.dataProcessingImmediate Encodings.branchesSystem Encodings.loadsStores
    Encodings.dataProcessingRegister Encodings.floatingPoint
  simp only [List.cons_append, List.nil_append]
  cases c <;> repeat (first | exact List.mem_cons_self | apply List.mem_cons_of_mem)

theorem exists_word (c : Call) : ∃ w, c.words = [w] := by
  cases c <;> exact ⟨_, rfl⟩

/-- The fixed bits are those of the row: no operand reaches them. -/
theorem row_matches (c : Call) {w : U32} (h : c.words = [w]) : c.row.Matches w := by
  cases c <;> cases h <;> unfold Encoding.Matches
  case ret => decide
  case ldrswLow => decide
  case ldrswHigh => decide
  all_goals
    simp only [row, sdiv_pairBytes, div_scaledBytes, ofInt_and, lsl_immr, lsl_imms, div_hw]
    simp (disch := decide) only [u32, setWidth_and, BitVec.and_or_distrib_right, place_and, low_and,
      BitVec.or_zero]
    decide

/-- The fields are the operands. -/
theorem row_inst (c : Call) {w : U32} (h : c.words = [w]) : c.code = [c.row.inst w] := by
  cases c <;> cases h <;> refine congrArg (fun i => [i]) ?_
  case ret => rfl
  case ldrswLow => rfl
  case ldrswHigh => rfl
  all_goals
    simp only [row, and_skip, sdiv_pairBytes, div_scaledBytes, ofInt_and, lsl_immr, lsl_imms, div_hw,
      ofInt_pairBytes, ofNat_scaledBytes, ofNat_hw, BitVec.ofInt_toInt, BitField.get, BitField.reg,
      Encodings.addImm, Encodings.subImm, Encodings.subsImm, Encodings.andImm, Encodings.andsImm,
      Encodings.movn, Encodings.movz, Encodings.movk, Encodings.ubfm, Encodings.extr, Encodings.bCond,
      Encodings.cbz, Encodings.msrFpcr, Encodings.strReg, Encodings.ldrReg, Encodings.prfmReg,
      Encodings.strImm, Encodings.ldrImm, Encodings.strFpImm, Encodings.ldrFpImm, Encodings.stpPre,
      Encodings.ldpPost, Encodings.stpFpPre, Encodings.ldpFpPost, Encodings.stpFpImm, Encodings.addReg,
      Encodings.subReg, Encodings.andReg, Encodings.orrReg, Encodings.eorReg, Encodings.andsReg,
      Encodings.eorRegW, Encodings.rorv, Encodings.madd, Encodings.smulh, Encodings.umulh, Encodings.fmul,
      Encodings.fdiv, Encodings.fadd, Encodings.fsub, Encodings.fmovDD, Encodings.fsqrt,
      Encodings.scvtfDX, Encodings.fmovXD, Encodings.fmovDX, Encodings.eorV8b]
    simp (disch := decide) only [u32, setWidth_and, BitVec.extractLsb'_or, extract_place, extract_low,
      extract_place_of_disjoint, extract_low_of_disjoint, BitVec.or_zero, clear_or, or_clear,
      BitVec.ofNat_toNat, BitVec.setWidth_eq]
  all_goals rfl

/-- **A call decodes** to the instruction that the decoded encoder has for it. -/
theorem decodeAll_words (c : Call) : decodeAll c.words = some c.code := by
  obtain ⟨w, hw⟩ := c.exists_word
  rw [hw, c.row_inst hw]
  exact decodeAll_singleton (decode_eq c.row_mem (c.row_matches hw))

end Call

/-! ## One step -/

namespace Call

variable {fp : FpOps} {s : State} {program : Code} {pc : Nat} {i : Inst}

/-- The shift to the left, with its field 0 for a shift by nothing. -/
theorem bitfield_lslImm (v : Word) (imm6 : BitVec 6) :
    bitfield v (BitVec.ofNat 6 (64 - imm6.toNat)) (BitVec.ofNat 6 (63 - imm6.toNat)) = v <<< imm6.toNat := by
  rcases Nat.eq_zero_or_pos imm6.toNat with hzero | hpos
  · rw [hzero, BitVec.shiftLeft_zero]
    exact (Emitter.bitfield_lsr v (show 0 < 64 by decide)).trans (BitVec.ushiftRight_zero v)
  · exact Emitter.bitfield_lsl v hpos imm6.isLt

/-- A call that is no branch has its effect: the aliases do what they are named after. -/
theorem exec_code (c : Call) (h : c.code = [i]) (hbranch : i.isBranch = false) :
    exec fp i s = c.effect fp s := by
  cases c <;> cases h
  case bCond | ret | cbzGuard => cases hbranch
  case addReg | addRegShifted | addImm | subImm | subsImm | neg | mul | andImm | movReg => simp [exec, effect]
  case tstImm | tstReg => simp [exec, effect, State.setX]
  case eorRegW => simp [exec, effect, BitVec.setWidth_xor]
  case rorImm rd rs imm6 => simp [exec, effect, Emitter.extr_ror _ imm6.isLt]
  case lsrImm rd rn imm6 => simp only [exec, effect, Emitter.bitfield_lsr _ imm6.isLt]
  case lslImm => simp only [exec, effect, bitfield_lslImm]
  case movz | movk | movn => simp only [exec, effect, ofNat_hw, Emitter.insertChunk]
  case ldrImm | strImm | ldrFpImm | strFpImm =>
    simp only [exec, effect, ofNat_scaledBytes, scaledOffset_eq, scaledAddress]
  case stpPre | ldpPost | stpFpPre | ldpFpPost | stpFpImm =>
    simp only [exec, effect, ofInt_pairBytes, pairOffset_eq, pairAddress, storePair]
  case ldrswLow | ldrswHigh => simp [exec, effect, State.getXSp]
  all_goals rfl

/-- A forward distance stays positive in the signed field. -/
theorem jump_skip (skip : BitVec 18) : jump pc (skip.setWidth 19) s = .running (pc + skip.toNat) s := by
  have hlt := skip.isLt
  have hfield : (skip.setWidth 19).toNat = skip.toNat := by
    rw [BitVec.toNat_setWidth, Nat.mod_eq_of_lt (by omega)]
  have hint : (skip.setWidth 19).toInt = skip.toNat := by
    rw [BitVec.toInt_eq_toNat_of_lt (by omega), hfield]
  rw [jump, hint]
  exact if_pos (by omega)

theorem step_undefined (hi : program[pc]? = some i) (h : i.isDefined = false) :
    step fp program pc s = .stuck := by
  unfold step
  rw [hi]
  exact if_neg (Bool.eq_false_iff.mp h)

/-- **A step is what the method is named after.** -/
theorem step_code (c : Call) (h : c.code = [i]) (hi : program[pc]? = some i) :
    step fp program pc s = c.outcome fp s pc := by
  -- a call that neither branches nor is reserved goes on with its effect
  have hnext (hbranch : i.isBranch = false) (hdefined : i.isDefined = true) :
      step fp program pc s = .running (pc + 1) (c.effect fp s) := by
    rw [step_of_not_branch hi hbranch hdefined, c.exec_code h hbranch]
  cases c <;> cases h
  case bCond => simp [step, hi, outcome, Inst.isDefined]
  case ret => simp [step, hi, outcome, Inst.isDefined]
  case cbzGuard => simp [step, hi, outcome, Inst.isDefined, jump_skip, State.getX]
  case andImm _ _ n immr imms | tstImm _ n immr imms =>
    by_cases hsome : (decodeBitMasks n immr imms).isSome = true
    · rw [hnext rfl (by simpa [Inst.isDefined] using hsome), outcome, if_pos hsome]
    · rw [step_undefined hi (by simpa [Inst.isDefined] using hsome), outcome, if_neg hsome]
  all_goals exact hnext rfl rfl

end Call

/-! ## Wide moves -/

theorem u32_inj {f g : BitVec 16} (h : u32 f = u32 g) : f = g := by
  have hcut := congrArg (BitVec.setWidth 16) h
  rwa [u32, u32, BitVec.setWidth_setWidth_of_le _ (by decide), BitVec.setWidth_setWidth_of_le _ (by decide),
    BitVec.setWidth_eq, BitVec.setWidth_eq] at hcut

theorem chunk_eq (v : Word) (i : Nat) : chunk v i = u32 (Emitter.chunk v i) := by
  have hones : (0xFFFF : Word) = (BitVec.allOnes 16).setWidth 64 := by decide
  apply BitVec.eq_of_getLsbD_eq
  intro k hk
  rw [chunk, u32, BitVec.getLsbD_setWidth, BitVec.getLsbD_setWidth, BitVec.getLsbD_and, hones,
    BitVec.getLsbD_setWidth, BitVec.getLsbD_allOnes, BitVec.getLsbD_ushiftRight, Emitter.getLsbD_chunk]
  by_cases hlow : k < 16
  · simp [hk, hlow, show k < 64 by omega]
  · simp [hlow]

theorem chunk_eq_zero (v : Word) (i : Nat) : chunk v i = 0 ↔ Emitter.chunk v i = 0 := by
  rw [chunk_eq]
  constructor
  · intro h
    exact u32_inj h
  · intro h
    rw [h]
    rfl

theorem chunk_eq_ones (v : Word) (i : Nat) : chunk v i = 0xFFFF ↔ Emitter.chunk v i = 0xFFFF := by
  rw [chunk_eq]
  constructor
  · intro h
    exact u32_inj h
  · intro h
    rw [h]
    rfl

theorem nonzero_eq (v : Word) : (fun i => chunk v i != 0) = fun i => Emitter.chunk v i != 0 := by
  funext i
  rw [Bool.eq_iff_iff, bne_iff_ne, bne_iff_ne, Ne, Ne, chunk_eq_zero]

theorem nzCount_eq (v : Word) : nzCount v = Emitter.nzCount v := by
  rw [nzCount, Emitter.nzCount, nonzero_eq]

theorem firstChunk_eq (v : Word) : firstChunk v = Emitter.firstChunk v := by
  rw [firstChunk, Emitter.firstChunk, nonzero_eq]

theorem u32_ofNat {m n : Nat} (hm : m ≤ 32) (h : n < 2 ^ m) : u32 (BitVec.ofNat m n) = BitVec.ofNat 32 n :=
  BitVec.setWidth_ofNat_of_le_of_lt hm h

section

variable (rd : Reg) (v : Word) {i j : Nat} (hi : i < 4)
include hi

theorem decodeAll_movz : decodeAll (movz (u32 rd) (chunk v j) (BitVec.ofNat 32 i * 16))
    = some (Emitter.movz rd.toNat (Emitter.chunk v j) (i * 16)) := by
  have hword := (Call.movz rd (Emitter.chunk v j) (BitVec.ofNat 2 i)).decodeAll_words
  rwa [Call.words, Call.code, ← chunk_eq, u32_ofNat (by decide) hi, BitVec.toNat_ofNat, Nat.mod_eq_of_lt hi] at hword

theorem decodeAll_movk : decodeAll (movk (u32 rd) (chunk v j) (BitVec.ofNat 32 i * 16))
    = some (Emitter.movk rd.toNat (Emitter.chunk v j) (i * 16)) := by
  have hword := (Call.movk rd (Emitter.chunk v j) (BitVec.ofNat 2 i)).decodeAll_words
  rwa [Call.words, Call.code, ← chunk_eq, u32_ofNat (by decide) hi, BitVec.toNat_ofNat, Nat.mod_eq_of_lt hi] at hword

theorem decodeAll_movn : decodeAll (movn (u32 rd) (chunk v j) (BitVec.ofNat 32 i * 16))
    = some (Emitter.movn rd.toNat (Emitter.chunk v j) (i * 16)) := by
  have hword := (Call.movn rd (Emitter.chunk v j) (BitVec.ofNat 2 i)).decodeAll_words
  rwa [Call.words, Call.code, ← chunk_eq, u32_ofNat (by decide) hi, BitVec.toNat_ofNat, Nat.mod_eq_of_lt hi] at hword

end

/-- The MOVZ loop, by induction on the chunk indices that are left. -/
theorem decodeAll_movzLoop (rd : Reg) (imm : Word) {is : List Nat} (his : ∀ i ∈ is, i < 4) (first : Bool) :
    decodeAll (movzLoop (u32 rd) imm is first) = some (Emitter.movzLoop rd.toNat imm is first) := by
  induction is generalizing first with
  | nil => rfl
  | cons i is ih =>
    have hi : i < 4 := his i List.mem_cons_self
    have hrest (first : Bool) := ih (fun k hk => his k (List.mem_cons_of_mem i hk)) first
    unfold movzLoop Emitter.movzLoop
    simp only [ne_eq, chunk_eq_zero]
    split
    · split
      · exact decodeAll_append (decodeAll_movz rd imm hi) (hrest false)
      · exact decodeAll_append (decodeAll_movk rd imm hi) (hrest false)
    · exact hrest first

/-- The MOVK of one chunk of the MOVN loop. -/
theorem decodeAll_movk_ones (rd : Reg) (imm : Word) {i : Nat} (hi : i < 4) :
    decodeAll (if chunk imm i ≠ 0xFFFF then movk (u32 rd) (chunk imm i) (BitVec.ofNat 32 i * 16) else [])
      = some (if Emitter.chunk imm i ≠ 0xFFFF then Emitter.movk rd.toNat (Emitter.chunk imm i) (i * 16)
          else []) := by
  simp only [ne_eq, chunk_eq_ones]
  split
  · exact decodeAll_movk rd imm hi
  · exact decodeAll_nil

/-- The MOVN loop, whose first pass makes the move wherever the first chunk is. -/
theorem decodeAll_movnLoop (rd : Reg) (imm : Word) {is : List Nat} (his : ∀ i ∈ is, i < 4) (first : Bool) :
    decodeAll (movnLoop (u32 rd) imm is first) = some (Emitter.movnLoop rd.toNat imm is first) := by
  induction is generalizing first with
  | nil => rfl
  | cons i is ih =>
    have hi : i < 4 := his i List.mem_cons_self
    have hrest (first : Bool) := ih (fun k hk => his k (List.mem_cons_of_mem i hk)) first
    have hmovk := decodeAll_append (decodeAll_movk_ones rd imm hi) (hrest false)
    unfold movnLoop Emitter.movnLoop
    simp only [ne_eq, chunk_eq_zero, firstChunk_eq] at hmovk ⊢
    split
    · split
      · refine decodeAll_append (decodeAll_movn rd _ (Emitter.firstChunk_lt _)) ?_
        split
        · exact hrest false
        · split
          · exact hrest false
          · exact hmovk
      · exact hmovk
    · exact hrest first

/-- **`mov_imm64` decodes** word by word. -/
theorem decodeAll_movImm64 (rd : Reg) (imm : Word) :
    decodeAll (movImm64 (u32 rd) imm) = some (Emitter.movImm64 rd.toNat imm) := by
  have hrange : ∀ i ∈ List.range 4, i < 4 := fun i hi => List.mem_range.mp hi
  unfold movImm64 Emitter.movImm64
  simp only [nzCount_eq]
  split
  · exact (Call.movz rd 0 0).decodeAll_words
  · split
    · exact decodeAll_movnLoop rd imm hrange true
    · exact decodeAll_movzLoop rd imm hrange true

/-! ## Bitmask immediates -/

section

variable (rd rn tmp : Reg) (value : Word)

theorem decodeAll_andBitmask : decodeAll (andBitmask (u32 rd) (u32 rn) value (u32 tmp))
    = some (Emitter.andBitmask rd.toNat rn.toNat value tmp.toNat) := by
  unfold andBitmask Emitter.andBitmask
  cases henc : Emitter.encodeBitmaskImm value with
  | none => exact decodeAll_append (decodeAll_movImm64 tmp value) (Call.andReg rd rn tmp).decodeAll_words
  | some fields =>
    obtain ⟨n, immr, imms⟩ := fields
    obtain ⟨hn, himmr, himms, _⟩ := Emitter.decode_of_encode henc
    have hword := (Call.andImm rd rn (BitVec.ofNat 1 n) (BitVec.ofNat 6 immr)
      (BitVec.ofNat 6 imms)).decodeAll_words
    simpa [Call.words, Call.code, Emitter.andImm, u32_ofNat, hn, himmr, himms, Nat.mod_eq_of_lt hn,
      Nat.mod_eq_of_lt himmr, Nat.mod_eq_of_lt himms] using hword

theorem decodeAll_tstBitmask : decodeAll (tstBitmask (u32 rn) value (u32 tmp))
    = some (Emitter.tstBitmask rn.toNat value tmp.toNat) := by
  unfold tstBitmask Emitter.tstBitmask
  cases henc : Emitter.encodeBitmaskImm value with
  | none => exact decodeAll_append (decodeAll_movImm64 tmp value) (Call.tstReg rn tmp).decodeAll_words
  | some fields =>
    obtain ⟨n, immr, imms⟩ := fields
    obtain ⟨hn, himmr, himms, _⟩ := Emitter.decode_of_encode henc
    have hword := (Call.tstImm rn (BitVec.ofNat 1 n) (BitVec.ofNat 6 immr)
      (BitVec.ofNat 6 imms)).decodeAll_words
    simpa [Call.words, Call.code, Emitter.tstImm, u32_ofNat, hn, himmr, himms, Nat.mod_eq_of_lt hn,
      Nat.mod_eq_of_lt himmr, Nat.mod_eq_of_lt himms] using hword

end

/-- **The encoders are exact.** Every word decodes to one instruction, whose step on any machine is what the method
    is named after, with the operands that were passed; the methods that push several words decode word by
    word to the instructions of the decoded encoder. -/
theorem encoders_exact :
    (∀ c : Call, ∃ i : Inst, c.code = [i] ∧ decodeAll c.words = some [i] ∧
      ∀ (fp : FpOps) (pre post : Code) (s : State),
        step fp (pre ++ i :: post) pre.length s = c.outcome fp s pre.length) ∧
    (∀ (rd : Reg) (imm : Word),
      decodeAll (movImm64 (u32 rd) imm) = some (Emitter.movImm64 rd.toNat imm)) ∧
    (∀ (rd rn tmp : Reg) (value : Word), decodeAll (andBitmask (u32 rd) (u32 rn) value (u32 tmp))
      = some (Emitter.andBitmask rd.toNat rn.toNat value tmp.toNat)) ∧
    ∀ (rn tmp : Reg) (value : Word), decodeAll (tstBitmask (u32 rn) value (u32 tmp))
      = some (Emitter.tstBitmask rn.toNat value tmp.toNat) := by
  refine ⟨?_, decodeAll_movImm64, decodeAll_andBitmask, decodeAll_tstBitmask⟩
  intro c
  obtain ⟨w, hw⟩ := c.exists_word
  have hcode := c.row_inst hw
  refine ⟨c.row.inst w, hcode, hcode ▸ c.decodeAll_words, ?_⟩
  intro fp pre post s
  refine c.step_code hcode ?_
  simp

end Words
end RandomX
end MinerTim
