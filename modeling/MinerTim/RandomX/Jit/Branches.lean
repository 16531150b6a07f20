import MinerTim.RandomX.Jit.Blocks

/-!
# `RandomX.Jit.Branches` — the code fits, and every branch lands where it should

`Intended` lists the branches of a body with their targets: a `CBRANCH` goes to the instruction after its
target, and the guard of a V2 `CFROUND` skips the mode update. `BranchesLand` says of emitted code that its
branches are exactly these (and the two of the native loop), each with a word whose signed 19-bit field
decodes to the distance. It is proved fragment by fragment (`hasBranch_append`), and by induction over the
body (`hasBranch_emittedAt`).
-/

namespace MinerTim
namespace RandomX

open Arm64 Emitter

/-! ## Branch words -/

theorem imm19Field_word {op low : BitVec 32} (hop : op.extractLsb' 5 19 = 0#19)
    (hlow : low.extractLsb' 5 19 = 0#19) (imm19 : BitVec 19) :
    imm19Field (op ||| imm19.setWidth 32 <<< 5 ||| low) = imm19 := by
  have himm : (imm19.setWidth 32 <<< 5).extractLsb' 5 19 = imm19 := by
    apply BitVec.eq_of_getLsbD_eq
    intro k hk
    simp [hk, show 5 + k < 32 by omega]
  rw [imm19Field, BitVec.extractLsb'_or, BitVec.extractLsb'_or, hop, hlow, himm, BitVec.zero_or,
    BitVec.or_zero]

theorem imm19Field_bCond (cond : BitVec 4) (imm19 : BitVec 19) :
    imm19Field (0x54000000 ||| imm19.setWidth 32 <<< 5 ||| cond.setWidth 32) = imm19 := by
  refine imm19Field_word (by decide) ?_ imm19
  apply BitVec.eq_of_getLsbD_eq
  intro k hk
  simp [BitVec.getLsbD_of_ge cond (5 + k) (by omega)]

theorem imm19Field_cbz {rt : Nat} (hrt : rt < 32) (imm19 : BitVec 19) :
    imm19Field (0xB4000000 ||| imm19.setWidth 32 <<< 5 ||| BitVec.ofNat 32 rt) = imm19 := by
  refine imm19Field_word (by decide) ?_ imm19
  interval_cases rt <;> decide

theorem toInt_ofInt19 {x : Int} (hlo : -262144 ≤ x) (hhi : x < 262144) : (BitVec.ofInt 19 x).toInt = x := by
  rw [BitVec.toInt_ofInt, Int.bmod_def]
  omega

theorem toInt_ofNat19 {x : Nat} (hhi : x < 262144) : (BitVec.ofNat 19 x).toInt = x := by
  rw [BitVec.toInt_ofNat', Int.bmod_def]
  omega

/-! ## The branches of a fragment -/

/-- There is a branch with an immediate at word `p` of the fragment. -/
def HasBranch (is : Code) (p : Nat) (i : Inst) : Prop := is[p]? = some i ∧ branchWord i ≠ none

variable {X D : Nat → Prop} {is js : Code} {i : Inst} {n p : Nat}

theorem hasBranch_append : HasBranch (is ++ js) p i ↔
    HasBranch is p i ∨ ∃ q, p = is.length + q ∧ HasBranch js q i := by
  unfold HasBranch
  rcases Nat.lt_or_ge p is.length with h | h
  · rw [List.getElem?_append_left h]
    constructor
    · exact .inl
    · rintro (h' | ⟨q, rfl, _⟩)
      · exact h'
      · omega
  · rw [List.getElem?_append_right h]
    constructor
    · exact fun h' => .inr ⟨p - is.length, by omega, h'⟩
    · rintro (⟨h', _⟩ | ⟨q, rfl, h'⟩)
      · have := (List.getElem?_eq_some_iff.mp h').1
        omega
      · rwa [Nat.add_sub_cancel_left]

theorem branchWord_of_straight (h : i.isBranch = false) : branchWord i = none := by
  cases i <;> first | rfl | cases h

/-- A fragment with no branch. -/
theorem not_hasBranch (h : ∀ i ∈ is, branchWord i = none) : ¬ HasBranch is p i :=
  fun ⟨hp, hi⟩ => hi (h i (List.mem_of_getElem? hp))

theorem Fits.not_hasBranch (h : Fits X D is n) : ¬ HasBranch is p i :=
  RandomX.not_hasBranch fun i hi => branchWord_of_straight (h.straight i hi)

theorem hasBranch_single (h : branchWord i ≠ none) {j : Inst} : HasBranch [i] p j ↔ p = 0 ∧ j = i := by
  unfold HasBranch
  cases p with
  | zero =>
    simp only [List.getElem?_cons_zero, Option.some.injEq, true_and]
    constructor
    · exact fun h' => h'.1.symm
    · rintro rfl
      exact ⟨rfl, h⟩
  | succ p => simp

theorem hasBranch_bCond (cond : BitVec 4) (imm19 : BitVec 19) :
    HasBranch [.bCond cond imm19] p i ↔ p = 0 ∧ i = .bCond cond imm19 :=
  hasBranch_single (by simp [branchWord])

theorem hasBranch_cbz (rt : Nat) (imm19 : BitVec 19) :
    HasBranch [.cbz rt imm19] p i ↔ p = 0 ∧ i = .cbz rt imm19 :=
  hasBranch_single (by simp [branchWord])

/-- The word of the branch decodes to a jump from `p` to `target`. -/
def Lands (i : Inst) (p : Nat) (target : Int) : Prop :=
  ∃ word, branchWord i = some word ∧ (p : Int) + (imm19Field word).toInt = target

theorem lands_bCond (cond : BitVec 4) (imm19 : BitVec 19) (p : Nat) (target : Int) :
    Lands (.bCond cond imm19) p target ↔ (p : Int) + imm19.toInt = target := by
  simp only [Lands, branchWord, Option.some.injEq, exists_eq_left', imm19Field_bCond]

theorem lands_cbz {rt : Nat} (hrt : rt < 32) (imm19 : BitVec 19) (p : Nat) (target : Int) :
    Lands (.cbz rt imm19) p target ↔ (p : Int) + imm19.toInt = target := by
  simp only [Lands, branchWord, Option.some.injEq, exists_eq_left', imm19Field_cbz hrt]

/-- The code has a branch at word `p` whose word decodes to a jump to `target`. -/
def LandsAt (code : Code) (p : Nat) (target : Int) : Prop := ∃ i, code[p]? = some i ∧ Lands i p target

theorem landsAt_iff {code : Code} {target : Int} :
    LandsAt code p target ↔ ∃ i, HasBranch code p i ∧ Lands i p target := by
  constructor
  · rintro ⟨i, hi, word, hword, h⟩
    exact ⟨i, ⟨hi, by rw [hword]; exact Option.some_ne_none word⟩, word, hword, h⟩
  · rintro ⟨i, ⟨hi, _⟩, h⟩
    exact ⟨i, hi, h⟩

/-! ## The body -/

section

variable (prog : Nat → BytecodeInstruction) (count : Nat) (version : RxVersion) (e : Code)

/-- Where the branches of a body are meant to go. -/
inductive Intended : Nat → Int → Prop where
  | cbranch {i j : Nat} : i < count → (prog i).itype = .Cbranch → (prog i).target + 1 = j →
      Intended (offsetOf prog count version e i + (emitCbranchTest (prog i)).length)
        (offsetOf prog count version e j)
  | cfround {i : Nat} : i < count → (prog i).itype = .Cfround → version = .V2 →
      Intended (offsetOf prog count version e i + (emitGuard (prog i)).length)
        (offsetOf prog count version e (i + 1))

/-- The branch of the block of instruction `i`. -/
abbrev blockBranch (i : Nat) : Option (Nat × Inst) :=
  branchOf (offsetOf prog count version e i) (prog i) (offsetsAt prog count version e i) count version

variable (hwf : ∀ i < count, (prog i).WellFormed i)
include hwf

theorem hasBranch_blockAt {k : Nat} (hk : k < count) (q : Nat) (i : Inst) :
    HasBranch (blockAt prog count version e k) q i ↔ blockBranch prog count version e k = some (q, i) := by
  rw [← branch_emitInstruction (hwf k hk)]
  refine and_congr_right fun hq => ?_
  constructor
  · intro h
    by_contra hi
    exact h (branchWord_of_straight (by simpa using hi))
  · intro hi
    have hb := (branch_emitInstruction (hwf k hk) _ _ _ q i).mp ⟨hq, hi⟩
    unfold branchOf at hb
    split at hb
    · obtain ⟨_, rfl⟩ := Prod.mk.inj (Option.some.inj hb)
      exact Option.some_ne_none _
    · obtain ⟨_, rfl⟩ := Prod.mk.inj (Option.some.inj hb)
      exact Option.some_ne_none _
    · cases hb

/-- **The branches of a body** are those before it and one in each block that has one. -/
theorem hasBranch_emittedAt {k : Nat} (hk : k ≤ count) (p : Nat) (i : Inst) :
    HasBranch (emittedAt prog count version e k).2 p i ↔ HasBranch e p i ∨
      ∃ j < k, ∃ q, p = offsetOf prog count version e j + q ∧
        blockBranch prog count version e j = some (q, i) := by
  induction k with
  | zero => simp [emittedAt]
  | succ k ih =>
    rw [emittedAt_succ, hasBranch_append, ih (by omega)]
    simp only [hasBranch_blockAt prog count version e hwf (show k < count by omega)]
    constructor
    · rintro ((h | ⟨j, hj, h⟩) | h)
      · exact .inl h
      · exact .inr ⟨j, by omega, h⟩
      · exact .inr ⟨k, by omega, h⟩
    · rintro (h | ⟨j, hj, h⟩)
      · exact .inl (.inl h)
      · by_cases hjk : j = k
        · subst hjk
          exact .inr h
        · exact .inl (.inr ⟨j, by omega, h⟩)

/-- The words before the end of the body fit a branch field. -/
theorem offsetOf_lt (hcount : count ≤ RANDOMX_PROGRAM_SIZE_MAX) (he : e.length ≤ 1024) {i : Nat}
    (hi : i ≤ count) : offsetOf prog count version e i < 16384 := by
  have h := offsetOf_le prog count version e hwf hi
  have hmax : RANDOMX_PROGRAM_SIZE_MAX = 384 := rfl
  have hwords : INSTRUCTION_WORDS = 38 := rfl
  rw [hwords] at h
  omega

/-- **Every branch of a block lands where it should.** -/
theorem lands_blockBranch (hcount : count ≤ RANDOMX_PROGRAM_SIZE_MAX) (he : e.length ≤ 1024) (p : Nat)
    (target : Int) :
    (∃ j < count, ∃ q i, p = offsetOf prog count version e j + q ∧
        blockBranch prog count version e j = some (q, i) ∧ Lands i p target) ↔
      Intended prog count version e p target := by
  have hlt : ∀ i ≤ count, offsetOf prog count version e i < 16384 := fun i hi =>
    offsetOf_lt prog count version e hwf hcount he hi
  -- CBRANCH jumps back to the block after its target
  have hcbranch : ∀ j < count, (prog j).itype = .Cbranch → ∃ j' : Nat, (prog j).target + 1 = j' ∧
      ∃ q i, blockBranch prog count version e j = some (q, i) ∧ q = (emitCbranchTest (prog j)).length ∧
        ∀ target, Lands i (offsetOf prog count version e j + q) target ↔
          target = offsetOf prog count version e j' := by
    intro j hj hb
    obtain ⟨j', hj', htarget, _, hlook⟩ := cbranchTarget_eq prog count version e hwf hj hcount hb
      (offsetOf prog count version e j + (emitCbranchTest (prog j)).length)
    have hlen := (fits_emitCbranchTest ((hwf j hj).cbranch hb).1).length_le
    have ho := hlt j (by omega)
    have ho' := hlt j' (by omega)
    refine ⟨j', htarget, _, _, branchOf_cbranch hb, rfl, ?_⟩
    intro target
    rw [lands_bCond, hlook, toInt_ofInt19 (by omega) (by omega)]
    omega
  -- CFROUND of V2 skips the mode setter, to the next block
  have hcfround : ∀ j < count, (prog j).itype = .Cfround → version = .V2 →
      ∃ q i, blockBranch prog count version e j = some (q, i) ∧ q = (emitGuard (prog j)).length ∧
        ∀ target, Lands i (offsetOf prog count version e j + q) target ↔
          target = offsetOf prog count version e (j + 1) := by
    intro j hj hc hv
    subst hv
    have hlen := fits_emitSetMode.length_le
    have hblock : (blockAt prog count .V2 e j).length
        = (emitGuard (prog j)).length + (emitSetMode.length + 1) := by
      unfold blockAt emitInstruction
      rw [hc]
      dsimp only
      rw [emitCfround_V2, List.length_append, List.length_cons]
    refine ⟨_, _, branchOf_cfround hc, rfl, ?_⟩
    intro target
    rw [lands_bCond, toInt_ofNat19 (by omega), offsetOf_succ, hblock]
    omega
  constructor
  · rintro ⟨j, hj, q, i, rfl, hbranch, hlands⟩
    by_cases hb : (prog j).itype = .Cbranch
    · obtain ⟨j', hj', q', i', hbranch', rfl, hiff⟩ := hcbranch j hj hb
      obtain ⟨rfl, rfl⟩ := Prod.mk.inj (Option.some.inj (hbranch.symm.trans hbranch'))
      rw [(hiff target).mp hlands]
      exact .cbranch hj hb hj'
    · by_cases hc : (prog j).itype = .Cfround ∧ version = .V2
      · obtain ⟨q', i', hbranch', rfl, hiff⟩ := hcfround j hj hc.1 hc.2
        obtain ⟨rfl, rfl⟩ := Prod.mk.inj (Option.some.inj (hbranch.symm.trans hbranch'))
        rw [(hiff target).mp hlands]
        exact .cfround hj hc.1 hc.2
      · -- no other block has a branch
        unfold blockBranch branchOf at hbranch
        split at hbranch
        next h => exact absurd h hb
        next h => exact absurd ⟨h, rfl⟩ hc
        next => cases hbranch
  · rintro (⟨hj, hb, hj'⟩ | ⟨hj, hc, hv⟩)
    · obtain ⟨j'', hj'', q, i, hbranch, rfl, hiff⟩ := hcbranch _ hj hb
      refine ⟨_, hj, _, i, rfl, hbranch, (hiff _).mpr ?_⟩
      rw [show j'' = _ from Int.ofNat_inj.mp (hj''.symm.trans hj')]
    · obtain ⟨q, i, hbranch, rfl, hiff⟩ := hcfround _ hj hc hv
      exact ⟨_, hj, _, i, rfl, hbranch, (hiff _).mpr rfl⟩

end

/-! ## Whole programs -/

theorem noBranch_epilogues : (∀ i ∈ emitEpilogue, branchWord i = none) ∧
    ∀ i ∈ emitLoopEpilogue, branchWord i = none := by
  decide

section

variable (prog : Nat → BytecodeInstruction) (count : Nat) (hwf : ∀ i < count, (prog i).WellFormed i)
  (hcount : count ≤ RANDOMX_PROGRAM_SIZE_MAX)
include hwf hcount

/-- **The branches of a body function.** -/
theorem landsAt_bodyCode (version : RxVersion) (p : Nat) (target : Int) :
    LandsAt (bodyCode prog count version) p target ↔ Intended prog count version emitPrologue p target := by
  have hbefore : ∀ i ∈ emitPrologue, branchWord i = none := by decide
  rw [landsAt_iff, ← lands_blockBranch prog count version emitPrologue hwf hcount (by decide)]
  simp only [bodyCode, hasBranch_append, hasBranch_emittedAt prog count version emitPrologue hwf le_rfl]
  constructor
  · rintro ⟨i, (h | ⟨j, hj, q, hq, hb⟩) | ⟨_, _, h⟩, hlands⟩
    · exact absurd h (not_hasBranch hbefore)
    · exact ⟨j, hj, q, i, hq, hb, hlands⟩
    · exact absurd h (not_hasBranch noBranch_epilogues.1)
  · rintro ⟨j, hj, q, i, hq, hb, hlands⟩
    exact ⟨i, .inl (.inr ⟨j, hj, q, hq, hb⟩), hlands⟩

variable (config : ProgramConfiguration) (initMa initMx : BitVec 32) (datasetOffset : Word)

/-- Where the two branches of the native loop are meant to go. -/
inductive IntendedLoop : Nat → Int → Prop where
  | guard : IntendedLoop (loopGuard config initMa initMx datasetOffset)
      (loopEnd prog count config initMa initMx datasetOffset)
  | back : IntendedLoop (loopEnd prog count config initMa initMx datasetOffset - 1)
      (loopGuard config initMa initMx datasetOffset + 1 : Nat)

omit hwf hcount in
theorem length_loopBefore_le (skip : Nat) :
    (loopBefore config initMa initMx datasetOffset skip).length ≤ 265 := by
  have hpro := (fits_emitLoopPrologue config initMa initMx datasetOffset).length_le
  have hpre := (fits_emitIterationPre config).length_le
  rw [loopBefore, List.length_append, List.length_append, List.length_singleton]
  omega

omit hwf hcount in
/-- The end of the loop, in the patched code. -/
theorem loopEnd_eq : loopEnd prog count config initMa initMx datasetOffset
    = (emittedAt prog count .V1 (loopBefore config initMa initMx datasetOffset
        (loopSkip prog count config initMa initMx datasetOffset)) count).2.length
      + (emitIterationPost config).length + 2 := by
  rw [loopEnd, ← offsetOf_congr prog count .V1 (loopBefore config initMa initMx datasetOffset 0)
    (show (loopBefore config initMa initMx datasetOffset
      (loopSkip prog count config initMa initMx datasetOffset)).length = _ by simp [loopBefore])]
  rfl

theorem loopEnd_lt : loopGuard config initMa initMx datasetOffset + 2
      ≤ loopEnd prog count config initMa initMx datasetOffset ∧
    loopEnd prog count config initMa initMx datasetOffset < 16000 := by
  have hlen := length_loopBefore_le config initMa initMx datasetOffset 0
  have hpost := (fits_emitIterationPost config).length_le
  have hle := offsetOf_le prog count .V1 (loopBefore config initMa initMx datasetOffset 0) hwf le_rfl
  have hmono := offsetOf_mono prog count .V1 (loopBefore config initMa initMx datasetOffset 0)
    (Nat.zero_le count)
  have hmax : RANDOMX_PROGRAM_SIZE_MAX = 384 := rfl
  have hwords : INSTRUCTION_WORDS = 38 := rfl
  have hguard : loopGuard config initMa initMx datasetOffset
      ≤ (loopBefore config initMa initMx datasetOffset 0).length := by
    rw [loopBefore, List.length_append, List.length_append, loopGuard]
    omega
  rw [offsetOf_zero] at hmono
  rw [hwords] at hle
  unfold loopEnd
  omega

omit hwf hcount in
theorem hasBranch_loopBefore (skip p : Nat) (i : Inst) :
    HasBranch (loopBefore config initMa initMx datasetOffset skip) p i ↔
      p = loopGuard config initMa initMx datasetOffset ∧ i = .cbz 28 (BitVec.ofNat 19 skip) := by
  simp only [loopBefore, hasBranch_append, (fits_emitLoopPrologue _ _ _ _).not_hasBranch,
    (fits_emitIterationPre _).not_hasBranch, and_false, exists_false, or_false, false_or]
  simp only [hasBranch_cbz, loopGuard]
  constructor
  · rintro ⟨q, rfl, rfl, rfl⟩
    exact ⟨rfl, rfl⟩
  · rintro ⟨rfl, rfl⟩
    exact ⟨0, rfl, rfl, rfl⟩

/-- The back-branch of the loop. -/
abbrev backBranch : Inst :=
  .bCond COND_NE (BitVec.ofInt 19 ((loopGuard config initMa initMx datasetOffset + 1 : Nat)
    - (loopEnd prog count config initMa initMx datasetOffset - 1 : Nat)))

omit hwf hcount in
theorem hasBranch_loopAfter (p : Nat) (i : Inst) :
    HasBranch (loopAfter prog count config initMa initMx datasetOffset) p i ↔
      p = (emitIterationPost config).length + 1 ∧
        i = backBranch prog count config initMa initMx datasetOffset := by
  have hsubs : ∀ i ∈ subsImm 28 28 1, branchWord i = none := by decide
  simp only [loopAfter, bCond, hasBranch_append, (fits_emitIterationPost _).not_hasBranch,
    not_hasBranch hsubs, hasBranch_bCond, and_false, exists_false, or_false, false_or]
  rw [List.length_append, subsImm, List.length_singleton]
  constructor
  · rintro ⟨q, rfl, rfl, rfl⟩
    exact ⟨rfl, rfl⟩
  · rintro ⟨rfl, rfl⟩
    exact ⟨0, rfl, rfl, rfl⟩

omit hwf hcount in
theorem hasBranch_loopCode (p : Nat) (i : Inst) :
    HasBranch (loopCode prog count config initMa initMx datasetOffset) p i ↔
      HasBranch (emittedAt prog count .V1 (loopBefore config initMa initMx datasetOffset
        (loopSkip prog count config initMa initMx datasetOffset)) count).2 p i ∨
      p = loopEnd prog count config initMa initMx datasetOffset - 1 ∧
        i = backBranch prog count config initMa initMx datasetOffset := by
  simp only [loopCode, loopBody, hasBranch_append, hasBranch_loopAfter,
    not_hasBranch noBranch_epilogues.2, and_false, exists_false, or_false]
  refine or_congr_right ?_
  have hend := loopEnd_eq prog count config initMa initMx datasetOffset
  constructor
  · rintro ⟨q, rfl, rfl, rfl⟩
    exact ⟨by omega, rfl⟩
  · rintro ⟨rfl, rfl⟩
    exact ⟨_, by omega, rfl, rfl⟩

omit hwf hcount in
theorem length_loopBody : (loopBody prog count config initMa initMx datasetOffset).length
    = loopEnd prog count config initMa initMx datasetOffset := by
  rw [loopEnd_eq]
  simp only [loopBody, loopAfter, List.length_append, subsImm, bCond, List.length_singleton]
  omega

/-- **The branches of a native loop.** -/
theorem landsAt_loopCode (p : Nat) (target : Int) :
    LandsAt (loopCode prog count config initMa initMx datasetOffset) p target ↔
      Intended prog count .V1 (loopBefore config initMa initMx datasetOffset
        (loopSkip prog count config initMa initMx datasetOffset)) p target ∨
      IntendedLoop prog count config initMa initMx datasetOffset p target := by
  have hlen := length_loopBefore_le config initMa initMx datasetOffset
    (loopSkip prog count config initMa initMx datasetOffset)
  obtain ⟨hlo, hhi⟩ := loopEnd_lt prog count hwf hcount config initMa initMx datasetOffset
  have hskip : loopSkip prog count config initMa initMx datasetOffset
      = loopEnd prog count config initMa initMx datasetOffset
        - loopGuard config initMa initMx datasetOffset := rfl
  rw [landsAt_iff, ← lands_blockBranch prog count .V1 _ hwf hcount (by omega)]
  simp only [hasBranch_loopCode, hasBranch_emittedAt prog count .V1 _ hwf le_rfl, hasBranch_loopBefore]
  -- the branches of the code: the guard, those of the body, and the one back
  constructor
  · rintro ⟨i, (⟨rfl, rfl⟩ | ⟨j, hj, q, hq, hb⟩) | ⟨rfl, rfl⟩, hlands⟩
    · right
      rw [lands_cbz (by decide), toInt_ofNat19 (by omega)] at hlands
      rw [← hlands, show ((loopGuard config initMa initMx datasetOffset : Nat) : Int)
        + (loopSkip prog count config initMa initMx datasetOffset : Nat)
          = (loopEnd prog count config initMa initMx datasetOffset : Nat) by omega]
      exact .guard
    · exact .inl ⟨j, hj, q, i, hq, hb, hlands⟩
    · right
      rw [lands_bCond, toInt_ofInt19 (by omega) (by omega)] at hlands
      rw [← hlands, show ∀ a b : Int, a + (b - a) = b by intro a b; omega]
      exact .back
  · rintro (⟨j, hj, q, i, hq, hb, hlands⟩ | _ | _)
    · exact ⟨i, .inl (.inr ⟨j, hj, q, hq, hb⟩), hlands⟩
    · refine ⟨_, .inl (.inl ⟨rfl, rfl⟩), ?_⟩
      rw [lands_cbz (by decide), toInt_ofNat19 (by omega)]
      omega
    · refine ⟨_, .inr ⟨rfl, rfl⟩, ?_⟩
      rw [lands_bCond, toInt_ofInt19 (by omega) (by omega)]
      omega

end

/-- **What is claimed of emitted code**: it fits the buffer; the code of each instruction stands at its offset;
    a `CBRANCH` looks up a recorded offset, of an instruction at or before it and so inside the body; and the
    branches are exactly the intended ones, each with a word that decodes to its distance. -/
structure WellPlaced (prog : Nat → BytecodeInstruction) (count : Nat) (version : RxVersion) (before : Code)
    (intended : Nat → Int → Prop) (code : Code) : Prop where
  fits : code.length * 4 ≤ JIT_CODE_SIZE
  blocks : ∀ i < count,
    Embeds code (offsetOf prog count version before i) (blockAt prog count version before i)
  lookup : ∀ i < count, (prog i).itype = .Cbranch → ∃ j ≤ i, (prog i).target + 1 = (j : Int) ∧
    (offsetsAt prog count version before i)[j]? = some (offsetOf prog count version before j) ∧
    before.length ≤ offsetOf prog count version before j ∧
    ∀ current, cbranchTarget (prog i) (offsetsAt prog count version before i) count current
      = offsetOf prog count version before j
  branches : ∀ p target, LandsAt code p target ↔
    Intended prog count version before p target ∨ intended p target

theorem lookup_of_wellFormed {prog : Nat → BytecodeInstruction} {count : Nat}
    (hwf : ∀ i < count, (prog i).WellFormed i) (hcount : count ≤ RANDOMX_PROGRAM_SIZE_MAX)
    (version : RxVersion) (before : Code) {i : Nat} (hi : i < count) (hb : (prog i).itype = .Cbranch) :
    ∃ j ≤ i, (prog i).target + 1 = (j : Int) ∧
      (offsetsAt prog count version before i)[j]? = some (offsetOf prog count version before j) ∧
      before.length ≤ offsetOf prog count version before j ∧
      ∀ current, cbranchTarget (prog i) (offsetsAt prog count version before i) count current
        = offsetOf prog count version before j := by
  obtain ⟨j, hj, htarget, hget, _⟩ := cbranchTarget_eq prog count version before hwf hi hcount hb 0
  refine ⟨j, hj, htarget, hget, ?_, ?_⟩
  · rw [← offsetOf_zero prog count version before]
    exact offsetOf_mono prog count version before (Nat.zero_le j)
  · intro current
    obtain ⟨j', _, htarget', _, hlook⟩ := cbranchTarget_eq prog count version before hwf hi hcount hb current
    rw [hlook, show j' = j by omega]

section

variable {m : Nat} (programBytes : Vector Byte m) (buf : BytecodeBuffer) (jit : JitCompiler)

theorem wellFormed_compiled (version : RxVersion) :
    ∀ i < version.programSize, (bytecodeAt programBytes i).WellFormed i := by
  have hmax := version.programSize_le_max
  have hsize : RANDOMX_PROGRAM_SIZE_MAX = 384 := rfl
  exact fun i hi => bytecodeAt_wellFormed programBytes (by omega)

/-- **`compile` succeeds on every program**, and its code is well placed. -/
theorem wellPlaced_compile (version : RxVersion) :
    jit.compile (compiled programBytes buf version.programSize) version
        = some { memory := bodyCode (bytecodeAt programBytes) version.programSize version,
                 kind := some .Body } ∧
      WellPlaced (bytecodeAt programBytes) version.programSize version emitPrologue (fun _ _ => False)
        (bodyCode (bytecodeAt programBytes) version.programSize version) := by
  have hmax : RANDOMX_PROGRAM_SIZE_MAX = 384 := rfl
  have hwords : INSTRUCTION_WORDS = 38 := rfl
  have hsize : JIT_CODE_SIZE = 65536 := rfl
  have hprologue : emitPrologue.length = 48 := by decide
  have hepilogue : emitEpilogue.length = 35 := by decide
  have hcount := version.programSize_le_max
  have hwf := wellFormed_compiled programBytes version
  have hlen := offsetOf_le (bytecodeAt programBytes) version.programSize version emitPrologue hwf le_rfl
  have hfits : (bodyCode (bytecodeAt programBytes) version.programSize version).length * 4
      ≤ JIT_CODE_SIZE := by
    rw [bodyCode, List.length_append, ← offsetOf, hepilogue]
    rw [hwords, hprologue] at hlen
    omega
  refine ⟨?_, hfits, ?_, ?_, ?_⟩
  · rw [compiled_eq programBytes buf hcount, compile_eq _ _ jit version hcount, writeCode, if_pos hfits]
    rfl
  · exact fun i hi => embeds_blockAt _ _ version _ hi _
  · exact fun i hi hb => lookup_of_wellFormed hwf hcount version _ hi hb
  · intro p target
    rw [or_false]
    exact landsAt_bodyCode _ _ hwf hcount version p target

variable (config : ProgramConfiguration) (initMa initMx : BitVec 32) (datasetOffset : Word)

/-- **`compile_native_loop` succeeds on every program that it accepts**, and its code is well placed. -/
theorem wellPlaced_compileNativeLoop (hoffset : datasetOffset.toNat ≤ DATASET_EXTRA_ITEMS * 64) :
    let prog := bytecodeAt programBytes
    let count := RxVersion.V1.programSize
    let code := loopCode prog count config initMa initMx datasetOffset
    jit.compileNativeLoop (compiled programBytes buf count) .V1 config initMa initMx datasetOffset
        = some { memory := code, kind := some .NativeLoop } ∧
      WellPlaced prog count .V1
        (loopBefore config initMa initMx datasetOffset
          (loopSkip prog count config initMa initMx datasetOffset))
        (IntendedLoop prog count config initMa initMx datasetOffset) code ∧
      Embeds code (loopGuard config initMa initMx datasetOffset + 1) (emitIterationPre config) ∧
      Embeds code (loopEnd prog count config initMa initMx datasetOffset) emitLoopEpilogue := by
  intro prog count code
  have hsize : JIT_CODE_SIZE = 65536 := rfl
  have hepilogue : emitLoopEpilogue.length = 39 := by decide
  have hcount : count ≤ RANDOMX_PROGRAM_SIZE_MAX := RxVersion.V1.programSize_le_max
  have hwf := wellFormed_compiled programBytes .V1
  have hend := loopEnd_lt prog count hwf hcount config initMa initMx datasetOffset
  have hbody := length_loopBody prog count config initMa initMx datasetOffset
  -- only the prefix up to the body depends on the loop; the blocks lie in it as in a program alone
  have hassoc : code = _ := List.append_assoc _ _ _
  have hfits : code.length * 4 ≤ JIT_CODE_SIZE := by
    rw [show code = loopCode prog count config initMa initMx datasetOffset from rfl, loopCode,
      List.length_append, hbody, hepilogue]
    omega
  refine ⟨?_, ⟨hfits, ?_, ?_, ?_⟩, ?_, ?_⟩
  · rw [compiled_eq programBytes buf hcount,
      compileNativeLoop_eq prog count config initMa initMx datasetOffset jit hcount hoffset, writeCode,
      if_pos hfits]
    rfl
  · intro i hi
    rw [hassoc]
    exact embeds_blockAt prog count .V1 _ hi _
  · exact fun i hi hb => lookup_of_wellFormed hwf hcount .V1 _ hi hb
  · exact fun p target => landsAt_loopCode prog count hwf hcount config initMa initMx datasetOffset p target
  · rw [hassoc]
    have hpre := Embeds.right (embeds_before prog count .V1 (loopBefore config initMa initMx datasetOffset
      (loopSkip prog count config initMa initMx datasetOffset))
      (loopAfter prog count config initMa initMx datasetOffset ++ emitLoopEpilogue))
    rwa [Nat.zero_add, List.length_append, List.length_singleton, ← loopGuard] at hpre
  · have hepi := embeds_append (loopBody prog count config initMa initMx datasetOffset) emitLoopEpilogue []
    rwa [List.append_nil, hbody] at hepi

/-- **Emitted code fits its buffer, and every branch lands where it is meant to go**, for every program and
    both kinds of code. -/
theorem jit_code_well_placed :
    (∀ version : RxVersion, ∃ code,
      jit.compile (compiled programBytes buf version.programSize) version
        = some { memory := code, kind := some .Body } ∧
      WellPlaced (bytecodeAt programBytes) version.programSize version emitPrologue (fun _ _ => False) code) ∧
    (∀ (config : ProgramConfiguration) (initMa initMx : BitVec 32) (datasetOffset : Word),
      datasetOffset.toNat ≤ DATASET_EXTRA_ITEMS * 64 → ∃ code,
      jit.compileNativeLoop (compiled programBytes buf RxVersion.V1.programSize) .V1 config initMa initMx
        datasetOffset = some { memory := code, kind := some .NativeLoop } ∧
      WellPlaced (bytecodeAt programBytes) RxVersion.V1.programSize .V1
        (loopBefore config initMa initMx datasetOffset
          (loopSkip (bytecodeAt programBytes) RxVersion.V1.programSize config initMa initMx datasetOffset))
        (IntendedLoop (bytecodeAt programBytes) RxVersion.V1.programSize config initMa initMx datasetOffset)
        code ∧
      Embeds code (loopGuard config initMa initMx datasetOffset + 1) (emitIterationPre config) ∧
      Embeds code
        (loopEnd (bytecodeAt programBytes) RxVersion.V1.programSize config initMa initMx datasetOffset)
        emitLoopEpilogue) := by
  refine ⟨?_, ?_⟩
  · exact fun version => ⟨_, wellPlaced_compile programBytes buf jit version⟩
  · intro config initMa initMx datasetOffset hoffset
    exact ⟨_, wellPlaced_compileNativeLoop programBytes buf jit config initMa initMx datasetOffset hoffset⟩

end

end RandomX
end MinerTim
