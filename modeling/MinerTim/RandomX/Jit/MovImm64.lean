import MinerTim.RandomX.Jit.WordsSpec

/-!
# `RandomX.Jit.MovImm64` — any immediate in at most four words

Both loops of `mov_imm64` make one wide move, which clears or sets the whole register, and then insert chunks
with `MOVK`. What the register held before is therefore gone after the first word, and a loop over four chunks
pushes at most four words.
-/

namespace MinerTim
namespace RandomX
namespace Words

open Arm64

/-! ## The shape of the code -/

/-- At most `n` insertions into a register. -/
def Inserts (rd n : Nat) (code : Code) : Prop :=
  code.length ≤ n ∧ ∀ i ∈ code, ∃ (c : BitVec 16) (hw : BitVec 2), i = .movk rd c hw

/-- A move of the whole register, and at most `n` insertions after it. -/
def MovesWhole (rd n : Nat) (code : Code) : Prop :=
  ∃ i is, code = i :: is ∧ (∃ (c : BitVec 16) (hw : BitVec 2), i = .movz rd c hw ∨ i = .movn rd c hw) ∧
    Inserts rd n is

variable {rd n : Nat} {code : Code}

theorem inserts_nil : Inserts rd n [] := by
  refine ⟨Nat.zero_le n, ?_⟩
  intro i hi
  exact absurd hi List.not_mem_nil

theorem Inserts.mono {m : Nat} (h : Inserts rd n code) (hle : n ≤ m) : Inserts rd m code :=
  ⟨h.1.trans hle, h.2⟩

theorem Inserts.movk (h : Inserts rd n code) (c : BitVec 16) (shift : Nat) :
    Inserts rd (n + 1) (Emitter.movk rd c shift ++ code) := by
  refine ⟨Nat.succ_le_succ h.1, ?_⟩
  intro i hi
  rcases List.mem_cons.mp hi with rfl | hi
  · exact ⟨c, _, rfl⟩
  · exact h.2 i hi

theorem Inserts.movz (h : Inserts rd n code) (c : BitVec 16) (shift : Nat) :
    MovesWhole rd n (Emitter.movz rd c shift ++ code) :=
  ⟨_, code, rfl, ⟨c, _, .inl rfl⟩, h⟩

theorem Inserts.movn (h : Inserts rd n code) (c : BitVec 16) (shift : Nat) :
    MovesWhole rd n (Emitter.movn rd c shift ++ code) :=
  ⟨_, code, rfl, ⟨c, _, .inr rfl⟩, h⟩

/-- After its move, a loop inserts at most one chunk a pass. -/
theorem inserts_insertions (imm : Word) (p : Nat → Prop) [DecidablePred p] (is : List Nat) :
    Inserts rd is.length (Emitter.insertions rd imm p is) := by
  induction is with
  | nil => exact inserts_nil
  | cons i is ih =>
    rw [Emitter.insertions_cons]
    split
    · exact ih.movk _ _
    · exact ih.mono (Nat.le_succ _)

/-- The MOVZ loop moves at the latest in the pass for chunk 3. -/
theorem movesWhole_movzLoop (imm : Word) {is : List Nat} (hlast : 3 ∈ is) :
    MovesWhole rd (is.length - 1) (Emitter.movzLoop rd imm is true) := by
  induction is with
  | nil => exact absurd hlast List.not_mem_nil
  | cons i is ih =>
    unfold Emitter.movzLoop
    split
    · rw [if_pos rfl, Emitter.movzLoop_eq]
      exact (inserts_insertions imm _ is).movz _ _
    next hskip =>
      simp only [true_and, not_or] at hskip
      obtain ⟨j, js, hcode, hmove, hinserts⟩ := ih (by simpa [Ne.symm hskip.2] using hlast)
      exact ⟨j, js, hcode, hmove, hinserts.mono (by simp)⟩

/-- **`mov_imm64` moves once**, and inserts at most three chunks. -/
theorem movesWhole_movImm64 (imm : Word) : MovesWhole rd 3 (Emitter.movImm64 rd imm) := by
  have hrange : List.range 4 = [0, 1, 2, 3] := rfl
  unfold Emitter.movImm64
  rw [hrange]
  split
  · exact @Inserts.movz rd 3 [] inserts_nil 0 0
  · split
    · rw [Emitter.movnLoop_first, Emitter.movnLoop_eq rd imm (by decide)]
      exact (inserts_insertions imm _ [1, 2, 3]).movn _ _
    · exact movesWhole_movzLoop imm (by simp)

/-! ## The register afterwards -/

/-- **`mov_imm64` loads its immediate.** The words decode to one wide move and insertions into the same register,
    between one and four in all; run anywhere in a program, they leave the immediate in the register and
    everything else as it was. -/
theorem mov_imm64_loads (rd : Reg) (hrd : rd < 31) (imm : Word) :
    ∃ code : Code, decodeAll (movImm64 (u32 rd) imm) = some code ∧
      code.length = (movImm64 (u32 rd) imm).length ∧ 1 ≤ code.length ∧ code.length ≤ 4 ∧
      MovesWhole rd.toNat 3 code ∧
      ∀ (fp : FpOps) (pre post : Code) (s : State), ∃ s' : State,
        run fp (pre ++ code ++ post) code.length pre.length s = .running (pre.length + code.length) s' ∧
          s'.x rd.toNat = imm ∧ (∀ r, r ≠ rd.toNat → s'.x r = s.x r) ∧
          s'.sp = s.sp ∧ s'.d = s.d ∧ s'.flags = s.flags ∧ s'.fpcr = s.fpcr ∧ s'.mem = s.mem := by
  have hne : rd.toNat ≠ 31 := Nat.ne_of_lt hrd
  have hdecode := decodeAll_movImm64 rd imm
  have hshape := @movesWhole_movImm64 rd.toNat imm
  refine ⟨_, hdecode, length_decodeAll hdecode, ?_, ?_, hshape, ?_⟩
  · obtain ⟨i, is, hcode, _, _⟩ := hshape
    rw [hcode]
    exact Nat.succ_pos _
  · obtain ⟨i, is, hcode, _, hlength, _⟩ := hshape
    rw [hcode]
    exact Nat.succ_le_succ hlength
  · intro fp pre post s
    have hstraight := @Emitter.straight_movImm64 fp (fun _ => False) s rd.toNat hne imm
    refine ⟨s.setX rd.toNat imm, hstraight.run (embeds_append pre _ post), State.x_setX_same hne, ?_, ?_⟩
    · intro r hr
      exact State.x_setX_of_ne hr
    · simp

/-- An immediate of four chunks, two of them all ones: two words load it. -/
theorem mov_imm64_loads_ones :
    decodeAll (movImm64 (u32 (0 : Reg)) 0xFFFF1234FFFF5678) = some [.movn 0 0xA987 0, .movk 0 0x1234 2] ∧
      ∀ (fp : FpOps) (s : State), ∃ s' : State,
        run fp [.movn 0 0xA987 0, .movk 0 0x1234 2] 2 0 s = .running 2 s' ∧ s'.x 0 = 0xFFFF1234FFFF5678 := by
  obtain ⟨code, hdecode, _, _, _, _, hrun⟩ := mov_imm64_loads 0 (by decide) 0xFFFF1234FFFF5678
  have hwords : decodeAll (movImm64 (u32 (0 : Reg)) 0xFFFF1234FFFF5678)
      = some [.movn 0 0xA987 0, .movk 0 0x1234 2] := by decide +kernel
  obtain rfl := Option.some.inj (hdecode.symm.trans hwords)
  refine ⟨hwords, ?_⟩
  intro fp s
  obtain ⟨s', hsteps, hx, _⟩ := hrun fp [] [] s
  exact ⟨s', hsteps, hx⟩

end Words
end RandomX
end MinerTim
