import Mathlib.Logic.Function.Basic
import MinerTim.Lib.Arm64.Decode
import MinerTim.Lib.Arm64.Exec

/-!
# `Lib.Arm64.Fetch` — instructions that are fetched from memory

`step` takes its instruction from a list. A machine fetches a word, and not always from memory: each core has an
instruction cache of its own, which loads and drops words when it likes and sees no store (`CodeMemory.Ages`). Only an
invalidation makes a core look again.

A word is `Coherent` when no cache holds another value for it. What is coherent is fetched as it is in memory
(`Coherent.fetched_eq`), and stays so while it is not stored to.

A machine that fetches word `pc` of a decodable list of words takes the step of `step` (`step_eq_issue`).
-/

namespace MinerTim
namespace Arm64

/-! ## Memory behind caches -/

/-- Words at addresses `α`, and what the cores `κ` hold of them. -/
structure CodeMemory (κ α ω : Type) where
  word : α → ω
  cached : κ → α → Option ω

namespace CodeMemory

variable {κ α ω : Type} {m m' : CodeMemory κ α ω} {a b : α}

/-- What a core fetches. -/
def fetched (m : CodeMemory κ α ω) (core : κ) (a : α) : ω := (m.cached core a).getD (m.word a)

/-- No cache holds another value. -/
def Coherent (m : CodeMemory κ α ω) (a : α) : Prop := ∀ core w, m.cached core a = some w → w = m.word a

variable [DecidableEq κ] [DecidableEq α]

/-- A store goes to memory only. -/
def store (m : CodeMemory κ α ω) (a : α) (w : ω) : CodeMemory κ α ω := { m with word := Function.update m.word a w }

/-- An invalidation reaches every core. -/
def invalidate (m : CodeMemory κ α ω) (a : α) : CodeMemory κ α ω :=
  { m with cached := fun core => Function.update (m.cached core) a none }

/-- What a cache does by itself. -/
inductive Ages (m : CodeMemory κ α ω) : CodeMemory κ α ω → Prop where
  | fill (core : κ) (a : α) :
      Ages m { m with cached := Function.update m.cached core (Function.update (m.cached core) a (some (m.word a))) }
  | evict (core : κ) (a : α) :
      Ages m { m with cached := Function.update m.cached core (Function.update (m.cached core) a none) }

omit [DecidableEq κ] [DecidableEq α] in
theorem Coherent.fetched_eq (h : m.Coherent a) (core : κ) : m.fetched core a = m.word a := by
  unfold fetched
  cases hcached : m.cached core a with
  | none => rfl
  | some w => exact h core w hcached

omit [DecidableEq κ] in
theorem coherent_invalidate (m : CodeMemory κ α ω) (a : α) : (m.invalidate a).Coherent a := by
  intro core w hw
  simp [invalidate] at hw

omit [DecidableEq κ] in
theorem Coherent.invalidate (h : m.Coherent b) : (m.invalidate a).Coherent b := by
  intro core w hw
  by_cases hb : b = a
  · subst hb
    exact coherent_invalidate m b core w hw
  · apply h core
    simpa [CodeMemory.invalidate, Function.update_of_ne hb] using hw

omit [DecidableEq κ] in
theorem word_store_of_ne (h : b ≠ a) (m : CodeMemory κ α ω) (w : ω) : (m.store a w).word b = m.word b := by
  simp [store, Function.update_of_ne h]

omit [DecidableEq κ] in
theorem Coherent.store (h : m.Coherent b) (hb : b ≠ a) (w : ω) : (m.store a w).Coherent b := by
  intro core v hv
  rw [word_store_of_ne hb]
  exact h core v hv

theorem Ages.word_eq (h : m.Ages m') : m'.word = m.word := by
  cases h <;> rfl

/-- **A cache that loads what is in memory** stays coherent. -/
theorem Coherent.ages (h : m.Coherent b) (hages : m.Ages m') : m'.Coherent b := by
  intro core w hw
  rw [hages.word_eq]
  cases hages with
  | fill c a =>
    by_cases hc : core = c
    · subst hc
      by_cases hb : b = a
      · subst hb
        simp only [Function.update_self, Option.some.injEq] at hw
        exact hw.symm
      · simp only [Function.update_self, Function.update_of_ne hb] at hw
        exact h core w hw
    · simp only [Function.update_of_ne hc] at hw
      exact h core w hw
  | evict c a =>
    by_cases hc : core = c
    · subst hc
      by_cases hb : b = a
      · subst hb
        simp at hw
      · simp only [Function.update_self, Function.update_of_ne hb] at hw
        exact h core w hw
    · simp only [Function.update_of_ne hc] at hw
      exact h core w hw

end CodeMemory

/-! ## Steps of fetched instructions -/

variable {fp : FpOps} {code : Code} {pc pc₀ k n : Nat} {s s₀ : State} {i : Inst} {ws : List (BitVec 32)}

/-- What an instruction does at word offset `pc`, wherever it was fetched from. -/
def issue (fp : FpOps) (i : Inst) (pc : Nat) (s : State) : Outcome := step fp (List.replicate (pc + 1) i) pc s

theorem step_eq_issue (h : code[pc]? = some i) : step fp code pc s = issue fp i pc s := by
  have hself : (List.replicate (pc + 1) i)[pc]? = some i := by simp
  unfold issue step
  rw [h, hself]

theorem step_of_none (h : code[pc]? = none) : step fp code pc s = .stuck := by
  unfold step
  rw [h]

/-- One step more. -/
theorem run_succ (h : run fp code n pc₀ s₀ = .running pc s) : run fp code (n + 1) pc₀ s₀ = step fp code pc s := by
  induction n generalizing pc₀ s₀ with
  | zero =>
    obtain ⟨rfl, rfl⟩ := Outcome.running.inj h
    rw [run]
    cases step fp code pc₀ s₀ <;> rfl
  | succ n ih =>
    rw [run] at h ⊢
    cases hstep : step fp code pc₀ s₀ with
    | running pc₁ s₁ =>
      rw [hstep] at h
      exact ih h
    | returned s₁ =>
      rw [hstep] at h
      cases h
    | stuck =>
      rw [hstep] at h
      cases h

/-- A run that has ended stays where it is. -/
theorem run_add {o : Outcome} (h : run fp code n pc₀ s₀ = o) (hend : ∀ pc s, o ≠ .running pc s) (m : Nat) :
    run fp code (n + m) pc₀ s₀ = o := by
  induction n generalizing pc₀ s₀ with
  | zero => exact absurd h.symm (hend pc₀ s₀)
  | succ n ih =>
    rw [Nat.succ_add]
    rw [run] at h ⊢
    cases hstep : step fp code pc₀ s₀ with
    | running pc₁ s₁ =>
      rw [hstep] at h
      exact ih h
    | returned s₁ =>
      rw [hstep] at h
      exact h
    | stuck =>
      rw [hstep] at h
      exact h

/-- **A call that returns** ends nowhere else. -/
theorem Returns.end_eq {W : Word → Prop} {s' : State} {o : Outcome} (h : Returns fp code W pc s s')
    (ho : run fp code n pc s = o) (hend : ∀ pc s, o ≠ .running pc s) : o = .returned s' := by
  obtain ⟨⟨m, hm⟩, -⟩ := h
  have hlate := hm (n + m) (Nat.le_add_left m n)
  rwa [run_add ho hend m] at hlate

/-- The instruction of each word. -/
theorem getElem?_decodeAll (h : decodeAll ws = some code) (k : Nat) : code[k]? = ws[k]?.bind decode := by
  induction ws generalizing code k with
  | nil =>
    obtain rfl := Option.some.inj h
    rfl
  | cons w ws ih =>
    rw [decodeAll, List.mapM_cons] at h
    simp only [Option.bind_eq_bind, Option.bind_eq_some_iff, Option.pure_def, Option.some.injEq] at h
    obtain ⟨i, hi, is, his, rfl⟩ := h
    cases k with
    | zero => simp [hi]
    | succ k =>
      rw [List.getElem?_cons_succ, List.getElem?_cons_succ]
      exact ih his k

end Arm64
end MinerTim
