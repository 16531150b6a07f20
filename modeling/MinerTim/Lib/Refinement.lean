import Mathlib.Data.List.Forall2
import Mathlib.Logic.Relation

/-!
# `Lib.Refinement` — partial functions that compute relations

A relation says what a computation is for, a partial function how it is done. The function computes the relation,
through an abstraction of its arguments and one of its results, when the relation leads from what an argument
stands for to what the result stands for, and nowhere else (`Realizes`). The rules follow the structure of the
function: a total step, one step after another, and a step repeated (`Times`).
-/

namespace MinerTim
namespace Refinement

/-- `n` steps of a relation. -/
def Times {α : Type} (R : α → α → Prop) : (n : Nat) → α → α → Prop
  | 0 => Eq
  | n + 1 => Relation.Comp R (Times R n)

/-- `n` steps of a partial function. -/
def steps {α : Type} (f : α → Option α) : (n : Nat) → α → Option α
  | 0 => some
  | n + 1 => fun a => (f a).bind (steps f n)

variable {α β γ α' β' γ' : Type} {π : α → α'} {ρ : β → β'} {σ : γ → γ'}

/-- `f` computes `R`: from what an argument stands for, `R` leads to what the result stands for. -/
def Realizes (π : α → α') (ρ : β → β') (f : α → Option β) (R : α' → β' → Prop) : Prop :=
  ∀ a b', (f a).map ρ = some b' ↔ R (π a) b'

/-- What is related to an argument is what a result stands for. -/
theorem Realizes.exists_eq {f : α → Option β} {R : α' → β' → Prop} (h : Realizes π ρ f R) {a : α} {b' : β'}
    (hR : R (π a) b') : ∃ b, f a = some b ∧ ρ b = b' :=
  Option.map_eq_some_iff.mp ((h a b').mpr hR)

/-- What a result stands for is related to its argument. -/
theorem Realizes.rel {f : α → Option β} {R : α' → β' → Prop} (h : Realizes π ρ f R) {a : α} {b : β}
    (hf : f a = some b) : R (π a) (ρ b) := by
  apply (h a (ρ b)).mp
  rw [hf, Option.map_some]

/-- A function computes a relation when its results are related and the relation leads nowhere else. -/
theorem Realizes.intro {f : α → Option β} {R : α' → β' → Prop} (hf : ∀ a b, f a = some b → R (π a) (ρ b))
    (hR : ∀ a b', R (π a) b' → ∃ b, f a = some b ∧ ρ b = b') : Realizes π ρ f R := by
  intro a b'
  constructor
  · intro h
    obtain ⟨b, hb, rfl⟩ := Option.map_eq_some_iff.mp h
    exact hf a b hb
  · intro h
    exact Option.map_eq_some_iff.mpr (hR a b' h)

/-- **One step after another.** -/
theorem Realizes.bind {f : α → Option β} {g : β → Option γ} {R : α' → β' → Prop} {S : β' → γ' → Prop}
    (hf : Realizes π ρ f R) (hg : Realizes ρ σ g S) :
    Realizes π σ (fun a => (f a).bind g) (Relation.Comp R S) := by
  apply Realizes.intro
  · intro a c h
    obtain ⟨b, hb, hc⟩ := Option.bind_eq_some_iff.mp h
    exact ⟨ρ b, hf.rel hb, hg.rel hc⟩
  · rintro a c' ⟨b', hR, hS⟩
    obtain ⟨b, hb, rfl⟩ := hf.exists_eq hR
    obtain ⟨c, hc, rfl⟩ := hg.exists_eq hS
    exact ⟨c, Option.bind_eq_some_iff.mpr ⟨b, hb, hc⟩, rfl⟩

/-- **A step, repeated**, by induction on the number of steps. -/
theorem Realizes.times {f : α → Option α} {R : α' → α' → Prop} (h : Realizes π π f R) (n : Nat) :
    Realizes π π (steps f n) (Times R n) := by
  induction n with
  | zero =>
    intro a b'
    rw [steps, Times, Option.map_some, Option.some.injEq]
  | succ n ih => exact h.bind ih

/-- **A list of arguments**: every result is related to its argument, in order. -/
theorem mapM_eq_some_iff {f : α → Option β} {R : α → β → Prop} (h : ∀ a b, f a = some b ↔ R a b) (as : List α)
    (bs : List β) : as.mapM f = some bs ↔ List.Forall₂ R as bs := by
  induction as generalizing bs with
  | nil =>
    rw [List.mapM_nil, List.forall₂_nil_left_iff]
    exact ⟨fun hbs => (Option.some.inj hbs).symm, fun hbs => congrArg some hbs.symm⟩
  | cons a as ih =>
    rw [List.mapM_cons, List.forall₂_cons_left_iff]
    constructor
    · intro hbs
      obtain ⟨b, hb, hrest⟩ := Option.bind_eq_some_iff.mp hbs
      obtain ⟨bs', hbs', heq⟩ := Option.bind_eq_some_iff.mp hrest
      exact ⟨b, bs', (h a b).mp hb, (ih bs').mp hbs', (Option.some.inj heq).symm⟩
    · rintro ⟨b, bs', hb, hbs', rfl⟩
      rw [(h a b).mpr hb, (ih bs').mpr hbs']
      rfl

end Refinement
end MinerTim
