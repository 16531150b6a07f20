import Mathlib.Data.List.Basic

/-!
# `Lib.Lockstep` — partial computations that run in lockstep

Two computations run in lockstep when both fail or both return, with related results (`Option.Rel`). The rules
follow the structure of a computation: sequencing, a pure step, a fold, and one computation after another along a
chain of relations.
-/

namespace MinerTim
namespace Lockstep

variable {α α' β β' γ δ : Type} {R : α → β → Prop} {x : Option α} {y : Option β}

theorem refl {r : α → α → Prop} (h : ∀ a, r a a) (x : Option α) : Option.Rel r x x := by
  cases x with
  | none => exact .none
  | some a => exact .some (h a)

theorem of_eq {r : α → α → Prop} {x y : Option α} (h : ∀ a, r a a) (heq : x = y) : Option.Rel r x y :=
  heq ▸ refl h x

/-- A function that does not see the difference. -/
theorem map_eq (h : Option.Rel R x y) {f : α → γ} {g : β → γ} (hfg : ∀ a b, R a b → f a = g b) :
    x.map f = y.map g := by
  cases h with
  | none => rfl
  | some hab => exact congrArg some (hfg _ _ hab)

/-- **One step after another.** -/
theorem bind {S : γ → δ → Prop} (h : Option.Rel R x y) {f : α → Option γ} {g : β → Option δ}
    (hfg : ∀ a b, R a b → Option.Rel S (f a) (g b)) : Option.Rel S (x.bind f) (y.bind g) := by
  cases h with
  | none => exact .none
  | some hab => exact hfg _ _ hab

theorem map {S : γ → δ → Prop} (h : Option.Rel R x y) {f : α → γ} {g : β → δ}
    (hfg : ∀ a b, R a b → S (f a) (g b)) : Option.Rel S (x.map f) (y.map g) := by
  cases h with
  | none => exact .none
  | some hab => exact .some (hfg _ _ hab)

/-- **A fold**, when every step keeps the relation. -/
theorem foldlM {f : α → γ → Option α} {g : β → γ → Option β}
    (hfg : ∀ a b c, R a b → Option.Rel R (f a c) (g b c)) (l : List γ) {a : α} {b : β} (h : R a b) :
    Option.Rel R (l.foldlM f a) (l.foldlM g b) := by
  induction l generalizing a b with
  | nil => exact .some h
  | cons c l ih =>
    rw [List.foldlM_cons, List.foldlM_cons]
    exact bind (hfg a b c h) fun a' b' h' => ih h'

/-- **Along a chain of relations.** -/
theorem trans {S : β → γ → Prop} {T : α → γ → Prop} {z : Option γ} (h : Option.Rel R x y)
    (h' : Option.Rel S y z) (htrans : ∀ a b c, R a b → S b c → T a c) : Option.Rel T x z := by
  cases h with
  | none =>
    cases h' with
    | none => exact .none
  | some hab =>
    cases h' with
    | some hbc => exact .some (htrans _ _ _ hab hbc)

end Lockstep
end MinerTim
