import Mathlib.Order.Basic
import Mathlib.Data.List.Range

/-!
# `Lib.Yields` — computations that may fail

A program that may fail is a function into `Option`. `Yields ok P x` says in one predicate what such a program
does: its result, if there is one, satisfies `P`; and if `ok`, there is one. With `ok := False` that is partial
correctness, with `ok := True` total correctness, and a condition in between is what the absence of failure
depends on. The rules follow the constructs of a program: `bind`, a branch, a loop.
-/

namespace MinerTim

/-- **A result satisfies `P`, and there is one if `ok`.** -/
def Yields {α : Type} (ok : Prop) (P : α → Prop) : Option α → Prop
  | none => ¬ ok
  | some a => P a

namespace Yields

variable {α β : Type} {ok : Prop} {P : α → Prop} {Q : β → Prop} {x : Option α} {a : α}

theorem iff : Yields ok P x ↔ (∀ a, x = some a → P a) ∧ (ok → ∃ a, x = some a) := by
  cases x with
  | none => exact ⟨fun h => ⟨nofun, fun hok => absurd hok h⟩, fun h hok => nomatch h.2 hok⟩
  | some a =>
    refine ⟨fun h => ⟨?_, fun _ => ⟨a, rfl⟩⟩, fun h => h.1 a rfl⟩
    rintro _ ⟨⟩
    exact h

/-- A result is what the predicate says. -/
theorem post (h : Yields ok P x) (hx : x = some a) : P a := (iff.mp h).1 a hx

/-- There is a result. -/
theorem exists_eq (h : Yields ok P x) (hok : ok) : ∃ a, x = some a ∧ P a := by
  obtain ⟨a, hx⟩ := (iff.mp h).2 hok
  exact ⟨a, hx, h.post hx⟩

theorem mono {P' : α → Prop} (h : Yields ok P x) (himp : ∀ a, P a → P' a) : Yields ok P' x := by
  cases x with
  | none => exact h
  | some a => exact himp a h

/-- **Sequencing.** -/
theorem bind {f : α → Option β} (h : Yields ok P x) (hf : ∀ a, P a → Yields ok Q (f a)) :
    Yields ok Q (x >>= f) := by
  cases x with
  | none => exact h
  | some a => exact hf a h

/-- A step whose result is known. -/
theorem bind_some {f : α → Option β} (hx : x = some a) (h : Yields ok Q (f a)) : Yields ok Q (x >>= f) := by
  subst hx
  exact h

/-- **A loop**: `Inv i` holds before step `i`. -/
theorem foldlM_range' {f : α → Nat → Option α} (Inv : Nat → α → Prop) {start n : Nat} {a : α}
    (h : Inv start a)
    (hstep : ∀ i a, start ≤ i → i < start + n → Inv i a → Yields ok (Inv (i + 1)) (f a i)) :
    Yields ok (Inv (start + n)) ((List.range' start n).foldlM f a) := by
  induction n generalizing start a with
  | zero => exact h
  | succ n ih =>
    rw [List.range'_succ, List.foldlM_cons]
    refine bind (hstep start a (by omega) (by omega) h) fun a' ha' => ?_
    rw [show start + (n + 1) = start + 1 + n by omega]
    exact ih ha' fun i a hi hin => hstep i a (by omega) (by omega)

theorem foldlM_range {f : α → Nat → Option α} (Inv : Nat → α → Prop) {n : Nat} {a : α} (h : Inv 0 a)
    (hstep : ∀ i a, i < n → Inv i a → Yields ok (Inv (i + 1)) (f a i)) :
    Yields ok (Inv n) ((List.range n).foldlM f a) := by
  rw [List.range_eq_range']
  have hrun := foldlM_range' Inv (n := n) h fun i a _ hi => hstep i a (by omega)
  rwa [Nat.zero_add] at hrun

end Yields
end MinerTim
