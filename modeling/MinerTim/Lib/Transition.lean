import Mathlib.Tactic

/-!
# `Lib.Transition` — reachable states of a labelled step function

Generic support. A system is a partial step function on states, labelled with an action: the action
carries every choice that the system does not make itself. An invariant of the start that each step
preserves holds of every reachable state (`Reachable.invariant`), and a list of actions that runs
exhibits a reachable state (`Reachable.of_runs`). A condition on the steps of a run is `Along`; what holds
of the runs that meet it is proved the same way (`runs_invariant`).
-/

namespace MinerTim
namespace Transition

variable {σ α : Type}

/-- The states reached from `start` by steps. -/
inductive Reachable (step : σ → α → Option σ) (start : σ) : σ → Prop where
  | refl : Reachable step start start
  | tail {s s' : σ} {a : α} : Reachable step start s → step s a = some s' → Reachable step start s'

variable {step : σ → α → Option σ} {start s s' : σ}

/-- The induction over a run, packaged: an invariant of the start that every step preserves. -/
theorem Reachable.invariant {P : σ → Prop} (h : Reachable step start s) (hstart : P start)
    (hstep : ∀ s a s', P s → step s a = some s' → P s') : P s := by
  induction h with
  | refl => exact hstart
  | tail _ hs ih => exact hstep _ _ _ ih hs

/-- The state after a list of actions. -/
def runs (step : σ → α → Option σ) (s : σ) : List α → Option σ
  | [] => some s
  | a :: as => (step s a).bind fun s' => runs step s' as

theorem Reachable.of_runs {as : List α} (hs : Reachable step start s)
    (h : runs step s as = some s') : Reachable step start s' := by
  induction as generalizing s with
  | nil =>
    obtain rfl := Option.some.inj h
    exact hs
  | cons a as ih =>
    obtain ⟨s₁, hstep, hrest⟩ := Option.bind_eq_some_iff.mp h
    exact ih (hs.tail hstep) hrest

/-- A run of two parts. -/
theorem runs_append {as bs : List α} :
    runs step s (as ++ bs) = (runs step s as).bind fun s' => runs step s' bs := by
  induction as generalizing s with
  | nil => rfl
  | cons a as ih =>
    show (step s a).bind _ = ((step s a).bind _).bind _
    rw [Option.bind_assoc]
    exact congrArg _ (funext fun s₁ => ih)

/-! ## Runs whose steps meet a condition -/

/-- `P` holds at each step of a run, of the state before the step and of its action. -/
def Along (step : σ → α → Option σ) (P : σ → α → Prop) (s : σ) : List α → Prop
  | [] => True
  | a :: as => P s a ∧ ∀ s', step s a = some s' → Along step P s' as

/-- A condition that does not depend on the state. -/
theorem along_of_forall {P : σ → α → Prop} {as : List α} (h : ∀ a ∈ as, ∀ s, P s a) :
    Along step P s as := by
  induction as generalizing s with
  | nil => trivial
  | cons a as ih =>
    refine ⟨h a List.mem_cons_self s, fun s' _ => ih ?_⟩
    exact fun b hb => h b (List.mem_cons_of_mem a hb)

theorem along_append {P : σ → α → Prop} {as bs : List α} (h : runs step s as = some s') :
    Along step P s (as ++ bs) ↔ Along step P s as ∧ Along step P s' bs := by
  induction as generalizing s with
  | nil =>
    obtain rfl := Option.some.inj h
    exact ⟨fun h => ⟨trivial, h⟩, And.right⟩
  | cons a as ih =>
    obtain ⟨s₁, hfirst, hrest⟩ := Option.bind_eq_some_iff.mp h
    have hnext : ∀ s₂, step s a = some s₂ → s₂ = s₁ :=
      fun s₂ h₂ => Option.some.inj (h₂.symm.trans hfirst)
    constructor
    · rintro ⟨hp, hlater⟩
      obtain ⟨has, hbs⟩ := (ih hrest).mp (hlater s₁ hfirst)
      refine ⟨⟨hp, fun s₂ h₂ => ?_⟩, hbs⟩
      rw [hnext s₂ h₂]
      exact has
    · rintro ⟨⟨hp, hlater⟩, hbs⟩
      refine ⟨hp, fun s₂ h₂ => ?_⟩
      rw [hnext s₂ h₂]
      exact (ih hrest).mpr ⟨hlater s₁ hfirst, hbs⟩

/-- An invariant that the steps of a run preserve when they meet a condition. -/
theorem runs_invariant {P : σ → α → Prop} {Q : σ → Prop} {as : List α}
    (h : runs step s as = some s') (halong : Along step P s as) (hs : Q s)
    (hstep : ∀ s a s', Q s → P s a → step s a = some s' → Q s') : Q s' := by
  induction as generalizing s with
  | nil =>
    obtain rfl := Option.some.inj h
    exact hs
  | cons a as ih =>
    obtain ⟨s₁, hfirst, hrest⟩ := Option.bind_eq_some_iff.mp h
    exact ih hrest (halong.2 s₁ hfirst) (hstep s a s₁ hs halong.1 hfirst)

end Transition
end MinerTim
