import Mathlib.Algebra.BigOperators.Group.Finset.Basic
import Mathlib.Data.Fintype.Basic
import Mathlib.Logic.Function.Basic
import Mathlib.Logic.Relation
import Mathlib.Tactic

/-!
# `Lib.SharedThreads` — threads around a shared state

Generic support. A `System` says what thread `i` can do to the shared state and to its own, in one access, and what
the outside can do to the shared state. `Step` lets any of them go next, so a run is any interleaving.

Three rules read a property of all interleavings off the single accesses:

* `Protocol` — an invariant of the shared state with one of each thread. A thread keeps both, and the invariants of the
  other threads are stable under what it does (rely and guarantee);
* `Balance` — what was earned is what is booked in the shared state and what the threads still carry;
* `Winding` — accesses that lower a rank of their thread are bounded, however they are scheduled.
-/

namespace MinerTim
namespace SharedThreads

variable {ι γ τ : Type}

/-- The accesses of a thread, and those of the outside. -/
structure System (ι γ τ : Type) where
  act : ι → γ → τ → γ → τ → Prop
  outside : γ → γ → Prop

/-- The shared part, and the state of every thread. -/
structure State (ι γ τ : Type) where
  shared : γ
  threads : ι → τ

variable [DecidableEq ι]

/-- One access, of a thread or of the outside. -/
inductive Step (sys : System ι γ τ) : State ι γ τ → State ι γ τ → Prop where
  | act {s : State ι γ τ} (i : ι) {g' : γ} {t' : τ} : sys.act i s.shared (s.threads i) g' t' →
      Step sys s ⟨g', Function.update s.threads i t'⟩
  | outside {s : State ι γ τ} {g' : γ} : sys.outside s.shared g' → Step sys s ⟨g', s.threads⟩

/-- Any number of accesses, in any order. -/
abbrev Runs (sys : System ι γ τ) : State ι γ τ → State ι γ τ → Prop := Relation.ReflTransGen (Step sys)

variable {sys : System ι γ τ} {s s' : State ι γ τ}

/-- A thread that goes on while the others rest. -/
theorem runs_solo (i : ι) {c : γ × τ}
    (h : Relation.ReflTransGen (fun a b => sys.act i a.1 a.2 b.1 b.2) (s.shared, s.threads i) c) :
    Runs sys s ⟨c.1, Function.update s.threads i c.2⟩ := by
  induction h with
  | refl => rw [Function.update_eq_self]
  | @tail b c _ hact ih =>
    have hstep : Step sys ⟨b.1, Function.update s.threads i b.2⟩
        ⟨c.1, Function.update (Function.update s.threads i b.2) i c.2⟩ :=
      .act i (by simpa using hact)
    rw [Function.update_idem] at hstep
    exact ih.tail hstep

/-! ## Invariants -/

/-- `G` is kept by every access, `L i` by those of thread `i`, and those of the others do not break it. -/
structure Protocol (sys : System ι γ τ) (G : γ → Prop) (L : ι → γ → τ → Prop) : Prop where
  own : ∀ {i g t g' t'}, G g → L i g t → sys.act i g t g' t' → G g' ∧ L i g' t'
  others : ∀ {i j g t g' t' u}, j ≠ i → G g → L i g t → sys.act i g t g' t' → L j g u → L j g' u
  outside : ∀ {g g'}, G g → sys.outside g g' → G g' ∧ ∀ i t, L i g t → L i g' t

variable {G : γ → Prop} {L : ι → γ → τ → Prop}

theorem Protocol.step (h : Protocol sys G L) (hG : G s.shared) (hL : ∀ i, L i s.shared (s.threads i))
    (hstep : Step sys s s') : G s'.shared ∧ ∀ i, L i s'.shared (s'.threads i) := by
  cases hstep with
  | act i hact =>
    obtain ⟨hG', hown⟩ := h.own hG (hL i) hact
    refine ⟨hG', ?_⟩
    intro j
    by_cases hj : j = i
    · subst hj
      simpa using hown
    · simpa [Function.update_of_ne hj] using h.others hj hG (hL i) hact (hL j)
  | outside hout =>
    obtain ⟨hG', hL'⟩ := h.outside hG hout
    exact ⟨hG', fun i => hL' i _ (hL i)⟩

/-- **What a protocol keeps**, it keeps in every interleaving. -/
theorem Protocol.runs (h : Protocol sys G L) (hG : G s.shared) (hL : ∀ i, L i s.shared (s.threads i))
    (hruns : Runs sys s s') : G s'.shared ∧ ∀ i, L i s'.shared (s'.threads i) := by
  induction hruns with
  | refl => exact ⟨hG, hL⟩
  | tail _ hstep ih => exact h.step ih.1 ih.2 hstep

/-! ## Balances -/

section

variable {A : Type} [AddCommMonoid A]

/-- An access earns `d`, which it books or takes on. -/
structure Balance (sys : System ι γ τ) (earned booked : γ → A) (carried : τ → A) : Prop where
  act : ∀ {i g t g' t'}, sys.act i g t g' t' →
    ∃ d, earned g' = earned g + d ∧ booked g' + carried t' = booked g + carried t + d
  outside : ∀ {g g'}, sys.outside g g' → earned g' = earned g ∧ booked g' = booked g

variable [Fintype ι] {earned booked : γ → A} {carried : τ → A}

/-- A sum over the threads, of which one has moved. -/
theorem sum_update (w : τ → A) (threads : ι → τ) (i : ι) (t' : τ) :
    ∑ j, w (Function.update threads i t' j) = w t' + ∑ j ∈ Finset.univ.erase i, w (threads j) := by
  rw [← Finset.add_sum_erase _ _ (Finset.mem_univ i), Function.update_self]
  congr 1
  refine Finset.sum_congr rfl fun j hj => ?_
  rw [Function.update_of_ne (Finset.ne_of_mem_erase hj)]

theorem Balance.step (h : Balance sys earned booked carried)
    (heq : earned s.shared = booked s.shared + ∑ i, carried (s.threads i)) (hstep : Step sys s s') :
    earned s'.shared = booked s'.shared + ∑ i, carried (s'.threads i) := by
  cases hstep with
  | @act i g' t' hact =>
    obtain ⟨d, hearned, hbooked⟩ := h.act hact
    rw [← Finset.add_sum_erase _ _ (Finset.mem_univ i)] at heq
    show earned g' = booked g' + ∑ j, carried (Function.update s.threads i t' j)
    -- the other threads carry what they did
    rw [sum_update, hearned, heq, ← add_assoc (booked g'), hbooked]
    abel
  | outside hout =>
    obtain ⟨hearned, hbooked⟩ := h.outside hout
    rw [hearned, hbooked]
    exact heq

/-- **A balance holds in every interleaving.** -/
theorem Balance.runs (h : Balance sys earned booked carried)
    (heq : earned s.shared = booked s.shared + ∑ i, carried (s.threads i)) (hruns : Runs sys s s') :
    earned s'.shared = booked s'.shared + ∑ i, carried (s'.threads i) := by
  induction hruns with
  | refl => exact heq
  | tail _ hstep ih => exact h.step ih hstep

end

/-! ## Winding down -/

/-- A run with the number of accesses that threads made in it. -/
inductive RunsIn (sys : System ι γ τ) : Nat → State ι γ τ → State ι γ τ → Prop where
  | refl {s : State ι γ τ} : RunsIn sys 0 s s
  | act {n : Nat} {s s' : State ι γ τ} (i : ι) {g' : γ} {t' : τ} : RunsIn sys n s s' →
      sys.act i s'.shared (s'.threads i) g' t' →
      RunsIn sys (n + 1) s ⟨g', Function.update s'.threads i t'⟩
  | outside {n : Nat} {s s' : State ι γ τ} {g' : γ} : RunsIn sys n s s' → sys.outside s'.shared g' →
      RunsIn sys n s ⟨g', s'.threads⟩

theorem RunsIn.runs {n : Nat} (h : RunsIn sys n s s') : Runs sys s s' := by
  induction h with
  | refl => exact .refl
  | act i _ hact ih => exact ih.tail (.act i hact)
  | outside _ hout ih => exact ih.tail (.outside hout)

/-- While `P` holds of the shared state, each access lowers the rank of its thread, and `P` stays. -/
structure Winding (sys : System ι γ τ) (P : γ → Prop) (rank : τ → Nat) : Prop where
  act : ∀ {i g t g' t'}, P g → sys.act i g t g' t' → P g' ∧ rank t' < rank t
  outside : ∀ {g g'}, P g → sys.outside g g' → P g'

variable {P : γ → Prop} {rank : τ → Nat} [Fintype ι]

/-- **Winding down is bounded**: the threads make no more accesses than their ranks add up to. -/
theorem Winding.bounded (h : Winding sys P rank) {n : Nat} (hP : P s.shared) (hruns : RunsIn sys n s s') :
    P s'.shared ∧ n + ∑ i, rank (s'.threads i) ≤ ∑ i, rank (s.threads i) := by
  induction hruns with
  | refl => exact ⟨hP, by simp⟩
  | @act n s s' i g' t' _ hact ih =>
    obtain ⟨hP', hle⟩ := ih hP
    obtain ⟨hP'', hlt⟩ := h.act hP' hact
    refine ⟨hP'', ?_⟩
    rw [← Finset.add_sum_erase _ _ (Finset.mem_univ i)] at hle
    rw [sum_update]
    omega
  | outside _ hout ih =>
    obtain ⟨hP', hle⟩ := ih hP
    exact ⟨h.outside hP' hout, hle⟩

end SharedThreads
end MinerTim
