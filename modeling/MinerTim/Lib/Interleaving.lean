import Mathlib.Tactic

/-!
# `Lib.Interleaving` — threads that each run a list of actions

Generic support. `Interleaves threads order` says that `order` is one of the ways in which a scheduler
can execute the lists in `threads`, each in its own order. Whatever the scheduler does, `order` is a
permutation of all the actions (`Interleaves.perm`). Where the actions are writes to distinct slots, the
outcome is therefore the same for every schedule (`applyWrites_getElem?`).
-/

namespace MinerTim

variable {α : Type}

/-- An interleaving of several lists. -/
inductive Interleaves : List (List α) → List α → Prop where
  | done {threads : List (List α)} : (∀ t ∈ threads, t = []) → Interleaves threads []
  | step {before after : List (List α)} {a : α} {rest order : List α} :
      Interleaves (before ++ rest :: after) order →
      Interleaves (before ++ (a :: rest) :: after) (a :: order)

/-- **A schedule runs every action of every thread exactly once.** -/
theorem Interleaves.perm {threads : List (List α)} {order : List α}
    (h : Interleaves threads order) : order.Perm threads.flatten := by
  induction h with
  | done hempty => rw [List.flatten_eq_nil_iff.mpr hempty]
  | @step before after a rest order _ ih =>
    rw [List.flatten_append, List.flatten_cons] at ih ⊢
    rw [List.cons_append]
    exact (ih.cons a).trans List.perm_middle.symm

/-- Running the threads one after the other is a schedule. -/
theorem interleaves_flatten (threads : List (List α)) : Interleaves threads threads.flatten := by
  suffices ∀ before : List (List α), (∀ t ∈ before, t = []) →
      Interleaves (before ++ threads) threads.flatten from this [] (by simp)
  induction threads with
  | nil => exact fun before h => .done (by simpa using h)
  | cons t threads ih =>
    intro before h
    induction t with
    | nil =>
      have := ih (before ++ [[]]) fun t ht => by
        rcases List.mem_append.mp ht with ht | ht
        · exact h t ht
        · simpa using ht
      simpa using this
    | cons a t iht => exact .step iht

/-! ## Writes to distinct slots -/

/-- Perform writes in order. -/
def applyWrites (items : Array α) (writes : List (Nat × α)) : Array α :=
  writes.foldl (fun items w => items.setIfInBounds w.1 w.2) items

@[simp] theorem size_applyWrites (items : Array α) (writes : List (Nat × α)) :
    (applyWrites items writes).size = items.size := by
  unfold applyWrites
  induction writes generalizing items with
  | nil => rfl
  | cons w writes ih => rw [List.foldl_cons, ih, Array.size_setIfInBounds]

/-- A slot that no write names keeps its value. -/
theorem applyWrites_of_not_mem (items : Array α) {writes : List (Nat × α)} {k : Nat}
    (h : k ∉ writes.map Prod.fst) : (applyWrites items writes)[k]? = items[k]? := by
  unfold applyWrites
  induction writes generalizing items with
  | nil => rfl
  | cons w writes ih =>
    simp only [List.map_cons, List.mem_cons, not_or] at h
    rw [List.foldl_cons, ih _ h.2, Array.getElem?_setIfInBounds_ne (Ne.symm h.1)]

/-- **The order of writes to distinct slots does not matter**: each slot ends with what was written to
    it. -/
theorem applyWrites_getElem? (items : Array α) {writes : List (Nat × α)}
    (hnodup : (writes.map Prod.fst).Nodup) {k : Nat} {a : α} (hmem : (k, a) ∈ writes)
    (hk : k < items.size) : (applyWrites items writes)[k]? = some a := by
  induction writes generalizing items with
  | nil => simp at hmem
  | cons w writes ih =>
    rw [List.map_cons, List.nodup_cons] at hnodup
    have hstep : applyWrites items (w :: writes)
        = applyWrites (items.setIfInBounds w.1 w.2) writes := rfl
    rw [hstep]
    rcases List.mem_cons.mp hmem with rfl | hmem
    · rw [applyWrites_of_not_mem _ hnodup.1, Array.getElem?_setIfInBounds_self_of_lt hk]
    · exact ih _ hnodup.2 hmem (by rwa [Array.size_setIfInBounds])

end MinerTim
