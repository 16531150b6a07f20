import Mathlib.Tactic

/-!
# `Lib.BackEdges` — programs whose only backward jumps close short loops

Generic support for bounding the length of a run. A `Machine` executes the instruction at an index and
continues at an index; a `Run` is labelled with the indices executed. `Loops` is the shape studied
here: execution falls through, except at *back edges*, which may instead return to an entry at or
before them, over a stretch that holds no other back edge. If moreover every back edge falls through
after at most `b` returns (`Exits`), then the whole program runs to its end and executes each index at
most `b + 1` times (`run_count_le`).

The induction is on the frontier: an index is executed again only by the first back edge after it, since
the stretches of different back edges are disjoint (`disjoint`).
-/

namespace MinerTim
namespace BackEdges

variable {σ : Type}

/-- What the instruction at an index does: the index execution continues at, and the new state. -/
abbrev Machine (σ : Type) := Nat → σ → Nat × σ

/-- A run, labelled with the indices executed. -/
inductive Run (m : Machine σ) : List Nat → Nat × σ → Nat × σ → Prop where
  | refl {c : Nat × σ} : Run m [] c c
  | head {k : Nat} {s : σ} {c : Nat × σ} {tr : List Nat} :
      Run m tr (m k s) c → Run m (k :: tr) (k, s) c

variable {m : Machine σ}

theorem Run.trans {c c' c'' : Nat × σ} {tr tr' : List Nat} (h : Run m tr c c')
    (h' : Run m tr' c' c'') : Run m (tr ++ tr') c c'' := by
  induction h with
  | refl => exact h'
  | head _ ih => exact .head (ih h')

/-! ## Straight-line stretches -/

/-- The state after the `n` instructions from index `a`, each falling through. -/
def block (m : Machine σ) (a : Nat) : Nat → σ → σ
  | 0, s => s
  | n + 1, s => block m (a + 1) n (m a s).2

theorem run_block {a n : Nat} (s : σ)
    (h : ∀ k, a ≤ k → k < a + n → ∀ s, (m k s).1 = k + 1) :
    Run m (List.range' a n) (a, s) (a + n, block m a n s) := by
  induction n generalizing a s with
  | zero => exact .refl
  | succ n ih =>
    have hstep : m a s = (a + 1, (m a s).2) := Prod.ext (h a le_rfl (by omega) s) rfl
    have hrest := ih (a := a + 1) (m a s).2 fun k hk hk' => h k (by omega) (by omega)
    rw [List.range'_succ]
    refine .head ?_
    rw [hstep, show a + (n + 1) = a + 1 + n by omega]
    exact hrest

/-- A stretch of instructions keeps what each of them keeps. -/
theorem block_keeps {P : σ → Prop} {a n : Nat} {s : σ}
    (h : ∀ k, a ≤ k → k < a + n → ∀ s, P s → P (m k s).2) (hs : P s) : P (block m a n s) := by
  induction n generalizing a s with
  | zero => exact hs
  | succ n ih =>
    exact ih (fun k hk hk' => h k (by omega) (by omega)) (h a le_rfl (by omega) s hs)

/-! ## Loops -/

/-- Up to index `len`, execution falls through except at back edges, whose stretches are
    straight-line code. -/
structure Loops (m : Machine σ) (len : Nat) (isBack : Nat → Prop) (entry : Nat → Nat) : Prop where
  forward : ∀ k < len, ¬ isBack k → ∀ s, (m k s).1 = k + 1
  back : ∀ i < len, isBack i → ∀ s, (m i s).1 = i + 1 ∨ (m i s).1 = entry i
  entry_le : ∀ i < len, isBack i → entry i ≤ i
  straight : ∀ i < len, isBack i → ∀ k, entry i ≤ k → k < i → ¬ isBack k

/-- The state at the next arrival at back edge `i`, when it returns to its entry. -/
def again (m : Machine σ) (entry : Nat → Nat) (i : Nat) (s : σ) : σ :=
  block m (entry i) (i - entry i) (m i s).2

/-- Every back edge falls through after at most `b` returns. -/
def Exits (m : Machine σ) (len : Nat) (isBack : Nat → Prop) (entry : Nat → Nat) (b : Nat) : Prop :=
  ∀ i < len, isBack i → ∀ s, ∃ q ≤ b, (m i ((again m entry i)^[q] s)).1 = i + 1

variable {len : Nat} {isBack : Nat → Prop} {entry : Nat → Nat}

/-- **The stretches of different back edges are disjoint.** -/
theorem Loops.disjoint (hl : Loops m len isBack entry) {i j : Nat} (hi : i < len) (hj : j < len)
    (hbi : isBack i) (hbj : isBack j) (hij : i ≠ j) (k : Nat) :
    ¬ ((entry i ≤ k ∧ k ≤ i) ∧ (entry j ≤ k ∧ k ≤ j)) := by
  rintro ⟨⟨hki, hki'⟩, ⟨hkj, hkj'⟩⟩
  rcases Nat.lt_or_gt_of_ne hij with h | h
  · exact hl.straight j hj hbj i (by omega) h hbi
  · exact hl.straight i hi hbi j (by omega) h hbj

/-- A back edge that falls through on its `q`-th return is passed by executing its stretch `q` times
    and itself once more. -/
theorem run_loop (hl : Loops m len isBack entry) {i : Nat} (hi : i < len) (hb : isBack i) {q : Nat}
    {s : σ} (hq : (m i ((again m entry i)^[q] s)).1 = i + 1) :
    ∃ tr s', Run m tr (i, s) (i + 1, s') ∧ tr.count i ≤ q + 1 ∧
      (∀ k < i, tr.count k ≤ q) ∧ ∀ k ∈ tr, entry i ≤ k ∧ k ≤ i := by
  have hentry := hl.entry_le i hi hb
  have hexit : ∀ s : σ, (m i s).1 = i + 1 → Run m [i] (i, s) (i + 1, (m i s).2) := fun s h =>
    .head (by rw [← h]; exact .refl)
  -- on how many more times the back edge is taken before the loop is left
  induction q generalizing s with
  | zero =>
    refine ⟨[i], (m i s).2, hexit s hq, by simp, fun k hk => ?_, by simpa using hentry⟩
    simp [Nat.ne_of_gt hk]
  | succ q ih =>
    rcases hl.back i hi hb s with h | h
    · refine ⟨[i], (m i s).2, hexit s h, by simp, fun k hk => ?_, by simpa using hentry⟩
      simp [Nat.ne_of_gt hk]
    · obtain ⟨tr, s', hrun, hci, hck, hmem⟩ := ih (s := again m entry i s)
        (by rwa [Function.iterate_succ_apply] at hq)
      -- one turn runs straight from the entry back to `i`, and executes everything between once
      have hblock : Run m (List.range' (entry i) (i - entry i)) (m i s) (i, again m entry i s) := by
        have := run_block (m := m) (a := entry i) (n := i - entry i) (m i s).2 fun k hk hk' =>
          hl.forward k (by omega) (hl.straight i hi hb k hk (by omega))
        rw [show entry i + (i - entry i) = i by omega] at this
        rw [show m i s = (entry i, (m i s).2) from Prod.ext h rfl]
        exact this
      have hcount : ∀ k, (List.range' (entry i) (i - entry i)).count k ≤ 1 := fun k =>
        List.nodup_iff_count_le_one.mp List.nodup_range' k
      have hnot : (List.range' (entry i) (i - entry i)).count i = 0 :=
        List.count_eq_zero.mpr fun h => by rw [List.mem_range'_1] at h; omega
      refine ⟨i :: (List.range' (entry i) (i - entry i) ++ tr), s', .head (hblock.trans hrun),
        ?_, fun k hk => ?_, fun k hk => ?_⟩
      · rw [List.count_cons_self, List.count_append, hnot]
        omega
      · have := hcount k
        have := hck k hk
        rw [List.count_cons_of_ne (Nat.ne_of_gt hk), List.count_append]
        omega
      · rw [List.mem_cons, List.mem_append, List.mem_range'_1] at hk
        rcases hk with rfl | hk | hk
        · omega
        · omega
        · exact hmem k hk

/-- **Every index is executed at most `b + 1` times**: the program runs from index `0` to any `i ≤ len`,
    executing only indices below `i`. -/
theorem run_count_le (hl : Loops m len isBack entry) {b : Nat} (he : Exits m len isBack entry b)
    (s : σ) {i : Nat} (hi : i ≤ len) :
    ∃ tr s', Run m tr (0, s) (i, s') ∧ (∀ k ∈ tr, k < i) ∧ ∀ k, tr.count k ≤ b + 1 := by
  -- an index that no back edge before the frontier returns over was executed at most once
  suffices ∃ tr s', Run m tr (0, s) (i, s') ∧ (∀ k ∈ tr, k < i) ∧ (∀ k, tr.count k ≤ b + 1) ∧
      ∀ k, (∀ j < i, isBack j → k ≤ j → k < entry j) → tr.count k ≤ 1 by
    obtain ⟨tr, s', hrun, hlt, hcount, _⟩ := this
    exact ⟨tr, s', hrun, hlt, hcount⟩
  induction i with
  | zero => exact ⟨[], s, .refl, by simp, by simp, by simp⟩
  | succ i ih =>
    obtain ⟨tr, s', hrun, hlt, hcount, honce⟩ := ih (by omega)
    have hnew : tr.count i = 0 := List.count_eq_zero.mpr fun h => (hlt i h).false
    by_cases hb : isBack i
    · obtain ⟨q, hqb, hq⟩ := he i hi hb s'
      obtain ⟨tr', s'', hrun', hci, hck, hmem⟩ := run_loop hl hi hb hq
      have hout : ∀ k, ¬ (entry i ≤ k ∧ k ≤ i) → tr'.count k = 0 := fun k hk =>
        List.count_eq_zero.mpr fun h => hk (hmem k h)
      refine ⟨tr ++ tr', s'', hrun.trans hrun', fun k hk => ?_, fun k => ?_, fun k hk => ?_⟩
      · rcases List.mem_append.mp hk with h | h
        · have := hlt k h; omega
        · have := (hmem k h).2; omega
      · rw [List.count_append]
        by_cases hin : entry i ≤ k ∧ k < i
        · have hk1 : tr.count k ≤ 1 := honce k fun j hj hbj hkj => by
            by_contra hge
            exact hl.straight i hi hb j (by omega) hj hbj
          have := hck k hin.2
          omega
        · by_cases hki : k = i
          · subst hki
            omega
          · have := hout k (by omega)
            have := hcount k
            omega
      · rw [List.count_append]
        by_cases hki : k ≤ i
        · have := hk i (by omega) hb hki
          have := hout k (by omega)
          have := honce k fun j hj hbj hkj => hk j (by omega) hbj hkj
          omega
        · have := hout k (by omega)
          have := List.count_eq_zero.mpr fun h : k ∈ tr => absurd (hlt k h) (by omega)
          omega
    · have hstep : Run m [i] (i, s') (i + 1, (m i s').2) :=
        .head (by rw [← hl.forward i hi hb s']; exact .refl)
      refine ⟨tr ++ [i], _, hrun.trans hstep, fun k hk => ?_, fun k => ?_, fun k hk => ?_⟩
      · rcases List.mem_append.mp hk with h | h
        · have := hlt k h; omega
        · rw [List.mem_singleton] at h; omega
      all_goals rw [List.count_append, List.count_singleton]
      · by_cases hki : k = i
        · subst hki
          rw [hnew]
          simp
        · simpa [Ne.symm hki] using hcount k
      · by_cases hki : k = i
        · subst hki
          rw [hnew]
          simp
        · simpa [Ne.symm hki] using honce k fun j hj hbj hkj => hk j (by omega) hbj hkj

/-- A run over indices below `len`, each executed at most `c` times, is at most `c * len` long. -/
theorem length_le_of_count_le {tr : List Nat} {c : Nat} (hlt : ∀ k ∈ tr, k < len)
    (hcount : ∀ k, tr.count k ≤ c) : tr.length ≤ c * len := by
  have hsub : tr.toFinset ⊆ Finset.range len := fun k hk => by
    simpa using hlt k (by simpa using hk)
  calc tr.length = ∑ k ∈ tr.toFinset, tr.count k := by
        rw [List.sum_toFinset_count_eq_length]
    _ ≤ ∑ _k ∈ tr.toFinset, c := Finset.sum_le_sum fun k _ => hcount k
    _ = c * tr.toFinset.card := by rw [Finset.sum_const, smul_eq_mul, Nat.mul_comm]
    _ ≤ c * len := Nat.mul_le_mul_left c (by simpa using Finset.card_le_card hsub)

end BackEdges
end MinerTim
