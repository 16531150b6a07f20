import Mathlib.Data.List.Basic
import Mathlib.Data.List.Infix
import Mathlib.Data.List.Flatten

/-!
# `Lib.Lines` — a stream as lines and an unfinished tail

Generic support. `Lines sep stream bodies tail` says that a stream is the lines `bodies`, each followed by a
separator, and then a tail without one. Every stream is so in exactly one way (`exists_lines`, `Lines.unique`), and
the ways of two pieces make up the way of the whole (`Lines.append`): the tail of the first piece is taken over into
the second. So a reader that keeps the tail between reads finds the same lines wherever the stream is cut.
-/

namespace MinerTim

/-- **A stream of lines**: `bodies`, each ended by `sep`, and an unfinished line. -/
structure Lines {α : Type} (sep : α) (stream : List α) (bodies : List (List α)) (tail : List α) : Prop where
  eq : stream = bodies.flatMap (· ++ [sep]) ++ tail
  sep_notMem : ∀ b ∈ bodies, sep ∉ b
  sep_notMem_tail : sep ∉ tail

namespace Lines

variable {α : Type} {sep : α} {stream stream' tail tail' body : List α} {bodies bodies' : List (List α)}

theorem of_notMem (h : sep ∉ tail) : Lines sep tail [] tail := ⟨rfl, fun _ hb => absurd hb List.not_mem_nil, h⟩

theorem cons (hbody : sep ∉ body) (h : Lines sep stream bodies tail) :
    Lines sep (body ++ sep :: stream) (body :: bodies) tail := by
  refine ⟨?_, ?_, h.sep_notMem_tail⟩
  · rw [List.flatMap_cons, h.eq]
    simp only [List.append_assoc, List.cons_append, List.nil_append]
  · intro b hb
    rcases List.mem_cons.mp hb with rfl | hb
    · exact hbody
    · exact h.sep_notMem b hb

/-- **The pieces of a stream**: the tail of the first goes on in the second. -/
theorem append (h : Lines sep stream bodies tail) (h' : Lines sep (tail ++ stream') bodies' tail') :
    Lines sep (stream ++ stream') (bodies ++ bodies') tail' := by
  refine ⟨?_, ?_, h'.sep_notMem_tail⟩
  · rw [List.flatMap_append, List.append_assoc, ← h'.eq, ← List.append_assoc, ← h.eq]
  · intro b hb
    rcases List.mem_append.mp hb with hb | hb
    · exact h.sep_notMem b hb
    · exact h'.sep_notMem b hb

theorem exists_lines [DecidableEq α] (sep : α) (stream : List α) : ∃ bodies tail, Lines sep stream bodies tail := by
  induction stream with
  | nil => exact ⟨[], [], of_notMem List.not_mem_nil⟩
  | cons a stream ih =>
    obtain ⟨bodies, tail, h⟩ := ih
    by_cases ha : a = sep
    · subst ha
      exact ⟨[] :: bodies, tail, cons List.not_mem_nil h⟩
    · cases bodies with
      | nil =>
        have htail : stream = tail := h.eq
        exact ⟨[], a :: stream, of_notMem (List.not_mem_cons_of_ne_of_not_mem (Ne.symm ha) (htail ▸ h.sep_notMem_tail))⟩
      | cons b bodies =>
        refine ⟨(a :: b) :: bodies, tail, ?_, ?_, h.sep_notMem_tail⟩
        · rw [h.eq, List.flatMap_cons, List.flatMap_cons]
          rfl
        · intro b' hb'
          rcases List.mem_cons.mp hb' with rfl | hb'
          · exact List.not_mem_cons_of_ne_of_not_mem (Ne.symm ha) (h.sep_notMem b List.mem_cons_self)
          · exact h.sep_notMem b' (List.mem_cons_of_mem b hb')

/-- Two lists that a first separator follows are equal. -/
theorem eq_of_append_cons {a b : List α} (ha : sep ∉ a) (hb : sep ∉ b) {s t : List α}
    (h : a ++ sep :: s = b ++ sep :: t) : a = b ∧ s = t := by
  induction a generalizing b with
  | nil =>
    cases b with
    | nil => exact ⟨rfl, (List.cons.inj h).2⟩
    | cons y b => exact absurd ((List.cons.inj h).1 ▸ List.mem_cons_self) hb
  | cons x a ih =>
    cases b with
    | nil => exact absurd ((List.cons.inj h).1 ▸ List.mem_cons_self) ha
    | cons y b =>
      obtain ⟨hxy, hrest⟩ := List.cons.inj h
      obtain ⟨hab, hst⟩ :=
        ih (fun hm => ha (List.mem_cons_of_mem x hm)) (fun hm => hb (List.mem_cons_of_mem y hm)) hrest
      exact ⟨hxy ▸ hab ▸ rfl, hst⟩

theorem eq_cons (h : Lines sep stream (body :: bodies) tail) :
    stream = body ++ sep :: (bodies.flatMap (· ++ [sep]) ++ tail) := by
  rw [h.eq, List.flatMap_cons]
  simp only [List.append_assoc, List.cons_append, List.nil_append]

/-- What follows the first line. -/
theorem tail_lines (h : Lines sep stream (body :: bodies) tail) :
    Lines sep (bodies.flatMap (· ++ [sep]) ++ tail) bodies tail :=
  ⟨rfl, fun b hb => h.sep_notMem b (List.mem_cons_of_mem body hb), h.sep_notMem_tail⟩

/-- **A stream has one way of being lines.** -/
theorem unique (h : Lines sep stream bodies tail) (h' : Lines sep stream bodies' tail') :
    bodies = bodies' ∧ tail = tail' := by
  have hnone : ∀ {s t b : List α} {bs : List (List α)}, sep ∉ s → ¬ Lines sep s (b :: bs) t := by
    intro s t b bs hs hl
    exact hs (hl.eq_cons ▸ List.mem_append_right b List.mem_cons_self)
  induction bodies generalizing stream bodies' with
  | nil =>
    have hstream : stream = tail := h.eq
    cases bodies' with
    | nil => exact ⟨rfl, hstream.symm.trans h'.eq⟩
    | cons b' bodies' => exact absurd h' (hnone (hstream ▸ h.sep_notMem_tail))
  | cons b bodies ih =>
    cases bodies' with
    | nil => exact absurd h (hnone (show sep ∉ stream from h'.eq ▸ h'.sep_notMem_tail))
    | cons b' bodies' =>
      obtain ⟨hb, hrest⟩ := eq_of_append_cons (h.sep_notMem b List.mem_cons_self)
        (h'.sep_notMem b' List.mem_cons_self) (h.eq_cons ▸ h'.eq_cons)
      obtain ⟨hbs, htail⟩ := ih h.tail_lines (hrest ▸ h'.tail_lines)
      exact ⟨hb ▸ hbs ▸ rfl, htail⟩

/-- The unfinished line at a cut is the start of a line of the whole stream. -/
theorem length_tail_le {max : Nat} (hcut : Lines sep stream bodies tail)
    (hall : Lines sep (stream ++ stream') bodies' tail') (hbodies : ∀ b ∈ bodies', b.length ≤ max)
    (htail : tail'.length ≤ max) [DecidableEq α] : tail.length ≤ max := by
  obtain ⟨more, tail'', hmore⟩ := exists_lines sep (tail ++ stream')
  obtain ⟨rfl, rfl⟩ := hall.unique (hcut.append hmore)
  cases more with
  | nil =>
    have heq : tail ++ stream' = tail' := hmore.eq
    rw [← heq, List.length_append] at htail
    omega
  | cons b more =>
    have hb := hbodies b (List.mem_append_right bodies List.mem_cons_self)
    have heq := hmore.eq_cons
    by_contra hlong
    -- otherwise the first separator would be inside the tail
    have hmem : sep ∈ tail := by
      have hget : (tail ++ stream')[b.length]? = some sep := by
        rw [heq, List.getElem?_append_right (Nat.le_refl _), Nat.sub_self]
        rfl
      rw [List.getElem?_append_left (by omega)] at hget
      exact List.mem_of_getElem? hget
    exact hcut.sep_notMem_tail hmem

end Lines
end MinerTim
