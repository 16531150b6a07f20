import Mathlib.Tactic

/-!
# `Lib.BlockReader` — requests read from a sequence of blocks

Generic support for readers that take their values out of blocks of a fixed size. A request of width `w` is read
where the cursor is if the block still has room for it, and otherwise at the start of the next block; what is left of
the old block is skipped (`Cursor.place`). `places` lists where a sequence of requests is read. Whatever the
requests, each is read inside one block, and they are read in order, without reading anything twice
(`places_ordered`).
-/

namespace MinerTim
namespace BlockReader

/-- A position: a block, and the offset in it. -/
structure Cursor where
  block : Nat
  offset : Nat
deriving DecidableEq, Repr

namespace Cursor

/-- Where a request of width `w` is read. -/
def place (size w : Nat) (c : Cursor) : Cursor :=
  if c.offset + w ≤ size then c else ⟨c.block + 1, 0⟩

/-- The position behind it. -/
def advance (size w : Nat) (c : Cursor) : Cursor :=
  ⟨(c.place size w).block, (c.place size w).offset + w⟩

/-- Position `c` is at or behind position `d`. -/
def Reached (d c : Cursor) : Prop := d.block < c.block ∨ d.block = c.block ∧ d.offset ≤ c.offset

variable {size w : Nat} {c d b : Cursor}

theorem Reached.refl (c : Cursor) : Reached c c := .inr ⟨rfl, le_rfl⟩

theorem Reached.trans (h : Reached d c) (h' : Reached c b) : Reached d b := by
  unfold Reached at *
  omega

/-- A request is read at or behind the cursor. -/
theorem reached_place (size w : Nat) (c : Cursor) : Reached c (c.place size w) := by
  unfold place
  split
  · exact .refl c
  · exact .inl (Nat.lt_succ_self c.block)

theorem reached_advance (size w : Nat) (c : Cursor) : Reached c (c.advance size w) :=
  (reached_place size w c).trans (.inr ⟨rfl, Nat.le_add_right _ _⟩)

/-- A request is read inside a block. -/
theorem place_fits (hw : w ≤ size) (c : Cursor) : (c.place size w).offset + w ≤ size := by
  unfold place
  split
  · assumption
  · rw [Nat.zero_add]
    exact hw

end Cursor

/-- A read: the width, and where. -/
structure Read where
  width : Nat
  at_ : Cursor
deriving DecidableEq, Repr

/-- The position behind a read. -/
def Read.after (r : Read) : Cursor := ⟨r.at_.block, r.at_.offset + r.width⟩

/-- Where the requests are read, in order. -/
def places (size : Nat) : List Nat → Cursor → List Read
  | [], _ => []
  | w :: ws, c => ⟨w, c.place size w⟩ :: places size ws (c.advance size w)

/-- Where the cursor is after them. -/
def cursorAfter (size : Nat) : List Nat → Cursor → Cursor
  | [], c => c
  | w :: ws, c => cursorAfter size ws (c.advance size w)

variable {size : Nat}

/-- **Every read stays inside one block.** -/
theorem places_fit {ws : List Nat} (hws : ∀ w ∈ ws, w ≤ size) (c : Cursor) :
    ∀ r ∈ places size ws c, r.at_.offset + r.width ≤ size := by
  induction ws generalizing c with
  | nil => simp [places]
  | cons w ws ih =>
    intro r hr
    rcases List.mem_cons.mp hr with rfl | hr
    · exact Cursor.place_fits (hws w List.mem_cons_self) c
    · exact ih (fun w hw => hws w (List.mem_cons_of_mem _ hw)) _ r hr

theorem width_mem_of_mem_places {ws : List Nat} {c : Cursor} {r : Read} (h : r ∈ places size ws c) : r.width ∈ ws := by
  induction ws generalizing c with
  | nil => simp [places] at h
  | cons w ws ih =>
    rcases List.mem_cons.mp h with rfl | h
    · exact List.mem_cons_self
    · exact List.mem_cons_of_mem _ (ih h)

/-- Nothing is read before the cursor. -/
theorem places_reached (ws : List Nat) (c : Cursor) : ∀ r ∈ places size ws c, Cursor.Reached c r.at_ := by
  induction ws generalizing c with
  | nil => simp [places]
  | cons w ws ih =>
    intro r hr
    rcases List.mem_cons.mp hr with rfl | hr
    · exact Cursor.reached_place size w c
    · exact (Cursor.reached_advance size w c).trans (ih _ r hr)

/-- **The reads are in order and disjoint**: each starts at or behind the end of every earlier one. -/
theorem places_ordered (ws : List Nat) (c : Cursor) :
    (places size ws c).Pairwise fun r r' => Cursor.Reached r.after r'.at_ := by
  induction ws generalizing c with
  | nil => exact .nil
  | cons w ws ih =>
    refine .cons (fun r hr => ?_) (ih _)
    exact places_reached ws (c.advance size w) r hr

end BlockReader
end MinerTim
