import Mathlib.Data.List.Basic
import Mathlib.Data.List.Infix

/-!
# `Lib.Framing` — messages on a stream that may stop accepting them

Generic support. A message is handed to a stream, which accepts a prefix of it: all of it when the send
succeeds, and any prefix when it fails. What has arrived is framed when it is whole messages followed by at
most one that is cut short. It is framed if nothing is sent after a send that failed
(`framed_of_pairwise`); one send after a failure can break it, since the bytes of the next message follow
the cut one.
-/

namespace MinerTim
namespace Framing

variable {β : Type}

/-- A message handed to a stream, and how much of it the stream accepted. -/
structure Delivery (β : Type) where
  message : List β
  accepted : List β
  ok : Bool
  accepted_prefix : accepted <+: message
  accepted_of_ok : ok = true → accepted = message

/-- Everything that a stream accepted. -/
def arrived (deliveries : List (Delivery β)) : List β := deliveries.flatMap Delivery.accepted

/-- Whole messages, followed by at most one that is cut short. -/
def Framed (deliveries : List (Delivery β)) : Prop :=
  ∃ (whole : List (Delivery β)) (rest : List β), whole ⊆ deliveries ∧
    arrived deliveries = whole.flatMap Delivery.message ++ rest ∧
    (rest = [] ∨ ∃ d ∈ deliveries, rest <+: d.message ∧ rest ≠ d.message)

theorem Framed.nil : Framed ([] : List (Delivery β)) := ⟨[], [], by simp, rfl, .inl rfl⟩

/-- One send, whether or not it succeeds, is framed. -/
theorem Framed.single (d : Delivery β) : Framed [d] := by
  by_cases hall : d.accepted = d.message
  · exact ⟨[d], [], by simp, by simp [arrived, hall], .inl rfl⟩
  · exact ⟨[], d.accepted, by simp, by simp [arrived],
      .inr ⟨d, List.mem_singleton_self d, d.accepted_prefix, hall⟩⟩

/-- A send that succeeds may stand before what is framed. -/
theorem Framed.cons {d : Delivery β} {ds : List (Delivery β)} (hok : d.ok = true) (h : Framed ds) :
    Framed (d :: ds) := by
  obtain ⟨whole, rest, hsub, harrived, hrest⟩ := h
  refine ⟨d :: whole, rest, List.cons_subset_cons d hsub, ?_, ?_⟩
  · rw [arrived, List.flatMap_cons, d.accepted_of_ok hok, List.flatMap_cons, List.append_assoc, ← harrived]
    rfl
  · exact hrest.imp_right fun ⟨e, he, hcut⟩ => ⟨e, List.mem_cons_of_mem d he, hcut⟩

/-- **What arrives is framed when nothing is sent after a send that failed.** -/
theorem framed_of_pairwise {ds : List (Delivery β)} (h : ds.Pairwise fun d _ => d.ok = true) :
    Framed ds := by
  induction ds with
  | nil => exact .nil
  | cons d ds ih =>
    obtain ⟨hfirst, hrest⟩ := List.pairwise_cons.mp h
    cases ds with
    | nil => exact .single d
    | cons e es => exact .cons (hfirst e List.mem_cons_self) (ih hrest)

end Framing
end MinerTim
