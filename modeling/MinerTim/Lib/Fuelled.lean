import Mathlib.Order.Filter.AtTopBot.Basic

/-!
# `Lib.Fuelled` — programs with loops that need not end

A program with a `loop` whose end depends on its input is run with fuel: each loop gets as many passes as there is
fuel, and one that needs more leaves the run unfinished, at the site of the loop. `ComesTo` says what a program
comes to as the fuel grows, whether that is a result or a loop that no fuel brings to its end; a run with less fuel
is unfinished and nothing else. `Ends endless P` says that a program comes to a result with `P`, or to a loop that is
`endless`; it never panics. The rules follow the constructs of a program: `bind`, a loop with a measure, a loop that
searches.
-/

namespace MinerTim

/-- Why a run has no result: a panic, or a loop that the fuel does not bring to its end. -/
inductive Fault (σ : Type) where
  | panic
  | unfinished (site : σ)

/-- A program with loops, whose argument is the fuel of each of them. -/
abbrev Fuelled (σ α : Type) := ReaderT Nat (Except (Fault σ)) α

namespace Fuelled

variable {σ α β : Type}

/-- A checked index: `none` is a panic. -/
def ofOption : Option α → Fuelled σ α
  | some a => fun _ => .ok a
  | none => fun _ => .error .panic

/-- `n` passes of a loop: `.inl` goes on, `.inr` leaves it. -/
def passes (site : σ) (body : β → Fuelled σ (β ⊕ α)) (fuel : Nat) : Nat → β → Except (Fault σ) α
  | 0, _ => .error (.unfinished site)
  | n + 1, b =>
    match body b fuel with
    | .ok (.inl b') => passes site body fuel n b'
    | .ok (.inr a) => .ok a
    | .error e => .error e

/-- `loop`. -/
def loop (site : σ) (body : β → Fuelled σ (β ⊕ α)) (b : β) : Fuelled σ α := fun fuel => passes site body fuel fuel b

/-- One pass of `drawUntil`. -/
def draw (next : α → β × α) (accepts : β → Bool) (a : α) : Fuelled σ (α ⊕ β × α) :=
  fun _ => .ok (if accepts (next a).1 then .inr (next a) else .inl (next a).2)

/-- A loop that draws values from a state until it accepts one. -/
def drawUntil (site : σ) (next : α → β × α) (accepts : β → Bool) (a : α) : Fuelled σ (β × α) :=
  loop site (draw next accepts) a

/-- The state after `k` draws. -/
def drawn (next : α → β × α) (k : Nat) (a : α) : α := (fun a => (next a).2)^[k] a

/-! ## What a program comes to -/

/-- A result, or the site of a loop that does not end, as a run. -/
def ofOutcome : Except σ α → Except (Fault σ) α
  | .ok a => .ok a
  | .error site => .error (.unfinished site)

/-- **What a program comes to**, with enough fuel; with less it is unfinished. -/
structure ComesTo (x : Fuelled σ α) (r : Except σ α) : Prop where
  enough : ∀ᶠ fuel in Filter.atTop, x fuel = ofOutcome r
  less : ∀ fuel, x fuel = ofOutcome r ∨ ∃ site, x fuel = .error (.unfinished site)

theorem ComesTo.pure (a : α) : ComesTo (pure a : Fuelled σ α) (.ok a) :=
  ⟨Filter.Eventually.of_forall fun _ => rfl, fun _ => .inl rfl⟩

theorem ComesTo.bind_ok {x : Fuelled σ α} {f : α → Fuelled σ β} {a : α} {r : Except σ β} (hx : ComesTo x (.ok a))
    (hf : ComesTo (f a) r) : ComesTo (x >>= f) r := by
  have hrun : ∀ fuel, x fuel = .ok a → (x >>= f) fuel = f a fuel := by
    intro fuel h
    show (x fuel >>= fun a => f a fuel) = _
    rw [h]
    rfl
  constructor
  · filter_upwards [hx.enough, hf.enough] with fuel hxf hff
    rw [hrun fuel hxf, hff]
  · intro fuel
    rcases hx.less fuel with h | ⟨site, h⟩
    · rw [hrun fuel h]
      exact hf.less fuel
    · refine .inr ⟨site, ?_⟩
      show (x fuel >>= fun a => f a fuel) = _
      rw [h]
      rfl

theorem ComesTo.bind_error {x : Fuelled σ α} {f : α → Fuelled σ β} {site : σ} (hx : ComesTo x (.error site)) :
    ComesTo (x >>= f) (.error site) := by
  have hrun : ∀ fuel site, x fuel = .error (.unfinished site) → (x >>= f) fuel = .error (.unfinished site) := by
    intro fuel site h
    show (x fuel >>= fun a => f a fuel) = _
    rw [h]
    rfl
  constructor
  · filter_upwards [hx.enough] with fuel h
    exact hrun fuel site h
  · intro fuel
    rcases hx.less fuel with h | ⟨site', h⟩
    · exact .inl (hrun fuel site h)
    · exact .inr ⟨site', hrun fuel site' h⟩

/-- The outcome of a loop, for the passes and the fuel apart. -/
structure PassesTo (site : σ) (body : β → Fuelled σ (β ⊕ α)) (b : β) (r : Except σ α) : Prop where
  enough : ∃ N, ∀ fuel ≥ N, ∀ n ≥ N, passes site body fuel n b = ofOutcome r
  less : ∀ fuel n, passes site body fuel n b = ofOutcome r ∨ ∃ s, passes site body fuel n b = .error (.unfinished s)

theorem PassesTo.comesTo {site : σ} {body : β → Fuelled σ (β ⊕ α)} {b : β} {r : Except σ α}
    (h : PassesTo site body b r) : ComesTo (loop site body b) r := by
  obtain ⟨N, hN⟩ := h.enough
  exact ⟨Filter.eventually_atTop.mpr ⟨N, fun fuel hfuel => hN fuel hfuel fuel hfuel⟩, fun fuel => h.less fuel fuel⟩

/-- A pass that ends the loop, by its result or because a loop inside does not end. -/
theorem PassesTo.last {site : σ} {body : β → Fuelled σ (β ⊕ α)} {b : β} {r : Except σ α}
    (h : ComesTo (body b) (r.map .inr)) : PassesTo site body b r := by
  have hrun : ∀ fuel n, body b fuel = ofOutcome (r.map .inr) → passes site body fuel (n + 1) b = ofOutcome r := by
    intro fuel n hbody
    rw [passes, hbody]
    cases r with
    | ok a => rfl
    | error s => rfl
  obtain ⟨N, hN⟩ := Filter.eventually_atTop.mp h.enough
  constructor
  · refine ⟨N + 1, fun fuel hfuel n hn => ?_⟩
    obtain ⟨m, rfl⟩ : ∃ m, n = m + 1 := ⟨n - 1, by omega⟩
    exact hrun fuel m (hN fuel (by omega))
  · intro fuel n
    cases n with
    | zero => exact .inr ⟨site, rfl⟩
    | succ n =>
      rcases h.less fuel with hbody | ⟨s, hbody⟩
      · exact .inl (hrun fuel n hbody)
      · exact .inr ⟨s, by rw [passes, hbody]⟩

/-- A pass after which the loop goes on. -/
theorem PassesTo.next {site : σ} {body : β → Fuelled σ (β ⊕ α)} {b b' : β} {r : Except σ α}
    (h : ComesTo (body b) (.ok (.inl b'))) (hnext : PassesTo site body b' r) : PassesTo site body b r := by
  have hrun : ∀ fuel n, body b fuel = .ok (.inl b') →
      passes site body fuel (n + 1) b = passes site body fuel n b' := by
    intro fuel n hbody
    rw [passes, hbody]
  obtain ⟨N, hN⟩ := Filter.eventually_atTop.mp h.enough
  obtain ⟨M, hM⟩ := hnext.enough
  constructor
  · refine ⟨max N M + 1, fun fuel hfuel n hn => ?_⟩
    obtain ⟨m, rfl⟩ : ∃ m, n = m + 1 := ⟨n - 1, by omega⟩
    rw [hrun fuel m (hN fuel (by omega))]
    exact hM fuel (by omega) m (by omega)
  · intro fuel n
    cases n with
    | zero => exact .inr ⟨site, rfl⟩
    | succ n =>
      rcases h.less fuel with hbody | ⟨s, hbody⟩
      · rw [hrun fuel n hbody]
        exact hnext.less fuel n
      · exact .inr ⟨s, by rw [passes, hbody]⟩

/-! ## The rules -/

/-- **A result with `P`, or an endless loop.** -/
def Ends (endless : σ → Prop) (P : α → Prop) (x : Fuelled σ α) : Prop :=
  (∃ a, P a ∧ ComesTo x (.ok a)) ∨ ∃ site, endless site ∧ ComesTo x (.error site)

namespace Ends

variable {endless : σ → Prop} {P : α → Prop} {Q : β → Prop} {x : Fuelled σ α}

theorem pure {a : α} (h : P a) : Ends endless P (Pure.pure a) := .inl ⟨a, h, .pure a⟩

theorem ofOption {o : Option α} (h : ∃ a, o = some a ∧ P a) : Ends endless P (Fuelled.ofOption o) := by
  obtain ⟨a, rfl, ha⟩ := h
  exact .pure ha

theorem mono {P' : α → Prop} (h : Ends endless P x) (himp : ∀ a, P a → P' a) : Ends endless P' x := by
  rcases h with ⟨a, ha, hx⟩ | hx
  · exact .inl ⟨a, himp a ha, hx⟩
  · exact .inr hx

/-- **Sequencing.** -/
theorem bind {f : α → Fuelled σ β} (h : Ends endless P x) (hf : ∀ a, P a → Ends endless Q (f a)) :
    Ends endless Q (x >>= f) := by
  rcases h with ⟨a, ha, hx⟩ | ⟨site, hsite, hx⟩
  · rcases hf a ha with ⟨b, hb, hfa⟩ | ⟨site, hsite, hfa⟩
    · exact .inl ⟨b, hb, hx.bind_ok hfa⟩
    · exact .inr ⟨site, hsite, hx.bind_ok hfa⟩
  · exact .inr ⟨site, hsite, hx.bind_error⟩

/-- **A loop with a measure.** Each pass that goes on keeps the invariant and makes the measure smaller. -/
theorem loop {site : σ} {body : α → Fuelled σ (α ⊕ β)} (Inv : α → Prop) (μ : α → Nat)
    (hstep : ∀ a, Inv a → Ends endless (Sum.elim (fun a' => Inv a' ∧ μ a' < μ a) Q) (body a)) {a : α} (h : Inv a) :
    Ends endless Q (Fuelled.loop site body a) := by
  have key : ∀ n a, Inv a → μ a = n →
      (∃ b, Q b ∧ PassesTo site body a (.ok b)) ∨ ∃ s, endless s ∧ PassesTo site body a (.error s) := by
    intro n
    induction n using Nat.strong_induction_on with
    | _ n ih =>
      intro a ha hn
      rcases hstep a ha with ⟨a' | b, hres, hbody⟩ | ⟨s, hs, hbody⟩
      · obtain ⟨ha', hlt⟩ : Inv a' ∧ μ a' < μ a := hres
        rcases ih (μ a') (by omega) a' ha' rfl with ⟨b, hb, hnext⟩ | ⟨s, hs, hnext⟩
        · exact .inl ⟨b, hb, hnext.next hbody⟩
        · exact .inr ⟨s, hs, hnext.next hbody⟩
      · exact .inl ⟨b, hres, .last hbody⟩
      · exact .inr ⟨s, hs, .last hbody⟩
  rcases key _ a h rfl with ⟨b, hb, hpass⟩ | ⟨s, hs, hpass⟩
  · exact .inl ⟨b, hb, hpass.comesTo⟩
  · exact .inr ⟨s, hs, hpass.comesTo⟩

/-- **A loop that draws until it accepts** is endless if it never does. -/
theorem drawUntil {site : σ} {next : α → β × α} {accepts : β → Bool} {a : α}
    (h : (∀ k, accepts (next (drawn next k a)).1 = false) → endless site) :
    Ends endless (fun res : β × α => accepts res.1 = true ∧ ∃ a', res = next a')
      (Fuelled.drawUntil site next accepts a) := by
  have haccepted : ∀ a, accepts (next a).1 = true →
      ComesTo (draw next accepts a : Fuelled σ (α ⊕ β × α)) (.ok (.inr (next a))) := by
    intro a ha
    unfold draw
    rw [if_pos ha]
    exact .pure _
  have hrejected : ∀ a, accepts (next a).1 = false →
      ComesTo (draw next accepts a : Fuelled σ (α ⊕ β × α)) (.ok (.inl (next a).2)) := by
    intro a ha
    unfold draw
    rw [if_neg (by rw [ha]; exact Bool.false_ne_true)]
    exact .pure _
  by_cases hex : ∃ k, accepts (next (drawn next k a)).1 = true
  · -- some draw is accepted: by induction on its distance
    obtain ⟨k, hk⟩ := hex
    clear h
    suffices hpass : ∃ res : β × α, (accepts res.1 = true ∧ ∃ a', res = next a') ∧
        PassesTo site (draw next accepts) a (.ok res) by
      obtain ⟨res, hres, hpass⟩ := hpass
      exact .inl ⟨res, hres, hpass.comesTo⟩
    induction k generalizing a with
    | zero => exact ⟨next a, ⟨hk, a, rfl⟩, .last (haccepted a hk)⟩
    | succ k ih =>
      cases hfirst : accepts (next a).1 with
      | true => exact ⟨next a, ⟨hfirst, a, rfl⟩, .last (haccepted a hfirst)⟩
      | false =>
        obtain ⟨res, hres, hpass⟩ := ih hk
        exact ⟨res, hres, hpass.next (hrejected a hfirst)⟩
  · -- none is: every fuel runs out
    have hnone : ∀ k, accepts (next (drawn next k a)).1 = false := fun k =>
      Bool.eq_false_iff.mpr fun hk => hex ⟨k, hk⟩
    have hpasses : ∀ fuel n a, (∀ k, accepts (next (drawn next k a)).1 = false) →
        passes site (draw next accepts) fuel n a = .error (.unfinished site) := by
      intro fuel n
      induction n with
      | zero => exact fun a _ => rfl
      | succ n ih =>
        intro a ha
        have hbody : (draw next accepts a : Fuelled σ (α ⊕ β × α)) fuel = .ok (.inl (next a).2) := by
          unfold draw
          rw [if_neg (by rw [show accepts (next a).1 = false from ha 0]; exact Bool.false_ne_true)]
        rw [passes, hbody]
        exact ih (next a).2 fun k => ha (k + 1)
    exact .inr ⟨site, h hnone, Filter.Eventually.of_forall fun fuel => hpasses fuel fuel a hnone,
      fun fuel => .inl (hpasses fuel fuel a hnone)⟩

/-! ## What follows -/

/-- **A run with any fuel** has a result with `P`, or is unfinished. -/
theorem run (h : Ends endless P x) (fuel : Nat) :
    (∃ a, x fuel = .ok a ∧ P a) ∨ ∃ site, x fuel = .error (.unfinished site) := by
  rcases h with ⟨a, ha, hx⟩ | ⟨site, _, hx⟩
  · exact (hx.less fuel).imp_left fun heq => ⟨a, heq, ha⟩
  · exact .inr ((hx.less fuel).elim (fun heq => ⟨site, heq⟩) id)

/-- A result is what the predicate says. -/
theorem post (h : Ends endless P x) {fuel : Nat} {a : α} (hx : x fuel = .ok a) : P a := by
  rcases h.run fuel with ⟨a', heq, ha'⟩ | ⟨site, heq⟩
  · rw [hx] at heq
    cases heq
    exact ha'
  · rw [hx] at heq
    cases heq

theorem ne_panic (h : Ends endless P x) (fuel : Nat) : x fuel ≠ .error .panic := by
  intro hx
  rcases h.run fuel with ⟨a, heq, _⟩ | ⟨site, heq⟩
  · rw [hx] at heq
    cases heq
  · rw [hx] at heq
    cases heq

/-- A program whose loops end has a result. -/
theorem exists_result (h : Ends endless P x)
    (hends : ∀ fuel site, x fuel = .error (.unfinished site) → ¬ endless site) :
    ∃ a, P a ∧ ∃ enough, ∀ fuel ≥ enough, x fuel = .ok a := by
  rcases h with ⟨a, ha, hcomes⟩ | ⟨site, hsite, hcomes⟩
  · exact ⟨a, ha, Filter.eventually_atTop.mp hcomes.enough⟩
  · obtain ⟨fuel, hfuel⟩ := hcomes.enough.exists
    exact absurd hsite (hends fuel site hfuel)

end Ends
end Fuelled
end MinerTim
