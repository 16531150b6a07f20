import MinerTim.RandomX.Superscalar

/-!
# `RandomX.SuperscalarPorts` — what `schedule_uop` and `schedule_mop` do to the port map

`Free` is a slot that a micro-op may take: a port of its mask, and nobody there. `Placed` is the effect of a commit on
the port map: some free slots are taken, at different places, and nothing else changes. `scheduleMop_commit` says that
`schedule_mop` commits the micro-ops of a macro-op so, all in the cycle that it returns. A macro-op with two micro-ops
is committed by a second search after a dry run of both; that the second finds what the first found needs the masks of
the two to be disjoint (`MacroOp.Disjoint`).
-/

namespace MinerTim
namespace RandomX
namespace Superscalar

/-! ## The port map -/

/-- The entry of a port, if there is one. -/
def entry (portBusy : PortBusy) (c : Nat) (port : Fin 3) : Option (BitVec 32) := portBusy[c]?.map (·[port])

/-- A slot that its micro-op may take. -/
structure Free (portBusy : PortBusy) (slot : Slot) : Prop where
  allowed : slot.uop &&& portMask slot.port ≠ 0
  empty : entry portBusy slot.cycle slot.port = some 0

/-- The place of a micro-op. -/
def Slot.place (slot : Slot) : Nat × Fin 3 := (slot.cycle, slot.port)

/-- **The effect of a commit**: free slots are taken, and nothing else changes. -/
structure Placed (portBusy portBusy' : PortBusy) (slots : List Slot) : Prop where
  free : ∀ slot ∈ slots, Free portBusy slot
  distinct : (slots.map Slot.place).Nodup
  taken : ∀ slot ∈ slots, entry portBusy' slot.cycle slot.port = some slot.uop
  frame : ∀ c port, (c, port) ∉ slots.map Slot.place → entry portBusy' c port = entry portBusy c port

theorem Placed.nil (portBusy : PortBusy) : Placed portBusy portBusy [] :=
  ⟨nofun, List.nodup_nil, nofun, fun _ _ _ => rfl⟩

theorem Free.uop_ne_zero {portBusy : PortBusy} {slot : Slot} (h : Free portBusy slot) : slot.uop ≠ 0 := by
  intro hzero
  have hallowed := h.allowed
  rw [hzero] at hallowed
  exact hallowed BitVec.zero_and

/-- **Commits one after the other.** -/
theorem Placed.append {portBusy portBusy' portBusy'' : PortBusy} {slots slots' : List Slot}
    (h : Placed portBusy portBusy' slots) (h' : Placed portBusy' portBusy'' slots') :
    Placed portBusy portBusy'' (slots ++ slots') := by
  -- a slot that the first taker has is not free for the second
  have hapart : ∀ slot' ∈ slots', slot'.place ∉ slots.map Slot.place := by
    intro slot' hslot' hmem
    obtain ⟨slot, hslot, heq⟩ := List.mem_map.mp hmem
    obtain ⟨hcycle, hport⟩ := Prod.mk.inj heq
    have htaken := h.taken slot hslot
    rw [hcycle, hport, (h'.free slot' hslot').empty, Option.some.injEq] at htaken
    exact (h.free slot hslot).uop_ne_zero htaken.symm
  constructor
  · intro slot hslot
    rcases List.mem_append.mp hslot with hslot | hslot
    · exact h.free slot hslot
    · have hfree := h'.free slot hslot
      exact ⟨hfree.allowed, (h.frame _ _ (hapart slot hslot)).symm.trans hfree.empty⟩
  · rw [List.map_append, List.nodup_append']
    refine ⟨h.distinct, h'.distinct, ?_⟩
    intro place hplace hplace'
    obtain ⟨slot', hslot', rfl⟩ := List.mem_map.mp hplace'
    exact hapart slot' hslot' hplace
  · intro slot hslot
    rcases List.mem_append.mp hslot with hslot | hslot
    · rw [← h.taken slot hslot]
      refine h'.frame _ _ fun hmem => ?_
      obtain ⟨slot', hslot', heq⟩ := List.mem_map.mp hmem
      exact hapart slot' hslot' (List.mem_map.mpr ⟨slot, hslot, heq.symm⟩)
    · exact h'.taken slot hslot
  · intro c port hne
    rw [List.map_append, List.mem_append, not_or] at hne
    rw [h'.frame c port hne.2, h.frame c port hne.1]

theorem lt_of_entry {portBusy : PortBusy} {c : Nat} {port : Fin 3} {v : BitVec 32}
    (h : entry portBusy c port = some v) : c < CYCLE_MAP_SIZE := by
  obtain ⟨row, hrow, _⟩ := Option.map_eq_some_iff.mp h
  exact (Vector.getElem?_eq_some_iff.mp hrow).1

/-- A slot is committed to one entry. -/
theorem commitSlot_spec {portBusy : PortBusy} {slot : Slot} (h : Free portBusy slot) :
    ∃ portBusy', commitSlot portBusy slot = some portBusy' ∧ Placed portBusy portBusy' [slot] := by
  obtain ⟨row, hrow, _⟩ := Option.map_eq_some_iff.mp h.empty
  have hlt := lt_of_entry h.empty
  refine ⟨portBusy.setIfInBounds slot.cycle (row.set slot.port slot.uop), ?_, ?_, ?_, ?_, ?_⟩
  · rw [commitSlot, hrow]
    rfl
  · exact fun s hs => List.mem_singleton.mp hs ▸ h
  · exact List.nodup_singleton _
  · intro s hs
    obtain rfl := List.mem_singleton.mp hs
    rw [entry, Vector.getElem?_setIfInBounds_self_of_lt hlt]
    simp
  · intro c port hne
    rw [List.map_singleton, List.mem_singleton, Slot.place, Prod.mk.injEq, not_and] at hne
    unfold entry
    by_cases hc : c = slot.cycle
    · subst hc
      rw [Vector.getElem?_setIfInBounds_self_of_lt hlt, hrow, Option.map_some, Option.map_some, Option.some.injEq]
      have hport : slot.port.val ≠ port.val := fun heq => hne rfl (Fin.ext heq.symm)
      exact Vector.getElem_set_ne _ _ hport
    · rw [Vector.getElem?_setIfInBounds_ne (Ne.symm hc)]

/-! ## One micro-op -/

theorem freePort_eq_some {uop : BitVec 32} {row : Vector (BitVec 32) 3} {port : Fin 3}
    (h : freePort uop row = some port) : uop &&& portMask port ≠ 0 ∧ row[port] = 0 := by
  unfold freePort at h
  split at h
  next hfree => cases h; exact hfree
  next =>
    split at h
    next hfree => cases h; exact hfree
    next =>
      split at h
      next hfree => cases h; exact hfree
      next => cases h

/-- Only the ports of the mask matter. -/
theorem freePort_congr {uop : BitVec 32} {row row' : Vector (BitVec 32) 3}
    (h : ∀ port : Fin 3, uop &&& portMask port ≠ 0 → row'[port] = row[port]) :
    freePort uop row' = freePort uop row := by
  have hport : ∀ port : Fin 3, (uop &&& portMask port ≠ 0 ∧ row'[port] = 0)
      = (uop &&& portMask port ≠ 0 ∧ row[port] = 0) := fun port =>
    propext (and_congr_right fun hmask => by rw [h port hmask])
  have h0 := hport 0
  have h1 := hport 1
  have h2 := hport 2
  simp only [portMask, Fin.getElem_fin, Fin.val_zero, Fin.val_one, Fin.val_two] at h0 h1 h2
  unfold freePort
  simp only [h0, h1, h2]

/-- The search ends, at the first cycle with a free port if there is one. -/
theorem searchUop_spec (uop : BitVec 32) (portBusy : PortBusy) (n c : Nat) (h : c + n ≤ CYCLE_MAP_SIZE ∨ n = 0) :
    ∃ found, searchUop uop portBusy n c = some found ∧ ∀ slot, found = some slot →
      c ≤ slot.cycle ∧ slot.uop = uop ∧ Free portBusy slot ∧
        ∃ row, portBusy[slot.cycle]? = some row ∧ freePort uop row = some slot.port := by
  induction n generalizing c with
  | zero => exact ⟨none, rfl, nofun⟩
  | succ n ih =>
    have hc : c < CYCLE_MAP_SIZE := by omega
    have hrow : portBusy[c]? = some portBusy[c] := Vector.getElem?_eq_getElem hc
    rw [searchUop, hrow, Option.bind_eq_bind, Option.bind_some]
    cases hfree : freePort uop portBusy[c] with
    | some port =>
      refine ⟨_, rfl, ?_⟩
      rintro _ ⟨⟩
      obtain ⟨hmask, hempty⟩ := freePort_eq_some hfree
      exact ⟨le_rfl, rfl, ⟨hmask, by rw [entry, hrow, Option.map_some, hempty]⟩, _, hrow, hfree⟩
    | none =>
      obtain ⟨found, heq, hfound⟩ := ih (c + 1) (by omega)
      exact ⟨found, heq, fun slot hslot => (hfound slot hslot).imp_left (by omega)⟩

/-- A search that starts at a cycle with a free port ends there. -/
theorem searchUop_here {uop : BitVec 32} {portBusy : PortBusy} {c : Nat} {row : Vector (BitVec 32) 3} {port : Fin 3}
    (hrow : portBusy[c]? = some row) (hfree : freePort uop row = some port) :
    searchUop uop portBusy (CYCLE_MAP_SIZE - c) c = some (some { cycle := c, port, uop }) := by
  have hc := (Vector.getElem?_eq_some_iff.mp hrow).1
  obtain ⟨n, hn⟩ : ∃ n, CYCLE_MAP_SIZE - c = n + 1 := ⟨CYCLE_MAP_SIZE - c - 1, by omega⟩
  rw [hn, searchUop, hrow, Option.bind_eq_bind, Option.bind_some, hfree]
  rfl

/-- **`schedule_uop`** ends; what it commits is one free slot, not before the cycle. -/
theorem scheduleUop_spec (uop : BitVec 32) (portBusy : PortBusy) (cycle : Nat) (commit : Bool) :
    ∃ found portBusy', scheduleUop uop portBusy cycle commit = some (found, portBusy') ∧
      (found = none → portBusy' = portBusy) ∧ ∀ slot, found = some slot →
        cycle ≤ slot.cycle ∧ slot.uop = uop ∧ (commit = true → Placed portBusy portBusy' [slot]) ∧
          ∃ row, portBusy[slot.cycle]? = some row ∧ freePort uop row = some slot.port := by
  obtain ⟨found, heq, hfound⟩ := searchUop_spec uop portBusy (CYCLE_MAP_SIZE - cycle) cycle (by omega)
  unfold scheduleUop
  rw [heq, Option.bind_eq_bind, Option.bind_some]
  cases found with
  | none => exact ⟨none, portBusy, rfl, fun _ => rfl, nofun⟩
  | some slot =>
    obtain ⟨hle, huop, hfree, hrow⟩ := hfound slot rfl
    cases commit with
    | false =>
      refine ⟨some slot, portBusy, rfl, nofun, ?_⟩
      rintro _ ⟨⟩
      exact ⟨hle, huop, nofun, hrow⟩
    | true =>
      obtain ⟨portBusy', hcommit, hplaced⟩ := commitSlot_spec hfree
      refine ⟨some slot, portBusy', ?_, nofun, ?_⟩
      · dsimp only
        rw [if_pos rfl, hcommit]
        rfl
      · rintro _ ⟨⟩
        exact ⟨hle, huop, fun _ => hplaced, hrow⟩

/-! ## A macro-op -/

/-- No port takes both micro-ops. -/
def MacroOp.Disjoint (mop : MacroOp) : Prop :=
  ∀ port, mop.uop1 &&& portMask port ≠ 0 → mop.uop2 &&& portMask port = 0

instance (mop : MacroOp) : Decidable mop.Disjoint := by unfold MacroOp.Disjoint; infer_instance

/-- The search for a cycle with a free port for both micro-ops ends. -/
theorem searchPair_spec (mop : MacroOp) (portBusy : PortBusy) (n c : Nat) :
    ∃ found, searchPair mop portBusy n c = some found ∧ ∀ c1, found = some c1 →
      c ≤ c1 ∧ ∃ row port1 port2, portBusy[c1]? = some row ∧ freePort mop.uop1 row = some port1 ∧
        freePort mop.uop2 row = some port2 := by
  induction n generalizing c with
  | zero => exact ⟨none, rfl, nofun⟩
  | succ n ih =>
    obtain ⟨found1, _, heq1, _, hfound1⟩ := scheduleUop_spec mop.uop1 portBusy c false
    obtain ⟨found2, _, heq2, _, hfound2⟩ := scheduleUop_spec mop.uop2 portBusy c false
    obtain ⟨next, hnext, hnext'⟩ := ih (c + 1)
    have hrest : ∃ found, searchPair mop portBusy n (c + 1) = some found ∧ ∀ c1, found = some c1 →
        c ≤ c1 ∧ ∃ row port1 port2, portBusy[c1]? = some row ∧ freePort mop.uop1 row = some port1 ∧
          freePort mop.uop2 row = some port2 :=
      ⟨next, hnext, fun c1 hc1 => (hnext' c1 hc1).imp_left (by omega)⟩
    rw [searchPair, heq1, Option.bind_eq_bind, Option.bind_some, heq2]
    dsimp only [Option.bind_some]
    cases found1 with
    | none => exact hrest
    | some slot1 =>
      cases found2 with
      | none => exact hrest
      | some slot2 =>
        dsimp only
        -- the pair is found only where both micro-ops come in one cycle
        by_cases hsame : slot1.cycle = slot2.cycle
        · rw [if_pos hsame]
          obtain ⟨hle, _, _, row1, hrow1, hfree1⟩ := hfound1 slot1 rfl
          obtain ⟨_, _, _, row2, hrow2, hfree2⟩ := hfound2 slot2 rfl
          rw [← hsame, hrow1] at hrow2
          obtain rfl := Option.some.inj hrow2
          refine ⟨_, rfl, ?_⟩
          rintro _ ⟨⟩
          exact ⟨hle, row1, slot1.port, slot2.port, hrow1, hfree1, hfree2⟩
        · rw [if_neg hsame]
          exact hrest

/-- The earliest cycle of a macro-op. -/
def MacroOp.earliest (mop : MacroOp) (cycle depCycle : Nat) : Nat := if mop.dependent then max cycle depCycle else cycle

/-- Both micro-ops are committed in the cycle that the dry run finds. -/
theorem commit_pair {mop : MacroOp} (hdisjoint : mop.Disjoint) {portBusy : PortBusy} {c : Nat}
    {row : Vector (BitVec 32) 3} {port1 port2 : Fin 3} (hrow : portBusy[c]? = some row)
    (hfree1 : freePort mop.uop1 row = some port1) (hfree2 : freePort mop.uop2 row = some port2) :
    ∃ portBusy1 portBusy2, scheduleUop mop.uop1 portBusy c true = some (some ⟨c, port1, mop.uop1⟩, portBusy1) ∧
      scheduleUop mop.uop2 portBusy1 c true = some (some ⟨c, port2, mop.uop2⟩, portBusy2) ∧
      Placed portBusy portBusy2 [⟨c, port1, mop.uop1⟩, ⟨c, port2, mop.uop2⟩] := by
  have hcommit : ∀ {uop : BitVec 32} {portBusy : PortBusy} {row : Vector (BitVec 32) 3} {port : Fin 3},
      portBusy[c]? = some row → freePort uop row = some port → ∃ portBusy',
        scheduleUop uop portBusy c true = some (some ⟨c, port, uop⟩, portBusy') ∧
          Placed portBusy portBusy' [⟨c, port, uop⟩] := by
    intro uop portBusy row port hrow hfree
    obtain ⟨hmask, hempty⟩ := freePort_eq_some hfree
    obtain ⟨portBusy', hslot, hplaced⟩ := @commitSlot_spec portBusy ⟨c, port, uop⟩
      ⟨hmask, by rw [entry, hrow, Option.map_some, hempty]⟩
    refine ⟨portBusy', ?_, hplaced⟩
    unfold scheduleUop
    rw [searchUop_here hrow hfree, Option.bind_eq_bind, Option.bind_some]
    dsimp only
    rw [if_pos rfl, hslot]
    rfl
  obtain ⟨portBusy1, heq1, hplaced1⟩ := hcommit hrow hfree1
  have hc : c < CYCLE_MAP_SIZE := (Vector.getElem?_eq_some_iff.mp hrow).1
  have hrow1 : portBusy1[c]? = some portBusy1[c] := Vector.getElem?_eq_getElem hc
  -- the port that the first micro-op takes is not one of the second's
  have hsame : freePort mop.uop2 portBusy1[c] = some port2 := by
    rw [← hfree2]
    refine freePort_congr fun port hmask => ?_
    have hne : port ≠ port1 := by
      rintro rfl
      exact hmask (hdisjoint port (freePort_eq_some hfree1).1)
    have hframe := hplaced1.frame c port (by
      rw [List.map_singleton, List.mem_singleton]
      exact fun heq => hne (congrArg Prod.snd heq))
    rw [entry, entry, hrow1, hrow, Option.map_some, Option.map_some, Option.some.injEq] at hframe
    exact hframe
  obtain ⟨portBusy2, heq2, hplaced2⟩ := hcommit hrow1 hsame
  exact ⟨portBusy1, portBusy2, heq1, heq2, hplaced1.append hplaced2⟩

/-- What `schedule_mop` returns, and commits. -/
structure Scheduled.Of (mop : MacroOp) (start : Nat) (found : Scheduled) : Prop where
  start_le : start ≤ found.cycle
  eliminated : mop.isEliminated = true → found.cycle = start

/-- **A dry run** of `schedule_mop` ends. -/
theorem scheduleMop_dry (mop : MacroOp) (portBusy : PortBusy) (cycle depCycle : Nat) :
    ∃ found portBusy', scheduleMop mop portBusy cycle depCycle false = some (found, portBusy') ∧
      ∀ res, found = some res → res.Of mop (mop.earliest cycle depCycle) := by
  unfold scheduleMop
  rw [← MacroOp.earliest]
  generalize mop.earliest cycle depCycle = c
  cases helim : mop.isEliminated with
  | true =>
    -- an eliminated macro-op takes no slot
    refine ⟨_, portBusy, rfl, ?_⟩
    rintro _ ⟨⟩
    exact ⟨le_rfl, fun _ => rfl⟩
  | false =>
    cases hsimple : mop.isSimple with
    | true =>
      obtain ⟨found, portBusy', heq, _, hfound⟩ := scheduleUop_spec mop.uop1 portBusy c false
      refine ⟨found.map fun slot => { cycle := slot.cycle, slots := [slot] }, portBusy', ?_, ?_⟩
      · simp only [Bool.false_eq_true, if_false, if_true, heq]
        rfl
      · intro res hres
        obtain ⟨slot, hslot, rfl⟩ := Option.map_eq_some_iff.mp hres
        exact ⟨(hfound slot hslot).1, by rw [helim]; exact nofun⟩
    | false =>
      obtain ⟨found, heq, hfound⟩ := searchPair_spec mop portBusy (CYCLE_MAP_SIZE - c) c
      simp only [Bool.false_eq_true, if_false, heq]
      cases found with
      | none => exact ⟨none, portBusy, rfl, nofun⟩
      | some c1 =>
        refine ⟨_, portBusy, rfl, ?_⟩
        rintro _ ⟨⟩
        exact ⟨(hfound c1 rfl).1, by rw [helim]; exact nofun⟩

/-- **A commit** of `schedule_mop` puts the micro-ops into free slots of the cycle that it returns. -/
theorem scheduleMop_commit {mop : MacroOp} (hdisjoint : mop.Disjoint) (portBusy : PortBusy) (cycle depCycle : Nat) :
    ∃ found portBusy', scheduleMop mop portBusy cycle depCycle true = some (found, portBusy') ∧
      (found = none → portBusy' = portBusy) ∧ ∀ res, found = some res → res.Of mop (mop.earliest cycle depCycle) ∧
        Placed portBusy portBusy' res.slots ∧ res.slots.map Slot.uop = mop.uops ∧
          ∀ slot ∈ res.slots, slot.cycle = res.cycle := by
  unfold scheduleMop MacroOp.uops
  rw [← MacroOp.earliest]
  generalize mop.earliest cycle depCycle = c
  cases helim : mop.isEliminated with
  | true =>
    -- eliminated: no micro-op
    refine ⟨_, portBusy, rfl, nofun, ?_⟩
    rintro _ ⟨⟩
    exact ⟨⟨le_rfl, fun _ => rfl⟩, .nil portBusy, rfl, nofun⟩
  | false =>
    cases hsimple : mop.isSimple with
    | true =>
      -- one micro-op, in the first cycle with a port free
      obtain ⟨found, portBusy', heq, hnone, hfound⟩ := scheduleUop_spec mop.uop1 portBusy c true
      refine ⟨found.map fun slot => { cycle := slot.cycle, slots := [slot] }, portBusy', ?_, ?_, ?_⟩
      · simp only [Bool.false_eq_true, if_false, if_true, heq]
        rfl
      · exact fun h => hnone (Option.map_eq_none_iff.mp h)
      · intro res hres
        obtain ⟨slot, hslot, rfl⟩ := Option.map_eq_some_iff.mp hres
        obtain ⟨hle, huop, hplaced, _⟩ := hfound slot hslot
        refine ⟨⟨hle, by rw [helim]; exact nofun⟩, hplaced rfl, congrArg (fun uop => [uop]) huop, ?_⟩
        intro s hs
        rw [List.mem_singleton.mp hs]
    | false =>
      -- two micro-ops, in the first cycle with a port free for each
      obtain ⟨found, heq, hfound⟩ := searchPair_spec mop portBusy (CYCLE_MAP_SIZE - c) c
      simp only [Bool.false_eq_true, if_false, if_true, heq]
      cases found with
      | none => exact ⟨none, portBusy, rfl, fun _ => rfl, nofun⟩
      | some c1 =>
        obtain ⟨hle, row, port1, port2, hrow, hfree1, hfree2⟩ := hfound c1 rfl
        obtain ⟨portBusy1, portBusy2, heq1, heq2, hplaced⟩ := commit_pair hdisjoint hrow hfree1 hfree2
        refine ⟨some ⟨c1, [⟨c1, port1, mop.uop1⟩, ⟨c1, port2, mop.uop2⟩]⟩, portBusy2, ?_, nofun, ?_⟩
        · simp only [Option.bind_eq_bind, Option.bind_some, heq1, heq2]
          rfl
        · rintro _ ⟨⟩
          refine ⟨⟨hle, by rw [helim]; exact nofun⟩, hplaced, rfl, ?_⟩
          intro slot hslot
          rcases List.mem_cons.mp hslot with rfl | hslot
          · rfl
          · rw [List.mem_singleton.mp hslot]

end Superscalar
end RandomX
end MinerTim
