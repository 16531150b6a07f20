import MinerTim.Lib.SharedThreads

/-!
# `Lib.Locking` — accesses under locks

Generic support. A `System` of threads makes each access in one step. Here an access becomes a list of operations: the
thread takes locks, accesses, and gives the locks back, and everybody else goes on in between. A thread whose next lock
is taken waits. Others outside of the system use the same locks.

* a run under locks is a run of the system it was made from (`runs_base`), and every such run is one (`runs_lift`): the
  locks add the waiting, and nothing else;
* threads that take their locks downwards do not deadlock (`exists_canGo`): whoever waits, waits for a chain of others
  that ends at one who can go on;
* accesses that lower a rank still end (`exists_finished`), and the operations around them are bounded
  (`winding_locked`).
-/

namespace MinerTim
namespace Locking

open SharedThreads

/-- An operation of a thread. -/
inductive Op (Λ : Type) where
  | lock (l : Λ)
  | access
  | unlock (l : Λ)
deriving DecidableEq

/-- A thread, with the operations it has left of the access it is at. -/
structure Locker (τ Λ : Type) where
  thread : τ
  rest : List (Op Λ)

/-- The shared state, and who holds each lock: a thread, or somebody outside. -/
structure Guarded (γ ι κ Λ : Type) where
  shared : γ
  holder : Λ → Option (ι ⊕ κ)

/-- How accesses are locked. -/
structure Discipline (τ Λ : Type) where
  /-- The operations that the next access of a thread can take, the access among them. -/
  plans : τ → List (List (Op Λ))
  /-- The locks that others use. -/
  visits : Λ → Prop

section

variable {ι κ Λ γ τ : Type}

/-- The operations a thread is about to make. Where none are left, it begins its next access. -/
def Discipline.Due (d : Discipline τ Λ) (x : Locker τ Λ) (ops : List (Op Λ)) : Prop :=
  ops = x.rest ∨ x.rest = [] ∧ ops ∈ d.plans x.thread

/-- A thread that has left its last access behind. -/
def Discipline.Finished (d : Discipline τ Λ) (x : Locker τ Λ) : Prop := x.rest = [] ∧ d.plans x.thread = []

variable [DecidableEq Λ]

/-- One operation of thread `i`. -/
inductive Discipline.Act (d : Discipline τ Λ) (sys : System ι γ τ) (i : ι) :
    Guarded γ ι κ Λ → Locker τ Λ → Guarded γ ι κ Λ → Locker τ Λ → Prop where
  | lock {g : Guarded γ ι κ Λ} {x : Locker τ Λ} {l : Λ} {ops : List (Op Λ)} :
      d.Due x (.lock l :: ops) → g.holder l = none →
      Act d sys i g x { g with holder := Function.update g.holder l (some (.inl i)) } { x with rest := ops }
  | access {g : Guarded γ ι κ Λ} {x : Locker τ Λ} {g' : γ} {t' : τ} {ops : List (Op Λ)} :
      d.Due x (.access :: ops) → sys.act i g.shared x.thread g' t' →
      Act d sys i g x { g with shared := g' } ⟨t', ops⟩
  | unlock {g : Guarded γ ι κ Λ} {x : Locker τ Λ} {l : Λ} {ops : List (Op Λ)} : d.Due x (.unlock l :: ops) →
      Act d sys i g x { g with holder := Function.update g.holder l none } { x with rest := ops }

/-- One operation of the others. They hold one lock at a time. -/
inductive Discipline.Outside (d : Discipline τ Λ) (sys : System ι γ τ) :
    Guarded γ ι κ Λ → Guarded γ ι κ Λ → Prop where
  | outside {g : Guarded γ ι κ Λ} {g' : γ} : sys.outside g.shared g' → Outside d sys g { g with shared := g' }
  | lock {g : Guarded γ ι κ Λ} (k : κ) (l : Λ) : d.visits l → g.holder l = none →
      (∀ l', g.holder l' ≠ some (.inr k)) →
      Outside d sys g { g with holder := Function.update g.holder l (some (.inr k)) }
  | unlock {g : Guarded γ ι κ Λ} {k : κ} {l : Λ} : g.holder l = some (.inr k) →
      Outside d sys g { g with holder := Function.update g.holder l none }

/-- The threads, operation by operation. -/
def Discipline.system (d : Discipline τ Λ) (sys : System ι γ τ) (κ : Type) :
    System ι (Guarded γ ι κ Λ) (Locker τ Λ) where
  act := d.Act sys
  outside := d.Outside sys

end

/-! ## The system below -/

section

variable {ι κ Λ γ τ : Type} {d : Discipline τ Λ} {sys : System ι γ τ}
  {s s' : State ι (Guarded γ ι κ Λ) (Locker τ Λ)} {i j : ι}

/-- The state without the locks. -/
def base (s : State ι (Guarded γ ι κ Λ) (Locker τ Λ)) : State ι γ τ where
  shared := s.shared.shared
  threads j := (s.threads j).thread

/-- No lock is held, and no access has begun. -/
def free (κ Λ : Type) (s : State ι γ τ) : State ι (Guarded γ ι κ Λ) (Locker τ Λ) where
  shared := { shared := s.shared, holder := fun _ => none }
  threads j := { thread := s.threads j, rest := [] }

variable [DecidableEq ι]

theorem base_update (g : Guarded γ ι κ Λ) (threads : ι → Locker τ Λ) (i : ι) (x : Locker τ Λ) :
    base ⟨g, Function.update threads i x⟩
      = ⟨g.shared, Function.update (fun j => (threads j).thread) i x.thread⟩ := by
  unfold base
  congr 1
  funext j
  by_cases hj : j = i
  · subst hj
    simp
  · simp [Function.update_of_ne hj]

variable [DecidableEq Λ]

/-- An operation is an access of the system below, or none. -/
theorem base_step (h : Step (d.system sys κ) s s') : Step sys (base s) (base s') ∨ base s' = base s := by
  cases h with
  | act i hact =>
    rw [base_update]
    cases hact with
    | access _ hbase => exact .inl (.act i hbase)
    | lock _ _ => exact .inr (congrArg (State.mk s.shared.shared) (Function.update_eq_self i _))
    | unlock _ => exact .inr (congrArg (State.mk s.shared.shared) (Function.update_eq_self i _))
  | outside hout =>
    cases hout with
    | outside hbase => exact .inl (.outside hbase)
    | lock _ _ _ _ _ => exact .inr rfl
    | unlock _ => exact .inr rfl

/-- **A run under locks is a run of the system below.** -/
theorem runs_base (h : Runs (d.system sys κ) s s') : Runs sys (base s) (base s') := by
  induction h with
  | refl => exact .refl
  | tail _ hstep ih =>
    rcases base_step hstep with hbase | hbase
    · exact ih.tail hbase
    · rw [hbase]
      exact ih

end

/-! ## Ordered locks -/

section

variable {Λ τ : Type}

/-- With the locks of `held`, the latest first, locks are taken downwards, given back in turn, and none is kept. -/
def Ordered (level : Λ → Nat) : List Λ → List (Op Λ) → Prop
  | held, [] => held = []
  | held, .lock l :: ops => (∀ h ∈ held, level l < level h) ∧ Ordered level (l :: held) ops
  | held, .access :: ops => Ordered level held ops
  | [], .unlock _ :: _ => False
  | h :: held, .unlock l :: ops => l = h ∧ Ordered level held ops

/-- Every access is made once, under ordered locks. -/
def Discipline.WellOrdered [DecidableEq Λ] (d : Discipline τ Λ) (level : Λ → Nat) : Prop :=
  ∀ t, ∀ ops ∈ d.plans t, Ordered level [] ops ∧ ops.count .access = 1

end

section

variable {ι κ Λ γ τ : Type} [DecidableEq Λ] {d : Discipline τ Λ} {sys : System ι γ τ} {level : Λ → Nat}
  {g g' : Guarded γ ι κ Λ} {x x' : Locker τ Λ} {s s' : State ι (Guarded γ ι κ Λ) (Locker τ Λ)} {i j : ι}

/-- What a thread holds is what it still gives back, and an access that is left over belongs to a plan. -/
structure LockerOk (d : Discipline τ Λ) (level : Λ → Nat) (i : ι) (g : Guarded γ ι κ Λ) (x : Locker τ Λ) : Prop where
  holds : ∃ held : List Λ, held.Nodup ∧ Ordered level held x.rest ∧ ∀ l, g.holder l = some (.inl i) ↔ l ∈ held
  planned : .access ∈ x.rest → ∃ before, before ++ x.rest ∈ d.plans x.thread

/-- The same of the operations that are due. -/
theorem LockerOk.due (hd : d.WellOrdered level) (h : LockerOk d level i g x) {ops : List (Op Λ)}
    (hdue : d.Due x ops) :
    (∃ held : List Λ, held.Nodup ∧ Ordered level held ops ∧ ∀ l, g.holder l = some (.inl i) ↔ l ∈ held) ∧
      (.access ∈ ops → ∃ before, before ++ ops ∈ d.plans x.thread) := by
  rcases hdue with rfl | ⟨hrest, hplan⟩
  · exact ⟨h.holds, h.planned⟩
  · obtain ⟨held, hnodup, hordered, hholder⟩ := h.holds
    rw [hrest] at hordered
    obtain rfl : held = [] := hordered
    exact ⟨⟨[], hnodup, (hd _ _ hplan).1, hholder⟩, fun _ => ⟨[], hplan⟩⟩

omit [DecidableEq Λ] in
/-- An operation that leaves the access to come. -/
theorem planned_cons {t : τ} {op : Op Λ} {ops : List (Op Λ)}
    (h : .access ∈ op :: ops → ∃ before, before ++ op :: ops ∈ d.plans t) (hmem : .access ∈ ops) :
    ∃ before, before ++ ops ∈ d.plans t := by
  obtain ⟨before, hplan⟩ := h (.tail _ hmem)
  exact ⟨before ++ [op], by simpa using hplan⟩

/-- After the access of a plan there is no other. -/
theorem not_mem_after_access (hd : d.WellOrdered level) {t : τ} {before ops : List (Op Λ)}
    (h : before ++ .access :: ops ∈ d.plans t) : .access ∉ ops := by
  have hcount := (hd t _ h).2
  rw [List.count_append, List.count_cons_self] at hcount
  exact List.count_eq_zero.mp (by omega)

/-- What a thread does, what another one holds is not concerned. -/
theorem holder_update_iff {l₀ : Λ} {h : Option (ι ⊕ κ)} (hold : g.holder l₀ ≠ some (.inl i))
    (hnew : h ≠ some (.inl i)) (l : Λ) :
    Function.update g.holder l₀ h l = some (.inl i) ↔ g.holder l = some (.inl i) := by
  by_cases hl : l = l₀
  · subst hl
    rw [Function.update_self]
    exact iff_of_false hnew hold
  · rw [Function.update_of_ne hl]

theorem LockerOk.update (h : LockerOk d level i g x) {l₀ : Λ} {new : Option (ι ⊕ κ)}
    (hold : g.holder l₀ ≠ some (.inl i)) (hnew : new ≠ some (.inl i)) :
    LockerOk d level i { g with holder := Function.update g.holder l₀ new } x := by
  obtain ⟨held, hnodup, hordered, hholder⟩ := h.holds
  exact ⟨⟨held, hnodup, hordered, fun l => (holder_update_iff hold hnew l).trans (hholder l)⟩, h.planned⟩

theorem LockerOk.act (hd : d.WellOrdered level) (h : LockerOk d level i g x) (hact : d.Act sys i g x g' x') :
    LockerOk d level i g' x' := by
  cases hact with
  | @lock l ops hdue hfree =>
    obtain ⟨⟨held, hnodup, hordered, hholder⟩, hplanned⟩ := h.due hd hdue
    have hl : l ∉ held := by
      rw [← hholder l, hfree]
      exact nofun
    refine ⟨⟨l :: held, List.nodup_cons.mpr ⟨hl, hnodup⟩, hordered.2, ?_⟩, planned_cons hplanned⟩
    intro l'
    by_cases hl' : l' = l
    · subst hl'
      simp
    · simp [hl', hholder]
  | @access _ _ ops hdue _ =>
    obtain ⟨⟨held, hnodup, hordered, hholder⟩, hplanned⟩ := h.due hd hdue
    obtain ⟨before, hplan⟩ := hplanned (.head _)
    exact ⟨⟨held, hnodup, hordered, hholder⟩, fun hmem => absurd hmem (not_mem_after_access hd hplan)⟩
  | @unlock l ops hdue =>
    obtain ⟨⟨held, hnodup, hordered, hholder⟩, hplanned⟩ := h.due hd hdue
    cases held with
    | nil => exact hordered.elim
    | cons l₀ held =>
      obtain ⟨rfl, hrest⟩ := hordered
      obtain ⟨hl, hnodup⟩ := List.nodup_cons.mp hnodup
      refine ⟨⟨held, hnodup, hrest, ?_⟩, planned_cons hplanned⟩
      intro l'
      by_cases hl' : l' = l
      · subst hl'
        simp [hl]
      · simp [hl', hholder]

/-- **Each thread knows what it holds**, whatever the others do. -/
theorem protocol_lockers (hd : d.WellOrdered level) :
    Protocol (d.system sys κ) (fun _ => True) (LockerOk d level) where
  own _ h hact := ⟨trivial, h.act hd hact⟩
  others := by
    intro i j g x g' x' y hij _ h hact hj
    have hne : (some (.inl i) : Option (ι ⊕ κ)) ≠ some (.inl j) := by
      intro heq
      exact hij (Sum.inl.inj (Option.some.inj heq)).symm
    cases hact with
    | lock _ hfree => exact hj.update (by rw [hfree]; exact nofun) hne
    | access _ _ => exact ⟨hj.holds, hj.planned⟩
    | @unlock l ops hdue =>
      obtain ⟨⟨held, _, hordered, hholder⟩, _⟩ := h.due hd hdue
      cases held with
      | nil => exact hordered.elim
      | cons l₀ held =>
        obtain ⟨rfl, _⟩ := hordered
        have hown : g.holder l = some (.inl i) := (hholder l).mpr (.head _)
        exact hj.update (by rw [hown]; exact hne) nofun
  outside := by
    intro g g' _ hout
    refine ⟨trivial, fun i x h => ?_⟩
    cases hout with
    | outside _ => exact ⟨h.holds, h.planned⟩
    | lock k l _ hfree _ => exact h.update (by rw [hfree]; exact nofun) nofun
    | unlock hheld => exact h.update (by rw [hheld]; exact nofun) nofun

omit [DecidableEq Λ] in
theorem lockerOk_free (s : State ι γ τ) (i : ι) :
    LockerOk d level i (free κ Λ s).shared ((free κ Λ s).threads i) :=
  ⟨⟨[], .nil, rfl, fun l => by simp [free]⟩, by simp [free]⟩

/-! ## Waiting -/

/-- A thread waits for whoever holds the lock that it takes next. -/
def Discipline.WaitsFor (d : Discipline τ Λ) (s : State ι (Guarded γ ι κ Λ) (Locker τ Λ)) (u v : ι ⊕ κ) : Prop :=
  ∃ i l ops, u = .inl i ∧ d.Due (s.threads i) (.lock l :: ops) ∧ s.shared.holder l = some v

/-- A thread has an operation to make. Somebody outside who holds a lock waits for nothing. -/
def Discipline.CanGo (d : Discipline τ Λ) (sys : System ι γ τ) (s : State ι (Guarded γ ι κ Λ) (Locker τ Λ)) :
    ι ⊕ κ → Prop
  | .inl i => ∃ g' x', d.Act sys i s.shared (s.threads i) g' x'
  | .inr k => ∃ l, s.shared.holder l = some (.inr k)

/-- One who goes on, at the end of a chain of waiting. -/
def Discipline.Unblocked (d : Discipline τ Λ) (sys : System ι γ τ) (s : State ι (Guarded γ ι κ Λ) (Locker τ Λ))
    (i : ι) : Prop :=
  ∃ u, Relation.ReflTransGen (d.WaitsFor s) (.inl i) u ∧ d.CanGo sys s u

variable (hd : d.WellOrdered level) (hok : ∀ i, LockerOk d level i s.shared (s.threads i))
  (hbase : ∀ i, d.plans (s.threads i).thread ≠ [] → ∃ g' t', sys.act i s.shared.shared (s.threads i).thread g' t')

include hd hok hbase

/-- A thread whose next operation is due. If it waits, its lock is the lower one of two. -/
theorem unblocked_of_due {op : Op Λ} {ops : List (Op Λ)} (hdue : d.Due (s.threads i) (op :: ops))
    (hlock : ∀ l, op = .lock l → d.Unblocked sys s i) : d.Unblocked sys s i := by
  cases op with
  | lock l => exact hlock l rfl
  | access =>
    obtain ⟨_, hplanned⟩ := (hok i).due hd hdue
    obtain ⟨before, hplan⟩ := hplanned (.head _)
    obtain ⟨g', t', hact⟩ := hbase i (List.ne_nil_of_mem hplan)
    exact ⟨.inl i, .refl, _, _, .access hdue hact⟩
  | unlock l => exact ⟨.inl i, .refl, _, _, .unlock hdue⟩

/-- By induction on the level of the lock that a thread waits for: its holder waits for a lower one. -/
theorem unblocked_of_lock (n : Nat) : ∀ {i : ι} {l : Λ} {ops : List (Op Λ)}, level l = n →
    d.Due (s.threads i) (.lock l :: ops) → d.Unblocked sys s i := by
  induction n using Nat.strong_induction_on with
  | _ n ih =>
    intro i l ops hlevel hdue
    cases hholder : s.shared.holder l with
    | none => exact ⟨.inl i, .refl, _, _, .lock hdue hholder⟩
    | some u =>
      have hwaits : d.WaitsFor s (.inl i) u := ⟨i, l, ops, rfl, hdue, hholder⟩
      cases u with
      | inr k => exact ⟨.inr k, .single hwaits, l, hholder⟩
      | inl j =>
        obtain ⟨held, _, hordered, hheld⟩ := (hok j).holds
        have hl : l ∈ held := (hheld l).mp hholder
        suffices d.Unblocked sys s j by
          obtain ⟨u, hchain, hgo⟩ := this
          exact ⟨u, .head hwaits hchain, hgo⟩
        -- the holder has to give the lock back
        cases hrest : (s.threads j).rest with
        | nil =>
          rw [hrest] at hordered
          obtain rfl : held = [] := hordered
          cases hl
        | cons op ops' =>
          have hdue' : d.Due (s.threads j) (op :: ops') := .inl hrest.symm
          refine unblocked_of_due hd hok hbase hdue' ?_
          rintro l' rfl
          rw [hrest] at hordered
          exact ih (level l') (hlevel ▸ hordered.1 l hl) rfl hdue'

/-- **Threads that take their locks downwards do not deadlock.** -/
theorem exists_canGo (i : ι) : d.Finished (s.threads i) ∨ d.Unblocked sys s i := by
  have hgo : ∀ {op : Op Λ} {ops : List (Op Λ)}, d.Due (s.threads i) (op :: ops) → d.Unblocked sys s i := by
    intro op ops hdue
    refine unblocked_of_due hd hok hbase hdue ?_
    rintro l rfl
    exact unblocked_of_lock hd hok hbase _ rfl hdue
  cases hrest : (s.threads i).rest with
  | cons op ops => exact .inr (hgo (.inl hrest.symm))
  | nil =>
    cases hplans : d.plans (s.threads i).thread with
    | nil => exact .inl ⟨hrest, hplans⟩
    | cons plan plans =>
      have hplan : plan ∈ d.plans (s.threads i).thread := by rw [hplans]; exact .head _
      cases plan with
      | nil => exact absurd (hd _ _ hplan).2 (by simp)
      | cons op ops => exact .inr (hgo (.inr ⟨hrest, hplan⟩))

end

/-! ## Winding down -/

section

variable {ι κ Λ γ τ : Type} [DecidableEq Λ] {d : Discipline τ Λ} {sys : System ι γ τ} {level : Λ → Nat}
  {P : γ → Prop} {rank after : τ → Nat}

/-- While `P` holds, an access of rank `rank` leaves `after`, and the operations of its plan make up the difference. -/
structure Costs (d : Discipline τ Λ) (sys : System ι γ τ) (P : γ → Prop) (rank after : τ → Nat) : Prop where
  act : ∀ {i g t g' t'}, P g → sys.act i g t g' t' → P g' ∧ rank t' ≤ after t
  outside : ∀ {g g'}, P g → sys.outside g g' → P g'
  plan : ∀ {t ops}, ops ∈ d.plans t → ops.length + after t ≤ rank t
  after_le : ∀ t, after t ≤ rank t

/-- The operations that thread `t` makes, with these to begin with. -/
def opsRank (rank after : τ → Nat) (t : τ) (ops : List (Op Λ)) : Nat :=
  ops.length + if .access ∈ ops then after t else rank t

theorem opsRank_le_of_due (h : Costs d sys P rank after) (hd : d.WellOrdered level) {x : Locker τ Λ}
    {ops : List (Op Λ)} (hdue : d.Due x ops) :
    opsRank rank after x.thread ops ≤ opsRank rank after x.thread x.rest := by
  rcases hdue with rfl | ⟨hrest, hplan⟩
  · exact le_rfl
  · have hmem : .access ∈ ops := List.count_pos_iff.mp (by rw [(hd _ _ hplan).2]; exact Nat.one_pos)
    have hlen := h.plan hplan
    rw [opsRank, opsRank, if_pos hmem, hrest]
    simpa using hlen

theorem opsRank_lt_cons {t : τ} {op : Op Λ} {ops : List (Op Λ)} (hop : op ≠ .access) :
    opsRank rank after t ops < opsRank rank after t (op :: ops) := by
  have hiff : .access ∈ op :: ops ↔ .access ∈ ops := by simp [hop.symm]
  simp only [opsRank, hiff, List.length_cons]
  omega

/-- **The operations around the accesses are bounded too.** -/
theorem winding_locked (h : Costs d sys P rank after) (hd : d.WellOrdered level) :
    Winding (d.system sys κ) (fun g => P g.shared) (fun x => opsRank rank after x.thread x.rest) where
  act := by
    intro i g x g' x' hP hact
    cases hact with
    | lock hdue _ =>
      refine ⟨hP, lt_of_lt_of_le (opsRank_lt_cons ?_) (opsRank_le_of_due h hd hdue)⟩
      exact nofun
    | unlock hdue =>
      refine ⟨hP, lt_of_lt_of_le (opsRank_lt_cons ?_) (opsRank_le_of_due h hd hdue)⟩
      exact nofun
    | @access g' t' ops hdue hbase =>
      obtain ⟨hP', hrank⟩ := h.act hP hbase
      refine ⟨hP', lt_of_lt_of_le ?_ (opsRank_le_of_due h hd hdue)⟩
      have hafter := h.after_le t'
      show opsRank rank after t' ops < opsRank rank after x.thread (.access :: ops)
      simp only [opsRank, List.mem_cons, true_or, if_true, List.length_cons]
      split <;> omega
  outside := by
    intro g g' hP hout
    cases hout with
    | outside hbase => exact h.outside hP hbase
    | lock _ _ _ _ _ => exact hP
    | unlock _ => exact hP

/-- **A bound on what is left**, also while `P` does not hold. -/
theorem protocol_opsRank (h : Costs d sys P rank after) (hd : d.WellOrdered level) {B : Nat}
    (hact : ∀ {i g t g' t' before ops}, sys.act i g t g' t' → before ++ .access :: ops ∈ d.plans t →
      ops.length + rank t' ≤ B) :
    Protocol (d.system sys κ) (fun _ => True)
      (fun i g x => LockerOk d level i g x ∧ opsRank rank after x.thread x.rest ≤ B) where
  own := by
    rintro i g x g' x' _ ⟨hok, hle⟩ hstep
    refine ⟨trivial, hok.act hd hstep, ?_⟩
    cases hstep with
    | lock hdue _ =>
      refine (opsRank_lt_cons ?_).le.trans ((opsRank_le_of_due h hd hdue).trans hle)
      exact nofun
    | unlock hdue =>
      refine (opsRank_lt_cons ?_).le.trans ((opsRank_le_of_due h hd hdue).trans hle)
      exact nofun
    | @access g' t' ops hdue hbase =>
      obtain ⟨_, hplanned⟩ := hok.due hd hdue
      obtain ⟨before, hplan⟩ := hplanned (.head _)
      have hbound := hact hbase hplan
      rwa [opsRank, if_neg (not_mem_after_access hd hplan)]
  others hij _ h hstep hj := ⟨(protocol_lockers hd).others hij trivial h.1 hstep hj.1, hj.2⟩
  outside _ hout := ⟨trivial, fun i x h => ⟨((protocol_lockers hd).outside trivial hout).2 i x h.1, h.2⟩⟩

variable [DecidableEq ι] {s₀ s : State ι (Guarded γ ι κ Λ) (Locker τ Λ)}

/-- The others give back what they hold. -/
theorem exists_drained {n : Nat} (locks : Finset Λ) : ∀ {s : State ι (Guarded γ ι κ Λ) (Locker τ Λ)},
    RunsIn (d.system sys κ) n s₀ s → (∀ l k, s.shared.holder l = some (.inr k) → l ∈ locks) →
    ∃ s', RunsIn (d.system sys κ) n s₀ s' ∧ s'.threads = s.threads ∧ ∀ l k, s'.shared.holder l ≠ some (.inr k) := by
  induction locks using Finset.induction_on with
  | empty =>
    intro s hruns hlocks
    exact ⟨s, hruns, rfl, fun l k hheld => absurd (hlocks l k hheld) (Finset.notMem_empty l)⟩
  | insert l₀ locks _ ih =>
    intro s hruns hlocks
    by_cases hheld : ∃ k, s.shared.holder l₀ = some (.inr k)
    · obtain ⟨k, hk⟩ := hheld
      let g : Guarded γ ι κ Λ := { s.shared with holder := Function.update s.shared.holder l₀ none }
      refine ih (s := ⟨g, s.threads⟩) (hruns.outside (.unlock hk)) ?_
      intro l k' hl
      by_cases hl₀ : l = l₀
      · subst hl₀
        simp [g] at hl
      · simp only [g, Function.update_of_ne hl₀] at hl
        exact Finset.mem_of_mem_insert_of_ne (hlocks l k' hl) hl₀
    · refine ih hruns ?_
      intro l k hl
      refine Finset.mem_of_mem_insert_of_ne (hlocks l k hl) ?_
      rintro rfl
      exact hheld ⟨k, hl⟩

variable [Fintype ι] [Fintype Λ] {Q : Guarded γ ι κ Λ → Prop} {r : Locker τ Λ → Nat}

/-- **Where nobody deadlocks, winding down ends** with every thread finished. -/
theorem exists_finished (h : Winding (d.system sys κ) Q r) (hQ : Q s.shared)
    (hgo : ∀ s', Runs (d.system sys κ) s s' → ∀ i, d.Finished (s'.threads i) ∨ d.Unblocked sys s' i) :
    ∃ n s', RunsIn (d.system sys κ) n s s' ∧ ∀ i, d.Finished (s'.threads i) := by
  suffices ∀ m n s', RunsIn (d.system sys κ) n s s' → ∑ i, r (s'.threads i) = m →
      ∃ n s', RunsIn (d.system sys κ) n s s' ∧ ∀ i, d.Finished (s'.threads i) from
    this _ 0 s .refl rfl
  intro m
  induction m using Nat.strong_induction_on with
  | _ m ih =>
    rintro n s' hruns rfl
    obtain ⟨s'', hruns', hthreads, hdrained⟩ := exists_drained Finset.univ hruns fun l _ _ => Finset.mem_univ l
    by_cases hend : ∀ i, d.Finished (s''.threads i)
    · exact ⟨n, s'', hruns', hend⟩
    · obtain ⟨i, hi⟩ := not_forall.mp hend
      obtain ⟨u, _, hu⟩ := (hgo s'' hruns'.runs i).resolve_left hi
      cases u with
      | inr k =>
        obtain ⟨l, hl⟩ := hu
        exact absurd hl (hdrained l k)
      | inl j =>
        obtain ⟨g', x', hact⟩ := hu
        obtain ⟨_, hlt⟩ := h.act (h.bounded hQ hruns').1 hact
        refine ih _ ?_ _ _ (hruns'.act j hact) rfl
        rw [sum_update, ← hthreads, ← Finset.add_sum_erase _ _ (Finset.mem_univ j)]
        omega

end

/-! ## Runs of the system below -/

section

variable {ι κ Λ γ τ : Type} [DecidableEq Λ] {d : Discipline τ Λ} {sys : System ι γ τ} {level : Λ → Nat}
  {g g' : γ} {i : ι}

/-- Thread `i` holds the locks of `held`, and nobody holds another. -/
def heldBy (κ : Type) (i : ι) (held : List Λ) : Λ → Option (ι ⊕ κ) := fun l => if l ∈ held then some (.inl i) else none

theorem heldBy_nil : heldBy κ i ([] : List Λ) = fun _ => none := by
  funext l
  simp [heldBy]

theorem update_heldBy_lock (l : Λ) (held : List Λ) :
    Function.update (heldBy κ i held) l (some (.inl i)) = heldBy κ i (l :: held) := by
  funext l'
  by_cases hl : l' = l
  · subst hl
    simp [heldBy]
  · simp [heldBy, hl]

theorem update_heldBy_unlock {l : Λ} {held : List Λ} (h : l ∉ held) :
    Function.update (heldBy κ i (l :: held)) l none = heldBy κ i held := by
  funext l'
  by_cases hl : l' = l
  · subst hl
    simp [heldBy, h]
  · simp [heldBy, hl]

/-- Thread `i` goes on while the others rest. -/
abbrev Alone (d : Discipline τ Λ) (sys : System ι γ τ) (κ : Type) (i : ι) :
    Guarded γ ι κ Λ × Locker τ Λ → Guarded γ ι κ Λ × Locker τ Λ → Prop :=
  Relation.ReflTransGen fun a b => d.Act sys i a.1 a.2 b.1 b.2

/-- It takes and gives back the locks of `ops`, and comes to `rest`. -/
theorem exists_alone (d : Discipline τ Λ) (sys : System ι γ τ) (κ : Type) (i : ι) (g : γ) {ops rest : List (Op Λ)}
    (hnone : .access ∉ ops) : ∀ (x : Locker τ Λ) {held : List Λ}, held.Nodup →
    Ordered level held (ops ++ rest) → d.Due x (ops ++ rest) →
    ∃ (y : Locker τ Λ) (held' : List Λ), Alone d sys κ i (⟨g, heldBy κ i held⟩, x) (⟨g, heldBy κ i held'⟩, y) ∧
      y.thread = x.thread ∧ d.Due y rest ∧ held'.Nodup ∧ Ordered level held' rest := by
  induction ops with
  | nil => exact fun x _ hnodup hordered hdue => ⟨x, _, .refl, rfl, hdue, hnodup, hordered⟩
  | cons op ops ih =>
    intro x held hnodup hordered hdue
    rw [List.mem_cons, not_or] at hnone
    cases op with
    | access => exact absurd rfl hnone.1
    | lock l =>
      have hl : l ∉ held := fun hmem => lt_irrefl _ (hordered.1 l hmem)
      obtain ⟨y, held', hruns, hy⟩ := ih hnone.2 { x with rest := ops ++ rest }
        (List.nodup_cons.mpr ⟨hl, hnodup⟩) hordered.2 (.inl rfl)
      have hstep : d.Act sys i ⟨g, heldBy κ i held⟩ x _ _ := .lock hdue (by simp [heldBy, hl])
      rw [update_heldBy_lock] at hstep
      exact ⟨y, held', .head hstep hruns, hy⟩
    | unlock l =>
      cases held with
      | nil => exact hordered.elim
      | cons l₀ held =>
        obtain ⟨rfl, hordered⟩ := hordered
        obtain ⟨hl, hnodup⟩ := List.nodup_cons.mp hnodup
        obtain ⟨y, held', hruns, hy⟩ := ih hnone.2 { x with rest := ops ++ rest } hnodup hordered (.inl rfl)
        have hstep : d.Act sys i ⟨g, heldBy κ i (l :: held)⟩ x _ _ := .unlock hdue
        rw [update_heldBy_unlock hl] at hstep
        exact ⟨y, held', .head hstep hruns, hy⟩

/-- It makes a whole access. -/
theorem alone_of_act (hd : d.WellOrdered level) {t t' : τ} (hact : sys.act i g t g' t') (hplans : d.plans t ≠ []) :
    Alone d sys κ i (⟨g, fun _ => none⟩, ⟨t, []⟩) (⟨g', fun _ => none⟩, ⟨t', []⟩) := by
  obtain ⟨plan, hplan⟩ := List.exists_mem_of_ne_nil _ hplans
  obtain ⟨hordered, hcount⟩ := hd t plan hplan
  obtain ⟨before, after, rfl, hbefore⟩ : ∃ before after, plan = before ++ .access :: after ∧ .access ∉ before :=
    List.eq_append_cons_of_mem (List.count_pos_iff.mp (by rw [hcount]; exact Nat.one_pos))
  have hafter := not_mem_after_access hd hplan
  obtain ⟨⟨_, rest⟩, held, hfirst, rfl, hdue, hnodup, hordered⟩ :=
    exists_alone d sys κ i g hbefore ⟨t, []⟩ .nil hordered (.inr ⟨rfl, hplan⟩)
  have hordered' : Ordered level held (after ++ []) := by
    rw [List.append_nil]
    exact hordered
  obtain ⟨⟨_, rest'⟩, held', hlast, rfl, hend, _, hnone⟩ :=
    exists_alone d sys κ i g' hafter ⟨t', after⟩ hnodup hordered' (.inl (List.append_nil after))
  obtain rfl : held' = [] := hnone
  obtain rfl : rest' = [] := by
    rcases hend with hend | ⟨hend, _⟩
    · exact hend.symm
    · exact hend
  rw [heldBy_nil] at hfirst hlast
  exact (hfirst.tail (.access hdue hact)).trans hlast

variable [DecidableEq ι]

/-- **Every run of the system below is a run under locks.** -/
theorem runs_lift (hd : d.WellOrdered level) (hplans : ∀ {i g t g' t'}, sys.act i g t g' t' → d.plans t ≠ [])
    {s s' : State ι γ τ} (h : Runs sys s s') : Runs (d.system sys κ) (free κ Λ s) (free κ Λ s') := by
  induction h with
  | refl => exact .refl
  | @tail s₁ s₂ _ hstep ih =>
    refine ih.trans ?_
    cases hstep with
    | @act i g' t' hact =>
      have halone : Relation.ReflTransGen (fun a b => (d.system sys κ).act i a.1 a.2 b.1 b.2)
          ((free κ Λ s₁).shared, (free κ Λ s₁).threads i) (⟨g', fun _ => none⟩, ⟨t', []⟩) :=
        alone_of_act hd hact (hplans hact)
      have hfree : free κ Λ ⟨g', Function.update s₁.threads i t'⟩
          = ⟨⟨g', fun _ => none⟩, Function.update (free κ Λ s₁).threads i ⟨t', []⟩⟩ := by
        unfold free
        congr 1
        funext j
        by_cases hj : j = i
        · subst hj
          simp
        · simp [Function.update_of_ne hj]
      rw [hfree]
      exact runs_solo i halone
    | outside hout => exact .single (.outside (.outside hout))

end

end Locking
end MinerTim
