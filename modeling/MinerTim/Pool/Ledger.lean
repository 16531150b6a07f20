import MinerTim.Pool.Session

/-!
# `Pool.Ledger` — every found share is counted once

A share that is found is in exactly one place: it is counted, or it waits for an answer, or a thread has it
in hand (`Balanced`). Each step moves a share from one place to the next, so the places together always
hold the shares `0 … found - 1`, each once.

An entry is inserted under a request id that no other entry has (`FreshIds`), since ids are drawn from one
counter that is never reset.
-/

namespace MinerTim
namespace Pool

open Transition

variable {n : Nat} {st st' : State n}

/-! ## Who has a share in hand -/

/-- The share that a worker has found and that is neither counted nor waiting for an answer. -/
def WorkerPc.inHand : WorkerPc → Multiset Nat
  | .found share | .entered share | .session share _ | .requesting share _ _ | .locked share _ _
  | .written share _ _ | .refused share => {share.id}
  | _ => 0

/-- The shares that the receiver has removed and not counted. -/
def ReceiverPc.inHand : ReceiverPc → Multiset Nat
  | .counting share _ _ => {share.id}
  | .countLost _ shares => ↑(shares.map Share.id)
  | _ => 0

/-- The request id that a worker has drawn and not registered. -/
def WorkerPc.rpc : WorkerPc → Option Nat
  | .requesting _ _ rpcId | .locked _ _ rpcId | .written _ rpcId _ => some rpcId
  | _ => none

namespace State

/-- The shares that are counted. -/
def countedIds (st : State n) : Multiset Nat := ↑(st.counted.map Prod.fst)

/-- The shares that wait for an answer. -/
def pendingIds (st : State n) : Multiset Nat := ↑(st.pendingShares.shares.map Share.id)

/-- The shares that workers have in hand. -/
def workerIds (st : State n) : Multiset Nat := ∑ i, (st.workers i).inHand

end State

/-- Every found share is in exactly one place, and every counter is the number of shares counted in it. -/
structure Balanced (st : State n) : Prop where
  places : st.countedIds + st.pendingIds + st.workerIds + st.receiver.inHand
    = Multiset.range st.found
  counters : ∀ fate, st.counters.get fate = (st.counted.map Prod.snd).count fate

/-- Request ids are drawn once. -/
structure FreshIds (st : State n) : Prop where
  pending : ∀ k ∈ st.pendingShares, k < st.requestId
  drawn : ∀ i k, (st.workers i).rpc = some k → k < st.requestId ∧ k ∉ st.pendingShares
  unique : ∀ i j k, (st.workers i).rpc = some k → (st.workers j).rpc = some k → i = j

/-! ## What moves a share -/

@[simp] theorem workers_setWorker (i j : Fin n) (pc : WorkerPc) :
    (st.setWorker i pc).workers j = if j = i then pc else st.workers j :=
  Function.update_apply ..

/-- One worker's part of a sum over the workers changes. -/
theorem sum_setWorker {M : Type} [AddCommMonoid M] (f : WorkerPc → M) (st : State n) (i : Fin n)
    (pc : WorkerPc) :
    (∑ j, f ((st.setWorker i pc).workers j)) + f (st.workers i) = (∑ j, f (st.workers j)) + f pc := by
  have hsplit : ∀ g : Fin n → M, ∑ j, g j = g i + ∑ j ∈ Finset.univ.erase i, g j :=
    fun g => (Finset.add_sum_erase _ g (Finset.mem_univ i)).symm
  have hrest : ∑ j ∈ Finset.univ.erase i, f ((st.setWorker i pc).workers j)
      = ∑ j ∈ Finset.univ.erase i, f (st.workers j) := by
    refine Finset.sum_congr rfl fun j hj => ?_
    rw [workers_setWorker, if_neg (Finset.ne_of_mem_erase hj)]
  rw [hsplit, hsplit fun j => f (st.workers j), hrest, workers_setWorker, if_pos rfl]
  abel

/-- A worker's share moves, and no other's. -/
theorem workerIds_setWorker (st : State n) (i : Fin n) (pc : WorkerPc) :
    (st.setWorker i pc).workerIds + (st.workers i).inHand = st.workerIds + pc.inHand :=
  sum_setWorker WorkerPc.inHand st i pc

/-- An entry that is removed leaves the others. -/
theorem shares_erase {pending : PendingShares} {rpcId : Nat} {entry : PendingShare}
    (h : pending.lookup rpcId = some entry) :
    (↑(pending.shares.map Share.id) : Multiset Nat)
      = entry.share.id ::ₘ ↑((PendingShares.shares (pending.erase rpcId)).map Share.id) := by
  have hmem : rpcId ∈ pending.entries.keys :=
    AList.mem_keys.mp (AList.lookup_isSome.mp (by rw [h]; rfl))
  obtain ⟨e, l₁, l₂, hnot, hsplit, herase⟩ := List.exists_of_kerase hmem
  have hentry : e = entry := by
    have hlook := AList.mem_lookup_iff.mpr (show (⟨rpcId, e⟩ : Sigma _) ∈ pending.entries by simp [hsplit])
    exact Option.some.inj ((Option.mem_def.mp hlook).symm.trans h)
  subst hentry
  have hrest : (pending.erase rpcId).entries = l₁ ++ l₂ := herase
  unfold PendingShares.shares
  rw [hrest, hsplit]
  simp only [List.map_append, List.map_cons, ← Multiset.coe_add, ← Multiset.cons_coe,
    Multiset.add_cons]

/-- Counting moves one counter by one. -/
theorem get_bump (c : Counters) (fate fate' : Fate) :
    (c.bump fate).get fate' = c.get fate' + if fate' = fate then 1 else 0 := by
  cases fate <;> cases fate' <;> rfl

theorem total_eq (c : Counters) :
    c.total = c.get .verifyFailure + c.get .accepted + c.get .rejected + c.get .lost + c.get .unsent :=
  rfl

/-- The counters of a log are those before, with one more. -/
theorem Balanced.counters_count (h : Balanced st) (share : Share) (fate fate' : Fate) :
    (st.count share fate).counters.get fate' = ((st.count share fate).counted.map Prod.snd).count fate' := by
  simp only [State.count, get_bump, h.counters fate', List.map_cons, List.count_cons]
  by_cases hfate : fate' = fate
  · simp [hfate]
  · simp [hfate, Ne.symm hfate]

/-! ## Frames -/

/-- Nothing that the ledger reads is changed; request ids may be drawn. -/
structure SameLedger (st st' : State n) : Prop where
  counted : st'.counted = st.counted
  counters : st'.counters = st.counters
  pending : st'.pendingShares = st.pendingShares
  found : st'.found = st.found
  workers : st'.workers = st.workers
  receiver : st'.receiver.inHand = st.receiver.inHand
  requestId : st.requestId ≤ st'.requestId

theorem Balanced.frame (h : Balanced st) (hsame : SameLedger st st') : Balanced st' := by
  constructor
  · unfold State.countedIds State.pendingIds State.workerIds
    rw [hsame.counted, hsame.pending, hsame.workers, hsame.receiver, hsame.found]
    exact h.places
  · rw [hsame.counters, hsame.counted]
    exact h.counters

theorem FreshIds.frame (h : FreshIds st) (hworkers : st'.workers = st.workers)
    (hpending : ∀ k ∈ st'.pendingShares, k ∈ st.pendingShares)
    (hrequest : st.requestId ≤ st'.requestId) : FreshIds st' := by
  constructor
  · intro k hk
    exact Nat.lt_of_lt_of_le (h.pending k (hpending k hk)) hrequest
  · intro i k hk
    rw [hworkers] at hk
    obtain ⟨hlt, hnot⟩ := h.drawn i k hk
    exact ⟨Nat.lt_of_lt_of_le hlt hrequest, fun hmem => hnot (hpending k hmem)⟩
  · rw [hworkers]
    exact h.unique

theorem ledger_frame (h : Balanced st) (hf : FreshIds st) (hsame : SameLedger st st') :
    Balanced st' ∧ FreshIds st' :=
  ⟨h.frame hsame, hf.frame hsame.workers (fun _ hk => hsame.pending ▸ hk) hsame.requestId⟩

/-- A worker moves on with the share it has. -/
theorem Balanced.setWorker (h : Balanced st) {i : Fin n} {pc : WorkerPc}
    (hhand : pc.inHand = (st.workers i).inHand) : Balanced (st.setWorker i pc) := by
  have hsame : (st.setWorker i pc).workerIds = st.workerIds := by
    have hmove := workerIds_setWorker st i pc
    rw [hhand] at hmove
    exact add_right_cancel hmove
  constructor
  · have := h.places
    rw [← hsame] at this
    exact this
  · exact h.counters

/-- A worker moves on with the request id it has, or with none. -/
theorem FreshIds.setWorker (h : FreshIds st) {i : Fin n} {pc : WorkerPc}
    (hrpc : ∀ k, pc.rpc = some k → (st.workers i).rpc = some k) : FreshIds (st.setWorker i pc) := by
  have hback : ∀ j k, ((st.setWorker i pc).workers j).rpc = some k → (st.workers j).rpc = some k := by
    intro j k hk
    rw [workers_setWorker] at hk
    split at hk
    next hji =>
      rw [hji]
      exact hrpc k hk
    · exact hk
  constructor
  · exact h.pending
  · intro j k hk
    exact h.drawn j k (hback j k hk)
  · intro j j' k hk hk'
    exact h.unique j j' k (hback j k hk) (hback j' k hk')

/-- A worker counts the share it has. -/
theorem Balanced.count_setWorker (h : Balanced st) {i : Fin n} {pc : WorkerPc} {share : Share}
    (hhad : (st.workers i).inHand = {share.id}) (hhas : pc.inHand = 0) (fate : Fate) :
    Balanced ((st.count share fate).setWorker i pc) := by
  constructor
  · have hmove := workerIds_setWorker (st.count share fate) i pc
    have hcount : ((st.count share fate).setWorker i pc).countedIds = {share.id} + st.countedIds := rfl
    have hplaces := h.places
    have hids : (st.count share fate).workerIds = st.workerIds := rfl
    rw [hhas, add_zero, hids, show (st.count share fate).workers i = st.workers i from rfl,
      hhad] at hmove
    rw [hcount]
    calc {share.id} + st.countedIds + st.pendingIds
          + ((st.count share fate).setWorker i pc).workerIds + st.receiver.inHand
        = st.countedIds + st.pendingIds
          + (((st.count share fate).setWorker i pc).workerIds + {share.id}) + st.receiver.inHand := by
          abel
      _ = Multiset.range st.found := by rw [hmove, hplaces]
  · intro fate'
    exact h.counters_count share fate fate'

/-- The receiver counts a share it has. -/
theorem Balanced.count_setReceiver (h : Balanced st) {pc : ReceiverPc} {share : Share}
    (hhad : st.receiver.inHand = share.id ::ₘ pc.inHand) (fate : Fate) :
    Balanced ((st.count share fate).setReceiver pc) := by
  constructor
  · have hplaces := h.places
    rw [hhad, ← Multiset.singleton_add] at hplaces
    have hcount : ((st.count share fate).setReceiver pc).countedIds = {share.id} + st.countedIds := rfl
    rw [hcount]
    calc {share.id} + st.countedIds + st.pendingIds + st.workerIds + pc.inHand
        = st.countedIds + st.pendingIds + st.workerIds + ({share.id} + pc.inHand) := by abel
      _ = Multiset.range st.found := hplaces
  · intro fate'
    exact h.counters_count share fate fate'

/-- A request id that is drawn is new. -/
theorem FreshIds.draw (h : FreshIds st) (i : Fin n) (share : Share) (sid : String) :
    FreshIds ({ st with requestId := st.requestId + 1 }.setWorker i
      (.requesting share sid st.requestId)) := by
  have hother : ∀ j k, (({ st with requestId := st.requestId + 1 }.setWorker i
      (.requesting share sid st.requestId)).workers j).rpc = some k →
      (j = i ∧ k = st.requestId) ∨ (j ≠ i ∧ (st.workers j).rpc = some k) := by
    intro j k hk
    rw [workers_setWorker] at hk
    split at hk
    next hji => exact .inl ⟨hji, (Option.some.inj hk).symm⟩
    next hji => exact .inr ⟨hji, hk⟩
  constructor
  · intro k hk
    exact Nat.lt_succ_of_lt (h.pending k hk)
  · intro j k hk
    rcases hother j k hk with ⟨_, rfl⟩ | ⟨_, hold⟩
    · exact ⟨Nat.lt_succ_self _, fun hmem => Nat.lt_irrefl _ (h.pending _ hmem)⟩
    · obtain ⟨hlt, hnot⟩ := h.drawn j k hold
      exact ⟨Nat.lt_succ_of_lt hlt, hnot⟩
  · intro j j' k hk hk'
    rcases hother j k hk with ⟨rfl, rfl⟩ | ⟨_, hold⟩ <;>
      rcases hother j' _ hk' with ⟨hji, hki⟩ | ⟨_, hold'⟩
    · exact hji.symm
    · exact absurd (h.drawn j' _ hold').1 (Nat.lt_irrefl _)
    · exact absurd (h.drawn j _ (hki ▸ hold)).1 (Nat.lt_irrefl _)
    · exact h.unique j j' k hold hold'

/-- An entry is inserted under the id that its worker has drawn: it replaces no other. -/
theorem ledger_insert {i : Fin n} {share : Share} {rpcId conn : Nat} (h : Balanced st)
    (hf : FreshIds st) (hpc : st.workers i = .written share rpcId conn) :
    Balanced ({ st with pendingShares :=
        st.pendingShares.insert rpcId { share, conn } }.setWorker i .registered) ∧
      FreshIds ({ st with pendingShares :=
        st.pendingShares.insert rpcId { share, conn } }.setWorker i .registered) := by
  obtain ⟨hlt, hnot⟩ := hf.drawn i rpcId (by rw [hpc]; rfl)
  have hentries : (st.pendingShares.insert rpcId { share, conn }).entries
      = ⟨rpcId, { share, conn }⟩ :: st.pendingShares.entries := AList.entries_insert_of_notMem hnot
  set mid : State n :=
    { st with pendingShares := st.pendingShares.insert rpcId { share, conn } } with hmid
  have hpending : mid.pendingIds = {share.id} + st.pendingIds := by
    unfold State.pendingIds PendingShares.shares
    rw [hmid, hentries]
    rfl
  -- the share moves from the worker to the pending shares; an id that is drawn is not among them yet
  constructor
  · constructor
    · have hmove := workerIds_setWorker mid i .registered
      rw [show mid.workers i = st.workers i from rfl, hpc] at hmove
      have hplaces := h.places
      calc st.countedIds + mid.pendingIds + (mid.setWorker i .registered).workerIds
            + st.receiver.inHand
          = st.countedIds + st.pendingIds
            + ((mid.setWorker i .registered).workerIds + {share.id}) + st.receiver.inHand := by
            rw [hpending]
            abel
        _ = st.countedIds + st.pendingIds + st.workerIds + st.receiver.inHand := by
            rw [show (mid.setWorker i .registered).workerIds + {share.id} = mid.workerIds + 0
              from hmove, add_zero, show mid.workerIds = st.workerIds from rfl]
        _ = Multiset.range st.found := hplaces
    · exact h.counters
  · have hback : ∀ j k, ((mid.setWorker i .registered).workers j).rpc = some k →
        j ≠ i ∧ (st.workers j).rpc = some k := by
      intro j k hk
      rw [workers_setWorker] at hk
      split at hk
      · cases hk
      next hji => exact ⟨hji, hk⟩
    constructor
    · intro k hk
      rcases AList.mem_insert _ |>.mp hk with rfl | hold
      · exact hlt
      · exact hf.pending k hold
    · intro j k hk
      obtain ⟨hji, hold⟩ := hback j k hk
      obtain ⟨hltk, hnotk⟩ := hf.drawn j k hold
      refine ⟨hltk, fun hmem => ?_⟩
      rcases AList.mem_insert _ |>.mp hmem with rfl | hmem'
      · exact hji (hf.unique j i k hold (by rw [hpc]; rfl))
      · exact hnotk hmem'
    · intro j j' k hk hk'
      exact hf.unique j j' k (hback j k hk).2 (hback j' k hk').2

/-! ## Steps -/

/-- A worker moves on with what it has. -/
theorem ledger_move (h : Balanced st) (hf : FreshIds st) {i : Fin n} {pc : WorkerPc}
    (hsame : SameLedger st st') (hhand : pc.inHand = (st.workers i).inHand)
    (hrpc : ∀ k, pc.rpc = some k → (st.workers i).rpc = some k) :
    Balanced (st'.setWorker i pc) ∧ FreshIds (st'.setWorker i pc) := by
  obtain ⟨h', hf'⟩ := ledger_frame h hf hsame
  rw [← hsame.workers] at hhand hrpc
  exact ⟨h'.setWorker hhand, hf'.setWorker hrpc⟩

/-- A worker counts what it has. -/
theorem ledger_count (h : Balanced st) (hf : FreshIds st) {i : Fin n} {pc : WorkerPc} {share : Share}
    (hhad : (st.workers i).inHand = {share.id}) (hhas : pc.inHand = 0) (hrpc : pc.rpc = none)
    (fate : Fate) :
    Balanced ((st.count share fate).setWorker i pc) ∧
      FreshIds ((st.count share fate).setWorker i pc) := by
  have hf' : FreshIds (st.count share fate) := hf.frame rfl (fun _ hk => hk) le_rfl
  refine ⟨h.count_setWorker hhad hhas fate, hf'.setWorker ?_⟩
  intro k hk
  rw [hrpc] at hk
  cases hk

/-- What a step of a worker preserves. -/
theorem ledger_worker {i : Fin n} (h : Balanced st) (hf : FreshIds st) (hs : WorkerMove st i st') :
    Balanced st' ∧ FreshIds st' := by
  have hsame : SameLedger st st := ⟨rfl, rfl, rfl, rfl, rfl, rfl, le_rfl⟩
  cases hs with
  | getWork hpc => exact ledger_move h hf hsame (by rw [hpc]; rfl) nofun
  | @find job nonce result hpc =>
    -- the share is numbered `found`, and is in the worker's hand
    refine ⟨⟨?_, h.counters⟩, ?_⟩
    · have hmove := workerIds_setWorker { st with found := st.found + 1 } i
        (.found { id := st.found, job, nonce, result })
      rw [show ({ st with found := st.found + 1 } : State n).workers i = .mining (some job) from hpc]
        at hmove
      have hplaces := h.places
      show st.countedIds + st.pendingIds + State.workerIds _ + st.receiver.inHand
        = Multiset.range (st.found + 1)
      rw [Multiset.range_succ, ← hplaces, ← Multiset.singleton_add,
        show State.workerIds _ = _ from (add_zero _).symm.trans hmove]
      show st.countedIds + st.pendingIds + (st.workerIds + {st.found}) + st.receiver.inHand = _
      abel
    · exact @FreshIds.setWorker n { st with found := st.found + 1 }
        (hf.frame rfl (fun _ hk => hk) le_rfl) i _ nofun
  | withhold hpc => exact ledger_count h hf (by rw [hpc]; rfl) rfl rfl _
  | submit hpc =>
    exact ledger_move h hf ⟨rfl, rfl, rfl, rfl, rfl, rfl, le_rfl⟩ (by rw [hpc]; rfl) nofun
  | readSession hpc => exact ledger_move h hf hsame (by rw [hpc]; rfl) nofun
  | @nextRequestId share sid hpc =>
    have hdrawn : SameLedger st { st with requestId := st.requestId + 1 } :=
      ⟨rfl, rfl, rfl, rfl, rfl, rfl, Nat.le_succ _⟩
    refine ⟨(h.frame hdrawn).setWorker ?_, hf.draw i share sid⟩
    show _ = (st.workers i).inHand
    rw [hpc]
    rfl
  | lock hpc =>
    refine ledger_move h hf ⟨rfl, rfl, rfl, rfl, rfl, rfl, le_rfl⟩ (by rw [hpc]; rfl) ?_
    rw [hpc]
    exact fun _ hk => hk
  | refuse hpc =>
    exact ledger_move h hf ⟨rfl, rfl, rfl, rfl, rfl, rfl, le_rfl⟩ (by rw [hpc]; rfl) nofun
  | write hpc =>
    refine ledger_move h hf ⟨rfl, rfl, rfl, rfl, rfl, rfl, le_rfl⟩ (by rw [hpc]; rfl) ?_
    rw [hpc]
    exact fun _ hk => hk
  | writeFails hpc =>
    exact ledger_move h hf ⟨rfl, rfl, rfl, rfl, rfl, rfl, le_rfl⟩ (by rw [hpc]; rfl) nofun
  | insert hpc => exact ledger_insert h hf hpc
  | unlock hpc =>
    exact ledger_move h hf ⟨rfl, rfl, rfl, rfl, rfl, rfl, le_rfl⟩ (by rw [hpc]; rfl) nofun
  | countUnsent hpc => exact ledger_count h hf (by rw [hpc]; rfl) rfl rfl _
  | leave hpc =>
    exact ledger_move h hf ⟨rfl, rfl, rfl, rfl, rfl, rfl, le_rfl⟩ (by rw [hpc]; rfl) nofun

/-- What a step of the receiver preserves. -/
theorem ledger_receiver {decode : List Byte → Option Json} (h : Balanced st) (hf : FreshIds st)
    (hs : ReceiverMove decode st st') : Balanced st' ∧ FreshIds st' := by
  cases hs with
  | @remove msg lines rpcId entry hpc hentry =>
    -- an entry is removed: its share goes to the receiver's hand
    refine ⟨⟨?_, h.counters⟩, hf.frame rfl (fun k hk => (AList.mem_erase.mp hk).2) le_rfl⟩
    have hplaces := h.places
    have herase : st.pendingIds = entry.share.id ::ₘ _ := shares_erase hentry
    rw [hpc, herase] at hplaces
    refine Eq.trans ?_ hplaces
    show st.countedIds + ↑((PendingShares.shares (st.pendingShares.erase rpcId)).map Share.id)
      + st.workerIds + {entry.share.id} = _
    rw [← Multiset.singleton_add]
    show _ = _ + _ + _ + (0 : Multiset Nat)
    abel
  | @count share fate lines hpc =>
    exact ⟨h.count_setReceiver (by rw [hpc]; rfl) fate, hf.frame rfl (fun _ hk => hk) le_rfl⟩
  | @drain task hpc =>
    -- all entries are removed
    refine ⟨⟨?_, h.counters⟩, hf.frame rfl (fun k hk => absurd hk (AList.notMem_empty k)) le_rfl⟩
    have hplaces := h.places
    rw [hpc] at hplaces
    refine Eq.trans ?_ hplaces
    show st.countedIds + 0 + st.workerIds + st.pendingIds = st.countedIds + st.pendingIds
      + st.workerIds + 0
    abel
  | countLost hpc =>
    exact ⟨h.count_setReceiver (by rw [hpc]; rfl) .lost, hf.frame rfl (fun _ hk => hk) le_rfl⟩
  | keepalive =>
    exact ledger_frame h hf ⟨rfl, rfl, rfl, rfl, rfl, rfl, Nat.le_succ _⟩
  | keepaliveFails hpc | login hpc | refused hpc | unanswered hpc =>
    -- a request id is drawn
    exact ledger_frame h hf ⟨rfl, rfl, rfl, rfl, rfl, by rw [hpc]; rfl, Nat.le_succ _⟩
  | read hpc | overflow hpc | lose hpc | readInFlight hpc | rotate hpc | defer hpc | handled hpc
  | unparsed hpc | job hpc | unmatched hpc | clearJob hpc | clearStream hpc | drained hpc | giveUp hpc
  | connect hpc | connectFails hpc | unconnected hpc | setSession hpc | setJob hpc | loggedIn hpc
  | startFails hpc | retry hpc | reloginFails hpc =>
    exact ledger_frame h hf ⟨rfl, rfl, rfl, rfl, rfl, by rw [hpc]; rfl, le_rfl⟩

theorem ledger_init : Balanced (State.init n) ∧ FreshIds (State.init n) := by
  refine ⟨⟨?_, ?_⟩, ⟨?_, nofun, nofun⟩⟩
  · simp [State.init, State.countedIds, State.pendingIds, State.workerIds, PendingShares.shares,
      WorkerPc.inHand, ReceiverPc.inHand]
  · intro fate
    cases fate <;> rfl
  · intro k hk
    exact absurd hk (AList.notMem_empty k)

/-- **The ledger holds in every reachable state.** -/
theorem ledger_reachable {decode : List Byte → Option Json}
    (h : Reachable (step decode) (.init n) st) : Balanced st ∧ FreshIds st := by
  refine h.invariant (P := fun s => Balanced s ∧ FreshIds s) ledger_init ?_
  rintro s (⟨i, a⟩ | ⟨a⟩) s' ⟨hb, hf⟩ hs
  · exact ledger_worker hb hf (workerMove_of_step hs)
  · exact ledger_receiver hb hf (receiverMove_of_step hs)

/-! ## The identity -/

/-- No worker is between counting a share as found and the end of its verdict or submission. -/
def State.WorkersMining (st : State n) : Prop := ∀ i, ∃ job, st.workers i = .mining job

theorem count_fates (l : List Fate) :
    l.count .verifyFailure + l.count .accepted + l.count .rejected + l.count .lost + l.count .unsent
      = l.length := by
  induction l with
  | nil => rfl
  | cons fate l ih =>
    cases fate <;> simp only [List.count_cons, List.length_cons, ← ih] <;> simp <;> omega

/-- All counters together count the log. -/
theorem Balanced.total (h : Balanced st) : st.counters.total = st.counted.length := by
  rw [total_eq, h.counters, h.counters, h.counters, h.counters, h.counters, count_fates,
    List.length_map]

/-- **Every found share is counted exactly once.** In every reachable state, for any number of workers:

* each share found so far is in exactly one place: counted, pending, or in a thread's hand;
* no share is in two counters, and every counter is the number of shares counted in it;
* when no worker and not the receiver has a share in hand, the counters and the pending shares add up to
  the shares found;
* when the receiver is between its steps, every pending entry is on the installed connection. -/
theorem share_ledger {decode : List Byte → Option Json}
    (h : Reachable (step decode) (.init n) st) :
    st.countedIds + st.pendingIds + st.workerIds + st.receiver.inHand = Multiset.range st.found ∧
    ((st.counted.map Prod.fst).Nodup ∧
      ∀ fate, st.counters.get fate = (st.counted.map Prod.snd).count fate) ∧
    (st.WorkersMining → st.receiver.inHand = 0 →
      st.found = st.counters.verifyFailures + st.counters.accepted + st.counters.rejected
        + st.counters.lost + st.counters.unsent + st.pendingShares.entries.length) ∧
    (st.receiver = .ready → ∀ rpcId entry, st.pendingShares.lookup rpcId = some entry →
      st.stream = some entry.conn) := by
  obtain ⟨hbal, _⟩ := ledger_reachable h
  refine ⟨hbal.places, ⟨?_, hbal.counters⟩, ?_, ?_⟩
  · have hle : st.countedIds ≤ Multiset.range st.found := by
      rw [← hbal.places, add_assoc, add_assoc]
      exact Multiset.le_add_right _ _
    exact Multiset.coe_nodup.mp (Multiset.nodup_of_le hle (Multiset.nodup_range _))
  · intro hmining hhand
    have hworkers : st.workerIds = 0 := by
      refine Finset.sum_eq_zero fun i _ => ?_
      obtain ⟨job, hjob⟩ := hmining i
      rw [hjob]
      rfl
    have hcard := congrArg Multiset.card hbal.places
    rw [hworkers, hhand, add_zero, add_zero, Multiset.card_add, Multiset.card_range] at hcard
    have htotal := hbal.total
    unfold Counters.total at htotal
    unfold State.countedIds State.pendingIds PendingShares.shares at hcard
    simp only [Multiset.coe_card, List.length_map] at hcard
    rw [htotal, ← hcard]
  · intro hready rpcId entry hentry
    exact (session_reachable h).pending_stream (by simp [hready]) hentry

/-- A line that answers the request of the sample run. -/
def sampleDecode (_ : List Byte) : Option Json :=
  some (.obj [("id", .num (some 2)), ("result", .obj [("status", .str "OK")])])

/-- The sample run up to the end of `submit_share`, and then the reply. -/
def sampleReply : List (Action 1) :=
  sampleRun ++ ([.worker soleWorker .insert, .worker soleWorker .unlock, .worker soleWorker .leave,
    .receiver (.read [10]), .receiver .next, .receiver .next] : List (Action 1))

/-- While the receiver has removed an entry and not counted it, the identity is off by one, although no
    worker is at work on a share. -/
theorem ledger_off_by_one : ∃ st : State 1, Reachable (step sampleDecode) (.init 1) st ∧
    st.WorkersMining ∧ st.found = 1 ∧ st.counters.verifyFailures + st.counters.accepted
      + st.counters.rejected + st.counters.lost + st.counters.unsent
      + st.pendingShares.entries.length = 0 := by
  obtain ⟨st, hrun, hmining, hfound, hsum⟩ : ∃ st : State 1,
      runs (step sampleDecode) (State.init 1) sampleReply = some st ∧ (∃ job, st.workers 0 = .mining job) ∧
      st.found = 1 ∧ st.counters.verifyFailures + st.counters.accepted + st.counters.rejected
        + st.counters.lost + st.counters.unsent + st.pendingShares.entries.length = 0 :=
    ⟨_, rfl, ⟨_, rfl⟩, rfl, rfl⟩
  refine ⟨st, .of_runs .refl hrun, ?_, hfound, hsum⟩
  intro i
  obtain rfl : i = 0 := Subsingleton.elim i 0
  exact hmining

/-- After the reply is counted, the identity holds again. -/
theorem share_ledger_sample : ∃ st : State 1,
    runs (step sampleDecode) (State.init 1) (sampleReply ++ [.receiver .next]) = some st ∧
      st.counters.accepted = 1 ∧
      st.found = st.counters.verifyFailures + st.counters.accepted + st.counters.rejected
        + st.counters.lost + st.counters.unsent + st.pendingShares.entries.length := by
  obtain ⟨st, hrun, hmining, haccepted, hhand⟩ : ∃ st : State 1,
      runs (step sampleDecode) (State.init 1) (sampleReply ++ [.receiver .next]) = some st ∧
      (∃ job, st.workers 0 = .mining job) ∧ st.counters.accepted = 1 ∧ st.receiver.inHand = 0 :=
    ⟨_, rfl, ⟨_, rfl⟩, rfl, rfl⟩
  have hworkers : st.WorkersMining := by
    intro i
    obtain rfl : i = 0 := Subsingleton.elim i 0
    exact hmining
  exact ⟨st, hrun, haccepted, (share_ledger (.of_runs .refl hrun)).2.2.1 hworkers hhand⟩

end Pool
end MinerTim
