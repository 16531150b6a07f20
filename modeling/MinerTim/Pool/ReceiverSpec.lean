import MinerTim.Pool.ReceiverLoop
import MinerTim.Pool.Session

/-!
# `Pool.ReceiverSpec` — wallets, deferrals and connection epochs of the receiver

`LoopMove` lists what a step of the receiver can do. Three invariants are proved by cases on it:

* `Wallets`: the wallet that a reconnect uses is the active beneficiary's, and the user's wallet is the one
  captured on first login;
* `Deferral`: `rotation_wait_since` holds the first deferral of the current episode, and nothing else;
* `Epoch`: wherever the receiver reads or looks at its timers with a stream installed, the unfinished line is
  of that stream and `last_recv` is not older than its login or its last bytes.
-/

namespace MinerTim
namespace Pool

open Transition

variable {limits : Limits} {st st' : LoopState}

/-! ## What a step can do -/

/-- A step of the receiver, or of the clock. -/
inductive LoopMove (limits : Limits) (st : LoopState) : LoopState → Prop where
  | tick (d : Nat) : LoopMove limits st { st with now := st.now + d }
  | observe {want : Beneficiary} (hpc : st.pc = .top) :
      LoopMove limits st (((st.noteDonationTarget want).record (.observed want st.active)).goto
        (if want ≠ st.active then .gate want else .read))
  | rotate {want : Beneficiary} {inFlight pending : Nat} {waitSince : Option (Beneficiary × Nat)}
      (hpc : st.pc = .gate want) (hmay : rotationSettled limits st.now st.rotationWaitSince want inFlight
        pending = (true, waitSince)) :
      LoopMove limits st (({ st with rotationWaitSince := waitSince }.rotate want |>.record
        (.rotated want)).goto (.relogin (beneficiaryAddress st.userWallet want)))
  | defer {want : Beneficiary} {inFlight pending : Nat} {waitSince : Option (Beneficiary × Nat)}
      (hpc : st.pc = .gate want) (hmay : rotationSettled limits st.now st.rotationWaitSince want inFlight
        pending = (false, waitSince)) :
      LoopMove limits st (({ st with rotationWaitSince := waitSince }.record
        (.deferred want st.now)).goto .read)
  | noAddress {wallet : String} (hpc : st.pc = .relogin wallet) (hempty : st.address = "") :
      LoopMove limits st (st.goto .read)
  | relogin {wallet : String} (hpc : st.pc = .relogin wallet) :
      LoopMove limits st ({ st with stream := none }.goto (.connecting .relogin st.address wallet))
  | giveUp {site : CallSite} (hpc : st.pc = .reconnect site) (hempty : st.address = "" ∨ st.wallet = "") :
      LoopMove limits st ((st.tearDown.record .reconnected).goto .exited)
  | reconnect {site : CallSite} (hpc : st.pc = .reconnect site) :
      LoopMove limits st ((st.tearDown.record .reconnected).goto
        (.connecting (.reconnect site) st.address st.wallet))
  | connect {caller : Caller} {address wallet : String} (hpc : st.pc = .connecting caller address wallet) :
      LoopMove limits st ((st.connected address).goto (.loggingIn caller address wallet))
  | connectFails {caller : Caller} {address wallet : String}
      (hpc : st.pc = .connecting caller address wallet) :
      LoopMove limits st (st.goto (.failed caller address wallet))
  | unconnected {caller : Caller} {address wallet : String}
      (hpc : st.pc = .loggingIn caller address wallet) (hstream : st.stream = none) :
      LoopMove limits st ((st.capture wallet).goto (.failed caller address wallet))
  | login {caller : Caller} {address wallet : String} (hpc : st.pc = .loggingIn caller address wallet) :
      LoopMove limits st (({ st with loggedInAt := some st.now }.capture wallet |>.record
        (.login wallet st.active)).goto (.loggedIn caller))
  | loginFails {caller : Caller} {address wallet : String} (hpc : st.pc = .loggingIn caller address wallet) :
      LoopMove limits st (((st.capture wallet).record (.login wallet st.active)).goto
        (.failed caller address wallet))
  | reloginFails {address wallet : String} (hpc : st.pc = .failed .relogin address wallet) :
      LoopMove limits st ({ st with stream := none }.goto .read)
  | retry {site : CallSite} {address wallet : String} (hpc : st.pc = .failed (.reconnect site) address wallet) :
      LoopMove limits st ({ st with stream := none }.goto (.connecting (.reconnect site) address wallet))
  | reloggedIn (hpc : st.pc = .loggedIn .relogin) :
      LoopMove limits st ({ st with lastRecv := st.now, pending := [] }.goto .top)
  | reconnected {site : CallSite} (hpc : st.pc = .loggedIn (.reconnect site)) :
      LoopMove limits st (st.afterReconnect site)
  | lose (hpc : st.pc = .read) : LoopMove limits st (st.goto (.reconnect .read))
  | timeout {conn : Nat} (hpc : st.pc = .read) (hstream : st.stream = some conn) :
      LoopMove limits st (st.goto .keepalive)
  | receive {conn : Nat} {chunk : List Byte} (hpc : st.pc = .read) (hstream : st.stream = some conn) :
      LoopMove limits st (st.receive conn chunk)
  | handle {line : List TaggedByte} {lines : List (List TaggedByte)}
      (hpc : st.pc = .handling (line :: lines)) : LoopMove limits st (st.goto (.handling lines))
  | handled (hpc : st.pc = .handling []) : LoopMove limits st (st.goto .keepalive)
  | keepalive (hpc : st.pc = .keepalive) :
      LoopMove limits st ({ st with lastKeepalive := st.now }.goto .silence)
  | keepaliveFails (hpc : st.pc = .keepalive) :
      LoopMove limits st ({ st with lastKeepalive := st.now }.goto (.reconnect .keepalive))
  | noKeepalive (hpc : st.pc = .keepalive) : LoopMove limits st (st.goto .silence)
  | silent (hpc : st.pc = .silence) (hlimit : millis limits.silenceTimeoutMs ≤ st.now - st.lastRecv) :
      LoopMove limits st (st.goto (.reconnect .silence))
  | heard (hpc : st.pc = .silence) : LoopMove limits st (st.goto .top)

theorem loopMove_of_step {a : LoopAction} (hs : loopStep limits st a = some st') :
    LoopMove limits st st' := by
  cases a with
  | tick d =>
    obtain rfl := Option.some.inj hs
    exact .tick d
  | loop a =>
    replace hs : receiverLoop limits st a = some st' := hs
    unfold receiverLoop at hs
    split at hs
    next hpc =>
      obtain rfl := Option.some.inj hs
      exact .observe hpc
    next hpc =>
      split at hs
      -- at the gate the rotation proceeds or is deferred
      next hmay =>
        obtain rfl := Option.some.inj hs
        exact .rotate hpc hmay
      next hmay =>
        obtain rfl := Option.some.inj hs
        exact .defer hpc hmay
    next hpc =>
      split at hs
      next hempty =>
        obtain rfl := Option.some.inj hs
        exact .noAddress hpc hempty
      next =>
        obtain rfl := Option.some.inj hs
        exact .relogin hpc
    next hpc =>
      split at hs
      next hempty =>
        obtain rfl := Option.some.inj hs
        exact .giveUp hpc hempty
      next =>
        obtain rfl := Option.some.inj hs
        exact .reconnect hpc
    next hpc =>
      split at hs
      next =>
        obtain rfl := Option.some.inj hs
        exact .connect hpc
      next =>
        obtain rfl := Option.some.inj hs
        exact .connectFails hpc
    next hpc =>
      split at hs
      next hstream =>
        obtain rfl := Option.some.inj hs
        exact .unconnected hpc hstream
      next =>
        split at hs
        · obtain rfl := Option.some.inj hs
          exact .login hpc
        · obtain rfl := Option.some.inj hs
          exact .loginFails hpc
    next hpc =>
      obtain rfl := Option.some.inj hs
      exact .reloginFails hpc
    next hpc =>
      obtain rfl := Option.some.inj hs
      exact .retry hpc
    next hpc =>
      obtain rfl := Option.some.inj hs
      exact .reloggedIn hpc
    next hpc =>
      obtain rfl := Option.some.inj hs
      exact .reconnected hpc
    next hpc =>
      split at hs
      · obtain rfl := Option.some.inj hs
        exact .lose hpc
      · obtain rfl := Option.some.inj hs
        exact .lose hpc
      · obtain rfl := Option.some.inj hs
        exact .lose hpc
      next hstream =>
        obtain rfl := Option.some.inj hs
        exact .timeout hpc hstream
      next hstream =>
        split at hs
        · cases hs
        · obtain rfl := Option.some.inj hs
          exact .receive hpc hstream
    next hpc =>
      obtain rfl := Option.some.inj hs
      exact .handle hpc
    next hpc =>
      obtain rfl := Option.some.inj hs
      exact .handled hpc
    next hpc =>
      split at hs
      next =>
        split at hs
        · obtain rfl := Option.some.inj hs
          exact .keepalive hpc
        · obtain rfl := Option.some.inj hs
          exact .keepaliveFails hpc
      next =>
        obtain rfl := Option.some.inj hs
        exact .noKeepalive hpc
    next hpc =>
      split at hs
      next hlimit =>
        obtain rfl := Option.some.inj hs
        exact .silent hpc hlimit
      next =>
        obtain rfl := Option.some.inj hs
        exact .heard hpc
    next => cases hs

/-! ## Wallets -/

theorem beneficiaryAddress_ne_empty {wallet : String} (h : wallet ≠ "") (who : Beneficiary) :
    beneficiaryAddress wallet who ≠ "" := by
  cases who with
  | user => exact h
  | author | xmrig => exact of_decide_eq_true rfl

/-- The address and the wallet of a `connect` and `login` under way are the recorded ones. -/
def PcWallets (st : LoopState) : LoopPc → Prop
  | .relogin wallet => wallet = st.wallet
  | .connecting _ address wallet | .loggingIn _ address wallet | .failed _ address wallet =>
    address = st.address ∧ wallet = st.wallet
  | .exited => False
  | _ => True

/-- The user's wallet is the first that logged in; the wallet that is recorded, and every wallet that a login
    was sent for, is the address of who was active. -/
structure Wallets (userWallet : String) (st : LoopState) : Prop where
  user : st.userWallet = userWallet
  address : st.address ≠ ""
  wallet : st.wallet = beneficiaryAddress userWallet st.active
  logins : ∀ wallet who, .login wallet who ∈ st.history → wallet = beneficiaryAddress userWallet who
  pc : PcWallets st st.pc

/-- Nothing that the wallets depend on is changed. -/
structure SameWallets (st st' : LoopState) : Prop where
  user : st'.userWallet = st.userWallet
  address : st'.address = st.address
  wallet : st'.wallet = st.wallet
  active : st'.active = st.active
  logins : ∀ wallet who, .login wallet who ∈ st'.history → .login wallet who ∈ st.history

theorem Wallets.frame {userWallet : String} {pc : LoopPc} (h : Wallets userWallet st)
    (hsame : SameWallets st st') (hpc : PcWallets st' pc) : Wallets userWallet (st'.goto pc) := by
  refine ⟨hsame.user.trans h.user, ?_, ?_, fun w who hmem => h.logins w who (hsame.logins w who hmem), ?_⟩
  · show st'.address ≠ ""
    rw [hsame.address]
    exact h.address
  · show st'.wallet = beneficiaryAddress userWallet st'.active
    rw [hsame.wallet, hsame.active]
    exact h.wallet
  · cases pc <;> exact hpc

/-- A login for the recorded wallet records it again, and leaves the user's alone. -/
theorem capture_wallet (h : st.userWallet ≠ "") : st.capture st.wallet = st := by
  unfold LoopState.capture
  rw [if_neg h]

/-- A step that neither logs in nor rotates. -/
theorem sameWallets_record {e : LoopEvent} (hsame : SameWallets st st')
    (he : ∀ wallet who, e ≠ .login wallet who) : SameWallets st (st'.record e) := by
  refine ⟨hsame.user, hsame.address, hsame.wallet, hsame.active, ?_⟩
  intro wallet who hmem
  exact hsame.logins wallet who ((List.mem_cons.mp hmem).resolve_left fun heq => he wallet who heq.symm)

/-- What a step preserves: a login is sent for the recorded wallet, which changes with who is active. -/
theorem wallets_step {userWallet : String} (hne : userWallet ≠ "") (h : Wallets userWallet st)
    (hs : LoopMove limits st st') : Wallets userWallet st' := by
  have hsame : SameWallets st st := ⟨rfl, rfl, rfl, rfl, fun _ _ hmem => hmem⟩
  have hpc := h.pc
  have huser : st.userWallet ≠ "" := by
    rw [h.user]
    exact hne
  have hlogin : ∀ w who, .login w who ∈ (st.record (.login st.wallet st.active)).history →
      w = beneficiaryAddress userWallet who := by
    intro w who hmem
    rcases List.mem_cons.mp hmem with heq | hmem
    · obtain ⟨rfl, rfl⟩ := LoopEvent.login.inj heq
      exact h.wallet
    · exact h.logins w who hmem
  cases hs with
  | observe hat =>
    have hnote : ∀ want, SameWallets st (st.noteDonationTarget want) := by
      intro want
      unfold LoopState.noteDonationTarget
      split <;> exact ⟨rfl, rfl, rfl, rfl, fun _ _ hmem => hmem⟩
    refine h.frame (sameWallets_record (hnote _) nofun) ?_
    split <;> exact trivial
  | rotate hat hmay =>
    -- the only step that changes the wallet: it becomes the beneficiary's address
    refine ⟨h.user, h.address, ?_, ?_, rfl⟩
    · show beneficiaryAddress st.userWallet _ = _
      rw [h.user]
      rfl
    · intro w who hmem
      exact h.logins w who ((List.mem_cons.mp hmem).resolve_left nofun)
  | defer hat =>
    exact h.frame (sameWallets_record ⟨rfl, rfl, rfl, rfl, hsame.logins⟩ nofun) trivial
  | relogin hat =>
    rw [hat] at hpc
    exact h.frame ⟨rfl, rfl, rfl, rfl, hsame.logins⟩ ⟨rfl, hpc⟩
  | giveUp hat hempty =>
    -- neither is ever empty, so the receiver does not give up
    rcases hempty with hempty | hempty
    · exact absurd hempty h.address
    · rw [h.wallet] at hempty
      exact absurd hempty (beneficiaryAddress_ne_empty hne st.active)
  | reconnect hat =>
    exact h.frame (sameWallets_record ⟨rfl, rfl, rfl, rfl, hsame.logins⟩ nofun) ⟨rfl, rfl⟩
  | connect hat =>
    rw [hat] at hpc
    obtain ⟨rfl, rfl⟩ := hpc
    exact h.frame ⟨rfl, rfl, rfl, rfl, hsame.logins⟩ ⟨rfl, rfl⟩
  | connectFails hat =>
    rw [hat] at hpc
    exact h.frame ⟨rfl, rfl, rfl, rfl, hsame.logins⟩ hpc
  | unconnected hat hstream =>
    rw [hat] at hpc
    obtain ⟨rfl, rfl⟩ := hpc
    -- `login` would set an unset user wallet, and it is set from the start
    rw [capture_wallet huser]
    exact h.frame hsame ⟨rfl, rfl⟩
  | login hat =>
    rw [hat] at hpc
    obtain ⟨rfl, rfl⟩ := hpc
    have hcapture : ({ st with loggedInAt := some st.now } : LoopState).capture st.wallet
        = { st with loggedInAt := some st.now } := capture_wallet huser
    rw [hcapture]
    exact ⟨h.user, h.address, h.wallet, hlogin, trivial⟩
  | loginFails hat =>
    rw [hat] at hpc
    obtain ⟨rfl, rfl⟩ := hpc
    rw [capture_wallet huser]
    exact ⟨h.user, h.address, h.wallet, hlogin, ⟨rfl, rfl⟩⟩
  | retry hat =>
    rw [hat] at hpc
    exact h.frame ⟨rfl, rfl, rfl, rfl, hsame.logins⟩ hpc
  | @reconnected site hat =>
    cases site <;> exact h.frame ⟨rfl, rfl, rfl, rfl, hsame.logins⟩ trivial
  | @receive conn chunk hat hstream =>
    unfold LoopState.receive
    split <;> exact h.frame ⟨rfl, rfl, rfl, rfl, hsame.logins⟩ trivial
  | tick d => exact ⟨h.user, h.address, h.wallet, h.logins, h.pc⟩
  | noAddress hat | reloginFails hat | reloggedIn hat | lose hat | timeout hat | handle hat | handled hat
  | keepalive hat | keepaliveFails hat | noKeepalive hat | silent hat | heard hat =>
    exact h.frame ⟨rfl, rfl, rfl, rfl, hsame.logins⟩ trivial

theorem wallets_start {address wallet : String} (haddress : address ≠ "") (loginTime delay : Nat) :
    Wallets wallet (.start address wallet loginTime delay) := by
  refine ⟨rfl, haddress, rfl, ?_, trivial⟩
  intro w who hmem
  exact absurd hmem List.not_mem_nil

/-- **The wallets of the donation schedule.** Once `connect` and the login of a non-empty wallet have
    succeeded, for any wants and any pattern of failures: the user's wallet stays that wallet; the recorded
    wallet is the active beneficiary's; every login is sent for the address of who is active then, which is
    the user's wallet when it is the user and, unless that wallet is itself a donation address, only then;
    and the receiver does not end. -/
theorem donation_wallets {address wallet : String} {loginTime delay : Nat} (haddress : address ≠ "")
    (hwallet : wallet ≠ "")
    (h : Reachable (loopStep limits) (.start address wallet loginTime delay) st) :
    st.userWallet = wallet ∧ st.wallet = beneficiaryAddress wallet st.active ∧
      (∀ w who, .login w who ∈ st.history → w = beneficiaryAddress wallet who ∧
        (who = .user → w = wallet) ∧
        (wallet ≠ AUTHOR_ADDRESS → wallet ≠ XMRIG_ADDRESS → w = wallet → who = .user)) ∧
      st.pc ≠ .exited := by
  have hinv : Wallets wallet st := by
    refine h.invariant (P := Wallets wallet) (wallets_start haddress loginTime delay) ?_
    exact fun s a s' hs hstep => wallets_step hwallet hs (loopMove_of_step hstep)
  refine ⟨hinv.user, hinv.wallet, ?_, ?_⟩
  · intro w who hmem
    have hw := hinv.logins w who hmem
    refine ⟨hw, ?_, ?_⟩
    · rintro rfl
      exact hw
    · intro hauthor hxmrig heq
      cases who with
      | user => rfl
      | author => exact absurd (heq.symm.trans hw) hauthor
      | xmrig => exact absurd (heq.symm.trans hw) hxmrig
  · intro hexit
    have hpc := hinv.pc
    rw [hexit] at hpc
    exact hpc

/-- A switch to the author, with a relogin that fails and a reconnect that succeeds. -/
def switchRun : List LoopAction :=
  [.loop (.observe .author), .loop (.settle 0 0), .loop .next, .loop (.connect true),
    .loop (.login false), .loop .next, .loop (.read .timeout), .loop .next, .loop (.connect true),
    .loop (.login true), .loop .next]

def sampleLimits : Limits := { silenceTimeoutMs := 180000, rotationSettleMs := 5000 }

/-- The wallet `w` mines for the user, then for the author. -/
theorem donation_wallets_sample : ∃ st : LoopState,
    runs (loopStep sampleLimits) (.start "pool:1" "w" 0 0) switchRun = some st ∧
      st.wallet = AUTHOR_ADDRESS ∧ st.userWallet = "w" ∧ st.pc ≠ .exited := by
  obtain ⟨st, hrun, hactive⟩ : ∃ st : LoopState,
      runs (loopStep sampleLimits) (.start "pool:1" "w" 0 0) switchRun = some st ∧
      st.active = .author := ⟨_, rfl, rfl⟩
  obtain ⟨huser, hwallet, _, hpc⟩ := donation_wallets (of_decide_eq_true rfl) (of_decide_eq_true rfl)
    (.of_runs .refl hrun)
  rw [hactive] at hwallet
  exact ⟨st, hrun, hwallet, huser, hpc⟩

/-- A user whose wallet is the author's: the login of a donation slice is for the user's wallet. -/
theorem donation_login_of_author : ∃ st : LoopState,
    runs (loopStep sampleLimits) (.start "pool:1" AUTHOR_ADDRESS 0 0) switchRun = some st ∧
      ∃ who, .login AUTHOR_ADDRESS who ∈ st.history ∧ who ≠ .user := by
  obtain ⟨st, hrun, rest, hhistory⟩ : ∃ st : LoopState,
      runs (loopStep sampleLimits) (.start "pool:1" AUTHOR_ADDRESS 0 0) switchRun = some st ∧
      ∃ rest, st.history = .login AUTHOR_ADDRESS .author :: rest := ⟨_, rfl, _, rfl⟩
  refine ⟨st, hrun, .author, ?_, nofun⟩
  rw [hhistory]
  exact List.mem_cons_self

/-! ## Deferrals -/

/-- When the current episode first deferred a rotation: the episode goes back, from the last event, over the
    iterations that observed this target while another beneficiary was active, up to a rotation or a
    reconnect. -/
def firstDeferral (want : Beneficiary) : List LoopEvent → Option Nat
  | [] | .rotated _ :: _ | .reconnected :: _ => none
  | .observed target active :: events =>
    if target = want ∧ target ≠ active then firstDeferral want events else none
  | .deferred target time :: events =>
    if target = want then (firstDeferral want events).or (some time) else none
  | .login _ _ :: events => firstDeferral want events

/-- `rotation_wait_since` holds the first deferral of the current episode. -/
structure Deferral (st : LoopState) : Prop where
  wait : st.rotationWaitSince = (firstDeferral st.lastWant st.history).map (st.lastWant, ·)
  inactive : st.rotationWaitSince.isSome = true → st.lastWant ≠ st.active
  other : ∀ want, want ≠ st.lastWant → firstDeferral want st.history = none
  gate : ∀ want, st.pc = .gate want → want = st.lastWant ∧ want ≠ st.active

/-- No deferral, target or rotation in between. -/
structure SameDeferral (st st' : LoopState) : Prop where
  wait : st'.rotationWaitSince = st.rotationWaitSince
  lastWant : st'.lastWant = st.lastWant
  active : st'.active = st.active
  history : ∀ want, firstDeferral want st'.history = firstDeferral want st.history

theorem Deferral.frame {pc : LoopPc} (h : Deferral st) (hsame : SameDeferral st st')
    (hpc : ∀ want, pc ≠ .gate want) : Deferral (st'.goto pc) := by
  refine ⟨?_, ?_, ?_, fun want hgate => absurd hgate (hpc want)⟩
  · show st'.rotationWaitSince = (firstDeferral st'.lastWant st'.history).map (st'.lastWant, ·)
    rw [hsame.wait, hsame.lastWant, hsame.history]
    exact h.wait
  · show st'.rotationWaitSince.isSome = true → st'.lastWant ≠ st'.active
    rw [hsame.wait, hsame.lastWant, hsame.active]
    exact h.inactive
  · intro want hne
    have hne' : want ≠ st'.lastWant := hne
    rw [hsame.lastWant] at hne'
    exact (hsame.history want).trans (h.other want hne')

/-- No deferral is under way. -/
theorem Deferral.idle {pc : LoopPc} (hwait : st.rotationWaitSince = none)
    (hhistory : ∀ want, firstDeferral want st.history = none) (hpc : ∀ want, pc ≠ .gate want) :
    Deferral (st.goto pc) := by
  refine ⟨?_, ?_, fun want _ => hhistory want, fun want hgate => absurd hgate (hpc want)⟩
  · show st.rotationWaitSince = (firstDeferral st.lastWant st.history).map (st.lastWant, ·)
    rw [hwait, hhistory]
    rfl
  · intro hsome
    have hsome : st.rotationWaitSince.isSome = true := hsome
    rw [hwait] at hsome
    cases hsome

/-- A target that is observed goes on with its episode, or starts one. -/
theorem deferral_observe {want : Beneficiary} (h : Deferral st) :
    Deferral (((st.noteDonationTarget want).record (.observed want st.active)).goto
      (if want ≠ st.active then .gate want else .read)) := by
  have hgate : ∀ target, (if want ≠ st.active then LoopPc.gate want else .read) = .gate target →
      target = want ∧ target ≠ st.active := by
    intro target hpc
    split at hpc
    next hactive =>
      obtain rfl := LoopPc.gate.inj hpc
      exact ⟨rfl, hactive⟩
    next => cases hpc
  have hother : ∀ target, target ≠ want →
      firstDeferral target (.observed want st.active :: st.history) = none := by
    intro target hne
    rw [firstDeferral, if_neg]
    exact fun hsame => hne hsame.1.symm
  by_cases hchange : want = st.lastWant
  · have hnote : st.noteDonationTarget want = st := if_neg (not_not.mpr hchange)
    rw [hnote]
    subst hchange
    refine ⟨?_, h.inactive, hother, hgate⟩
    show st.rotationWaitSince = Option.map (st.lastWant, ·)
      (firstDeferral st.lastWant (.observed st.lastWant st.active :: st.history))
    by_cases hactive : st.lastWant = st.active
    · -- nothing is deferred for a target that is active
      rw [firstDeferral, if_neg fun hboth => hboth.2 hactive, Option.map_none]
      by_contra hsome
      exact h.inactive (Option.isSome_iff_ne_none.mpr hsome) hactive
    · rw [firstDeferral, if_pos ⟨rfl, hactive⟩]
      exact h.wait
  · -- another target than the last: the wait starts over, and the history has no deferral of it
    have hnote : st.noteDonationTarget want = { st with rotationWaitSince := none, lastWant := want } :=
      if_pos hchange
    rw [hnote]
    refine ⟨?_, fun hsome => (by cases hsome), hother, hgate⟩
    show none = (firstDeferral want (.observed want st.active :: st.history)).map _
    rw [firstDeferral, h.other want hchange, ite_self]
    rfl

/-- A rotation that is deferred again keeps the time of the first deferral. -/
theorem deferral_defer {want : Beneficiary} {inFlight pending : Nat}
    {waitSince : Option (Beneficiary × Nat)} (h : Deferral st) (hpc : st.pc = .gate want)
    (hmay : rotationSettled limits st.now st.rotationWaitSince want inFlight pending
      = (false, waitSince)) :
    Deferral (({ st with rotationWaitSince := waitSince }.record (.deferred want st.now)).goto .read) := by
  obtain ⟨rfl, hactive⟩ := h.gate want hpc
  have hwait : waitSince = ((firstDeferral st.lastWant st.history).or (some st.now)).map
      (st.lastWant, ·) := by
    unfold rotationSettled at hmay
    rw [h.wait] at hmay
    simp only at hmay
    split at hmay
    · cases hmay
    · rw [← (Prod.mk.inj hmay).2]
      cases firstDeferral st.lastWant st.history with
      | none => rfl
      | some t => simp [Option.filter]
  refine ⟨?_, fun _ => hactive, ?_, nofun⟩
  · show waitSince = (firstDeferral st.lastWant (.deferred st.lastWant st.now :: st.history)).map _
    rw [firstDeferral, if_pos rfl, hwait]
    rfl
  · intro target hne
    exact if_neg fun heq => hne heq.symm

theorem deferral_step (h : Deferral st) (hs : LoopMove limits st st') : Deferral st' := by
  have hsame : SameDeferral st st := ⟨rfl, rfl, rfl, fun _ => rfl⟩
  cases hs with
  | tick d => exact ⟨h.wait, h.inactive, h.other, h.gate⟩
  | observe hat => exact deferral_observe h
  | @rotate want inFlight pending waitSince hat hmay =>
    have hnone : waitSince = none := by
      unfold rotationSettled at hmay
      simp only at hmay
      split at hmay
      · exact (Prod.mk.inj hmay).2.symm
      · cases hmay
    exact Deferral.idle hnone (fun _ => rfl) nofun
  | defer hat hmay => exact deferral_defer h hat hmay
  | giveUp hat | reconnect hat => exact Deferral.idle rfl (fun _ => rfl) nofun
  | @reconnected site hat =>
    cases site <;> exact Deferral.frame h ⟨rfl, rfl, rfl, fun _ => rfl⟩ nofun
  | receive hat hstream =>
    unfold LoopState.receive
    split <;> exact Deferral.frame h ⟨rfl, rfl, rfl, fun _ => rfl⟩ nofun
  | noAddress hat | relogin hat | connect hat | connectFails hat | unconnected hat | login hat
  | loginFails hat | reloginFails hat | retry hat | reloggedIn hat | lose hat | timeout hat | handle hat
  | handled hat | keepalive hat | keepaliveFails hat | noKeepalive hat | silent hat | heard hat =>
    exact Deferral.frame h ⟨rfl, rfl, rfl, fun _ => rfl⟩ nofun

/-- **No stale deferral**: whenever the gate lets a rotation through while something is in flight or pending,
    the settle limit has passed since the first deferral of the current episode. -/
theorem rotation_waits_for_episode {address wallet : String} {loginTime delay : Nat}
    (hsettle : 0 < limits.rotationSettleMs)
    (h : Reachable (loopStep limits) (.start address wallet loginTime delay) st) {want : Beneficiary}
    {inFlight pending : Nat} (hpc : st.pc = .gate want)
    (hmay : (rotationSettled limits st.now st.rotationWaitSince want inFlight pending).1 = true)
    (hout : 0 < inFlight + pending) :
    ∃ t, firstDeferral want st.history = some t ∧ millis limits.rotationSettleMs ≤ st.now - t := by
  have hinv : Deferral st := by
    refine h.invariant (P := Deferral) ⟨rfl, fun hsome => (by cases hsome), fun _ _ => rfl, nofun⟩ ?_
    exact fun s a s' hs hstep => deferral_step hs (loopMove_of_step hstep)
  obtain ⟨rfl, _⟩ := hinv.gate want hpc
  have hpos : 0 < millis limits.rotationSettleMs := Nat.mul_pos hsettle (by decide)
  unfold rotationSettled at hmay
  rw [hinv.wait] at hmay
  simp only at hmay
  split at hmay
  next hproceed =>
    unfold rotationMayProceed at hproceed
    rw [Bool.or_eq_true, Bool.and_eq_true, beq_iff_eq, beq_iff_eq, decide_eq_true_iff] at hproceed
    -- no share is out, or the limit has passed since the wait began
    rcases hproceed with ⟨hflight, hpending⟩ | hwaited
    · omega
    · cases hfirst : firstDeferral st.lastWant st.history with
      | none =>
        rw [hfirst] at hwaited
        have : millis limits.rotationSettleMs ≤ 0 := hwaited
        omega
      | some t =>
        refine ⟨t, rfl, ?_⟩
        simpa [hfirst, Option.filter] using hwaited
  next => cases hmay

/-- A rotation that is deferred, and looked at again six seconds later. -/
def deferredRun : List LoopAction :=
  [.loop (.observe .author), .loop (.settle 1 0), .loop (.read .timeout), .loop (.keepalive true),
    .loop .next, .tick 6000000000, .loop (.observe .author)]

/-- The deferral was at the start, and the limit of five seconds has passed. -/
theorem rotation_waits_for_episode_sample : ∃ st : LoopState,
    runs (loopStep sampleLimits) (.start "pool:1" "w" 0 0) deferredRun = some st ∧
      ∃ t, firstDeferral .author st.history = some t ∧
        millis sampleLimits.rotationSettleMs ≤ st.now - t := by
  obtain ⟨st, hrun, hpc, hmay⟩ : ∃ st : LoopState,
      runs (loopStep sampleLimits) (.start "pool:1" "w" 0 0) deferredRun = some st ∧
      st.pc = .gate .author ∧
      (rotationSettled sampleLimits st.now st.rotationWaitSince .author 1 0).1 = true :=
    ⟨_, rfl, rfl, rfl⟩
  exact ⟨st, hrun, rotation_waits_for_episode (by decide) (.of_runs .refl hrun) hpc hmay (by decide)⟩

/-! ## Connection epochs -/

/-- The receiver's locals are of the installed connection: the unfinished line was read on it, and it was
    last heard from after its login and its last bytes. -/
structure Fresh (st : LoopState) (conn : Nat) : Prop where
  login : ∃ t, st.loggedInAt = some t ∧ t ≤ st.lastRecv
  bytes : ∀ t, st.bytesAt = some t → t ≤ st.lastRecv
  pending : ∀ b ∈ st.pending, b.1 = conn

/-- A reconnect after a line that was too long finds the buffer cleared. -/
def Cleared (st : LoopState) (caller : Caller) : Prop := caller = .reconnect .overflow → st.pending = []

/-- What holds of the connection, by where the receiver is. -/
def PcEpoch (st : LoopState) : LoopPc → Prop
  | .top | .gate _ | .keepalive | .silence => ∃ conn, st.stream = some conn ∧ Fresh st conn
  | .handling lines => ∃ conn, st.stream = some conn ∧ Fresh st conn ∧ ∀ l ∈ lines, ∀ b ∈ l, b.1 = conn
  | .read | .relogin _ => ∀ conn, st.stream = some conn → Fresh st conn
  | .reconnect site => Cleared st (.reconnect site)
  | .connecting caller _ _ | .failed caller _ _ => Cleared st caller
  | .loggingIn caller _ _ => Cleared st caller ∧ st.bytesAt = none ∧ st.stream.isSome = true
  | .loggedIn caller => Cleared st caller ∧ st.bytesAt = none ∧ st.stream.isSome = true ∧
      st.loggedInAt.isSome = true
  | .exited => True

/-- The invariant. -/
structure Epoch (st : LoopState) : Prop where
  clock : ∀ t, st.loggedInAt = some t → t ≤ st.now
  pc : PcEpoch st st.pc

/-- The same connection, and the same time of its login and last bytes. -/
structure SameEpoch (st st' : LoopState) : Prop where
  now : st.now ≤ st'.now
  stream : st'.stream = st.stream
  loggedInAt : st'.loggedInAt = st.loggedInAt
  bytesAt : st'.bytesAt = st.bytesAt
  pending : st'.pending = st.pending
  lastRecv : st'.lastRecv = st.lastRecv

theorem Epoch.goto {pc : LoopPc} (h : Epoch st) (hsame : SameEpoch st st') (hpc : PcEpoch st pc) :
    Epoch (st'.goto pc) := by
  refine ⟨?_, ?_⟩
  · show ∀ t, st'.loggedInAt = some t → t ≤ st'.now
    rw [hsame.loggedInAt]
    exact fun t ht => Nat.le_trans (h.clock t ht) hsame.now
  · have hfresh : ∀ conn, Fresh st conn → Fresh (st'.goto pc) conn := by
      rintro conn ⟨hlogin, hbytes, hpending⟩
      refine ⟨?_, ?_, ?_⟩
      · show ∃ t, st'.loggedInAt = some t ∧ t ≤ st'.lastRecv
        rw [hsame.loggedInAt, hsame.lastRecv]
        exact hlogin
      · show ∀ t, st'.bytesAt = some t → t ≤ st'.lastRecv
        rw [hsame.bytesAt, hsame.lastRecv]
        exact hbytes
      · show ∀ b ∈ st'.pending, b.1 = conn
        rw [hsame.pending]
        exact hpending
    have hcleared : ∀ caller, Cleared st caller → Cleared (st'.goto pc) caller :=
      fun caller hclear hcaller => hsame.pending.trans (hclear hcaller)
    have hstream : (st'.goto pc).stream = st.stream := hsame.stream
    have hbytes : (st'.goto pc).bytesAt = st.bytesAt := hsame.bytesAt
    have hlogin : (st'.goto pc).loggedInAt = st.loggedInAt := hsame.loggedInAt
    show PcEpoch (st'.goto pc) pc
    -- from here only these equations of the new state are used
    generalize st'.goto pc = st'' at *
    cases pc with
    | top | gate _ | keepalive | silence =>
      obtain ⟨conn, hconn, hf⟩ := hpc
      exact ⟨conn, hstream.trans hconn, hfresh conn hf⟩
    | handling lines =>
      obtain ⟨conn, hconn, hf, hlines⟩ := hpc
      exact ⟨conn, hstream.trans hconn, hfresh conn hf, hlines⟩
    | read | relogin _ => exact fun conn hconn => hfresh conn (hpc conn (hstream.symm.trans hconn))
    | reconnect site => exact hcleared _ hpc
    | connecting caller _ _ | failed caller _ _ => exact hcleared caller hpc
    | loggingIn caller _ _ =>
      obtain ⟨hclear, hnone, hsome⟩ := hpc
      exact ⟨hcleared caller hclear, hbytes.trans hnone, (congrArg _ hstream).trans hsome⟩
    | loggedIn caller =>
      obtain ⟨hclear, hnone, hsome, hat⟩ := hpc
      exact ⟨hcleared caller hclear, hbytes.trans hnone, (congrArg _ hstream).trans hsome,
        (congrArg _ hlogin).trans hat⟩
    | exited => trivial

/-- A connection whose login has just returned is fresh: the time is noted and the buffer is empty. -/
theorem epoch_loggedIn {caller : Caller} {pending : List TaggedByte} {pc : LoopPc} (h : Epoch st)
    (hpc : st.pc = .loggedIn caller) (hpending : pending = [])
    (hat : ∀ st' : LoopState, (∃ conn, st'.stream = some conn ∧ Fresh st' conn) → PcEpoch st' pc) :
    Epoch ({ st with lastRecv := st.now, pending }.goto pc) := by
  have hin := h.pc
  rw [hpc] at hin
  obtain ⟨_, hnone, hsome, hlogin⟩ := hin
  obtain ⟨conn, hconn⟩ := Option.isSome_iff_exists.mp hsome
  obtain ⟨t, ht⟩ := Option.isSome_iff_exists.mp hlogin
  -- no bytes yet on this connection, and the line buffer is empty
  refine ⟨h.clock, hat _ ⟨conn, hconn, ⟨t, ht, h.clock t ht⟩, ?_, ?_⟩⟩
  · intro t' ht'
    exact absurd (hnone.symm.trans ht') nofun
  · subst hpending
    exact fun b hb => absurd hb List.not_mem_nil

/-- Bytes that are read are of the installed connection. -/
theorem epoch_receive {conn : Nat} {chunk : List Byte} (h : Epoch st) (hpc : st.pc = .read)
    (hstream : st.stream = some conn) : Epoch (st.receive conn chunk) := by
  have hin := h.pc
  rw [hpc] at hin
  obtain ⟨⟨t, ht, _⟩, _, hpending⟩ := hin conn hstream
  have htags : ∀ b ∈ st.pending ++ chunk.map (conn, ·), b.1 = conn := by
    intro b hb
    rcases List.mem_append.mp hb with hb | hb
    · exact hpending b hb
    · obtain ⟨_, _, rfl⟩ := List.mem_map.mp hb
      rfl
  unfold LoopState.receive
  split
  next lines rest hlines =>
    obtain ⟨hof, hrest⟩ := takeCompleteLines_tags hlines htags
    refine ⟨h.clock, conn, hstream, ⟨⟨t, ht, h.clock t ht⟩, ?_, hrest⟩, fun l hl => (hof l hl).2⟩
    intro t' ht'
    exact (Option.some.inj ht').ge
  next => exact ⟨h.clock, fun _ => rfl⟩

theorem epoch_step (h : Epoch st) (hs : LoopMove limits st st') : Epoch st' := by
  have hsame : SameEpoch st st := ⟨le_rfl, rfl, rfl, rfl, rfl, rfl⟩
  have hin := h.pc
  cases hs with
  | tick d =>
    exact @Epoch.goto st { st with now := st.now + d } st.pc h
      ⟨Nat.le_add_right _ _, rfl, rfl, rfl, rfl, rfl⟩ h.pc
  | @observe want hat =>
    rw [hat] at hin
    obtain ⟨conn, hconn, hfresh⟩ := hin
    have hnote : SameEpoch st ((st.noteDonationTarget want).record (.observed want st.active)) := by
      unfold LoopState.noteDonationTarget
      split <;> exact ⟨le_rfl, rfl, rfl, rfl, rfl, rfl⟩
    refine Epoch.goto h hnote ?_
    split
    · exact ⟨conn, hconn, hfresh⟩
    · intro conn' hconn'
      obtain rfl := Option.some.inj (hconn.symm.trans hconn')
      exact hfresh
  | rotate hat hmay | defer hat hmay =>
    rw [hat] at hin
    obtain ⟨conn, hconn, hfresh⟩ := hin
    refine Epoch.goto h ⟨le_rfl, rfl, rfl, rfl, rfl, rfl⟩ fun conn' hconn' => ?_
    obtain rfl := Option.some.inj (hconn.symm.trans hconn')
    exact hfresh
  | noAddress hat hempty =>
    rw [hat] at hin
    exact Epoch.goto h hsame hin
  | relogin hat => exact ⟨h.clock, nofun⟩
  | giveUp hat hempty => exact ⟨h.clock, trivial⟩
  | reconnect hat =>
    rw [hat] at hin
    exact ⟨h.clock, hin⟩
  | connect hat =>
    rw [hat] at hin
    exact ⟨nofun, hin, rfl, rfl⟩
  | connectFails hat =>
    rw [hat] at hin
    exact Epoch.goto h hsame hin
  | unconnected hat hstream =>
    rw [hat] at hin
    exact Epoch.goto h ⟨le_rfl, rfl, rfl, rfl, rfl, rfl⟩ hin.1
  | login hat =>
    rw [hat] at hin
    obtain ⟨hclear, hnone, hsome⟩ := hin
    refine ⟨fun t ht => (Option.some.inj ht).ge, hclear, hnone, hsome, rfl⟩
  | loginFails hat =>
    rw [hat] at hin
    exact Epoch.goto h ⟨le_rfl, rfl, rfl, rfl, rfl, rfl⟩ hin.1
  | reloginFails hat => exact ⟨h.clock, nofun⟩
  | retry hat =>
    rw [hat] at hin
    exact ⟨h.clock, hin⟩
  | reloggedIn hat => exact epoch_loggedIn h hat rfl fun _ hfresh => hfresh
  | @reconnected site hat =>
    cases site with
    | read | keepalive | silence => exact epoch_loggedIn h hat rfl fun _ hfresh => hfresh
    | overflow =>
      rw [hat] at hin
      exact epoch_loggedIn h hat (hin.1 rfl) fun _ hfresh => hfresh
  | lose hat => exact Epoch.goto h hsame nofun
  | timeout hat hstream =>
    rw [hat] at hin
    exact Epoch.goto h hsame ⟨_, hstream, hin _ hstream⟩
  | receive hat hstream => exact epoch_receive h hat hstream
  | handle hat =>
    rw [hat] at hin
    obtain ⟨conn, hconn, hfresh, hlines⟩ := hin
    exact Epoch.goto h hsame ⟨conn, hconn, hfresh, fun l hl => hlines l (List.mem_cons_of_mem _ hl)⟩
  | handled hat =>
    rw [hat] at hin
    obtain ⟨conn, hconn, hfresh, _⟩ := hin
    exact Epoch.goto h hsame ⟨conn, hconn, hfresh⟩
  | keepalive hat =>
    rw [hat] at hin
    exact Epoch.goto h ⟨le_rfl, rfl, rfl, rfl, rfl, rfl⟩ hin
  | keepaliveFails hat => exact Epoch.goto h ⟨le_rfl, rfl, rfl, rfl, rfl, rfl⟩ nofun
  | noKeepalive hat | heard hat =>
    rw [hat] at hin
    exact Epoch.goto h hsame hin
  | silent hat hlimit => exact Epoch.goto h hsame nofun

/-- The silence check reconnects, or ends the iteration. -/
theorem silence_step {a : LoopInput} (hpc : st.pc = .silence) (hs : receiverLoop limits st a = some st') :
    (millis limits.silenceTimeoutMs ≤ st.now - st.lastRecv ∧ st' = st.goto (.reconnect .silence)) ∨
      st' = st.goto .top := by
  cases a with
  | next =>
    simp only [receiverLoop, hpc] at hs
    split at hs
    next hlimit => exact .inl ⟨hlimit, (Option.some.inj hs).symm⟩
    next => exact .inr (Option.some.inj hs).symm
  | _ => simp [receiverLoop, hpc] at hs

/-- **Connection epochs.** For any order of reads, failures and reconnects:

* a line that is handed to `handle_pool_message` consists of bytes that were read on the connection that is
  installed then;
* bytes are read on a connection only after its login has succeeded;
* a silence reconnect happens only when the limit has passed since the login of the connection, and since
  the last bytes that were read on it. -/
theorem epoch_hygiene {address wallet : String} {loginTime delay : Nat}
    (h : Reachable (loopStep limits) (.start address wallet loginTime delay) st) :
    (∀ line lines, st.pc = .handling (line :: lines) →
      ∃ conn, st.stream = some conn ∧ ∀ b ∈ line, b.1 = conn) ∧
    (∀ conn, st.pc = .read → st.stream = some conn → st.loggedInAt.isSome = true) ∧
    (∀ a st', loopStep limits st a = some st' → st.pc = .silence → st'.pc = .reconnect .silence →
      ∃ t, st.loggedInAt = some t ∧ millis limits.silenceTimeoutMs ≤ st.now - t ∧
        ∀ t', st.bytesAt = some t' → millis limits.silenceTimeoutMs ≤ st.now - t') := by
  have hinv : Epoch st := by
    refine h.invariant (P := Epoch) ?_ ?_
    · refine ⟨?_, 1, rfl, ⟨loginTime, rfl, Nat.le_add_right _ _⟩, nofun, nofun⟩
      intro t ht
      obtain rfl := Option.some.inj ht
      exact Nat.le_add_right _ _
    · exact fun s a s' hs hstep => epoch_step hs (loopMove_of_step hstep)
  have hin := hinv.pc
  refine ⟨?_, ?_, ?_⟩
  · intro line lines hpc
    rw [hpc] at hin
    obtain ⟨conn, hconn, _, hlines⟩ := hin
    exact ⟨conn, hconn, hlines line List.mem_cons_self⟩
  · intro conn hpc hconn
    rw [hpc] at hin
    obtain ⟨⟨t, ht, _⟩, _, _⟩ := hin conn hconn
    rw [ht]
    rfl
  · intro a st' hstep hpc hreconnect
    rw [hpc] at hin
    obtain ⟨conn, _, ⟨t, ht, hle⟩, hbytes, _⟩ := hin
    -- the silence check measures from `last_recv`, which is after the login and the last bytes
    have hlimit : millis limits.silenceTimeoutMs ≤ st.now - st.lastRecv := by
      cases a with
      | tick d =>
        obtain rfl := Option.some.inj hstep
        exact absurd (hpc.symm.trans hreconnect) nofun
      | loop a =>
        rcases silence_step hpc hstep with ⟨hlimit, _⟩ | rfl
        · exact hlimit
        · cases hreconnect
    refine ⟨t, ht, by omega, fun t' ht' => ?_⟩
    have := hbytes t' ht'
    omega

/-- Two lines and a tail arrive, the pool closes the connection, and a line arrives on the next one. -/
def epochRun : List LoopAction :=
  [.loop (.observe .user), .loop (.read (.data [104, 10, 105, 10, 106])), .loop .next, .loop .next,
    .loop .next, .loop (.keepalive true), .loop .next, .loop (.observe .user), .loop (.read .eof),
    .loop .next, .loop (.connect true), .loop (.login true), .loop .next, .loop (.keepalive true),
    .loop .next, .loop (.observe .user), .loop (.read (.data [107, 10]))]

/-- The line on the second connection does not start with the tail of the first. -/
theorem epoch_hygiene_sample : ∃ st : LoopState,
    runs (loopStep sampleLimits) (.start "pool:1" "w" 0 0) epochRun = some st ∧
      st.pc = .handling [[(2, 107), (2, 10)]] ∧
      ∃ conn, st.stream = some conn ∧ ∀ b ∈ [((2 : Nat), (107 : Byte)), (2, 10)], b.1 = conn := by
  obtain ⟨st, hrun, hpc⟩ : ∃ st : LoopState,
      runs (loopStep sampleLimits) (.start "pool:1" "w" 0 0) epochRun = some st ∧
      st.pc = .handling [[(2, 107), (2, 10)]] := ⟨_, rfl, rfl⟩
  exact ⟨st, hrun, hpc, (epoch_hygiene (.of_runs .refl hrun)).1 _ _ hpc⟩

end Pool
end MinerTim
