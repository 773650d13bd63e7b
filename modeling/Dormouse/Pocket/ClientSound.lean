import Dormouse.Pocket.Client

/-!
# Dormouse.Pocket.ClientSound

**When no request of the Pocket client hangs**: a promise settles at most once in every
run; and a request still pending always has its session, in the runs in which no ceremony
ends under a pending request.
-/

namespace Dormouse.Pocket

open Terminal (Ms)
open Burrow (E2eKind E2eBurrowStep establishedE2eIdleTimeoutMs)
open Relay (RelayToClientFrame E2eRelayToClientFrame)

namespace PocketClient

variable {s s' s'' : PocketClient} {i promise : Nat} {call : Call} {key : WaiterKey}
  {requestId error : JsString}

/-! ### Where a promise is -/

def waiting (s : PocketClient) (promise : Nat) : Nat :=
  s.waiters.entries.countP fun e => e.2.promise = promise

def asked (s : PocketClient) (promise : Nat) : Nat :=
  s.pending.entries.countP fun e => e.2 = promise

def answered (s : PocketClient) (promise : Nat) : Nat :=
  s.settled.countP fun e => e.1 = promise

/-- A promise is in one place at most, and promises are numbered in order. -/
def Numbered (s : PocketClient) : Prop :=
  ∀ promise, s.waiting promise + s.asked promise + s.answered promise ≤
    if promise < s.nextPromise then 1 else 0

/-- What a step does that neither makes a request nor forgets one. -/
structure Moves (s s' : PocketClient) : Prop where
  numbered : s.Numbered → s'.Numbered
  kept : ∀ promise, s.asked promise + s.answered promise ≤
    s'.asked promise + s'.answered promise
  requests : s'.requests = s.requests

theorem Moves.same (hwaiters : s'.waiters = s.waiters) (hpending : s'.pending = s.pending)
    (hsettled : s'.settled = s.settled) (hnext : s'.nextPromise = s.nextPromise)
    (hrequests : s'.requests = s.requests) : Moves s s' where
  numbered h promise := by
    have hp := h promise
    unfold waiting asked answered at hp ⊢
    rw [hwaiters, hpending, hsettled, hnext]
    exact hp
  kept promise := by
    unfold asked answered
    rw [hpending, hsettled]
  requests := hrequests

theorem Moves.refl (s : PocketClient) : Moves s s := Moves.same rfl rfl rfl rfl rfl

theorem Moves.trans (h : Moves s s') (h' : Moves s' s'') : Moves s s'' where
  numbered hn := h'.numbered (h.numbered hn)
  kept promise := Nat.le_trans (h.kept promise) (h'.kept promise)
  requests := h'.requests.trans h.requests

theorem answered_append (s : PocketClient) (es : List (Nat × Settlement)) (promise : Nat) :
    answered { s with settled := s.settled ++ es } promise =
      s.answered promise + es.countP fun e => e.1 = promise := by
  exact List.countP_append

/-- An awaited frame settles. -/
theorem Moves.settleWaiter {waiter : CiphertextWaiter} (hget : s.waiters.get key = some waiter)
    (settlement : Settlement) :
    Moves s { s.settle waiter.promise settlement with waiters := s.waiters.delete key } := by
  have hperm := InsertionMap.perm_delete hget
  have hwaiting : ∀ promise, s.waiting promise =
      (s.waiters.delete key).entries.countP (fun e => e.2.promise = promise) +
        if waiter.promise = promise then 1 else 0 := by
    intro promise
    unfold waiting
    rw [hperm.countP_eq, List.countP_cons]
    simp only [decide_eq_true_iff]
  have hanswered : ∀ promise, answered (s.settle waiter.promise settlement) promise =
      s.answered promise + if waiter.promise = promise then 1 else 0 := by
    intro promise
    refine (answered_append s _ promise).trans ?_
    rw [List.countP_singleton]
    simp only [decide_eq_true_iff]
  constructor
  · intro h promise
    have hp := h promise
    rw [hwaiting] at hp
    have ha := hanswered promise
    change (s.waiters.delete key).entries.countP (fun e => e.2.promise = promise) +
      s.asked promise + (s.settle waiter.promise settlement).answered promise ≤
        if promise < s.nextPromise then 1 else 0
    omega
  · intro promise
    have ha := hanswered promise
    change _ ≤ s.asked promise + (s.settle waiter.promise settlement).answered promise
    omega
  · rfl

/-- A request settles. -/
theorem Moves.settlePending {pending : Nat} (hget : s.pending.get requestId = some pending)
    (settlement : Settlement) :
    Moves s { s.settle pending settlement with pending := s.pending.delete requestId } := by
  have hperm := InsertionMap.perm_delete hget
  have hasked : ∀ promise, s.asked promise =
      (s.pending.delete requestId).entries.countP (fun e => e.2 = promise) +
        if pending = promise then 1 else 0 := by
    intro promise
    unfold asked
    rw [hperm.countP_eq, List.countP_cons]
    simp only [decide_eq_true_iff]
  have hanswered : ∀ promise, answered (s.settle pending settlement) promise =
      s.answered promise + if pending = promise then 1 else 0 := by
    intro promise
    refine (answered_append s _ promise).trans ?_
    rw [List.countP_singleton]
    simp only [decide_eq_true_iff]
  constructor
  · intro h promise
    have hp := h promise
    rw [hasked] at hp
    have ha := hanswered promise
    change s.waiting promise +
      (s.pending.delete requestId).entries.countP (fun e => e.2 = promise) +
        (s.settle pending settlement).answered promise ≤
          if promise < s.nextPromise then 1 else 0
    omega
  · intro promise
    have ha := hanswered promise
    rw [hasked]
    change _ ≤ (s.pending.delete requestId).entries.countP (fun e => e.2 = promise) +
      (s.settle pending settlement).answered promise
    omega
  · rfl

/-- Everything awaited is rejected. -/
theorem Moves.rejectAll (s : PocketClient) (error : JsString) : Moves s (s.rejectAll error) := by
  have hanswered : ∀ promise, (s.rejectAll error).answered promise =
      s.answered promise + s.waiting promise + s.asked promise := by
    intro promise
    unfold answered waiting asked PocketClient.rejectAll
    rw [List.countP_append, List.countP_append, List.countP_map, List.countP_map,
      InsertionMap.values, InsertionMap.values, List.countP_map, List.countP_map]
    rfl
  have hnone : ∀ promise, (s.rejectAll error).waiting promise = 0 ∧
      (s.rejectAll error).asked promise = 0 := fun _ => ⟨rfl, rfl⟩
  constructor
  · intro h promise
    have hp := h promise
    rw [hanswered, (hnone promise).1, (hnone promise).2]
    change _ ≤ if promise < s.nextPromise then 1 else 0
    omega
  · intro promise
    rw [hanswered, (hnone promise).2]
    omega
  · rfl

theorem Numbered.next_unused (h : s.Numbered) :
    s.waiting s.nextPromise = 0 ∧ s.asked s.nextPromise = 0 ∧ s.answered s.nextPromise = 0 := by
  have hp := h s.nextPromise
  rw [if_neg (Nat.lt_irrefl _)] at hp
  omega

/-- A frame is awaited. -/
theorem Moves.expect {deadline : Ms} (h : s.expect key deadline = some (s', promise)) :
    Moves s s' := by
  unfold PocketClient.expect at h
  split at h
  · cases h
  cases h
  constructor
  · intro hs p
    have hp := hs p
    have hset := InsertionMap.countP_set_le s.waiters key ⟨s.nextPromise, deadline⟩
      fun waiter => decide (waiter.promise = p)
    simp only [decide_eq_true_iff] at hset
    change (s.waiters.set key ⟨s.nextPromise, deadline⟩).entries.countP
      (fun e => decide (e.2.promise = p)) + s.asked p + s.answered p ≤
        if p < s.nextPromise + 1 then 1 else 0
    unfold waiting at hp
    by_cases hnew : s.nextPromise = p
    · have hunused := hs.next_unused
      rw [hnew] at hunused
      unfold waiting at hunused
      rw [if_pos hnew] at hset
      rw [if_pos (by omega)]
      omega
    rw [if_neg hnew] at hset
    by_cases hold : p < s.nextPromise
    · rw [if_pos hold] at hp
      rw [if_pos (by omega)]
      omega
    · rw [if_neg hold] at hp
      omega
  · exact fun _ => Nat.le_refl _
  · rfl

/-! ### Steps that leave the requests alone -/

/-- A step of a ceremony, or about its frames; `ends` is whether it touches the session. -/
structure Waits (s s' : PocketClient) (ends : Bool) : Prop where
  moves : Moves s s'
  pending : s'.pending = s.pending
  established : ends = false → s'.established = s.established

theorem Waits.refl (s : PocketClient) (ends : Bool) : Waits s s ends :=
  ⟨Moves.refl s, rfl, fun _ => rfl⟩

theorem Waits.trans {ends : Bool} (h : Waits s s' false) (h' : Waits s' s'' ends) :
    Waits s s'' ends :=
  ⟨h.moves.trans h'.moves, h'.pending.trans h.pending,
    fun hends => (h'.established hends).trans (h.established rfl)⟩

theorem Waits.suspend (s : PocketClient) (i : Nat) (call : Call) (ends : Bool) :
    Waits s (s.suspend i call) ends :=
  ⟨Moves.same rfl rfl rfl rfl rfl, rfl, fun _ => rfl⟩

theorem Waits.finish (s : PocketClient) (i : Nat) (ends : Bool) : Waits s (s.finish i) ends :=
  ⟨Moves.same rfl rfl rfl rfl rfl, rfl, fun _ => rfl⟩

theorem Waits.unavailable (s : PocketClient) (i : Nat) : Waits s (s.unavailable i) true :=
  ⟨Moves.same rfl rfl rfl rfl rfl, rfl, nofun⟩

theorem Waits.settleWaiter {waiter : CiphertextWaiter} (hget : s.waiters.get key = some waiter)
    (settlement : Settlement) (ends : Bool) :
    Waits s { s.settle waiter.promise settlement with waiters := s.waiters.delete key } ends :=
  ⟨Moves.settleWaiter hget settlement, rfl, fun _ => rfl⟩

theorem Waits.expect {deadline : Ms} (h : s.expect key deadline = some (s', promise)) :
    Waits s s' false := by
  have hmoves := Moves.expect h
  unfold PocketClient.expect at h
  split at h
  · cases h
  · cases h
    exact ⟨hmoves, rfl, fun _ => rfl⟩

theorem Waits.reclaim (s : PocketClient) (key : WaiterKey) (error : JsString) :
    Waits s (s.reclaim key error) false := by
  unfold PocketClient.reclaim
  split
  · next waiter hget => exact Waits.settleWaiter hget _ false
  · exact Waits.refl s false

theorem Waits.expire (s : PocketClient) (key : WaiterKey) (now : Ms) :
    Waits s (s.expire key now) false := by
  unfold PocketClient.expire
  split
  · next waiter hget =>
      split
      · exact Waits.settleWaiter hget _ false
      · exact Waits.refl s false
  · exact Waits.refl s false

theorem Waits.start (s : PocketClient) (kind : E2eKind) (burrowId inviteId : JsString)
    (opens : Bool) : Waits s (s.start kind burrowId inviteId opens) false := by
  unfold PocketClient.start
  split
  · exact ⟨Moves.same rfl rfl rfl rfl rfl, rfl, fun _ => rfl⟩
  · split
    · exact ⟨Moves.same rfl rfl rfl rfl rfl, rfl, fun _ => rfl⟩
    · exact Waits.refl s false

/-! ### Ceremonies -/

/-- Whether awaiting and sending a ceremony's next frame throws. -/
def exchangeFails (s : PocketClient) (call : Call) (step : E2eBurrowStep) (sends : Bool) : Bool :=
  s.waiters.has ⟨call.kind, call.id, step⟩ || s.ws.isNone || !sends

theorem has_of_expect_none {deadline : Ms} (h : s.expect key deadline = none) :
    s.waiters.has key = true := by
  unfold PocketClient.expect at h
  split at h
  · assumption
  · cases h

theorem Waits.exchange (s : PocketClient) (i : Nat) (call : Call) (step : E2eBurrowStep)
    (sends : Bool) :
    Waits s (s.exchange i call step sends) (s.exchangeFails call step sends) := by
  unfold PocketClient.exchange exchangeFails
  dsimp only
  rcases hexpect : s.expect ⟨call.kind, call.id, step⟩ call.deadline with _ | awaited
  · rw [has_of_expect_none hexpect]
    exact Waits.unavailable s i
  obtain ⟨s', promise⟩ := awaited
  have hwaits := Waits.expect hexpect
  have hws : s'.ws = s.ws := by
    unfold PocketClient.expect at hexpect
    split at hexpect
    · cases hexpect
    · cases hexpect
      rfl
  dsimp only
  rw [hws]
  by_cases hfails : s.ws.isNone = true ∨ sends = false
  · rw [if_pos hfails]
    have hends : (s.waiters.has ⟨call.kind, call.id, step⟩ || s.ws.isNone || !sends) = true := by
      rcases hfails with hws' | hsends
      · simp [hws']
      · simp [hsends]
    rw [hends]
    exact hwaits.trans ((Waits.reclaim s' _ _).trans (Waits.unavailable _ i))
  · rw [if_neg hfails]
    exact hwaits.trans (Waits.suspend s' i _ _)

/-- Whether the step of a ceremony ends the session there is: its exchange fails, its
outcome is a `pairing-required` that has been dealt with, or it establishes a new one. -/
def endsCeremony (s : PocketClient) : PocketAct → Bool
  | .message1Written i ok sends => (s.calls[i]?).any fun call =>
    decide (call.wait = .message1) &&
      if ok then s.exchangeFails call .response sends else decide (call.kind = .connection)
  | .responseAwaited i => (s.calls[i]?).any fun call =>
    match call.wait with
    | .response promise =>
      match s.settlementOf promise with
      | none | some (.ciphertext _) => false
      | some _ => true
    | _ => false
  | .message2Read i ok => (s.calls[i]?).any fun call => decide (call.wait = .message2) && !ok
  | .presenceProved i ok sends => (s.calls[i]?).any fun call =>
    decide (call.wait = .presence) && ok && s.exchangeFails call .transport sends
  | .outcomeAwaited i receipt _ => (s.calls[i]?).any fun call =>
    match call.wait with
    | .outcome promise =>
      match s.settlementOf promise with
      | none => false
      | some (.ciphertext _) =>
        match receipt with
        | some (.control .ok) => decide (call.kind = .connection)
        | some (.control _) => false
        | some .keepalive => s.waiters.has ⟨call.kind, call.id, .transport⟩
        | _ => true
      | some _ => true
    | _ => false
  | .authorizationDropped i => (s.calls[i]?).any fun call => decide (call.wait = .dropAuthorization)
  | _ => false

/-- A ceremony's own acts. -/
def ofCeremony : PocketAct → Bool
  | .pair .. | .connect .. | .expire .. | .socketReady .. | .recordRead .. | .initiatorReady ..
  | .message1Written .. | .responseAwaited .. | .message2Read .. | .presenceProved ..
  | .outcomeAwaited .. | .authorizationDropped .. => true
  | _ => false

theorem Waits.socketReady (s : PocketClient) (i : Nat) (opened : Bool) (now : Ms) :
    Waits s (s.socketReady i opened now) false := by
  unfold PocketClient.socketReady
  split
  · split
    · split
      · split
        · exact Waits.suspend s i _ false
        · exact Waits.suspend s i _ false
      · exact Waits.finish s i false
    · exact Waits.refl s false
  · exact Waits.refl s false

theorem Waits.recordRead (s : PocketClient) (i : Nat) (paired : Bool) (connectionId : JsString)
    (now : Ms) : Waits s (s.recordRead i paired connectionId now) false := by
  unfold PocketClient.recordRead
  split
  · split
    · split
      · exact Waits.suspend s i _ false
      · exact Waits.finish s i false
    · exact Waits.refl s false
  · exact Waits.refl s false

theorem Waits.initiatorReady (s : PocketClient) (i : Nat) (ok : Bool) :
    Waits s (s.initiatorReady i ok) false := by
  unfold PocketClient.initiatorReady
  split
  · split
    · split
      · exact Waits.suspend s i _ false
      · exact Waits.finish s i false
    · exact Waits.refl s false
  · exact Waits.refl s false

theorem Waits.message1Written (s : PocketClient) (i : Nat) (ok sends : Bool) :
    Waits s (s.message1Written i ok sends) (s.endsCeremony (.message1Written i ok sends)) := by
  unfold PocketClient.message1Written
  dsimp only [endsCeremony]
  rcases hi : s.calls[i]? with _ | call
  · exact Waits.refl s _
  dsimp only [Option.any_some]
  by_cases hwait : call.wait = .message1
  · rw [if_pos hwait, decide_eq_true hwait, Bool.true_and]
    cases ok with
    | true => exact Waits.exchange s i call .response sends
    | false =>
      by_cases hkind : call.kind = .connection
      · simp only [hkind, if_true, decide_true, Bool.false_eq_true, if_false]
        exact Waits.unavailable s i
      · simp only [if_neg hkind, Bool.false_eq_true, if_false]
        exact Waits.finish s i _
  · rw [if_neg hwait]
    exact Waits.refl s _
 
theorem Waits.responseAwaited (s : PocketClient) (i : Nat) :
    Waits s (s.responseAwaited i) (s.endsCeremony (.responseAwaited i)) := by
  unfold PocketClient.responseAwaited
  dsimp only [endsCeremony]
  rcases hi : s.calls[i]? with _ | call
  · exact Waits.refl s _
  dsimp only [Option.any_some]
  cases hwait : call.wait with
  | response promise =>
    dsimp only
    cases hsettled : s.settlementOf promise with
    | none => exact Waits.refl s _
    | some settlement =>
      cases settlement with
      | ciphertext ct => exact Waits.suspend s i _ _
      | result result => exact Waits.unavailable s i
      | rejected error => exact Waits.unavailable s i
  | _ => exact Waits.refl s _

theorem Waits.message2Read (s : PocketClient) (i : Nat) (ok : Bool) :
    Waits s (s.message2Read i ok) (s.endsCeremony (.message2Read i ok)) := by
  unfold PocketClient.message2Read
  dsimp only [endsCeremony]
  rcases hi : s.calls[i]? with _ | call
  · exact Waits.refl s _
  dsimp only [Option.any_some]
  by_cases hwait : call.wait = .message2
  · rw [if_pos hwait, decide_eq_true hwait]
    cases ok with
    | true => exact Waits.suspend s i _ _
    | false => exact Waits.unavailable s i
  · rw [if_neg hwait]
    exact Waits.refl s _

theorem Waits.presenceProved (s : PocketClient) (i : Nat) (ok sends : Bool) :
    Waits s (s.presenceProved i ok sends) (s.endsCeremony (.presenceProved i ok sends)) := by
  unfold PocketClient.presenceProved
  dsimp only [endsCeremony]
  rcases hi : s.calls[i]? with _ | call
  · exact Waits.refl s _
  dsimp only [Option.any_some]
  by_cases hwait : call.wait = .presence
  · rw [if_pos hwait, decide_eq_true hwait]
    cases ok with
    | true => exact Waits.exchange s i call .transport sends
    | false => exact Waits.finish s i _
  · rw [if_neg hwait]
    exact Waits.refl s _

theorem Waits.ceremonyOutcome (s : PocketClient) (i : Nat) (call : Call)
    (outcome : CeremonyOutcome) (now : Ms) :
    Waits s (s.ceremonyOutcome i call outcome now)
      (match outcome with
        | .ok => decide (call.kind = .connection)
        | _ => false) := by
  unfold PocketClient.ceremonyOutcome
  cases hkind : call.kind with
  | pairing =>
    cases outcome with
    | malformed => exact Waits.finish s i _
    | ok => exact Waits.finish s i _
    | denied pairingRequired => exact Waits.finish s i _
  | connection =>
    cases outcome with
    | malformed => exact Waits.finish s i _
    | ok => exact ⟨Moves.same rfl rfl rfl rfl rfl, rfl, nofun⟩
    | denied pairingRequired =>
      cases pairingRequired with
      | false => exact Waits.finish s i _
      | true => exact Waits.suspend s i _ _

theorem Waits.outcomeAwaited (s : PocketClient) (i : Nat) (receipt : Option CeremonyReceipt)
    (now : Ms) :
    Waits s (s.outcomeAwaited i receipt now) (s.endsCeremony (.outcomeAwaited i receipt now)) := by
  unfold PocketClient.outcomeAwaited
  dsimp only [endsCeremony]
  rcases hi : s.calls[i]? with _ | call
  · exact Waits.refl s _
  dsimp only [Option.any_some]
  cases hwait : call.wait with
  | outcome promise =>
    dsimp only
    rcases hsettled : s.settlementOf promise with _ | settlement
    · exact Waits.refl s _
    cases settlement with
    | result result => exact Waits.unavailable s i
    | rejected error => exact Waits.unavailable s i
    | ciphertext ct =>
      rcases receipt with _ | receipt
      · exact Waits.unavailable s i
      cases receipt with
      | app => exact Waits.unavailable s i
      | control outcome =>
        have houtcome := Waits.ceremonyOutcome s i call outcome now
        cases outcome with
        | malformed => exact houtcome
        | ok => exact houtcome
        | denied pairingRequired => exact houtcome
      | keepalive =>
        cases hexpect : s.expect ⟨call.kind, call.id, .transport⟩
            call.deadline with
        | none =>
          rw [has_of_expect_none hexpect]
          exact Waits.unavailable s i
        | some awaited =>
          exact (Waits.expect hexpect).trans (Waits.suspend _ i _ _)
  | _ => exact Waits.refl s _

theorem Waits.authorizationDropped (s : PocketClient) (i : Nat) :
    Waits s (s.authorizationDropped i) (s.endsCeremony (.authorizationDropped i)) := by
  unfold PocketClient.authorizationDropped
  dsimp only [endsCeremony]
  cases hi : s.calls[i]? with
  | none => exact Waits.refl s _
  | some call =>
    dsimp only [Option.any_some]
    by_cases hwait : call.wait = .dropAuthorization
    · rw [if_pos hwait, decide_eq_true hwait]
      exact Waits.unavailable s i
    · rw [if_neg hwait]
      exact Waits.refl s _

/-- Every act of a ceremony leaves the requests alone, and the session too unless it ends it. -/
theorem waits_of_ceremony {act : PocketAct} (h : ofCeremony act = true) :
    Waits s (s.perform act) (s.endsCeremony act) := by
  cases act with
  | pair burrowId inviteId opens => exact Waits.start s .pairing burrowId inviteId opens
  | connect burrowId opens => exact Waits.start s .connection burrowId [] opens
  | expire key now => exact Waits.expire s key now
  | socketReady i opened now => exact Waits.socketReady s i opened now
  | recordRead i paired connectionId now => exact Waits.recordRead s i paired connectionId now
  | initiatorReady i ok => exact Waits.initiatorReady s i ok
  | message1Written i ok sends => exact Waits.message1Written s i ok sends
  | responseAwaited i => exact Waits.responseAwaited s i
  | message2Read i ok => exact Waits.message2Read s i ok
  | presenceProved i ok sends => exact Waits.presenceProved s i ok sends
  | outcomeAwaited i receipt now => exact Waits.outcomeAwaited s i receipt now
  | authorizationDropped i => exact Waits.authorizationDropped s i
  | request | keepalive | close | message | appMessage | closed => cases h

/-! ### Everything rejected -/

/-- A step that rejects every pending request. -/
structure Clears (s s' : PocketClient) : Prop where
  moves : Moves s s'
  pending : s'.pending.entries = []
  rejected : ∀ promise ∈ s.pending.values, ∃ error, (promise, .rejected error) ∈ s'.settled

theorem Clears.rejectAll (s : PocketClient) (error : JsString) : Clears s (s.rejectAll error) where
  moves := Moves.rejectAll s error
  pending := rfl
  rejected _ hpromise :=
    ⟨error, List.mem_append_right _ (List.mem_map_of_mem hpromise)⟩

theorem Moves.disposeCeremony (s : PocketClient) : Moves s s.disposeCeremony :=
  Moves.same rfl rfl rfl rfl rfl

theorem Moves.notifyGone (s : PocketClient) : Moves s s.notifyGone :=
  Moves.same rfl rfl rfl rfl rfl

theorem Clears.teardown (s : PocketClient) (reason : JsString) (notify : Bool) :
    Clears s (s.teardown reason notify) := by
  have hoff : Moves s ({ s with ws := none }.disposeCeremony) := Moves.same rfl rfl rfl rfl rfl
  have hclears : Clears s (({ s with ws := none }.disposeCeremony).rejectAll reason) :=
    { moves := hoff.trans (Moves.rejectAll _ reason)
      pending := rfl
      rejected := fun _ hpromise =>
        ⟨reason, List.mem_append_right _ (List.mem_map_of_mem hpromise)⟩ }
  unfold PocketClient.teardown
  split
  · exact ⟨hclears.moves.trans (Moves.notifyGone _), rfl, hclears.rejected⟩
  · exact hclears

theorem Clears.gone (s : PocketClient) (error : JsString) :
    Clears s ((s.disposeCeremony.rejectAll error).notifyGone) where
  moves := ((Moves.disposeCeremony s).trans (Moves.rejectAll _ error)).trans (Moves.notifyGone _)
  pending := rfl
  rejected _ hpromise :=
    ⟨error, List.mem_append_right _ (List.mem_map_of_mem hpromise)⟩

/-- The two answers of `reapedByBurrow`. -/
theorem reapedByBurrow_cases (s : PocketClient) (established : EstablishedSession) (now : Ms) :
    s.reapedByBurrow established now = (s, false) ∨
      ∃ s', s.reapedByBurrow established now = (s', true) ∧ Clears s s' := by
  unfold reapedByBurrow
  split
  · exact .inl rfl
  · exact .inr ⟨_, rfl, Clears.gone s _⟩

/-- A session that has just been sent on. -/
def sentOn (s : PocketClient) (established : EstablishedSession) (now : Ms) : PocketClient :=
  { s with established := some { established with lastSentAt := now } }

theorem sendApp_cases (s : PocketClient) (sends : Bool) (now : Ms) :
    (∃ error, s.sendApp sends now = (s, .error error)) ∨
    (∃ s' error, s.sendApp sends now = (s', .error error) ∧ Clears s s') ∨
    ∃ e, s.established = some e ∧ s.sendApp sends now = (s.sentOn e now, .ok ()) := by
  unfold PocketClient.sendApp
  rcases hestablished : s.established with _ | e
  · exact .inl ⟨_, rfl⟩
  rcases hconnected : s.connectedBurrowId with _ | burrowId
  · exact .inl ⟨_, rfl⟩
  dsimp only
  rcases reapedByBurrow_cases s e now with hlive | ⟨s', hreaped, hclears⟩
  · rw [hlive]
    dsimp only
    split
    · exact .inl ⟨_, rfl⟩
    · exact .inr (.inr ⟨e, rfl, rfl⟩)
  · rw [hreaped]
    exact .inr (.inl ⟨s', _, rfl, hclears⟩)

theorem sendKeepalive_cases (s : PocketClient) (sends : Bool) (now : Ms) :
    s.sendKeepalive sends now = s ∨ Clears s (s.sendKeepalive sends now) ∨
      ∃ e, s.established = some e ∧ s.sendKeepalive sends now = s.sentOn e now := by
  unfold PocketClient.sendKeepalive
  rcases hestablished : s.established with _ | e
  · exact .inl rfl
  rcases hconnected : s.connectedBurrowId with _ | burrowId
  · exact .inl rfl
  dsimp only
  rcases reapedByBurrow_cases s e now with hlive | ⟨s', hreaped, hclears⟩
  · rw [hlive]
    dsimp only
    split
    · exact .inl rfl
    · exact .inr (.inr ⟨e, rfl, rfl⟩)
  · rw [hreaped]
    exact .inr (.inl hclears)

/-! ### One step -/

/-- With no session, nothing is pending. -/
def Idle (s : PocketClient) : Prop := s.established = none → s.pending.entries = []

/-- The session there was is disposed of, or another is in its place. -/
def Disposed (s s' : PocketClient) : Prop :=
  ∃ e, s.established = some e ∧ ∀ e', s'.established = some e' → e'.session ≠ e.session

/-- A step keeps `Idle`, and what it disposes of has nothing left pending. -/
structure Safe (s s' : PocketClient) : Prop where
  idle : s.Idle → s'.Idle
  rejected : Disposed s s' → ∀ promise ∈ s.pending.values,
    ∃ error, (promise, .rejected error) ∈ s'.settled

theorem not_disposed_of_eq (h : s'.established = s.established) : ¬ Disposed s s' := by
  rintro ⟨e, he, hne⟩
  exact hne e (h.trans he) rfl

theorem not_disposed_sentOn {e : EstablishedSession} {now : Ms} (he : s.established = some e) :
    ¬ Disposed s (s.sentOn e now) := by
  rintro ⟨e', he', hne⟩
  rw [he] at he'
  cases he'
  exact hne _ rfl rfl

theorem Clears.safe (h : Clears s s') : Safe s s' :=
  ⟨fun _ _ => h.pending, fun _ => h.rejected⟩

theorem Waits.safe {ends : Bool} (h : Waits s s' ends)
    (hclean : s.pending.entries = [] ∨ ends = false) : Safe s s' := by
  rcases hclean with hnone | hends
  · refine ⟨fun _ _ => by rw [h.pending]; exact hnone, fun _ promise hpromise => ?_⟩
    rw [InsertionMap.values, hnone] at hpromise
    cases hpromise
  · have hsame := h.established hends
    refine ⟨fun hidle hnone => ?_, fun hdisposed => absurd hdisposed (not_disposed_of_eq hsame)⟩
    rw [h.pending]
    exact hidle (hsame ▸ hnone)

/-- The answer to a request. -/
theorem onMsg_spec (s : PocketClient) (message : AppMessage) :
    Moves s (s.onMsg message) ∧ (s.onMsg message).established = s.established ∧
      (s.Idle → (s.onMsg message).Idle) := by
  unfold PocketClient.onMsg
  split
  · split
    · exact ⟨Moves.refl s, rfl, id⟩
    · next hget =>
        refine ⟨Moves.settlePending hget _, rfl, fun hidle hnone => ?_⟩
        rw [InsertionMap.get_eq_some, hidle hnone] at hget
        cases hget
  · exact ⟨Moves.refl s, rfl, id⟩

theorem foldl_onMsg_spec (messages : List AppMessage) : ∀ s : PocketClient,
    Moves s (messages.foldl onMsg s) ∧ (messages.foldl onMsg s).established = s.established ∧
      (s.Idle → (messages.foldl onMsg s).Idle) := by
  induction messages with
  | nil => exact fun s => ⟨Moves.refl s, rfl, id⟩
  | cons message messages ih =>
    intro s
    obtain ⟨hmoves, hsame, hidle⟩ := onMsg_spec s message
    obtain ⟨hmoves', hsame', hidle'⟩ := ih (s.onMsg message)
    exact ⟨hmoves.trans hmoves', hsame'.trans hsame, fun h => hidle' (hidle h)⟩

theorem onMessage_spec (s : PocketClient) (ws : Nat) (frame : RelayToClientFrame)
    (receipt : Option TransportReceipt) :
    Moves s (s.onMessage ws frame receipt) ∧ Safe s (s.onMessage ws frame receipt) := by
  have hstays : Moves s s ∧ Safe s s :=
    ⟨Moves.refl s, (Waits.refl s false).safe (.inr rfl)⟩
  have hclears : ∀ {s'}, Clears s s' → Moves s s' ∧ Safe s s' := fun h => ⟨h.moves, h.safe⟩
  unfold PocketClient.onMessage
  split
  · unfold PocketClient.onFrame
    split
    · unfold PocketClient.onE2e
      split
      · unfold PocketClient.onEstablishedFrame
        split
        · exact hclears (Clears.teardown s _ _)
        · obtain ⟨hmoves, hsame, hidle⟩ := foldl_onMsg_spec _ s
          exact ⟨hmoves, hidle, fun h => absurd h (not_disposed_of_eq hsame)⟩
        · exact hstays
      · dsimp only
        split
        · exact hstays
        · next waiter hget =>
            exact ⟨Moves.settleWaiter hget _, (Waits.settleWaiter hget _ false).safe (.inr rfl)⟩
    · exact hclears (Clears.gone s _)
    · exact hclears (Clears.rejectAll s _)
  · exact hstays

theorem onClose_spec (s : PocketClient) (ws : Nat) :
    Moves s (s.onClose ws) ∧ Safe s (s.onClose ws) := by
  unfold PocketClient.onClose
  split
  · exact ⟨(Clears.teardown s _ _).moves, (Clears.teardown s _ _).safe⟩
  · exact ⟨Moves.refl s, (Waits.refl s false).safe (.inr rfl)⟩

theorem sendKeepalive_spec (s : PocketClient) (sends : Bool) (now : Ms) :
    Moves s (s.sendKeepalive sends now) ∧ Safe s (s.sendKeepalive sends now) := by
  rcases sendKeepalive_cases s sends now with hsame | hclears | ⟨e, he, hsent⟩
  · rw [hsame]
    exact ⟨Moves.refl s, (Waits.refl s false).safe (.inr rfl)⟩
  · exact ⟨hclears.moves, hclears.safe⟩
  · rw [hsent]
    refine ⟨Moves.same rfl rfl rfl rfl rfl, nofun, fun h => absurd h (not_disposed_sentOn he)⟩

/-! ### A request -/

/-- A request's promise, made and put under its id. -/
def register (s : PocketClient) (requestId : JsString) : PocketClient :=
  { s with
    nextPromise := s.nextPromise + 1
    requests := s.requests ++ [s.nextPromise]
    pending := s.pending.set requestId s.nextPromise }

/-- A request is made, then it is sent, or it settles. -/
theorem request_cases (s : PocketClient) (requestId : JsString) (sends : Bool) (now : Ms) :
    (∃ error, s.request requestId sends now =
      { (s.register requestId).settle s.nextPromise (.rejected error) with
        pending := (s.register requestId).pending.delete requestId }) ∨
    Clears (s.register requestId) (s.request requestId sends now) ∨
    ∃ e, s.established = some e ∧
      s.request requestId sends now = (s.register requestId).sentOn e now := by
  have hregister : ({ s with
      nextPromise := s.nextPromise + 1
      requests := s.requests ++ [s.nextPromise]
      pending := s.pending.set requestId s.nextPromise } : PocketClient) =
      s.register requestId := rfl
  unfold request
  simp only [hregister]
  rcases sendApp_cases (s.register requestId) sends now with
    ⟨error, hsent⟩ | ⟨s', error, hsent, hclears⟩ | ⟨e, he, hsent⟩
  · rw [hsent]
    have hget : (s.register requestId).pending.get requestId = some s.nextPromise :=
      InsertionMap.get_set_self _ _ _
    dsimp only
    rw [hget]
    exact .inl ⟨error, rfl⟩
  · rw [hsent]
    have hget : s'.pending.get requestId = none := by
      rw [InsertionMap.get_eq_none, InsertionMap.keys, hclears.pending]
      exact List.not_mem_nil
    dsimp only
    rw [hget]
    exact .inr (.inl hclears)
  · rw [hsent]
    exact .inr (.inr ⟨e, he, rfl⟩)

theorem numbered_register (h : s.Numbered) (requestId : JsString) :
    (s.register requestId).Numbered := by
  intro p
  have hp := h p
  have hset := InsertionMap.countP_set_le s.pending requestId s.nextPromise
    fun promise => decide (promise = p)
  simp only [decide_eq_true_iff] at hset
  change s.waiting p + (s.pending.set requestId s.nextPromise).entries.countP
    (fun e => decide (e.2 = p)) + s.answered p ≤ if p < s.nextPromise + 1 then 1 else 0
  unfold asked at hp
  by_cases hnew : s.nextPromise = p
  · have hunused := h.next_unused
    rw [hnew] at hunused
    unfold asked at hunused
    rw [if_pos hnew] at hset
    rw [if_pos (by omega)]
    omega
  rw [if_neg hnew] at hset
  by_cases hold : p < s.nextPromise
  · rw [if_pos hold] at hp
    rw [if_pos (by omega)]
    omega
  · rw [if_neg hold] at hp
    omega

/-- What a request does to the promises once it is made. -/
theorem request_moves (s : PocketClient) (requestId : JsString) (sends : Bool) (now : Ms) :
    Moves (s.register requestId) (s.request requestId sends now) := by
  rcases request_cases s requestId sends now with ⟨error, hrefused⟩ | hclears | ⟨e, -, hsent⟩
  · rw [hrefused]
    exact Moves.settlePending (InsertionMap.get_set_self _ _ _) _
  · exact hclears.moves
  · rw [hsent]
    exact Moves.same rfl rfl rfl rfl rfl

/-- An id that is not pending adds its request to those that are. -/
theorem asked_register (hfresh : s.pending.has requestId = false) (promise : Nat) :
    (s.register requestId).asked promise =
      s.asked promise + if s.nextPromise = promise then 1 else 0 := by
  change (s.pending.set requestId s.nextPromise).entries.countP
    (fun e => decide (e.2 = promise)) = _
  rw [InsertionMap.entries_set_of_fresh hfresh, List.countP_append, List.countP_singleton]
  simp only [decide_eq_true_iff]
  rfl

theorem request_safe (hfresh : s.pending.has requestId = false) (sends : Bool) (now : Ms) :
    Safe s (s.request requestId sends now) := by
  have hentries := InsertionMap.entries_set_of_fresh hfresh s.nextPromise
  rcases request_cases s requestId sends now with ⟨error, hrefused⟩ | hclears | ⟨e, he, hsent⟩
  · rw [hrefused]
    refine ⟨fun hidle hnone => ?_, fun h => absurd h (not_disposed_of_eq rfl)⟩
    have hnothing := hidle hnone
    change ((s.pending.set requestId s.nextPromise).entries.filter
      fun e => e.1 ≠ requestId) = []
    rw [hentries, hnothing]
    simp
  · refine ⟨fun _ _ => hclears.pending, fun _ promise hpromise => hclears.rejected promise ?_⟩
    change promise ∈ (s.pending.set requestId s.nextPromise).entries.map Prod.snd
    rw [hentries, List.map_append]
    exact List.mem_append_left _ hpromise
  · rw [hsent]
    refine ⟨nofun, fun hdisposed => absurd hdisposed ?_⟩
    rintro ⟨e', he', hne⟩
    rw [he] at he'
    cases he'
    exact hne _ rfl rfl

/-! ### Runs -/

theorem numbered_step {act : PocketAct} (h : s.Numbered) (hstep : pocketRuns.step s act s') :
    s'.Numbered := by
  obtain rfl : s' = s.perform act := hstep
  cases act with
  | request requestId sends now =>
    exact (request_moves s requestId sends now).numbered (numbered_register h requestId)
  | keepalive sends now => exact (sendKeepalive_spec s sends now).1.numbered h
  | close => exact (Clears.teardown s _ _).moves.numbered h
  | message ws frame receipt => exact (onMessage_spec s ws frame receipt).1.numbered h
  | appMessage message => exact (onMsg_spec s message).1.numbered h
  | closed ws => exact (onClose_spec s ws).1.numbered h
  | _ => exact (waits_of_ceremony rfl).moves.numbered h

theorem numbered_fresh : fresh.Numbered := fun _ => Nat.zero_le _

theorem numbered_inductive : pocketRuns.Inductive Numbered where
  init hinit := by
    cases hinit
    exact numbered_fresh
  step h hstep := numbered_step h hstep

/-- No ceremony ends while a request is pending, and no request takes an id that is pending. -/
def clean (s : PocketClient) : PocketAct → Bool
  | .request requestId _ _ => !s.pending.has requestId
  | act => s.pending.entries.isEmpty || !s.endsCeremony act

/-- The runs whose steps are all clean. -/
def cleanRuns : System PocketClient PocketAct where
  init s := s = fresh
  step s act s' := s.clean act = true ∧ s' = s.perform act

theorem safe_step {act : PocketAct} (hclean : s.clean act = true) : Safe s (s.perform act) := by
  cases act with
  | request requestId sends now => exact request_safe (by simpa [clean] using hclean) sends now
  | keepalive sends now => exact (sendKeepalive_spec s sends now).2
  | close => exact (Clears.teardown s (js "relay socket closed") false).safe
  | message ws frame receipt => exact (onMessage_spec s ws frame receipt).2
  | appMessage message =>
    obtain ⟨-, hsame, hidle⟩ := onMsg_spec s message
    exact ⟨hidle, fun h => absurd h (not_disposed_of_eq hsame)⟩
  | closed ws => exact (onClose_spec s ws).2
  | _ => exact (waits_of_ceremony rfl).safe (by simpa [clean] using hclean)

/-- Every request made is pending or has settled. -/
def Accounted (s : PocketClient) : Prop :=
  ∀ promise ∈ s.requests, 0 < s.asked promise + s.answered promise

theorem Moves.accounted (hmoves : Moves s s') (h : s.Accounted) : s'.Accounted := by
  intro promise hpromise
  rw [hmoves.requests] at hpromise
  exact Nat.lt_of_lt_of_le (h promise hpromise) (hmoves.kept promise)

theorem accounted_register (hfresh : s.pending.has requestId = false) (h : s.Accounted) :
    (s.register requestId).Accounted := by
  intro promise hpromise
  rw [asked_register hfresh]
  have hsame : (s.register requestId).answered promise = s.answered promise := rfl
  rcases List.mem_append.1 hpromise with hold | hnew
  · have hpos := h promise hold
    omega
  · rw [List.mem_singleton.1 hnew, if_pos rfl]
    omega

theorem accounted_step {act : PocketAct} (hclean : s.clean act = true) (h : s.Accounted) :
    (s.perform act).Accounted := by
  cases act with
  | request requestId sends now =>
    exact (request_moves s requestId sends now).accounted
      (accounted_register (by simpa [clean] using hclean) h)
  | keepalive sends now => exact (sendKeepalive_spec s sends now).1.accounted h
  | close => exact (Clears.teardown s _ _).moves.accounted h
  | message ws frame receipt => exact (onMessage_spec s ws frame receipt).1.accounted h
  | appMessage message => exact (onMsg_spec s message).1.accounted h
  | closed ws => exact (onClose_spec s ws).1.accounted h
  | _ => exact (waits_of_ceremony rfl).moves.accounted h

theorem clean_inductive : cleanRuns.Inductive fun s => s.Idle ∧ s.Accounted where
  init hinit := by
    cases hinit
    exact ⟨fun _ => rfl, fun _ hpromise => by cases hpromise⟩
  step := by
    rintro s s' act ⟨hidle, haccounted⟩ ⟨hclean, rfl⟩
    exact ⟨(safe_step hclean).idle hidle, accounted_step hclean haccounted⟩

theorem mem_values_of_asked (h : 0 < s.asked promise) : promise ∈ s.pending.values := by
  obtain ⟨e, he, heq⟩ := List.countP_pos_iff.1 h
  exact of_decide_eq_true heq ▸ List.mem_map_of_mem he

theorem mem_settled_of_answered (h : 0 < s.answered promise) :
    ∃ settlement, (promise, settlement) ∈ s.settled := by
  obtain ⟨⟨p, settlement⟩, he, heq⟩ := List.countP_pos_iff.1 h
  obtain rfl : p = promise := of_decide_eq_true heq
  exact ⟨settlement, he⟩

/-- **No request hangs** in a run in which no ceremony ends under a pending request and no
request takes a pending id: with no session nothing is pending, every request made is
pending or has settled, and a session that is disposed of or replaced has all its pending
requests rejected. That nothing settles twice holds in every run. -/
theorem no_request_hangs (s : PocketClient) :
    (pocketRuns.Reachable s → (s.settled.map Prod.fst).Nodup) ∧
    (cleanRuns.Reachable s →
      (s.established = none → s.pending.entries = []) ∧
      (∀ promise ∈ s.requests, promise ∈ s.pending.values ∨
        ∃ settlement, (promise, settlement) ∈ s.settled) ∧
      ∀ act s', cleanRuns.step s act s' → Disposed s s' →
        ∀ promise ∈ s.pending.values, ∃ error, (promise, .rejected error) ∈ s'.settled) := by
  refine ⟨fun hs => ?_, fun hs => ?_⟩
  · have h := numbered_inductive.reachable hs
    refine List.nodup_iff_count_le_one.2 fun p => ?_
    have hp := h p
    have hcount : (s.settled.map Prod.fst).count p = s.answered p := by
      rw [List.count, List.countP_map]
      rfl
    rw [hcount]
    split at hp
    · omega
    · omega
  · obtain ⟨hidle, haccounted⟩ := clean_inductive.reachable hs
    refine ⟨hidle, fun promise hpromise => ?_, ?_⟩
    · have hpos := haccounted promise hpromise
      by_cases hasked : 0 < s.asked promise
      · exact .inl (mem_values_of_asked hasked)
      · exact .inr (mem_settled_of_answered (by omega))
    · rintro act s' ⟨hclean, rfl⟩
      exact (safe_step hclean).rejected

/-! ### One connection -/

/-- The acts one after another. -/
def performAll (s : PocketClient) (acts : List PocketAct) : PocketClient :=
  acts.foldl perform s

/-- Whether every one of them is clean. -/
def allClean (s : PocketClient) : List PocketAct → Bool
  | [] => true
  | act :: acts => s.clean act && (s.perform act).allClean acts

theorem reachable_performAll (hs : pocketRuns.Reachable s) :
    ∀ acts, pocketRuns.Reachable (s.performAll acts) :=
  fun acts => hs.foldl (fun _ _ => rfl) acts

theorem reachable_allClean (hs : cleanRuns.Reachable s) :
    ∀ acts, s.allClean acts = true → cleanRuns.Reachable (s.performAll acts) := by
  intro acts
  induction acts generalizing s with
  | nil => exact fun _ => hs
  | cons act acts ih =>
    intro hclean
    rw [allClean, Bool.and_eq_true] at hclean
    exact ih (.next hs ⟨hclean.1, rfl⟩) hclean.2

end PocketClient

namespace OneConnection

open PocketClient

def frame (id : JsString) (step : E2eBurrowStep) : RelayToClientFrame :=
  .e2e ⟨js "burrow", .connection, id, step, js "AAAA"⟩

/-- A connection is established over socket 0, and a request made on it. -/
def connecting : List PocketAct :=
  [.connect (js "burrow-1") true, .socketReady 0 true 0,
    .recordRead 0 true (js "connection-1") 0, .initiatorReady 0 true, .message1Written 0 true true,
    .message 0 (frame (js "connection-1") .response) none, .responseAwaited 0,
    .message2Read 0 true, .presenceProved 0 true true,
    .message 0 (frame (js "connection-1") .transport) none,
    .outcomeAwaited 0 (some (.control .ok)) 1, .request (js "request-1") true 2]

/-- A second one fails in its handshake. -/
def failing : List PocketAct :=
  [.connect (js "burrow-2") true, .socketReady 0 true 3, .recordRead 0 true (js "connection-2") 3,
    .initiatorReady 0 true, .message1Written 0 true true,
    .message 0 (frame (js "connection-2") .response) none, .responseAwaited 0,
    .message2Read 0 false]

def requested : PocketClient := fresh.performAll connecting

def failed : PocketClient := requested.performAll failing

end OneConnection

/-- Closing a connected client rejects the request that is pending on it. -/
theorem PocketClient.no_request_hangs_close :
    OneConnection.requested.pending.values = [2] ∧
    ∃ error, (2, .rejected error) ∈ OneConnection.requested.close.settled := by
  have hpending : OneConnection.requested.pending.values = [2] := by decide +kernel
  have hsession : OneConnection.requested.established.isSome = true := by decide +kernel
  have hreachable : cleanRuns.Reachable OneConnection.requested :=
    reachable_allClean (.start rfl) _ (by decide +kernel)
  obtain ⟨e, he⟩ := Option.isSome_iff_exists.1 hsession
  refine ⟨hpending, ((no_request_hangs _).2 hreachable).2.2 .close _ ⟨by decide +kernel, rfl⟩ ?_ 2 ?_⟩
  · exact ⟨e, he, nofun⟩
  · rw [hpending]
    exact List.mem_singleton_self 2

/-- A second ceremony that fails takes the session away from under a pending request. -/
theorem PocketClient.request_hangs :
    ¬ ∀ s, pocketRuns.Reachable s → s.established = none → s.pending.entries = [] := by
  intro hall
  have hreachable : pocketRuns.Reachable OneConnection.failed :=
    reachable_performAll (reachable_performAll (.start rfl) _) _
  have hgone : OneConnection.failed.established = none := by decide +kernel
  have hpending : OneConnection.failed.pending.entries.isEmpty = false := by decide +kernel
  rw [hall _ hreachable hgone] at hpending
  cases hpending

end Dormouse.Pocket
