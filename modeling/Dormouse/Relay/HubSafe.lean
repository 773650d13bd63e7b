import Dormouse.Relay.HubCalls

/-!
# Dormouse.Relay.HubSafe

**Routing safety of the hub**, over every sequence of calls: a binding names a connected
Burrow and the very connection that its `init` went to, frames pass along bindings only,
and each Burrow is told of each Client that leaves it, once.
-/

namespace Dormouse.Relay

open Burrow

namespace RelayHub

/-! ### The invariant -/

/-- Every binding is to a connected Burrow, by the connection that its `init` went to. -/
structure Safe (hub : RelayHub) (sent : List Delivery) : Prop where
  wellFormed : hub.WellFormed
  bound : ∀ {id b}, hub.binding id = some b →
    ∃ burrow, hub.burrows.get b = some burrow ∧ lastInit id sent = some burrow

theorem Safe.live {hub : RelayHub} {sent : List Delivery} (h : Safe hub sent) {id : ClientId}
    {b : JsString} (hb : hub.binding id = some b) : hub.burrows.get b ≠ none := by
  obtain ⟨burrow, hburrow, -⟩ := h.bound hb
  rw [hburrow]
  exact nofun

theorem Safe.calm {hub hub' : RelayHub} {sent more : List Delivery} (h : Safe hub sent)
    (hwell : hub'.WellFormed) (hcalm : Calm hub hub' more) : Safe hub' (sent ++ more) where
  wellFormed := hwell
  bound := by
    intro id b hb
    obtain ⟨hb, hget⟩ := hcalm.kept hb
    rw [hget, lastInit_append, lastInit_notices hcalm.notices, Option.none_or]
    exact h.bound hb

/-- An envelope that passes along a binding leaves it as it is. -/
theorem Safe.passed {hub : RelayHub} {sent : List Delivery} (h : Safe hub sent) {d : Delivery}
    (hd : ∀ id, initOf id d = none) : Safe hub (sent ++ [d]) where
  wellFormed := h.wellFormed
  bound := by
    intro id b hb
    have hlast : lastInit id [d] = none := by
      simp only [lastInit, List.reverse_singleton, List.findSome?_singleton, hd id]
    rw [lastInit_append, hlast, Option.none_or]
    exact h.bound hb

/-- An `init` binds to the connection it goes to. -/
theorem Safe.init {hub : RelayHub} {sent : List Delivery} (h : Safe hub sent) {client : ClientRef}
    {conn : ClientConn} {burrow : BurrowConn} {frame : E2eClientFrame}
    (hcurrent : hub.currentClient client = some conn)
    (hburrow : hub.burrows.get frame.burrowId = some burrow) (hinit : frame.step = .init) :
    Safe (hub.bindClientToBurrow conn frame.burrowId).1
      (sent ++ ((hub.bindClientToBurrow conn frame.burrowId).2 ++
        [forwarded client burrow frame])) := by
  obtain ⟨hwell, hburrows, hnotices, hbinding, -⟩ :=
    bindClientToBurrow_spec h.wellFormed hcurrent frame.burrowId
  refine ⟨hwell, ?_⟩
  intro id b hb
  rw [hburrows, lastInit_append, lastInit_append, lastInit_notices hnotices, Option.or_none]
  rw [hbinding] at hb
  have hlast : lastInit id [forwarded client burrow frame] =
      if client.clientId = id then some burrow else none := by
    simp only [lastInit, List.reverse_singleton, List.findSome?_singleton, forwarded, initOf,
      hinit, and_true]
  rw [hlast]
  split at hb
  · next hid =>
      rw [if_pos hid, Option.some_or]
      exact ⟨burrow, Option.some.inj hb ▸ hburrow, rfl⟩
  · next hid =>
      rw [if_neg hid, Option.none_or]
      exact h.bound hb

theorem initOf_toClient (client : ClientRef) (frame : RelayToClientFrame) (id : ClientId) :
    initOf id (.toClient client frame) = none := rfl

theorem safe_fresh : Safe fresh [] where
  wellFormed := wellFormed_fresh
  bound h := by cases h

/-- **One call keeps the invariant.** -/
theorem safe_perform (parseJson : JsString → Option Json) {hub : RelayHub} {sent : List Delivery}
    (h : Safe hub sent) (call : HubCall) :
    Safe (hub.perform parseJson call).1 (sent ++ (hub.perform parseJson call).2) := by
  cases call with
  | registerBurrow burrowId =>
    obtain ⟨hwell, hcalm, -⟩ := registerBurrow_spec h.wellFormed h.live burrowId
    exact h.calm hwell hcalm
  | unregisterBurrow burrow =>
    obtain ⟨hwell, hcalm, -⟩ := unregisterBurrow_spec h.wellFormed burrow
    exact h.calm hwell hcalm
  | closeBurrow burrowId =>
    obtain ⟨hwell, hcalm, -⟩ := closeBurrow_spec h.wellFormed burrowId
    exact h.calm hwell hcalm
  | onBurrowFrame burrow raw =>
    rcases onBurrowFrame_cases parseJson h.wellFormed burrow raw with
      hquiet | ⟨conn, frame, -, -, -, -, hsent⟩
    · simp only [perform, hquiet, List.append_nil]
      exact h
    · simp only [perform, hsent]
      exact h.passed (initOf_toClient _ _)
  | registerClient random expiresAt =>
    obtain ⟨hwell, hcalm, -⟩ := registerClient_spec h.wellFormed random expiresAt
    exact h.calm hwell hcalm
  | unregisterClient client =>
    have hreleased := unregisterClient_released h.wellFormed client
    exact h.calm hreleased.wellFormed hreleased.calm
  | closeExpiredClients now =>
    have hreleased := closeExpiredClients_released h.wellFormed now
    exact h.calm hreleased.wellFormed hreleased.calm
  | onClientFrame client raw =>
    rcases onClientFrame_cases parseJson hub client raw with
      hquiet | ⟨error, herror⟩ | ⟨conn, burrow, frame, hcurrent, hburrow,
        ⟨hinit, hsent⟩ | ⟨hstep, -, hsent⟩⟩
    · simp only [perform, hquiet, List.append_nil]
      exact h
    · simp only [perform, herror]
      exact h.passed (initOf_toClient _ _)
    · simp only [perform, hsent]
      exact h.init hcurrent hburrow hinit
    · simp only [perform, hsent]
      refine h.passed ?_
      intro id
      simp only [forwarded, initOf, hstep, and_false, if_false]

/-! ### What one call sends -/

/-- A call that changes nothing and tells no Burrow of a Client tells of none that leaves. -/
theorem gone_of_same {hub : RelayHub} {sent : List Delivery}
    (hsent : ∀ d ∈ sent, ∀ id burrow, d ≠ goneFrame id burrow) (id : ClientId)
    (burrow : BurrowConn) :
    sent.count (goneFrame id burrow) = if hub.Left hub id burrow then 1 else 0 := by
  have hleft : ¬ hub.Left hub id burrow := fun hleft => hleft.2.2 hleft.1.1
  rw [if_neg hleft]
  exact count_goneFrame_eq_zero fun d hd => hsent d hd id burrow

theorem toClient_ne_goneFrame (client : ClientRef) (frame : RelayToClientFrame) (id : ClientId)
    (burrow : BurrowConn) : Delivery.toClient client frame ≠ goneFrame id burrow := nofun

theorem forwarded_ne_goneFrame (client : ClientRef) (conn : BurrowConn) (frame : E2eClientFrame)
    (id : ClientId) (burrow : BurrowConn) : forwarded client conn frame ≠ goneFrame id burrow := by
  intro heq
  cases heq

/-- **Each Burrow is told of each Client that leaves it in this call, once.** -/
theorem perform_gone (parseJson : JsString → Option Json) {hub : RelayHub} {sent : List Delivery}
    (h : Safe hub sent) (call : HubCall) (hfresh : hub.FreshId call) (id : ClientId)
    (burrow : BurrowConn) :
    (hub.perform parseJson call).2.count (goneFrame id burrow) =
      if hub.Left (hub.perform parseJson call).1 id burrow then 1 else 0 := by
  cases call with
  | registerBurrow burrowId =>
    obtain ⟨-, -, hgone⟩ := registerBurrow_spec h.wellFormed h.live burrowId
    exact hgone id burrow
  | unregisterBurrow conn =>
    obtain ⟨-, -, hgone⟩ := unregisterBurrow_spec h.wellFormed conn
    have hcount := hgone [] (by intro d hd; cases hd) id burrow
    rw [List.append_nil] at hcount
    exact hcount
  | closeBurrow burrowId =>
    obtain ⟨-, -, hgone⟩ := closeBurrow_spec h.wellFormed burrowId
    exact hgone id burrow
  | onBurrowFrame conn raw =>
    rcases onBurrowFrame_cases parseJson h.wellFormed conn raw with
      hquiet | ⟨client, frame, -, -, -, -, hsent⟩
    · simp only [perform, hquiet]
      refine gone_of_same ?_ id burrow
      intro d hd
      cases hd
    · simp only [perform, hsent]
      refine gone_of_same ?_ id burrow
      intro d hd
      rw [List.mem_singleton.1 hd]
      exact toClient_ne_goneFrame _ _
  | registerClient random expiresAt =>
    obtain ⟨-, -, hgone⟩ := registerClient_spec h.wellFormed random expiresAt
    exact hgone hfresh id burrow
  | unregisterClient client =>
    exact (unregisterClient_released h.wellFormed client).gone id burrow
  | closeExpiredClients now =>
    exact (closeExpiredClients_released h.wellFormed now).gone id burrow
  | onClientFrame client raw =>
    rcases onClientFrame_cases parseJson hub client raw with
      hquiet | ⟨error, herror⟩ | ⟨conn, registered, frame, hcurrent, -,
        ⟨-, hsent⟩ | ⟨-, -, hsent⟩⟩
    · simp only [perform, hquiet]
      refine gone_of_same ?_ id burrow
      intro d hd
      cases hd
    · simp only [perform, herror]
      refine gone_of_same ?_ id burrow
      intro d hd
      rw [List.mem_singleton.1 hd]
      exact toClient_ne_goneFrame _ _
    · obtain ⟨-, -, -, -, hgone⟩ :=
        bindClientToBurrow_spec h.wellFormed hcurrent frame.burrowId
      have hlast : [forwarded client registered frame].count (goneFrame id burrow) = 0 := by
        refine count_goneFrame_eq_zero ?_
        intro d hd
        rw [List.mem_singleton.1 hd]
        exact forwarded_ne_goneFrame _ _ _ _ _
      simp only [perform, hsent, List.count_append, hlast, hgone, Nat.add_zero]
    · simp only [perform, hsent]
      refine gone_of_same ?_ id burrow
      intro d hd
      rw [List.mem_singleton.1 hd]
      exact forwarded_ne_goneFrame _ _ _

/-- **What a Client receives** is from the Burrow it is bound to, by the connection that its
own `init` went to. -/
theorem perform_toClient (parseJson : JsString → Option Json) {hub : RelayHub}
    {sent : List Delivery} (h : Safe hub sent) {call : HubCall} {client : ClientRef}
    {frame : E2eRelayToClientFrame}
    (hd : .toClient client (.e2e frame) ∈ (hub.perform parseJson call).2) :
    ∃ burrow raw, call = .onBurrowFrame burrow raw ∧ hub.currentClient client ≠ none ∧
      burrow.burrowId = frame.burrowId ∧ hub.BoundTo client.clientId burrow ∧
        lastInit client.clientId sent = some burrow := by
  cases call with
  | onBurrowFrame burrow raw =>
    rcases onBurrowFrame_cases parseJson h.wellFormed burrow raw with
      hquiet | ⟨conn, frame', hcurrent, hconn, hbound, hnamed, hsent⟩
    · simp only [perform, hquiet] at hd
      cases hd
    simp only [perform, hsent, List.mem_singleton, Delivery.toClient.injEq,
      RelayToClientFrame.e2e.injEq] at hd
    obtain ⟨rfl, rfl⟩ := hd
    have hbinding : hub.binding conn.ref.clientId = some burrow.burrowId := by
      rw [binding, hconn]
      exact hbound
    obtain ⟨registered, hregistered, hlast⟩ := h.bound hbinding
    rw [hcurrent, Option.some.injEq] at hregistered
    refine ⟨burrow, raw, rfl, ?_, hnamed.symm, ⟨hbinding, hcurrent⟩, hregistered ▸ hlast⟩
    rw [currentClient_eq_some.2 ⟨hconn, rfl⟩]
    exact fun h => by cases h
  | registerBurrow burrowId =>
    obtain ⟨-, hcalm, -⟩ := registerBurrow_spec h.wellFormed h.live burrowId
    cases hcalm.notices _ hd
  | unregisterBurrow burrow =>
    obtain ⟨-, hcalm, -⟩ := unregisterBurrow_spec h.wellFormed burrow
    cases hcalm.notices _ hd
  | closeBurrow burrowId =>
    obtain ⟨-, hcalm, -⟩ := closeBurrow_spec h.wellFormed burrowId
    cases hcalm.notices _ hd
  | registerClient random expiresAt =>
    obtain ⟨-, hcalm, -⟩ := registerClient_spec h.wellFormed random expiresAt
    cases hcalm.notices _ hd
  | unregisterClient client' =>
    cases (unregisterClient_released h.wellFormed client').notices _ hd
  | closeExpiredClients now =>
    cases (closeExpiredClients_released h.wellFormed now).notices _ hd
  | onClientFrame client' raw =>
    rcases onClientFrame_cases parseJson hub client' raw with
      hquiet | ⟨error, herror⟩ | ⟨conn, registered, frame', hcurrent, -,
        ⟨-, hsent⟩ | ⟨-, -, hsent⟩⟩
    · simp only [perform, hquiet] at hd
      cases hd
    · simp only [perform, herror, List.mem_singleton, Delivery.toClient.injEq] at hd
      cases hd.2
    · obtain ⟨-, -, hnotices, -, -⟩ :=
        bindClientToBurrow_spec h.wellFormed hcurrent frame'.burrowId
      simp only [perform, hsent, List.mem_append, List.mem_singleton] at hd
      rcases hd with hmem | heq
      · cases hnotices _ hmem
      · cases heq
    · simp only [perform, hsent, List.mem_singleton] at hd
      cases hd

/-- **What a Burrow receives from a Client** is the `init` that binds it, or comes while the
Client is bound to it. -/
theorem perform_toBurrow (parseJson : JsString → Option Json) {hub : RelayHub}
    {sent : List Delivery} (h : Safe hub sent) {call : HubCall} {burrow : BurrowConn}
    {frame : E2eRelayToBurrowFrame}
    (hd : .toBurrow burrow (.e2e frame) ∈ (hub.perform parseJson call).2) :
    ∃ client raw, call = .onClientFrame client raw ∧ client.clientId = frame.clientId ∧
      hub.currentClient client ≠ none ∧ burrow.burrowId = frame.burrowId ∧
        (frame.step = .init ∧ (hub.perform parseJson call).1.BoundTo frame.clientId burrow ∨
          hub.BoundTo frame.clientId burrow) := by
  cases call with
  | onClientFrame client raw =>
    rcases onClientFrame_cases parseJson hub client raw with
      hquiet | ⟨error, herror⟩ | ⟨conn, registered, frame', hcurrent, hburrow,
        ⟨hinit, hsent⟩ | ⟨-, hbound, hsent⟩⟩
    · simp only [perform, hquiet] at hd
      cases hd
    · simp only [perform, herror, List.mem_singleton] at hd
      cases hd
    · obtain ⟨-, hburrows, hnotices, hbinding, -⟩ :=
        bindClientToBurrow_spec h.wellFormed hcurrent frame'.burrowId
      simp only [perform, hsent, List.mem_append, List.mem_singleton] at hd ⊢
      rcases hd with hmem | heq
      · cases hnotices _ hmem
      cases heq
      have hnamed := h.wellFormed.named hburrow
      refine ⟨client, raw, rfl, rfl, ?_, hnamed, .inl ⟨hinit, ?_, ?_⟩⟩
      · rw [hcurrent]
        exact nofun
      · rw [hbinding, if_pos rfl, hnamed]
      · rw [hburrows, hnamed]
        exact hburrow
    · simp only [perform, hsent, List.mem_singleton] at hd
      cases hd
      have hnamed := h.wellFormed.named hburrow
      obtain ⟨hget, -⟩ := currentClient_eq_some.1 hcurrent
      refine ⟨client, raw, rfl, rfl, ?_, hnamed, .inr ⟨?_, ?_⟩⟩
      · rw [hcurrent]
        exact nofun
      · rw [binding, hget, hnamed]
        exact hbound
      · rw [hnamed]
        exact hburrow
  | onBurrowFrame conn raw =>
    rcases onBurrowFrame_cases parseJson h.wellFormed conn raw with
      hquiet | ⟨client, frame', -, -, -, -, hsent⟩
    · simp only [perform, hquiet] at hd
      cases hd
    · simp only [perform, hsent, List.mem_singleton] at hd
      cases hd
  | registerBurrow burrowId =>
    obtain ⟨-, hcalm, -⟩ := registerBurrow_spec h.wellFormed h.live burrowId
    cases hcalm.notices _ hd
  | unregisterBurrow conn =>
    obtain ⟨-, hcalm, -⟩ := unregisterBurrow_spec h.wellFormed conn
    cases hcalm.notices _ hd
  | closeBurrow burrowId =>
    obtain ⟨-, hcalm, -⟩ := closeBurrow_spec h.wellFormed burrowId
    cases hcalm.notices _ hd
  | registerClient random expiresAt =>
    obtain ⟨-, hcalm, -⟩ := registerClient_spec h.wellFormed random expiresAt
    cases hcalm.notices _ hd
  | unregisterClient client =>
    cases (unregisterClient_released h.wellFormed client).notices _ hd
  | closeExpiredClients now =>
    cases (closeExpiredClients_released h.wellFormed now).notices _ hd

/-! ### Runs -/

section Runs

variable (parseJson : JsString → Option Json)

/-- In how many of these calls a Client leaves a connection that stays registered. -/
def timesLeft (id : ClientId) (burrow : BurrowConn) : RelayHub → List HubCall → Nat
  | _, [] => 0
  | hub, call :: rest =>
    (if hub.Left (hub.perform parseJson call).1 id burrow then 1 else 0) +
      timesLeft id burrow (hub.perform parseJson call).1 rest

/-- No fresh client id of these calls is that of a registered Client. -/
def FreshIds : RelayHub → List HubCall → Prop
  | _, [] => True
  | hub, call :: rest => hub.FreshId call ∧ FreshIds (hub.perform parseJson call).1 rest

theorem safe_performAll (calls : List HubCall) :
    Safe (performAll parseJson calls).1 (performAll parseJson calls).2 := by
  have hfold : ∀ (calls : List HubCall) (run : RelayHub × List Delivery), Safe run.1 run.2 →
      Safe (calls.foldl (performNext parseJson) run).1
        (calls.foldl (performNext parseJson) run).2 := by
    intro calls
    induction calls with
    | nil => exact fun run hrun => hrun
    | cons call rest ih => exact fun run hrun => ih _ (safe_perform parseJson hrun call)
  exact hfold calls (fresh, []) safe_fresh

theorem performAll_gone (calls : List HubCall) (hfresh : FreshIds parseJson fresh calls)
    (id : ClientId) (burrow : BurrowConn) :
    (performAll parseJson calls).2.count (goneFrame id burrow) =
      timesLeft parseJson id burrow fresh calls := by
  have hfold : ∀ (calls : List HubCall) (run : RelayHub × List Delivery), Safe run.1 run.2 →
      FreshIds parseJson run.1 calls →
        (calls.foldl (performNext parseJson) run).2.count (goneFrame id burrow) =
          run.2.count (goneFrame id burrow) + timesLeft parseJson id burrow run.1 calls := by
    intro calls
    induction calls with
    | nil => exact fun run _ _ => rfl
    | cons call rest ih =>
      intro run hrun hfresh
      have hrest := ih (performNext parseJson run call) (safe_perform parseJson hrun call)
        hfresh.2
      rw [List.foldl_cons, hrest]
      simp only [performNext, List.count_append, timesLeft]
      rw [perform_gone parseJson hrun call hfresh.1 id burrow, Nat.add_assoc]
  have hcount := hfold calls (fresh, []) safe_fresh hfresh
  rw [List.count_nil, Nat.zero_add] at hcount
  exact hcount

/-- **Routing safety.** After any calls, a binding names a connected Burrow; what the next
call sends passes along bindings only, between the Client and the very connection that its
`init` went to; a Burrow has had one `client-gone` for each time a Client left it, as long as
client ids do not collide; and the Clients fit. -/
theorem hub_routing_safe (calls : List HubCall) :
    let hub := (performAll parseJson calls).1
    let sent := (performAll parseJson calls).2
    (∀ id b, hub.binding id = some b →
      ∃ burrow, hub.burrows.get b = some burrow ∧ burrow.burrowId = b ∧
        lastInit id sent = some burrow) ∧
    (∀ call client frame, .toClient client (.e2e frame) ∈ (hub.perform parseJson call).2 →
      ∃ burrow raw, call = .onBurrowFrame burrow raw ∧ hub.currentClient client ≠ none ∧
        burrow.burrowId = frame.burrowId ∧ hub.BoundTo client.clientId burrow ∧
          lastInit client.clientId sent = some burrow) ∧
    (∀ call burrow frame, .toBurrow burrow (.e2e frame) ∈ (hub.perform parseJson call).2 →
      ∃ client raw, call = .onClientFrame client raw ∧ client.clientId = frame.clientId ∧
        hub.currentClient client ≠ none ∧ burrow.burrowId = frame.burrowId ∧
          (frame.step = .init ∧ (hub.perform parseJson call).1.BoundTo frame.clientId burrow ∨
            hub.BoundTo frame.clientId burrow)) ∧
    (FreshIds parseJson fresh calls → ∀ id burrow,
      sent.count (goneFrame id burrow) = timesLeft parseJson id burrow fresh calls) ∧
    hub.clientCount ≤ maxRelayClientSockets := by
  have hsafe := safe_performAll parseJson calls
  refine ⟨?_, ?_, ?_, ?_, hsafe.wellFormed.room⟩
  · intro id b hb
    obtain ⟨burrow, hburrow, hlast⟩ := hsafe.bound hb
    exact ⟨burrow, hburrow, hsafe.wellFormed.named hburrow, hlast⟩
  · intro call client frame hd
    exact perform_toClient parseJson hsafe hd
  · intro call burrow frame hd
    exact perform_toBurrow parseJson hsafe hd
  · intro hfresh id burrow
    exact performAll_gone parseJson calls hfresh id burrow

end Runs

end RelayHub

end Dormouse.Relay
