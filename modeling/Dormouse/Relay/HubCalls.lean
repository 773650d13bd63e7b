import Dormouse.Relay.Hub

/-!
# Dormouse.Relay.HubCalls

What each **call on the hub** does: to the shape of its maps, to the bindings, and to the
Burrows that a Client leaves.
-/

namespace Dormouse.Relay

open Noise (Bytes)
open Security
open Terminal (Ms)
open Burrow

/-! ### What is said of a run -/

namespace RelayHub

/-- The Burrow a registered Client is bound to. -/
def binding (hub : RelayHub) (clientId : ClientId) : Option JsString :=
  (hub.clients.get clientId).bind (·.burrowId)

/-- A Client bound to a Burrow, by the connection that is registered for it. -/
def BoundTo (hub : RelayHub) (clientId : ClientId) (burrow : BurrowConn) : Prop :=
  hub.binding clientId = some burrow.burrowId ∧ hub.burrows.get burrow.burrowId = some burrow

instance (hub : RelayHub) (clientId : ClientId) (burrow : BurrowConn) :
    Decidable (hub.BoundTo clientId burrow) :=
  inferInstanceAs (Decidable (_ ∧ _))

/-- A Client left a connection that is still registered: it moved, disconnected or expired. -/
def Left (hub hub' : RelayHub) (clientId : ClientId) (burrow : BurrowConn) : Prop :=
  hub.BoundTo clientId burrow ∧ hub'.burrows.get burrow.burrowId = some burrow ∧
    hub'.binding clientId ≠ some burrow.burrowId

instance (hub hub' : RelayHub) (clientId : ClientId) (burrow : BurrowConn) :
    Decidable (hub.Left hub' clientId burrow) :=
  inferInstanceAs (Decidable (_ ∧ _))

/-- A fresh client id is none that is registered. -/
def FreshId (hub : RelayHub) : HubCall → Prop
  | .registerClient random _ => hub.clients.get (toBase64Url random) = none
  | _ => True

end RelayHub

/-- The connection an `init` of this Client goes to. -/
def initOf (clientId : ClientId) : Delivery → Option BurrowConn
  | .toBurrow burrow (.e2e frame) =>
    if frame.clientId = clientId ∧ frame.step = .init then some burrow else none
  | _ => none

/-- The connection the last `init` of this Client went to. -/
def lastInit (clientId : ClientId) (sent : List Delivery) : Option BurrowConn :=
  sent.reverse.findSome? (initOf clientId)

theorem lastInit_append (clientId : ClientId) (sent more : List Delivery) :
    lastInit clientId (sent ++ more) = (lastInit clientId more).or (lastInit clientId sent) := by
  unfold lastInit
  rw [List.reverse_append, List.findSome?_append]

/-- Anything but an envelope. -/
def Delivery.isNotice : Delivery → Bool
  | .toBurrow _ (.e2e _) => false
  | .toClient _ (.e2e _) => false
  | _ => true

theorem lastInit_notices {clientId : ClientId} {sent : List Delivery}
    (h : ∀ d ∈ sent, d.isNotice = true) : lastInit clientId sent = none := by
  unfold lastInit
  rw [List.findSome?_eq_none_iff]
  intro d hd
  have hnotice := h d (List.mem_reverse.1 hd)
  cases d with
  | toBurrow burrow frame =>
    cases frame with
    | clientGone => rfl
    | e2e => cases hnotice
  | toClient => rfl
  | closeBurrow => rfl
  | closeClient => rfl

/-- `client-gone` for a Client, on a connection. -/
def goneFrame (clientId : ClientId) (burrow : BurrowConn) : Delivery :=
  .toBurrow burrow (.clientGone clientId)

namespace RelayHub

/-! ### The shape of the maps -/

/-- Every connection is under its own id, and older than the next; Clients fit. -/
structure WellFormed (hub : RelayHub) : Prop where
  named : ∀ {b burrow}, hub.burrows.get b = some burrow → burrow.burrowId = b
  older : ∀ {b burrow}, hub.burrows.get b = some burrow → burrow.object < hub.nextObject
  clientNamed : ∀ {id conn}, hub.clients.get id = some conn → conn.ref.clientId = id
  room : hub.clients.size ≤ maxRelayClientSockets

/-- Nothing new is bound and no envelope sent. -/
structure Calm (hub hub' : RelayHub) (sent : List Delivery) : Prop where
  notices : ∀ d ∈ sent, d.isNotice = true
  kept : ∀ {id b}, hub'.binding id = some b →
    hub.binding id = some b ∧ hub'.burrows.get b = hub.burrows.get b

theorem Calm.refl (hub : RelayHub) : Calm hub hub [] where
  notices _ h := by cases h
  kept h := ⟨h, rfl⟩

theorem Calm.trans {hub hub' hub'' : RelayHub} {sent more : List Delivery}
    (h : Calm hub hub' sent) (h' : Calm hub' hub'' more) : Calm hub hub'' (sent ++ more) where
  notices d hd := (List.mem_append.1 hd).elim (h.notices d) (h'.notices d)
  kept hb :=
    let ⟨hb', hget⟩ := h'.kept hb
    let ⟨hb'', hget'⟩ := h.kept hb'
    ⟨hb'', hget.trans hget'⟩

theorem Calm.concat {hub hub' : RelayHub} {sent : List Delivery} (h : Calm hub hub' sent)
    {d : Delivery} (hd : d.isNotice = true) : Calm hub hub' (sent ++ [d]) where
  notices d' hd' := by
    rcases List.mem_append.1 hd' with hmem | hmem
    · exact h.notices d' hmem
    · rw [List.mem_singleton.1 hmem]
      exact hd
  kept := h.kept

theorem wellFormed_fresh : fresh.WellFormed where
  named h := by cases h
  older h := by cases h
  clientNamed h := by cases h
  room := Nat.zero_le _

/-! ### Dropping the Clients of a Burrow -/

theorem binding_dropClientsOf (hub : RelayHub) (burrowId : JsString) (id : ClientId) :
    (hub.dropClientsOf burrowId).1.binding id =
      if hub.binding id = some burrowId then none else hub.binding id := by
  have hmapped : (hub.dropClientsOf burrowId).1.binding id =
      ((hub.clients.get id).map fun client =>
        if client.burrowId = some burrowId then { client with burrowId := none }
        else client).bind (·.burrowId) := by
    rw [← InsertionMap.get_mapValues]
    rfl
  rw [hmapped]
  unfold binding
  cases hget : hub.clients.get id with
  | none => simp
  | some conn =>
    simp only [Option.map_some, Option.bind_some]
    split
    · rfl
    · rfl

theorem dropClientsOf_wellFormed {hub : RelayHub} (h : hub.WellFormed) (burrowId : JsString) :
    (hub.dropClientsOf burrowId).1.WellFormed where
  named := h.named
  older := h.older
  clientNamed := by
    intro id conn hconn
    simp only [dropClientsOf, InsertionMap.get_mapValues] at hconn
    obtain ⟨old, hold, rfl⟩ := Option.map_eq_some_iff.1 hconn
    have hnamed := h.clientNamed hold
    split
    · exact hnamed
    · exact hnamed
  room := by
    show (hub.clients.mapValues _).size ≤ _
    rw [InsertionMap.size_mapValues]
    exact h.room

theorem mem_dropClientsOf {hub : RelayHub} {burrowId : JsString} {d : Delivery}
    (h : d ∈ (hub.dropClientsOf burrowId).2) : ∃ client, d = .toClient client .burrowGone := by
  obtain ⟨conn, -, rfl⟩ := List.mem_map.1 h
  exact ⟨conn.ref, rfl⟩

/-- The connection of an id taken away or replaced, and its Clients dropped. -/
theorem dropped_calm (hub hub' : RelayHub) {burrowId : JsString}
    (hclients : hub'.clients = hub.clients)
    (hburrows : ∀ b, b ≠ burrowId → hub'.burrows.get b = hub.burrows.get b) :
    Calm hub (hub'.dropClientsOf burrowId).1 (hub'.dropClientsOf burrowId).2 where
  notices d hd := by
    obtain ⟨client, rfl⟩ := mem_dropClientsOf hd
    rfl
  kept := by
    intro id b hb
    rw [binding_dropClientsOf] at hb
    split at hb
    · cases hb
    next hne =>
      have hbinding : hub'.binding id = hub.binding id := by
        rw [binding, hclients]
        rfl
      have hb' : b ≠ burrowId := by
        intro heq
        exact hne (heq ▸ hb)
      exact ⟨hbinding ▸ hb, hburrows b hb'⟩

theorem count_goneFrame_eq_zero {sent : List Delivery} {id : ClientId} {burrow : BurrowConn}
    (h : ∀ d ∈ sent, d ≠ goneFrame id burrow) : sent.count (goneFrame id burrow) = 0 :=
  List.count_eq_zero.2 fun hmem => h _ hmem rfl

/-- Dropping tells the Clients, not the Burrow they have lost. -/
theorem dropped_gone (hub hub' : RelayHub) {burrowId : JsString} {more : List Delivery}
    (hclients : hub'.clients = hub.clients)
    (hgone : ∀ burrow, hub.burrows.get burrowId = some burrow →
      hub'.burrows.get burrowId ≠ some burrow)
    (hmore : ∀ d ∈ more, ∀ id burrow, d ≠ goneFrame id burrow) (id : ClientId)
    (burrow : BurrowConn) :
    ((hub'.dropClientsOf burrowId).2 ++ more).count (goneFrame id burrow) =
      if hub.Left (hub'.dropClientsOf burrowId).1 id burrow then 1 else 0 := by
  have hleft : ¬ hub.Left (hub'.dropClientsOf burrowId).1 id burrow := by
    rintro ⟨⟨hbound, hcurrent⟩, hstill, hleaves⟩
    by_cases hid : burrow.burrowId = burrowId
    · rw [hid] at hcurrent hstill
      exact hgone burrow hcurrent hstill
    refine hleaves ?_
    have hbinding : hub'.binding id = hub.binding id := by
      rw [binding, hclients]
      rfl
    rw [binding_dropClientsOf, hbinding, hbound,
      if_neg fun heq => hid (Option.some.inj heq)]
  rw [if_neg hleft]
  apply count_goneFrame_eq_zero
  intro d hd
  rcases List.mem_append.1 hd with hmem | hmem
  · obtain ⟨client, rfl⟩ := mem_dropClientsOf hmem
    intro heq
    cases heq
  · exact hmore d hmem id burrow

/-! ### Burrow lifecycle -/

theorem unregisterBurrow_spec {hub : RelayHub} (h : hub.WellFormed) (burrow : BurrowConn) :
    (hub.unregisterBurrow burrow).1.WellFormed ∧
      Calm hub (hub.unregisterBurrow burrow).1 (hub.unregisterBurrow burrow).2 ∧
      ∀ more : List Delivery, (∀ d ∈ more, ∀ id burrow, d ≠ goneFrame id burrow) →
        ∀ id conn, ((hub.unregisterBurrow burrow).2 ++ more).count (goneFrame id conn) =
          if hub.Left (hub.unregisterBurrow burrow).1 id conn then 1 else 0 := by
  unfold unregisterBurrow
  split
  · refine ⟨h, Calm.refl hub, ?_⟩
    intro more hmore id conn
    have hleft : ¬ hub.Left hub id conn := fun hleft => hleft.2.2 hleft.1.1
    rw [if_neg hleft]
    exact count_goneFrame_eq_zero fun d hd => hmore d hd id conn
  have hdeleted : WellFormed { hub with burrows := hub.burrows.delete burrow.burrowId } :=
    { named := by
        intro b conn hconn
        exact h.named (InsertionMap.get_of_delete hconn).2
      older := by
        intro b conn hconn
        exact h.older (InsertionMap.get_of_delete hconn).2
      clientNamed := h.clientNamed
      room := h.room }
  refine ⟨dropClientsOf_wellFormed hdeleted _, dropped_calm hub _ ?_ ?_, ?_⟩
  · rfl
  · intro b hb
    exact InsertionMap.get_delete_ne _ (Ne.symm hb)
  · intro more hmore id conn
    refine dropped_gone hub _ ?_ ?_ hmore id conn
    · rfl
    intro existing _
    rw [InsertionMap.get_delete_self]
    exact fun h => by cases h

theorem closeBurrow_spec {hub : RelayHub} (h : hub.WellFormed) (burrowId : JsString) :
    (hub.closeBurrow burrowId).2.1.WellFormed ∧
      Calm hub (hub.closeBurrow burrowId).2.1 (hub.closeBurrow burrowId).2.2 ∧
      ∀ id conn, (hub.closeBurrow burrowId).2.2.count (goneFrame id conn) =
        if hub.Left (hub.closeBurrow burrowId).2.1 id conn then 1 else 0 := by
  unfold closeBurrow
  cases hub.burrows.get burrowId with
  | none =>
    refine ⟨h, Calm.refl hub, ?_⟩
    intro id conn
    have hleft : ¬ hub.Left hub id conn := fun hleft => hleft.2.2 hleft.1.1
    exact (if_neg hleft).symm
  | some existing =>
    obtain ⟨hwell, hcalm, hgone⟩ := unregisterBurrow_spec h existing
    refine ⟨hwell, hcalm.concat rfl, ?_⟩
    refine hgone _ ?_
    intro d hd id conn heq
    rw [List.mem_singleton.1 hd] at heq
    cases heq

theorem registerBurrow_spec {hub : RelayHub} (h : hub.WellFormed)
    (hlive : ∀ {id b}, hub.binding id = some b → hub.burrows.get b ≠ none) (burrowId : JsString) :
    (hub.registerBurrow burrowId).2.1.WellFormed ∧
      Calm hub (hub.registerBurrow burrowId).2.1 (hub.registerBurrow burrowId).2.2 ∧
      ∀ id conn, (hub.registerBurrow burrowId).2.2.count (goneFrame id conn) =
        if hub.Left (hub.registerBurrow burrowId).2.1 id conn then 1 else 0 := by
  have hset : WellFormed { hub with
      burrows := hub.burrows.set burrowId ⟨burrowId, hub.nextObject⟩
      nextObject := hub.nextObject + 1 } :=
    { named := by
        intro b conn hconn
        rw [InsertionMap.get_set] at hconn
        split at hconn
        · next heq =>
            rw [← Option.some.inj hconn, ← heq]
        · exact h.named hconn
      older := by
        intro b conn hconn
        rw [InsertionMap.get_set] at hconn
        split at hconn
        · rw [← Option.some.inj hconn]
          exact Nat.lt_succ_self _
        · exact Nat.lt_succ_of_lt (h.older hconn)
      clientNamed := h.clientNamed
      room := h.room }
  unfold registerBurrow
  cases hexisting : hub.burrows.get burrowId with
  | none =>
    have hother : ∀ b, hub.burrows.get b ≠ none →
        (hub.burrows.set burrowId ⟨burrowId, hub.nextObject⟩).get b = hub.burrows.get b := by
      intro b hb
      refine InsertionMap.get_set_ne _ _ ?_
      intro heq
      exact hb (heq ▸ hexisting)
    refine ⟨hset, ?_, ?_⟩
    · refine ⟨fun d hd => ?_, fun hb => ?_⟩
      · cases hd
      · exact ⟨hb, hother _ (hlive hb)⟩
    · intro id conn
      refine (if_neg ?_).symm
      intro hleft
      exact hleft.2.2 hleft.1.1
  | some existing =>
    refine ⟨dropClientsOf_wellFormed hset _, ?_, ?_⟩
    · refine Calm.concat (dropped_calm hub _ ?_ ?_) ?_
      · rfl
      · intro b hb
        exact InsertionMap.get_set_ne _ _ (Ne.symm hb)
      · rfl
    · refine dropped_gone hub _ ?_ ?_ ?_
      · rfl
      · -- The connection that registers is younger than the one it displaces.
        intro conn hconn hsame
        have hyounger := h.older hconn
        rw [InsertionMap.get_set_self, Option.some.injEq] at hsame
        rw [← hsame] at hyounger
        exact Nat.lt_irrefl _ hyounger
      · intro d hd id conn heq
        rw [List.mem_singleton.1 hd] at heq
        cases heq

/-! ### Client lifecycle -/

theorem currentClient_eq_some {hub : RelayHub} {client : ClientRef} {conn : ClientConn} :
    hub.currentClient client = some conn ↔
      hub.clients.get client.clientId = some conn ∧ conn.ref = client := by
  rw [currentClient, Option.filter_eq_some_iff, decide_eq_true_iff]

/-- Clients may leave the Burrows they are bound to, each Burrow told once. -/
structure Released (hub hub' : RelayHub) (sent : List Delivery) : Prop where
  wellFormed : hub'.WellFormed
  burrows : hub'.burrows = hub.burrows
  notices : ∀ d ∈ sent, d.isNotice = true
  sheds : ∀ id, hub'.binding id = hub.binding id ∨ hub'.binding id = none
  gone : ∀ id burrow, sent.count (goneFrame id burrow) = if hub.Left hub' id burrow then 1 else 0

theorem Released.refl {hub : RelayHub} (h : hub.WellFormed) : Released hub hub [] where
  wellFormed := h
  burrows := rfl
  notices _ hd := by cases hd
  sheds _ := .inl rfl
  gone id burrow := by
    refine (if_neg ?_).symm
    intro hleft
    exact hleft.2.2 hleft.1.1

theorem Released.calm {hub hub' : RelayHub} {sent : List Delivery} (h : Released hub hub' sent) :
    Calm hub hub' sent where
  notices := h.notices
  kept := by
    intro id b hb
    rw [h.burrows]
    rcases h.sheds id with hsame | hnone
    · exact ⟨hsame ▸ hb, rfl⟩
    · rw [hnone] at hb
      cases hb

theorem Released.concat {hub hub' : RelayHub} {sent : List Delivery} (h : Released hub hub' sent)
    {d : Delivery} (hd : d.isNotice = true) (hgone : ∀ id burrow, d ≠ goneFrame id burrow) :
    Released hub hub' (sent ++ [d]) :=
  { h with
    notices := (h.calm.concat hd).notices
    gone id burrow := by
      have hne : (d == goneFrame id burrow) = false := by
        simpa using hgone id burrow
      rw [List.count_append, h.gone, List.count_singleton, hne]
      rfl }

/-- What leaves in two steps leaves in one of them, and does not come back. -/
theorem Released.trans {hub hub' hub'' : RelayHub} {sent more : List Delivery}
    (h : Released hub hub' sent) (h' : Released hub' hub'' more) :
    Released hub hub'' (sent ++ more) where
  wellFormed := h'.wellFormed
  burrows := h'.burrows.trans h.burrows
  notices := (h.calm.trans h'.calm).notices
  sheds id := by
    rcases h'.sheds id with hsame | hnone
    · rw [hsame]
      exact h.sheds id
    · exact .inr hnone
  gone id burrow := by
    rw [List.count_append, h.gone, h'.gone]
    simp only [Left, BoundTo, h'.burrows, h.burrows]
    by_cases hcurrent : hub.burrows.get burrow.burrowId = some burrow
    · rcases h.sheds id with hsame | hnone
      · simp [hsame, hcurrent]
      · rcases h'.sheds id with hsame' | hnone'
        · simp [hnone, hsame', hcurrent]
        · simp [hnone, hnone', hcurrent]
    · simp [hcurrent]

theorem registerClient_spec {hub : RelayHub} (h : hub.WellFormed) (random : Bytes)
    (expiresAt : Ms) :
    (hub.registerClient random expiresAt).2.1.WellFormed ∧
      Calm hub (hub.registerClient random expiresAt).2.1
        (hub.registerClient random expiresAt).2.2 ∧
      (hub.clients.get (toBase64Url random) = none → ∀ id burrow,
        (hub.registerClient random expiresAt).2.2.count (goneFrame id burrow) =
          if hub.Left (hub.registerClient random expiresAt).2.1 id burrow then 1 else 0) := by
  unfold registerClient
  split
  · have hreleased := Released.refl h
    exact ⟨h, hreleased.calm, fun _ => hreleased.gone⟩
  next hroom =>
    have hbinding : ∀ id, RelayHub.binding { hub with
        clients := hub.clients.set (toBase64Url random)
          ⟨⟨toBase64Url random, hub.nextObject⟩, expiresAt, none⟩
        nextObject := hub.nextObject + 1 } id =
          if toBase64Url random = id then none else hub.binding id := by
      intro id
      unfold binding
      rw [InsertionMap.get_set]
      split
      · rfl
      · rfl
    refine ⟨?_, ?_, ?_⟩
    · exact {
        named := h.named
        older := fun hconn => Nat.lt_succ_of_lt (h.older hconn)
        clientNamed := by
          intro id conn hconn
          rw [InsertionMap.get_set] at hconn
          split at hconn
          · next heq =>
              rw [← Option.some.inj hconn, ← heq]
          · exact h.clientNamed hconn
        room := by
          have hsize := InsertionMap.size_set_le hub.clients (toBase64Url random)
            ⟨⟨toBase64Url random, hub.nextObject⟩, expiresAt, none⟩
          dsimp only
          omega }
    · refine ⟨fun d hd => ?_, fun hb => ?_⟩
      · cases hd
      · rw [hbinding] at hb
        split at hb
        · cases hb
        · exact ⟨hb, rfl⟩
    · intro hfresh id burrow
      refine (if_neg ?_).symm
      rintro ⟨⟨hbound, -⟩, -, hleaves⟩
      rw [hbinding] at hleaves
      split at hleaves
      · next heq =>
          rw [binding, ← heq, hfresh] at hbound
          cases hbound
      · exact hleaves hbound

theorem count_clientGone {hub : RelayHub} (h : hub.WellFormed) (client : ClientRef) (b : JsString)
    (id : ClientId) (burrow : BurrowConn) :
    (hub.clientGone client b).count (goneFrame id burrow) =
      if client.clientId = id ∧ b = burrow.burrowId ∧
        hub.burrows.get burrow.burrowId = some burrow then 1 else 0 := by
  unfold clientGone
  cases hget : hub.burrows.get b with
  | none =>
    have hnot : ¬ (client.clientId = id ∧ b = burrow.burrowId ∧
        hub.burrows.get burrow.burrowId = some burrow) := by
      rintro ⟨-, rfl, hcurrent⟩
      rw [hget] at hcurrent
      cases hcurrent
    rw [if_neg hnot]
    rfl
  | some registered =>
    rw [Option.map_some, Option.toList_some, List.count_singleton]
    by_cases hsame : client.clientId = id ∧ b = burrow.burrowId ∧
        hub.burrows.get burrow.burrowId = some burrow
    · rw [if_pos hsame]
      obtain ⟨rfl, rfl, hcurrent⟩ := hsame
      rw [hget, Option.some.injEq] at hcurrent
      rw [hcurrent]
      exact if_pos (beq_self_eq_true _)
    rw [if_neg hsame, if_neg]
    intro heq
    have hframe := eq_of_beq heq
    simp only [goneFrame, Delivery.toBurrow.injEq, RelayToBurrowFrame.clientGone.injEq] at hframe
    refine hsame ⟨hframe.2, ?_, ?_⟩
    · rw [← hframe.1]
      exact (h.named hget).symm
    · rw [← hframe.1, h.named hget]
      exact hget

theorem mem_clientGone {hub : RelayHub} {client : ClientRef} {b : JsString} {d : Delivery}
    (h : d ∈ hub.clientGone client b) : d.isNotice = true := by
  obtain ⟨burrow, -, rfl⟩ := Option.map_eq_some_iff.1 (Option.mem_toList.1 h)
  rfl

theorem unregisterClient_released {hub : RelayHub} (h : hub.WellFormed) (client : ClientRef) :
    Released hub (hub.unregisterClient client).1 (hub.unregisterClient client).2 := by
  unfold unregisterClient
  rcases hcurrent : hub.currentClient client with _ | conn
  · exact Released.refl h
  obtain ⟨hget, href⟩ := currentClient_eq_some.1 hcurrent
  have hwell : WellFormed { hub with clients := hub.clients.delete client.clientId } :=
    { named := h.named
      older := h.older
      clientNamed := by
        intro id conn' hconn'
        exact h.clientNamed (InsertionMap.get_of_delete hconn').2
      room := Nat.le_trans (InsertionMap.size_delete_le _ _) h.room }
  have hbinding : ∀ id, RelayHub.binding
      { hub with clients := hub.clients.delete client.clientId } id =
        if client.clientId = id then none else hub.binding id := by
    intro id
    unfold binding
    rw [InsertionMap.get_delete]
    split
    · rfl
    · rfl
  have hsheds : ∀ id, RelayHub.binding
      { hub with clients := hub.clients.delete client.clientId } id = hub.binding id ∨
        RelayHub.binding
          { hub with clients := hub.clients.delete client.clientId } id = none := by
    intro id
    rw [hbinding]
    split
    · exact .inr rfl
    · exact .inl rfl
  have hbound : hub.binding client.clientId = conn.burrowId := by
    rw [binding, hget]
    rfl
  -- The one Client that leaves is this one, from the Burrow it is bound to.
  have hleft : ∀ id burrow,
      hub.Left { hub with clients := hub.clients.delete client.clientId } id burrow ↔
        client.clientId = id ∧ conn.burrowId = some burrow.burrowId ∧
          hub.burrows.get burrow.burrowId = some burrow := by
    intro id burrow
    unfold Left BoundTo
    rw [hbinding]
    by_cases hid : client.clientId = id
    · rw [if_pos hid, ← hid, hbound]
      simp
    · rw [if_neg hid]
      simp only [hid, false_and, iff_false]
      rintro ⟨⟨hstays, -⟩, -, hleaves⟩
      exact hleaves hstays
  dsimp only
  cases hburrow : conn.burrowId with
  | none =>
    refine ⟨hwell, rfl, fun d hd => ?_, hsheds, fun id burrow => ?_⟩
    · cases hd
    · rw [if_neg]
      · rfl
      · rw [hleft, hburrow]
        rintro ⟨-, hnone, -⟩
        cases hnone
  | some b =>
    refine ⟨hwell, rfl, fun d hd => mem_clientGone hd, hsheds, fun id burrow => ?_⟩
    rw [count_clientGone hwell]
    simp only [hleft, hburrow, Option.some.injEq]

theorem closeExpiredClients_released {hub : RelayHub} (h : hub.WellFormed) (now : Ms) :
    Released hub (hub.closeExpiredClients now).2.1 (hub.closeExpiredClients now).2.2 := by
  have hfold : ∀ (clients : List ClientConn) (answer : Nat × RelayHub × List Delivery),
      Released hub answer.2.1 answer.2.2 →
        Released hub (clients.foldl (closeExpired now) answer).2.1
          (clients.foldl (closeExpired now) answer).2.2 := by
    intro clients
    induction clients with
    | nil => exact fun answer hanswer => hanswer
    | cons client rest ih =>
      intro answer hanswer
      refine ih _ ?_
      unfold closeExpired
      split
      · exact hanswer
      · refine Released.concat ?_ rfl ?_
        · exact hanswer.trans (unregisterClient_released hanswer.wellFormed client.ref)
        · intro id burrow heq
          cases heq
  exact hfold _ _ (Released.refl h)

/-! ### Frames -/

theorem onBurrowFrame_cases (parseJson : JsString → Option Json) {hub : RelayHub}
    (h : hub.WellFormed) (burrow : BurrowConn) (raw : JsString) :
    hub.onBurrowFrame parseJson burrow raw = (hub, []) ∨
      ∃ conn frame, hub.burrows.get burrow.burrowId = some burrow ∧
        hub.clients.get conn.ref.clientId = some conn ∧ conn.burrowId = some burrow.burrowId ∧
          frame.burrowId = burrow.burrowId ∧
            hub.onBurrowFrame parseJson burrow raw = (hub, [.toClient conn.ref (.e2e frame)]) := by
  unfold onBurrowFrame
  split
  · exact .inl rfl
  next hcurrent =>
    split
    · exact .inl rfl
    split
    · exact .inl rfl
    next conn hconn =>
      split
      · exact .inl rfl
      next hbound =>
        have hnamed := h.clientNamed hconn
        refine .inr ⟨conn, _, Decidable.not_not.1 hcurrent, ?_,
          Decidable.not_not.1 hbound, ?_, rfl⟩
        · rw [hnamed]
          exact hconn
        · rfl

theorem onClientFrame_cases (parseJson : JsString → Option Json) (hub : RelayHub)
    (client : ClientRef) (raw : JsString) :
    hub.onClientFrame parseJson client raw = (hub, []) ∨
      (∃ error, hub.onClientFrame parseJson client raw =
        (hub, [.toClient client (.error error)])) ∨
      ∃ conn burrow frame, hub.currentClient client = some conn ∧
        hub.burrows.get frame.burrowId = some burrow ∧
          (frame.step = .init ∧ hub.onClientFrame parseJson client raw =
              ((hub.bindClientToBurrow conn frame.burrowId).1,
                (hub.bindClientToBurrow conn frame.burrowId).2 ++
                  [forwarded client burrow frame]) ∨
            frame.step ≠ .init ∧ conn.burrowId = some frame.burrowId ∧
              hub.onClientFrame parseJson client raw =
                (hub, [forwarded client burrow frame])) := by
  unfold onClientFrame
  rcases hcurrent : hub.currentClient client with _ | conn
  · exact .inl rfl
  dsimp only
  split
  · exact .inr (.inl ⟨_, rfl⟩)
  split
  · exact .inr (.inl ⟨_, rfl⟩)
  split
  · exact .inr (.inl ⟨_, rfl⟩)
  next frame _ =>
    split
    · exact .inr (.inl ⟨_, rfl⟩)
    next burrow hburrow =>
      split
      · next hinit =>
          exact .inr (.inr ⟨conn, burrow, frame, rfl, hburrow, .inl ⟨hinit, rfl⟩⟩)
      next hinit =>
        split
        · exact .inl rfl
        · next hbound =>
            exact .inr (.inr ⟨conn, burrow, frame, rfl, hburrow,
              .inr ⟨hinit, Decidable.not_not.1 hbound, rfl⟩⟩)

/-! ### Binding -/

/-- A registered Client bound to a connected Burrow: the Burrow it moves from is told. -/
theorem bindClientToBurrow_spec {hub : RelayHub} (h : hub.WellFormed) {client : ClientRef}
    {conn : ClientConn} (hcurrent : hub.currentClient client = some conn) (b : JsString) :
    (hub.bindClientToBurrow conn b).1.WellFormed ∧
      (hub.bindClientToBurrow conn b).1.burrows = hub.burrows ∧
      (∀ d ∈ (hub.bindClientToBurrow conn b).2, d.isNotice = true) ∧
      (∀ id, (hub.bindClientToBurrow conn b).1.binding id =
        if client.clientId = id then some b else hub.binding id) ∧
      ∀ id burrow, (hub.bindClientToBurrow conn b).2.count (goneFrame id burrow) =
        if hub.Left (hub.bindClientToBurrow conn b).1 id burrow then 1 else 0 := by
  obtain ⟨hget, rfl⟩ := currentClient_eq_some.1 hcurrent
  have hbinding : ∀ id, (hub.bindClientToBurrow conn b).1.binding id =
      if conn.ref.clientId = id then some b else hub.binding id := by
    intro id
    unfold bindClientToBurrow binding
    rw [InsertionMap.get_set]
    split
    · rfl
    · rfl
  have hbound : hub.binding conn.ref.clientId = conn.burrowId := by
    rw [binding, hget]
    rfl
  have hleft : ∀ id burrow, hub.Left (hub.bindClientToBurrow conn b).1 id burrow ↔
      conn.ref.clientId = id ∧ conn.burrowId = some burrow.burrowId ∧
        hub.burrows.get burrow.burrowId = some burrow ∧ b ≠ burrow.burrowId := by
    intro id burrow
    unfold Left BoundTo
    rw [hbinding]
    by_cases hid : conn.ref.clientId = id
    · rw [if_pos hid, ← hid, hbound]
      constructor
      · rintro ⟨⟨hwas, hreg⟩, -, hmoves⟩
        exact ⟨rfl, hwas, hreg, fun heq => hmoves (congrArg some heq)⟩
      · rintro ⟨-, hwas, hreg, hmoves⟩
        exact ⟨⟨hwas, hreg⟩, hreg, fun heq => hmoves (Option.some.inj heq)⟩
    · rw [if_neg hid]
      simp only [hid, false_and, iff_false]
      rintro ⟨⟨hstays, -⟩, -, hleaves⟩
      exact hleaves hstays
  refine ⟨?_, rfl, ?_, hbinding, ?_⟩
  · exact {
      named := h.named
      older := h.older
      clientNamed := by
        intro id conn' hconn'
        unfold bindClientToBurrow at hconn'
        rw [InsertionMap.get_set] at hconn'
        split at hconn'
        · next heq =>
            rw [← Option.some.inj hconn', ← heq]
        · exact h.clientNamed hconn'
      room := by
        unfold bindClientToBurrow
        rw [InsertionMap.size_set_of_get hget]
        exact h.room }
  · intro d hd
    unfold bindClientToBurrow at hd
    dsimp only at hd
    split at hd
    · cases hd
    · split at hd
      · cases hd
      · exact mem_clientGone hd
  · intro id burrow
    simp only [hleft]
    rcases hprevious : conn.burrowId with _ | previous
    · simp [bindClientToBurrow, hprevious]
    simp only [bindClientToBurrow, hprevious]
    split
    · next heq =>
        -- A second `init` to the same Burrow moves nowhere.
        rw [if_neg]
        · rfl
        · rintro ⟨-, hwas, -, hmoves⟩
          exact hmoves (heq ▸ Option.some.inj hwas)
    next hne =>
      rw [count_clientGone h]
      by_cases hsame : previous = burrow.burrowId
      · subst hsame
        simp [Ne.symm hne]
      · simp [hsame]

end RelayHub

end Dormouse.Relay
