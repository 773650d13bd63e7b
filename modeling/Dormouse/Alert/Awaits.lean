import Mathlib.Logic.Relation
import Dormouse.Lib.Tickets
import Dormouse.Alert.Operations

/-!
# Dormouse.Alert.Awaits

**The awaits of the alert manager**: each is a ticket, parked in the group of one Session
or settled once, and what is reported of a Session says whether it has a group.

`Writes` are the steps operations are made of; the invariant is proved of each write and
carried through an operation by the chain of its writes.
-/

namespace Dormouse.Alert

open Terminal

/-- An await that ended without what it waited for. -/
def AwaitOutcome.Fails : AwaitOutcome → Prop
  | .resolved .. => False
  | .timeout _ | .died _ | .cancelled _ => True

namespace AlertManager

open AlertEntry

/-! ### What is kept -/

/-- The handles parked on an id. -/
def parkedOn (m : AlertManager) (id : Id) : List Nat := ((m.awaits.get id).getD []).map (·.handle)

/-- The handles settled, in order. -/
def settledHandles (m : AlertManager) : List Nat := m.outcomes.map Prod.fst

/-- The awaits, as tickets. -/
def tickets (m : AlertManager) : Tickets Id := ⟨m.nextHandle, m.parkedOn, m.settledHandles⟩

/-- What was last reported of an id. -/
def lastReport (m : AlertManager) (id : Id) : Option AlertState :=
  ((m.emitted.filter (·.1 = id)).getLast?).map Prod.snd

/-- Groups have waiters, and an entry to wait on. -/
structure Grouped (m : AlertManager) : Prop where
  nonempty : ∀ id waiters, m.awaits.get id = some waiters → waiters ≠ []
  entry : ∀ id waiters, m.awaits.get id = some waiters → m.entries.has id = true

/-- The reports tell which ids are awaited. -/
structure Reported (m : AlertManager) : Prop where
  last : ∀ id state, m.lastEmitted.get id = some state → m.lastReport id = some state
  awaited : ∀ id, (m.lastReport id).any (·.awaited) = (m.getState id).awaited

/-- The invariant of the awaits, while one may be on its way. -/
structure AwaitsKept (pending : Option Nat) (m : AlertManager) : Prop where
  tickets : m.tickets.Kept pending
  grouped : m.Grouped
  reported : m.Reported

/-! ### Writes -/

/-- What only the rest of the manager can tell apart. -/
structure SameAwaits (m m' : AlertManager) : Prop where
  entries : m'.entries = m.entries
  awaits : m'.awaits = m.awaits
  nextHandle : m'.nextHandle = m.nextHandle
  outcomes : m'.outcomes = m.outcomes
  lastEmitted : m'.lastEmitted = m.lastEmitted
  emitted : m'.emitted = m.emitted

/-- One write of an operation. -/
inductive Write : AlertManager → AlertManager → Prop
  | notify (id : Id) (m : AlertManager) : Write m (m.notify id)
  | entry (id : Id) (f : AlertEntry → AlertEntry) (m : AlertManager) : Write m (m.modifyEntry id f)
  | create (id : Id) (m : AlertManager) : Write m (m.getOrCreateEntry id)
  | settle (id : Id) (handle : Nat) (outcome : AwaitOutcome) (m : AlertManager) :
      Write m (m.settle id handle outcome)
  | clearGrace (id : Id) (p : AwaitWaiter → Bool) (m : AlertManager) : Write m (m.clearGrace id p)
  | other {m m' : AlertManager} : SameAwaits m m' → Write m m'

abbrev Writes : AlertManager → AlertManager → Prop := Relation.ReflTransGen Write

theorem Write.run {m m' : AlertManager} (h : Write m m') : Writes m m' := .single h

theorem writes_other {m m' : AlertManager} (h : SameAwaits m m') : Writes m m' := (Write.other h).run

theorem writes_refl (m : AlertManager) : Writes m m := Relation.ReflTransGen.refl

/-! ### Every write keeps the awaits -/

theorem awaited_getState (m : AlertManager) (id : Id) :
    (m.getState id).awaited =
      (m.entries.has id && !((m.awaits.get id).getD []).isEmpty) := by
  unfold getState InsertionMap.has
  cases m.entries.get id with
  | none => rfl
  | some e => rfl

theorem lastReport_concat (m : AlertManager) (id id' : Id) (state : AlertState)
    (es : InsertionMap Id AlertState) :
    lastReport { m with lastEmitted := es, emitted := m.emitted ++ [(id, state)] } id' =
      if id = id' then some state else m.lastReport id' := by
  unfold lastReport
  rw [List.filter_append]
  by_cases h : id = id'
  · rw [if_pos h, List.filter_singleton, decide_eq_true h]
    simp
  · rw [if_neg h, List.filter_singleton, decide_eq_false h]
    simp

/-- A report of `id` restores what was off for `id` alone. -/
theorem Reported.notify {m : AlertManager} (id : Id)
    (hlast : ∀ id state, m.lastEmitted.get id = some state → m.lastReport id = some state)
    (hothers : ∀ id', id' ≠ id → (m.lastReport id').any (·.awaited) = (m.getState id').awaited) :
    (m.notify id).Reported := by
  unfold AlertManager.notify
  split
  · next hsame =>
      refine ⟨hlast, fun id' => ?_⟩
      by_cases hid : id' = id
      · subst hid
        rw [hlast _ _ hsame]
        rfl
      · exact hothers id' hid
  · next hnew =>
      constructor
      · intro id' state hstate
        rw [lastReport_concat]
        by_cases hid : id = id'
        · subst hid
          rw [if_pos rfl]
          split at hstate
          · rwa [InsertionMap.get_set_self] at hstate
          · rw [InsertionMap.get_delete_self] at hstate
            cases hstate
        · rw [if_neg hid]
          split at hstate
          · rw [InsertionMap.get_set_ne _ _ hid] at hstate
            exact hlast _ _ hstate
          · rw [InsertionMap.get_delete_ne _ hid] at hstate
            exact hlast _ _ hstate
      · intro id'
        rw [lastReport_concat]
        by_cases hid : id = id'
        · subst hid
          rw [if_pos rfl]
          rfl
        · rw [if_neg hid]
          exact hothers id' fun h => hid h.symm

theorem tickets_notify (id : Id) (m : AlertManager) : (m.notify id).tickets = m.tickets := by
  rw [notify]
  split <;> rfl

theorem has_notify (id id' : Id) (m : AlertManager) :
    (m.notify id).entries.has id' = m.entries.has id' := by
  rw [(notify_quiet id m).entries]

theorem awaits_notify (id : Id) (m : AlertManager) : (m.notify id).awaits = m.awaits := by
  rw [notify]
  split <;> rfl

theorem has_modifyEntry (id id' : Id) (f : AlertEntry → AlertEntry) (m : AlertManager) :
    (m.modifyEntry id f).entries.has id' = m.entries.has id' := by
  unfold InsertionMap.has
  rw [(modifyEntry_edits id f m).get]
  split
  · next h =>
      subst h
      rw [Option.isSome_map]
  · rfl

theorem has_getOrCreateEntry (id id' : Id) (m : AlertManager) :
    (m.getOrCreateEntry id).entries.has id' = (decide (id = id') || m.entries.has id') := by
  rw [getOrCreateEntry]
  split
  · next h =>
      by_cases hid : id = id'
      · subst hid
        rw [h, Bool.or_true]
      · rw [decide_eq_false hid, Bool.false_or]
  unfold InsertionMap.has
  rw [InsertionMap.get_set]
  by_cases hid : id = id'
  · rw [if_pos hid, decide_eq_true hid]
    rfl
  · rw [if_neg hid, decide_eq_false hid, Bool.false_or]

/-- What a manager that keeps its awaits and its reports says of an id. -/
theorem Reported.congr {m m' : AlertManager} (reported : m.Reported)
    (hlast : m'.lastEmitted = m.lastEmitted) (hemitted : m'.emitted = m.emitted)
    (hawaited : ∀ id, (m'.getState id).awaited = (m.getState id).awaited) : m'.Reported := by
  have hreport : ∀ id, m'.lastReport id = m.lastReport id := by
    intro id
    unfold lastReport
    rw [hemitted]
  refine ⟨fun id state h => ?_, fun id => ?_⟩
  · rw [hreport]
    rw [hlast] at h
    exact reported.last id state h
  · rw [hreport, hawaited]
    exact reported.awaited id

variable {pending : Option Nat} {m m' : AlertManager}

theorem AwaitsKept.notify (kept : AwaitsKept pending m) (id : Id) :
    AwaitsKept pending (m.notify id) := by
  refine ⟨?_, ⟨?_, ?_⟩, Reported.notify id kept.reported.last fun id' _ => kept.reported.awaited id'⟩
  · rw [tickets_notify]
    exact kept.tickets
  · rw [awaits_notify]
    exact kept.grouped.nonempty
  · rw [awaits_notify]
    intro id' waiters h
    rw [has_notify]
    exact kept.grouped.entry id' waiters h

theorem AwaitsKept.other (kept : AwaitsKept pending m) (same : SameAwaits m m') :
    AwaitsKept pending m' := by
  have htickets : m'.tickets = m.tickets := by
    unfold AlertManager.tickets parkedOn settledHandles
    rw [same.awaits, same.nextHandle, same.outcomes]
  refine ⟨htickets ▸ kept.tickets, ⟨?_, ?_⟩,
    kept.reported.congr same.lastEmitted same.emitted fun id => ?_⟩
  · rw [same.awaits]
    exact kept.grouped.nonempty
  · rw [same.awaits, same.entries]
    exact kept.grouped.entry
  · rw [awaited_getState, awaited_getState, same.entries, same.awaits]

theorem AwaitsKept.entry (kept : AwaitsKept pending m) (id : Id) (f : AlertEntry → AlertEntry) :
    AwaitsKept pending (m.modifyEntry id f) := by
  have hrest : (m.modifyEntry id f).tickets = m.tickets ∧
      (m.modifyEntry id f).awaits = m.awaits ∧
      (m.modifyEntry id f).lastEmitted = m.lastEmitted ∧
      (m.modifyEntry id f).emitted = m.emitted := by
    rw [modifyEntry]
    split <;> exact ⟨rfl, rfl, rfl, rfl⟩
  obtain ⟨htickets, hawaits, hlast, hemitted⟩ := hrest
  refine ⟨htickets ▸ kept.tickets, ⟨?_, ?_⟩, kept.reported.congr hlast hemitted fun id' => ?_⟩
  · rw [hawaits]
    exact kept.grouped.nonempty
  · rw [hawaits]
    intro id' waiters h
    rw [has_modifyEntry]
    exact kept.grouped.entry id' waiters h
  · rw [awaited_getState, awaited_getState, has_modifyEntry, hawaits]

theorem AwaitsKept.create (kept : AwaitsKept pending m) (id : Id) :
    AwaitsKept pending (m.getOrCreateEntry id) := by
  have hrest : (m.getOrCreateEntry id).tickets = m.tickets ∧
      (m.getOrCreateEntry id).awaits = m.awaits ∧
      (m.getOrCreateEntry id).lastEmitted = m.lastEmitted ∧
      (m.getOrCreateEntry id).emitted = m.emitted := by
    rw [getOrCreateEntry]
    split <;> exact ⟨rfl, rfl, rfl, rfl⟩
  obtain ⟨htickets, hawaits, hlast, hemitted⟩ := hrest
  refine ⟨htickets ▸ kept.tickets, ⟨?_, ?_⟩, kept.reported.congr hlast hemitted fun id' => ?_⟩
  · rw [hawaits]
    exact kept.grouped.nonempty
  · rw [hawaits]
    intro id' waiters h
    rw [has_getOrCreateEntry, kept.grouped.entry id' waiters h, Bool.or_true]
  · rw [awaited_getState, awaited_getState, has_getOrCreateEntry, hawaits]
    cases hgroup : m.awaits.get id' with
    | none => simp
    | some waiters => rw [kept.grouped.entry id' waiters hgroup, Bool.or_true]

theorem parkedOn_clearGrace (id id' : Id) (p : AwaitWaiter → Bool) (m : AlertManager) :
    (m.clearGrace id p).parkedOn id' = m.parkedOn id' := by
  rw [AlertManager.clearGrace]
  split
  · rfl
  next waiters hgroup =>
    unfold parkedOn
    rw [InsertionMap.get_set]
    split
    · next hid =>
        subst hid
        rw [hgroup, Option.getD_some, Option.getD_some, List.map_map]
        refine List.map_congr_left fun waiter _ => ?_
        dsimp only [Function.comp]
        split <;> rfl
    · rfl

/-- Whether an id has waiters, as its handles tell. -/
theorem isEmpty_getD_awaits (m : AlertManager) (id : Id) :
    ((m.awaits.get id).getD []).isEmpty = (m.parkedOn id).isEmpty := by
  unfold parkedOn
  rw [List.isEmpty_map]

theorem AwaitsKept.clearGrace (kept : AwaitsKept pending m) (id : Id) (p : AwaitWaiter → Bool) :
    AwaitsKept pending (m.clearGrace id p) := by
  have hparked := fun id' => parkedOn_clearGrace id id' p m
  rw [AlertManager.clearGrace] at hparked ⊢
  split at hparked
  · exact kept
  next waiters hgroup =>
    have htickets : AlertManager.tickets { m with awaits := m.awaits.set id (waiters.map fun
        waiter => if p waiter then { waiter with graceTimer := none } else waiter) } =
        m.tickets := by
      unfold AlertManager.tickets
      rw [funext hparked]
      rfl
    refine ⟨htickets ▸ kept.tickets, ⟨?_, ?_⟩, kept.reported.congr rfl rfl fun id' => ?_⟩
    · intro id' waiters' h
      rcases InsertionMap.get_of_set h with ⟨-, rfl⟩ | ⟨-, h⟩
      · intro hnil
        exact kept.grouped.nonempty id waiters hgroup (List.map_eq_nil_iff.1 hnil)
      · exact kept.grouped.nonempty id' waiters' h
    · intro id' waiters' h
      rw [InsertionMap.get_set] at h
      split at h
      · next hid =>
          subst hid
          exact kept.grouped.entry id waiters hgroup
      · exact kept.grouped.entry id' waiters' h
    · rw [awaited_getState, awaited_getState, isEmpty_getD_awaits, isEmpty_getD_awaits, hparked]

/-! ### Settling -/

/-- What a waiter leaves of its group. -/
theorem dropWaiter_spec (id : Id) (handle : Nat) (m : AlertManager) :
    (∀ id', (m.dropWaiter id handle).awaits.get id' =
        if id = id' then
          ((m.awaits.get id).map fun waiters => waiters.filter (·.handle ≠ handle)).filter
            (!·.isEmpty)
        else m.awaits.get id') ∧
      (m.dropWaiter id handle).entries = m.entries ∧
      (m.dropWaiter id handle).nextHandle = m.nextHandle ∧
      (m.dropWaiter id handle).outcomes = m.outcomes ∧
      (m.dropWaiter id handle).lastEmitted = m.lastEmitted ∧
      (m.dropWaiter id handle).emitted = m.emitted := by
  have hunregister : ∀ m : AlertManager, (m.unregisterClaimant id none).awaits = m.awaits ∧
      (m.unregisterClaimant id none).entries = m.entries ∧
      (m.unregisterClaimant id none).nextHandle = m.nextHandle ∧
      (m.unregisterClaimant id none).outcomes = m.outcomes ∧
      (m.unregisterClaimant id none).lastEmitted = m.lastEmitted ∧
      (m.unregisterClaimant id none).emitted = m.emitted := by
    intro m
    rw [unregisterClaimant]
    split <;> exact ⟨rfl, rfl, rfl, rfl, rfl, rfl⟩
  rw [dropWaiter]
  cases hgroup : m.awaits.get id with
  | none =>
    refine ⟨fun id' => ?_, rfl, rfl, rfl, rfl, rfl⟩
    show m.awaits.get id' = _
    by_cases hid : id = id'
    · rw [if_pos hid, ← hid, hgroup]
      rfl
    · rw [if_neg hid]
  | some waiters =>
    dsimp only
    split
    · next hempty =>
        obtain ⟨hawaits, hrest⟩ := hunregister { m with awaits := m.awaits.delete id }
        refine ⟨fun id' => ?_, hrest⟩
        rw [hawaits, InsertionMap.get_delete, Option.map_some, Option.filter_some, hempty]
        rfl
    · next hrest =>
        refine ⟨fun id' => ?_, rfl, rfl, rfl, rfl, rfl⟩
        rw [InsertionMap.get_set, Option.map_some, Option.filter_some, Bool.eq_false_iff.2 hrest]
        rfl

theorem parkedOn_dropWaiter (id : Id) (handle : Nat) (m : AlertManager) :
    (m.dropWaiter id handle).parkedOn =
      Function.update m.parkedOn id ((m.parkedOn id).filter (· ≠ handle)) := by
  funext id'
  by_cases hid : id' = id
  · subst hid
    rw [Function.update_self]
    unfold parkedOn
    rw [(dropWaiter_spec id' handle m).1, if_pos rfl]
    rcases m.awaits.get id' with _ | waiters
    · rfl
    rw [Option.map_some, Option.getD_some, List.filter_map, Option.filter_some]
    cases hempty : (waiters.filter (·.handle ≠ handle)).isEmpty with
    | true =>
      have hnil := List.isEmpty_iff.1 hempty
      show [] = (waiters.filter fun w => decide (w.handle ≠ handle)).map _
      rw [hnil]
      rfl
    | false => rfl
  · rw [Function.update_of_ne hid]
    unfold parkedOn
    rw [(dropWaiter_spec id handle m).1, if_neg fun h => hid h.symm]

theorem any_handle_iff (id : Id) (handle : Nat) (m : AlertManager) :
    ((m.awaits.get id).getD []).any (·.handle = handle) = true ↔ handle ∈ m.parkedOn id := by
  unfold parkedOn
  simp only [List.any_eq_true, decide_eq_true_eq, List.mem_map]

theorem tickets_settle {id : Id} {handle : Nat} (outcome : AwaitOutcome) {m : AlertManager}
    (hparked : handle ∈ m.parkedOn id) :
    (m.settle id handle outcome).tickets = m.tickets.close id handle := by
  obtain ⟨-, -, hnext, houtcomes, -, -⟩ := dropWaiter_spec id handle m
  rw [settle, if_pos ((any_handle_iff id handle m).2 hparked)]
  rw [tickets_notify]
  show Tickets.mk (m.dropWaiter id handle).nextHandle (m.dropWaiter id handle).parkedOn _ = _
  rw [hnext, parkedOn_dropWaiter]
  unfold settledHandles
  rw [houtcomes, List.map_append]
  rfl

theorem AwaitsKept.settle (kept : AwaitsKept pending m) (id : Id) (handle : Nat)
    (outcome : AwaitOutcome) : AwaitsKept pending (m.settle id handle outcome) := by
  by_cases hparked : handle ∈ m.parkedOn id
  · have htickets := tickets_settle outcome hparked
    rw [AlertManager.settle, if_pos ((any_handle_iff id handle m).2 hparked)] at htickets ⊢
    obtain ⟨hawaits, hentries, -, -, hlast, hemitted⟩ := dropWaiter_spec id handle m
    refine ⟨htickets ▸ kept.tickets.close hparked, ⟨?_, ?_⟩, Reported.notify id ?_ ?_⟩
    · rw [awaits_notify]
      intro id' waiters h
      rw [hawaits] at h
      split at h
      · obtain ⟨-, hsome⟩ := Option.filter_eq_some_iff.1 h
        intro hnil
        rw [hnil] at hsome
        cases hsome
      · exact kept.grouped.nonempty id' waiters h
    · rw [awaits_notify]
      intro id' waiters h
      rw [has_notify]
      rw [hawaits] at h
      rw [hentries]
      split at h
      · next hid =>
          subst hid
          obtain ⟨hmap, -⟩ := Option.filter_eq_some_iff.1 h
          obtain ⟨waiters', hgroup, -⟩ := Option.map_eq_some_iff.1 hmap
          exact kept.grouped.entry id waiters' hgroup
      · exact kept.grouped.entry id' waiters h
    · intro id' state h
      rw [hlast] at h
      show Option.map Prod.snd
        (((m.dropWaiter id handle).emitted.filter (·.1 = id')).getLast?) = _
      rw [hemitted]
      exact kept.reported.last id' state h
    · intro id' hid
      have hsame : (m.dropWaiter id handle).awaits.get id' = m.awaits.get id' := by
        rw [hawaits, if_neg fun h => hid h.symm]
      rw [awaited_getState]
      rw [hsame, hentries, ← awaited_getState]
      show (Option.map Prod.snd
        (((m.dropWaiter id handle).emitted.filter (·.1 = id')).getLast?)).any _ = _
      rw [hemitted]
      exact kept.reported.awaited id'
  · rw [AlertManager.settle, if_neg fun h => hparked ((any_handle_iff id handle m).1 h)]
    exact kept

theorem AwaitsKept.write (kept : AwaitsKept pending m) (h : Write m m') : AwaitsKept pending m' := by
  cases h with
  | notify id => exact kept.notify id
  | entry id f => exact kept.entry id f
  | create id => exact kept.create id
  | settle id handle outcome => exact kept.settle id handle outcome
  | clearGrace id p => exact kept.clearGrace id p
  | other same => exact kept.other same

theorem AwaitsKept.writes (kept : AwaitsKept pending m) (h : Writes m m') :
    AwaitsKept pending m' := by
  induction h with
  | refl => exact kept
  | tail _ hwrite ih => exact ih.write hwrite

/-! ### Issuing a handle -/

theorem AwaitsKept.issue (kept : AwaitsKept none m) :
    AwaitsKept (some m.nextHandle) { m with nextHandle := m.nextHandle + 1 } :=
  ⟨kept.tickets.issue, ⟨kept.grouped.nonempty, kept.grouped.entry⟩,
    kept.reported.congr rfl rfl fun _ => rfl⟩

theorem AwaitsKept.refuse {handle : Nat} (kept : AwaitsKept (some handle) m)
    (outcome : AwaitOutcome) : AwaitsKept none (m.settledAwait handle outcome) := by
  have htickets : (m.settledAwait handle outcome).tickets = m.tickets.refuse handle := by
    unfold AlertManager.tickets settledHandles settledAwait Tickets.refuse
    rw [List.map_append]
    rfl
  exact ⟨htickets ▸ kept.tickets.refuse, ⟨kept.grouped.nonempty, kept.grouped.entry⟩,
    kept.reported.congr rfl rfl fun _ => rfl⟩

theorem addWaiter_spec (id : Id) (waiter : AwaitWaiter) (m : AlertManager) :
    (∀ id', (m.addWaiter id waiter).awaits.get id' =
        if id = id' then some ((m.awaits.get id).getD [] ++ [waiter]) else m.awaits.get id') ∧
      (m.addWaiter id waiter).entries = m.entries ∧
      (m.addWaiter id waiter).nextHandle = m.nextHandle ∧
      (m.addWaiter id waiter).outcomes = m.outcomes ∧
      (m.addWaiter id waiter).lastEmitted = m.lastEmitted ∧
      (m.addWaiter id waiter).emitted = m.emitted := by
  rw [addWaiter]
  cases hgroup : m.awaits.get id with
  | none =>
    refine ⟨fun id' => InsertionMap.get_set _ _ _ _, ?_⟩
    dsimp only
    rw [registerClaimant]
    split <;> exact ⟨rfl, rfl, rfl, rfl, rfl⟩
  | some waiters =>
    exact ⟨fun id' => InsertionMap.get_set _ _ _ _, rfl, rfl, rfl, rfl, rfl⟩

theorem AwaitsKept.park {id : Id} {waiter : AwaitWaiter}
    (kept : AwaitsKept (some waiter.handle) m) (hentry : m.entries.has id = true) :
    AwaitsKept none ((m.addWaiter id waiter).notify id) := by
  obtain ⟨hawaits, hentries, hnext, houtcomes, hlast, hemitted⟩ := addWaiter_spec id waiter m
  have hparked : (m.addWaiter id waiter).parkedOn =
      Function.update m.parkedOn id (m.parkedOn id ++ [waiter.handle]) := by
    funext id'
    unfold parkedOn
    rw [hawaits]
    by_cases hid : id' = id
    · subst hid
      rw [if_pos rfl, Function.update_self, Option.getD_some, List.map_append]
      rfl
    · rw [if_neg fun h => hid h.symm, Function.update_of_ne hid]
  have htickets : (m.addWaiter id waiter).tickets = m.tickets.hold id waiter.handle := by
    unfold AlertManager.tickets settledHandles
    rw [hparked, hnext, houtcomes]
    rfl
  refine ⟨?_, ⟨?_, ?_⟩, Reported.notify id ?_ ?_⟩
  · rw [tickets_notify, htickets]
    exact kept.tickets.hold
  · rw [awaits_notify]
    intro id' waiters h
    rw [hawaits] at h
    split at h
    · obtain rfl := Option.some.inj h
      exact List.append_ne_nil_of_right_ne_nil _ (List.cons_ne_nil _ _)
    · exact kept.grouped.nonempty id' waiters h
  · rw [awaits_notify]
    intro id' waiters h
    rw [has_notify, hentries]
    rw [hawaits] at h
    split at h
    · next hid => exact hid ▸ hentry
    · exact kept.grouped.entry id' waiters h
  · intro id' state h
    rw [hlast] at h
    unfold lastReport
    rw [hemitted]
    exact kept.reported.last id' state h
  · intro id' hid
    rw [awaited_getState, hawaits, if_neg fun h => hid h.symm, hentries, ← awaited_getState]
    unfold lastReport
    rw [hemitted]
    exact kept.reported.awaited id'

end AlertManager

end Dormouse.Alert
