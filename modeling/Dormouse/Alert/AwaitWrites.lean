import Dormouse.Alert.Awaits

/-!
# Dormouse.Alert.AwaitWrites

**Every operation of the alert manager is a chain of writes**, those apart that issue a
handle or end a Session; so every operation keeps the awaits.
-/

namespace Dormouse.Alert

open Terminal

namespace AlertManager

open AlertEntry

variable {pending : Option Nat} {m m' : AlertManager}

/-! ### Chains of writes -/

theorem armAndNotify_writes (id : Id) (m : AlertManager) : Writes m (m.armAndNotify id) := by
  rw [armAndNotify, armCommandExitOnAttentionLoss]
  by_cases hcan : (m.entries.get id).any canArm = true
  · simp only [if_pos hcan]
    exact (Write.entry id _ m).run.tail (.notify id _)
  · simp only [if_neg hcan]
    exact writes_refl m

instance : Publishes Writes where
  refl := writes_refl
  trans := Relation.ReflTransGen.trans
  rest h := writes_other ⟨h.entries, h.awaits, h.nextHandle, h.outcomes, h.lastEmitted, h.emitted⟩
  notify id m := (Write.notify id m).run
  settle id handle outcome m := (Write.settle id handle outcome m).run
  clearGrace id p m := (Write.clearGrace id p m).run

instance : LatchEdits Writes where
  create id m := (Write.create id m).run
  entry _ := (Write.entry _ _ _).run

instance : Releases Writes where
  arm := armAndNotify_writes
  look _ _ _ := writes_other ⟨rfl, rfl, rfl, rfl, rfl, rfl⟩
  create id m := (Write.create id m).run
  entry _ := (Write.entry _ _ _).run
  rules _ _ := writes_other ⟨rfl, rfl, rfl, rfl, rfl, rfl⟩

theorem updateProtocolProgress_writes (id : Id) (progress : ProtocolProgressUpdate) (now : Ms)
    (m : AlertManager) : Writes m (m.updateProtocolProgress id progress now) := by
  have hreported : Writes m (m.reportedEntry id) := reportedEntry_latches id m
  rw [updateProtocolProgress]
  split
  · exact writes_refl m
  refine hreported.trans ?_
  split
  · dsimp only
    split
    · exact writes_refl _
    · exact finishProtocolProgressCycle_latches ..
  · exact finishProtocolProgressCycle_latches ..
  · split
    · exact finishProtocolProgressCycle_latches ..
    · exact activeProgress_releases ..
  · exact activeProgress_releases ..
  · exact activeProgress_releases ..

/-! ### Calls that issue a handle, and lifetimes -/

theorem Write.has {m m' : AlertManager} (h : Write m m') {id : Id}
    (hentry : m.entries.has id = true) : m'.entries.has id = true := by
  cases h with
  | notify => rwa [has_notify]
  | entry => rwa [has_modifyEntry]
  | create => rw [has_getOrCreateEntry, hentry, Bool.or_true]
  | settle => rwa [(settle_quiet ..).entries]
  | clearGrace => rwa [(clearGrace_quiet ..).entries]
  | other same => rwa [same.entries]

theorem Writes.has {m m' : AlertManager} (h : Writes m m') {id : Id}
    (hentry : m.entries.has id = true) : m'.entries.has id = true := by
  induction h with
  | refl => exact hentry
  | tail _ hwrite ih => exact hwrite.has ih

/-- What an await makes of the manager: it is refused, takes a ring at once, or parks. -/
inductive Awaiting (id : Id) (awaitUntil : AwaitUntil) (m : AlertManager) : AlertManager → Prop
  | refused (outcome : AwaitOutcome) : outcome.Fails →
      Awaiting id awaitUntil m
        ({ m with nextHandle := m.nextHandle + 1 }.settledAwait m.nextHandle outcome)
  | resolved (m₂ : AlertManager) (cause : AwaitCause) :
      ({ m with nextHandle := m.nextHandle + 1 }.getOrCreateEntry id).consumeAwaitableRing id
        awaitUntil = (m₂, some cause) →
      Awaiting id awaitUntil m ((m₂.notify id).settledAwait m.nextHandle (.resolved cause 0))
  | parked (m₂ : AlertManager) (waiter : AwaitWaiter) :
      ({ m with nextHandle := m.nextHandle + 1 }.getOrCreateEntry id).consumeAwaitableRing id
        awaitUntil = (m₂, none) →
      waiter.handle = m.nextHandle →
      Awaiting id awaitUntil m ((m₂.addWaiter id waiter).notify id)

theorem awaitCompletion_awaiting (id : Id) (awaitUntil : AwaitUntil) (timeoutMs : Option Ms)
    (now : Ms) (m : AlertManager) :
    Awaiting id awaitUntil m (m.awaitCompletion id awaitUntil timeoutMs now) := by
  cases timeoutMs with
  | none =>
    rw [awaitCompletion]
    rw [ite_self]
    exact .refused (.cancelled 0) trivial
  | some timeoutMs =>
    rw [awaitCompletion]
    split
    · exact .refused (.cancelled 0) trivial
    split
    · exact .refused (.cancelled 0) trivial
    split
    · exact .refused (.died 0) trivial
    rcases hring : ({ m with nextHandle := m.nextHandle + 1 }.getOrCreateEntry
      id).consumeAwaitableRing id awaitUntil with ⟨m₂, _ | cause⟩
    · rw [hring]
      exact .parked m₂ _ hring rfl
    · rw [hring]
      exact .resolved m₂ cause hring

theorem AwaitsKept.awaitCompletion (kept : AwaitsKept none m) (id : Id) (awaitUntil : AwaitUntil)
    (timeoutMs : Option Ms) (now : Ms) :
    AwaitsKept none (m.awaitCompletion id awaitUntil timeoutMs now) := by
  have hissued := kept.issue
  have hcreated := hissued.create id
  have hwrites := consumeAwaitableRing_releases (R := Writes) id awaitUntil
    ({ m with nextHandle := m.nextHandle + 1 }.getOrCreateEntry id)
  have hconsumed := hcreated.writes hwrites
  have hcreated' : ({ m with nextHandle := m.nextHandle + 1 }.getOrCreateEntry id).entries.has
      id = true := by
    rw [has_getOrCreateEntry, decide_eq_true rfl, Bool.true_or]
  have hentry := hwrites.has hcreated'
  have hawaiting := awaitCompletion_awaiting id awaitUntil timeoutMs now m
  generalize m.awaitCompletion id awaitUntil timeoutMs now = m' at hawaiting ⊢
  cases hawaiting with
  | refused outcome => exact hissued.refuse outcome
  | resolved m₂ cause hring =>
    rw [hring] at hconsumed
    exact (hconsumed.notify id).refuse _
  | parked m₂ waiter hring hhandle =>
    rw [hring] at hconsumed hentry
    exact AwaitsKept.park (hhandle ▸ hconsumed) hentry

theorem parkedOn_settle_subset (id id' : Id) (handle : Nat) (outcome : AwaitOutcome)
    (m : AlertManager) :
    ∀ h ∈ (m.settle id handle outcome).parkedOn id', h ∈ m.parkedOn id' ∧
      (id' = id → h ≠ handle) := by
  intro h hmem
  by_cases hparked : handle ∈ m.parkedOn id
  · have htickets := congrArg Tickets.held (tickets_settle outcome hparked)
    have hmem' : h ∈ (m.tickets.close id handle).held id' := by
      rw [← htickets]
      exact hmem
    obtain ⟨hkept, hother⟩ := Tickets.mem_held_close.1 hmem'
    exact ⟨hkept, fun hid heq => hother ⟨hid, heq⟩⟩
  · rw [settle, if_neg fun h => hparked ((any_handle_iff id handle m).1 h)] at hmem
    exact ⟨hmem, fun hid heq => hparked (hid ▸ heq ▸ hmem)⟩

/-- Settling waiters parks nobody, and leaves none of those settled. -/
theorem parkedOn_settleWaiters (id : Id) (outcome : Ms → AwaitOutcome) (now : Ms)
    (m : AlertManager) :
    (∀ id', ∀ h ∈ (m.settleWaiters id outcome now).parkedOn id', h ∈ m.parkedOn id') ∧
      (m.settleWaiters id outcome now).parkedOn id = [] := by
  have hfold : ∀ (waiters : List AwaitWaiter) (m : AlertManager),
      (∀ id', ∀ h ∈ (waiters.foldl (fun m waiter =>
          m.settle id waiter.handle (outcome (now - waiter.startedAt))) m).parkedOn id',
        h ∈ m.parkedOn id') ∧
      ∀ h ∈ (waiters.foldl (fun m waiter =>
          m.settle id waiter.handle (outcome (now - waiter.startedAt))) m).parkedOn id,
        h ∉ waiters.map (·.handle) := by
    intro waiters
    induction waiters with
    | nil => exact fun m => ⟨fun _ _ h => h, fun _ _ h => by cases h⟩
    | cons waiter waiters ih =>
      intro m
      obtain ⟨hsubset, hgone⟩ := ih (m.settle id waiter.handle (outcome (now - waiter.startedAt)))
      refine ⟨fun id' h hmem => (parkedOn_settle_subset _ _ _ _ _ h (hsubset id' h hmem)).1, ?_⟩
      intro h hmem hlisted
      rcases List.mem_cons.1 hlisted with rfl | hrest
      · exact (parkedOn_settle_subset _ _ _ _ _ _ (hsubset id _ hmem)).2 rfl rfl
      · exact hgone h hmem hrest
  obtain ⟨hsubset, hgone⟩ := hfold ((m.awaits.get id).getD []) m
  refine ⟨hsubset, List.eq_nil_iff_forall_not_mem.2 fun h hmem => ?_⟩
  exact hgone h hmem (hsubset id h hmem)

theorem AwaitsKept.no_group (kept : AwaitsKept pending m) {id : Id} (hnone : m.parkedOn id = []) :
    m.awaits.get id = none := by
  cases hgroup : m.awaits.get id with
  | none => rfl
  | some waiters =>
    refine absurd ?_ (kept.grouped.nonempty id waiters hgroup)
    unfold parkedOn at hnone
    rw [hgroup, Option.getD_some, List.map_eq_nil_iff] at hnone
    exact hnone

/-- An entry nobody waits on may go. -/
theorem AwaitsKept.delete (kept : AwaitsKept pending m) {id : Id} (hnone : m.awaits.get id = none) :
    AwaitsKept pending { m with entries := m.entries.delete id } := by
  refine ⟨kept.tickets, ⟨kept.grouped.nonempty, ?_⟩, kept.reported.congr rfl rfl ?_⟩
  · intro id' waiters h
    have hid : id ≠ id' := by
      intro hid
      rw [← hid, hnone] at h
      cases h
    have hentry := kept.grouped.entry id' waiters h
    unfold InsertionMap.has at hentry ⊢
    rwa [InsertionMap.get_delete_ne _ hid]
  · intro id'
    rw [awaited_getState, awaited_getState]
    by_cases hid : id = id'
    · subst hid
      rw [hnone, Option.getD_none, List.isEmpty_nil, Bool.not_true, Bool.and_false, Bool.and_false]
    · unfold InsertionMap.has
      rw [InsertionMap.get_delete_ne _ hid]

theorem AwaitsKept.remove (kept : AwaitsKept none m) (id : Id) (now : Ms) :
    AwaitsKept none (m.remove id now) := by
  have hmarked : AwaitsKept none
      { m with helpers := m.helpers.erase id, removed := insert id m.removed } :=
    kept.other ⟨rfl, rfl, rfl, rfl, rfl, rfl⟩
  rw [AlertManager.remove]
  have hsettled := hmarked.writes (settleWaiters_publishes id .died now _)
  have hnone := hsettled.no_group (parkedOn_settleWaiters id .died now _).2
  generalize settleWaiters id .died now _ = m₁ at *
  have hfreed : AwaitsKept none { m₁ with claimants := m₁.claimants.delete id } :=
    hsettled.other ⟨rfl, rfl, rfl, rfl, rfl, rfl⟩
  split
  · refine AwaitsKept.notify ?_ id
    split
    · exact (hfreed.delete hnone).other ⟨rfl, rfl, rfl, rfl, rfl, rfl⟩
    · exact hfreed.delete hnone
  · exact hfreed

theorem AwaitsKept.dispose (kept : AwaitsKept none m) (now : Ms) :
    AwaitsKept none (m.dispose now) := by
  have hfold : ∀ (ids : List Id) (m : AlertManager),
      (∀ id', ∀ h ∈ (ids.foldl (fun m id => m.settleWaiters id .cancelled now) m).parkedOn id',
        h ∈ m.parkedOn id') ∧
      ∀ id ∈ ids, (ids.foldl (fun m id => m.settleWaiters id .cancelled now) m).parkedOn id = [] := by
    intro ids
    induction ids with
    | nil => exact fun m => ⟨fun _ _ h => h, fun _ h => by cases h⟩
    | cons id ids ih =>
      intro m
      obtain ⟨hsubset, hempty⟩ := parkedOn_settleWaiters id .cancelled now m
      obtain ⟨hsubset', hempty'⟩ := ih (m.settleWaiters id .cancelled now)
      refine ⟨fun id' h hmem => hsubset id' h (hsubset' id' h hmem), fun id' hid => ?_⟩
      rcases List.mem_cons.1 hid with rfl | hrest
      · refine List.eq_nil_iff_forall_not_mem.2 fun h hmem => ?_
        have hmem' := hsubset' id' h hmem
        rw [hempty] at hmem'
        cases hmem'
      · exact hempty' id' hrest
  obtain ⟨hsubset, hempty⟩ := hfold m.awaits.keys m
  have hkept := kept.writes (foldl_rests (fun m id => settleWaiters_publishes id .cancelled now m)
    m.awaits.keys m)
  have hnobody : ∀ id,
      (m.awaits.keys.foldl (fun m id => m.settleWaiters id .cancelled now) m).parkedOn id = [] := by
    intro id
    by_cases hid : id ∈ m.awaits.keys
    · exact hempty id hid
    · refine List.eq_nil_iff_forall_not_mem.2 fun h hmem => ?_
      have hmem' := hsubset id h hmem
      unfold parkedOn at hmem'
      rw [InsertionMap.get_eq_none.2 hid] at hmem'
      cases hmem'
  rw [AlertManager.dispose]
  generalize m.awaits.keys.foldl _ m = m₁ at *
  have htickets : AlertManager.tickets { m₁ with
      entries := .empty, removed := ∅, helpers := ∅, awaits := .empty, claimants := .empty
      lastEmitted := .empty, attentionTimer := none } = m₁.tickets := by
    unfold AlertManager.tickets
    rw [funext hnobody]
    rfl
  refine ⟨htickets ▸ hkept.tickets, ⟨?_, ?_⟩, ⟨?_, ?_⟩⟩
  · intro id waiters h
    cases h
  · intro id waiters h
    cases h
  · intro id state h
    cases h
  · intro id
    have hreport := hkept.reported.awaited id
    rw [awaited_getState, isEmpty_getD_awaits, hnobody, List.isEmpty_nil, Bool.not_true,
      Bool.and_false] at hreport
    exact hreport

/-- The operations that are chains of writes, and the three others. -/
theorem perform_writes (now : Ms) (m : AlertManager) (op : Operation) :
    Writes m (m.perform now op) ∨
      (∃ id awaitUntil timeoutMs, op = .awaitCompletion id awaitUntil timeoutMs) ∨
      (∃ id, op = .remove id) ∨ op = .dispose := by
  cases op with
  | applySettings timeoutMs deferUntilQuiet =>
    exact .inl (Rests.trans (setInactivityTimeoutMs_attends timeoutMs now m)
      (setDeferAlertsUntilQuiet_latches deferUntilQuiet _))
  | setHelper id helper => exact .inl (writes_other ⟨rfl, rfl, rfl, rfl, rfl, rfl⟩)
  | onData id => exact .inl (onData_latches ..)
  | onExit id exitCode => exact .inl (onExit_latches ..)
  | onResize id => exact .inl (onResize_latches ..)
  | setWatchedCommands names => exact .inl (replaceWatchedCommands_releases ..)
  | setCommandWatched name watched => exact .inl (setCommandWatched_releases ..)
  | registerCompletionClaimant id key answer => exact .inl (registerClaimant_rests ..)
  | unregisterClaimant id key => exact .inl (unregisterClaimant_rests ..)
  | awaitCompletion id awaitUntil timeoutMs => exact .inr (.inl ⟨id, awaitUntil, timeoutMs, rfl⟩)
  | cancelAwait id handle => exact .inl (cancelAwait_publishes ..)
  | notifyFromProtocol id notification => exact .inl (notifyFromProtocol_latches ..)
  | updateProtocolProgress id progress => exact .inl (updateProtocolProgress_writes ..)
  | applyTerminalSemanticEvents id events => exact .inl (applyTerminalSemanticEvents_latches ..)
  | attend id => exact .inl (attend_releases ..)
  | clearAttention id => exact .inl (clearAttention_attends ..)
  | dismissAlert id => exact .inl (dismissAlert_releases ..)
  | toggleTodo id => exact .inl (toggleTodo_releases ..)
  | markTodo id => exact .inl (markTodo_releases ..)
  | clearTodo id => exact .inl (clearTodo_releases ..)
  | remove id => exact .inr (.inr (.inl ⟨id, rfl⟩))
  | seed id todo notification => exact .inl (seed_releases ..)
  | dispose => exact .inr (.inr (.inr rfl))
  | attentionExpires => exact .inl (attentionExpires_attends m)
  | graceExpires id handle => exact .inl (graceExpires_publishes ..)
  | awaitTimesOut id handle => exact .inl (awaitTimesOut_publishes ..)
  | deferredNotificationDue id => exact .inl (deferredNotificationDue_latches id now m
      (Write.entry _ _ _).run)
  | detectorTimer id timer => exact .inl (detectorTimer_latches ..)

/-- **Every operation keeps the awaits.** -/
theorem AwaitsKept.perform (kept : AwaitsKept none m) (now : Ms) (op : Operation) :
    AwaitsKept none (m.perform now op) := by
  rcases perform_writes now m op with hwrites | ⟨id, awaitUntil, timeoutMs, rfl⟩ | ⟨id, rfl⟩ | rfl
  · exact kept.writes hwrites
  · exact kept.awaitCompletion id awaitUntil timeoutMs now
  · exact kept.remove id now
  · exact kept.dispose now

theorem awaits_inductive : alerts.Inductive (AwaitsKept none) := by
  refine ⟨?_, ?_⟩
  · intro m hm
    rw [show m = .fresh from hm]
    refine ⟨⟨fun _ => List.nodup_nil, ?_, List.nodup_nil, ?_, ?_, ?_⟩, ⟨?_, ?_⟩, ⟨?_, fun _ => rfl⟩⟩
    · intro _ _ _ h
      cases h
    · intro _ _ h
      cases h
    · intro n
      constructor
      · intro h
        exact absurd h (Nat.not_lt_zero n)
      · rintro (h | h | ⟨_, h⟩)
        · cases h
        · cases h
        · cases h
    · intro _ h
      cases h
    · intro _ _ h
      cases h
    · intro _ _ h
      cases h
    · intro _ _ h
      cases h
  · intro m m' label kept hstep
    rw [show m' = m.perform label.1 label.2 from hstep]
    exact kept.perform label.1 label.2

end AlertManager

end Dormouse.Alert
