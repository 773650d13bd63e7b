import Dormouse.Alert.AwaitWrites
import Dormouse.Alert.Sound

/-!
# Dormouse.Alert.AwaitContract

**What an await promises**, in every run: it settles once, a completion that wakes one
rings nobody, one that fails takes nothing, and one that arrives late takes the one ring it
resolves on.
-/

namespace Dormouse.Alert

open Terminal

namespace AlertManager

open AlertEntry

/-! ### Outcomes -/

theorem settle_outcomes (id : Id) (handle : Nat) (outcome : AwaitOutcome) (m : AlertManager) :
    (m.settle id handle outcome).outcomes = m.outcomes ∨
      handle ∈ m.parkedOn id ∧
        (m.settle id handle outcome).outcomes = m.outcomes ++ [(handle, outcome)] := by
  rw [settle]
  split
  · next hparked =>
      refine .inr ⟨(any_handle_iff id handle m).1 hparked, ?_⟩
      rw [notify_outcomes]
      show (m.dropWaiter id handle).outcomes ++ _ = _
      rw [(dropWaiter_spec id handle m).2.2.2.1]
  · exact .inl rfl

theorem getOrCreateEntry_outcomes (id : Id) (m : AlertManager) :
    (m.getOrCreateEntry id).outcomes = m.outcomes := by
  rw [getOrCreateEntry]
  split <;> rfl

theorem Write.outcomes {m m' : AlertManager} (h : Write m m') : m.outcomes <+: m'.outcomes := by
  cases h with
  | notify => rw [notify_outcomes]
  | entry => rw [modifyEntry_outcomes]
  | create => rw [getOrCreateEntry_outcomes]
  | settle id handle outcome =>
    rcases settle_outcomes id handle outcome m with h | ⟨-, h⟩
    · rw [h]
    · exact ⟨_, h.symm⟩
  | clearGrace =>
    rw [AlertManager.clearGrace]
    split <;> exact List.prefix_rfl
  | other same => rw [same.outcomes]

theorem Writes.outcomes {m m' : AlertManager} (h : Writes m m') : m.outcomes <+: m'.outcomes := by
  induction h with
  | refl => exact List.prefix_rfl
  | tail _ hwrite ih => exact ih.trans hwrite.outcomes

/-- The outcomes a completion may give. -/
def Wakes (event : CompletionEvent) (outcome : AwaitOutcome) : Prop :=
  ∃ awaitUntil cause waitedMs, outcome = .resolved cause waitedMs ∧
    awaitCauseFor awaitUntil event = some cause

/-- What offering a completion to an id does: it wakes waiters parked there, and says so. -/
structure Offered (id : Id) (event : CompletionEvent) (m : AlertManager)
    (r : AlertManager × Bool) : Prop where
  woken : ∃ woken, r.1.outcomes = m.outcomes ++ woken ∧
    (∀ p ∈ woken, p.1 ∈ m.parkedOn id ∧ Wakes event p.2) ∧ (woken ≠ [] → r.2 = true)
  parked : ∀ handle ∈ r.1.parkedOn id, handle ∈ m.parkedOn id

theorem Offered.refl (id : Id) (event : CompletionEvent) (m : AlertManager) (claimed : Bool) :
    Offered id event m (m, claimed) :=
  ⟨⟨[], (List.append_nil _).symm, List.forall_mem_nil _, fun h => absurd rfl h⟩, fun _ h => h⟩

theorem Offered.trans {id : Id} {event : CompletionEvent} {a b : AlertManager} {claimed : Bool}
    {r : AlertManager × Bool} (hab : Offered id event a (b, claimed))
    (hbr : Offered id event b r) (hclaimed : claimed = true → r.2 = true) :
    Offered id event a r := by
  obtain ⟨⟨woken, houtcomes, hwakes, hwoken⟩, hparked⟩ := hab
  obtain ⟨⟨woken', houtcomes', hwakes', hwoken'⟩, hparked'⟩ := hbr
  refine ⟨⟨woken ++ woken', ?_, ?_, ?_⟩, fun handle h => hparked handle (hparked' handle h)⟩
  · rw [houtcomes', houtcomes, List.append_assoc]
  · intro p hp
    rcases List.mem_append.1 hp with h | h
    · exact hwakes p h
    · exact ⟨hparked _ (hwakes' p h).1, (hwakes' p h).2⟩
  · intro hne
    by_cases hnil : woken = []
    · subst hnil
      exact hwoken' hne
    · exact hclaimed (hwoken hnil)

theorem settle_offered (id : Id) {event : CompletionEvent} (handle : Nat) {cause : AwaitCause}
    {awaitUntil : AwaitUntil} (waitedMs : Ms) (hcause : awaitCauseFor awaitUntil event = some cause)
    (m : AlertManager) :
    Offered id event m (m.settle id handle (.resolved cause waitedMs), true) := by
  refine ⟨?_, fun handle' h => (parkedOn_settle_subset id id handle _ m handle' h).1⟩
  rcases settle_outcomes id handle (.resolved cause waitedMs) m with h | ⟨hparked, h⟩
  · exact ⟨[], h.trans (List.append_nil _).symm, List.forall_mem_nil _, fun h => absurd rfl h⟩
  · refine ⟨_, h, ?_, fun _ => rfl⟩
    intro p hp
    rw [List.mem_singleton.1 hp]
    exact ⟨hparked, _, _, _, rfl, hcause⟩

theorem offerWaiters_offered (id : Id) (event : CompletionEvent) (now : Ms)
    (waiters : List AwaitWaiter) :
    ∀ m : AlertManager, Offered id event m (offerWaiters id event now waiters m) := by
  induction waiters with
  | nil => exact fun m => .refl id event m false
  | cons waiter waiters ih =>
    intro m
    rw [offerWaiters]
    split
    · exact ih m
    · next cause hcause =>
        have hsettle := settle_offered id waiter.handle (now - waiter.startedAt) hcause m
        have hrest := ih (m.settle id waiter.handle (.resolved cause (now - waiter.startedAt)))
        obtain ⟨⟨woken, houtcomes, hwakes, -⟩, hparked⟩ := hrest
        exact hsettle.trans ⟨⟨woken, houtcomes, hwakes, fun _ => rfl⟩, hparked⟩ fun _ => rfl

theorem offerClaimants_offered (id : Id) (event : CompletionEvent) (now : Ms)
    (claimants : List Claimant) :
    ∀ m : AlertManager, Offered id event m (offerClaimants id event now claimants m) := by
  induction claimants with
  | nil => exact fun m => .refl id event m false
  | cons claimant claimants ih =>
    intro m
    cases claimant with
    | callback key answer asked =>
      have hasked : Offered id event m (m.countAsked id key, false) :=
        ⟨⟨[], (List.append_nil _).symm, List.forall_mem_nil _, fun h => absurd rfl h⟩,
          fun _ h => h⟩
      rw [offerClaimants]
      split
      · exact hasked.trans (.refl id event _ true) fun _ => rfl
      · exact hasked.trans (ih _) fun h => by cases h
    | parked =>
      have h := offerWaiters_offered id event now ((m.awaits.get id).getD []) m
      rw [offerClaimants]
      split
      · next heq =>
          rw [heq] at h
          exact h
      · next heq =>
          rw [heq] at h
          exact h.trans (ih _) fun h => by cases h

theorem flushDeferredNotification_outcomes (id : Id) (m : AlertManager) :
    (m.flushDeferredNotification id).outcomes = m.outcomes := by
  rw [flushDeferredNotification]
  split
  · rfl
  · dsimp only
    split
    · exact modifyEntry_outcomes ..
    · rw [notify_outcomes, modifyEntry_outcomes, modifyEntry_outcomes]

theorem deferOrDeliverNotification_outcomes (id : Id) (notification : ActivityNotification)
    (now : Ms) (m : AlertManager) :
    (m.deferOrDeliverNotification id notification now).outcomes = m.outcomes := by
  rw [deferOrDeliverNotification]
  split
  · rfl
  · dsimp only
    rw [notify_outcomes]
    split
    · exact modifyEntry_outcomes ..
    · exact modifyEntry_outcomes ..

theorem ringRule_outcomes (id : Id) (event : CompletionEvent) (now : Ms) (m : AlertManager) :
    (m.ringRule id event now).outcomes = m.outcomes := by
  rw [ringRule]
  split
  · rfl
  cases event with
  | settled =>
    dsimp only
    split
    · rfl
    · rw [notify_outcomes, modifyEntry_outcomes]
  | commandFinished displayCommand argv0 exitCode ranMs armed =>
    dsimp only
    split
    · rfl
    · split
      · rw [flushDeferredNotification_outcomes, modifyEntry_outcomes]
      · rw [notify_outcomes, modifyEntry_outcomes]
  | notification notification =>
    dsimp only
    split
    · exact notify_outcomes ..
    · exact deferOrDeliverNotification_outcomes ..

/-- **A completion that wakes a waiter is claimed, and one that is claimed rings nobody.** -/
theorem dispatchCompletion_claims (id : Id) (event : CompletionEvent) (now : Ms)
    (m : AlertManager) :
    (∃ woken, (m.dispatchCompletion id event now).1.outcomes = m.outcomes ++ woken ∧
      (∀ p ∈ woken, p.1 ∈ m.parkedOn id ∧ Wakes event p.2) ∧
      (woken ≠ [] → (m.dispatchCompletion id event now).2 = true)) ∧
      ((m.dispatchCompletion id event now).2 = true →
        Quiet m (m.dispatchCompletion id event now).1) := by
  have hoffered := (offerClaimants_offered id event now ((m.claimants.get id).getD []) m).woken
  have hquiet := offerClaimants_publishes (R := Quiet) id event now ((m.claimants.get id).getD []) m
  rw [dispatchCompletion]
  split
  · next heq =>
      rw [heq] at hoffered hquiet
      exact ⟨hoffered, fun _ => hquiet⟩
  next heq =>
    rw [heq] at hoffered
    obtain ⟨woken, houtcomes, hwakes, hwoken⟩ := hoffered
    refine ⟨⟨woken, (ringRule_outcomes ..).trans houtcomes, hwakes, hwoken⟩, ?_⟩
    intro h
    cases h

/-! ### Arriving late -/

/-- The ring an await takes, and that alone. -/
structure Consumes (id : Id) (cause : AwaitCause) (m m' : AlertManager) : Prop where
  ring : ∃ track e e', cause = consumedCause track ∧ m.entries.get id = some e ∧
    m'.entries.get id = some e' ∧ e.rings track = true ∧ e'.rings track = false ∧
    (∀ other, other ≠ track → e'.rings other = e.rings other) ∧ e'.todo = e.todo ∧
    e'.notification = e.notification ∧ e'.attentionDismissedRing = e.attentionDismissedRing
  others : ∀ id', id' ≠ id → m'.entries.get id' = m.entries.get id'
  attention : m'.attentionId = m.attentionId

theorem released_untouched (track : Track) (e : AlertEntry) :
    (e.released track).todo = e.todo ∧ (e.released track).notification = e.notification ∧
      (e.released track).attentionDismissedRing = e.attentionDismissedRing := by
  unfold released
  split <;> split <;> exact ⟨rfl, rfl, rfl⟩

theorem Consumes.of_releaseRing {id : Id} {track : Track} {m : AlertManager} {e : AlertEntry}
    (he : m.entries.get id = some e) (hring : e.rings track = true) :
    Consumes id (consumedCause track) m (m.releaseRing id track).1 := by
  have hedits := releaseRing_edits id track m
  obtain ⟨htodo, hnotification, hdismissed⟩ := released_untouched track e
  refine ⟨⟨track, e, e.released track, rfl, he, ?_, hring, ?_, ?_, htodo, hnotification,
    hdismissed⟩, ?_, hedits.attentionId⟩
  · rw [hedits.get_self, he]
    rfl
  · rw [rings_released, if_pos rfl]
  · intro other hother
    rw [rings_released, if_neg fun h => hother h.symm]
  · intro id' hid
    rw [hedits.get, if_neg fun h => hid h.symm]

theorem consumeAwaitableRing_consumes {id : Id} {awaitUntil : AwaitUntil} {cause : AwaitCause}
    {m : AlertManager} (h : (m.consumeAwaitableRing id awaitUntil).2 = some cause) :
    Consumes id cause m (m.consumeAwaitableRing id awaitUntil).1 := by
  rw [consumeAwaitableRing] at h ⊢
  split at h
  · cases h
  next e he =>
    split at h
    · next hring =>
        cases h
        have hrings : e.rings .protocol = true := decide_eq_true hring.2
        rw [if_pos hring]
        exact .of_releaseRing he hrings
    next hnot =>
      rw [if_neg hnot]
      split at h
      · next hring =>
          cases h
          have hrings : e.rings .commandExit = true := decide_eq_true hring.2
          rw [if_pos hring]
          exact .of_releaseRing he hrings
      next hnot' =>
        rw [if_neg hnot']
        split at h
        · next hring =>
            cases h
            have hrings : e.rings .watching = true :=
              Option.isSome_iff_ne_none.2 hring.2.2
            rw [if_pos hring]
            exact .of_releaseRing he hrings
        · cases h

theorem Consumes.congr {id : Id} {cause : AwaitCause} {a b a' b' : AlertManager}
    (h : Consumes id cause a b) (ha : Quiet a' a) (hb : Quiet b b') : Consumes id cause a' b' := by
  refine ⟨?_, ?_, (hb.attentionId.trans h.attention).trans ha.attentionId⟩
  · rw [← ha.entries, hb.entries]
    exact h.ring
  · rw [← ha.entries, hb.entries]
    exact h.others

/-- An entry created for an await has nothing to consume. -/
theorem Consumes.of_created {id : Id} {cause : AwaitCause} {m m' : AlertManager}
    (h : Consumes id cause (m.getOrCreateEntry id) m') : Consumes id cause m m' := by
  by_cases hentry : m.entries.has id = true
  · rw [getOrCreateEntry, if_pos hentry] at h
    exact h
  obtain ⟨track, e, _, -, he, -, hring, -⟩ := h.ring
  rw [getOrCreateEntry, if_neg hentry] at he
  rw [InsertionMap.get_set_self] at he
  cases he
  cases track <;> cases hring

/-- **What an await takes**: the one ring it is told of at once, or nothing. -/
inductive Takes (id : Id) (m m' : AlertManager) : Prop
  | ring (cause : AwaitCause) :
      m'.outcomes = m.outcomes ++ [(m.nextHandle, .resolved cause 0)] →
      Consumes id cause m m' → Takes id m m'
  | refused (outcome : AwaitOutcome) : outcome.Fails →
      m'.outcomes = m.outcomes ++ [(m.nextHandle, outcome)] → Quiet m m' → Takes id m m'
  | parked : m'.outcomes = m.outcomes → m.nextHandle ∈ m'.parkedOn id →
      Quiet (m.getOrCreateEntry id) m' → Takes id m m'

theorem getOrCreateEntry_issued (id : Id) (m : AlertManager) :
    Quiet (m.getOrCreateEntry id)
      ({ m with nextHandle := m.nextHandle + 1 }.getOrCreateEntry id) := by
  rw [getOrCreateEntry, getOrCreateEntry]
  split <;> exact ⟨rfl, rfl, rfl⟩

theorem consumeAwaitableRing_none {id : Id} {awaitUntil : AwaitUntil} {m m' : AlertManager}
    (h : m.consumeAwaitableRing id awaitUntil = (m', none)) : m' = m := by
  rw [consumeAwaitableRing] at h
  split at h
  · exact (Prod.mk.inj h).1.symm
  split at h
  · cases (Prod.mk.inj h).2
  · split at h
    · cases (Prod.mk.inj h).2
    · split at h
      · cases (Prod.mk.inj h).2
      · exact (Prod.mk.inj h).1.symm

theorem awaitCompletion_takes (id : Id) (awaitUntil : AwaitUntil) (timeoutMs : Option Ms)
    (now : Ms) (m : AlertManager) :
    Takes id m (m.awaitCompletion id awaitUntil timeoutMs now) := by
  have hstart : Quiet m { m with nextHandle := m.nextHandle + 1 } := ⟨rfl, rfl, rfl⟩
  have hoffered := (consumeAwaitableRing_outcomes id awaitUntil _).trans
    (getOrCreateEntry_outcomes id { m with nextHandle := m.nextHandle + 1 })
  have hawaiting := awaitCompletion_awaiting id awaitUntil timeoutMs now m
  generalize m.awaitCompletion id awaitUntil timeoutMs now = m' at hawaiting ⊢
  cases hawaiting with
  | refused outcome hfails =>
    exact .refused outcome hfails rfl (hstart.trans (settledAwait_quiet _ outcome _))
  | resolved m₂ cause hring =>
    have hconsumes := consumeAwaitableRing_consumes (congrArg Prod.snd hring)
    rw [hring] at hoffered hconsumes
    refine .ring cause ?_ (hconsumes.of_created.congr hstart
      ((notify_quiet id m₂).trans (settledAwait_quiet _ _ _)))
    show (m₂.notify id).outcomes ++ _ = _
    rw [notify_outcomes, hoffered]
  | parked m₂ waiter hring hhandle =>
    rw [hring] at hoffered
    obtain rfl := consumeAwaitableRing_none hring
    refine .parked ?_ ?_ ((getOrCreateEntry_issued id m).trans
      ((addWaiter_quiet id waiter _).trans (notify_quiet id _)))
    · rw [notify_outcomes, (addWaiter_spec ..).2.2.2.1, hoffered]
    · unfold parkedOn
      rw [awaits_notify, (addWaiter_spec ..).1, if_pos rfl, Option.getD_some, List.map_append]
      exact List.mem_append_right _ (List.mem_singleton.2 hhandle.symm)

/-- **What an await was told stays told.** -/
theorem perform_outcomes (now : Ms) (m : AlertManager) (op : Operation) :
    m.outcomes <+: (m.perform now op).outcomes := by
  rcases perform_writes now m op with hwrites | ⟨id, awaitUntil, timeoutMs, rfl⟩ | ⟨id, rfl⟩ | rfl
  · exact hwrites.outcomes
  · cases awaitCompletion_takes id awaitUntil timeoutMs now m with
    | ring cause houtcomes => exact ⟨_, houtcomes.symm⟩
    | refused outcome _ houtcomes => exact ⟨_, houtcomes.symm⟩
    | parked houtcomes => exact houtcomes ▸ List.prefix_rfl
  · show _ <+: (m.remove id now).outcomes
    rw [remove]
    have hsettled := (settleWaiters_publishes (R := Writes) id .died now
      { m with helpers := m.helpers.erase id, removed := insert id m.removed }).outcomes
    split
    · rw [notify_outcomes]
      split <;> exact hsettled
    · exact hsettled
  · exact (foldl_rests (R := Writes)
      (fun m id => settleWaiters_publishes id .cancelled now m) m.awaits.keys m).outcomes

/-! ### The contract -/

/-- What holds of the awaits between operations. -/
structure AwaitsSound (m : AlertManager) : Prop where
  once : m.settledHandles.Nodup
  accounted : ∀ handle, handle < m.nextHandle ↔
    handle ∈ m.settledHandles ∨ ∃ id, handle ∈ m.parkedOn id
  unsettled : ∀ id, ∀ handle ∈ m.parkedOn id, handle ∉ m.settledHandles
  apart : ∀ id id' handle, handle ∈ m.parkedOn id → handle ∈ m.parkedOn id' → id = id'
  group : ∀ id, m.awaits.has id = true ↔ m.parkedOn id ≠ []
  awaited : ∀ id, (m.getState id).awaited = m.awaits.has id
  reported : ∀ id, (m.lastReport id).any (·.awaited) = m.awaits.has id

theorem AwaitsKept.sound {m : AlertManager} (kept : AwaitsKept none m) : m.AwaitsSound := by
  have hgroup : ∀ id, m.awaits.has id = true ↔ m.parkedOn id ≠ [] := by
    intro id
    unfold InsertionMap.has
    constructor
    · intro hhas hnil
      rw [kept.no_group hnil] at hhas
      cases hhas
    · intro hne
      cases hwaiters : m.awaits.get id with
      | none =>
        refine absurd ?_ hne
        unfold parkedOn
        rw [hwaiters]
        rfl
      | some waiters => rfl
  have hawaited : ∀ id, (m.getState id).awaited = m.awaits.has id := by
    intro id
    rw [awaited_getState, isEmpty_getD_awaits]
    cases hwaiters : m.awaits.get id with
    | none =>
      unfold parkedOn InsertionMap.has
      rw [hwaiters, Option.getD_none, List.map_nil, List.isEmpty_nil, Bool.not_true,
        Bool.and_false]
      rfl
    | some waiters =>
      have hhas : m.awaits.has id = true := by
        unfold InsertionMap.has
        rw [hwaiters]
        rfl
      rw [kept.grouped.entry id waiters hwaiters, hhas, Bool.true_and,
        Bool.eq_false_iff.2 fun h => (hgroup id).1 hhas (List.isEmpty_iff.1 h), Bool.not_false]
  refine ⟨kept.tickets.closed, ?_, kept.tickets.disjoint, kept.tickets.apart, hgroup, hawaited,
    fun id => (kept.reported.awaited id).trans (hawaited id)⟩
  intro handle
  refine (kept.tickets.issued handle).trans ⟨?_, .inr⟩
  intro h
  rcases h with h | h
  · cases h
  · exact h

/-- **The contract of awaits**, in every run: each await settles at most once and is parked on
one id until then; an id has a group while it has waiters, and its reports say so; a claimed
completion changes no entry; failing changes none; and an await that is told of a ring at
once takes that one latch. -/
theorem await_contract (m : AlertManager) (h : alerts.Reachable m) :
    m.AwaitsSound ∧
    (∀ now op, m.outcomes <+: (m.perform now op).outcomes) ∧
    (∀ (m₁ : AlertManager) id event now,
      (∃ woken, (m₁.dispatchCompletion id event now).1.outcomes = m₁.outcomes ++ woken ∧
        (∀ p ∈ woken, p.1 ∈ m₁.parkedOn id ∧ Wakes event p.2) ∧
        (woken ≠ [] → (m₁.dispatchCompletion id event now).2 = true)) ∧
      ((m₁.dispatchCompletion id event now).2 = true →
        Quiet m₁ (m₁.dispatchCompletion id event now).1)) ∧
    (∀ (m₁ : AlertManager) id handle now, Quiet m₁ (m₁.awaitTimesOut id handle now) ∧
      Quiet m₁ (m₁.cancelAwait id handle now) ∧
      Quiet m₁ (m₁.settleWaiters id .died now) ∧ Quiet m₁ (m₁.settleWaiters id .cancelled now)) ∧
    (∀ id awaitUntil timeoutMs now,
      Takes id m (m.awaitCompletion id awaitUntil timeoutMs now)) := by
  refine ⟨(awaits_inductive.reachable h).sound, fun now op => perform_outcomes now m op,
    fun m₁ id event now => dispatchCompletion_claims id event now m₁, ?_,
    fun id awaitUntil timeoutMs now => awaitCompletion_takes id awaitUntil timeoutMs now m⟩
  intro m₁ id handle now
  exact ⟨awaitTimesOut_publishes id handle now m₁, cancelAwait_publishes id handle now m₁,
    settleWaiters_publishes id .died now m₁, settleWaiters_publishes id .cancelled now m₁⟩

/-- Somebody waits for a command to exit. -/
def waitsForExit : AlertManager :=
  performAll [(0, .awaitCompletion (js "a") .exit (some 1000))]

theorem await_contract_waiting :
    waitsForExit.parkedOn (js "a") = [0] ∧ waitsForExit.AwaitsSound :=
  ⟨by decide +kernel, (await_contract _ (reachable_performAll _)).1⟩

/-- A group is not of one kind: that of an await for an exit has nobody waiting for quiet. -/
theorem group_of_both_kinds :
    ¬∀ m, alerts.Reachable m → ∀ id awaitUntil,
      (m.awaits.has id = true ↔
        ∃ waiter ∈ (m.awaits.get id).getD [], waiter.awaitUntil = awaitUntil) := by
  intro h
  have hquiet := (h waitsForExit (reachable_performAll _) (js "a") .quiet).1 (by decide +kernel)
  exact absurd hquiet (by decide +kernel)

end AlertManager

end Dormouse.Alert
