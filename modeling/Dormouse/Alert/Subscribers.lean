import Mathlib.Data.Set.Insert
import Dormouse.Alert.AwaitWrites
import Dormouse.Alert.Sound

/-!
# Dormouse.Alert.Subscribers

**Subscribers are never stale**: after every operation and every timer, what was last said
of an id is its state. While an operation runs, the ids it has touched may be stale; a
report takes one of them off.
-/

namespace Dormouse.Alert

open Terminal

namespace AlertManager

open AlertEntry

/-! ### What was said -/

/-- What was last said of an id after the first `mark` reports. -/
def lastReportSince (mark : Nat) (m : AlertManager) (id : Id) : Option AlertState :=
  (((m.emitted.drop mark).filter (·.1 = id)).getLast?).map Prod.snd

/-- What those who hear the reports behind the first `mark` take the state to be. -/
def heardState (mark : Nat) (m : AlertManager) (id : Id) : AlertState :=
  (m.lastReportSince mark id).getD DEFAULT_ALERT_STATE

/-- What subscribers heard is current, but for the ids in `stale`. -/
structure Current (mark : Nat) (stale : Set Id) (m : AlertManager) : Prop where
  mark_le : mark ≤ m.emitted.length
  last : ∀ id state, m.lastEmitted.get id = some state → m.lastReportSince mark id = some state
  heard : ∀ id, id ∉ stale → m.heardState mark id = m.getState id
  entry : ∀ id waiters, m.awaits.get id = some waiters → m.entries.has id = true

/-- What `getState` reads of an entry. -/
def viewOf (m : AlertManager) (e : AlertEntry) :
    SessionStatus × Bool × Bool × Option ActivityNotification × Bool × Nat :=
  (m.getProjectedStatus e, m.isWatching e, e.todo, e.notification, e.attentionDismissedRing,
    e.ringSeq)

variable {mark : Nat} {stale : Set Id} {m m' : AlertManager}

theorem lastReportSince_concat (hmark : mark ≤ m.emitted.length) (id id' : Id)
    (state : AlertState) (es : InsertionMap Id AlertState) :
    lastReportSince mark { m with lastEmitted := es, emitted := m.emitted ++ [(id, state)] } id' =
      if id = id' then some state else m.lastReportSince mark id' := by
  unfold lastReportSince
  rw [List.drop_append_of_le_length hmark, List.filter_append]
  by_cases h : id = id'
  · rw [if_pos h, List.filter_singleton, decide_eq_true h]
    simp
  · rw [if_neg h, List.filter_singleton, decide_eq_false h]
    simp

theorem getState_congr {id : Id} (hentry : m'.entries.get id = m.entries.get id)
    (hawaits : ((m'.awaits.get id).getD []).isEmpty = ((m.awaits.get id).getD []).isEmpty)
    (hwatched : m'.watchedCommands = m.watchedCommands) : m'.getState id = m.getState id := by
  have hwatching : m'.isWatching = m.isWatching := by
    funext e
    rw [isWatching, isWatching, hwatched]
  have hstatus : m'.getProjectedStatus = m.getProjectedStatus := by
    funext e
    rw [getProjectedStatus, getProjectedStatus, hwatching]
  rw [getState, getState, hentry, hawaits, hwatching, hstatus]

/-- A subscriber is stale at most where the state changed. -/
theorem Current.of_same {stale' : Set Id} (h : Current mark stale m)
    (hemitted : m'.emitted = m.emitted) (hlast : m'.lastEmitted = m.lastEmitted)
    (hentry : ∀ id waiters, m'.awaits.get id = some waiters → m'.entries.has id = true)
    (hstate : ∀ id, id ∉ stale' → id ∉ stale ∧ m'.getState id = m.getState id) :
    Current mark stale' m' := by
  refine ⟨?_, fun id state hid => ?_, fun id hid => ?_, hentry⟩
  · rw [hemitted]
    exact h.mark_le
  · rw [hlast] at hid
    rw [lastReportSince, hemitted]
    exact h.last id state hid
  · obtain ⟨hclean, hsame⟩ := hstate id hid
    rw [hsame, ← h.heard id hclean, heardState, heardState, lastReportSince, hemitted]
    rfl

/-- What only the rest of the manager can tell apart. -/
theorem Current.other (h : Current mark stale m) (hentries : m'.entries = m.entries)
    (hawaits : m'.awaits = m.awaits) (hwatched : m'.watchedCommands = m.watchedCommands)
    (hlast : m'.lastEmitted = m.lastEmitted) (hemitted : m'.emitted = m.emitted) :
    Current mark stale m' := by
  refine h.of_same hemitted hlast ?_ fun id hid => ⟨hid, ?_⟩
  · rw [hentries, hawaits]
    exact h.entry
  · exact getState_congr (by rw [hentries]) (by rw [hawaits]) hwatched

theorem Current.mono {stale' : Set Id} (h : Current mark stale m) (hsubset : stale ⊆ stale') :
    Current mark stale' m :=
  h.of_same rfl rfl h.entry fun _ hid => ⟨fun hmem => hid (hsubset hmem), rfl⟩

/-! ### Reports and edits -/

theorem notify_getState (id id' : Id) (m : AlertManager) :
    (m.notify id).getState id' = m.getState id' := by
  have h := notify_quiet id m
  exact getState_congr (by rw [h.entries]) (by rw [awaits_notify]) h.watchedCommands

/-- A report brings one id up to date. -/
theorem Current.notify {id : Id} (h : Current mark (insert id stale) m) :
    Current mark stale (m.notify id) := by
  have hentry : ∀ id' waiters, (m.notify id).awaits.get id' = some waiters →
      (m.notify id).entries.has id' = true := by
    rw [awaits_notify, (notify_quiet id m).entries]
    exact h.entry
  have hothers : ∀ id', id' ≠ id → id' ∉ stale → m.heardState mark id' = m.getState id' :=
    fun id' hid hclean => h.heard id' fun hmem =>
      (Set.mem_insert_iff.1 hmem).elim hid hclean
  by_cases hsame : m.lastEmitted.get id = some (m.getState id)
  · rw [AlertManager.notify, if_pos hsame]
    refine ⟨h.mark_le, h.last, fun id' hclean => ?_, h.entry⟩
    by_cases hid : id' = id
    · rw [hid, heardState, h.last id _ hsame]
      rfl
    · exact hothers id' hid hclean
  have hreport : ∀ id', (m.notify id).lastReportSince mark id' =
      if id = id' then some (m.getState id) else m.lastReportSince mark id' := by
    intro id'
    rw [AlertManager.notify, if_neg hsame]
    exact lastReportSince_concat h.mark_le id id' _ _
  refine ⟨?_, fun id' state hid' => ?_, fun id' hclean => ?_, hentry⟩
  · rw [AlertManager.notify, if_neg hsame]
    rw [List.length_append]
    exact Nat.le_add_right_of_le h.mark_le
  · rw [hreport]
    rw [AlertManager.notify, if_neg hsame] at hid'
    by_cases hid : id = id'
    · subst hid
      rw [if_pos rfl]
      split at hid'
      · rwa [InsertionMap.get_set_self] at hid'
      · rw [InsertionMap.get_delete_self] at hid'
        cases hid'
    rw [if_neg hid]
    split at hid'
    · rw [InsertionMap.get_set_ne _ _ hid] at hid'
      exact h.last _ _ hid'
    · rw [InsertionMap.get_delete_ne _ hid] at hid'
      exact h.last _ _ hid'
  · rw [notify_getState, heardState, hreport]
    by_cases hid : id = id'
    · rw [if_pos hid, hid]
      rfl
    · rw [if_neg hid]
      exact hothers id' (fun h => hid h.symm) hclean

/-- A report of an id that is up to date changes nothing. -/
theorem Current.notify' (h : Current mark stale m) (id : Id) : Current mark stale (m.notify id) :=
  (h.mono (Set.subset_insert id stale)).notify

theorem modifyEntry_rest (id : Id) (f : AlertEntry → AlertEntry) (m : AlertManager) :
    (m.modifyEntry id f).awaits = m.awaits ∧ (m.modifyEntry id f).lastEmitted = m.lastEmitted ∧
      (m.modifyEntry id f).emitted = m.emitted := by
  rw [modifyEntry]
  split <;> exact ⟨rfl, rfl, rfl⟩

/-- An edit makes its id stale, unless nobody can see it. -/
theorem Current.modifyEntry_of {stale' : Set Id} {id : Id} {f : AlertEntry → AlertEntry}
    (h : Current mark stale m) (hsubset : stale ⊆ stale')
    (hview : id ∉ stale' → ∀ e, m.entries.get id = some e → m.viewOf (f e) = m.viewOf e) :
    Current mark stale' (m.modifyEntry id f) := by
  obtain ⟨hawaits, hlast, hemitted⟩ := modifyEntry_rest id f m
  have hedits := modifyEntry_edits id f m
  refine h.of_same hemitted hlast ?_ fun id' hid' => ⟨fun hmem => hid' (hsubset hmem), ?_⟩
  · rw [hawaits]
    intro id' waiters hgroup
    rw [has_modifyEntry]
    exact h.entry id' waiters hgroup
  · by_cases hid : id = id'
    · subst hid
      cases he : m.entries.get id with
      | none =>
        have hsame : (m.modifyEntry id f).entries.get id = m.entries.get id := by
          rw [hedits.get_self, he]
          rfl
        exact getState_congr hsame (by rw [hawaits]) hedits.watchedCommands
      | some e =>
        have hsame := hview hid' e he
        have hwatching : (m.modifyEntry id f).isWatching = m.isWatching := by
          funext e
          rw [isWatching, isWatching, hedits.watchedCommands]
        have hstatus : (m.modifyEntry id f).getProjectedStatus = m.getProjectedStatus := by
          funext e
          rw [getProjectedStatus, getProjectedStatus, hwatching]
        simp only [viewOf, Prod.mk.injEq] at hsame
        obtain ⟨h₁, h₂, h₃, h₄, h₅, h₆⟩ := hsame
        rw [getState, getState, hedits.get_self, he, hawaits, hwatching, hstatus]
        simp only [Option.map_some, h₁, h₂, h₃, h₄, h₅, h₆]
    · exact getState_congr (by rw [hedits.get, if_neg hid]) (by rw [hawaits])
        hedits.watchedCommands

theorem Current.modifyEntry (h : Current mark stale m) (id : Id) (f : AlertEntry → AlertEntry) :
    Current mark (insert id stale) (m.modifyEntry id f) :=
  h.modifyEntry_of (Set.subset_insert id stale) fun hid =>
    absurd (Set.mem_insert id stale) hid

theorem Current.modifyEntry_stale {id : Id} (h : Current mark (insert id stale) m)
    (f : AlertEntry → AlertEntry) : Current mark (insert id stale) (m.modifyEntry id f) :=
  h.modifyEntry_of (Set.Subset.refl _) fun hid => absurd (Set.mem_insert id stale) hid

theorem Current.invisible {id : Id} {f : AlertEntry → AlertEntry} (h : Current mark stale m)
    (hview : ∀ e, m.entries.get id = some e → m.viewOf (f e) = m.viewOf e) :
    Current mark stale (m.modifyEntry id f) :=
  h.modifyEntry_of (Set.Subset.refl stale) fun _ => hview

/-- The detector reports by itself what can be seen of it. -/
theorem Current.modifyDetector (h : Current mark stale m) (id : Id)
    (f : QuiesceDetector → QuiesceDetector) : Current mark stale (m.modifyDetector id f) := by
  rw [AlertManager.modifyDetector]
  split
  · exact h
  rename_i e he
  split
  · exact (h.modifyEntry id _).notify
  rename_i hsame
  refine h.invisible fun e' he' => ?_
  obtain rfl := Option.some.inj (he.symm.trans he')
  have hwatching : m.isWatching { e with detector := f e.detector } = m.isWatching e := rfl
  simp only [viewOf, getProjectedStatus, hwatching, Prod.mk.injEq, and_true]
  by_cases hwatch : m.isWatching e = true
  · have hstatus : (f e.detector).status = e.detector.status := by
      by_contra hne
      exact hsame ⟨hne, hwatch⟩
    rw [hstatus]
    rfl
  · rw [if_neg hwatch, if_neg hwatch]
    rfl

/-- A new entry looks like none. -/
theorem Current.getOrCreateEntry (h : Current mark stale m) (id : Id) :
    Current mark stale (m.getOrCreateEntry id) := by
  rw [AlertManager.getOrCreateEntry]
  split
  · exact h
  rename_i hfresh
  have hnone : m.entries.get id = none := by simpa [InsertionMap.has] using hfresh
  refine h.of_same rfl rfl ?_ fun id' hid' => ⟨hid', ?_⟩
  · intro id' waiters hgroup
    rw [InsertionMap.has_set]
    exact Or.inr (h.entry id' waiters hgroup)
  · by_cases hid : id = id'
    · subst hid
      have hunawaited : m.awaits.get id = none := by
        cases hgroup : m.awaits.get id with
        | none => rfl
        | some waiters => exact absurd (h.entry id waiters hgroup) hfresh
      rw [getState, getState, hnone]
      simp only [InsertionMap.get_set_self, hunawaited]
      rfl
    · exact getState_congr (InsertionMap.get_set_ne _ _ hid) rfl rfl

theorem Current.streamEntry (h : Current mark stale m) (id : Id) :
    Current mark stale (m.streamEntry id) := by
  rw [AlertManager.streamEntry]
  split
  · exact h
  · exact h.getOrCreateEntry id

theorem Current.reportedEntry (h : Current mark stale m) (id : Id) :
    Current mark stale (m.reportedEntry id) := by
  have hclaimed : Current mark stale { m with removed := m.removed.erase id } :=
    h.other rfl rfl rfl rfl rfl
  exact hclaimed.getOrCreateEntry id

theorem Current.foldl {f : AlertManager → Id → AlertManager}
    (hf : ∀ m id, Current mark stale m → Current mark stale (f m id)) (ids : List Id) :
    ∀ m, Current mark stale m → Current mark stale (ids.foldl f m) := by
  induction ids with
  | nil => exact fun _ h => h
  | cons id ids ih => exact fun m h => ih _ (hf m id h)

/-! ### Awaits -/

theorem Current.clearGrace (h : Current mark stale m) (id : Id) (p : AwaitWaiter → Bool) :
    Current mark stale (m.clearGrace id p) := by
  have hparked := fun id' => parkedOn_clearGrace id id' p m
  rw [AlertManager.clearGrace] at hparked ⊢
  split at hparked
  · exact h
  rename_i waiters hgroup
  refine h.of_same rfl rfl ?_ fun id' hid' => ⟨hid', ?_⟩
  · intro id' waiters' hgroup'
    rw [InsertionMap.get_set] at hgroup'
    split at hgroup'
    · rename_i hid
      exact hid ▸ h.entry id waiters hgroup
    · exact h.entry id' waiters' hgroup'
  · refine getState_congr rfl ?_ rfl
    rw [isEmpty_getD_awaits, isEmpty_getD_awaits, hparked]

theorem Current.settle (h : Current mark stale m) (id : Id) (handle : Nat)
    (outcome : AwaitOutcome) : Current mark stale (m.settle id handle outcome) := by
  rw [AlertManager.settle]
  split
  · obtain ⟨hawaits, hentries, -, -, hlast, hemitted⟩ := dropWaiter_spec id handle m
    have hwatched := (dropWaiter_quiet id handle m).watchedCommands
    refine Current.notify ?_
    refine h.of_same hemitted hlast ?_ fun id' hid' => ⟨fun hmem => hid' (Or.inr hmem), ?_⟩
    · intro id' waiters hgroup
      rw [hawaits] at hgroup
      rw [hentries]
      split at hgroup
      · rename_i hid
        subst hid
        cases hold : m.awaits.get id with
        | none =>
          rw [hold] at hgroup
          cases hgroup
        | some waiters' => exact h.entry id waiters' hold
      · exact h.entry id' waiters hgroup
    · have hid : id ≠ id' := fun heq => hid' (Or.inl heq.symm)
      refine getState_congr ?_ ?_ hwatched
      · dsimp only
        rw [hentries]
      · dsimp only
        rw [hawaits, if_neg hid]
  · exact h

/-- What is current stays so. -/
def StaysCurrent (mark : Nat) (stale : Set Id) (m m' : AlertManager) : Prop :=
  Current mark stale m → Current mark stale m'

instance : Publishes (StaysCurrent mark stale) where
  refl _ h := h
  trans hab hbc h := hbc (hab h)
  rest hrest h := h.other hrest.entries hrest.awaits hrest.watchedCommands hrest.lastEmitted
    hrest.emitted
  notify id _ h := h.notify' id
  settle id handle outcome _ h := h.settle id handle outcome
  clearGrace id p _ h := h.clearGrace id p

theorem Current.offerClaimants (h : Current mark stale m) (id : Id) (event : CompletionEvent)
    (now : Ms) (claimants : List Claimant) :
    Current mark stale (AlertManager.offerClaimants id event now claimants m).1 :=
  offerClaimants_publishes (R := StaysCurrent mark stale) id event now claimants m h

theorem Current.settleWaiters (h : Current mark stale m) (id : Id) (outcome : Ms → AwaitOutcome)
    (now : Ms) : Current mark stale (m.settleWaiters id outcome now) :=
  settleWaiters_publishes (R := StaysCurrent mark stale) id outcome now m h

/-! ### Deferred notifications and the ring rules -/

theorem Current.clearDeferred (h : Current mark stale m) (id : Id) :
    Current mark stale (m.modifyEntry id clearDeferredNotification) :=
  h.invisible fun _ _ => rfl

theorem Current.flushDeferredNotification (h : Current mark stale m) (id : Id) :
    Current mark stale (m.flushDeferredNotification id) := by
  rw [AlertManager.flushDeferredNotification]
  split
  · exact h
  · dsimp only
    split
    · exact h.clearDeferred id
    · exact ((h.clearDeferred id).modifyEntry id _).notify

/-- A deferral delivered to a Session nobody looks at is a report. -/
theorem Current.flushReports {id : Id} (h : Current mark (insert id stale) m)
    (hdeferred : ((m.entries.get id).bind (·.deferredNotification)).isSome = true)
    (hatt : m.hasAttention id = false) : Current mark stale (m.flushDeferredNotification id) := by
  rw [AlertManager.flushDeferredNotification]
  split
  · rename_i hnone
    rw [hnone] at hdeferred
    cases hdeferred
  · dsimp only
    rw [modifyEntry_hasAttention, hatt]
    exact ((h.clearDeferred id).modifyEntry_stale _).notify

/-- A notification nobody claimed is reported, whatever was stale about its id. -/
theorem Current.deferOrDeliverNotification {id : Id} (h : Current mark (insert id stale) m)
    (hentry : m.entries.has id = true) (notification : ActivityNotification) (now : Ms) :
    Current mark stale (m.deferOrDeliverNotification id notification now) := by
  rw [AlertManager.deferOrDeliverNotification]
  split
  · rename_i hnone
    rw [InsertionMap.has, hnone] at hentry
    cases hentry
  · refine Current.notify ?_
    split
    · exact h.modifyEntry_stale _
    · exact h.modifyEntry_stale _

theorem Current.ringRule (h : Current mark stale m) (id : Id) (event : CompletionEvent)
    (now : Ms) : Current mark stale (m.ringRule id event now) := by
  rw [AlertManager.ringRule]
  split
  · exact h
  rename_i e he
  cases event with
  | settled =>
    dsimp only
    split
    · exact h
    · exact (h.modifyEntry id _).notify
  | commandFinished displayCommand argv0 exitCode ranMs armed =>
    dsimp only
    split
    · exact h
    rename_i hrings
    simp only [Bool.or_eq_true, not_or] at hrings
    have hring := h.modifyEntry id (applyCommandExitRinging displayCommand exitCode)
    split
    · rename_i hdeferred
      refine hring.flushReports ?_ ?_
      · rw [(modifyEntry_edits ..).get_self, he]
        have hkept : (applyCommandExitRinging displayCommand exitCode e).deferredNotification =
            e.deferredNotification := by
          rw [applyCommandExitRinging, latchRing]
          split <;> rfl
        show (applyCommandExitRinging displayCommand exitCode e).deferredNotification.isSome = _
        rw [hkept]
        exact Option.isSome_iff_ne_none.2 hdeferred
      · rw [modifyEntry_hasAttention]
        exact Bool.eq_false_iff.2 hrings.1.2
    · exact hring.notify
  | notification notification =>
    dsimp only
    split
    · exact h.notify' id
    · exact (h.mono (Set.subset_insert id stale)).deferOrDeliverNotification
        (by rw [InsertionMap.has, he]; rfl) notification now

theorem Current.dispatchCompletion (h : Current mark stale m) (id : Id) (event : CompletionEvent)
    (now : Ms) : Current mark stale (m.dispatchCompletion id event now).1 := by
  have hoffered := h.offerClaimants id event now ((m.claimants.get id).getD [])
  rw [AlertManager.dispatchCompletion]
  split
  · rename_i heq
    rw [heq] at hoffered
    exact hoffered
  · rename_i heq
    rw [heq] at hoffered
    exact hoffered.ringRule id event now

/-- A notification nobody claims is reported. -/
theorem Current.dispatchNotification {id : Id} (h : Current mark (insert id stale) m)
    (hentry : m.entries.has id = true) (notification : ActivityNotification) (now : Ms)
    (hunclaimed : (m.dispatchCompletion id (.notification notification) now).2 = false) :
    Current mark stale (m.dispatchCompletion id (.notification notification) now).1 := by
  have hoffered := h.offerClaimants id (.notification notification) now
    ((m.claimants.get id).getD [])
  have hquiet := offerClaimants_publishes (R := Quiet) id (.notification notification) now
    ((m.claimants.get id).getD []) m
  rw [AlertManager.dispatchCompletion] at hunclaimed ⊢
  split at hunclaimed
  · cases hunclaimed
  rename_i heq
  rw [heq] at hoffered hquiet
  have hentry' := hentry
  rw [← hquiet.entries] at hentry'
  rw [AlertManager.ringRule]
  split
  · rename_i hnone
    rw [InsertionMap.has, hnone] at hentry'
    cases hentry'
  · dsimp only
    split
    · exact hoffered.notify
    · exact hoffered.deferOrDeliverNotification hentry' notification now

theorem Current.onSettled (h : Current mark stale m) (id : Id) (now : Ms) :
    Current mark stale (m.onSettled id now) := by
  rw [AlertManager.onSettled]
  split
  · exact (h.dispatchCompletion id .settled now).flushDeferredNotification id
  · exact h

/-! ### The command-exit track -/

theorem Current.startCommandExitWatch (h : Current mark stale m) (id : Id)
    (source : Option CommandRunSource) (startedAt : Option Ms) (now : Ms) :
    Current mark (insert id stale) (m.startCommandExitWatch id source startedAt now) := by
  rw [AlertManager.startCommandExitWatch]
  exact ((h.modifyEntry id _).modifyDetector id .reset).clearGrace id _

theorem Current.finishCommandExitWatch (h : Current mark stale m) (id : Id)
    (exitCode : Option Int) (now : Ms) :
    Current mark (insert id stale) (m.finishCommandExitWatch id exitCode now).1 := by
  rw [AlertManager.finishCommandExitWatch]
  split
  · exact h.mono (Set.subset_insert id stale)
  · refine Current.modifyDetector ?_ id .reset
    split
    · exact h.modifyEntry id _
    · exact (h.modifyEntry id _).dispatchCompletion ..

/-- Finishing where no command runs shows nothing: only a command that runs is armed. -/
theorem Current.finishCommandExitWatch_idle (h : Current mark stale m) (hm : m.Coherent) (id : Id)
    (exitCode : Option Int) (now : Ms)
    (hidle : (m.finishCommandExitWatch id exitCode now).2 = false) :
    Current mark stale (m.finishCommandExitWatch id exitCode now).1 := by
  rw [AlertManager.finishCommandExitWatch] at hidle ⊢
  split at hidle
  · exact h
  rename_i e he
  have hwatch : e.commandExitWatch = none := by
    cases hwatch : e.commandExitWatch with
    | none => rfl
    | some watch =>
      rw [hwatch] at hidle
      cases hidle
  rw [hwatch]
  refine Current.modifyDetector ?_ id .reset
  refine h.invisible fun e' he' => ?_
  obtain rfl := Option.some.inj (he.symm.trans he')
  have hstatus : (if e.commandExitStatus ≠ .ALERT_RINGING then CommandExitStatus.IDLE
      else e.commandExitStatus) = e.commandExitStatus := by
    cases hexit : e.commandExitStatus with
    | IDLE => rfl
    | ALERT_RINGING => rfl
    | COMMAND_EXIT_ARMED =>
      obtain ⟨-, watch, hsome, -⟩ := (hm id e he).armed hexit
      exact absurd (hwatch.symm.trans hsome) (by simp)
  rw [hstatus]
  simp [viewOf, getProjectedStatus, isWatching, hasActiveRing, hwatch]

theorem Current.semanticEvent (h : Current mark stale m) (hm : m.Coherent) (id : Id) (now : Ms)
    (event : TerminalSemanticEvent) :
    Current mark (insert id stale) (m.semanticEvent id now event).1 ∧
      ((m.semanticEvent id now event).2 = false →
        Current mark stale (m.semanticEvent id now event).1) := by
  have hall : ∀ r : AlertManager × Bool, Current mark stale r.1 →
      Current mark (insert id stale) r.1 ∧ (r.2 = false → Current mark stale r.1) :=
    fun r hr => ⟨hr.mono (Set.subset_insert id stale), fun _ => hr⟩
  have hprompt : (m.semanticEvent id now .promptStart) = (m.semanticEvent id now .promptEnd) := rfl
  have hend : Current mark (insert id stale) (m.semanticEvent id now .promptEnd).1 ∧
      ((m.semanticEvent id now .promptEnd).2 = false →
        Current mark stale (m.semanticEvent id now .promptEnd).1) := by
    rw [AlertManager.semanticEvent]
    split
    · exact ⟨h.finishCommandExitWatch id none now, fun hfalse => absurd hfalse (by simp)⟩
    · exact hall (_, _) (h.modifyDetector id .reset)
  cases event with
  | commandLine commandLine =>
    rw [AlertManager.semanticEvent]
    split
    · exact hall (_, _) (h.invisible fun _ _ => rfl)
    · exact hall (_, _) h
  | commandStart source startedAt =>
    exact ⟨h.startCommandExitWatch id source startedAt now, fun hfalse => absurd hfalse
      (Bool.noConfusion)⟩
  | commandFinish exitCode finishedAt =>
    exact ⟨h.finishCommandExitWatch id exitCode now,
      h.finishCommandExitWatch_idle hm id exitCode now⟩
  | cwd cwd => exact hall (_, _) h
  | title title => exact hall (_, _) h
  | promptStart => exact hprompt ▸ hend
  | promptEnd => exact hend

theorem Current.semanticEvents (id : Id) (now : Ms) (events : List TerminalSemanticEvent) :
    ∀ m, m.Coherent → ∀ stale, Current mark stale m →
      Current mark (insert id stale) (semanticEvents id now events m).1 ∧
        ((semanticEvents id now events m).2 = false →
          Current mark stale (semanticEvents id now events m).1) := by
  induction events with
  | nil => exact fun m _ stale h => ⟨h.mono (Set.subset_insert id stale), fun _ => h⟩
  | cons event events ih =>
    intro m hm stale h
    obtain ⟨hone, hquiet⟩ := h.semanticEvent hm id now event
    have hm' := (semanticEvent_latches (R := Effect fun _ _ => True) id now event m).coherent hm
    obtain ⟨hrest, -⟩ := ih _ hm' _ hone
    rw [Set.insert_idem] at hrest
    refine ⟨hrest, fun hfalse => ?_⟩
    have hboth : (m.semanticEvent id now event).2 = false ∧
        (AlertManager.semanticEvents id now events (m.semanticEvent id now event).1).2 = false :=
      Bool.or_eq_false_iff.1 hfalse
    exact (ih _ hm' _ (hquiet hboth.1)).2 hboth.2

theorem Current.applyTerminalSemanticEvents (h : Current mark stale m) (hm : m.Coherent) (id : Id)
    (events : List TerminalSemanticEvent) (now : Ms) :
    Current mark stale (m.applyTerminalSemanticEvents id events now) := by
  have hm' := (reportedEntry_latches (R := Effect fun _ _ => True) id m).coherent hm
  obtain ⟨hevents, hquiet⟩ :=
    Current.semanticEvents id now events (m.reportedEntry id) hm' stale (h.reportedEntry id)
  rw [AlertManager.applyTerminalSemanticEvents]
  split
  · exact h
  split
  · rename_i heq
    rw [heq] at hevents
    exact hevents.notify
  · rename_i heq
    rw [heq] at hquiet
    exact hquiet rfl

/-! ### PTY events and protocol reports -/

theorem Current.onData (h : Current mark stale m) (id : Id) (now : Ms) :
    Current mark stale (m.onData id now) := by
  rw [AlertManager.onData]
  split
  · exact h
  · split
    · exact h
    · refine Current.clearGrace ?_ id _
      refine ((h.streamEntry id).modifyDetector id (.onData now)).invisible fun e _ => ?_
      split <;> rfl

theorem Current.onExit (h : Current mark stale m) (hm : m.Coherent) (id : Id)
    (exitCode : Option Int) (now : Ms) : Current mark stale (m.onExit id exitCode now) := by
  have hfinish := h.finishCommandExitWatch id exitCode now
  have hidle := h.finishCommandExitWatch_idle hm id exitCode now
  rw [AlertManager.onExit]
  split
  · exact h
  refine Current.settleWaiters ?_ id .died now
  split
  · rename_i heq
    rw [heq] at hfinish
    exact hfinish.notify
  · rename_i heq
    rw [heq] at hidle
    exact hidle rfl

theorem Current.onResize (h : Current mark stale m) (id : Id) (now : Ms) :
    Current mark stale (m.onResize id now) := by
  rw [AlertManager.onResize]
  split
  · exact h
  · split
    · exact h
    · exact (h.streamEntry id).modifyDetector id _

theorem Current.notifyFromProtocol (h : Current mark stale m) (id : Id)
    (notification : ActivityNotification) (now : Ms) :
    Current mark stale (m.notifyFromProtocol id notification now) := by
  rw [AlertManager.notifyFromProtocol]
  split
  · exact h
  · split
    · exact h.reportedEntry id
    · exact (h.reportedEntry id).dispatchCompletion ..

theorem Current.finishProtocolProgressCycle (h : Current mark stale m) {id : Id}
    (hentry : m.entries.has id = true) (title : JsString) (percent : Option ℚ) (now : Ms) :
    Current mark stale (m.finishProtocolProgressCycle id title percent now) := by
  rw [AlertManager.finishProtocolProgressCycle]
  have hcleared := h.modifyEntry id fun e =>
    { e with
      progress := none
      protocolStatus := if e.protocolStatus = .OSC_NOTIF_BUSY then .IDLE else e.protocolStatus }
  have hkept := (has_modifyEntry id id (fun e =>
    { e with
      progress := none
      protocolStatus := if e.protocolStatus = .OSC_NOTIF_BUSY then .IDLE else e.protocolStatus })
    m).trans hentry
  have hclaimed := hcleared.dispatchCompletion id
    (.notification (progressNotification title percent)) now
  have hrung := hcleared.dispatchNotification hkept (progressNotification title percent) now
  split
  · rename_i heq
    rw [heq] at hclaimed
    exact hclaimed.notify
  · rename_i heq
    rw [heq] at hrung
    exact hrung rfl

theorem Current.activeProgress (h : Current mark stale m) (id : Id)
    (progress : ActiveProtocolProgress) : Current mark stale (m.activeProgress id progress) := by
  rw [AlertManager.activeProgress]
  split
  · exact h
  · exact (h.modifyEntry id _).notify

theorem Current.updateProtocolProgress (h : Current mark stale m) (id : Id)
    (progress : ProtocolProgressUpdate) (now : Ms) :
    Current mark stale (m.updateProtocolProgress id progress now) := by
  have hreported := h.reportedEntry id
  have hentry : (m.reportedEntry id).entries.has id = true := by
    rw [AlertManager.reportedEntry, has_getOrCreateEntry, decide_eq_true rfl, Bool.true_or]
  have hfinish := fun title percent => hreported.finishProtocolProgressCycle hentry title percent now
  rw [AlertManager.updateProtocolProgress]
  split
  · exact h
  dsimp only
  split
  · split
    · exact hreported
    · exact hfinish _ _
  · exact hfinish _ _
  · split
    · exact hfinish _ _
    · exact hreported.activeProgress id _
  · exact hreported.activeProgress id _
  · exact hreported.activeProgress id _

/-! ### Attention -/

theorem Current.armAndNotify (h : Current mark stale m) (id : Id) :
    Current mark stale (m.armAndNotify id) := by
  rw [AlertManager.armAndNotify, armCommandExitOnAttentionLoss]
  by_cases hcan : (m.entries.get id).any canArm = true
  · simp only [if_pos hcan]
    exact (h.modifyEntry id _).notify
  · simp only [if_neg hcan]
    exact h

theorem Current.setAttention (h : Current mark stale m) (id : Id) (now : Ms) :
    Current mark stale (m.setAttention id now) := by
  rw [AlertManager.setAttention]
  cases m.attentionId with
  | none => exact h.other rfl rfl rfl rfl rfl
  | some previous =>
    dsimp only
    split
    · exact (h.armAndNotify previous).other rfl rfl rfl rfl rfl
    · exact h.other rfl rfl rfl rfl rfl

theorem Current.attentionExpires (h : Current mark stale m) :
    Current mark stale m.attentionExpires := by
  have hlose : Current mark stale { m with attentionId := none } := h.other rfl rfl rfl rfl rfl
  rw [AlertManager.attentionExpires]
  split
  · exact h
  · rename_i id _ _
    split
    · exact (hlose.armAndNotify id).other rfl rfl rfl rfl rfl
    · exact h.other rfl rfl rfl rfl rfl

theorem Current.clearAttention (h : Current mark stale m) (id : Option Id) :
    Current mark stale (m.clearAttention id) := by
  have hlose : Current mark stale { m with attentionId := none, attentionTimer := none } :=
    h.other rfl rfl rfl rfl rfl
  rw [AlertManager.clearAttention]
  split
  · exact h
  dsimp only
  split
  · exact hlose
  · rename_i lost _
    split
    · exact hlose.armAndNotify lost
    · exact hlose

theorem Current.setInactivityTimeoutMs (h : Current mark stale m) (ms : Option Ms) (now : Ms) :
    Current mark stale (m.setInactivityTimeoutMs ms now) := by
  rcases ms with _ | ms
  · exact h
  rw [AlertManager.setInactivityTimeoutMs]
  split
  · exact h
  have hset : Current mark stale { m with inactivityTimeoutMs := ms } :=
    h.other rfl rfl rfl rfl rfl
  dsimp only
  split
  · exact hset.setAttention _ now
  · exact hset

theorem Current.setDeferAlertsUntilQuiet (h : Current mark stale m) (enabled : Bool) :
    Current mark stale (m.setDeferAlertsUntilQuiet enabled) := by
  rw [AlertManager.setDeferAlertsUntilQuiet]
  split
  · exact h
  have hset : Current mark stale { m with deferAlertsUntilQuiet := enabled } :=
    h.other rfl rfl rfl rfl rfl
  split
  · exact hset
  · exact Current.foldl (fun _ id h => h.flushDeferredNotification id) _ _ hset

/-! ### Releasing rings -/

theorem Current.releaseRing {id : Id} (h : Current mark (insert id stale) m) (track : Track) :
    Current mark (insert id stale) (m.releaseRing id track).1 := by
  rw [AlertManager.releaseRing]
  split
  · exact h
  cases track with
  | protocol =>
    dsimp only
    split
    · exact h
    · exact h.modifyEntry_stale _
  | commandExit =>
    dsimp only
    split
    · exact h
    · exact h.modifyEntry_stale _
  | watching =>
    dsimp only
    split
    · exact h
    · exact (h.modifyEntry_stale _).modifyDetector id .reset

theorem Current.clearAllRingsIfActive {id : Id} (h : Current mark (insert id stale) m) :
    Current mark (insert id stale) (m.clearAllRingsIfActive id).1 :=
  (((h.clearDeferred id).releaseRing .protocol).releaseRing .commandExit).releaseRing .watching

theorem releaseRing_none {id : Id} {track : Track} (h : (m.releaseRing id track).2 = false) :
    (m.releaseRing id track).1 = m := by
  rw [AlertManager.releaseRing] at h ⊢
  split at h
  · rfl
  rename_i e he
  cases track with
  | protocol =>
    dsimp only at h ⊢
    split at h
    · rename_i hring
      rw [if_pos hring]
    · cases h
  | commandExit =>
    dsimp only at h ⊢
    split at h
    · rename_i hring
      rw [if_pos hring]
    · cases h
  | watching =>
    dsimp only at h ⊢
    split at h
    · rename_i hring
      rw [if_pos hring]
    · cases h

/-- Where no ring is released only a deferral goes. -/
theorem clearAllRingsIfActive_none {id : Id} (h : (m.clearAllRingsIfActive id).2 = false) :
    (m.clearAllRingsIfActive id).1 = m.modifyEntry id clearDeferredNotification := by
  rw [AlertManager.clearAllRingsIfActive] at h ⊢
  simp only [Bool.or_eq_false_iff] at h
  obtain ⟨⟨h₁, h₂⟩, h₃⟩ := h
  have hprotocol := releaseRing_none h₁
  rw [hprotocol] at h₂ h₃ ⊢
  have hexit := releaseRing_none h₂
  rw [hexit] at h₃ ⊢
  exact releaseRing_none h₃

theorem Current.attend (h : Current mark stale m) (id : Id) (now : Ms) :
    Current mark stale (m.attend id now) := by
  rw [AlertManager.attend]
  split
  · exact h
  have hattended := ((h.getOrCreateEntry id).setAttention id now).mono (Set.subset_insert id stale)
  refine Current.notify (Current.modifyEntry_stale ?_ _)
  split
  · exact hattended.clearAllRingsIfActive.modifyEntry_stale _
  · exact hattended.clearAllRingsIfActive

theorem Current.dismissAlert (h : Current mark stale m) (id : Id) :
    Current mark stale (m.dismissAlert id) := by
  rw [AlertManager.dismissAlert]
  split
  · exact h
  rename_i e he
  dsimp only
  split
  · have hstale := h.mono (Set.subset_insert id stale)
    exact (hstale.clearAllRingsIfActive.modifyEntry_stale _).notify
  rename_i hnothing
  rw [Bool.not_eq_true, Bool.or_eq_false_iff] at hnothing
  obtain ⟨hnone, hflag⟩ := hnothing
  rw [hnone, clearAllRingsIfActive_none hnone]
  refine (h.clearDeferred id).invisible fun e' he' => ?_
  rw [(modifyEntry_edits ..).get_self, he] at he'
  obtain rfl := Option.some.inj he'
  have hsame : { e.clearDeferredNotification with
      todo := false || e.todo
      attentionDismissedRing := false } = e.clearDeferredNotification := by
    rw [Bool.false_or, ← hflag]
    rfl
  exact congrArg _ hsame

theorem Current.toggleTodo (h : Current mark stale m) (id : Id) :
    Current mark stale (m.toggleTodo id) := by
  rw [AlertManager.toggleTodo]
  split
  · exact h
  · exact ((h.getOrCreateEntry id).modifyEntry id _).clearAllRingsIfActive.notify

theorem Current.markTodo (h : Current mark stale m) (id : Id) :
    Current mark stale (m.markTodo id) := by
  rw [AlertManager.markTodo]
  split
  · exact h
  dsimp only
  have hcreated := h.getOrCreateEntry id
  split
  · rename_i hmarked
    rw [Bool.and_eq_true, Bool.not_eq_true'] at hmarked
    rw [clearAllRingsIfActive_none hmarked.2]
    exact hcreated.clearDeferred id
  · have hstale := hcreated.mono (Set.subset_insert id stale)
    exact (hstale.clearAllRingsIfActive.modifyEntry_stale _).notify

theorem Current.clearTodo (h : Current mark stale m) (id : Id) :
    Current mark stale (m.clearTodo id) := by
  rw [AlertManager.clearTodo]
  split
  · exact h
  · exact ((h.getOrCreateEntry id).modifyEntry id _).clearAllRingsIfActive.notify

/-! ### WATCHING rules -/

theorem Current.applyWatchedCommands {id : Id} (h : Current mark (insert id stale) m) :
    Current mark stale (m.applyWatchedCommands id) :=
  (h.modifyEntry_stale _).notify

/-- A new rule set makes every entry stale; the walk over the entries takes them off. -/
theorem Current.replaceWatchedCommands (h : Current mark ∅ m) (next : Finset JsString) :
    Current mark ∅ (m.replaceWatchedCommands next) := by
  have hfold : ∀ (ids : List Id) (m : AlertManager), Current mark {id | id ∈ ids} m →
      Current mark ∅ (ids.foldl (fun m id => m.applyWatchedCommands id) m) := by
    intro ids
    induction ids with
    | nil => exact fun m h => h.mono fun id hid => absurd hid List.not_mem_nil
    | cons id ids ih =>
      intro m h
      refine ih _ (Current.applyWatchedCommands (h.mono fun id' hid' => ?_))
      exact List.mem_cons.1 hid'
  rw [AlertManager.replaceWatchedCommands]
  split
  · exact h
  · refine hfold _ _ (h.of_same rfl rfl h.entry fun id hid => ⟨Set.notMem_empty id, ?_⟩)
    have hnone : m.entries.get id = none := InsertionMap.get_eq_none.2 hid
    rw [getState, getState]
    simp only [hnone]

theorem Current.setCommandWatched (h : Current mark ∅ m) (name : JsString) (watched : Bool) :
    Current mark ∅ (m.setCommandWatched name watched) := by
  rw [AlertManager.setCommandWatched]
  split
  · exact h
  · exact h.replaceWatchedCommands _

/-! ### Arriving and leaving -/

theorem Current.consumeAwaitableRing {id : Id} (h : Current mark (insert id stale) m)
    (awaitUntil : AwaitUntil) :
    Current mark (insert id stale) (m.consumeAwaitableRing id awaitUntil).1 := by
  rw [AlertManager.consumeAwaitableRing]
  split
  · exact h
  split
  · exact h.releaseRing .protocol
  · split
    · exact h.releaseRing .commandExit
    · split
      · exact h.releaseRing .watching
      · exact h

theorem Current.awaitCompletion (h : Current mark stale m) (id : Id) (awaitUntil : AwaitUntil)
    (timeoutMs : Option Ms) (now : Ms) :
    Current mark stale (m.awaitCompletion id awaitUntil timeoutMs now) := by
  have hissued : Current mark stale { m with nextHandle := m.nextHandle + 1 } :=
    h.other rfl rfl rfl rfl rfl
  have hcreated := hissued.getOrCreateEntry id
  have hconsumed := (hcreated.mono (Set.subset_insert id stale)).consumeAwaitableRing awaitUntil
  have hentry : ({ m with nextHandle := m.nextHandle + 1 }.getOrCreateEntry id).entries.has id =
      true := by
    rw [has_getOrCreateEntry, decide_eq_true rfl, Bool.true_or]
  have hkept := (consumeAwaitableRing_releases (R := Writes) id awaitUntil
    ({ m with nextHandle := m.nextHandle + 1 }.getOrCreateEntry id)).has hentry
  have hawaiting := awaitCompletion_awaiting id awaitUntil timeoutMs now m
  generalize m.awaitCompletion id awaitUntil timeoutMs now = m' at hawaiting ⊢
  cases hawaiting with
  | refused outcome => exact hissued.other rfl rfl rfl rfl rfl
  | resolved m₂ cause hring =>
    rw [hring] at hconsumed
    exact hconsumed.notify.other rfl rfl rfl rfl rfl
  | parked m₂ waiter hring hhandle =>
    rw [hring] at hconsumed hkept
    obtain ⟨hawaits, hentries, -, -, hlast, hemitted⟩ := addWaiter_spec id waiter m₂
    have hwatched := (addWaiter_quiet id waiter m₂).watchedCommands
    refine Current.notify (hconsumed.of_same hemitted hlast ?_ fun id' hid' => ⟨hid', ?_⟩)
    · intro id' waiters hgroup
      rw [hawaits] at hgroup
      rw [hentries]
      split at hgroup
      · rename_i hid
        exact hid ▸ hkept
      · exact hconsumed.entry id' waiters hgroup
    · have hid : id ≠ id' := fun heq => hid' (Or.inl heq.symm)
      exact getState_congr (by rw [hentries]) (by rw [hawaits, if_neg hid]) hwatched

theorem Current.seed (h : Current mark stale m) (id : Id) (todo : Bool)
    (notification : UnknownNotification) : Current mark stale (m.seed id todo notification) := by
  rw [AlertManager.seed]
  split
  · exact h
  · exact (((h.getOrCreateEntry id).modifyEntry id _).modifyDetector id .reset).notify

theorem Current.remove (h : Current mark stale m) (kept : AwaitsKept none m) (id : Id) (now : Ms) :
    Current mark stale (m.remove id now) := by
  have hmarked : Current mark stale
      { m with helpers := m.helpers.erase id, removed := insert id m.removed } :=
    h.other rfl rfl rfl rfl rfl
  have hkept : AwaitsKept none
      { m with helpers := m.helpers.erase id, removed := insert id m.removed } :=
    kept.other ⟨rfl, rfl, rfl, rfl, rfl, rfl⟩
  have hsettled := hmarked.settleWaiters id .died now
  have hnone := (hkept.writes (settleWaiters_publishes id .died now _)).no_group
    (parkedOn_settleWaiters id .died now _).2
  rw [AlertManager.remove]
  generalize AlertManager.settleWaiters id .died now _ = m₁ at *
  split
  · refine Current.notify ?_
    have hdeleted : ∀ m₂ : AlertManager, m₂.entries = m₁.entries.delete id →
        m₂.awaits = m₁.awaits → m₂.watchedCommands = m₁.watchedCommands →
        m₂.lastEmitted = m₁.lastEmitted → m₂.emitted = m₁.emitted →
        Current mark (insert id stale) m₂ := by
      intro m₂ hentries hawaits hwatched hlast hemitted
      refine hsettled.of_same hemitted hlast ?_ fun id' hid' => ⟨fun hmem => hid' (Or.inr hmem), ?_⟩
      · intro id' waiters hgroup
        rw [hawaits] at hgroup
        have hid : id ≠ id' := by
          rintro rfl
          rw [hnone] at hgroup
          cases hgroup
        rw [hentries, InsertionMap.has, InsertionMap.get_delete_ne _ hid]
        exact hsettled.entry id' waiters hgroup
      · have hid : id ≠ id' := fun heq => hid' (Or.inl heq.symm)
        exact getState_congr (by rw [hentries, InsertionMap.get_delete_ne _ hid])
          (by rw [hawaits]) hwatched
    split
    · exact hdeleted _ rfl rfl rfl rfl rfl
    · exact hdeleted _ rfl rfl rfl rfl rfl
  · exact hsettled.other rfl rfl rfl rfl rfl

/-! ### Every operation -/

/-- **Every operation but the last leaves subscribers current.** -/
theorem Current.perform (h : Current mark ∅ m) (hm : m.Coherent) (kept : AwaitsKept none m)
    (now : Ms) {op : Operation} (hop : op ≠ .dispose) : Current mark ∅ (m.perform now op) := by
  cases op with
  | applySettings timeoutMs deferUntilQuiet =>
    exact (h.setInactivityTimeoutMs timeoutMs now).setDeferAlertsUntilQuiet deferUntilQuiet
  | setHelper id helper => exact h.other rfl rfl rfl rfl rfl
  | onData id => exact h.onData id now
  | onExit id exitCode => exact h.onExit hm id exitCode now
  | onResize id => exact h.onResize id now
  | setWatchedCommands names => exact h.replaceWatchedCommands names.toFinset
  | setCommandWatched name watched => exact h.setCommandWatched name watched
  | registerCompletionClaimant id key answer => exact registerClaimant_rests (R := StaysCurrent mark ∅) id (some key) _ m h
  | unregisterClaimant id key => exact unregisterClaimant_rests (R := StaysCurrent mark ∅) id (some key) m h
  | awaitCompletion id awaitUntil timeoutMs => exact h.awaitCompletion id awaitUntil timeoutMs now
  | cancelAwait id handle =>
    exact cancelAwait_publishes (R := StaysCurrent mark ∅) id handle now m h
  | notifyFromProtocol id notification => exact h.notifyFromProtocol id notification now
  | updateProtocolProgress id progress => exact h.updateProtocolProgress id progress now
  | applyTerminalSemanticEvents id events => exact h.applyTerminalSemanticEvents hm id events now
  | attend id => exact h.attend id now
  | clearAttention id => exact h.clearAttention id
  | dismissAlert id => exact h.dismissAlert id
  | toggleTodo id => exact h.toggleTodo id
  | markTodo id => exact h.markTodo id
  | clearTodo id => exact h.clearTodo id
  | remove id => exact h.remove kept id now
  | seed id todo notification => exact h.seed id todo notification
  | dispose => exact absurd rfl hop
  | attentionExpires => exact h.attentionExpires
  | graceExpires id handle =>
    exact graceExpires_publishes (R := StaysCurrent mark ∅) id handle now m h
  | awaitTimesOut id handle =>
    exact awaitTimesOut_publishes (R := StaysCurrent mark ∅) id handle now m h
  | deferredNotificationDue id =>
    show Current mark ∅ (m.deferredNotificationDue id now)
    rw [deferredNotificationDue]
    split
    · exact h
    split
    · exact h
    split
    · exact h.invisible fun _ _ => rfl
    · have htimer : Current mark ∅
          (m.modifyEntry id fun e => { e with deferredNotificationTimer := none }) :=
        h.invisible fun _ _ => rfl
      exact htimer.flushDeferredNotification id
  | detectorTimer id timer =>
    show Current mark ∅ (m.detectorTimer id timer now)
    rw [detectorTimer]
    split
    · exact h
    split
    · exact h
    cases timer with
    | busyCandidate => exact h.modifyDetector id _
    | busyConfirm => exact h.modifyDetector id _
    | mightNeedAttention => exact h.modifyDetector id _
    | resize => exact h.modifyDetector id _
    | settledConfirm =>
      dsimp only
      split
      · exact ((h.modifyDetector id _).onSettled id now).modifyDetector id _
      · exact h.modifyDetector id _

/-- `dispose` lets the subscribers go, and the entries. -/
theorem Current.dispose (now : Ms) (m : AlertManager) :
    Current (m.dispose now).emitted.length ∅ (m.dispose now) := by
  refine ⟨Nat.le_refl _, fun id state hid => ?_, fun id _ => ?_, fun id waiters hgroup => ?_⟩
  · rw [AlertManager.dispose] at hid
    cases hid
  · rw [heardState, lastReportSince, List.drop_length]
    rfl
  · rw [AlertManager.dispose] at hgroup
    cases hgroup

/-! ### Every run -/

/-- A manager, and how many of its reports came before its present subscribers. -/
def subscribedPerform (s : AlertManager × Nat) (now : Ms) (op : Operation) : AlertManager × Nat :=
  let next := s.1.perform now op
  match op with
  | .dispose => (next, next.emitted.length)
  | _ => (next, s.2)

/-- The runs of one manager with its subscribers, whom `dispose` lets go. -/
def subscribedAlerts : System (AlertManager × Nat) (Ms × Operation) where
  init s := s = (.fresh, 0)
  step s label t := t = subscribedPerform s label.1 label.2

theorem subscribedPerform_of_ne (s : AlertManager × Nat) (now : Ms) {op : Operation}
    (h : op ≠ .dispose) : subscribedPerform s now op = (s.1.perform now op, s.2) := by
  cases op with
  | dispose => exact absurd rfl h
  | _ => rfl

/-- **Subscribers are never stale**: in every run what they were last told of an id is its
state, the default one if they were told nothing. -/
theorem subscribers_current (s : AlertManager × Nat) (h : subscribedAlerts.Reachable s) (id : Id) :
    s.1.heardState s.2 id = s.1.getState id := by
  have hinductive : subscribedAlerts.Inductive fun s =>
      alerts.Reachable s.1 ∧ Current s.2 ∅ s.1 := by
    refine ⟨?_, ?_⟩
    · intro s hs
      rw [show s = _ from hs]
      refine ⟨.start rfl, Nat.le_refl _, fun _ _ hid => ?_, fun _ _ => rfl, fun _ _ hgroup => ?_⟩
      · cases hid
      · cases hgroup
    · intro s t label hs hstep
      rw [show t = _ from hstep]
      have hreach : alerts.Reachable (s.1.perform label.1 label.2) := hs.1.next (a := label) rfl
      by_cases hop : label.2 = .dispose
      · rw [hop] at hreach ⊢
        exact ⟨hreach, Current.dispose label.1 s.1⟩
      · rw [subscribedPerform_of_ne s label.1 hop]
        exact ⟨hreach, hs.2.perform (entries_coherent _ hs.1) (awaits_inductive.reachable hs.1)
          label.1 hop⟩
  exact (hinductive.reachable h).2.heard id (Set.notMem_empty id)

/-- Perform a list of timed operations on a new manager with subscribers. -/
def subscribedAll (ops : List (Ms × Operation)) : AlertManager × Nat :=
  ops.foldl (fun s op => subscribedPerform s op.1 op.2) (.fresh, 0)

theorem reachable_subscribedAll (ops : List (Ms × Operation)) :
    subscribedAlerts.Reachable (subscribedAll ops) := by
  have hfold : ∀ s, subscribedAlerts.Reachable s →
      subscribedAlerts.Reachable (ops.foldl (fun s op => subscribedPerform s op.1 op.2) s) := by
    induction ops with
    | nil => exact fun _ hs => hs
    | cons op ops ih => exact fun s hs => ih _ (hs.next (a := op) rfl)
  exact hfold _ (.start rfl)

/-- A watched command starts, and its rule is dropped. -/
def ruleDropped : AlertManager × Nat :=
  subscribedAll [(0, .setWatchedCommands [js "make"]),
    (1, .applyTerminalSemanticEvents (js "a") [.commandLine (js "make"), .commandStart none none]),
    (2, .setWatchedCommands [])]

theorem subscribers_current_ruleDropped :
    ruleDropped.1.emitted.length = 2 ∧
      ruleDropped.1.heardState ruleDropped.2 (js "a") = ruleDropped.1.getState (js "a") :=
  ⟨by decide +kernel, subscribers_current ruleDropped (reachable_subscribedAll _) (js "a")⟩

end AlertManager

end Dormouse.Alert
