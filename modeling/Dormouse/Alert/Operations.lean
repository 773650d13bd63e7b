import Dormouse.Alert.Chains

/-!
# Dormouse.Alert.Operations

**The effect of every operation** of the alert manager and of every timer that fires.
-/

namespace Dormouse.Alert

open Terminal

namespace AlertManager

open AlertEntry

variable {P : Id → Track → Prop}

instance : LatchEdits (Effect P) where
  refl := .refl
  trans := .trans
  rest h := Quiet.effect ⟨h.entries, h.attentionId, h.watchedCommands⟩
  notify id m := (notify_quiet id m).effect
  settle id handle outcome m := (settle_quiet id handle outcome m).effect
  clearGrace id p m := (clearGrace_quiet id p m).effect
  create := getOrCreateEntry_effect
  entry h := modifyEntry_effect fun e he =>
    ⟨(h e he).edit.coherent, fun track _ => (h e he).edit.latched track not_false⟩

/-! ### Progress -/

/-- **The one report that overwrites a ring**: progress that ends no cycle. -/
theorem activeProgress_effect (id : Id) (progress : ActiveProtocolProgress) (m : AlertManager)
    (hP : m.rings id .protocol = true → P id .protocol) :
    Effect P m (m.activeProgress id progress) := by
  rw [activeProgress]
  split
  · exact .refl m
  refine .trans ?_ (notify_quiet id _).effect
  refine modifyEntry_effect fun e he => ⟨fun h => ⟨fun hatt => ⟨?_, (h.quiet hatt).2⟩,
    h.armed, h.deferred, ?_, h.rule⟩, ?_⟩
  · intro track
    cases track with
    | protocol => rfl
    | commandExit => exact (h.quiet hatt).1 .commandExit
    | watching => exact (h.quiet hatt).1 .watching
  · exact iff_of_true rfl rfl
  · intro track hnot hring
    cases track with
    | commandExit => exact hring
    | watching => exact hring
    | protocol =>
      refine absurd (hP ?_) hnot
      rw [rings, he]
      exact hring

/-- Reports whose progress ends no cycle. -/
def nonTerminal (progress : ProtocolProgressUpdate) : Prop :=
  progress.state = .warning ∨ progress.state = .indeterminate ∨
    (progress.state = .normal ∧ progress.percent ≠ some 100)

theorem updateProtocolProgress_effect (id : Id) (progress : ProtocolProgressUpdate) (now : Ms)
    (m : AlertManager)
    (hP : id ∉ m.helpers → nonTerminal progress → m.rings id .protocol = true → P id .protocol) :
    Effect P m (m.updateProtocolProgress id progress now) := by
  have hsame : (m.reportedEntry id).rings id .protocol = true → m.rings id .protocol = true :=
    fun h => (rings_reportedEntry id m .protocol).symm.trans h
  rw [updateProtocolProgress]
  split
  · exact .refl m
  rename_i hhelper
  refine Effect.trans (reportedEntry_latches id m) ?_
  have hactive : nonTerminal progress → ∀ state, Effect P (m.reportedEntry id)
      ((m.reportedEntry id).activeProgress id ⟨state, progress.percent⟩) := fun hnt _ =>
    activeProgress_effect id _ _ fun hring => hP hhelper hnt (hsame hring)
  split
  · dsimp only
    split
    · exact .refl _
    · exact finishProtocolProgressCycle_latches ..
  · exact finishProtocolProgressCycle_latches ..
  · rename_i hstate
    split
    · exact finishProtocolProgressCycle_latches ..
    · rename_i hpercent
      exact hactive (.inr (.inr ⟨hstate, hpercent⟩)) _
  · rename_i hstate
    exact hactive (.inl hstate) _
  · rename_i hstate
    exact hactive (.inr (.inl hstate)) _

/-! ### Attention -/

theorem rings_setAttention (id : Id) (now : Ms) (m : AlertManager) (id' : Id) (track : Track)
    (h : m.rings id' track = true) : (m.setAttention id now).rings id' track = true := by
  rw [setAttention]
  cases m.attentionId with
  | none => exact h
  | some previous =>
    by_cases hother : previous ≠ [] ∧ previous ≠ id
    · simp only [if_pos hother]
      exact (armAndNotify_edits previous m).latched (P := fun _ _ => False)
        (fun e _ => (armed_edit m.watchedCommands rfl e).latched) id' track not_false h
    · simp only [if_neg hother]
      exact h

/-- Attention moves to `id`. Until `id` is made quiet, the entries are coherent as those
of Sessions nobody looks at. -/
theorem setAttention_spec (id : Id) (now : Ms) {m : AlertManager} (hm : m.Coherent) :
    (m.setAttention id now).attentionId = some id ∧
      (m.setAttention id now).CoherentAs (fun _ => false) ∧
      (m.attentionId = some id → (m.setAttention id now).Coherent) := by
  have hunattended : m.CoherentAs fun _ => false := fun id' e he => (hm id' e he).unattended
  have hsame : m.attentionId = some id → CoherentAs (fun id' => some id = some id') m := by
    intro h id' e he
    have := hm id' e he
    rwa [hasAttention, h] at this
  rw [setAttention]
  rcases hprevious : m.attentionId with _ | previous
  · exact ⟨rfl, hunattended, fun h => absurd h (by simp)⟩
  by_cases hother : previous ≠ [] ∧ previous ≠ id
  · simp only [if_pos hother]
    refine ⟨trivial, ?_, fun h => absurd (Option.some.inj h) hother.2⟩
    exact (armAndNotify_edits previous m).coherentAs hunattended fun e _ =>
      (armed_edit (P := fun _ => False) m.watchedCommands rfl e).coherent
  · simp only [if_neg hother]
    exact ⟨trivial, hunattended, fun h => hsame (hprevious.trans h)⟩

/-- Attention goes away, and with it what was attended may be armed. -/
theorem loseAttention_effect {m m₀ : AlertManager} (hentries : m₀.entries = m.entries)
    (hattention : m₀.attentionId = none) (hwatched : m₀.watchedCommands = m.watchedCommands) :
    Effect P m m₀ := by
  refine ⟨fun hm id e he => ?_, fun id track _ hring => ?_⟩
  · rw [hentries] at he
    rw [hasAttention, hattention, hwatched]
    exact (hm id e he).unattended
  · rw [rings, hentries]
    exact hring

theorem armAndNotify_effect (id : Id) (m : AlertManager) (hatt : m.attentionId = none) :
    Effect P m (m.armAndNotify id) := by
  refine (armAndNotify_edits id m).effect fun e _ => armed_edit _ ?_ e
  rw [hasAttention, hatt]
  rfl

theorem attentionExpires_effect (m : AlertManager) : Effect P m m.attentionExpires := by
  rw [attentionExpires]
  split
  · exact .refl m
  rename_i id _ _
  split
  · have hlose : Effect P m { m with attentionId := none } := loseAttention_effect rfl rfl rfl
    exact (hlose.trans (armAndNotify_effect id _ rfl)).trans (Quiet.effect ⟨rfl, rfl, rfl⟩)
  · exact Quiet.effect ⟨rfl, rfl, rfl⟩

theorem clearAttention_effect (id : Option Id) (m : AlertManager) :
    Effect P m (m.clearAttention id) := by
  have hlose : Effect P m { m with attentionId := none, attentionTimer := none } :=
    loseAttention_effect rfl rfl rfl
  rw [clearAttention]
  split
  · exact .refl m
  dsimp only
  split
  · exact hlose
  · rename_i lost _
    split
    · exact hlose.trans (armAndNotify_effect lost _ rfl)
    · exact hlose

theorem setInactivityTimeoutMs_effect (ms : Option Ms) (now : Ms) (m : AlertManager) :
    Effect P m (m.setInactivityTimeoutMs ms now) := by
  rcases ms with _ | ms
  · exact .refl m
  rw [setInactivityTimeoutMs]
  split
  · exact .refl m
  have hset : Quiet m { m with inactivityTimeoutMs := ms } := ⟨rfl, rfl, rfl⟩
  dsimp only
  split
  · rename_i id _ hid
    refine hset.effect.trans ⟨fun hm => ?_, fun id' track _ => ?_⟩
    · exact (setAttention_spec id now hm).2.2 hid
    · exact rings_setAttention id now _ id' track
  · exact hset.effect

theorem attend_effect (id : Id) (now : Ms) (m : AlertManager) (hP : ∀ track, P id track) :
    Effect P m (m.attend id now) := by
  rw [attend]
  split
  · exact .refl m
  refine (getOrCreateEntry_effect id m).trans ?_
  generalize m.getOrCreateEntry id = m₁
  have hclear := clearAllRingsIfActive_edits id (m₁.setAttention id now)
  generalize hr : (m₁.setAttention id now).clearAllRingsIfActive id = r at *
  have hflags : Edits id
      (fun e => if r.2 then { e with attentionDismissedRing := true, todo := true } else e) r.1
      (if r.2 then
        r.1.modifyEntry id fun e => { e with attentionDismissedRing := true, todo := true }
      else r.1) := by
    split
    · exact modifyEntry_edits ..
    · exact Edits.refl ..
  have hall : Edits id (AlertEntry.attendedTo r.2 now) (m₁.setAttention id now) _ :=
    ((hclear.trans hflags).trans (modifyEntry_edits id (markCommandExitSeen now) _)).quiet
      (notify_quiet id _)
  refine ⟨fun hm => ?_, fun id' track hnot hring => ?_⟩
  · obtain ⟨hatt, hcoherent, -⟩ := setAttention_spec id now hm
    intro id' e he
    rw [hall.get] at he
    rw [hall.watchedCommands]
    split at he
    · obtain ⟨e₀, he₀, rfl⟩ := Option.map_eq_some_iff.1 he
      rename_i hid
      subst hid
      exact attendedTo_coherent r.2 now (hcoherent id e₀ he₀) _
    rename_i hid
    rw [hasAttention, hall.attentionId, hatt]
    have hother : decide (some id = some id') = false := decide_eq_false fun h =>
      hid (Option.some.inj h)
    rw [hother]
    exact hcoherent id' e he
  · exact hall.latched (fun e _ track hnot _ => absurd (hP track) hnot) id' track hnot
      (rings_setAttention id now m₁ id' track hring)

/-! ### Alert and TODO controls -/

/-- Flags, TODO and detail are invisible to the tracks. -/
theorem modifyFlags_effect (id : Id) (m : AlertManager) (todo dismissed : AlertEntry → Bool)
    (notification : AlertEntry → Option ActivityNotification) :
    Effect P m (m.modifyEntry id fun e =>
      { e with todo := todo e, attentionDismissedRing := dismissed e, notification := notification e }) :=
  modifyEntry_effect fun _ _ => .of_eq rfl rfl rfl rfl rfl rfl rfl

theorem dismissAlert_effect (id : Id) (m : AlertManager) (hP : ∀ track, P id track) :
    Effect P m (m.dismissAlert id) := by
  rw [dismissAlert]
  split
  · exact .refl m
  dsimp only
  have hedit := (clearAllRingsIfActive_effect id m hP).trans
    (modifyFlags_effect id (m.clearAllRingsIfActive id).1
      (fun e => (m.clearAllRingsIfActive id).2 || e.todo) (fun _ => false) (·.notification))
  split
  · exact hedit.trans (notify_quiet id _).effect
  · exact hedit

theorem toggleTodo_effect (id : Id) (m : AlertManager) (hP : ∀ track, P id track) :
    Effect P m (m.toggleTodo id) := by
  rw [toggleTodo]
  split
  · exact .refl m
  · exact (getOrCreateEntry_effect id m).trans ((modifyFlags_effect id _ (fun e => !e.todo)
      (·.attentionDismissedRing) (fun e => if e.todo then none else e.notification)).trans
        ((clearAllRingsIfActive_effect id _ hP).trans (notify_quiet id _).effect))

theorem markTodo_effect (id : Id) (m : AlertManager) (hP : ∀ track, P id track) :
    Effect P m (m.markTodo id) := by
  have hclear := (getOrCreateEntry_effect id m).trans (clearAllRingsIfActive_effect id _ hP)
  rw [markTodo]
  split
  · exact .refl m
  · dsimp only
    split
    · exact hclear
    · exact hclear.trans ((modifyFlags_effect id _ (fun _ => true) (·.attentionDismissedRing)
        (·.notification)).trans (notify_quiet id _).effect)

theorem clearTodo_effect (id : Id) (m : AlertManager) (hP : ∀ track, P id track) :
    Effect P m (m.clearTodo id) := by
  rw [clearTodo]
  split
  · exact .refl m
  · exact (getOrCreateEntry_effect id m).trans ((modifyFlags_effect id _ (fun _ => false)
      (·.attentionDismissedRing) (fun _ => none)).trans
        ((clearAllRingsIfActive_effect id _ hP).trans (notify_quiet id _).effect))

/-! ### WATCHING rules -/

/-- The command that raised the WATCHING ring of an id. -/
def ringingCommand (m : AlertManager) (id : Id) : Option JsString :=
  (m.entries.get id).bind (·.watchingRingingCommand)

theorem applyWatchedCommands_edits (id : Id) (m : AlertManager) :
    Edits id (withRules m.watchedCommands) m (m.applyWatchedCommands id) :=
  (modifyEntry_edits ..).quiet (notify_quiet id _)

/-- Applying a rule set to every entry of `ids`. -/
theorem foldl_applyWatchedCommands (ids : List Id) : ∀ m : AlertManager,
    (∀ id, (ids.foldl (fun m id => m.applyWatchedCommands id) m).entries.get id =
      if id ∈ ids then (m.entries.get id).map (withRules m.watchedCommands) else m.entries.get id) ∧
    (ids.foldl (fun m id => m.applyWatchedCommands id) m).attentionId = m.attentionId ∧
    (ids.foldl (fun m id => m.applyWatchedCommands id) m).watchedCommands = m.watchedCommands := by
  induction ids with
  | nil => exact fun m => ⟨fun id => by simp, rfl, rfl⟩
  | cons first ids ih =>
    intro m
    have hfirst := applyWatchedCommands_edits first m
    obtain ⟨hget, hatt, hwatched⟩ := ih (m.applyWatchedCommands first)
    refine ⟨fun id => ?_, hatt.trans hfirst.attentionId, hwatched.trans hfirst.watchedCommands⟩
    rw [List.foldl_cons, hget, hfirst.get, hfirst.watchedCommands]
    by_cases hid : first = id
    · subst hid
      rw [if_pos rfl, if_pos List.mem_cons_self]
      split
      · rw [Option.map_map]
        congr 1
        funext e
        exact withRules_withRules _ e
      · rfl
    · have hmem : id ∈ first :: ids ↔ id ∈ ids := by
        rw [List.mem_cons]
        exact or_iff_right fun h => hid h.symm
      rw [if_neg hid]
      simp only [hmem]

theorem replaceWatchedCommands_effect (next : Finset JsString) (m : AlertManager)
    (hP : ∀ id command, m.ringingCommand id = some command → command ∉ next → P id .watching) :
    Effect P m (m.replaceWatchedCommands next) := by
  rw [replaceWatchedCommands]
  split
  · exact .refl m
  obtain ⟨hget, hatt, hwatched⟩ :=
    foldl_applyWatchedCommands m.entries.keys { m with watchedCommands := next }
  have hall : ∀ id, (m.entries.keys.foldl (fun (m : AlertManager) id => m.applyWatchedCommands id)
      { m with watchedCommands := next }).entries.get id =
        (m.entries.get id).map (withRules next) := by
    intro id
    rw [hget]
    split
    · rfl
    · rename_i hnot
      have hnone : m.entries.get id = none := InsertionMap.get_eq_none.2 hnot
      simp only [hnone, Option.map_none]
  generalize m.entries.keys.foldl _ _ = m' at *
  refine ⟨fun hm id e' he' => ?_, fun id track hnot hring => ?_⟩
  · rw [hall] at he'
    obtain ⟨e, he, rfl⟩ := Option.map_eq_some_iff.1 he'
    have hsame : m'.hasAttention id = m.hasAttention id := by
      rw [hasAttention, hasAttention, hatt]
    rw [hsame, hwatched]
    exact withRules_coherent next (hm id e he)
  · obtain ⟨e, he, hringing⟩ := (Option.any_eq_true _ _).1 hring
    rw [rings, hall, he]
    refine rings_withRules next hringing fun htrack command hcommand => ?_
    by_contra hgone
    refine hnot (htrack ▸ hP id command ?_ hgone)
    rw [ringingCommand, he]
    exact hcommand

theorem setCommandWatched_effect (name : JsString) (watched : Bool) (m : AlertManager)
    (hP : ∀ id, watched = false → m.ringingCommand id = some (JsString.trim name) → P id .watching)
    (hm : m.Coherent) : Effect P m (m.setCommandWatched name watched) := by
  rw [setCommandWatched]
  split
  · exact .refl m
  refine replaceWatchedCommands_effect _ m fun id command hcommand hgone => ?_
  obtain ⟨e, he, hring⟩ := Option.bind_eq_some_iff.1 hcommand
  have hmem := (hm id e he).rule command hring
  cases watched with
  | true => exact absurd (Finset.mem_insert_of_mem hmem) hgone
  | false =>
    refine hP id rfl ?_
    have hname : command = JsString.trim name := by
      by_contra hne
      exact hgone (Finset.mem_erase.2 ⟨hne, hmem⟩)
    rw [hcommand, hname]

/-! ### Settings -/

theorem applySettings_effect (ms : Option Ms) (enabled : Bool) (now : Ms) (m : AlertManager) :
    Effect P m (m.applySettings ms enabled now) :=
  (setInactivityTimeoutMs_effect ms now m).trans (setDeferAlertsUntilQuiet_latches enabled _)

/-! ### Await -/

/-- The cause an await reports when it consumes a track's ring. -/
def consumedCause : Track → AwaitCause
  | .protocol => .bell
  | .commandExit => .exit
  | .watching => .quiet

theorem consumeAwaitableRing_effect (id : Id) (awaitUntil : AwaitUntil) (m : AlertManager) :
    Effect (fun id' track => id' = id ∧
      (m.consumeAwaitableRing id awaitUntil).2 = some (consumedCause track)) m
      (m.consumeAwaitableRing id awaitUntil).1 := by
  rw [consumeAwaitableRing]
  split
  · exact .refl m
  split
  · exact releaseRing_effect id .protocol m ⟨rfl, rfl⟩
  · split
    · exact releaseRing_effect id .commandExit m ⟨rfl, rfl⟩
    · split
      · exact releaseRing_effect id .watching m ⟨rfl, rfl⟩
      · exact .refl m

theorem notify_outcomes (id : Id) (m : AlertManager) : (m.notify id).outcomes = m.outcomes := by
  rw [notify]
  split <;> rfl

theorem modifyEntry_outcomes (id : Id) (f : AlertEntry → AlertEntry) (m : AlertManager) :
    (m.modifyEntry id f).outcomes = m.outcomes := by
  rw [modifyEntry]
  split <;> rfl

theorem modifyDetector_outcomes (id : Id) (f : QuiesceDetector → QuiesceDetector)
    (m : AlertManager) : (m.modifyDetector id f).outcomes = m.outcomes := by
  rw [modifyDetector]
  split
  · rfl
  · dsimp only
    split
    · rw [notify_outcomes, modifyEntry_outcomes]
    · rw [modifyEntry_outcomes]

theorem releaseRing_outcomes (id : Id) (track : Track) (m : AlertManager) :
    (m.releaseRing id track).1.outcomes = m.outcomes := by
  rw [releaseRing]
  split
  · rfl
  cases track with
  | protocol =>
    dsimp only
    split
    · rfl
    · exact modifyEntry_outcomes ..
  | commandExit =>
    dsimp only
    split
    · rfl
    · exact modifyEntry_outcomes ..
  | watching =>
    dsimp only
    split
    · rfl
    · exact (modifyDetector_outcomes ..).trans (modifyEntry_outcomes ..)

theorem consumeAwaitableRing_outcomes (id : Id) (awaitUntil : AwaitUntil) (m : AlertManager) :
    (m.consumeAwaitableRing id awaitUntil).1.outcomes = m.outcomes := by
  rw [consumeAwaitableRing]
  split
  · rfl
  split
  · exact releaseRing_outcomes ..
  · split
    · exact releaseRing_outcomes ..
    · split
      · exact releaseRing_outcomes ..
      · rfl

theorem awaitCompletion_effect (id : Id) (awaitUntil : AwaitUntil) (timeoutMs : Option Ms)
    (now : Ms) (m : AlertManager) :
    Effect (fun id' track => id' = id ∧ (m.awaitCompletion id awaitUntil timeoutMs now).outcomes =
      m.outcomes ++ [(m.nextHandle, .resolved (consumedCause track) 0)]) m
      (m.awaitCompletion id awaitUntil timeoutMs now) := by
  have hstart : Quiet m { m with nextHandle := m.nextHandle + 1 } := ⟨rfl, rfl, rfl⟩
  have hreject : ∀ {Q : Id → Track → Prop} (outcome : AwaitOutcome), Effect Q m
      ({ m with nextHandle := m.nextHandle + 1 }.settledAwait m.nextHandle outcome) :=
    fun outcome => (hstart.trans (settledAwait_quiet _ outcome _)).effect
  rcases timeoutMs with _ | timeoutMs
  · rw [awaitCompletion]
    split <;> exact hreject _
  rw [awaitCompletion]
  split
  · exact hreject _
  split
  · exact hreject _
  split
  · exact hreject _
  generalize hm₁ : getOrCreateEntry id { m with nextHandle := m.nextHandle + 1 } = m₁
  have hentry : ∀ {Q : Id → Track → Prop}, Effect Q m m₁ := fun {Q} =>
    hstart.effect.trans (hm₁ ▸ getOrCreateEntry_effect id _)
  have houtcomes : m₁.outcomes = m.outcomes := by
    rw [← hm₁, getOrCreateEntry]
    split <;> rfl
  have hconsume := consumeAwaitableRing_effect id awaitUntil m₁
  have hkept := consumeAwaitableRing_outcomes id awaitUntil m₁
  rcases hres : m₁.consumeAwaitableRing id awaitUntil with ⟨m₂, _ | cause⟩
  · -- nothing to consume: the await parks and no ring is released
    rw [hres] at hconsume
    refine (hentry.trans (hconsume.mono fun id' track h => ?_)).trans
      ((addWaiter_quiet ..).trans (notify_quiet id _)).effect
    exact absurd h.2 (by simp)
  rw [hres] at hconsume hkept
  refine (hentry.trans (hconsume.mono fun id' track h => ⟨h.1, ?_⟩)).trans
    ((notify_quiet id m₂).trans (settledAwait_quiet _ _ _)).effect
  obtain rfl := Option.some.inj h.2
  show (m₂.notify id).outcomes ++ _ = _
  rw [notify_outcomes, hkept, houtcomes]

/-! ### Timers -/

/-- A due deferral is put off, or delivered. Between the two writes of a delivery the
timer is gone while the notification is still there, so they are one edit here. -/
theorem deferredNotificationDue_effect (id : Id) (now : Ms) (m : AlertManager) (hm : m.Coherent) :
    Effect P m (m.deferredNotificationDue id now) := by
  rw [deferredNotificationDue]
  split
  · exact .refl m
  rename_i e he
  split
  · exact .refl m
  rename_i harmed
  split
  · refine modifyEntry_effect fun e' he' => ?_
    obtain rfl := Option.some.inj (he.symm.trans he')
    refine .of_eq rfl rfl rfl rfl rfl rfl ?_
    exact (Option.isSome_iff_ne_none.2 harmed).symm
  have hsome : e.deferredNotification.isSome = true := by
    rw [(hm id e he).deferred]
    exact Option.isSome_iff_ne_none.2 harmed
  obtain ⟨notification, hnotification⟩ := Option.isSome_iff_exists.1 hsome
  have htimer := modifyEntry_edits id (fun e => { e with deferredNotificationTimer := none }) m
  have hclear : Edits id clearDeferredNotification m _ :=
    htimer.trans (modifyEntry_edits id clearDeferredNotification _)
  have hcleared : Effect P m _ := hclear.effect fun e _ => clearDeferredNotification_edit e
  have hdue : ((m.modifyEntry id fun e => { e with deferredNotificationTimer := none }
      ).entries.get id).bind (·.deferredNotification) = some notification := by
    rw [htimer.get_self, he]
    exact hnotification
  rw [flushDeferredNotification, hdue]
  dsimp only
  split
  · exact hcleared
  · rename_i hatt
    refine hcleared.trans (.trans (modifyEntry_effect fun e _ => ?_) (notify_quiet id _).effect)
    exact applyProtocolRinging_edit (Bool.eq_false_iff.2 hatt) notification e

/-! ### Session lifetime -/

theorem remove_effect (id : Id) (now : Ms) (m : AlertManager) (hP : ∀ track, P id track) :
    Effect P m (m.remove id now) := by
  rw [remove]
  generalize hm₁ : settleWaiters id .died now
    { m with helpers := m.helpers.erase id, removed := insert id m.removed } = m₁
  have hbefore : Quiet m m₁ := by
    have hsettled := settleWaiters_publishes (R := Quiet) id .died now
      { m with helpers := m.helpers.erase id, removed := insert id m.removed }
    rw [hm₁] at hsettled
    exact ⟨hsettled.entries, hsettled.attentionId, hsettled.watchedCommands⟩
  refine hbefore.effect.trans ?_
  split
  · refine .trans ?_ (notify_quiet id _).effect
    have hget : ∀ id' e, (m₁.entries.delete id).get id' = some e →
        m₁.entries.get id' = some e ∧ id ≠ id' := by
      intro id' e he
      obtain ⟨hid, he⟩ := InsertionMap.get_of_delete he
      exact ⟨he, hid⟩
    have hring : ∀ id' track, ¬P id' track → m₁.rings id' track = true →
        ((m₁.entries.delete id).get id').any (AlertEntry.rings · track) = true := by
      intro id' track hnot hring
      have hid : id ≠ id' := fun h => hnot (h ▸ hP track)
      rw [InsertionMap.get_delete_ne _ hid]
      exact hring
    split
    · rename_i hatt
      refine ⟨fun hm id' e he => ?_, hring⟩
      exact (hm id' e (hget id' e he).1).unattended
    · exact ⟨fun hm id' e he => hm id' e (hget id' e he).1, hring⟩
  · exact Quiet.effect ⟨rfl, rfl, rfl⟩

theorem seed_effect (id : Id) (todo : Bool) (notification : UnknownNotification)
    (m : AlertManager) (hP : ∀ track, P id track) : Effect P m (m.seed id todo notification) := by
  rw [seed]
  split
  · exact .refl m
  · refine (getOrCreateEntry_effect id m).trans
      (.trans ?_ (Effect.trans (modifyDetector_latches ..) (notify_quiet id _).effect))
    exact modifyEntry_effect fun e _ => ⟨fun _ => coherent_idle rfl rfl rfl rfl rfl rfl,
      fun track hnot _ => absurd (hP track) hnot⟩

theorem dispose_effect (now : Ms) (m : AlertManager) (hP : ∀ id track, P id track) :
    Effect P m (m.dispose now) :=
  ⟨fun _ _ _ he => absurd he (by simp [dispose]), fun id track hnot _ => absurd (hP id track) hnot⟩

end AlertManager

end Dormouse.Alert
