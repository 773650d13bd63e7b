import Dormouse.Alert.Model

/-!
# Dormouse.Alert.Entry

**One entry of the alert manager**: which tracks ring, what its fields owe each other
(`Coherent`), and for each edit the manager makes that it keeps an entry coherent and
releases no ring but the ones it is meant to (`Edit`).
-/

namespace Dormouse.Alert

open Terminal

namespace AlertEntry

/-! ### One entry -/

/-- Whether a track is ringing. -/
def rings (e : AlertEntry) : Track → Bool
  | .protocol => e.protocolStatus = .ALERT_RINGING
  | .commandExit => e.commandExitStatus = .ALERT_RINGING
  | .watching => e.watchingRingingCommand.isSome

/-- What the fields of an entry owe each other. -/
structure Coherent (attended : Bool) (watched : Finset JsString) (e : AlertEntry) : Prop where
  quiet : attended = true → (∀ track, e.rings track = false) ∧ e.deferredNotification = none
  armed : e.commandExitStatus = .COMMAND_EXIT_ARMED → attended = false ∧
    ∃ watch, e.commandExitWatch = some watch ∧ watch.seenWithAttentionAt.isSome
  deferred : e.deferredNotification.isSome = e.deferredNotificationTimer.isSome
  busy : e.protocolStatus = .OSC_NOTIF_BUSY ↔ e.progress.isSome
  rule : ∀ command, e.watchingRingingCommand = some command → command ∈ watched

/-- An entry with nothing going on is coherent whoever looks. -/
theorem coherent_idle {attended : Bool} {watched : Finset JsString} {e : AlertEntry}
    (hwatching : e.watchingRingingCommand = none) (hprotocol : e.protocolStatus = .IDLE)
    (hprogress : e.progress = none) (hexit : e.commandExitStatus = .IDLE)
    (hdeferred : e.deferredNotification = none) (htimer : e.deferredNotificationTimer = none) :
    e.Coherent attended watched where
  quiet _ := ⟨fun track => by cases track <;> simp [rings, hwatching, hprotocol, hexit], hdeferred⟩
  armed h := absurd (hexit.symm.trans h) (by decide)
  deferred := by rw [hdeferred, htimer]; rfl
  busy := by simp [hprotocol, hprogress]
  rule _ h := absurd (hwatching.symm.trans h) (by simp)

/-- Nobody looking asks less. -/
theorem Coherent.unattended {attended : Bool} {watched : Finset JsString} {e : AlertEntry}
    (h : e.Coherent attended watched) : e.Coherent false watched :=
  ⟨fun hatt => absurd hatt (by decide), fun harmed => ⟨rfl, (h.armed harmed).2⟩, h.deferred, h.busy,
    h.rule⟩

/-- Looking asks for a quiet, unarmed entry. -/
theorem Coherent.attend {watched : Finset JsString} {e : AlertEntry} (h : e.Coherent false watched)
    (hrings : ∀ track, e.rings track = false) (hdeferred : e.deferredNotification = none)
    (harmed : e.commandExitStatus ≠ .COMMAND_EXIT_ARMED) (attended : Bool) :
    e.Coherent attended watched :=
  ⟨fun _ => ⟨hrings, hdeferred⟩, fun habs => absurd habs harmed, h.deferred, h.busy, h.rule⟩

/-- An edit of an entry that keeps it coherent and releases only the tracks of `P`. -/
structure Edit (attended : Bool) (watched : Finset JsString) (P : Track → Prop)
    (e e' : AlertEntry) : Prop where
  coherent : e.Coherent attended watched → e'.Coherent attended watched
  latched : ∀ track, ¬P track → e.rings track = true → e'.rings track = true

variable {attended : Bool} {watched : Finset JsString} {P : Track → Prop}

theorem Edit.refl (e : AlertEntry) : Edit attended watched P e e :=
  ⟨id, fun _ _ => id⟩

theorem Edit.trans {a b c : AlertEntry} (hab : Edit attended watched P a b)
    (hbc : Edit attended watched P b c) : Edit attended watched P a c :=
  ⟨fun h => hbc.coherent (hab.coherent h), fun t hP h => hbc.latched t hP (hab.latched t hP h)⟩

/-- An edit that leaves alone what coherence and ringing are about. -/
theorem Edit.of_eq {e e' : AlertEntry} (hwatching : e'.watchingRingingCommand = e.watchingRingingCommand)
    (hprotocol : e'.protocolStatus = e.protocolStatus) (hprogress : e'.progress = e.progress)
    (hexit : e'.commandExitStatus = e.commandExitStatus)
    (hwatch : e'.commandExitWatch = e.commandExitWatch)
    (hdeferred : e'.deferredNotification = e.deferredNotification)
    (htimer : e'.deferredNotificationTimer.isSome = e.deferredNotificationTimer.isSome) :
    Edit attended watched P e e' := by
  have hrings : ∀ track, e'.rings track = e.rings track := by
    intro track
    cases track <;> simp only [rings, hwatching, hprotocol, hexit]
  refine ⟨fun h => ⟨?_, ?_, ?_, ?_, ?_⟩, fun track _ h => (hrings track).trans h⟩
  · intro hatt
    rw [hdeferred]
    exact ⟨fun track => (hrings track).trans ((h.quiet hatt).1 track), (h.quiet hatt).2⟩
  · rw [hexit, hwatch]
    exact h.armed
  · rw [hdeferred, htimer]
    exact h.deferred
  · rw [hprotocol, hprogress]
    exact h.busy
  · rw [hwatching]
    exact h.rule

theorem clearDeferredNotification_edit (e : AlertEntry) :
    Edit attended watched P e e.clearDeferredNotification where
  coherent h := ⟨fun hatt => ⟨(h.quiet hatt).1, rfl⟩, h.armed, rfl, h.busy, h.rule⟩
  latched := by
    intro track _ h
    cases track <;> exact h

/-- Counting a latch is invisible. -/
theorem latchRing_edit (wasRinging : Bool) (e : AlertEntry) :
    Edit attended watched P e (e.latchRing wasRinging) := by
  rw [latchRing]
  split
  · exact .refl e
  · exact .of_eq rfl rfl rfl rfl rfl rfl rfl

theorem applyProtocolRinging_edit (hatt : attended = false) (notification : ActivityNotification)
    (e : AlertEntry) : Edit attended watched P e (e.applyProtocolRinging notification) := by
  refine (latchRing_edit (e.protocolStatus = .ALERT_RINGING) e).trans ?_
  rw [applyProtocolRinging]
  generalize e.latchRing _ = f
  refine ⟨fun h => ⟨fun hatt' => ?_, h.armed, h.deferred, by simp, h.rule⟩, ?_⟩
  · exact absurd (hatt.symm.trans hatt') (by decide)
  · intro track _ h
    cases track <;> first | exact h | simp [rings]

theorem applyCommandExitRinging_edit (hatt : attended = false) (displayCommand : JsString)
    (exitCode : Option Int) (e : AlertEntry) :
    Edit attended watched P e (e.applyCommandExitRinging displayCommand exitCode) := by
  refine (latchRing_edit (e.commandExitStatus = .ALERT_RINGING) e).trans ?_
  rw [applyCommandExitRinging]
  generalize e.latchRing _ = f
  refine ⟨fun h => ⟨fun hatt' => ?_, by simp, h.deferred, h.busy, h.rule⟩, ?_⟩
  · exact absurd (hatt.symm.trans hatt') (by decide)
  · intro track _ h
    cases track <;> first | exact h | simp [rings]

theorem applyWatchingRinging_edit (hatt : attended = false) {e : AlertEntry}
    (hrule : (e.commandExitWatch.bind (·.argv0)).any (· ∈ watched) = true) :
    Edit attended watched P e e.applyWatchingRinging := by
  obtain ⟨command, hcommand, hmem⟩ := (Option.any_eq_true _ _).1 hrule
  refine (latchRing_edit (e.watchingRingingCommand ≠ none) e).trans ?_
  rw [applyWatchingRinging, hcommand]
  generalize e.latchRing _ = f
  refine ⟨fun h => ⟨fun hatt' => ?_, h.armed, h.deferred, h.busy, ?_⟩, ?_⟩
  · exact absurd (hatt.symm.trans hatt') (by decide)
  · intro command' heq
    obtain rfl := Option.some.inj heq
    exact of_decide_eq_true hmem
  · intro track _ h
    cases track <;> first | exact h | rfl

theorem rings_markCommandExitSeen (now : Ms) (track : Track) (e : AlertEntry) :
    (e.markCommandExitSeen now).rings track = e.rings track := by
  rw [markCommandExitSeen]
  split
  · rfl
  cases track with
  | protocol => rfl
  | watching => rfl
  | commandExit =>
    simp only [rings]
    split
    · rename_i harmed
      rw [harmed]
      decide
    · rfl

theorem markCommandExitSeen_deferred (now : Ms) (e : AlertEntry) :
    (e.markCommandExitSeen now).deferredNotification = e.deferredNotification := by
  rw [markCommandExitSeen]
  split <;> rfl

theorem markCommandExitSeen_edit (now : Ms) (e : AlertEntry) :
    Edit attended watched P e (e.markCommandExitSeen now) := by
  refine ⟨fun h => ⟨fun hatt => ⟨fun track => ?_, ?_⟩, ?_, ?_, ?_, ?_⟩, fun track _ hring => ?_⟩
  · rw [rings_markCommandExitSeen]
    exact (h.quiet hatt).1 track
  · rw [markCommandExitSeen_deferred]
    exact (h.quiet hatt).2
  · rw [markCommandExitSeen]
    split
    · exact h.armed
    · simp only
      split
      · exact fun habs => absurd habs (by decide)
      · rename_i hne
        exact fun habs => absurd habs hne
  · rw [markCommandExitSeen]
    split <;> exact h.deferred
  · rw [markCommandExitSeen]
    split <;> exact h.busy
  · rw [markCommandExitSeen]
    split <;> exact h.rule
  · rw [rings_markCommandExitSeen]
    exact hring

/-- After being seen an entry is not armed, provided arming came with a watch. -/
theorem markCommandExitSeen_not_armed (now : Ms) {e : AlertEntry}
    (h : e.commandExitStatus = .COMMAND_EXIT_ARMED → e.commandExitWatch.isSome) :
    (e.markCommandExitSeen now).commandExitStatus ≠ .COMMAND_EXIT_ARMED := by
  rw [markCommandExitSeen]
  split
  · rename_i hnone
    intro harmed
    exact absurd (h harmed) (by simp [hnone])
  · simp only
    split
    · decide
    · assumption

/-- Ending or starting a command keeps a ring and takes any arming back. -/
theorem disarmed_rings {e e' : AlertEntry} (hwatching : e'.watchingRingingCommand = e.watchingRingingCommand)
    (hprotocol : e'.protocolStatus = e.protocolStatus)
    (hexit : e'.commandExitStatus =
      if e.commandExitStatus ≠ .ALERT_RINGING then .IDLE else e.commandExitStatus) :
    (∀ track, e'.rings track = e.rings track) ∧ e'.commandExitStatus ≠ .COMMAND_EXIT_ARMED := by
  constructor
  · intro track
    cases track with
    | protocol => simp only [rings, hprotocol]
    | watching => simp only [rings, hwatching]
    | commandExit =>
      simp only [rings, hexit]
      split
      · rename_i hne
        simp [hne]
      · rfl
  · rw [hexit]
    split
    · decide
    · rename_i hring
      rw [not_not.1 hring]
      decide

theorem disarm_edit {e e' : AlertEntry} (hwatching : e'.watchingRingingCommand = e.watchingRingingCommand)
    (hprotocol : e'.protocolStatus = e.protocolStatus) (hprogress : e'.progress = e.progress)
    (hexit : e'.commandExitStatus =
      if e.commandExitStatus ≠ .ALERT_RINGING then .IDLE else e.commandExitStatus)
    (hdeferred : e'.deferredNotification = e.deferredNotification)
    (htimer : e'.deferredNotificationTimer = e.deferredNotificationTimer) :
    Edit attended watched P e e' := by
  obtain ⟨hrings, hdisarmed⟩ := disarmed_rings hwatching hprotocol hexit
  refine ⟨fun h => ⟨fun hatt => ⟨?_, ?_⟩, fun harmed => absurd harmed hdisarmed, ?_, ?_, ?_⟩,
    fun track _ hring => (hrings track).trans hring⟩
  · exact fun track => (hrings track).trans ((h.quiet hatt).1 track)
  · rw [hdeferred]
    exact (h.quiet hatt).2
  · rw [hdeferred, htimer]
    exact h.deferred
  · rw [hprotocol, hprogress]
    exact h.busy
  · rw [hwatching]
    exact h.rule

/-- The entry after losing attention. -/
def armed (e : AlertEntry) : AlertEntry :=
  if e.canArm then { e with commandExitStatus := .COMMAND_EXIT_ARMED } else e

/-- Arming needs attention to be elsewhere. -/
theorem armed_edit (watched : Finset JsString) (hatt : attended = false) (e : AlertEntry) :
    Edit attended watched P e e.armed := by
  by_cases h : e.canArm = true
  case neg =>
    rw [armed, if_neg h]
    exact .refl e
  rw [armed, if_pos h]
  rw [canArm, decide_eq_true_eq] at h
  obtain ⟨hidle, hseen⟩ := h
  obtain ⟨watch, hwatch, hsome⟩ := (Option.any_eq_true _ _).1 hseen
  refine ⟨fun h => ⟨fun hatt' => ?_, fun _ => ⟨hatt, watch, hwatch, hsome⟩, h.deferred, h.busy,
    h.rule⟩, ?_⟩
  · exact absurd (hatt.symm.trans hatt') (by decide)
  · intro track _ hring
    cases track with
    | protocol => exact hring
    | watching => exact hring
    | commandExit =>
      simp only [rings, hidle, decide_eq_true_eq] at hring
      exact absurd hring (by decide)

/-- The entry with one track's ring released. -/
def released (track : Track) (e : AlertEntry) : AlertEntry :=
  match track with
  | .protocol =>
    if e.protocolStatus = .ALERT_RINGING then { e with protocolStatus := .IDLE, progress := none }
    else e
  | .commandExit =>
    if e.commandExitStatus = .ALERT_RINGING then { e with commandExitStatus := .IDLE } else e
  | .watching =>
    if e.watchingRingingCommand ≠ none then
      { e with
        watchingRingingCommand := none
        outputSinceWatchingRing := false
        detector := e.detector.reset }
    else e

theorem released_of_not_rings {track : Track} {e : AlertEntry} (h : e.rings track = false) :
    e.released track = e := by
  cases track with
  | protocol => exact if_neg (of_decide_eq_false h)
  | commandExit => exact if_neg (of_decide_eq_false h)
  | watching => exact if_neg (not_not.2 (Option.not_isSome_iff_eq_none.1 (by simpa [rings] using h)))

theorem rings_released (track track' : Track) (e : AlertEntry) :
    (e.released track).rings track' = if track = track' then false else e.rings track' := by
  by_cases hring : e.rings track = true
  · cases track with
    | protocol =>
      have hring' : e.protocolStatus = .ALERT_RINGING := of_decide_eq_true hring
      rw [released, if_pos hring']
      cases track' <;> rfl
    | commandExit =>
      have hring' : e.commandExitStatus = .ALERT_RINGING := of_decide_eq_true hring
      rw [released, if_pos hring']
      cases track' <;> rfl
    | watching =>
      have hring' : e.watchingRingingCommand ≠ none := Option.isSome_iff_ne_none.1 hring
      rw [released, if_pos hring']
      cases track' <;> rfl
  · rw [released_of_not_rings (Bool.eq_false_iff.2 hring)]
    split
    · rename_i heq
      rw [← heq]
      exact Bool.eq_false_iff.2 hring
    · rfl

theorem released_deferred (track : Track) (e : AlertEntry) :
    (e.released track).deferredNotification = e.deferredNotification := by
  cases track <;> (simp only [released]; split <;> rfl)

theorem released_edit (track : Track) (e : AlertEntry) (hP : P track) :
    Edit attended watched P e (e.released track) := by
  have hfalse : ∀ track', e.rings track' = false → (e.released track).rings track' = false := by
    intro track' h
    rw [rings_released]
    split
    · rfl
    · exact h
  refine ⟨fun h => ⟨fun hatt => ⟨fun track' => hfalse track' ((h.quiet hatt).1 track'), ?_⟩,
    ?_, ?_, ?_, ?_⟩, ?_⟩
  · rw [released_deferred]
    exact (h.quiet hatt).2
  · cases track <;> (simp only [released]; split) <;> first | exact h.armed | simp
  · cases track <;> (simp only [released]; split) <;> exact h.deferred
  · cases track <;> (simp only [released]; split) <;> first | exact h.busy | simp
  · cases track <;> (simp only [released]; split) <;>
      first | exact h.rule | exact fun _ hnone => absurd hnone (Option.some_ne_none _).symm
  · intro track' hnot hring
    rw [rings_released]
    split
    · rename_i heq
      exact absurd (heq ▸ hP) hnot
    · exact hring

/-- The entry with every ring released and no deferral left. -/
def allReleased (e : AlertEntry) : AlertEntry :=
  ((e.clearDeferredNotification.released .protocol).released .commandExit).released .watching

theorem rings_allReleased (track : Track) (e : AlertEntry) : e.allReleased.rings track = false := by
  rw [allReleased, rings_released, rings_released, rings_released]
  cases track <;> rfl

theorem allReleased_deferred (e : AlertEntry) : e.allReleased.deferredNotification = none := by
  rw [allReleased, released_deferred, released_deferred, released_deferred]
  rfl

theorem allReleased_edit (e : AlertEntry) (hP : ∀ track, P track) :
    Edit attended watched P e e.allReleased :=
  (clearDeferredNotification_edit e).trans ((released_edit .protocol _ (hP _)).trans
    ((released_edit .commandExit _ (hP _)).trans (released_edit .watching _ (hP _))))

/-- The entry of a Session that just got attention; `dismissed` says whether it rang. -/
def attendedTo (dismissed : Bool) (now : Ms) (e : AlertEntry) : AlertEntry :=
  (if dismissed then { e.allReleased with attentionDismissedRing := true, todo := true }
    else e.allReleased).markCommandExitSeen now

/-- **Attention makes an entry quiet**, whoever was looking before. -/
theorem attendedTo_coherent (dismissed : Bool) (now : Ms) {watched : Finset JsString} {e : AlertEntry}
    (h : e.Coherent false watched) (attention : Bool) :
    (e.attendedTo dismissed now).Coherent attention watched := by
  have hreleased := (allReleased_edit (P := fun _ => True) e fun _ => trivial).coherent h
  have hflags : ∃ f : AlertEntry, e.attendedTo dismissed now = f.markCommandExitSeen now ∧
      f.Coherent false watched ∧ (∀ track, f.rings track = false) ∧
      f.deferredNotification = none := by
    cases dismissed with
    | false =>
      exact ⟨e.allReleased, rfl, hreleased, fun track => rings_allReleased track e,
        allReleased_deferred e⟩
    | true =>
      refine ⟨{ e.allReleased with attentionDismissedRing := true, todo := true }, rfl, ?_,
        fun track => ?_, allReleased_deferred e⟩
      · have hflag : Edit false watched (fun _ => True) e.allReleased
            { e.allReleased with attentionDismissedRing := true, todo := true } :=
          .of_eq rfl rfl rfl rfl rfl rfl rfl
        exact hflag.coherent hreleased
      · have hring := rings_allReleased track e
        cases track <;> exact hring
  obtain ⟨f, heq, hf, hrings, hdeferred⟩ := hflags
  -- seen from an attended entry, `f` is quiet but perhaps armed: only `markCommandExitSeen` disarms it
  have hseen := (markCommandExitSeen_edit (P := fun _ => True) now f).coherent hf
  rw [heq]
  refine hseen.attend (fun track => ?_) ?_ ?_ attention
  · rw [rings_markCommandExitSeen]
    exact hrings track
  · rw [markCommandExitSeen_deferred]
    exact hdeferred
  · refine markCommandExitSeen_not_armed now fun harmed => ?_
    obtain ⟨-, watch, hwatch, -⟩ := hf.armed harmed
    rw [hwatch]
    rfl

/-- The entry after the rule set became `watched`: a ring whose rule is gone is silenced. -/
def withRules (watched : Finset JsString) (e : AlertEntry) : AlertEntry :=
  if e.watchingRingingCommand.any (· ∉ watched) then
    { e with watchingRingingCommand := none, outputSinceWatchingRing := false }
  else e

theorem withRules_withRules (watched : Finset JsString) (e : AlertEntry) :
    (e.withRules watched).withRules watched = e.withRules watched := by
  by_cases h : e.watchingRingingCommand.any (· ∉ watched) = true
  · rw [withRules, withRules, if_pos h]
    rfl
  · have hkeep : e.withRules watched = e := if_neg h
    rw [hkeep, hkeep]

/-- A new rule set may break the old rule; the entry is coherent with the new one. -/
theorem withRules_coherent {attended : Bool} {old : Finset JsString} (next : Finset JsString)
    {e : AlertEntry} (h : e.Coherent attended old) : (e.withRules next).Coherent attended next := by
  by_cases hgone : e.watchingRingingCommand.any (· ∉ next) = true
  · rw [withRules, if_pos hgone]
    refine ⟨fun hatt => ⟨fun track => ?_, (h.quiet hatt).2⟩, h.armed, h.deferred, h.busy,
      fun _ hnone => absurd hnone (Option.some_ne_none _).symm⟩
    cases track with
    | protocol => exact (h.quiet hatt).1 .protocol
    | commandExit => exact (h.quiet hatt).1 .commandExit
    | watching => rfl
  · rw [withRules, if_neg hgone]
    refine ⟨h.quiet, h.armed, h.deferred, h.busy, fun command hcommand => ?_⟩
    by_contra hnot
    exact hgone (by rw [hcommand]; exact decide_eq_true hnot)

theorem rings_withRules (next : Finset JsString) {track : Track} {e : AlertEntry}
    (hring : e.rings track = true) (hkeep : track = .watching →
      ∀ command, e.watchingRingingCommand = some command → command ∈ next) :
    (e.withRules next).rings track = true := by
  by_cases hgone : e.watchingRingingCommand.any (· ∉ next) = true
  · rw [withRules, if_pos hgone]
    cases track with
    | protocol => exact hring
    | commandExit => exact hring
    | watching =>
      obtain ⟨command, hcommand, hnot⟩ := (Option.any_eq_true _ _).1 hgone
      exact absurd (hkeep rfl command hcommand) (of_decide_eq_true hnot)
  · rw [withRules, if_neg hgone]
    exact hring

end AlertEntry

end Dormouse.Alert
