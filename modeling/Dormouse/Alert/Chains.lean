import Dormouse.Alert.Effects

/-!
# Dormouse.Alert.Chains

**Every operation of the alert manager is a chain of small steps**, and what each step does to a
relation decides what the operation does. The operations that may latch rings are taken apart once,
for every relation that reports, new entries and latching edits keep; so are those that move the
attention, and those that release.
-/

namespace Dormouse.Alert

open Terminal

/-! ### One entry -/

namespace AlertEntry

/-- How many tracks ring that did not. -/
def newRings (e e' : AlertEntry) : Nat :=
  [Track.protocol, .commandExit, .watching].countP fun track => !e.rings track && e'.rings track

/-- The same tracks ring, and nothing was counted. -/
structure SameRings (e e' : AlertEntry) : Prop where
  rings : ∀ track, e'.rings track = e.rings track
  ringSeq : e'.ringSeq = e.ringSeq

/-- No ring was released, and each new one was counted. -/
structure Latching (e e' : AlertEntry) : Prop where
  kept : ∀ track, e.rings track = true → e'.rings track = true
  counted : e'.ringSeq = e.ringSeq + newRings e e'

/-- No ring is new, and nothing was counted. -/
structure Releasing (e e' : AlertEntry) : Prop where
  old : ∀ track, e'.rings track = true → e.rings track = true
  ringSeq : e'.ringSeq = e.ringSeq

theorem newRings_eq_zero {e e' : AlertEntry}
    (h : ∀ track, e'.rings track = true → e.rings track = true) : newRings e e' = 0 := by
  refine List.countP_eq_zero.2 fun track _ hnew => ?_
  rw [Bool.and_eq_true, Bool.not_eq_true'] at hnew
  rw [h track hnew.2] at hnew
  exact absurd hnew.1 (by decide)

theorem newRings_add {a b c : AlertEntry} (hab : ∀ track, a.rings track = true → b.rings track = true)
    (hbc : ∀ track, b.rings track = true → c.rings track = true) :
    newRings a c = newRings a b + newRings b c := by
  have hone : ∀ track, (!a.rings track && c.rings track).toNat =
      (!a.rings track && b.rings track).toNat + (!b.rings track && c.rings track).toNat := by
    intro track
    have h₁ := hab track
    have h₂ := hbc track
    revert h₁ h₂
    cases a.rings track <;> cases b.rings track <;> cases c.rings track <;> decide
  have hcount : ∀ e e' : AlertEntry, newRings e e' =
      (!e.rings .protocol && e'.rings .protocol).toNat +
        (!e.rings .commandExit && e'.rings .commandExit).toNat +
          (!e.rings .watching && e'.rings .watching).toNat := by
    intro e e'
    have hbit : ∀ b : Bool, b.toNat = if b = true then 1 else 0 := by decide
    simp only [newRings, List.countP_cons, List.countP_nil, hbit]
    omega
  rw [hcount, hcount, hcount, hone .protocol, hone .commandExit, hone .watching]
  omega

/-- What an operation may do to the rings of an entry, however often. -/
class RingRelation (R : AlertEntry → AlertEntry → Prop) : Prop where
  same : ∀ {e e'}, SameRings e e' → R e e'
  trans : ∀ {a b c}, R a b → R b c → R a c

theorem SameRings.refl (e : AlertEntry) : SameRings e e := ⟨fun _ => rfl, rfl⟩

instance : RingRelation SameRings where
  same h := h
  trans hab hbc := ⟨fun track => (hbc.rings track).trans (hab.rings track),
    hbc.ringSeq.trans hab.ringSeq⟩

instance : RingRelation Latching where
  same h := by
    refine ⟨fun track hring => (h.rings track).trans hring, ?_⟩
    rw [newRings_eq_zero fun track hring => (h.rings track).symm.trans hring]
    exact h.ringSeq
  trans hab hbc := by
    refine ⟨fun track hring => hbc.kept track (hab.kept track hring), ?_⟩
    rw [hbc.counted, hab.counted, newRings_add hab.kept hbc.kept, Nat.add_assoc]

instance : RingRelation Releasing where
  same h := ⟨fun track hring => (h.rings track).symm.trans hring, h.ringSeq⟩
  trans hab hbc := ⟨fun track hring => hab.old track (hbc.old track hring),
    hbc.ringSeq.trans hab.ringSeq⟩

/-- An edit that leaves alone what ringing is about. -/
theorem SameRings.of_eq {e e' : AlertEntry} (hprotocol : e'.protocolStatus = e.protocolStatus)
    (hexit : e'.commandExitStatus = e.commandExitStatus)
    (hwatching : e'.watchingRingingCommand = e.watchingRingingCommand)
    (hseq : e'.ringSeq = e.ringSeq) : SameRings e e' := by
  refine ⟨fun track => ?_, hseq⟩
  cases track <;> simp only [AlertEntry.rings, hprotocol, hexit, hwatching]

/-- One track latches, counted unless it was ringing. -/
theorem latching_latchRing (track : Track) {e e' : AlertEntry}
    (hseq : e'.ringSeq = (e.latchRing (e.rings track)).ringSeq)
    (hring : e'.rings track = true)
    (hother : ∀ track', track' ≠ track → e'.rings track' = e.rings track') : Latching e e' := by
  refine ⟨fun track' h => ?_, ?_⟩
  · by_cases heq : track' = track
    · rw [heq]
      exact hring
    · rw [hother track' heq]
      exact h
  · have hnew : newRings e e' = (!e.rings track).toNat := by
      have h₁ := hother .protocol
      have h₂ := hother .commandExit
      have h₃ := hother .watching
      simp only [newRings, List.countP_cons, List.countP_nil]
      cases track with
      | protocol =>
        rw [h₂ (by decide), h₃ (by decide), hring]
        cases e.rings .protocol <;> cases e.rings .commandExit <;> cases e.rings .watching <;> rfl
      | commandExit =>
        rw [h₁ (by decide), h₃ (by decide), hring]
        cases e.rings .protocol <;> cases e.rings .commandExit <;> cases e.rings .watching <;> rfl
      | watching =>
        rw [h₁ (by decide), h₂ (by decide), hring]
        cases e.rings .protocol <;> cases e.rings .commandExit <;> cases e.rings .watching <;> rfl
    rw [hseq, hnew, latchRing]
    cases e.rings track <;> rfl

theorem applyProtocolRinging_latching (notification : ActivityNotification) (e : AlertEntry) :
    Latching e (e.applyProtocolRinging notification) := by
  refine latching_latchRing .protocol rfl rfl fun track hne => ?_
  rw [applyProtocolRinging, latchRing]
  cases track with
  | protocol => exact absurd rfl hne
  | commandExit => split <;> rfl
  | watching => split <;> rfl

theorem applyCommandExitRinging_latching (displayCommand : JsString) (exitCode : Option Int)
    (e : AlertEntry) : Latching e (e.applyCommandExitRinging displayCommand exitCode) := by
  refine latching_latchRing .commandExit rfl rfl fun track hne => ?_
  rw [applyCommandExitRinging, latchRing]
  cases track with
  | protocol => split <;> rfl
  | commandExit => exact absurd rfl hne
  | watching => split <;> rfl

/-- The command that latches the WATCHING track is a rule's, so there is one. -/
theorem applyWatchingRinging_latching {e : AlertEntry} {watched : Finset JsString}
    (hrule : (e.commandExitWatch.bind (·.argv0)).any (· ∈ watched) = true) :
    Latching e e.applyWatchingRinging := by
  obtain ⟨command, hcommand, -⟩ := (Option.any_eq_true _ _).1 hrule
  have hring : e.rings .watching = decide (e.watchingRingingCommand ≠ none) := by
    cases h : e.watchingRingingCommand <;> simp [AlertEntry.rings, h]
  refine latching_latchRing .watching (by rw [hring]; rfl) ?_ fun track hne => ?_
  · show (e.commandExitWatch.bind (·.argv0)).isSome = true
    rw [hcommand]
    rfl
  · rw [applyWatchingRinging, latchRing]
    cases track with
    | protocol => split <;> rfl
    | commandExit => split <;> rfl
    | watching => exact absurd rfl hne

theorem markCommandExitSeen_sameRings (now : Ms) (e : AlertEntry) :
    SameRings e (e.markCommandExitSeen now) := by
  refine ⟨fun track => rings_markCommandExitSeen now track e, ?_⟩
  rw [markCommandExitSeen]
  split <;> rfl

/-- Starting and ending a command keep a command-exit ring. -/
theorem SameRings.disarm {e e' : AlertEntry} (hprotocol : e'.protocolStatus = e.protocolStatus)
    (hexit : e'.commandExitStatus =
      if e.commandExitStatus ≠ .ALERT_RINGING then .IDLE else e.commandExitStatus)
    (hwatching : e'.watchingRingingCommand = e.watchingRingingCommand)
    (hseq : e'.ringSeq = e.ringSeq) : SameRings e e' :=
  ⟨(disarmed_rings hwatching hprotocol hexit).1, hseq⟩

theorem armed_sameRings (e : AlertEntry) : SameRings e e.armed := by
  rw [armed]
  split
  · rename_i hcan
    refine ⟨fun track => ?_, rfl⟩
    rw [canArm, decide_eq_true_eq] at hcan
    cases track with
    | protocol => rfl
    | watching => rfl
    | commandExit => simp [AlertEntry.rings, hcan.1]
  · exact .refl e

theorem withRules_releasing (watched : Finset JsString) (e : AlertEntry) :
    Releasing e (e.withRules watched) := by
  rw [withRules]
  split
  · refine ⟨fun track h => ?_, rfl⟩
    cases track with
    | protocol => exact h
    | commandExit => exact h
    | watching => exact absurd h Bool.false_ne_true
  · exact RingRelation.same (.refl e)

/-- An edit that may latch rings, and keeps the entry coherent. -/
structure LatchEdit (attended : Bool) (watched : Finset JsString) (e e' : AlertEntry) : Prop where
  latching : Latching e e'
  edit : Edit attended watched (fun _ => False) e e'

variable {attended : Bool} {watched : Finset JsString}

theorem LatchEdit.trans {a b c : AlertEntry} (hab : LatchEdit attended watched a b)
    (hbc : LatchEdit attended watched b c) : LatchEdit attended watched a c :=
  ⟨RingRelation.trans hab.latching hbc.latching, hab.edit.trans hbc.edit⟩

/-- An edit that leaves alone what rings, their count and coherence are about. -/
theorem LatchEdit.of_eq {e e' : AlertEntry}
    (hwatching : e'.watchingRingingCommand = e.watchingRingingCommand)
    (hprotocol : e'.protocolStatus = e.protocolStatus) (hprogress : e'.progress = e.progress)
    (hexit : e'.commandExitStatus = e.commandExitStatus)
    (hwatch : e'.commandExitWatch = e.commandExitWatch)
    (hdeferred : e'.deferredNotification = e.deferredNotification)
    (htimer : e'.deferredNotificationTimer.isSome = e.deferredNotificationTimer.isSome)
    (hseq : e'.ringSeq = e.ringSeq) : LatchEdit attended watched e e' :=
  ⟨RingRelation.same (.of_eq hprotocol hexit hwatching hseq),
    .of_eq hwatching hprotocol hprogress hexit hwatch hdeferred htimer⟩

theorem LatchEdit.clearDeferred (e : AlertEntry) :
    LatchEdit attended watched e e.clearDeferredNotification :=
  ⟨RingRelation.same (.of_eq rfl rfl rfl rfl), clearDeferredNotification_edit e⟩

theorem LatchEdit.protocol (hatt : attended = false) (notification : ActivityNotification)
    (e : AlertEntry) : LatchEdit attended watched e (e.applyProtocolRinging notification) :=
  ⟨applyProtocolRinging_latching notification e, applyProtocolRinging_edit hatt notification e⟩

/-- Starting and ending a command. -/
theorem LatchEdit.disarm {e e' : AlertEntry}
    (hwatching : e'.watchingRingingCommand = e.watchingRingingCommand)
    (hprotocol : e'.protocolStatus = e.protocolStatus) (hprogress : e'.progress = e.progress)
    (hexit : e'.commandExitStatus =
      if e.commandExitStatus ≠ .ALERT_RINGING then .IDLE else e.commandExitStatus)
    (hdeferred : e'.deferredNotification = e.deferredNotification)
    (htimer : e'.deferredNotificationTimer = e.deferredNotificationTimer)
    (hseq : e'.ringSeq = e.ringSeq) : LatchEdit attended watched e e' :=
  ⟨RingRelation.same (.disarm hprotocol hexit hwatching hseq),
    disarm_edit hwatching hprotocol hprogress hexit hdeferred htimer⟩

/-- The end of a cycle of progress. -/
theorem LatchEdit.endCycle (e : AlertEntry) : LatchEdit attended watched e
    { e with
      progress := none
      protocolStatus := if e.protocolStatus = .OSC_NOTIF_BUSY then .IDLE else e.protocolStatus } := by
  have hrings : ∀ track, AlertEntry.rings { e with
      progress := none
      protocolStatus := if e.protocolStatus = .OSC_NOTIF_BUSY then .IDLE else e.protocolStatus }
      track = e.rings track := by
    intro track
    cases track with
    | commandExit => rfl
    | watching => rfl
    | protocol =>
      simp only [AlertEntry.rings]
      split
      · rename_i hbusy
        rw [hbusy]
        rfl
      · rfl
  refine ⟨RingRelation.same ⟨hrings, rfl⟩, fun h => ⟨fun hatt => ⟨fun track => (hrings track).trans
    ((h.quiet hatt).1 track), (h.quiet hatt).2⟩, h.armed, h.deferred, ?_, h.rule⟩,
    fun track _ hring => (hrings track).trans hring⟩
  simp only
  split
  · decide
  · rename_i hne
    simp [hne]

end AlertEntry

namespace AlertManager

open AlertEntry

variable {R : AlertManager → AlertManager → Prop}

/-! ### What latches -/

/-- A relation that new entries and edits that latch keep as well. -/
class LatchEdits (R : AlertManager → AlertManager → Prop) : Prop extends Publishes R where
  create : ∀ id m, R m (m.getOrCreateEntry id)
  entry : ∀ {id f m}, (∀ e, m.entries.get id = some e →
    LatchEdit (m.hasAttention id) m.watchedCommands e (f e)) → R m (m.modifyEntry id f)

section LatchEdits

variable [LatchEdits R]

theorem modifyDetector_latches (id : Id) (f : QuiesceDetector → QuiesceDetector)
    (m : AlertManager) : R m (m.modifyDetector id f) := by
  have hedit : R m (m.modifyEntry id fun e => { e with detector := f e.detector }) :=
    LatchEdits.entry fun _ _ => .of_eq rfl rfl rfl rfl rfl rfl rfl rfl
  rw [modifyDetector]
  split
  · exact Rests.refl m
  · dsimp only
    split
    · exact Rests.trans hedit (Publishes.notify id _)
    · exact hedit

theorem streamEntry_latches (id : Id) (m : AlertManager) : R m (m.streamEntry id) := by
  rw [streamEntry]
  split
  · exact Rests.refl m
  · exact LatchEdits.create id m

theorem reportedEntry_latches (id : Id) (m : AlertManager) : R m (m.reportedEntry id) := by
  have hknown : R m { m with removed := m.removed.erase id } :=
    Rests.rest ⟨rfl, rfl, rfl, rfl, rfl, rfl, rfl, rfl⟩
  exact Rests.trans hknown (LatchEdits.create id _)

/-! ### Deferred notifications and the ring rules -/

theorem flushDeferredNotification_latches (id : Id) (m : AlertManager) :
    R m (m.flushDeferredNotification id) := by
  have hclear : R m (m.modifyEntry id clearDeferredNotification) :=
    LatchEdits.entry fun e _ => .clearDeferred e
  rw [flushDeferredNotification]
  split
  · exact Rests.refl m
  dsimp only
  split
  · exact hclear
  · rename_i notification _ hatt
    refine Rests.trans hclear (Rests.trans (LatchEdits.entry fun e _ => ?_) (Publishes.notify id _))
    exact .protocol (Bool.eq_false_iff.2 hatt) notification e

theorem deferOrDeliverNotification_latches (id : Id) (notification : ActivityNotification)
    (now : Ms) (m : AlertManager) (hatt : m.hasAttention id = false) :
    R m (m.deferOrDeliverNotification id notification now) := by
  rw [deferOrDeliverNotification]
  split
  · exact Rests.refl m
  refine Rests.trans ?_ (Publishes.notify id _)
  split
  · refine LatchEdits.entry fun e _ => ⟨RingRelation.same (.of_eq rfl rfl rfl rfl), fun h =>
      ⟨fun hatt' => ?_, h.armed, rfl, h.busy, h.rule⟩, fun track _ hring => ?_⟩
    · exact absurd (hatt.symm.trans hatt') (by decide)
    · cases track <;> exact hring
  · exact LatchEdits.entry fun e _ => (LatchEdit.clearDeferred e).trans (.protocol hatt notification _)

theorem ringRule_latches (id : Id) (event : CompletionEvent) (now : Ms) (m : AlertManager) :
    R m (m.ringRule id event now) := by
  rw [ringRule]
  split
  · exact Rests.refl m
  rename_i e he
  cases event with
  | settled =>
    dsimp only
    split
    · exact Rests.refl m
    rename_i hwatching
    simp only [Bool.or_eq_true, Bool.not_eq_true', not_or, Bool.not_eq_false] at hwatching
    refine Rests.trans (LatchEdits.entry fun e' he' => ?_) (Publishes.notify id _)
    obtain rfl := Option.some.inj (he.symm.trans he')
    exact ⟨applyWatchingRinging_latching hwatching.1,
      applyWatchingRinging_edit (Bool.eq_false_iff.2 hwatching.2) hwatching.1⟩
  | commandFinished displayCommand argv0 exitCode ranMs armed =>
    dsimp only
    split
    · exact Rests.refl m
    rename_i hrings
    simp only [Bool.or_eq_true, not_or] at hrings
    have hring : R m (m.modifyEntry id (applyCommandExitRinging displayCommand exitCode)) :=
      LatchEdits.entry fun e _ => ⟨applyCommandExitRinging_latching displayCommand exitCode e,
        applyCommandExitRinging_edit (Bool.eq_false_iff.2 hrings.1.2) displayCommand exitCode e⟩
    split
    · exact Rests.trans hring (flushDeferredNotification_latches id _)
    · exact Rests.trans hring (Publishes.notify id _)
  | notification notification =>
    dsimp only
    split
    · exact Publishes.notify id m
    · rename_i hatt
      exact deferOrDeliverNotification_latches id notification now m (Bool.eq_false_iff.2 hatt)

theorem dispatchCompletion_latches (id : Id) (event : CompletionEvent) (now : Ms)
    (m : AlertManager) : R m (m.dispatchCompletion id event now).1 := by
  have hoffer := offerClaimants_publishes (R := R) id event now ((m.claimants.get id).getD []) m
  rw [dispatchCompletion]
  split
  · rename_i heq
    rw [heq] at hoffer
    exact hoffer
  · rename_i heq
    rw [heq] at hoffer
    exact Rests.trans hoffer (ringRule_latches ..)

theorem onSettled_latches (id : Id) (now : Ms) (m : AlertManager) : R m (m.onSettled id now) := by
  rw [onSettled]
  split
  · exact Rests.trans (dispatchCompletion_latches ..) (flushDeferredNotification_latches ..)
  · exact Rests.refl m

/-! ### The command-exit track -/

theorem startCommandExitWatch_latches (id : Id) (source : Option CommandRunSource)
    (startedAt : Option Ms) (now : Ms) (m : AlertManager) :
    R m (m.startCommandExitWatch id source startedAt now) := by
  rw [startCommandExitWatch]
  refine Rests.trans (LatchEdits.entry fun e _ => ?_)
    (Rests.trans (modifyDetector_latches ..) (Publishes.clearGrace ..))
  exact .disarm rfl rfl rfl rfl rfl rfl rfl

theorem finishCommandExitWatch_latches (id : Id) (exitCode : Option Int) (now : Ms)
    (m : AlertManager) : R m (m.finishCommandExitWatch id exitCode now).1 := by
  rw [finishCommandExitWatch]
  split
  · exact Rests.refl m
  · refine Rests.trans ?_ (modifyDetector_latches ..)
    split
    · exact LatchEdits.entry fun e _ => .disarm rfl rfl rfl rfl rfl rfl rfl
    · refine Rests.trans (LatchEdits.entry fun e _ => ?_) (dispatchCompletion_latches ..)
      exact .disarm rfl rfl rfl rfl rfl rfl rfl

theorem semanticEvent_latches (id : Id) (now : Ms) (event : TerminalSemanticEvent)
    (m : AlertManager) : R m (m.semanticEvent id now event).1 := by
  cases event with
  | commandLine commandLine =>
    rw [semanticEvent]
    split
    · exact LatchEdits.entry fun e _ => .of_eq rfl rfl rfl rfl rfl rfl rfl rfl
    · exact Rests.refl m
  | commandStart source startedAt => exact startCommandExitWatch_latches ..
  | commandFinish exitCode finishedAt => exact finishCommandExitWatch_latches ..
  | cwd cwd => exact Rests.refl m
  | title title => exact Rests.refl m
  | promptStart =>
    rw [semanticEvent]
    split
    · exact finishCommandExitWatch_latches ..
    · exact modifyDetector_latches ..
  | promptEnd =>
    rw [semanticEvent]
    split
    · exact finishCommandExitWatch_latches ..
    · exact modifyDetector_latches ..

theorem semanticEvents_latches (id : Id) (now : Ms) (events : List TerminalSemanticEvent) :
    ∀ m : AlertManager, R m (semanticEvents id now events m).1 := by
  induction events with
  | nil => exact Rests.refl
  | cons event events ih => exact fun m => Rests.trans (semanticEvent_latches ..) (ih _)

/-- A step that answers whether to report. -/
theorem reports_latches {m : AlertManager} (r : AlertManager × Bool) (id : Id) :
    R m r.1 → R m (match r with
      | (m, true) => m.notify id
      | (m, false) => m) := by
  intro h
  obtain ⟨m', _ | _⟩ := r
  · exact h
  · exact Rests.trans h (Publishes.notify id m')

theorem applyTerminalSemanticEvents_latches (id : Id) (events : List TerminalSemanticEvent)
    (now : Ms) (m : AlertManager) : R m (m.applyTerminalSemanticEvents id events now) := by
  rw [applyTerminalSemanticEvents]
  split
  · exact Rests.refl m
  · exact reports_latches _ id (Rests.trans (reportedEntry_latches id m)
      (semanticEvents_latches id now events _))

/-! ### PTY events and protocol reports -/

theorem onData_latches (id : Id) (now : Ms) (m : AlertManager) : R m (m.onData id now) := by
  rw [onData]
  split
  · exact Rests.refl m
  · split
    · exact Rests.refl m
    · refine Rests.trans (streamEntry_latches id m) (Rests.trans (modifyDetector_latches ..)
        (Rests.trans (LatchEdits.entry fun e _ => ?_) (Publishes.clearGrace ..)))
      split <;> exact .of_eq rfl rfl rfl rfl rfl rfl rfl rfl

theorem onExit_latches (id : Id) (exitCode : Option Int) (now : Ms) (m : AlertManager) :
    R m (m.onExit id exitCode now) := by
  rw [onExit]
  split
  · exact Rests.refl m
  · exact Rests.trans (reports_latches _ id (finishCommandExitWatch_latches id exitCode now m))
      (settleWaiters_publishes ..)

theorem onResize_latches (id : Id) (now : Ms) (m : AlertManager) : R m (m.onResize id now) := by
  rw [onResize]
  split
  · exact Rests.refl m
  · split
    · exact Rests.refl m
    · exact Rests.trans (streamEntry_latches id m) (modifyDetector_latches ..)

theorem notifyFromProtocol_latches (id : Id) (notification : ActivityNotification) (now : Ms)
    (m : AlertManager) : R m (m.notifyFromProtocol id notification now) := by
  rw [notifyFromProtocol]
  split
  · exact Rests.refl m
  · refine Rests.trans (reportedEntry_latches id m) ?_
    split
    · exact Rests.refl _
    · exact dispatchCompletion_latches ..

theorem finishProtocolProgressCycle_latches (id : Id) (title : JsString) (percent : Option ℚ)
    (now : Ms) (m : AlertManager) : R m (m.finishProtocolProgressCycle id title percent now) := by
  rw [finishProtocolProgressCycle]
  exact Rests.trans (LatchEdits.entry fun e _ => .endCycle e)
    (reports_latches _ id (dispatchCompletion_latches ..))

/-! ### Settings and timers -/

theorem setDeferAlertsUntilQuiet_latches (enabled : Bool) (m : AlertManager) :
    R m (m.setDeferAlertsUntilQuiet enabled) := by
  have hset : R m { m with deferAlertsUntilQuiet := enabled } :=
    Rests.rest ⟨rfl, rfl, rfl, rfl, rfl, rfl, rfl, rfl⟩
  rw [setDeferAlertsUntilQuiet]
  split
  · exact Rests.refl m
  · dsimp only
    split
    · exact hset
    · exact Rests.trans hset (foldl_rests (fun m id => flushDeferredNotification_latches id m) _ _)

/-- A due deferral, given that its timer may go before it does. -/
theorem deferredNotificationDue_latches (id : Id) (now : Ms) (m : AlertManager)
    (htimer : R m (m.modifyEntry id fun e => { e with deferredNotificationTimer := none })) :
    R m (m.deferredNotificationDue id now) := by
  rw [deferredNotificationDue]
  split
  · exact Rests.refl m
  rename_i e he
  split
  · exact Rests.refl m
  rename_i harmed
  split
  · refine LatchEdits.entry fun e' he' => ?_
    obtain rfl := Option.some.inj (he.symm.trans he')
    refine .of_eq rfl rfl rfl rfl rfl rfl ?_ rfl
    exact (Option.isSome_iff_ne_none.2 harmed).symm
  · exact Rests.trans htimer (flushDeferredNotification_latches ..)

theorem detectorTimer_latches (id : Id) (timer : QuiesceDetector.DetectorTimer) (now : Ms)
    (m : AlertManager) : R m (m.detectorTimer id timer now) := by
  rw [detectorTimer]
  split
  · exact Rests.refl m
  split
  · exact Rests.refl m
  cases timer with
  | busyCandidate => exact modifyDetector_latches ..
  | busyConfirm => exact modifyDetector_latches ..
  | mightNeedAttention => exact modifyDetector_latches ..
  | resize => exact modifyDetector_latches ..
  | settledConfirm =>
    have hstart : R m (m.modifyDetector id .settleStarts) := modifyDetector_latches ..
    dsimp only
    split
    · exact Rests.trans hstart
        (Rests.trans (onSettled_latches ..) (modifyDetector_latches ..))
    · exact hstart

end LatchEdits

/-! ### What moves the attention -/

theorem armAndNotify_edits (id : Id) (m : AlertManager) :
    Edits id armed m (m.armAndNotify id) := by
  rw [armAndNotify, armCommandExitOnAttentionLoss]
  by_cases hcan : (m.entries.get id).any canArm = true
  · obtain ⟨e, he, hcan'⟩ := (Option.any_eq_true _ _).1 hcan
    simp only [if_pos hcan]
    refine .quiet (.congr (modifyEntry_edits id _ m) fun e' he' => ?_) (notify_quiet id _)
    obtain rfl := Option.some.inj (he.symm.trans he')
    exact (if_pos hcan').symm
  · simp only [if_neg hcan]
    refine (Edits.refl id m).congr fun e he => ?_
    rw [he] at hcan
    exact (if_neg hcan).symm

/-- A relation the attention may move under. -/
class Attends (R : AlertManager → AlertManager → Prop) : Prop extends Publishes R where
  arm : ∀ id m, R m (m.armAndNotify id)
  look : ∀ attentionId attentionTimer m,
    R m { m with attentionId := attentionId, attentionTimer := attentionTimer }

section Attends

variable [Attends R]

theorem setAttention_attends (id : Id) (now : Ms) (m : AlertManager) :
    R m (m.setAttention id now) := by
  rw [setAttention]
  refine Rests.trans ?_ (Attends.look _ _ _)
  split
  · exact Rests.refl m
  · split
    · exact Attends.arm _ m
    · exact Rests.refl m

theorem attentionExpires_attends (m : AlertManager) : R m m.attentionExpires := by
  rw [attentionExpires]
  split
  · exact Rests.refl m
  · dsimp only
    refine Rests.trans ?_ (Attends.look _ _ _)
    split
    · exact Rests.trans (Attends.look none m.attentionTimer m) (Attends.arm _ _)
    · exact Rests.refl m

theorem clearAttention_attends (id : Option Id) (m : AlertManager) : R m (m.clearAttention id) := by
  have hlose : R m { m with attentionId := none, attentionTimer := none } := Attends.look none none m
  rw [clearAttention]
  split
  · exact Rests.refl m
  dsimp only
  split
  · exact hlose
  · split
    · exact Rests.trans hlose (Attends.arm _ _)
    · exact hlose

theorem setInactivityTimeoutMs_attends (ms : Option Ms) (now : Ms) (m : AlertManager) :
    R m (m.setInactivityTimeoutMs ms now) := by
  rcases ms with _ | ms
  · exact Rests.refl m
  have hset : R m { m with inactivityTimeoutMs := ms } :=
    Rests.rest ⟨rfl, rfl, rfl, rfl, rfl, rfl, rfl, rfl⟩
  rw [setInactivityTimeoutMs]
  split
  · exact Rests.refl m
  · dsimp only
    split
    · exact Rests.trans hset (setAttention_attends ..)
    · exact hset

end Attends

/-! ### What releases -/

/-- A relation that edits which release keep as well, and new rules. -/
class Releases (R : AlertManager → AlertManager → Prop) : Prop extends Attends R where
  create : ∀ id m, R m (m.getOrCreateEntry id)
  entry : ∀ {id f m}, (∀ e, m.entries.get id = some e → Releasing e (f e)) → R m (m.modifyEntry id f)
  rules : ∀ watched m, R m { m with watchedCommands := watched }

section Releases

variable [Releases R]

theorem modifyFlags_releases (id : Id) (m : AlertManager) (todo dismissed : AlertEntry → Bool)
    (notification : AlertEntry → Option ActivityNotification) :
    R m (m.modifyEntry id fun e =>
      { e with todo := todo e, attentionDismissedRing := dismissed e, notification := notification e }) :=
  Releases.entry fun _ _ => RingRelation.same (.of_eq rfl rfl rfl rfl)

theorem modifyDetector_releases (id : Id) (f : QuiesceDetector → QuiesceDetector)
    (m : AlertManager) : R m (m.modifyDetector id f) := by
  have hedit : R m (m.modifyEntry id fun e => { e with detector := f e.detector }) :=
    Releases.entry fun _ _ => RingRelation.same (.of_eq rfl rfl rfl rfl)
  rw [modifyDetector]
  split
  · exact Rests.refl m
  · dsimp only
    split
    · exact Rests.trans hedit (Publishes.notify id _)
    · exact hedit

theorem releaseRing_releases (id : Id) (track : Track) (m : AlertManager) :
    R m (m.releaseRing id track).1 := by
  rw [releaseRing]
  split
  · exact Rests.refl m
  cases track with
  | protocol =>
    dsimp only
    split
    · exact Rests.refl m
    · refine Releases.entry fun e _ => ⟨fun track h => ?_, rfl⟩
      cases track <;> first | exact h | exact absurd h Bool.false_ne_true
  | commandExit =>
    dsimp only
    split
    · exact Rests.refl m
    · refine Releases.entry fun e _ => ⟨fun track h => ?_, rfl⟩
      cases track <;> first | exact h | exact absurd h Bool.false_ne_true
  | watching =>
    dsimp only
    split
    · exact Rests.refl m
    · refine Rests.trans (Releases.entry fun e _ => ?_) (modifyDetector_releases ..)
      refine ⟨fun track h => ?_, rfl⟩
      cases track <;> first | exact h | exact absurd h Bool.false_ne_true

theorem clearAllRingsIfActive_releases (id : Id) (m : AlertManager) :
    R m (m.clearAllRingsIfActive id).1 := by
  have hclear : R m (m.modifyEntry id clearDeferredNotification) :=
    Releases.entry fun _ _ => RingRelation.same (.of_eq rfl rfl rfl rfl)
  rw [clearAllRingsIfActive]
  exact Rests.trans hclear (Rests.trans (releaseRing_releases id .protocol _)
    (Rests.trans (releaseRing_releases id .commandExit _) (releaseRing_releases id .watching _)))

theorem attend_releases (id : Id) (now : Ms) (m : AlertManager) : R m (m.attend id now) := by
  rw [attend]
  split
  · exact Rests.refl m
  have hclear : R m (((m.getOrCreateEntry id).setAttention id now).clearAllRingsIfActive id).1 :=
    Rests.trans (Releases.create id m)
      (Rests.trans (setAttention_attends id now _) (clearAllRingsIfActive_releases id _))
  refine Rests.trans (Rests.trans hclear ?_) (Rests.trans (Releases.entry fun e _ =>
    RingRelation.same (markCommandExitSeen_sameRings now e)) (Publishes.notify id _))
  split
  · exact Releases.entry fun _ _ => RingRelation.same (.of_eq rfl rfl rfl rfl)
  · exact Rests.refl _

theorem dismissAlert_releases (id : Id) (m : AlertManager) : R m (m.dismissAlert id) := by
  rw [dismissAlert]
  split
  · exact Rests.refl m
  dsimp only
  have hedit : R m _ := Rests.trans (clearAllRingsIfActive_releases id m)
    (modifyFlags_releases id (m.clearAllRingsIfActive id).1
      (fun e => (m.clearAllRingsIfActive id).2 || e.todo) (fun _ => false) (·.notification))
  split
  · exact Rests.trans hedit (Publishes.notify id _)
  · exact hedit

theorem toggleTodo_releases (id : Id) (m : AlertManager) : R m (m.toggleTodo id) := by
  rw [toggleTodo]
  split
  · exact Rests.refl m
  · exact Rests.trans (Releases.create id m) (Rests.trans (modifyFlags_releases id _ (fun e => !e.todo)
      (·.attentionDismissedRing) (fun e => if e.todo then none else e.notification))
        (Rests.trans (clearAllRingsIfActive_releases id _) (Publishes.notify id _)))

theorem markTodo_releases (id : Id) (m : AlertManager) : R m (m.markTodo id) := by
  have hclear : R m _ :=
    Rests.trans (Releases.create id m) (clearAllRingsIfActive_releases id (m.getOrCreateEntry id))
  rw [markTodo]
  split
  · exact Rests.refl m
  · dsimp only
    split
    · exact hclear
    · exact Rests.trans hclear (Rests.trans (modifyFlags_releases id _ (fun _ => true)
        (·.attentionDismissedRing) (·.notification)) (Publishes.notify id _))

theorem clearTodo_releases (id : Id) (m : AlertManager) : R m (m.clearTodo id) := by
  rw [clearTodo]
  split
  · exact Rests.refl m
  · exact Rests.trans (Releases.create id m) (Rests.trans (modifyFlags_releases id _ (fun _ => false)
      (·.attentionDismissedRing) (fun _ => none))
        (Rests.trans (clearAllRingsIfActive_releases id _) (Publishes.notify id _)))

theorem replaceWatchedCommands_releases (next : Finset JsString) (m : AlertManager) :
    R m (m.replaceWatchedCommands next) := by
  rw [replaceWatchedCommands]
  split
  · exact Rests.refl m
  · refine Rests.trans (Releases.rules next m) (foldl_rests (fun m id => ?_) _ _)
    exact Rests.trans (Releases.entry fun e _ => withRules_releasing _ e) (Publishes.notify id _)

theorem setCommandWatched_releases (name : JsString) (watched : Bool) (m : AlertManager) :
    R m (m.setCommandWatched name watched) := by
  rw [setCommandWatched]
  split
  · exact Rests.refl m
  · exact replaceWatchedCommands_releases _ m

theorem consumeAwaitableRing_releases (id : Id) (awaitUntil : AwaitUntil) (m : AlertManager) :
    R m (m.consumeAwaitableRing id awaitUntil).1 := by
  rw [consumeAwaitableRing]
  split
  · exact Rests.refl m
  split
  · exact releaseRing_releases ..
  · split
    · exact releaseRing_releases ..
    · split
      · exact releaseRing_releases ..
      · exact Rests.refl m

theorem activeProgress_releases (id : Id) (progress : ActiveProtocolProgress) (m : AlertManager) :
    R m (m.activeProgress id progress) := by
  rw [activeProgress]
  split
  · exact Rests.refl m
  refine Rests.trans (Releases.entry fun e _ => ?_) (Publishes.notify id _)
  refine ⟨fun track h => ?_, rfl⟩
  cases track with
  | protocol => exact absurd h Bool.false_ne_true
  | commandExit => exact h
  | watching => exact h

theorem seed_releases (id : Id) (todo : Bool) (notification : UnknownNotification)
    (m : AlertManager) : R m (m.seed id todo notification) := by
  rw [seed]
  split
  · exact Rests.refl m
  · refine Rests.trans (Releases.create id m) (Rests.trans (Releases.entry fun e _ => ?_)
      (Rests.trans (modifyDetector_releases ..) (Publishes.notify id _)))
    refine ⟨fun track h => ?_, rfl⟩
    cases track <;> exact absurd h Bool.false_ne_true

end Releases

end AlertManager

end Dormouse.Alert
