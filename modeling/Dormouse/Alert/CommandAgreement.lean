import Dormouse.Alert.Effects
import Dormouse.Terminal.PaneState

/-!
# Dormouse.Alert.CommandAgreement

**The two projections of the command lifecycle**: the current command of the terminal state,
whose name keys the rule that the bell edits, and the command watch of the alert manager, whose
name keys the rule that it applies.

Both stage the reported command line and consume it at a start. They drop a line that no start
consumed at different times: the reducer at a prompt, the manager at a finish too. So they agree
until a start takes a line that a finish came after.
-/

namespace Dormouse.Alert

open Terminal

/-! ### What stays beside the command -/

/-- What both projections have of a command that runs. -/
structure RunningCommand where
  argv0 : Option JsString
  source : CommandRunSource
  startedAt : Ms

/-- The staged command line of an entry, and the command that it watches. -/
def AlertEntry.command (e : AlertEntry) : Option JsString × Option RunningCommand :=
  (e.pendingCommandLine, e.commandExitWatch.map fun watch =>
    ⟨watch.argv0, watch.source, watch.startedAt⟩)

namespace AlertManager

open AlertEntry

/-- The same of a Session; none when it has no entry. -/
def command (m : AlertManager) (id : Id) : Option (Option JsString × Option RunningCommand) :=
  (m.entries.get id).map AlertEntry.command

/-- The manager moved on without touching the foreground command of `id`. -/
structure Beside (id : Id) (m m' : AlertManager) : Prop where
  helpers : m'.helpers = m.helpers
  command : m'.command id = m.command id

variable {id : Id} {m : AlertManager}

theorem Beside.refl (id : Id) (m : AlertManager) : Beside id m m := ⟨rfl, rfl⟩

theorem Beside.trans {a b c : AlertManager} (hab : Beside id a b) (hbc : Beside id b c) :
    Beside id a c :=
  ⟨hbc.helpers.trans hab.helpers, hbc.command.trans hab.command⟩

theorem Quiet.beside {m' : AlertManager} (h : Quiet m m') (hhelpers : m'.helpers = m.helpers) :
    Beside id m m' :=
  ⟨hhelpers, by rw [AlertManager.command, h.entries, AlertManager.command]⟩

theorem helpers_modifyEntry (id : Id) (f : AlertEntry → AlertEntry) (m : AlertManager) :
    (m.modifyEntry id f).helpers = m.helpers := by
  rw [modifyEntry]
  split <;> rfl

theorem modifyEntry_beside {f : AlertEntry → AlertEntry} (hf : ∀ e, (f e).command = e.command) :
    Beside id m (m.modifyEntry id f) where
  helpers := helpers_modifyEntry id f m
  command := by
    rw [command, (modifyEntry_edits id f m).get_self, Option.map_map, command]
    congr 1
    exact funext hf

theorem notify_beside : Beside id m (m.notify id) := by
  refine (notify_quiet id m).beside ?_
  rw [notify]
  split <;> rfl

theorem modifyDetector_beside (f : QuiesceDetector → QuiesceDetector) :
    Beside id m (m.modifyDetector id f) := by
  rw [modifyDetector]
  split
  · exact .refl id m
  have hedit : Beside id m (m.modifyEntry id fun e => { e with detector := f e.detector }) :=
    modifyEntry_beside fun _ => rfl
  split
  · exact hedit.trans notify_beside
  · exact hedit

theorem clearGrace_beside (p : AwaitWaiter → Bool) : Beside id m (m.clearGrace id p) := by
  refine (clearGrace_quiet id p m).beside ?_
  rw [clearGrace]
  split <;> rfl

theorem settle_beside (handle : Nat) (outcome : AwaitOutcome) :
    Beside id m (m.settle id handle outcome) := by
  have hdrop : (m.dropWaiter id handle).helpers = m.helpers := by
    rw [dropWaiter]
    split
    · rfl
    · dsimp only
      split
      · rw [unregisterClaimant]
        split <;> rfl
      · rfl
  rw [settle]
  split
  · have hsettled : Beside id m
        { m.dropWaiter id handle with
          outcomes := (m.dropWaiter id handle).outcomes ++ [(handle, outcome)] } :=
      ⟨hdrop, by rw [command, command, (dropWaiter_quiet id handle m).entries]⟩
    exact hsettled.trans notify_beside
  · exact .refl id m

theorem offerWaiters_beside (event : CompletionEvent) (now : Ms) (waiters : List AwaitWaiter) :
    ∀ m : AlertManager, Beside id m (offerWaiters id event now waiters m).1 := by
  induction waiters with
  | nil => exact .refl id
  | cons waiter waiters ih =>
    intro m
    rw [offerWaiters]
    split
    · exact ih m
    · exact (settle_beside ..).trans (ih _)

theorem offerClaimants_beside (event : CompletionEvent) (now : Ms) (claimants : List Claimant) :
    ∀ m : AlertManager, Beside id m (offerClaimants id event now claimants m).1 := by
  induction claimants with
  | nil => exact .refl id
  | cons claimant claimants ih =>
    intro m
    cases claimant with
    | callback key answer asked =>
      have hasked : Beside id m (m.countAsked id key) := ⟨rfl, rfl⟩
      rw [offerClaimants]
      split
      · exact hasked
      · exact hasked.trans (ih _)
    | parked =>
      have h : Beside id m (offerWaiters id event now ((m.awaits.get id).getD []) m).1 :=
        offerWaiters_beside ..
      rw [offerClaimants]
      split
      · next heq => rwa [heq] at h
      · next heq =>
          rw [heq] at h
          exact h.trans (ih _)

/-! ### Completions -/

theorem command_latchRing (wasRinging : Bool) (e : AlertEntry) :
    (e.latchRing wasRinging).command = e.command := by
  rw [latchRing]
  split <;> rfl

theorem command_applyProtocolRinging (notification : ActivityNotification) (e : AlertEntry) :
    (e.applyProtocolRinging notification).command = e.command :=
  command_latchRing _ e

theorem command_applyCommandExitRinging (displayCommand : JsString) (exitCode : Option Int)
    (e : AlertEntry) :
    (e.applyCommandExitRinging displayCommand exitCode).command = e.command :=
  command_latchRing _ e

theorem command_applyWatchingRinging (e : AlertEntry) :
    e.applyWatchingRinging.command = e.command :=
  command_latchRing _ e

theorem flushDeferredNotification_beside : Beside id m (m.flushDeferredNotification id) := by
  rw [flushDeferredNotification]
  split
  · exact .refl id m
  have hclear : Beside id m (m.modifyEntry id clearDeferredNotification) :=
    modifyEntry_beside fun _ => rfl
  dsimp only
  split
  · exact hclear
  · exact (hclear.trans (modifyEntry_beside (command_applyProtocolRinging _))).trans
      notify_beside

theorem deferOrDeliverNotification_beside (notification : ActivityNotification) (now : Ms) :
    Beside id m (m.deferOrDeliverNotification id notification now) := by
  rw [deferOrDeliverNotification]
  split
  · exact .refl id m
  split
  · refine Beside.trans (modifyEntry_beside ?_) notify_beside
    exact fun _ => rfl
  · refine Beside.trans (modifyEntry_beside ?_) notify_beside
    exact fun e => command_applyProtocolRinging notification e.clearDeferredNotification

theorem ringRule_beside (event : CompletionEvent) (now : Ms) :
    Beside id m (m.ringRule id event now) := by
  rw [ringRule]
  split
  · exact .refl id m
  cases event with
  | settled =>
    dsimp only
    split
    · exact .refl id m
    · exact (modifyEntry_beside command_applyWatchingRinging).trans notify_beside
  | commandFinished displayCommand argv0 exitCode ranMs armed =>
    dsimp only
    split
    · exact .refl id m
    have hring : Beside id m
        (m.modifyEntry id (applyCommandExitRinging displayCommand exitCode)) :=
      modifyEntry_beside (command_applyCommandExitRinging displayCommand exitCode)
    split
    · exact hring.trans flushDeferredNotification_beside
    · exact hring.trans notify_beside
  | notification notification =>
    dsimp only
    split
    · exact notify_beside
    · exact deferOrDeliverNotification_beside notification now

theorem dispatchCompletion_beside (event : CompletionEvent) (now : Ms) :
    Beside id m (m.dispatchCompletion id event now).1 := by
  have hoffer : Beside id m (offerClaimants id event now ((m.claimants.get id).getD []) m).1 :=
    offerClaimants_beside ..
  rw [dispatchCompletion]
  split
  · next heq => rwa [heq] at hoffer
  · next heq =>
      rw [heq] at hoffer
      exact hoffer.trans (ringRule_beside ..)

/-! ### The events -/

/-- What an event makes of the staged line and the watched command. -/
def commandStep (now : Ms) (staged : Option JsString × Option RunningCommand) :
    TerminalSemanticEvent → Option JsString × Option RunningCommand
  | .commandLine commandLine => (some commandLine, staged.2)
  | .commandStart source startedAt =>
    let resolved := resolveCommandStart staged.1 source startedAt now DEFAULT_COMMAND_TITLE
    (none, some ⟨resolved.rawCommandLine.bind commandArgv0, resolved.source, resolved.startedAt⟩)
  | .commandFinish _ _ | .promptStart | .promptEnd => (none, none)
  | .cwd _ | .title _ => staged

theorem startCommandExitWatch_command (source : Option CommandRunSource) (startedAt : Option Ms)
    (now : Ms) {staged : Option JsString × Option RunningCommand}
    (hstaged : m.command id = some staged) :
    (m.startCommandExitWatch id source startedAt now).helpers = m.helpers ∧
      (m.startCommandExitWatch id source startedAt now).command id =
        some (commandStep now staged (.commandStart source startedAt)) := by
  obtain ⟨e, he, rfl⟩ := Option.map_eq_some_iff.1 hstaged
  rw [startCommandExitWatch]
  refine ⟨?_, ?_⟩
  · exact (@clearGrace_beside id _ _).helpers.trans
      ((modifyDetector_beside _).helpers.trans (helpers_modifyEntry ..))
  · rw [(clearGrace_beside _).command, (modifyDetector_beside _).command, command,
      (modifyEntry_edits ..).get_self, he]
    rfl

theorem finishCommandExitWatch_command (exitCode : Option Int) (now : Ms)
    {staged : Option JsString × Option RunningCommand} (hstaged : m.command id = some staged) :
    (m.finishCommandExitWatch id exitCode now).1.helpers = m.helpers ∧
      (m.finishCommandExitWatch id exitCode now).1.command id = some (none, none) := by
  obtain ⟨e, he, rfl⟩ := Option.map_eq_some_iff.1 hstaged
  have hcleared : ∀ f : AlertEntry → AlertEntry, (∀ e, (f e).command = (none, none)) →
      (m.modifyEntry id f).command id = some (none, none) := by
    intro f hf
    rw [command, (modifyEntry_edits id f m).get_self, he]
    exact congrArg some (hf e)
  rw [finishCommandExitWatch, he]
  dsimp only
  split
  · exact ⟨(@modifyDetector_beside id _ _).helpers.trans (helpers_modifyEntry ..),
      (modifyDetector_beside _).command.trans (hcleared _ fun _ => rfl)⟩
  · exact ⟨(@modifyDetector_beside id _ _).helpers.trans
        ((@dispatchCompletion_beside id _ _ _).helpers.trans (helpers_modifyEntry ..)),
      (modifyDetector_beside _).command.trans
        ((dispatchCompletion_beside _ _).command.trans (hcleared _ fun _ => rfl))⟩

/-- A prompt clears what is staged or watched. -/
theorem prompt_command (now : Ms) {staged : Option JsString × Option RunningCommand}
    (hstaged : m.command id = some staged) (event : TerminalSemanticEvent)
    (hprompt : event = .promptStart ∨ event = .promptEnd) :
    (m.semanticEvent id now event).1.helpers = m.helpers ∧
      (m.semanticEvent id now event).1.command id = some (none, none) := by
  have heq : m.semanticEvent id now event =
      if (m.entries.get id).any fun e => e.pendingCommandLine ≠ none ∨ e.commandExitWatch ≠ none then
        ((m.finishCommandExitWatch id none now).1, true)
      else (m.modifyDetector id .reset, false) := by
    rcases hprompt with rfl | rfl
    · rfl
    · rfl
  rw [heq]
  split
  · exact finishCommandExitWatch_command none now hstaged
  next hidle =>
  obtain ⟨e, he, rfl⟩ := Option.map_eq_some_iff.1 hstaged
  have hreset : Beside id m (m.modifyDetector id .reset) := modifyDetector_beside _
  refine ⟨hreset.helpers, hreset.command.trans (hstaged.trans ?_)⟩
  rw [he, Option.any_some, decide_eq_true_iff, not_or, not_not, not_not] at hidle
  rw [AlertEntry.command, hidle.1, hidle.2]
  rfl

theorem semanticEvent_command (now : Ms) {staged : Option JsString × Option RunningCommand}
    (hstaged : m.command id = some staged) (event : TerminalSemanticEvent) :
    (m.semanticEvent id now event).1.helpers = m.helpers ∧
      (m.semanticEvent id now event).1.command id = some (commandStep now staged event) := by
  cases event with
  | commandLine commandLine =>
    obtain ⟨e, he, rfl⟩ := Option.map_eq_some_iff.1 hstaged
    rw [semanticEvent]
    split
    · refine ⟨helpers_modifyEntry .., ?_⟩
      rw [command, (modifyEntry_edits ..).get_self, he]
      rfl
    · next hsame =>
      refine ⟨rfl, hstaged.trans ?_⟩
      rw [he, Option.any_some, decide_eq_true_iff, not_not] at hsame
      rw [commandStep, AlertEntry.command, hsame]
  | commandStart source startedAt => exact startCommandExitWatch_command source startedAt now hstaged
  | commandFinish exitCode finishedAt => exact finishCommandExitWatch_command exitCode now hstaged
  | cwd cwd => exact ⟨rfl, hstaged⟩
  | title title => exact ⟨rfl, hstaged⟩
  | promptStart => exact prompt_command now hstaged _ (.inl rfl)
  | promptEnd => exact prompt_command now hstaged _ (.inr rfl)

theorem semanticEvents_command (now : Ms) (events : List TerminalSemanticEvent) :
    ∀ (m : AlertManager) {staged : Option JsString × Option RunningCommand},
      m.command id = some staged →
      (semanticEvents id now events m).1.helpers = m.helpers ∧
        (semanticEvents id now events m).1.command id =
          some (events.foldl (commandStep now) staged) := by
  induction events with
  | nil => exact fun m staged hstaged => ⟨rfl, hstaged⟩
  | cons event events ih =>
    intro m staged hstaged
    obtain ⟨hhelpers, hcommand⟩ := semanticEvent_command now hstaged event
    obtain ⟨hhelpers', hcommand'⟩ := ih _ hcommand
    exact ⟨hhelpers'.trans hhelpers, hcommand'⟩

/-- A Session that has no entry yet gets one. -/
theorem reportedEntry_command (id : Id) (m : AlertManager) :
    (m.reportedEntry id).helpers = m.helpers ∧
      (m.reportedEntry id).command id = some ((m.command id).getD (none, none)) := by
  rw [reportedEntry, getOrCreateEntry]
  split
  · next hhas =>
    obtain ⟨e, he⟩ := Option.isSome_iff_exists.1 hhas
    refine ⟨rfl, ?_⟩
    rw [command, command, he]
    rfl
  · next hnone =>
    have hget : m.entries.get id = none := by simpa [InsertionMap.has] using hnone
    refine ⟨rfl, ?_⟩
    rw [command, command, InsertionMap.get_set_self, hget]
    rfl

/-- However the events are put together in reports. -/
theorem applyTerminalSemanticEvents_command (events : List TerminalSemanticEvent) (now : Ms)
    (hsome : events ≠ []) (hhelper : id ∉ m.helpers) :
    (m.applyTerminalSemanticEvents id events now).helpers = m.helpers ∧
      (m.applyTerminalSemanticEvents id events now).command id =
        some (events.foldl (commandStep now) ((m.command id).getD (none, none))) := by
  obtain ⟨hreported, hstaged⟩ := reportedEntry_command id m
  obtain ⟨hhelpers, hcommand⟩ := semanticEvents_command now events _ hstaged
  have hgo : (events.isEmpty || decide (id ∈ m.helpers)) = false := by
    rw [Bool.or_eq_false_iff, decide_eq_false_iff_not]
    exact ⟨List.isEmpty_eq_false_iff.2 hsome, hhelper⟩
  rw [applyTerminalSemanticEvents, hgo, if_neg Bool.false_ne_true]
  split
  · next m' heq =>
    rw [heq] at hhelpers hcommand
    have hnotify : Beside id m' (m'.notify id) := notify_beside
    exact ⟨hnotify.helpers.trans (hhelpers.trans hreported), hnotify.command.trans hcommand⟩
  · next heq =>
    rw [heq] at hhelpers hcommand
    exact ⟨hhelpers.trans hreported, hcommand⟩

end AlertManager

/-! ### Both projections -/

/-- A report of the parser: the event, its time there, and the times at which the reducer and
the manager are handed it. -/
structure CommandReport where
  event : TerminalSemanticEvent
  timestamp : Ms
  reducedAt : Ms
  createId : JsString
  appliedAt : Ms

/-- The event as it is handed on. -/
def CommandReport.semantic (report : CommandReport) : TerminalSemanticEvent :=
  timestampSemanticEvent report.timestamp report.event

/-- The terminal state of a Session and the alert manager. `line` is not in the source: the raw
command line that the manager's watch was made of, of which the watch has the name. -/
structure Projections where
  state : TerminalPaneState
  alerts : AlertManager
  line : Option JsString

namespace Projections

variable {id : Id} {p : Projections}

/-- Nothing has been reported of the Session. -/
structure Fresh (id : Id) (p : Projections) : Prop where
  state : p.state = DEFAULT_TERMINAL_PANE_STATE
  entry : p.alerts.entries.get id = none
  helper : id ∉ p.alerts.helpers

/-- One event, handed to both. -/
def feed (id : Id) (p : Projections) (report : CommandReport) : Projections where
  state := reduceTerminalState report.reducedAt report.createId p.state report.semantic
  alerts := p.alerts.applyTerminalSemanticEvents id [report.semantic] report.appliedAt
  line :=
    match report.event with
    | .commandStart _ _ => (p.alerts.command id).bind Prod.fst
    | _ => p.line

def run (id : Id) (p : Projections) (reports : List CommandReport) : Projections :=
  reports.foldl (feed id) p

/-- A command runs in both or in neither, and in both it is the same. -/
def Agree (id : Id) (p : Projections) : Prop :=
  (p.state.currentCommand.isSome ↔ ((p.alerts.entries.get id).bind (·.commandExitWatch)).isSome) ∧
    ∀ command watch, p.state.currentCommand = some command →
      (p.alerts.entries.get id).bind (·.commandExitWatch) = some watch →
      p.line = command.rawCommandLine ∧
        watch.argv0 = command.rawCommandLine.bind commandArgv0 ∧
        watch.argv0 = getRunningCommandArgv0 p.state ∧
        watch.source = command.source ∧ watch.startedAt = command.startedAt

/-- The line that the manager has staged. -/
def staged (id : Id) (p : Projections) : Option JsString := (p.alerts.command id).bind Prod.fst

/-- The command that the manager watches. -/
def running (id : Id) (p : Projections) : Option RunningCommand :=
  (p.alerts.command id).bind Prod.snd

theorem running_eq (id : Id) (p : Projections) :
    p.running id = ((p.alerts.entries.get id).bind (·.commandExitWatch)).map fun watch =>
      ⟨watch.argv0, watch.source, watch.startedAt⟩ := by
  rw [running, AlertManager.command]
  cases p.alerts.entries.get id with
  | none => rfl
  | some e => rfl

theorem argv0_of_currentCommand {state : TerminalPaneState} {command : CommandRun}
    (h : state.currentCommand = some command) :
    getRunningCommandArgv0 state = command.rawCommandLine.bind commandArgv0 := by
  rw [getRunningCommandArgv0, h, Option.bind_some]
  cases command.rawCommandLine with
  | none => rfl
  | some raw =>
    by_cases hempty : raw = []
    · subst hempty
      rfl
    · exact if_neg hempty

/-- Agreement, with all that the watch has of the command at once. -/
theorem agree_iff (id : Id) (p : Projections) :
    p.Agree id ↔ (p.state.currentCommand = none ∧ p.running id = none) ∨
      ∃ command, p.state.currentCommand = some command ∧ p.line = command.rawCommandLine ∧
        p.running id =
          some ⟨command.rawCommandLine.bind commandArgv0, command.source, command.startedAt⟩ := by
  rw [Agree, running_eq]
  rcases hcommand : p.state.currentCommand with _ | command
  · cases (p.alerts.entries.get id).bind (·.commandExitWatch) <;> simp
  rcases (p.alerts.entries.get id).bind (·.commandExitWatch) with _ | watch
  · simp
  simp only [argv0_of_currentCommand hcommand, Option.isSome_some, Option.some.injEq,
    Option.map_some, RunningCommand.mk.injEq, reduceCtorEq, false_and, false_or,
    exists_eq_left', true_and]
  constructor
  · intro h
    obtain ⟨hline, hargv0, -, hsource, hstarted⟩ := h command watch rfl rfl
    exact ⟨hline, hargv0, hsource, hstarted⟩
  · rintro ⟨hline, hargv0, hsource, hstarted⟩ _ _ rfl rfl
    exact ⟨hline, hargv0, hargv0, hsource, hstarted⟩

/-- What one event does to the manager's side. -/
theorem feed_alerts (hhelper : id ∉ p.alerts.helpers) (report : CommandReport) :
    id ∉ (p.feed id report).alerts.helpers ∧
      ((p.feed id report).staged id, (p.feed id report).running id) =
        AlertManager.commandStep report.appliedAt (p.staged id, p.running id) report.semantic := by
  obtain ⟨hhelpers, hcommand⟩ := AlertManager.applyTerminalSemanticEvents_command
    (m := p.alerts) [report.semantic] report.appliedAt (List.cons_ne_nil _ _) hhelper
  refine ⟨?_, ?_⟩
  · change id ∉ (p.alerts.applyTerminalSemanticEvents id [report.semantic] _).helpers
    rwa [hhelpers]
  · have hstart : (p.alerts.command id).getD (none, none) = (p.staged id, p.running id) := by
      rw [staged, running]
      cases p.alerts.command id with
      | none => rfl
      | some staged => rfl
    rw [hstart] at hcommand
    rw [staged, running]
    change ((AlertManager.command (p.alerts.applyTerminalSemanticEvents id [report.semantic] _)
      id).bind Prod.fst, (AlertManager.command (p.alerts.applyTerminalSemanticEvents id
        [report.semantic] _) id).bind Prod.snd) = _
    rw [hcommand]
    rfl

end Projections

/-! ### Left-over lines -/

/-- Whether the reducer keeps a staged line over the event. -/
def keepsLine : TerminalSemanticEvent → Bool
  | .cwd _ | .title _ | .commandFinish _ _ => true
  | _ => false

def isFinish : TerminalSemanticEvent → Bool
  | .commandFinish _ _ => true
  | _ => false

/-- A start takes a line that was reported before a finish, with no other line, start or prompt
since. -/
def TakesLeftOver (events : List TerminalSemanticEvent) : Prop :=
  ∃ before line since source startedAt rest,
    events = before ++ .commandLine line :: since ++ .commandStart source startedAt :: rest ∧
      (∀ event ∈ since, keepsLine event = true) ∧ ∃ event ∈ since, isFinish event = true

theorem TakesLeftOver.append {events : List TerminalSemanticEvent} (h : TakesLeftOver events)
    (more : List TerminalSemanticEvent) : TakesLeftOver (events ++ more) := by
  obtain ⟨before, line, since, source, startedAt, rest, rfl, hkeeps, hfinish⟩ := h
  exact ⟨before, line, since, source, startedAt, rest ++ more, by simp, hkeeps, hfinish⟩

namespace Projections

variable {id : Id}

/-- What is staged after the events: the reducer's line is the last one reported, and the
manager's is the same unless a finish came since. -/
structure Staged (id : Id) (events : List TerminalSemanticEvent) (p : Projections) : Prop where
  helper : id ∉ p.alerts.helpers
  none : p.state.pendingCommandLine = none → p.staged id = none
  some : ∀ line, p.state.pendingCommandLine = some line → ∃ before since,
    events = before ++ .commandLine line :: since ∧ (∀ event ∈ since, keepsLine event = true) ∧
      (p.staged id = some line ∨ p.staged id = Option.none ∧ ∃ event ∈ since, isFinish event = true)

theorem Fresh.staged {p : Projections} (h : p.Fresh id) : Staged id [] p where
  helper := h.helper
  none _ := by
    rw [Projections.staged, AlertManager.command, h.entry]
    rfl
  some line hline := by
    rw [h.state] at hline
    cases hline

theorem Fresh.agree {p : Projections} (h : p.Fresh id) : p.Agree id := by
  refine (agree_iff id p).2 (.inl ⟨by rw [h.state]; rfl, ?_⟩)
  rw [running, AlertManager.command, h.entry]
  rfl

/-- An event over which the reducer keeps its line; a finish takes the manager's. -/
theorem feed_keeps {p : Projections} (hhelper : id ∉ p.alerts.helpers) (report : CommandReport)
    (hkeeps : keepsLine report.event = true) :
    (p.feed id report).state.pendingCommandLine = p.state.pendingCommandLine ∧
      (p.feed id report).staged id =
        if isFinish report.event = true then Option.none else p.staged id := by
  obtain ⟨-, hstep⟩ := feed_alerts hhelper report
  obtain ⟨event, timestamp, reducedAt, createId, appliedAt⟩ := report
  have hstaged := congrArg Prod.fst hstep
  cases event with
  | cwd cwd =>
    refine ⟨?_, hstaged⟩
    change (reduceTerminalState reducedAt createId p.state (.cwd _)).pendingCommandLine = _
    rw [reduceTerminalState]
    split <;> rfl
  | title title => exact ⟨rfl, hstaged⟩
  | commandFinish exitCode finishedAt =>
    refine ⟨?_, hstaged⟩
    change (reduceTerminalState reducedAt createId p.state
      (.commandFinish exitCode _)).pendingCommandLine = _
    rw [reduceTerminalState]
    split <;> rfl
  | commandLine line => cases hkeeps
  | commandStart source startedAt => cases hkeeps
  | promptStart => cases hkeeps
  | promptEnd => cases hkeeps

theorem Staged.keeps {events : List TerminalSemanticEvent} {p q : Projections}
    (h : Staged id events p) {event : TerminalSemanticEvent} (hkeeps : keepsLine event = true)
    (hhelper : id ∉ q.alerts.helpers)
    (hpending : q.state.pendingCommandLine = p.state.pendingCommandLine)
    (hstaged : q.staged id = if isFinish event = true then Option.none else p.staged id) :
    Staged id (events ++ [event]) q where
  helper := hhelper
  none hnone := by
    rw [hstaged, h.none (hpending ▸ hnone)]
    exact ite_self _
  some line hline := by
    obtain ⟨before, since, rfl, hsince, hline'⟩ := h.some line (hpending ▸ hline)
    refine ⟨before, since ++ [event], by simp, fun e he => ?_, ?_⟩
    · rcases List.mem_append.1 he with he | he
      · exact hsince e he
      · rwa [List.mem_singleton.1 he]
    · rw [hstaged]
      by_cases hfinish : isFinish event = true
      · rw [if_pos hfinish]
        exact .inr ⟨rfl, event, List.mem_append_right _ (List.mem_singleton_self _), hfinish⟩
      · rw [if_neg hfinish]
        refine hline'.imp_right fun ⟨hnone, finish, hmem, his⟩ => ?_
        exact ⟨hnone, finish, List.mem_append_left _ hmem, his⟩

/-- An event after which nothing is staged. -/
theorem Staged.clears {events : List TerminalSemanticEvent} {q : Projections}
    (hhelper : id ∉ q.alerts.helpers) (hpending : q.state.pendingCommandLine = Option.none)
    (hstaged : q.staged id = Option.none) : Staged id events q where
  helper := hhelper
  none _ := hstaged
  some line hline := by
    rw [hpending] at hline
    cases hline

theorem Staged.feed {events : List TerminalSemanticEvent} {p : Projections}
    (h : Staged id events p) (report : CommandReport) :
    Staged id (events ++ [report.event]) (p.feed id report) := by
  obtain ⟨hhelper, hstep⟩ := feed_alerts h.helper report
  by_cases hkeeps : keepsLine report.event = true
  · obtain ⟨hpending, hstaged⟩ := feed_keeps h.helper report hkeeps
    exact h.keeps hkeeps hhelper hpending hstaged
  obtain ⟨event, timestamp, reducedAt, createId, appliedAt⟩ := report
  have hstaged := congrArg Prod.fst hstep
  cases event with
  | cwd cwd => exact absurd rfl hkeeps
  | title title => exact absurd rfl hkeeps
  | commandFinish exitCode finishedAt => exact absurd rfl hkeeps
  | commandLine line =>
    refine ⟨hhelper, (fun h => by cases h), fun line' hline => ?_⟩
    obtain rfl := Option.some.inj hline
    exact ⟨events, [], rfl, List.forall_mem_nil _, .inl hstaged⟩
  | commandStart source startedAt => exact .clears hhelper rfl hstaged
  | promptStart => exact .clears hhelper rfl hstaged
  | promptEnd => exact .clears hhelper rfl hstaged

/-- The projections go on to agree, unless a start takes a left-over line. -/
theorem Agree.feed {events : List TerminalSemanticEvent} {p : Projections}
    (h : p.Agree id) (hp : Staged id events p) (report : CommandReport)
    (hlines : ¬ TakesLeftOver (events ++ [report.event])) : (p.feed id report).Agree id := by
  obtain ⟨-, hstep⟩ := feed_alerts hp.helper report
  obtain ⟨event, timestamp, reducedAt, createId, appliedAt⟩ := report
  have hrunning := congrArg Prod.snd hstep
  -- An event that starts and ends no command.
  have hsame : ∀ q : Projections, q.state.currentCommand = p.state.currentCommand →
      q.line = p.line → q.running id = p.running id → q.Agree id := by
    intro q hcommand hline hrunning
    rw [agree_iff, hcommand, hline, hrunning, ← agree_iff]
    exact h
  cases event with
  | cwd cwd =>
    refine hsame _ ?_ rfl hrunning
    change (reduceTerminalState reducedAt createId p.state (.cwd _)).currentCommand = _
    rw [reduceTerminalState]
    split <;> rfl
  | title title => exact hsame _ rfl rfl hrunning
  | commandLine line => exact hsame _ rfl rfl hrunning
  | promptStart => exact (agree_iff ..).2 (.inl ⟨rfl, hrunning⟩)
  | promptEnd => exact (agree_iff ..).2 (.inl ⟨rfl, hrunning⟩)
  | commandFinish exitCode finishedAt =>
    refine (agree_iff ..).2 (.inl ⟨?_, hrunning⟩)
    change (reduceTerminalState reducedAt createId p.state
      (.commandFinish exitCode _)).currentCommand = none
    rw [reduceTerminalState]
    split
    · assumption
    · rfl
  | commandStart source startedAt =>
    have hline : p.staged id = p.state.pendingCommandLine := by
      cases hpending : p.state.pendingCommandLine with
      | none => exact hp.none hpending
      | some line =>
        obtain ⟨before, since, rfl, hsince, hstaged | ⟨-, hfinish⟩⟩ := hp.some line hpending
        · exact hstaged
        · exact absurd ⟨before, line, since, source, startedAt, [], rfl, hsince, hfinish⟩ hlines
    refine (agree_iff ..).2 (.inr ⟨_, rfl, hline, ?_⟩)
    refine Eq.trans hrunning ?_
    rw [hline]
    rfl

theorem run_append (p : Projections) (reports more : List CommandReport) :
    p.run id (reports ++ more) = (p.run id reports).run id more :=
  List.foldl_append

/-- The run, by induction on its end. -/
theorem run_kept {p : Projections} (hp : p.Fresh id) (reports : List CommandReport) :
    Staged id (reports.map (·.event)) (p.run id reports) ∧
      (¬ TakesLeftOver (reports.map (·.event)) → (p.run id reports).Agree id) := by
  induction reports using List.reverseRecOn with
  | nil => exact ⟨hp.staged, fun _ => hp.agree⟩
  | append_singleton reports report ih =>
    obtain ⟨hstaged, hagree⟩ := ih
    rw [List.map_append, List.map_singleton, run_append]
    refine ⟨hstaged.feed report, fun hlines => ?_⟩
    exact (hagree fun h => hlines (h.append _)).feed hstaged report hlines

/-- Over events that keep the line, the reducer keeps it, and the manager not past a finish. -/
theorem run_since {since : List CommandReport} :
    ∀ {p : Projections}, id ∉ p.alerts.helpers →
      (∀ report ∈ since, keepsLine report.event = true) →
      id ∉ (p.run id since).alerts.helpers ∧
        (p.run id since).state.pendingCommandLine = p.state.pendingCommandLine ∧
        (p.staged id = none ∨ (∃ report ∈ since, isFinish report.event = true) →
          (p.run id since).staged id = none) := by
  induction since with
  | nil => exact fun hhelper _ => ⟨hhelper, rfl, fun h =>
    h.resolve_right fun ⟨_, hmem, _⟩ => nomatch hmem⟩
  | cons report since ih =>
    intro p hhelper hkeeps
    obtain ⟨hhelper', -⟩ := feed_alerts hhelper report
    obtain ⟨hpending, hstaged'⟩ := feed_keeps hhelper report (hkeeps report List.mem_cons_self)
    obtain ⟨hhelpers, hrest, hnone⟩ :=
      ih hhelper' fun r hr => hkeeps r (List.mem_cons_of_mem _ hr)
    refine ⟨hhelpers, hrest.trans hpending, fun h => hnone ?_⟩
    rw [hstaged']
    by_cases hfinish : isFinish report.event = true
    · exact .inl (if_pos hfinish)
    · rw [if_neg hfinish]
      refine h.imp_right fun ⟨finish, hmem, his⟩ => ?_
      rcases List.mem_cons.1 hmem with rfl | hmem
      · exact absurd his hfinish
      · exact ⟨finish, hmem, his⟩

/-- A start that takes a left-over line has a line only in the reducer. -/
theorem not_agree_of_leftOver {p : Projections} {before since : List CommandReport}
    {reported started : CommandReport} {line : JsString} {source : Option CommandRunSource}
    {startedAt : Option Ms} (hhelper : id ∉ (p.run id before).alerts.helpers)
    (hreported : reported.event = .commandLine line)
    (hstarted : started.event = .commandStart source startedAt)
    (hkeeps : ∀ report ∈ since, keepsLine report.event = true)
    (hfinish : ∃ report ∈ since, isFinish report.event = true) :
    ¬ (p.run id (before ++ reported :: since ++ [started])).Agree id := by
  rw [run_append, run_append]
  change ¬ ((((p.run id before).feed id reported).run id since).feed id started).Agree id
  obtain ⟨hhelper', -⟩ := feed_alerts hhelper reported
  obtain ⟨-, hpending, hstaged⟩ := run_since hhelper' hkeeps
  have hnone := hstaged (.inr hfinish)
  have hsome : ((p.run id before).feed id reported).state.pendingCommandLine = some line := by
    obtain ⟨event, timestamp, reducedAt, createId, appliedAt⟩ := reported
    cases hreported
    rfl
  rw [hsome] at hpending
  generalize ((p.run id before).feed id reported).run id since = q at hpending hnone
  obtain ⟨event, timestamp, reducedAt, createId, appliedAt⟩ := started
  cases hstarted
  rw [agree_iff]
  rintro (⟨hcommand, -⟩ | ⟨command, hcommand, hline, -⟩)
  · cases hcommand
  · have hraw : command.rawCommandLine = q.state.pendingCommandLine := by
      obtain rfl := Option.some.inj hcommand
      rfl
    have hline' : q.staged id = command.rawCommandLine := hline
    rw [hnone, hraw, hpending] at hline'
    cases hline'

end Projections

/-- The two projections agree after every event exactly when no start takes a line that a finish
came after. -/
theorem commands_agree_iff (id : Id) (p : Projections) (hp : p.Fresh id)
    (reports : List CommandReport) :
    (∀ reported, reported <+: reports → (p.run id reported).Agree id) ↔
      ¬ TakesLeftOver (reports.map (·.event)) := by
  constructor
  · rintro hagree ⟨before, line, since, source, startedAt, rest, hsplit, hkeeps, hfinish⟩
    obtain ⟨start, last, rfl, hstart, hlast⟩ := List.map_eq_append_iff.1 hsplit
    obtain ⟨started, after, rfl, hstarted, -⟩ := List.map_eq_cons_iff.1 hlast
    obtain ⟨first, middle, rfl, -, hmiddle⟩ := List.map_eq_append_iff.1 hstart
    obtain ⟨reported, between, rfl, hreported, rfl⟩ := List.map_eq_cons_iff.1 hmiddle
    refine Projections.not_agree_of_leftOver (Projections.run_kept hp first).1.helper hreported
      hstarted (fun report hmem => hkeeps _ (List.mem_map_of_mem hmem)) ?_
      (hagree (first ++ reported :: between ++ [started]) ⟨after, by simp⟩)
    obtain ⟨event, hmem, his⟩ := hfinish
    obtain ⟨report, hreport, rfl⟩ := List.mem_map.1 hmem
    exact ⟨report, hreport, his⟩
  · rintro hlines reported ⟨more, rfl⟩
    rw [List.map_append] at hlines
    exact (Projections.run_kept hp reported).2 fun h => hlines (h.append _)

/-- Both projections before anything is reported. -/
def Projections.fresh : Projections := ⟨DEFAULT_TERMINAL_PANE_STATE, .fresh, none⟩

/-- An event at one time everywhere. -/
def CommandReport.at (now : Ms) (event : TerminalSemanticEvent) : CommandReport :=
  ⟨event, now, now, js "cmd-1", now⟩

/-- A command line and its start. -/
theorem commands_agree_running :
    (Projections.fresh.run (js "a") [.at 1 (.commandLine (js "make")),
      .at 1 (.commandStart (some .osc633_boundaries) none)]).Agree (js "a") := by
  refine (commands_agree_iff (js "a") .fresh ⟨rfl, rfl, by decide⟩
    [.at 1 (.commandLine (js "make")), .at 1 (.commandStart (some .osc633_boundaries) none)]).2
      ?_ _ (List.prefix_refl _)
  rintro ⟨before, line, since, source, startedAt, rest, hsplit, -, event, hmem, hfinish⟩
  have hreported : event ∈ [TerminalSemanticEvent.commandLine (js "make"),
      .commandStart (some .osc633_boundaries) none] := by
    refine Eq.mpr (congrArg (event ∈ ·) hsplit) (List.mem_append_left _ ?_)
    exact List.mem_append_right _ (List.mem_cons_of_mem _ hmem)
  rcases List.mem_pair.1 hreported with rfl | rfl
  · cases hfinish
  · cases hfinish

/-- A line is reported, a finish comes without a start, and then a start: the bell edits the rule
for `vim`, while the manager watches a command without a name. -/
theorem commands_disagree :
    getRunningCommandArgv0 (Projections.fresh.run (js "a") [.at 1 (.commandLine (js "vim")),
        .at 1 (.commandFinish none none),
        .at 2 (.commandStart (some .osc133_boundaries) none)]).state = some (js "vim") ∧
      ((Projections.fresh.run (js "a") [.at 1 (.commandLine (js "vim")),
        .at 1 (.commandFinish none none),
        .at 2 (.commandStart (some .osc133_boundaries) none)]).running (js "a")).map (·.argv0) =
          some none ∧
      ¬ (Projections.fresh.run (js "a") [.at 1 (.commandLine (js "vim")),
        .at 1 (.commandFinish none none),
        .at 2 (.commandStart (some .osc133_boundaries) none)]).Agree (js "a") := by
  refine ⟨by decide +kernel, by decide +kernel, ?_⟩
  have hfinish : ∀ report ∈ [CommandReport.at 1 (.commandFinish none none)],
      keepsLine report.event = true ∧ isFinish report.event = true := by
    intro report hreport
    rw [List.mem_singleton.1 hreport]
    exact ⟨rfl, rfl⟩
  have hhelper : js "a" ∉ (Projections.fresh.run (js "a") []).alerts.helpers :=
    Finset.notMem_empty _
  exact Projections.not_agree_of_leftOver hhelper rfl rfl (fun report h => (hfinish report h).1)
    ⟨_, List.mem_singleton_self _, (hfinish _ (List.mem_singleton_self _)).2⟩

end Dormouse.Alert
