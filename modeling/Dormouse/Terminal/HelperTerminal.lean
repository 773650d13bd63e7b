import Dormouse.Terminal.PaneState

/-!
# Dormouse.Terminal.HelperTerminal

The **helper terminals** (`lib/src/lib/helper-terminal.ts`): one auxiliary Session for each
terminal that is looked at, with a command that it runs by itself, and its promotion to a Session
of its own.

A helper object is known by the id of its Session, which is drawn for it alone. What is behind an
`await` is a step of its own, and what it has captured is kept in the state until then. What
becomes of the Sessions is kept in order, in `events`.
-/

namespace Dormouse.Terminal

inductive HelperStatus
  | waiting
  | running
  | completed
  | preserved
  | off
  | unsupported
  | exited
  deriving DecidableEq

/-- A poll of `watchHelper`, which is what `setInterval` has armed. -/
structure HelperWatch where
  watch : Nat
  started : Ms
  lastInspection : Ms
  inspecting : Bool
  launchCwd : Option JsString

structure HelperTerminal where
  parentId : JsString
  command : JsString
  status : HelperStatus
  promoting : Bool
  timer : Option HelperWatch

/-- A Session; `helper` says that it is auxiliary. -/
structure TerminalEntry where
  helper : Bool
  helperBusy : Option Bool
  inputVersion : Nat
  untouched : Bool
  exited : Bool

/-- What the shell of a Session has told, and whether it tells by itself. -/
structure HelperPane where
  state : TerminalPaneState
  oscDriven : Bool

def HelperPane.fresh : HelperPane := ⟨DEFAULT_TERMINAL_PANE_STATE, false⟩

/-- `helperHasWork`, while the host looks for work. -/
structure WorkInspection where
  helper : JsString
  entry : Nat
  inputVersion : Nat

/-- Where an `openHelper` is. -/
inductive OpenPhase
  | inspecting (inspection : WorkInspection)
  | inspected (previous : JsString) (entry : Nat) (busy : Bool)
  | settling
  | done

/-- What the host answers to an inspection; it may fail. -/
inductive HostAnswer
  | idle
  | busy
  | failed
  deriving DecidableEq

inductive HelperEvent
  | spawned (id parentId command : JsString)
  | autorun (id command : JsString) (pane : HelperPane)
  | input (id : JsString)
  | promotionBegan (id : JsString)
  | promoted (id : JsString)
  /-- An inspection of `openHelper` has found the helper idle. -/
  | idle (id : JsString)
  /-- `openHelper` disposes of the helper. -/
  | reopened (id : JsString)
  | disposed (id : JsString)

structure HelperStore where
  registry : InsertionMap JsString Nat
  entries : List TerminalEntry
  panes : JsString → HelperPane
  objects : InsertionMap JsString HelperTerminal
  helpers : InsertionMap JsString JsString
  pending : InsertionMap JsString OpenPhase
  visibleParents : List JsString
  closedParents : List Nat
  inspections : List (Nat × WorkInspection)
  promotions : List JsString
  rollbacks : List JsString
  nextWatch : Nat
  revision : Nat
  events : List HelperEvent

/-- The host, and the parser of a directory that is set by hand. -/
structure HelperHost where
  hasTerminalContext : Bool
  cwdFromManualPath : JsString → Ms → Option CwdState

def READINESS_TIMEOUT_MS : Ms := 8000

def WORK_INSPECTION_MS : Ms := 2000

def DEFAULT_HELPER_COMMAND : JsString := js "git status"

namespace HelperStore

def empty : HelperStore where
  registry := .empty
  entries := []
  panes _ := .fresh
  objects := .empty
  helpers := .empty
  pending := .empty
  visibleParents := []
  closedParents := []
  inspections := []
  promotions := []
  rollbacks := []
  nextWatch := 0
  revision := 0
  events := []

def emit (s : HelperStore) (event : HelperEvent) : HelperStore :=
  { s with events := s.events ++ [event] }

def notifyHelpers (s : HelperStore) : HelperStore := { s with revision := s.revision + 1 }

def modifyObject (s : HelperStore) (id : JsString) (f : HelperTerminal → HelperTerminal) :
    HelperStore :=
  match s.objects.get id with
  | none => s
  | some helper => { s with objects := s.objects.set id (f helper) }

def modifyEntry (s : HelperStore) (entry : Nat) (f : TerminalEntry → TerminalEntry) :
    HelperStore :=
  { s with entries := s.entries.modify entry f }

/-- The entry of a Session, with its reference. -/
def entryOf (s : HelperStore) (id : JsString) : Option (Nat × TerminalEntry) := do
  let ref ← s.registry.get id
  let entry ← s.entries[ref]?
  return (ref, entry)

def setPhase (s : HelperStore) (parentId : JsString) (phase : OpenPhase) : HelperStore :=
  { s with pending := s.pending.set parentId phase }

/-! ### Sessions -/

/-- A new Session. -/
def register (s : HelperStore) (id : JsString) (helper untouched : Bool) : HelperStore :=
  { s with
    registry := s.registry.set id s.entries.length
    entries := s.entries ++ [⟨helper, none, 0, untouched, false⟩]
    panes := Function.update s.panes id .fresh }

/-- Kill the PTY of a Session and forget it. -/
def disposeSession (s : HelperStore) (id : JsString) : HelperStore :=
  match s.registry.get id with
  | none => s
  | some _ =>
    emit { s with
      registry := s.registry.delete id
      panes := Function.update s.panes id .fresh } (.disposed id)

/-- Input has come from the user. -/
def markSessionTouched (s : HelperStore) (id : JsString) : HelperStore :=
  match s.registry.get id with
  | none => s
  | some ref =>
    (s.modifyEntry ref fun entry => { entry with
      inputVersion := entry.inputVersion + 1
      untouched := false
      helperBusy := if entry.helper then none else entry.helperBusy }).emit (.input id)

def atPrompt (pane : HelperPane) : Bool :=
  (pane.state.activity = .prompt || pane.state.activity = .editing) &&
    pane.state.currentCommand.isNone

/-- A launch by the program, which the shell has not told of. -/
def seedLaunchedCommand (host : HelperHost) (now : Ms) (runId command : JsString)
    (cwdPath : Option JsString) (s : HelperStore) (id : JsString) : HelperStore :=
  let pane := s.panes id
  let cwd := cwdPath.bind fun path => if path = [] then none else host.cwdFromManualPath path now
  let events := cwd.toList.map TerminalSemanticEvent.cwd ++
    [.commandLine command, .commandStart (some .user_input) none]
  let seeded := { pane with state := events.foldl (reduceTerminalState now runId) pane.state }
  { s with panes := Function.update s.panes id seeded }

/-! ### The poll -/

def clearTimer (s : HelperStore) (id : JsString) : HelperStore :=
  s.modifyObject id fun helper => { helper with timer := none }

/-- Poll a helper that is looked at and is not being promoted. -/
def watchHelper (s : HelperStore) (id : JsString) (launchCwd : Option JsString) (now : Ms) :
    HelperStore :=
  let s := s.clearTimer id
  match s.objects.get id with
  | none => s
  | some helper =>
    if helper.parentId ∉ s.visibleParents ∨ helper.promoting then s
    else
      let s := { s with nextWatch := s.nextWatch + 1 }
      s.modifyObject id fun helper =>
        { helper with timer := some ⟨s.nextWatch, now, 0, false, launchCwd⟩ }

def setHelperVisible (s : HelperStore) (parentId : JsString) (visible : Bool) (now : Ms) :
    HelperStore :=
  let s := { s with visibleParents :=
    if visible then parentId :: s.visibleParents else s.visibleParents.filter (· ≠ parentId) }
  match s.helpers.get parentId with
  | none => s
  | some id =>
    if visible then s.watchHelper id none now
    else
      -- An old idle result cannot prove a hidden helper is still idle.
      match s.registry.get id with
      | none => s.clearTimer id
      | some ref => (s.clearTimer id).modifyEntry ref fun entry =>
        { entry with helperBusy := none }

/-- `helperHasWork` up to its `await`: an answer, or what it captures. -/
def beginInspection (s : HelperStore) (id : JsString) : (Bool ⊕ WorkInspection) × HelperStore :=
  match s.objects.get id, s.entryOf id with
  | none, _ => (.inl false, s)
  | some helper, entry =>
    if helper.promoting then (.inl true, s)
    else
      match entry with
      | none => (.inl false, s)
      | some (ref, entry) =>
        if entry.exited then (.inl false, s)
        else if (s.panes id).state.currentCommand.isSome then
          (.inl true, s.modifyEntry ref fun entry => { entry with helperBusy := some true })
        else (.inr ⟨id, ref, entry.inputVersion⟩, s)

/-- `helperHasWork` behind its `await`, where the host has looked. -/
def finishInspection (host : HelperHost) (s : HelperStore) (i : WorkInspection)
    (answer : HostAnswer) : Bool × HelperStore :=
  let busy := !(host.hasTerminalContext && answer = .idle) ||
    (s.entries[i.entry]?).any (fun entry => entry.inputVersion ≠ i.inputVersion) ||
    (s.objects.get i.helper).any (·.promoting) ||
    (s.panes i.helper).state.currentCommand.isSome
  (busy, s.modifyEntry i.entry fun entry => { entry with helperBusy := some busy })

/-- The poll's own inspection is over. -/
def endPollInspection (s : HelperStore) (id : JsString) (entry watch : Nat) : HelperStore :=
  match s.objects.get id with
  | none => s
  | some helper =>
    let s := s.modifyObject id fun helper =>
      { helper with timer := helper.timer.map fun timer =>
          if timer.watch = watch then { timer with inspecting := false } else timer }
    if helper.parentId ∈ s.visibleParents then s
    else s.modifyEntry entry fun entry => { entry with helperBusy := none }

/-- An autorun that is due: the helper is as it was created, and at a prompt of its shell. -/
def launches (helper : HelperTerminal) (entry : TerminalEntry) (pane : HelperPane) : Bool :=
  !entry.exited && entry.untouched && helper.status = .waiting && pane.oscDriven && atPrompt pane

/-- The status that a poll finds. -/
def pollStatus (helper : HelperTerminal) (entry : TerminalEntry) (pane : HelperPane)
    (now started : Ms) : HelperStatus :=
  if entry.exited then .exited
  else if !entry.untouched then .preserved
  else if helper.status = .waiting then
    if pane.oscDriven && atPrompt pane then .running
    else if READINESS_TIMEOUT_MS ≤ now - started then .unsupported
    else .waiting
  else if helper.status = .running && atPrompt pane then .completed
  else helper.status

/-- The end of a poll: look for work, unless it has been done lately. -/
def pollWork (s : HelperStore) (id : JsString) (ref : Nat) (timer : HelperWatch)
    (status : HelperStatus) (now : Ms) : HelperStore :=
  if status = .waiting ∨ status = .running ∨ timer.inspecting ∨
      now - timer.lastInspection < WORK_INSPECTION_MS then s
  else
    let s := s.modifyObject id fun helper =>
      { helper with timer := helper.timer.map fun timer =>
          { timer with inspecting := true, lastInspection := now } }
    match s.beginInspection id with
    | (.inl _, s) => s.endPollInspection id ref timer.watch
    | (.inr inspection, s) =>
      { s with inspections := s.inspections ++ [(timer.watch, inspection)] }

/-- One poll. -/
def tick (host : HelperHost) (s : HelperStore) (id : JsString) (now : Ms) (runId : JsString) :
    HelperStore :=
  match s.objects.get id with
  | none => s
  | some helper =>
    match helper.timer with
    | none => s
    | some timer =>
      match s.entryOf id with
      | none => s.clearTimer id
      | some (ref, entry) =>
        if s.helpers.get helper.parentId ≠ some id then s.clearTimer id
        else
          let pane := s.panes id
          let status := pollStatus helper entry pane now timer.started
          let s := if launches helper entry pane then
              (s.seedLaunchedCommand host now runId helper.command timer.launchCwd id).emit
                (.autorun id helper.command pane)
            else s
          let s := if status = helper.status then s
            else (s.modifyObject id fun helper => { helper with status := status }).notifyHelpers
          if status = .exited then s.clearTimer id
          else s.pollWork id ref timer status now

/-- The host has answered the inspection of a poll. -/
def pollInspected (host : HelperHost) (s : HelperStore) (index : Nat) (answer : HostAnswer) :
    HelperStore :=
  match s.inspections[index]? with
  | none => s
  | some (watch, inspection) =>
    let s := { s with inspections := s.inspections.eraseIdx index }
    let s := if answer = .failed then
        s.modifyEntry inspection.entry fun entry => { entry with helperBusy := some true }
      else (s.finishInspection host inspection answer).2
    s.endPollInspection inspection.helper inspection.entry watch

/-! ### The end of a helper -/

def forgetHelper (s : HelperStore) (parentId : JsString) : HelperStore :=
  match s.helpers.get parentId with
  | none => s
  | some id =>
    let s := s.clearTimer id
    notifyHelpers { s with helpers := s.helpers.delete parentId }

/-- `none` when it throws, as it does while the helper is being promoted. -/
def disposeHelper (s : HelperStore) (parentId : JsString) : Option HelperStore :=
  match s.helpers.get parentId with
  | none => some s
  | some id =>
    if (s.objects.get id).any (·.promoting) then none
    else some ((s.forgetHelper parentId).disposeSession id)

/-- The parent is going away; refused while its helper is being promoted. -/
def closeHelperParent (s : HelperStore) (parentId : JsString) : HelperStore :=
  match s.disposeHelper parentId with
  | none => s
  | some s =>
    match s.registry.get parentId with
    | none => s
    | some ref => { s with closedParents := ref :: s.closedParents }

def parentIsOpen (s : HelperStore) (parentId : JsString) : Bool :=
  (s.registry.get parentId).any (· ∉ s.closedParents)

/-! ### Opening -/

/-- Ask for the settings, where there is a host to ask. -/
def askSettings (host : HelperHost) (s : HelperStore) (parentId : JsString) : HelperStore :=
  s.setPhase parentId (if host.hasTerminalContext then .settling else .done)

/-- The status that a reopening finds. -/
def reopenStatus (helper : HelperTerminal) (entry : Option TerminalEntry) (pane : HelperPane) :
    HelperStatus :=
  if entry.any (·.exited) then .exited
  else if !entry.any (·.untouched) then .preserved
  else if helper.status = .running && atPrompt pane then .completed
  else helper.status

/-- A helper is there already: it is kept, or looked into before it is replaced. -/
def reopen (s : HelperStore) (parentId id : JsString) (helper : HelperTerminal) : HelperStore :=
  let entry := s.entryOf id
  let status := reopenStatus helper (entry.map Prod.snd) (s.panes id)
  let s := if status = helper.status then s
    else (s.modifyObject id fun helper => { helper with status := status }).notifyHelpers
  match entry with
  | none => s.setPhase parentId .done
  | some (ref, entry) =>
    if !entry.untouched || (status ≠ .completed && status ≠ .off) then s.setPhase parentId .done
    else
      match s.beginInspection id with
      | (.inl busy, s) => s.setPhase parentId (.inspected id ref busy)
      | (.inr inspection, s) => s.setPhase parentId (.inspecting inspection)

/-- `openHelper` up to its first `await`; a caller who comes while one is under way shares it. -/
def openHelper (host : HelperHost) (s : HelperStore) (parentId : JsString) : HelperStore :=
  if s.pending.has parentId then s
  else
    let s := if (s.helpers.get parentId).any fun id => !s.registry.has id then
      s.forgetHelper parentId else s
    match s.helpers.get parentId with
    | none => s.askSettings host parentId
    | some id =>
      match s.objects.get id with
      | none => s
      | some helper => s.reopen parentId id helper

/-- The host has answered the inspection of an `openHelper`. -/
def openInspected (host : HelperHost) (s : HelperStore) (parentId : JsString)
    (answer : HostAnswer) : HelperStore :=
  match s.pending.get parentId with
  | some (.inspecting inspection) =>
    if answer = .failed then s.setPhase parentId .done
    else
      let (busy, s) := s.finishInspection host inspection answer
      let s := if busy then s else s.emit (.idle inspection.helper)
      s.setPhase parentId (.inspected inspection.helper inspection.entry busy)
  | _ => s

/-- `openHelper` goes on behind its inspection. -/
def openContinue (host : HelperHost) (s : HelperStore) (parentId : JsString) : HelperStore :=
  match s.pending.get parentId with
  | some (.inspected previous ref busy) =>
    -- Input or ownership can change during process inspection.
    if busy || s.helpers.get parentId ≠ some previous ||
        !(s.entries[ref]?).any (·.untouched) then s.setPhase parentId .done
    else
      match (if s.registry.has previous then s.emit (.reopened previous) else s).disposeHelper
          parentId with
      | none => s.setPhase parentId .done
      | some s => s.askSettings host parentId
  | _ => s

/-- A new helper. -/
def createHelper (s : HelperStore) (parentId id command : JsString) (now : Ms) : HelperStore :=
  let cwd := (s.panes parentId).state.cwd
  let helper : HelperTerminal :=
    ⟨parentId, command, if command = [] then .off else .waiting, false, none⟩
  let s := { s with
    objects := s.objects.set id helper
    helpers := s.helpers.set parentId id }
  ((s.register id true true).emit (.spawned id parentId command)).notifyHelpers.watchHelper id
    (cwd.map (·.path)) now

/-- The host has answered with its settings, or failed to. -/
def openSettled (s : HelperStore) (parentId : JsString) (settings : Option (Option JsString))
    (id : JsString) (now : Ms) : HelperStore :=
  match s.pending.get parentId with
  | some .settling =>
    match settings with
    | none => s.setPhase parentId .done
    | some command =>
      let s := s.setPhase parentId .done
      if s.parentIsOpen parentId then
        s.createHelper parentId id (command.getD DEFAULT_HELPER_COMMAND) now
      else s
  | _ => s

/-- The `finally` of an `openHelper`. -/
def openDone (s : HelperStore) (parentId : JsString) : HelperStore :=
  match s.pending.get parentId with
  | some .done => { s with pending := s.pending.delete parentId }
  | _ => s

/-! ### Promotion -/

def beginPromotion (s : HelperStore) (parentId : JsString) : HelperStore :=
  match s.helpers.get parentId with
  | none => s
  | some id =>
    if (s.objects.get id).any (·.promoting) then s
    else
      -- Cancel launch injection before asynchronous ownership transfer.
      let s := (s.clearTimer id).modifyObject id fun helper =>
        { helper with promoting := true, status := .preserved }
      let s := match s.registry.get id with
        | none => s
        | some ref => s.modifyEntry ref fun entry => { entry with untouched := false }
      emit { s with promotions := s.promotions ++ [id] } (.promotionBegan id)

/-- The helper is no longer being promoted, and is watched again. -/
def endPromotion (s : HelperStore) (id : JsString) (now : Ms) : HelperStore :=
  (s.modifyObject id fun helper => { helper with promoting := false }).watchHelper id none now

/-- The host has answered the promotion at `index`. -/
def promotionAnswered (s : HelperStore) (index : Nat) (failed : Bool) (now : Ms) : HelperStore :=
  match s.promotions[index]? with
  | none => s
  | some id =>
    let s := { s with promotions := s.promotions.eraseIdx index }
    if failed then s.endPromotion id now else s

/-- Placement has failed. -/
def cancelPromotion (s : HelperStore) (parentId : JsString) : HelperStore :=
  match s.helpers.get parentId with
  | none => s
  | some id => { s with rollbacks := s.rollbacks ++ [id] }

/-- The host has answered the rollback at `index`, or failed to. -/
def rollbackAnswered (s : HelperStore) (index : Nat) (now : Ms) : HelperStore :=
  match s.rollbacks[index]? with
  | none => s
  | some id => endPromotion { s with rollbacks := s.rollbacks.eraseIdx index } id now

/-- The placed helper is now an ordinary Session. -/
def finishPromotion (s : HelperStore) (parentId : JsString) : HelperStore :=
  match s.helpers.get parentId with
  | none => s
  | some id =>
    let s := match s.registry.get id with
      | none => s
      | some ref => s.modifyEntry ref fun entry =>
        { entry with helper := false, untouched := false }
    (s.forgetHelper parentId).emit (.promoted id)

/-! ### Steps -/

/-- What can happen: calls, the answers of the host, polls, what a shell tells (`shell`), and the
Sessions of the parents that come and go. -/
inductive HelperOp
  | register (id : JsString) (untouched : Bool)
  | disposeSession (id : JsString)
  | shell (id : JsString) (pane : HelperPane)
  | exit (id : JsString)
  | input (id : JsString)
  | setHelperVisible (parentId : JsString) (visible : Bool) (now : Ms)
  | closeHelperParent (parentId : JsString)
  | openHelper (parentId : JsString)
  | openInspected (parentId : JsString) (answer : HostAnswer)
  | openContinue (parentId : JsString)
  | openSettled (parentId : JsString) (settings : Option (Option JsString)) (id : JsString)
      (now : Ms)
  | openDone (parentId : JsString)
  | tick (id : JsString) (now : Ms) (runId : JsString)
  | pollInspected (index : Nat) (answer : HostAnswer)
  | beginPromotion (parentId : JsString)
  | promotionAnswered (index : Nat) (failed : Bool) (now : Ms)
  | cancelPromotion (parentId : JsString)
  | rollbackAnswered (index : Nat) (now : Ms)
  | finishPromotion (parentId : JsString)

def step (host : HelperHost) (s : HelperStore) : HelperOp → HelperStore
  | .register id untouched => s.register id false untouched
  | .disposeSession id => s.disposeSession id
  | .shell id pane => { s with panes := Function.update s.panes id pane }
  | .exit id =>
    match s.registry.get id with
    | none => s
    | some ref => s.modifyEntry ref fun entry => { entry with exited := true }
  | .input id => s.markSessionTouched id
  | .setHelperVisible parentId visible now => s.setHelperVisible parentId visible now
  | .closeHelperParent parentId => s.closeHelperParent parentId
  | .openHelper parentId => s.openHelper host parentId
  | .openInspected parentId answer => s.openInspected host parentId answer
  | .openContinue parentId => s.openContinue host parentId
  | .openSettled parentId settings id now => s.openSettled parentId settings id now
  | .openDone parentId => s.openDone parentId
  | .tick id now runId => s.tick host id now runId
  | .pollInspected index answer => s.pollInspected host index answer
  | .beginPromotion parentId => s.beginPromotion parentId
  | .promotionAnswered index failed now => s.promotionAnswered index failed now
  | .cancelPromotion parentId => s.cancelPromotion parentId
  | .rollbackAnswered index now => s.rollbackAnswered index now
  | .finishPromotion parentId => s.finishPromotion parentId

end HelperStore

end Dormouse.Terminal
