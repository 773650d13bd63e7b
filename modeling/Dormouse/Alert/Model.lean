import Mathlib.Algebra.Order.Ring.Unbundled.Rat
import Mathlib.Data.Finset.Basic
import Mathlib.Data.Finset.Dedup
import Dormouse.Alert.Detector
import Dormouse.Lib.InsertionMap
import Dormouse.Lib.Transition

/-!
# Dormouse.Alert.Model

The **alert manager** (`alert-manager.ts`): one entry per Session with three alarm
tracks, the completion claimants in front of them, and the one attended Session.

An operation is a function from manager to manager; `now` is what `Date.now()` reads
during it. What the manager tells the outside is kept as history: `emitted` lists what
`notify` handed to the listeners and `outcomes` how each await ended. Listeners and
claimants answer without calling back into the manager.
-/

namespace Dormouse.Alert

open Terminal

abbrev Id := JsString

/-! ### Data -/

inductive SessionStatus
  | NOTHING_TO_SHOW
  | MIGHT_BE_BUSY
  | BUSY
  | MIGHT_NEED_ATTENTION
  | WATCHING_DISABLED
  | ALERT_RINGING
  | OSC_NOTIF_BUSY
  | COMMAND_EXIT_ARMED
  deriving DecidableEq

def QuiesceStatus.toSession : QuiesceStatus → SessionStatus
  | .NOTHING_TO_SHOW => .NOTHING_TO_SHOW
  | .MIGHT_BE_BUSY => .MIGHT_BE_BUSY
  | .BUSY => .BUSY
  | .MIGHT_NEED_ATTENTION => .MIGHT_NEED_ATTENTION

inductive ProtocolStatus
  | IDLE
  | OSC_NOTIF_BUSY
  | ALERT_RINGING
  deriving DecidableEq

inductive CommandExitStatus
  | IDLE
  | COMMAND_EXIT_ARMED
  | ALERT_RINGING
  deriving DecidableEq

inductive ActiveProtocolProgressState
  | normal
  | warning
  | indeterminate
  deriving DecidableEq

structure ActiveProtocolProgress where
  state : ActiveProtocolProgressState
  percent : Option ℚ
  deriving DecidableEq

structure CommandExitWatch where
  displayCommand : JsString
  argv0 : Option JsString
  source : CommandRunSource
  startedAt : Ms
  seenWithAttentionAt : Option Ms

inductive CompletionEvent
  | settled
  | commandFinished (displayCommand : JsString) (argv0 : Option JsString) (exitCode : Option Int)
      (ranMs : Ms) (armed : Bool)
  | notification (notification : ActivityNotification)

inductive AwaitUntil
  | quiet
  | exit
  deriving DecidableEq

inductive AwaitCause
  | quiet
  | exit
  | bell
  | idle
  deriving DecidableEq

inductive AwaitOutcome
  | resolved (cause : AwaitCause) (waitedMs : Ms)
  | timeout (waitedMs : Ms)
  | died (waitedMs : Ms)
  | cancelled (waitedMs : Ms)

/-- One parked await; its handle is its identity. -/
structure AwaitWaiter where
  handle : Nat
  awaitUntil : AwaitUntil
  startedAt : Ms
  graceTimer : Option Ms
  timeoutTimer : Ms

/-- A registered claimant: a callback from outside, whose answer may depend on how
often it was asked, or the one the parked awaits of the Session share. -/
inductive Claimant
  | callback (key : Nat) (answer : Nat → CompletionEvent → Bool) (asked : Nat)
  | parked

structure AlertState where
  status : SessionStatus
  watchingEnabled : Bool
  todo : Bool
  notification : Option ActivityNotification
  attentionDismissedRing : Bool
  awaited : Bool
  ringSeq : Nat
  deriving DecidableEq

def DEFAULT_ALERT_STATE : AlertState where
  status := .WATCHING_DISABLED
  watchingEnabled := false
  todo := false
  notification := none
  attentionDismissedRing := false
  awaited := false
  ringSeq := 0

structure AlertEntry where
  detector : QuiesceDetector
  watchingRingingCommand : Option JsString
  outputSinceWatchingRing : Bool
  ringSeq : Nat
  protocolStatus : ProtocolStatus
  progress : Option ActiveProtocolProgress
  commandExitStatus : CommandExitStatus
  commandExitWatch : Option CommandExitWatch
  pendingCommandLine : Option JsString
  todo : Bool
  notification : Option ActivityNotification
  attentionDismissedRing : Bool
  deferredNotification : Option ActivityNotification
  deferredNotificationTimer : Option Ms

def AlertEntry.fresh : AlertEntry where
  detector := .fresh
  watchingRingingCommand := none
  outputSinceWatchingRing := false
  ringSeq := 0
  protocolStatus := .IDLE
  progress := none
  commandExitStatus := .IDLE
  commandExitWatch := none
  pendingCommandLine := none
  todo := false
  notification := none
  attentionDismissedRing := false
  deferredNotification := none
  deferredNotificationTimer := none

structure AlertManager where
  entries : InsertionMap Id AlertEntry
  removed : Finset Id
  claimants : InsertionMap Id (List Claimant)
  awaits : InsertionMap Id (List AwaitWaiter)
  attentionId : Option Id
  attentionTimer : Option (Id × Ms)
  lastEmitted : InsertionMap Id AlertState
  watchedCommands : Finset JsString
  helpers : Finset Id
  inactivityTimeoutMs : Ms
  deferAlertsUntilQuiet : Bool
  nextHandle : Nat
  emitted : List (Id × AlertState)
  outcomes : List (Nat × AwaitOutcome)

/-! ### Texts -/

def normalizeNotificationTextField : Option JsString → Option JsString
  | none => none
  | some value => if JsString.trim value = [] then none else some (JsString.trim value)

/-- A value of unknown type, seen through what is asked of it: none when it is not a
record, no source when it names none of the sources, no text where it has no string. -/
abbrev UnknownNotification :=
  Option (Option ActivityNotificationSource × Option JsString × Option JsString)

def normalizeActivityNotification : UnknownNotification → Option ActivityNotification
  | some (some source, title, body) =>
    let title := normalizeNotificationTextField title
    let body := normalizeNotificationTextField body
    if title = none ∧ body = none then none else some ⟨source, title, body⟩
  | _ => none

def formatCommandExitBody (displayCommand : JsString) (exitCode : Option Int) : JsString :=
  let command :=
    if JsString.trim displayCommand = [] then DEFAULT_COMMAND_TITLE else JsString.trim displayCommand
  match exitCode with
  | none => command
  | some code => command ++ js " exited " ++ JsString.ofInt code

/-- Which completions wake an await, and what it calls the cause. -/
def awaitCauseFor (awaitUntil : AwaitUntil) : CompletionEvent → Option AwaitCause
  | .commandFinished .. => some .exit
  | .settled => if awaitUntil = .exit then none else some .quiet
  | .notification _ => if awaitUntil = .exit then none else some .bell

/-- `Math.round`: halves go up. -/
def mathRound (q : ℚ) : Int := (q + 1 / 2).floor

/-! ### One entry -/

namespace AlertEntry

inductive Track
  | protocol
  | commandExit
  | watching
  deriving DecidableEq, Repr

def hasActiveRing (e : AlertEntry) : Bool :=
  e.protocolStatus = .ALERT_RINGING ∨ e.commandExitStatus = .ALERT_RINGING ∨
    e.watchingRingingCommand ≠ none

/-- Count one track latching; a track already ringing is enriched. -/
def latchRing (wasRinging : Bool) (e : AlertEntry) : AlertEntry :=
  if wasRinging then e else { e with ringSeq := e.ringSeq + 1 }

def applyProtocolRinging (notification : ActivityNotification) (e : AlertEntry) : AlertEntry :=
  { e.latchRing (e.protocolStatus = .ALERT_RINGING) with
    notification := some notification
    todo := true
    protocolStatus := .ALERT_RINGING
    progress := none }

def applyCommandExitRinging (displayCommand : JsString) (exitCode : Option Int) (e : AlertEntry) :
    AlertEntry :=
  { e.latchRing (e.commandExitStatus = .ALERT_RINGING) with
    commandExitStatus := .ALERT_RINGING
    todo := true
    notification :=
      -- a protocol ring carries richer text
      if e.protocolStatus ≠ .ALERT_RINGING then
        some ⟨.COMMAND_EXIT, some (js "Command finished"),
          some (formatCommandExitBody displayCommand exitCode)⟩
      else e.notification }

def applyWatchingRinging (e : AlertEntry) : AlertEntry :=
  { e.latchRing (e.watchingRingingCommand ≠ none) with
    watchingRingingCommand := e.commandExitWatch.bind (·.argv0)
    outputSinceWatchingRing := false }

def clearDeferredNotification (e : AlertEntry) : AlertEntry :=
  { e with deferredNotificationTimer := none, deferredNotification := none }

def scheduleDeferredNotification (now : Ms) (e : AlertEntry) : AlertEntry :=
  { e with deferredNotificationTimer := some (now + max 0 (e.detector.quietAt now - now)) }

def markCommandExitSeen (now : Ms) (e : AlertEntry) : AlertEntry :=
  match e.commandExitWatch with
  | none => e
  | some watch =>
    { e with
      commandExitWatch := some { watch with
        seenWithAttentionAt := some (watch.seenWithAttentionAt.getD now) }
      commandExitStatus :=
        if e.commandExitStatus = .COMMAND_EXIT_ARMED then .IDLE else e.commandExitStatus }

/-- Whether losing attention arms the command-exit track. -/
def canArm (e : AlertEntry) : Bool :=
  e.commandExitStatus = .IDLE ∧ (e.commandExitWatch.any fun watch => watch.seenWithAttentionAt.isSome)

end AlertEntry

namespace AlertManager

open AlertEntry

def fresh : AlertManager where
  entries := .empty
  removed := ∅
  claimants := .empty
  awaits := .empty
  attentionId := none
  attentionTimer := none
  lastEmitted := .empty
  watchedCommands := ∅
  helpers := ∅
  inactivityTimeoutMs := 15000
  deferAlertsUntilQuiet := false
  nextHandle := 0
  emitted := []
  outcomes := []

/-! ### Queries and `notify` -/

def hasAttention (m : AlertManager) (id : Id) : Bool := m.attentionId = some id

def isWatching (m : AlertManager) (e : AlertEntry) : Bool :=
  (e.commandExitWatch.bind (·.argv0)).any (· ∈ m.watchedCommands)

def getProjectedStatus (m : AlertManager) (e : AlertEntry) : SessionStatus :=
  if e.hasActiveRing then .ALERT_RINGING
  else if e.protocolStatus = .OSC_NOTIF_BUSY then .OSC_NOTIF_BUSY
  else if m.isWatching e then e.detector.status.toSession
  else if e.commandExitStatus = .COMMAND_EXIT_ARMED then .COMMAND_EXIT_ARMED
  else .WATCHING_DISABLED

def getState (m : AlertManager) (id : Id) : AlertState :=
  match m.entries.get id with
  | none => DEFAULT_ALERT_STATE
  | some e =>
    { status := m.getProjectedStatus e
      watchingEnabled := m.isWatching e
      todo := e.todo
      notification := e.notification
      attentionDismissedRing := e.attentionDismissedRing
      awaited := !((m.awaits.get id).getD []).isEmpty
      ringSeq := e.ringSeq }

def notify (id : Id) (m : AlertManager) : AlertManager :=
  if m.lastEmitted.get id = some (m.getState id) then m
  else
    { m with
      lastEmitted :=
        if m.entries.has id then m.lastEmitted.set id (m.getState id) else m.lastEmitted.delete id
      emitted := m.emitted ++ [(id, m.getState id)] }

/-! ### Entries -/

def modifyEntry (id : Id) (f : AlertEntry → AlertEntry) (m : AlertManager) : AlertManager :=
  match m.entries.get id with
  | none => m
  | some e => { m with entries := m.entries.set id (f e) }

/-- Run a detector operation; `onChange` publishes only while WATCHING. -/
def modifyDetector (id : Id) (f : QuiesceDetector → QuiesceDetector) (m : AlertManager) :
    AlertManager :=
  match m.entries.get id with
  | none => m
  | some e =>
    let m' := m.modifyEntry id fun e => { e with detector := f e.detector }
    if (f e.detector).status ≠ e.detector.status ∧ m.isWatching e then m'.notify id else m'

def getOrCreateEntry (id : Id) (m : AlertManager) : AlertManager :=
  if m.entries.has id then m else { m with entries := m.entries.set id .fresh }

/-- Raw output does not rebuild a removed entry. -/
def streamEntry (id : Id) (m : AlertManager) : AlertManager :=
  if id ∈ m.removed then m else m.getOrCreateEntry id

/-- A report is evidence that a live Session owns the id. -/
def reportedEntry (id : Id) (m : AlertManager) : AlertManager :=
  { m with removed := m.removed.erase id }.getOrCreateEntry id

/-! ### Releasing rings -/

def releaseRing (id : Id) (track : Track) (m : AlertManager) : AlertManager × Bool :=
  match m.entries.get id with
  | none => (m, false)
  | some e =>
    match track with
    | .protocol =>
      if e.protocolStatus ≠ .ALERT_RINGING then (m, false)
      else (m.modifyEntry id fun e => { e with protocolStatus := .IDLE, progress := none }, true)
    | .commandExit =>
      if e.commandExitStatus ≠ .ALERT_RINGING then (m, false)
      else (m.modifyEntry id fun e => { e with commandExitStatus := .IDLE }, true)
    | .watching =>
      if e.watchingRingingCommand = none then (m, false)
      else
        ((m.modifyEntry id fun e =>
            { e with watchingRingingCommand := none, outputSinceWatchingRing := false })
          |>.modifyDetector id .reset, true)

/-- Release every ring and cancel a deferral; answers whether a ring was active. -/
def clearAllRingsIfActive (id : Id) (m : AlertManager) : AlertManager × Bool :=
  let m := m.modifyEntry id clearDeferredNotification
  let released₁ := m.releaseRing id .protocol
  let released₂ := released₁.1.releaseRing id .commandExit
  let released₃ := released₂.1.releaseRing id .watching
  (released₃.1, released₁.2 || released₂.2 || released₃.2)

/-! ### Deferred notifications -/

def flushDeferredNotification (id : Id) (m : AlertManager) : AlertManager :=
  match (m.entries.get id).bind (·.deferredNotification) with
  | none => m
  | some notification =>
    let m := m.modifyEntry id clearDeferredNotification
    if m.hasAttention id then m
    else (m.modifyEntry id (applyProtocolRinging notification)).notify id

def deferOrDeliverNotification (id : Id) (notification : ActivityNotification) (now : Ms)
    (m : AlertManager) : AlertManager :=
  match m.entries.get id with
  | none => m
  | some e =>
    let m :=
      if m.deferAlertsUntilQuiet ∧ ¬e.hasActiveRing ∧
          (e.deferredNotification ≠ none ∨ e.detector.isConfirmedBusy) then
        m.modifyEntry id fun e =>
          { e with deferredNotification := some notification }.scheduleDeferredNotification now
      else
        m.modifyEntry id fun e => e.clearDeferredNotification.applyProtocolRinging notification
    m.notify id

/-! ### Awaits and claimants -/

def Claimant.hasKey (key : Option Nat) : Claimant → Bool
  | .callback k _ _ => key = some k
  | .parked => key = none

/-- Register a claimant under a key, `none` being the parked awaits'. -/
def registerClaimant (id : Id) (key : Option Nat) (claimant : Claimant) (m : AlertManager) :
    AlertManager :=
  let current := (m.claimants.get id).getD []
  if current.any (Claimant.hasKey key) then m
  else { m with claimants := m.claimants.set id (current ++ [claimant]) }

def unregisterClaimant (id : Id) (key : Option Nat) (m : AlertManager) : AlertManager :=
  match m.claimants.get id with
  | none => m
  | some current =>
    let rest := current.filter (!Claimant.hasKey key ·)
    { m with
      claimants := if rest.isEmpty then m.claimants.delete id else m.claimants.set id rest }

def addWaiter (id : Id) (waiter : AwaitWaiter) (m : AlertManager) : AlertManager :=
  match m.awaits.get id with
  | none =>
    { m.registerClaimant id none .parked with awaits := m.awaits.set id [waiter] }
  | some waiters => { m with awaits := m.awaits.set id (waiters ++ [waiter]) }

/-- Take the waiter out of its group, and the group down with its last waiter. -/
def dropWaiter (id : Id) (handle : Nat) (m : AlertManager) : AlertManager :=
  match m.awaits.get id with
  | none => m
  | some waiters =>
    let rest := waiters.filter (·.handle ≠ handle)
    if rest.isEmpty then { m with awaits := m.awaits.delete id }.unregisterClaimant id none
    else { m with awaits := m.awaits.set id rest }

/-- Settle a parked await; one that is no longer parked has settled before. -/
def settle (id : Id) (handle : Nat) (outcome : AwaitOutcome) (m : AlertManager) : AlertManager :=
  if ((m.awaits.get id).getD []).any (·.handle = handle) then
    let m := m.dropWaiter id handle
    { m with outcomes := m.outcomes ++ [(handle, outcome)] }.notify id
  else m

/-- Offer a completion to the waiters of a snapshot; answers whether one woke. -/
def offerWaiters (id : Id) (event : CompletionEvent) (now : Ms) :
    List AwaitWaiter → AlertManager → AlertManager × Bool
  | [], m => (m, false)
  | waiter :: waiters, m =>
    match awaitCauseFor waiter.awaitUntil event with
    | none => offerWaiters id event now waiters m
    | some cause =>
      let m := m.settle id waiter.handle (.resolved cause (now - waiter.startedAt))
      ((offerWaiters id event now waiters m).1, true)

/-- Count one question to a callback. -/
def countAsked (id : Id) (key : Nat) (m : AlertManager) : AlertManager :=
  { m with
    claimants := m.claimants.set id (((m.claimants.get id).getD []).map fun
      | .callback k answer asked =>
        if k = key then .callback k answer (asked + 1) else .callback k answer asked
      | .parked => .parked) }

/-- Offer a completion to the claimants of a snapshot in order, to the first that claims it. -/
def offerClaimants (id : Id) (event : CompletionEvent) (now : Ms) :
    List Claimant → AlertManager → AlertManager × Bool
  | [], m => (m, false)
  | .callback key answer asked :: claimants, m =>
    let m := m.countAsked id key
    if answer asked event then (m, true) else offerClaimants id event now claimants m
  | .parked :: claimants, m =>
    match offerWaiters id event now ((m.awaits.get id).getD []) m with
    | (m, true) => (m, true)
    | (m, false) => offerClaimants id event now claimants m

/-- Settle every waiter of the id the same way. -/
def settleWaiters (id : Id) (outcome : Ms → AwaitOutcome) (now : Ms) (m : AlertManager) :
    AlertManager :=
  ((m.awaits.get id).getD []).foldl
    (fun m waiter => m.settle id waiter.handle (outcome (now - waiter.startedAt))) m

/-- Clear the grace timers of the waiters that `p` picks. -/
def clearGrace (id : Id) (p : AwaitWaiter → Bool) (m : AlertManager) : AlertManager :=
  match m.awaits.get id with
  | none => m
  | some waiters =>
    { m with
      awaits := m.awaits.set id
        (waiters.map fun waiter => if p waiter then { waiter with graceTimer := none } else waiter) }

/-! ### The ring rules -/

/-- What a completion nobody claimed does. -/
def ringRule (id : Id) (event : CompletionEvent) (now : Ms) (m : AlertManager) : AlertManager :=
  match m.entries.get id with
  | none => m
  | some e =>
    match event with
    | .settled =>
      if !m.isWatching e || m.hasAttention id then m
      else (m.modifyEntry id applyWatchingRinging).notify id
    | .commandFinished displayCommand _ exitCode ranMs armed =>
      if !armed || m.hasAttention id || ranMs < m.inactivityTimeoutMs then m
      else
        let m := m.modifyEntry id (applyCommandExitRinging displayCommand exitCode)
        if e.deferredNotification ≠ none then m.flushDeferredNotification id else m.notify id
    | .notification notification =>
      if m.hasAttention id then m.notify id
      else m.deferOrDeliverNotification id notification now

/-- Observe, claim, ring: answers whether a claimant took the event. -/
def dispatchCompletion (id : Id) (event : CompletionEvent) (now : Ms) (m : AlertManager) :
    AlertManager × Bool :=
  match offerClaimants id event now ((m.claimants.get id).getD []) m with
  | (m, true) => (m, true)
  | (m, false) => (m.ringRule id event now, false)

def onSettled (id : Id) (now : Ms) (m : AlertManager) : AlertManager :=
  if m.entries.has id then
    (m.dispatchCompletion id .settled now).1.flushDeferredNotification id
  else m

/-! ### The command-exit track -/

def startCommandExitWatch (id : Id) (source : Option CommandRunSource) (startedAt : Option Ms)
    (now : Ms) (m : AlertManager) : AlertManager :=
  let attended := m.hasAttention id
  (m.modifyEntry id fun e =>
      let resolved := resolveCommandStart e.pendingCommandLine source startedAt now
        DEFAULT_COMMAND_TITLE
      { e with
        pendingCommandLine := none
        commandExitStatus :=
          if e.commandExitStatus ≠ .ALERT_RINGING then .IDLE else e.commandExitStatus
        commandExitWatch := some
          { displayCommand := resolved.displayCommand
            argv0 := resolved.rawCommandLine.bind commandArgv0
            source := resolved.source
            startedAt := resolved.startedAt
            seenWithAttentionAt := if attended then some now else none } })
    |>.modifyDetector id .reset
    |>.clearGrace id fun _ => true

/-- Answers whether a command was being watched. -/
def finishCommandExitWatch (id : Id) (exitCode : Option Int) (now : Ms) (m : AlertManager) :
    AlertManager × Bool :=
  match m.entries.get id with
  | none => (m, false)
  | some e =>
    let wasArmed : Bool := e.commandExitStatus = .COMMAND_EXIT_ARMED
    let m := m.modifyEntry id fun e =>
      { e with
        commandExitWatch := none
        pendingCommandLine := none
        commandExitStatus :=
          if e.commandExitStatus ≠ .ALERT_RINGING then .IDLE else e.commandExitStatus }
    let m :=
      match e.commandExitWatch with
      | none => m
      | some watch =>
        (m.dispatchCompletion id (.commandFinished watch.displayCommand watch.argv0 exitCode
          (now - watch.startedAt) wasArmed) now).1
    (m.modifyDetector id .reset, e.commandExitWatch.isSome)

/-- Arm the track if it can be armed; answers whether it was. -/
def armCommandExitOnAttentionLoss (id : Id) (m : AlertManager) : AlertManager × Bool :=
  if (m.entries.get id).any canArm then
    (m.modifyEntry id fun e => { e with commandExitStatus := .COMMAND_EXIT_ARMED }, true)
  else (m, false)

/-- Arm and, if that changed anything, publish it. -/
def armAndNotify (id : Id) (m : AlertManager) : AlertManager :=
  match m.armCommandExitOnAttentionLoss id with
  | (m, true) => m.notify id
  | (m, false) => m

def semanticEvent (id : Id) (now : Ms) (event : TerminalSemanticEvent) (m : AlertManager) :
    AlertManager × Bool :=
  match event with
  | .commandLine commandLine =>
    if (m.entries.get id).any (·.pendingCommandLine ≠ some commandLine) then
      (m.modifyEntry id fun e => { e with pendingCommandLine := some commandLine }, true)
    else (m, false)
  | .commandStart source startedAt => (m.startCommandExitWatch id source startedAt now, true)
  | .commandFinish exitCode _ => m.finishCommandExitWatch id exitCode now
  | .promptStart | .promptEnd =>
    if (m.entries.get id).any fun e => e.pendingCommandLine ≠ none ∨ e.commandExitWatch ≠ none then
      ((m.finishCommandExitWatch id none now).1, true)
    else (m.modifyDetector id .reset, false)
  | .cwd _ | .title _ => (m, false)

def semanticEvents (id : Id) (now : Ms) :
    List TerminalSemanticEvent → AlertManager → AlertManager × Bool
  | [], m => (m, false)
  | event :: events, m =>
    let r := m.semanticEvent id now event
    let rest := semanticEvents id now events r.1
    (rest.1, r.2 || rest.2)

def applyTerminalSemanticEvents (id : Id) (events : List TerminalSemanticEvent) (now : Ms)
    (m : AlertManager) : AlertManager :=
  if events.isEmpty || id ∈ m.helpers then m
  else
    match semanticEvents id now events (m.reportedEntry id) with
    | (m, true) => m.notify id
    | (m, false) => m

/-! ### PTY events -/

def onData (id : Id) (now : Ms) (m : AlertManager) : AlertManager :=
  if id ∈ m.helpers then m
  else if id ∈ m.removed then m
  else
    (m.streamEntry id).modifyDetector id (.onData now)
      |>.modifyEntry id (fun e =>
        if e.watchingRingingCommand ≠ none then { e with outputSinceWatchingRing := true } else e)
      |>.clearGrace id fun waiter => waiter.awaitUntil = .quiet

def onExit (id : Id) (exitCode : Option Int) (now : Ms) (m : AlertManager) : AlertManager :=
  if id ∈ m.helpers then m
  else
    let m :=
      match m.finishCommandExitWatch id exitCode now with
      | (m, true) => m.notify id
      | (m, false) => m
    m.settleWaiters id .died now

def onResize (id : Id) (now : Ms) (m : AlertManager) : AlertManager :=
  if id ∈ m.helpers then m
  else if id ∈ m.removed then m
  else (m.streamEntry id).modifyDetector id (.onResize now)

/-! ### The terminal-report protocol track -/

def notifyFromProtocol (id : Id) (notification : ActivityNotification) (now : Ms)
    (m : AlertManager) : AlertManager :=
  if id ∈ m.helpers then m
  else
    let m := m.reportedEntry id
    match normalizeActivityNotification
        (some (some notification.source, notification.title, notification.body)) with
    | none => m
    | some normalized => (m.dispatchCompletion id (.notification normalized) now).1

def progressNotification (title : JsString) (percent : Option ℚ) : ActivityNotification where
  source := .OSC_9_4
  title := some title
  body := percent.map fun percent =>
    js "Progress " ++ JsString.ofInt (mathRound percent) ++ js "%"

/-- The cycle is cleared before it is dispatched: a claim must not leave it busy. -/
def finishProtocolProgressCycle (id : Id) (title : JsString) (percent : Option ℚ) (now : Ms)
    (m : AlertManager) : AlertManager :=
  let m := m.modifyEntry id fun e =>
    { e with
      progress := none
      protocolStatus := if e.protocolStatus = .OSC_NOTIF_BUSY then .IDLE else e.protocolStatus }
  match m.dispatchCompletion id (.notification (progressNotification title percent)) now with
  | (m, true) => m.notify id
  | (m, false) => m

def completeProtocolProgress (id : Id) (progress : ActiveProtocolProgress) (now : Ms)
    (m : AlertManager) : AlertManager :=
  m.finishProtocolProgressCycle id
    (if progress.state = .warning then js "Progress warning" else js "Progress complete")
    progress.percent now

/-- A progress report that ends no cycle. -/
def activeProgress (id : Id) (progress : ActiveProtocolProgress) (m : AlertManager) :
    AlertManager :=
  if (m.entries.get id).any fun e =>
      e.protocolStatus = .OSC_NOTIF_BUSY ∧ e.progress = some progress then m
  else
    (m.modifyEntry id fun e =>
      { e with progress := some progress, protocolStatus := .OSC_NOTIF_BUSY }).notify id

def updateProtocolProgress (id : Id) (progress : ProtocolProgressUpdate) (now : Ms)
    (m : AlertManager) : AlertManager :=
  if id ∈ m.helpers then m
  else
    let m := m.reportedEntry id
    let current := (m.entries.get id).bind (·.progress)
    match progress.state with
    | .clear =>
      match current with
      | none => m
      | some running => m.completeProtocolProgress id running now
    | .error => m.finishProtocolProgressCycle id (js "Progress error") progress.percent now
    | .normal =>
      if progress.percent = some 100 then
        m.completeProtocolProgress id
          ⟨if current.any (·.state = .warning) then .warning else .normal, progress.percent⟩ now
      else m.activeProgress id ⟨.normal, progress.percent⟩
    | .warning => m.activeProgress id ⟨.warning, progress.percent⟩
    | .indeterminate => m.activeProgress id ⟨.indeterminate, progress.percent⟩

/-! ### Attention -/

/-- An id is falsy when empty. -/
def setAttention (id : Id) (now : Ms) (m : AlertManager) : AlertManager :=
  let m :=
    match m.attentionId with
    | none => m
    | some previous => if previous ≠ [] ∧ previous ≠ id then m.armAndNotify previous else m
  { m with attentionId := some id, attentionTimer := some (id, now + m.inactivityTimeoutMs) }

def attentionExpires (m : AlertManager) : AlertManager :=
  match m.attentionTimer with
  | none => m
  | some (id, _) =>
    let m :=
      if m.attentionId = some id then { m with attentionId := none }.armAndNotify id else m
    { m with attentionTimer := none }

def attend (id : Id) (now : Ms) (m : AlertManager) : AlertManager :=
  if id ∈ m.helpers then m
  else
    let r := ((m.getOrCreateEntry id).setAttention id now).clearAllRingsIfActive id
    let m :=
      if r.2 then r.1.modifyEntry id fun e => { e with attentionDismissedRing := true, todo := true }
      else r.1
    (m.modifyEntry id (markCommandExitSeen now)).notify id

def clearAttention (id : Option Id) (m : AlertManager) : AlertManager :=
  if id.any fun id => m.attentionId ≠ some id || id ∈ m.helpers then m
  else
    let lost := m.attentionId
    let m := { m with attentionId := none, attentionTimer := none }
    match lost with
    | none => m
    | some lost => if lost ≠ [] then m.armAndNotify lost else m

/-! ### Alert and TODO controls -/

def dismissAlert (id : Id) (m : AlertManager) : AlertManager :=
  match m.entries.get id with
  | none => m
  | some e =>
    let r := m.clearAllRingsIfActive id
    let m := r.1.modifyEntry id fun e =>
      { e with todo := r.2 || e.todo, attentionDismissedRing := false }
    if r.2 || e.attentionDismissedRing then m.notify id else m

def toggleTodo (id : Id) (m : AlertManager) : AlertManager :=
  if id ∈ m.helpers then m
  else
    ((m.getOrCreateEntry id).modifyEntry id fun e =>
        { e with todo := !e.todo, notification := if e.todo then none else e.notification })
      |>.clearAllRingsIfActive id |>.1.notify id

def markTodo (id : Id) (m : AlertManager) : AlertManager :=
  if id ∈ m.helpers then m
  else
    let r := (m.getOrCreateEntry id).clearAllRingsIfActive id
    if (r.1.entries.get id).any (·.todo) && !r.2 then r.1
    else (r.1.modifyEntry id fun e => { e with todo := true }).notify id

def clearTodo (id : Id) (m : AlertManager) : AlertManager :=
  if id ∈ m.helpers then m
  else
    ((m.getOrCreateEntry id).modifyEntry id fun e => { e with todo := false, notification := none })
      |>.clearAllRingsIfActive id |>.1.notify id

/-! ### WATCHING rules -/

/-- Dropping a rule silences the ring it raised. -/
def applyWatchedCommands (id : Id) (m : AlertManager) : AlertManager :=
  (m.modifyEntry id fun e =>
    if e.watchingRingingCommand.any (· ∉ m.watchedCommands) then
      { e with watchingRingingCommand := none, outputSinceWatchingRing := false }
    else e).notify id

def replaceWatchedCommands (next : Finset JsString) (m : AlertManager) : AlertManager :=
  if next = m.watchedCommands then m
  else
    m.entries.keys.foldl (fun m id => m.applyWatchedCommands id) { m with watchedCommands := next }

def setWatchedCommands (names : List JsString) (m : AlertManager) : AlertManager :=
  m.replaceWatchedCommands names.toFinset

/-- Apply one command-rule mutation without replacing unrelated rules. -/
def setCommandWatched (name : JsString) (watched : Bool) (m : AlertManager) : AlertManager :=
  let trimmed := JsString.trim name
  if trimmed = [] ∨ (trimmed ∈ m.watchedCommands ↔ watched) then m
  else
    m.replaceWatchedCommands
      (if watched then insert trimmed m.watchedCommands else m.watchedCommands.erase trimmed)

/-! ### Settings -/

/-- `none` is a number that is not finite. -/
def setInactivityTimeoutMs (ms : Option Ms) (now : Ms) (m : AlertManager) : AlertManager :=
  match ms with
  | none => m
  | some ms =>
    if ms ≤ 0 ∨ ms = m.inactivityTimeoutMs then m
    else
      let m := { m with inactivityTimeoutMs := ms }
      match m.attentionTimer, m.attentionId with
      | some _, some id => m.setAttention id now
      | _, _ => m

def setDeferAlertsUntilQuiet (enabled : Bool) (m : AlertManager) : AlertManager :=
  if enabled = m.deferAlertsUntilQuiet then m
  else
    let m := { m with deferAlertsUntilQuiet := enabled }
    if enabled then m else m.entries.keys.foldl (fun m id => m.flushDeferredNotification id) m

def applySettings (inactivityTimeoutMs : Option Ms) (deferAlertsUntilQuiet : Bool) (now : Ms)
    (m : AlertManager) : AlertManager :=
  (m.setInactivityTimeoutMs inactivityTimeoutMs now).setDeferAlertsUntilQuiet deferAlertsUntilQuiet

def setHelper (id : Id) (helper : Bool) (m : AlertManager) : AlertManager :=
  { m with helpers := if helper then insert id m.helpers else m.helpers.erase id }

/-! ### Await -/

/-- Host-side cap below the overflow boundary of `setTimeout`. -/
def MAX_AWAIT_TIMEOUT_MS : Ms := 24 * 60 * 60 * 1000

/-- Detector floor for reaching BUSY. -/
def AWAIT_GRACE_MS : Ms := T_BUSY_CANDIDATE_GAP + T_BUSY_CONFIRM_GAP

/-- Consume the ring an await arriving right now would resolve on. -/
def consumeAwaitableRing (id : Id) (awaitUntil : AwaitUntil) (m : AlertManager) :
    AlertManager × Option AwaitCause :=
  match m.entries.get id with
  | none => (m, none)
  | some e =>
    if awaitUntil = .quiet ∧ e.protocolStatus = .ALERT_RINGING then
      ((m.releaseRing id .protocol).1, some .bell)
    else if e.commandExitWatch = none ∧ e.commandExitStatus = .ALERT_RINGING then
      ((m.releaseRing id .commandExit).1, some .exit)
    else if awaitUntil = .quiet ∧ ¬e.outputSinceWatchingRing ∧ e.watchingRingingCommand ≠ none then
      ((m.releaseRing id .watching).1, some .quiet)
    else (m, none)

/-- An await that is over before it parks. -/
def settledAwait (handle : Nat) (outcome : AwaitOutcome) (m : AlertManager) : AlertManager :=
  { m with outcomes := m.outcomes ++ [(handle, outcome)] }

/-- The call's handle is `nextHandle`; `timeoutMs` is `none` when not finite. -/
def awaitCompletion (id : Id) (awaitUntil : AwaitUntil) (timeoutMs : Option Ms) (now : Ms)
    (m : AlertManager) : AlertManager :=
  let handle := m.nextHandle
  let m := { m with nextHandle := handle + 1 }
  if id ∈ m.helpers then m.settledAwait handle (.cancelled 0)
  else
    match timeoutMs with
    | none => m.settledAwait handle (.cancelled 0)
    | some timeoutMs =>
      if timeoutMs ≤ 0 ∨ MAX_AWAIT_TIMEOUT_MS < timeoutMs then
        m.settledAwait handle (.cancelled 0)
      else if id ∈ m.removed then m.settledAwait handle (.died 0)
      else
        match (m.getOrCreateEntry id).consumeAwaitableRing id awaitUntil with
        | (m, some cause) => (m.notify id).settledAwait handle (.resolved cause 0)
        | (m, none) =>
          let running := (m.entries.get id).any fun e => e.commandExitWatch ≠ none
          (m.addWaiter id
            { handle := handle
              awaitUntil := awaitUntil
              startedAt := now
              graceTimer := if running then none else some (now + AWAIT_GRACE_MS)
              timeoutTimer := now + timeoutMs }).notify id

/-! ### Timers -/

/-- The waiter of a handle, with the id it is parked on. -/
def waiterAt (m : AlertManager) (id : Id) (handle : Nat) : Option AwaitWaiter :=
  ((m.awaits.get id).getD []).find? (·.handle = handle)

def graceExpires (id : Id) (handle : Nat) (now : Ms) (m : AlertManager) : AlertManager :=
  match m.waiterAt id handle with
  | some waiter =>
    if waiter.graceTimer ≠ none then
      m.settle id handle (.resolved .idle (now - waiter.startedAt))
    else m
  | none => m

def awaitTimesOut (id : Id) (handle : Nat) (now : Ms) (m : AlertManager) : AlertManager :=
  match m.waiterAt id handle with
  | some waiter => m.settle id handle (.timeout (now - waiter.startedAt))
  | none => m

def cancelAwait (id : Id) (handle : Nat) (now : Ms) (m : AlertManager) : AlertManager :=
  match m.waiterAt id handle with
  | some waiter => m.settle id handle (.cancelled (now - waiter.startedAt))
  | none => m

/-- Wake at the quiet deadline, or again at the later one that output moved it to. -/
def deferredNotificationDue (id : Id) (now : Ms) (m : AlertManager) : AlertManager :=
  match m.entries.get id with
  | none => m
  | some e =>
    if e.deferredNotificationTimer = none then m
    else if e.detector.quietAt now > now then
      m.modifyEntry id (scheduleDeferredNotification now)
    else
      (m.modifyEntry id fun e => { e with deferredNotificationTimer := none })
        |>.flushDeferredNotification id

def detectorTimer (id : Id) (timer : QuiesceDetector.DetectorTimer) (now : Ms)
    (m : AlertManager) : AlertManager :=
  match m.entries.get id with
  | none => m
  | some e =>
    if e.detector.due timer = none then m
    else
      match timer with
      | .busyCandidate => m.modifyDetector id (.busyCandidateFires now)
      | .busyConfirm => m.modifyDetector id (.busyConfirmFires now)
      | .mightNeedAttention => m.modifyDetector id (.mightNeedAttentionFires now)
      | .resize => m.modifyDetector id .resizeFires
      | .settledConfirm =>
        let m := m.modifyDetector id .settleStarts
        if e.detector.settles then (m.onSettled id now).modifyDetector id .settleEnds else m

/-! ### Session lifetime -/

def remove (id : Id) (now : Ms) (m : AlertManager) : AlertManager :=
  let m := { m with helpers := m.helpers.erase id, removed := insert id m.removed }
  let m := m.settleWaiters id .died now
  let m := { m with claimants := m.claimants.delete id }
  if m.entries.has id then
    let m := { m with entries := m.entries.delete id }
    let m :=
      if m.attentionId = some id then { m with attentionId := none, attentionTimer := none } else m
    m.notify id
  else m

/-- Only the TODO and its detail survive a restart. -/
def seed (id : Id) (todo : Bool) (notification : UnknownNotification) (m : AlertManager) :
    AlertManager :=
  if id ∈ m.helpers then m
  else
    ((m.getOrCreateEntry id).modifyEntry id fun e =>
        { e with
          todo := todo
          notification := if todo then normalizeActivityNotification notification else none
          watchingRingingCommand := none
          outputSinceWatchingRing := false
          protocolStatus := .IDLE
          progress := none
          commandExitStatus := .IDLE
          commandExitWatch := none
          pendingCommandLine := none }.clearDeferredNotification)
      |>.modifyDetector id .reset
      |>.notify id

/-- The attended id outlives `dispose`; its timer does not. -/
def dispose (now : Ms) (m : AlertManager) : AlertManager :=
  let m := m.awaits.keys.foldl (fun m id => m.settleWaiters id .cancelled now) m
  { m with
    entries := .empty
    removed := ∅
    helpers := ∅
    awaits := .empty
    claimants := .empty
    lastEmitted := .empty
    attentionTimer := none }

/-! ### Runs -/

/-- The public operations, and the timers as they fire. -/
inductive Operation
  | applySettings (inactivityTimeoutMs : Option Ms) (deferAlertsUntilQuiet : Bool)
  | setHelper (id : Id) (helper : Bool)
  | onData (id : Id)
  | onExit (id : Id) (exitCode : Option Int)
  | onResize (id : Id)
  | setWatchedCommands (names : List JsString)
  | setCommandWatched (name : JsString) (watched : Bool)
  | registerCompletionClaimant (id : Id) (key : Nat) (answer : Nat → CompletionEvent → Bool)
  | unregisterClaimant (id : Id) (key : Nat)
  | awaitCompletion (id : Id) (awaitUntil : AwaitUntil) (timeoutMs : Option Ms)
  | cancelAwait (id : Id) (handle : Nat)
  | notifyFromProtocol (id : Id) (notification : ActivityNotification)
  | updateProtocolProgress (id : Id) (progress : ProtocolProgressUpdate)
  | applyTerminalSemanticEvents (id : Id) (events : List TerminalSemanticEvent)
  | attend (id : Id)
  | clearAttention (id : Option Id)
  | dismissAlert (id : Id)
  | toggleTodo (id : Id)
  | markTodo (id : Id)
  | clearTodo (id : Id)
  | remove (id : Id)
  | seed (id : Id) (todo : Bool) (notification : UnknownNotification)
  | dispose
  | attentionExpires
  | graceExpires (id : Id) (handle : Nat)
  | awaitTimesOut (id : Id) (handle : Nat)
  | deferredNotificationDue (id : Id)
  | detectorTimer (id : Id) (timer : QuiesceDetector.DetectorTimer)

/-- One operation, at the time `now`. -/
def perform (now : Ms) (m : AlertManager) : Operation → AlertManager
  | .applySettings timeoutMs deferUntilQuiet => m.applySettings timeoutMs deferUntilQuiet now
  | .setHelper id helper => m.setHelper id helper
  | .onData id => m.onData id now
  | .onExit id exitCode => m.onExit id exitCode now
  | .onResize id => m.onResize id now
  | .setWatchedCommands names => m.setWatchedCommands names
  | .setCommandWatched name watched => m.setCommandWatched name watched
  | .registerCompletionClaimant id key answer =>
    m.registerClaimant id (some key) (.callback key answer 0)
  | .unregisterClaimant id key => m.unregisterClaimant id (some key)
  | .awaitCompletion id awaitUntil timeoutMs => m.awaitCompletion id awaitUntil timeoutMs now
  | .cancelAwait id handle => m.cancelAwait id handle now
  | .notifyFromProtocol id notification => m.notifyFromProtocol id notification now
  | .updateProtocolProgress id progress => m.updateProtocolProgress id progress now
  | .applyTerminalSemanticEvents id events => m.applyTerminalSemanticEvents id events now
  | .attend id => m.attend id now
  | .clearAttention id => m.clearAttention id
  | .dismissAlert id => m.dismissAlert id
  | .toggleTodo id => m.toggleTodo id
  | .markTodo id => m.markTodo id
  | .clearTodo id => m.clearTodo id
  | .remove id => m.remove id now
  | .seed id todo notification => m.seed id todo notification
  | .dispose => m.dispose now
  | .attentionExpires => m.attentionExpires
  | .graceExpires id handle => m.graceExpires id handle now
  | .awaitTimesOut id handle => m.awaitTimesOut id handle now
  | .deferredNotificationDue id => m.deferredNotificationDue id now
  | .detectorTimer id timer => m.detectorTimer id timer now

end AlertManager

/-- The runs of one manager: any operation at any time, an armed timer early or late. -/
def alerts : System AlertManager (Ms × AlertManager.Operation) where
  init m := m = .fresh
  step m label m' := m' = m.perform label.1 label.2

end Dormouse.Alert
