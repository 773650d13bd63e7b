import Dormouse.Lib.History
import Dormouse.Lib.Transition
import Dormouse.Pty.Manager

/-!
# Dormouse.Pty.Recovery

**Agent recovery commands** (`vscode-ext/src/session-state.ts`): a teardown interrupts the live
PTYs and records what each prints to resume it; the next extension host that serves a webview
takes the record and hands its commands out, to be run unasked.

Extension hosts live one after another, and each may die at any step. One that dies between two
file operations leaves the disk as if the later one had failed. A container takes its commands
before its router is attached, so before it can have any PTY.
-/

namespace Dormouse.Pty

/-- What reads a pane's output: the recognizer of an invocation, and whether a text asks for a
second press once terminal controls are stripped. -/
structure Recognizers where
  detectResumeCommand : JsString → Option JsString
  asksForSecondPress : JsString → Bool

def BLIND_SECOND_PRESS_MS : Int := 600

def QUIET_BEFORE_RETRY_MS : Int := 200

def ASK_TAIL_CHARS : Nat := 8192

def RECOVERY_MAX_AGE_MS : Int := 7 * 24 * 60 * 60 * 1000

/-! ### The capture -/

structure PersistedRecovery where
  createdAt : Option Int
  /-- Surface id to resume invocation; `none` where the file has no string. -/
  commands : InsertionMap JsString (Option JsString)

inductive CaptureStage
  | interrupting
  | sleeping
  | pressing
  deriving DecidableEq

/-- A run of `captureAgentRecoveryCommands`, with its place among all runs. -/
structure Capture where
  number : Nat
  deadline : Int
  liveIds : List JsString
  startMark : InsertionMap JsString Nat
  lastMark : InsertionMap JsString Nat
  lastGrewAt : InsertionMap JsString Int
  interruptedAt : Int
  commands : InsertionMap JsString JsString
  pressedTwice : List JsString
  stage : CaptureStage

def PtyManager.liveIds (m : PtyManager) : List JsString :=
  (m.ptyBuffers.entries.filter fun e => e.2.alive).map Prod.fst

def marks (m : PtyManager) (ids : List JsString) : InsertionMap JsString Nat :=
  ids.foldl (fun marks id => marks.set id (m.getScrollbackReceived id)) .empty

namespace Capture

/-- Up to the first interrupt. -/
def start (number : Nat) (m : PtyManager) (now maxWaitMs : Int) : Capture where
  number := number
  deadline := now + maxWaitMs
  liveIds := m.liveIds
  startMark := marks m m.liveIds
  lastMark := marks m m.liveIds
  lastGrewAt := .empty
  interruptedAt := now
  commands := .empty
  pressedTwice := []
  stage := .interrupting

def pending (c : Capture) : List JsString := c.liveIds.filter fun id => !c.commands.has id

def outputSinceInterrupt (c : Capture) (m : PtyManager) (id : JsString) : JsString :=
  match c.startMark.get id with
  | none => []
  | some mark => m.getScrollbackSince id mark

/-- The invocation found in what a pane has printed since the interrupt. -/
def detected (r : Recognizers) (m : PtyManager) (c : Capture) (id : JsString) : Option JsString :=
  match c.outputSinceInterrupt m id with
  | [] => none
  | output => (r.detectResumeCommand output).filter (· ≠ [])

def asks (r : Recognizers) (m : PtyManager) (c : Capture) (id : JsString) : Bool :=
  let output := c.outputSinceInterrupt m id
  r.asksForSecondPress (output.drop (output.length - ASK_TAIL_CHARS))

/-- `scanPending`: what is found, and the panes that ask for a second press. -/
def scanPending (r : Recognizers) (m : PtyManager) (c : Capture) :
    List (JsString × JsString) × List JsString :=
  (c.pending.filterMap fun id => (detected r m c id).map fun command => (id, command),
    c.pending.filter fun id =>
      c.outputSinceInterrupt m id != [] && (detected r m c id).isNone && asks r m c id)

def record (c : Capture) (found : List (JsString × JsString)) : Capture :=
  { c with commands := found.foldl (fun commands e => commands.set e.1 e.2) c.commands }

/-- What `persist` writes. -/
def payload (c : Capture) (now : Int) : PersistedRecovery where
  createdAt := now
  commands := c.commands.filterMap fun command => some (some command)

/-- Note which pending panes have printed. -/
def watch (m : PtyManager) (now : Int) (c : Capture) : Capture :=
  c.pending.foldl (fun c id =>
    let mark := m.getScrollbackReceived id
    if c.lastMark.get id = some mark then c
    else { c with lastMark := c.lastMark.set id mark, lastGrewAt := c.lastGrewAt.set id now }) c

/-- The panes to be pressed again: one that asks, or one that has been silent long enough. -/
def retry (c : Capture) (asked : List JsString) (now : Int) : List JsString :=
  c.pending.filter fun id => decide (id ∉ c.pressedTwice) &&
    (decide (id ∈ asked) ||
      (decide (BLIND_SECOND_PRESS_MS ≤ now - c.interruptedAt) &&
        decide (QUIET_BEFORE_RETRY_MS ≤ now - (c.lastGrewAt.get id).getD c.interruptedAt)))

/-- The head of the poll. -/
def poll (c : Capture) (now : Int) : Option Capture :=
  if now < c.deadline then some { c with stage := .sleeping } else none

/-- An interrupt has been acknowledged, or has timed out. -/
def acked (c : Capture) (now : Int) : Option Capture :=
  match c.stage with
  | .sleeping => some c
  | .pressing => c.poll now
  | .interrupting =>
    { c with
      interruptedAt := now
      lastGrewAt := c.liveIds.foldl (fun grew id => grew.set id now) c.lastGrewAt }.poll now

/-- What comes after a scan. -/
def settle (c : Capture) (m : PtyManager) (asked : List JsString) (now : Int) : Option Capture :=
  if c.pending.isEmpty then none
  else
    let c := c.watch m now
    match c.retry asked now with
    | [] => c.poll now
    | retry => some { c with pressedTwice := c.pressedTwice ++ retry, stage := .pressing }

end Capture

/-! ### The record on disk -/

/-- The record, with the capture that wrote it. It is replaced by a rename, so it is a whole
record, or the whole one before it. -/
structure Stored where
  record : PersistedRecovery
  capture : Nat

/-- What `readAndClearRecoveryRecord` makes of a record that it has read and unlinked: nothing
of one that is too old, and of the others only what is a string. -/
def usable (record : PersistedRecovery) (now : Int) : InsertionMap JsString JsString :=
  if RECOVERY_MAX_AGE_MS < now - record.createdAt.getD 0 then .empty
  else record.commands.filterMap id

/-- Take the commands of these panes out of what is left. -/
def claim (unclaimed : InsertionMap JsString JsString) :
    List JsString → List (JsString × JsString) × InsertionMap JsString JsString
  | [] => ([], unclaimed)
  | id :: ids =>
    match unclaimed.get id with
    | none => claim unclaimed ids
    | some command =>
      let (claimed, rest) := claim (unclaimed.delete id) ids
      ((id, command) :: claimed, rest)

/-! ### Extension hosts, one after another -/

inductive RecoveryEvent
  /-- A capture takes its marks, and interrupts. -/
  | began (capture : Nat)
  /-- A capture has cleared the record that was there. -/
  | cleared (capture : Nat)
  | printed (id data : JsString)
  /-- A chunk goes into the buffers of its pane. -/
  | received (id data : JsString)
  | found (capture : Nat) (id command : JsString)
  /-- An extension host has unlinked the record of a capture that it has read. -/
  | unlinked (host capture : Nat)
  | handed (host capture : Nat) (id command : JsString)
  deriving DecidableEq

/-- One extension host. -/
structure RecoveryHost where
  manager : PtyManager
  /-- Whether a container has been resolved, so that there can be PTYs. -/
  attached : Bool
  unclaimedRecovery : Option (InsertionMap JsString JsString)
  /-- The capture whose record is in memory. -/
  readFrom : Nat
  capture : Option Capture
  /-- What PTYs have printed, on its way from the child. -/
  printed : List (JsString × JsString)

structure RecoveryWorld where
  record : Option Stored
  host : Option RecoveryHost
  /-- How many hosts there have been, and how many captures. -/
  hosts : Nat
  captures : Nat
  history : List RecoveryEvent

inductive RecoveryAct
  | activate
  | die
  /-- A container is resolved for these panes. The record may be unreadable, or not be unlinked. -/
  | resolve (ids : List JsString) (readable unlinkable : Bool) (now : Int)
  | spawn (id : JsString) (shell : Option JsString)
  | kill (id : JsString)
  | print (id data : JsString)
  | deliver
  | exit (id : JsString) (exitCode : Int)
  /-- `captureAgentRecoveryCommands`; the record that is there may not be removed. -/
  | capture (removable : Bool) (now maxWaitMs : Int)
  | ack (now : Int)
  /-- The poll's sleep is over; the record may not be written. -/
  | tick (writable : Bool) (now : Int)

namespace RecoveryWorld

def create : RecoveryWorld := ⟨none, none, 0, 0, []⟩

/-- The number of the host that is running. -/
def number (w : RecoveryWorld) : Nat := w.hosts - 1

/-- What `unclaimedRecovery ??= readAndClearRecoveryRecord` leaves. -/
def readAndClear (w : RecoveryWorld) (host : RecoveryHost) (readable unlinkable : Bool) (now : Int) :
    RecoveryWorld × RecoveryHost :=
  match host.unclaimedRecovery, w.record with
  | some _, _ => (w, host)
  | none, none => (w, { host with unclaimedRecovery := some .empty })
  | none, some stored =>
    if unlinkable then
      ({ w with
          record := none
          history := w.history ++ [.unlinked w.number stored.capture] },
        { host with
          unclaimedRecovery := some (if readable then usable stored.record now else .empty)
          readFrom := stored.capture })
    else (w, { host with unclaimedRecovery := some .empty })

/-- `takeRecoveryCommands`, and the router that is attached after it. -/
def resolve (w : RecoveryWorld) (host : RecoveryHost) (ids : List JsString)
    (readable unlinkable : Bool) (now : Int) : RecoveryWorld :=
  let (w, host) := w.readAndClear host readable unlinkable now
  let (claimed, rest) := claim (host.unclaimedRecovery.getD .empty) ids
  { w with
    host := some { host with unclaimedRecovery := some rest, attached := true }
    history := w.history ++ claimed.map fun e =>
      RecoveryEvent.handed w.number host.readFrom e.1 e.2 }

/-- A chunk that the child has sent. -/
def deliver (w : RecoveryWorld) (host : RecoveryHost) : RecoveryWorld :=
  match host.printed with
  | [] => w
  | (id, data) :: printed =>
    { w with
      host := some { host with printed, manager := host.manager.bufferData id data }
      history := w.history ++
        if id ∈ host.manager.killedPtyIds then [] else [RecoveryEvent.received id data] }

/-- `captureAgentRecoveryCommands`, up to the first interrupt. -/
def startCapture (w : RecoveryWorld) (host : RecoveryHost) (removable : Bool) (now maxWaitMs : Int) :
    RecoveryWorld :=
  { w with
    record := if removable then none else w.record
    captures := w.captures + 1
    host := some { host with
      capture :=
        if host.manager.liveIds.isEmpty then none
        else some (.start w.captures host.manager now maxWaitMs) }
    history := w.history ++ (RecoveryEvent.began w.captures ::
      if removable then [RecoveryEvent.cleared w.captures] else []) }

/-- A tick of the poll: scan, persist what changed, and go on. -/
def tick (w : RecoveryWorld) (r : Recognizers) (host : RecoveryHost) (c : Capture) (writable : Bool)
    (now : Int) : RecoveryWorld :=
  let (found, asked) := c.scanPending r host.manager
  let c := c.record found
  { w with
    record :=
      if !found.isEmpty && writable then some ⟨c.payload now, c.number⟩ else w.record
    host := some { host with capture := c.settle host.manager asked now }
    history := w.history ++ found.map fun e => RecoveryEvent.found c.number e.1 e.2 }

def perform (r : Recognizers) (w : RecoveryWorld) : RecoveryAct → RecoveryWorld
  | .activate =>
    match w.host with
    | some _ => w
    | none => { w with hosts := w.hosts + 1, host := some ⟨.create, false, none, 0, none, []⟩ }
  | .die => { w with host := none }
  | .resolve ids readable unlinkable now =>
    match w.host with
    | none => w
    | some host => w.resolve host ids readable unlinkable now
  | .spawn id shell =>
    match w.host with
    | none => w
    | some host =>
      if host.attached then
        { w with host := some { host with manager := host.manager.spawn id shell } }
      else w
  | .kill id =>
    match w.host with
    | none => w
    | some host => { w with host := some { host with manager := host.manager.kill id } }
  | .print id data =>
    match w.host with
    | none => w
    | some host =>
      if host.attached then
        { w with
          host := some { host with printed := host.printed ++ [(id, data)] }
          history := w.history ++ [.printed id data] }
      else w
  | .deliver =>
    match w.host with
    | none => w
    | some host => w.deliver host
  | .exit id exitCode =>
    match w.host with
    | none => w
    | some host => { w with host := some { host with manager := host.manager.bufferExit id exitCode } }
  | .capture removable now maxWaitMs =>
    match w.host with
    | none => w
    | some host =>
      if host.capture.isNone then w.startCapture host removable now maxWaitMs else w
  | .ack now =>
    match w.host with
    | none => w
    | some host => { w with host := some { host with capture := host.capture.bind (·.acked now) } }
  | .tick writable now =>
    match w.host with
    | none => w
    | some host =>
      match host.capture with
      | none => w
      | some c => if c.stage = .sleeping then w.tick r host c writable now else w

/-- The world after a run. -/
def after (r : Recognizers) (w : RecoveryWorld) (acts : List RecoveryAct) : RecoveryWorld :=
  acts.foldl (perform r) w

end RecoveryWorld

/-- The runs. -/
def recoveryRuns (r : Recognizers) : System RecoveryWorld RecoveryAct where
  init w := w = .create
  step w act w' := w' = w.perform r act

/-! ### What is to hold -/

/-- What a pane's buffers have received in a stretch of the history. -/
def receivedIn (id : JsString) (history : List RecoveryEvent) : JsString :=
  history.flatMap fun
    | .received id' data => if id' = id then data else []
    | _ => []

/-- What has to come before an event. A command is handed out once, by the host that unlinked the
record of the capture that found it; a record is unlinked while no later capture has cleared it;
and a command is found in what the pane's buffers have received since the capture's marks. -/
def Justified (r : Recognizers) (before : List RecoveryEvent) : RecoveryEvent → Prop
  | .handed host capture id command =>
    .unlinked host capture ∈ before ∧ .found capture id command ∈ before ∧
      ∀ host' command', RecoveryEvent.handed host' capture id command' ∉ before
  | .unlinked _ capture =>
    (∀ later, RecoveryEvent.cleared later ∈ before → later ≤ capture) ∧
      ∀ host', RecoveryEvent.unlinked host' capture ∉ before
  | .found capture id command =>
    ∃ earlier since output, before = earlier ++ .began capture :: since ∧
      output <:+ receivedIn id since ∧ r.detectResumeCommand output = some command
  | _ => True

end Dormouse.Pty
