import Dormouse.Lib.Transition
import Dormouse.Pty.Streams

/-!
# Dormouse.Pty.Generations

Every **run of spawns, kills and exits**, in a VS Code window and in the sidecar, with what a
reader of the run knows and the code does not: which process each event comes from.

In a window the extension host and the child that holds the PTYs talk over two pipes, each
delivered in order. In the sidecar the same event loop has both, so a process's event reaches
the bridge as it is sent.
-/

namespace Dormouse.Pty

/-! ### What is known of the run -/

inductive Stage
  | launching
  | running
  | exited (exitCode : Int)
  deriving DecidableEq

def Stage.exitCode? : Stage → Option Int
  | .exited exitCode => some exitCode
  | _ => none

/-- The process of one spawn. -/
structure Process where
  id : JsString
  stage : Stage
  deriving DecidableEq

inductive Event
  /-- A chunk of process `p` has been read. -/
  | delivered (p : Nat) (data : JsString)
  /-- Every callback has been told of the exit of process `p`. -/
  | reported (p : Nat) (exitCode : Int)
  /-- A sink attached when there had been this many spawns. -/
  | attached (sink : Nat) (id : JsString) (spawns : Nat)
  | handed (sink p : Nat) (data : JsString)
  | told (sink : Nat) (exitCode : Int)
  deriving DecidableEq

/-- What a read of process `p` is about. -/
def Event.outputOf (p : Nat) : Event → JsString
  | .delivered p' data => if p' = p then data else []
  | _ => []

def Event.reportOf (p : Nat) : Event → Option Int
  | .reported p' exitCode => if p' = p then some exitCode else none
  | _ => none

def Event.toldTo (sink : Nat) : Event → Option Int
  | .told sink' exitCode => if sink' = sink then some exitCode else none
  | _ => none

structure Ledger where
  spawns : Nat
  processes : InsertionMap Nat Process
  /-- The process last spawned under an id, unless the id has been killed since, or its exit has
  been reported. -/
  current : InsertionMap JsString Nat
  sinks : Nat
  history : List Event

namespace Ledger

def create : Ledger := ⟨0, .empty, .empty, 0, []⟩

/-- What process `p` has printed, as far as it has been read. -/
def outputOf (l : Ledger) (p : Nat) : JsString := l.history.flatMap (Event.outputOf p)

/-- The exits that have been reported of process `p`. -/
def reportsOf (l : Ledger) (p : Nat) : List Int := l.history.filterMap (Event.reportOf p)

/-- The exits a sink has been told of. -/
def toldTo (l : Ledger) (sink : Nat) : List Int := l.history.filterMap (Event.toldTo sink)

def spawned (l : Ledger) (id : JsString) : Ledger :=
  { l with
    spawns := l.spawns + 1
    processes := l.processes.set l.spawns ⟨id, .launching⟩
    current := l.current.set id l.spawns }

def killed (l : Ledger) (id : JsString) : Ledger := { l with current := l.current.delete id }

def stage (l : Ledger) (p : Nat) (id : JsString) (stage : Stage) : Ledger :=
  { l with processes := l.processes.set p ⟨id, stage⟩ }

def delivered (l : Ledger) (p : Nat) (data : JsString) (sinks : List Nat) : Ledger :=
  { l with history := l.history ++ Event.delivered p data :: sinks.map fun s => Event.handed s p data }

def tell (l : Ledger) (sinks : List Nat) (exitCode : Int) : Ledger :=
  { l with history := l.history ++ sinks.map fun sink => Event.told sink exitCode }

def reported (l : Ledger) (p : Nat) (id : JsString) (exitCode : Int) (sinks : List Nat) : Ledger :=
  { l.tell sinks exitCode with
    current := if l.current.get id = some p then l.current.delete id else l.current
    history := (l.tell sinks exitCode).history ++ [Event.reported p exitCode] }

/-- A new sink, and what it is told before the call returns. -/
def attached (l : Ledger) (id : JsString) (told : Option Int) : Ledger :=
  { l with
    sinks := l.sinks + 1
    history := l.history ++ Event.attached l.sinks id l.spawns ::
      told.toList.map fun exitCode => Event.told l.sinks exitCode }

/-- Whether an event of process `p` under `id` is not one of an earlier process than the one
that is current. -/
def timely (l : Ledger) (p : Nat) (id : JsString) : Bool := (l.current.get id).all (· == p)

/-- A process that is not running prints nothing and does not exit. -/
def running? (l : Ledger) (p : Nat) : Option JsString :=
  match l.processes.get p with
  | some ⟨id, .running⟩ => some id
  | _ => none

end Ledger

def Sent.exitCode? : Sent → Option Int
  | .exit _ exitCode => some exitCode
  | _ => none

/-- How far a spawn got, by what was sent. -/
def stageAfter (sent : List Sent) : Stage :=
  match sent.filterMap Sent.exitCode? with
  | [] => .running
  | exitCode :: _ => .exited exitCode

/-! ### A window -/

inductive Command
  | spawn (p : Nat) (id : JsString) (helper : Option HelperIdentity)
  | kill (id : JsString)

structure Window where
  host : ExtensionHost
  /-- On their way to the child. -/
  commands : List Command
  core : PtyCore
  /-- On their way to the host, with the process each is about. -/
  messages : List (Nat × Sent)
  ledger : Ledger

inductive WindowAct
  | spawn (id : JsString) (helper : Option HelperIdentity) (shell : Option JsString)
  | kill (id : JsString)
  | retireStream (id : JsString)
  | streamPty (id : JsString)
  | unsubscribe (id : JsString) (sink : Nat)
  | getReplayData (id : JsString)
  /-- The child takes its next command; a spawn ends so. -/
  | handle (launched : Launch)
  | data (p : Nat) (data : JsString)
  | exit (p : Nat) (exitCode : Int)
  /-- The host takes its next message. -/
  | deliver

namespace Window

def create : Window := ⟨.create, [], .create false, [], .create⟩

/-- The child takes a command. -/
def handle (w : Window) (launched : Launch) : Window :=
  match w.commands with
  | [] => w
  | .kill id :: commands => { w with commands, core := w.core.kill id }
  | .spawn p id helper :: commands =>
    let (core, sent) := w.core.spawn id helper p launched
    { w with
      commands
      core
      messages := w.messages ++ sent.map fun e => (p, e)
      ledger := w.ledger.stage p id (stageAfter sent) }

/-- The host takes a message. -/
def deliver (w : Window) : Window :=
  match w.messages with
  | [] => w
  | (_, .error ..) :: messages => { w with messages }
  | (p, .data id data) :: messages =>
    let (host, sinks) := w.host.onData id data
    { w with host, messages, ledger := w.ledger.delivered p data sinks }
  | (p, .exit id exitCode) :: messages =>
    let (host, sinks) := w.host.onExit id exitCode
    { w with host, messages, ledger := w.ledger.reported p id exitCode sinks }

def perform (w : Window) : WindowAct → Window
  | .spawn id helper shell =>
    { w with
      host := w.host.spawn id shell
      commands := w.commands ++ [.spawn w.ledger.spawns id helper]
      ledger := w.ledger.spawned id }
  | .kill id =>
    { w with
      host := w.host.kill id
      commands := w.commands ++ [.kill id]
      ledger := w.ledger.killed id }
  | .retireStream id => { w with host := w.host.retireStream id }
  | .streamPty id =>
    let (host, told) := w.host.streamPty id w.ledger.sinks
    { w with host, ledger := w.ledger.attached id told }
  | .unsubscribe id sink => { w with host := w.host.unsubscribe id sink }
  | .getReplayData id => { w with host := w.host.getReplayData id }
  | .handle launched => w.handle launched
  | .data p data =>
    match w.ledger.running? p with
    | none => w
    | some id =>
      { w with core := w.core.onData id p data, messages := w.messages ++ [(p, .data id data)] }
  | .exit p exitCode =>
    match w.ledger.running? p with
    | none => w
    | some id =>
      { w with
        core := w.core.onExit id p
        messages := w.messages ++ [(p, .exit id exitCode)]
        ledger := w.ledger.stage p id (.exited exitCode) }
  | .deliver => w.deliver

/-- Nothing of an earlier process is delivered while a later one is current. -/
def timely (w : Window) : WindowAct → Bool
  | .deliver =>
    match w.messages with
    | (p, .data id _) :: _ => w.ledger.timely p id
    | (p, .exit id _) :: _ => w.ledger.timely p id
    | _ => true
  | _ => true

/-- The exits of process `p` that are on their way. -/
def exitsInFlight (w : Window) (p : Nat) : List Int :=
  w.messages.filterMap fun m => if m.1 = p then m.2.exitCode? else none

end Window

/-- The runs of a window. -/
def windowRuns : System Window WindowAct where
  init w := w = .create
  step w act w' := w' = w.perform act

/-- The runs in which nothing comes too late. -/
def timelyWindowRuns : System Window WindowAct where
  init w := w = .create
  step w act w' := w.timely act = true ∧ w' = w.perform act

/-! ### The sidecar -/

structure Sidecar where
  core : PtyCore
  bridge : SurfaceBridge
  ledger : Ledger

inductive SidecarAct
  | spawn (id : JsString) (helper : Option HelperIdentity) (launched : Launch)
  | kill (id : JsString)
  | data (p : Nat) (data : JsString)
  | exit (p : Nat) (exitCode : Int)
  | streamPty (id : JsString)
  | unsubscribe (id : JsString) (sink : Nat)

namespace Sidecar

def create : Sidecar := ⟨.create true, .create, .create⟩

/-- What is sent goes through the bridge's tap. -/
def send (s : Sidecar) (p : Nat) : Sent → Sidecar
  | .error .. => s
  | .data id data =>
    let (bridge, sinks) := s.bridge.onData id data
    { s with bridge, ledger := s.ledger.delivered p data sinks }
  | .exit id exitCode =>
    let (bridge, sinks) := s.bridge.onExit id exitCode
    { s with bridge, ledger := s.ledger.reported p id exitCode sinks }

/-- `pty:spawn`: the bridge is told before the spawn. -/
def onPtySpawn (s : Sidecar) (id : JsString) : Sidecar :=
  let (bridge, sinks, exitCode) := s.bridge.onPtySpawn id
  { s with bridge, ledger := (s.ledger.tell sinks exitCode).spawned id }

def perform (s : Sidecar) : SidecarAct → Sidecar
  | .spawn id helper launched =>
    let p := s.ledger.spawns
    let (core, sent) := s.core.spawn id helper p launched
    let told := s.onPtySpawn id
    sent.foldl (fun s e => s.send p e)
      { told with core, ledger := told.ledger.stage p id (stageAfter sent) }
  | .kill id => { s with core := s.core.kill id, ledger := s.ledger.killed id }
  | .data p data =>
    match s.ledger.running? p with
    | none => s
    | some id => { s with core := s.core.onData id p data }.send p (.data id data)
  | .exit p exitCode =>
    match s.ledger.running? p with
    | none => s
    | some id =>
      let sent := { s with ledger := s.ledger.stage p id (.exited exitCode) }.send p
        (.exit id exitCode)
      { sent with core := sent.core.onExit id p }
  | .streamPty id =>
    let (bridge, told) := s.bridge.streamPty (s.core.hasPty id) id s.ledger.sinks
    { s with bridge, ledger := s.ledger.attached id told }
  | .unsubscribe id sink => { s with bridge := s.bridge.unsubscribe id sink }

/-- No process sends while a later one is current. -/
def timely (s : Sidecar) : SidecarAct → Bool
  | .data p _ | .exit p _ => (s.ledger.running? p).all (s.ledger.timely p)
  | _ => true

end Sidecar

/-- The runs of the sidecar. -/
def sidecarRuns : System Sidecar SidecarAct where
  init s := s = .create
  step s act s' := s' = s.perform act

/-- The runs in which nothing comes too late. -/
def timelySidecarRuns : System Sidecar SidecarAct where
  init s := s = .create
  step s act s' := s.timely act = true ∧ s' = s.perform act

/-! ### What is to hold -/

/-- A sink attached after the spawn of the current process of its id has been handed what that
process printed, and has been told of no exit; and no sink is told twice. -/
structure Ledger.Apart (l : Ledger) : Prop where
  handed : ∀ id n, l.current.get id = some n → ∀ sink spawns,
    Event.attached sink id spawns ∈ l.history → n < spawns → ∀ p data,
      Event.handed sink p data ∈ l.history → p = n
  untold : ∀ id n, l.current.get id = some n → ∀ sink spawns,
    Event.attached sink id spawns ∈ l.history → n < spawns → l.toldTo sink = []
  once : ∀ sink, (l.toldTo sink).length ≤ 1

/-- While a process is current, the record of its id, its buffers and its parser are its own,
and every exit is reported once. -/
structure Window.Apart (w : Window) : Prop extends w.ledger.Apart where
  status : ∀ id n, w.ledger.current.get id = some n →
    w.host.manager.getPtyStatus id = some ⟨true, none⟩
  scrollback : ∀ id n, w.ledger.current.get id = some n → ∀ text,
    w.host.manager.getScrollback id = some text → text <:+ w.ledger.outputOf n
  replay : ∀ id n, w.ledger.current.get id = some n → ∀ text,
    (w.host.manager.getReplayData id).1 = some text → text <:+ w.ledger.outputOf n
  parser : ∀ id n, w.ledger.current.get id = some n →
    (w.host.getOwnerPtyStream id).fed.flatten <:+ w.ledger.outputOf n
  reports : ∀ n process, w.ledger.processes.get n = some process →
    w.ledger.reportsOf n ++ w.exitsInFlight n = process.stage.exitCode?.toList

/-- While a process is current, it is the one the manager has, what is kept for replay and its
parser are its own, and every exit is reported once. -/
structure Sidecar.Apart (s : Sidecar) : Prop extends s.ledger.Apart where
  ptys : ∀ id n, s.ledger.current.get id = some n → s.core.ptys.get id = some n
  replay : ∀ id n, s.core.ptys.get id = some n → ∀ text,
    (id, text) ∈ s.core.replays → text <:+ s.ledger.outputOf n
  parser : ∀ id n, s.ledger.current.get id = some n →
    (s.bridge.ownerStream id).fed.flatten <:+ s.ledger.outputOf n
  reports : ∀ n process, s.ledger.processes.get n = some process →
    s.ledger.reportsOf n = process.stage.exitCode?.toList

end Dormouse.Pty
