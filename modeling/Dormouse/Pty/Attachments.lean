import Dormouse.Lib.Transition
import Dormouse.Pty.AttachmentService
import Dormouse.Pty.Streams

/-!
# Dormouse.Pty.Attachments

**What a remote attachment observes.** The extension host and the sidecar's bridge go through the
same spawns, chunks, exits, kills, subscriptions and unsubscriptions, beside the service that says
what an attachment is for.
-/

namespace Dormouse.Pty

/-! ### Both hosts -/

structure Hosts where
  /-- The ids of the processes, in the order of their spawns. -/
  processes : List JsString
  /-- The processes that have exited. -/
  exited : List Nat
  /-- The ids of the attachments, in the order of their subscriptions. -/
  subscriptions : List JsString
  window : ExtensionHost
  windowSeen : List (Nat × Observed)
  core : PtyCore
  bridge : SurfaceBridge
  bridgeSeen : List (Nat × Observed)
  service : AttachmentService

inductive HostEvent
  | spawn (id : JsString) (shell : Option JsString)
  /-- A chunk of process `p` comes in. -/
  | data (p : Nat) (data : JsString)
  | exit (p : Nat) (exitCode : Int)
  | kill (id : JsString)
  | streamPty (id : JsString)
  /-- The unsubscribe that `streamPty` has returned. -/
  | unsubscribe (sink : Nat)

namespace Hosts

def create : Hosts where
  processes := []
  exited := []
  subscriptions := []
  window := .create
  windowSeen := []
  core := .create true
  bridge := .create
  bridgeSeen := []
  service := .create

/-- The id of a process that has not exited. -/
def running? (s : Hosts) (p : Nat) : Option JsString :=
  if p ∈ s.exited then none else s.processes[p]?

/-- The chunk as the parser's sinks are handed it. -/
def handed (stream : OwnerStream) (sinks : List Nat) : List (Nat × Observed) :=
  sinks.map fun sink => (sink, .chunk stream.fed)

def told (exitCode : Int) (sinks : List Nat) : List (Nat × Observed) :=
  sinks.map fun sink => (sink, .exit exitCode)

/-- What a sink observes of its subscription: the parser, or at once an exit. -/
def subscribed (stream : OwnerStream) (sink : Nat) : Option Int → List (Nat × Observed)
  | none => [(sink, .subscribed stream.fed)]
  | some exitCode => [(sink, .exit exitCode)]

def spawn (s : Hosts) (id : JsString) (shell : Option JsString) : Hosts :=
  let p := s.processes.length
  let (bridge, sinks, exitCode) := s.bridge.onPtySpawn id
  { s with
    processes := s.processes ++ [id]
    window := s.window.spawn id shell
    core := (s.core.spawn id none p (.started none)).1
    bridge
    bridgeSeen := s.bridgeSeen ++ told exitCode sinks
    service := s.service.finish id (some p) }

def data (s : Hosts) (p : Nat) (id data : JsString) : Hosts :=
  let (window, windowSinks) := s.window.onData id data
  let (bridge, bridgeSinks) := s.bridge.onData id data
  { s with
    window
    windowSeen := s.windowSeen ++ handed (window.getOwnerPtyStream id) windowSinks
    core := s.core.onData id p data
    bridge
    bridgeSeen := s.bridgeSeen ++ handed (bridge.ownerStream id) bridgeSinks
    service := s.service.print p id data }

def exit (s : Hosts) (p : Nat) (id : JsString) (exitCode : Int) : Hosts :=
  let (window, windowSinks) := s.window.onExit id exitCode
  let (bridge, bridgeSinks) := s.bridge.onExit id exitCode
  { s with
    exited := s.exited ++ [p]
    window
    windowSeen := s.windowSeen ++ told exitCode windowSinks
    core := s.core.onExit id p
    bridge
    bridgeSeen := s.bridgeSeen ++ told exitCode bridgeSinks
    service := s.service.exit p id }

def kill (s : Hosts) (id : JsString) : Hosts :=
  { s with
    window := s.window.kill id
    core := s.core.kill id
    service := s.service.kill id }

def streamPty (s : Hosts) (id : JsString) : Hosts :=
  let sink := s.subscriptions.length
  let (window, windowTold) := s.window.streamPty id sink
  let (bridge, bridgeTold) := s.bridge.streamPty (s.core.hasPty id) id sink
  { s with
    subscriptions := s.subscriptions ++ [id]
    window
    windowSeen := s.windowSeen ++ subscribed (s.window.getOwnerPtyStream id) sink windowTold
    bridge
    bridgeSeen := s.bridgeSeen ++ subscribed (s.bridge.ownerStream id) sink bridgeTold
    service := s.service.attach id sink }

def unsubscribe (s : Hosts) (id : JsString) (sink : Nat) : Hosts :=
  { s with
    window := s.window.unsubscribe id sink
    windowSeen := s.windowSeen ++ [(sink, .stopped)]
    bridge := s.bridge.unsubscribe id sink
    bridgeSeen := s.bridgeSeen ++ [(sink, .stopped)]
    service := s.service.detach id sink }

/-- A step; a process that has exited prints nothing and does not exit again. -/
def step (s : Hosts) : HostEvent → Option Hosts
  | .spawn id shell => some (s.spawn id shell)
  | .data p data => (s.running? p).map fun id => s.data p id data
  | .exit p exitCode => (s.running? p).map fun id => s.exit p id exitCode
  | .kill id => some (s.kill id)
  | .streamPty id => some (s.streamPty id)
  | .unsubscribe sink => (s.subscriptions[sink]?).map fun id => s.unsubscribe id sink

/-! ### The condition and the property -/

/-- Of an id with process `current` nothing is heard now but of that process, unless it was killed
and nobody awaits its end. -/
def Timely (s : Hosts) (p : Nat) : Prop :=
  ∀ id, s.running? p = some id → ∀ current, s.service.current id = some current →
    current = p ∨ current ∈ s.service.killed ∧ s.service.attached id = []

/-- A process that was killed prints nothing that somebody who is attached to it awaits. -/
def Quiet (s : Hosts) (p : Nat) : Prop :=
  ∀ id, s.running? p = some id → s.service.current id = some p → p ∈ s.service.killed →
    s.service.attached id = []

/-- The exit code that a host tells a sink which comes too late. -/
def recorded (s : Hosts) (id : JsString) : Int :=
  ((s.window.manager.getPtyStatus id).bind (·.exitCode)).getD 0

/-- Nobody is attached to what is spawned over, nothing of an earlier process comes in while a later
one is current, nor a chunk of a killed one that somebody is attached to, and a sink that comes too
late finds the same exit in both hosts. -/
def Meets (s : Hosts) : HostEvent → Prop
  | .spawn id _ => s.service.attached id = []
  | .data p _ => s.Timely p ∧ s.Quiet p
  | .exit p _ => s.Timely p
  | .streamPty id => s.service.alive id = none → (s.bridge.exits.get id).getD 0 = s.recorded id
  | .kill _ | .unsubscribe _ => True

/-- Both hosts, through every sequence of events. -/
def serving : System Hosts HostEvent where
  init s := s = create
  step s e t := s.step e = some t

/-- Both hosts, as long as the condition is met. -/
def metServing : System Hosts HostEvent where
  init s := s = create
  step s e t := s.Meets e ∧ s.step e = some t

/-- Both hosts serve every attachment alike, as the service says. -/
structure Alike (s : Hosts) : Prop where
  same : s.windowSeen = s.bridgeSeen
  served : s.windowSeen.map (fun o => (o.1, o.2.seen)) = s.service.seen
  /-- One end, and nothing after it or after the unsubscribe. -/
  once : s.windowSeen.Pairwise fun o o' => o.1 = o'.1 → o.2.seen.Final → o'.2 = .stopped
  /-- An attachment that has not been told an end and not been stopped is registered. -/
  accounted : ∀ sink id, s.subscriptions[sink]? = some id →
    (sink ∈ (s.window.streams.get id).getD [] ∧ sink ∈ s.bridge.sinksOf id) ∨
      ∃ o ∈ s.windowSeen, o.1 = sink ∧ o.2.seen.Final
  /-- Whoever is registered is attached to the parser that the next chunk is fed to, or to a process
  that was killed and whose exit is to come. -/
  fed : ∀ id sink, sink ∈ (s.window.streams.get id).getD [] →
    ∃ p, s.service.current id = some p ∧ s.running? p = some id ∧
      (p ∈ s.service.killed ∨ sink ∈ (s.window.getOwnerPtyStream id).sinks ∧
        (s.window.getOwnerPtyStream id).fed = s.service.printed p)
  bridged : ∀ id sink, sink ∈ s.bridge.sinksOf id →
    ∃ p, s.service.current id = some p ∧ s.running? p = some id ∧
      (p ∈ s.service.killed ∨ (s.bridge.ownerStream id).fed = s.service.printed p)

end Hosts

end Dormouse.Pty
