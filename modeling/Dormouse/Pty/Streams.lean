import Dormouse.Pty.Core
import Dormouse.Pty.Manager

/-!
# Dormouse.Pty.Streams

Who is **told what a PTY prints and that it ended**: in the extension host
(`vscode-ext/src/message-router.ts` over `processed-pty-streams.ts`), and in the sidecar's
bridge (`lib/src/host/remote/sidecar-entry.ts`).

A parser is known by what it has been fed, and a sink by the number of the attachment it comes
from. A parser that has been retired is fed nothing more, and with it goes every subscription
to it.
-/

namespace Dormouse.Pty

/-- A PTY's own parse, with the sinks that are handed what it lets through. -/
structure OwnerStream where
  fed : List JsString
  sinks : List Nat

namespace OwnerStream

def create : OwnerStream := ⟨[], []⟩

def write (stream : OwnerStream) (data : JsString) : OwnerStream :=
  { stream with fed := stream.fed ++ [data] }

def subscribe (stream : OwnerStream) (sink : Nat) : OwnerStream :=
  { stream with sinks := stream.sinks ++ [sink] }

def unsubscribe (stream : OwnerStream) (sink : Nat) : OwnerStream :=
  { stream with sinks := stream.sinks.filter (· ≠ sink) }

end OwnerStream

/-! ### The extension host -/

structure ExtensionHost where
  manager : PtyManager
  ownerPtyStreams : InsertionMap JsString OwnerStream
  /-- The registry of `createProcessedPtyStreams`: every attached sink. -/
  streams : InsertionMap JsString (List Nat)

namespace ExtensionHost

def create : ExtensionHost := ⟨.create, .empty, .empty⟩

def getOwnerPtyStream (host : ExtensionHost) (id : JsString) : OwnerStream :=
  (host.ownerPtyStreams.get id).getD .create

/-- A fresh generation under this id, or none: its parser goes. -/
def retireStream (host : ExtensionHost) (id : JsString) : ExtensionHost :=
  { host with ownerPtyStreams := host.ownerPtyStreams.delete id }

/-- `pty:spawn`, up to the command for the child. -/
def spawn (host : ExtensionHost) (id : JsString) (shell : Option JsString) : ExtensionHost :=
  { host.retireStream id with manager := host.manager.spawn id shell }

/-- `pty:kill`, up to the command for the child. -/
def kill (host : ExtensionHost) (id : JsString) : ExtensionHost :=
  { host.retireStream id with manager := host.manager.kill id }

/-- The child's `data` message: the buffers first, then the parse. -/
def onData (host : ExtensionHost) (id data : JsString) : ExtensionHost × List Nat :=
  let stream := host.getOwnerPtyStream id
  ({ host with
      manager := host.manager.bufferData id data
      ownerPtyStreams := host.ownerPtyStreams.set id (stream.write data) },
    stream.sinks)

/-- The child's `exit` message, with the sinks that are told. -/
def onExit (host : ExtensionHost) (id : JsString) (exitCode : Int) : ExtensionHost × List Nat :=
  ({ manager := host.manager.bufferExit id exitCode
     ownerPtyStreams := host.ownerPtyStreams.delete id
     streams := host.streams.delete id },
    (host.streams.get id).getD [])

/-- The unsubscribe of `subscribeProcessedPty`. A parser stood up only for a PTY that is not
alive goes with its last sink; one that was retired in the meantime is nobody's. -/
def stopChunks (host : ExtensionHost) (id : JsString) (sink : Nat) : ExtensionHost :=
  match host.ownerPtyStreams.get id with
  | none => host
  | some stream =>
    if sink ∈ stream.sinks then
      let stream := stream.unsubscribe sink
      if stream.sinks.isEmpty && (host.manager.getPtyStatus id).map (·.alive) != some true then
        host.retireStream id
      else { host with ownerPtyStreams := host.ownerPtyStreams.set id stream }
    else host

/-- The unsubscribe that `streamPty` returns: a no-op once an exit has taken the sink out. -/
def unsubscribe (host : ExtensionHost) (id : JsString) (sink : Nat) : ExtensionHost :=
  match host.streams.get id with
  | none => host
  | some sinks =>
    if sink ∈ sinks then
      let rest := sinks.filter (· ≠ sink)
      { host.stopChunks id sink with
        streams := if rest.isEmpty then host.streams.delete id else host.streams.set id rest }
    else host

/-- `streamPty`: subscribe first, then inspect the record of the PTY. -/
def streamPty (host : ExtensionHost) (id : JsString) (sink : Nat) : ExtensionHost × Option Int :=
  let subscribed : ExtensionHost :=
    { host with
      streams := host.streams.set id ((host.streams.get id).getD [] ++ [sink])
      ownerPtyStreams := host.ownerPtyStreams.set id ((host.getOwnerPtyStream id).subscribe sink) }
  match host.manager.getPtyStatus id with
  | some ⟨true, _⟩ => (subscribed, none)
  | status => (subscribed.unsubscribe id sink, some ((status.bind (·.exitCode)).getD 0))

def getReplayData (host : ExtensionHost) (id : JsString) : ExtensionHost :=
  { host with manager := (host.manager.getReplayData id).2 }

end ExtensionHost

/-! ### The sidecar's bridge -/

structure SurfaceBridge where
  streams : InsertionMap JsString OwnerStream
  /-- Natural exits outlive their process so a late subscription can replay one. -/
  exits : InsertionMap JsString Int

namespace SurfaceBridge

def create : SurfaceBridge := ⟨.empty, .empty⟩

def ownerStream (bridge : SurfaceBridge) (id : JsString) : OwnerStream :=
  (bridge.streams.get id).getD .create

/-- `onPtyEvent('data')`, with the sinks that are handed the chunk. -/
def onData (bridge : SurfaceBridge) (id data : JsString) : SurfaceBridge × List Nat :=
  let stream := bridge.ownerStream id
  ({ bridge with streams := bridge.streams.set id (stream.write data) }, stream.sinks)

/-- The sinks of the id's stream. -/
def sinksOf (bridge : SurfaceBridge) (id : JsString) : List Nat :=
  match bridge.streams.get id with
  | none => []
  | some stream => stream.sinks

/-- `onPtyEvent('exit')`, with the sinks that are told. -/
def onExit (bridge : SurfaceBridge) (id : JsString) (exitCode : Int) : SurfaceBridge × List Nat :=
  ({ streams := bridge.streams.delete id, exits := bridge.exits.set id exitCode },
    bridge.sinksOf id)

/-- `onPtySpawn`: the sinks of the process before are told, with its exit if it had one. -/
def onPtySpawn (bridge : SurfaceBridge) (id : JsString) : SurfaceBridge × List Nat × Int :=
  ({ streams := bridge.streams.delete id, exits := bridge.exits.delete id },
    bridge.sinksOf id, (bridge.exits.get id).getD 0)

/-- The unsubscribe that `streamPty` returns. The parser stays. -/
def unsubscribe (bridge : SurfaceBridge) (id : JsString) (sink : Nat) : SurfaceBridge :=
  match bridge.streams.get id with
  | none => bridge
  | some stream => { bridge with streams := bridge.streams.set id (stream.unsubscribe sink) }

/-- `streamPty`: subscribe first, then ask the manager whether the id has a PTY. -/
def streamPty (bridge : SurfaceBridge) (alive : Bool) (id : JsString) (sink : Nat) :
    SurfaceBridge × Option Int :=
  let stream := (bridge.ownerStream id).subscribe sink
  if alive then
    ({ streams := bridge.streams.set id stream, exits := bridge.exits.delete id }, none)
  else
    let stream := stream.unsubscribe sink
    ({ bridge with
        streams :=
          if stream.sinks.isEmpty then bridge.streams.delete id else bridge.streams.set id stream },
      some ((bridge.exits.get id).getD 0))

end SurfaceBridge

end Dormouse.Pty
