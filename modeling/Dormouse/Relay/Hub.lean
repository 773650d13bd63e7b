import Dormouse.Burrow.Runtime

/-!
# Dormouse.Relay.Hub

The **relay hub** (`relay/src/relay.ts`): which sockets are registered, which Burrow each
Client is bound to, and what is sent to whom.

Connections are compared by identity in the source; `object` is that identity, and a
caller may hold on to a connection long after it was displaced or torn down. What the hub
does to its sockets is the second half of each answer, in order; a socket that throws is
ignored.
-/

namespace Dormouse.Relay

open Noise (Bytes)
open Security
open Terminal (Ms)
open Burrow

/-! ### Frames -/

/-- A Client's own envelope. -/
structure E2eClientFrame where
  burrowId : JsString
  kind : E2eKind
  id : JsString
  step : E2eClientStep
  ct : JsString

/-- A Burrow's envelope, with the `burrowId` of the socket it came in on. -/
structure E2eRelayToClientFrame where
  burrowId : JsString
  kind : E2eKind
  id : JsString
  step : E2eBurrowStep
  ct : JsString
  deriving DecidableEq

inductive RelayToClientFrame
  | burrowGone
  | error (error : JsString)
  | e2e (frame : E2eRelayToClientFrame)
  deriving DecidableEq

def e2eBurrowStepOfJson (value : JsString) : Option E2eBurrowStep :=
  if value = js "response" then some .response
  else if value = js "transport" then some .transport
  else none

/-- `isE2eClientFrame`, and the frame it licenses. -/
def E2eClientFrame.ofJson (value : Json) : Option E2eClientFrame := do
  if value.stringField (js "t") ≠ some (js "e2e") then none
  else
    return {
      burrowId := ← (value.stringField (js "burrowId")).filter isE2eId
      kind := ← (value.stringField (js "kind")).bind E2eKind.ofJson
      id := ← (value.stringField (js "id")).filter isE2eId
      step := ← (value.stringField (js "step")).bind E2eClientStep.ofJson
      ct := ← (value.stringField (js "ct")).filter isE2eCiphertext }

/-- `isE2eBurrowFrame`, and the frame it licenses. -/
def e2eBurrowFrameOfJson (value : Json) : Option E2eBurrowFrame := do
  if value.stringField (js "t") ≠ some (js "e2e") then none
  else
    return {
      clientId := ← (value.stringField (js "clientId")).filter (isBoundedString · maxClientIdLength)
      kind := ← (value.stringField (js "kind")).bind E2eKind.ofJson
      id := ← (value.stringField (js "id")).filter isE2eId
      step := ← (value.stringField (js "step")).bind e2eBurrowStepOfJson
      ct := ← (value.stringField (js "ct")).filter isE2eCiphertext }

/-- Parse a raw text frame; `none` if it is not a JSON object. -/
def parseFrame (parseJson : JsString → Option Json) (raw : JsString) : Option Json :=
  (parseJson raw).filter Json.isObject

/-! ### Connections -/

/-- A Burrow socket. -/
structure BurrowConn where
  burrowId : JsString
  object : Nat
  deriving DecidableEq

/-- What the caller holds of a Client socket. -/
structure ClientRef where
  clientId : ClientId
  object : Nat
  deriving DecidableEq

/-- A Client socket and its (single) relationship to a Burrow. -/
structure ClientConn where
  ref : ClientRef
  expiresAt : Ms
  burrowId : Option JsString

/-- What the hub does to a socket. -/
inductive Delivery
  | toBurrow (burrow : BurrowConn) (frame : RelayToBurrowFrame)
  | toClient (client : ClientRef) (frame : RelayToClientFrame)
  | closeBurrow (burrow : BurrowConn) (code : Nat) (reason : JsString)
  | closeClient (client : ClientRef) (code : Nat) (reason : JsString)
  deriving DecidableEq

def maxRelayClientSockets : Nat := 64

def wsCloseBurrowReplaced : Nat := 4000

def wsCloseBurrowReplacedReason : JsString := js "replaced by a newer burrow connection"

def wsCloseBurrowRevoked : Nat := 4001

def wsCloseBurrowRevokedReason : JsString := js "this burrow is no longer enrolled"

def wsCloseUnauthorized : Nat := 1008

def wsCloseUnauthorizedReason : JsString := js "unauthorized"

structure RelayHub where
  burrows : InsertionMap JsString BurrowConn
  clients : InsertionMap ClientId ClientConn
  /-- The identity of the next connection. -/
  nextObject : Nat

namespace RelayHub

def fresh : RelayHub := ⟨.empty, .empty, 0⟩

def isBurrowOnline (hub : RelayHub) (burrowId : JsString) : Bool := hub.burrows.has burrowId

def onlineBurrowIds (hub : RelayHub) : List JsString := hub.burrows.keys

def clientCount (hub : RelayHub) : Nat := hub.clients.size

/-! ### Burrow lifecycle -/

/-- Tell every Client bound to `burrowId` its Burrow is gone and clear the binding. -/
def dropClientsOf (hub : RelayHub) (burrowId : JsString) : RelayHub × List Delivery :=
  ({ hub with
      clients := hub.clients.mapValues fun client =>
        if client.burrowId = some burrowId then { client with burrowId := none } else client },
    (hub.clients.values.filter fun client => client.burrowId = some burrowId).map fun client =>
      .toClient client.ref .burrowGone)

/-- Tear down a Burrow socket; one that was displaced is not the one registered. -/
def unregisterBurrow (hub : RelayHub) (burrow : BurrowConn) : RelayHub × List Delivery :=
  if hub.burrows.get burrow.burrowId ≠ some burrow then (hub, [])
  else { hub with burrows := hub.burrows.delete burrow.burrowId }.dropClientsOf burrow.burrowId

/-- Evict a revoked Burrow; the answer tells whether there was one. -/
def closeBurrow (hub : RelayHub) (burrowId : JsString) : Bool × RelayHub × List Delivery :=
  match hub.burrows.get burrowId with
  | none => (false, hub, [])
  | some conn =>
    let (hub, sent) := hub.unregisterBurrow conn
    (true, hub, sent ++ [.closeBurrow conn wsCloseBurrowRevoked wsCloseBurrowRevokedReason])

/-- Register a freshly opened Burrow socket; an existing one is displaced, and the Clients
bound to it are dropped. -/
def registerBurrow (hub : RelayHub) (burrowId : JsString) : BurrowConn × RelayHub × List Delivery :=
  let conn : BurrowConn := ⟨burrowId, hub.nextObject⟩
  let registered :=
    { hub with burrows := hub.burrows.set burrowId conn, nextObject := hub.nextObject + 1 }
  match hub.burrows.get burrowId with
  | none => (conn, registered, [])
  | some existing =>
    let (dropped, sent) := registered.dropClientsOf burrowId
    (conn, dropped,
      sent ++ [.closeBurrow existing wsCloseBurrowReplaced wsCloseBurrowReplacedReason])

/-- Handle one raw frame from a Burrow socket. -/
def onBurrowFrame (parseJson : JsString → Option Json) (hub : RelayHub) (burrow : BurrowConn)
    (raw : JsString) : RelayHub × List Delivery :=
  if hub.burrows.get burrow.burrowId ≠ some burrow then (hub, [])
  else
    match (parseFrame parseJson raw).bind e2eBurrowFrameOfJson with
    | none => (hub, [])
    | some frame =>
      match hub.clients.get frame.clientId with
      | none => (hub, [])
      | some client =>
        if client.burrowId ≠ some burrow.burrowId then (hub, [])
        else
          (hub, [.toClient client.ref
            (.e2e ⟨burrow.burrowId, frame.kind, frame.id, frame.step, frame.ct⟩)])

/-! ### Client lifecycle -/

/-- The connection a caller's reference still names, if it is registered. -/
def currentClient (hub : RelayHub) (client : ClientRef) : Option ClientConn :=
  (hub.clients.get client.clientId).filter fun conn => conn.ref = client

/-- Register a freshly opened Client socket under the id of these random bytes, or refuse
it when the process holds enough. -/
def registerClient (hub : RelayHub) (random : Bytes) (expiresAt : Ms) :
    Option ClientRef × RelayHub × List Delivery :=
  if maxRelayClientSockets ≤ hub.clients.size then (none, hub, [])
  else
    let ref : ClientRef := ⟨toBase64Url random, hub.nextObject⟩
    (some ref,
      { hub with
        clients := hub.clients.set ref.clientId ⟨ref, expiresAt, none⟩
        nextObject := hub.nextObject + 1 }, [])

/-- `client-gone` for a Client, to the Burrow of an id if that is connected. -/
def clientGone (hub : RelayHub) (client : ClientRef) (burrowId : JsString) : List Delivery :=
  ((hub.burrows.get burrowId).map fun burrow =>
    .toBurrow burrow (.clientGone client.clientId)).toList

/-- Tear down a Client socket: tell its Burrow, then forget it. A second call does nothing. -/
def unregisterClient (hub : RelayHub) (client : ClientRef) : RelayHub × List Delivery :=
  match hub.currentClient client with
  | none => (hub, [])
  | some conn =>
    let hub := { hub with clients := hub.clients.delete client.clientId }
    match conn.burrowId with
    | none => (hub, [])
    | some burrowId => (hub, hub.clientGone client burrowId)

/-- One turn of the loop of `closeExpiredClients`. -/
def closeExpired (now : Ms) (answer : Nat × RelayHub × List Delivery) (client : ClientConn) :
    Nat × RelayHub × List Delivery :=
  if now < client.expiresAt then answer
  else
    let (closed, hub, sent) := answer
    let (hub, gone) := hub.unregisterClient client.ref
    (closed + 1, hub,
      sent ++ gone ++ [.closeClient client.ref wsCloseUnauthorized wsCloseUnauthorizedReason])

/-- Close every Client socket whose session has expired, and report how many. -/
def closeExpiredClients (hub : RelayHub) (now : Ms) : Nat × RelayHub × List Delivery :=
  hub.clients.values.foldl (closeExpired now) (0, hub, [])

/-- Bind a Client to a Burrow; moving tells the Burrow it leaves. -/
def bindClientToBurrow (hub : RelayHub) (conn : ClientConn) (burrowId : JsString) :
    RelayHub × List Delivery :=
  ({ hub with clients := hub.clients.set conn.ref.clientId { conn with burrowId := some burrowId } },
    match conn.burrowId with
    | none => []
    | some previous => if previous = burrowId then [] else hub.clientGone conn.ref previous)

/-- A Client's envelope, with the id the relay assigned it. -/
def forwarded (client : ClientRef) (burrow : BurrowConn) (frame : E2eClientFrame) : Delivery :=
  .toBurrow burrow
    (.e2e ⟨client.clientId, frame.burrowId, frame.kind, frame.id, frame.step, frame.ct⟩)

/-- Handle one raw frame from a Client socket: an `init` binds, and everything else is
forwarded within that binding. -/
def onClientFrame (parseJson : JsString → Option Json) (hub : RelayHub) (client : ClientRef)
    (raw : JsString) : RelayHub × List Delivery :=
  match hub.currentClient client with
  | none => (hub, [])
  | some conn =>
  match (parseFrame parseJson raw).bind fun frame => (frame.stringField (js "t")).map (frame, ·) with
  | none => (hub, [.toClient client (.error (js "malformed frame"))])
  | some (value, tag) =>
  if tag ≠ js "e2e" then (hub, [.toClient client (.error (js "unknown frame type"))])
  else
  match E2eClientFrame.ofJson value with
  | none => (hub, [.toClient client (.error (js "malformed e2e frame"))])
  | some frame =>
  match hub.burrows.get frame.burrowId with
  | none =>
    (hub, [.toClient client (.error (js "burrow " ++ frame.burrowId ++ js " is offline"))])
  | some burrow =>
  if frame.step = .init then
    let (hub, gone) := hub.bindClientToBurrow conn frame.burrowId
    (hub, gone ++ [forwarded client burrow frame])
  else if conn.burrowId ≠ some frame.burrowId then (hub, [])
  else (hub, [forwarded client burrow frame])

end RelayHub

/-! ### Runs -/

/-- A call on the hub; `random` are the bytes that a fresh client id is made of. -/
inductive HubCall
  | registerBurrow (burrowId : JsString)
  | unregisterBurrow (burrow : BurrowConn)
  | closeBurrow (burrowId : JsString)
  | onBurrowFrame (burrow : BurrowConn) (raw : JsString)
  | registerClient (random : Bytes) (expiresAt : Ms)
  | unregisterClient (client : ClientRef)
  | closeExpiredClients (now : Ms)
  | onClientFrame (client : ClientRef) (raw : JsString)

namespace RelayHub

variable (parseJson : JsString → Option Json)

/-- The hub after a call, and what the call sent. -/
def perform (hub : RelayHub) : HubCall → RelayHub × List Delivery
  | .registerBurrow burrowId => (hub.registerBurrow burrowId).2
  | .unregisterBurrow burrow => hub.unregisterBurrow burrow
  | .closeBurrow burrowId => (hub.closeBurrow burrowId).2
  | .onBurrowFrame burrow raw => hub.onBurrowFrame parseJson burrow raw
  | .registerClient random expiresAt => (hub.registerClient random expiresAt).2
  | .unregisterClient client => hub.unregisterClient client
  | .closeExpiredClients now => (hub.closeExpiredClients now).2
  | .onClientFrame client raw => hub.onClientFrame parseJson client raw

def performNext (run : RelayHub × List Delivery) (call : HubCall) : RelayHub × List Delivery :=
  ((run.1.perform parseJson call).1, run.2 ++ (run.1.perform parseJson call).2)

/-- The hub after a sequence of calls, and everything they sent. -/
def performAll (calls : List HubCall) : RelayHub × List Delivery :=
  calls.foldl (performNext parseJson) (fresh, [])

end RelayHub

end Dormouse.Relay
