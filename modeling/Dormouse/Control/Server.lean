import Dormouse.Control.Protocol
import Dormouse.Lib.InsertionMap

/-!
# Dormouse.Control.Server

The **control server** (`standalone/sidecar/dor-control-server.js`): any process may connect to
it; one that proves the token has its requests forwarded to the webview, and gets the webview's
answers.

A request is known by its timer, as the table of pending ones is keyed by an id that the client
chooses. What the server writes and tells the webview is kept in order, in `events`. A handler
that throws takes the process down.
-/

namespace Dormouse.Control

/-- One connection. `destroyed` closes it for both sides, `writableEnded` for the server's. -/
structure ControlSocket where
  challenge : JsString
  buffer : JsString
  authenticated : Bool
  handshakeTimer : Bool
  writableEnded : Bool
  destroyed : Bool
  closed : Bool

/-- An entry of `pending`. -/
structure PendingRequest where
  socket : Nat
  timeout : Nat
  deriving DecidableEq

/-- The timer of a request, with what its closure holds. -/
structure RequestTimer where
  requestId : JsString
  socket : Nat
  method : JsString
  delay : ℚ

/-- A request in an event is known by its timer. `answered` is the webview's answer being taken for
a request; it was sent for the request `asked`, or for none that the webview had. -/
inductive ControlEvent
  | challenged (socket : Nat) (nonce : JsString)
  | helloAccepted (socket : Nat) (proof : JsString)
  | welcomed (socket : Nat) (nonce proof : JsString)
  | responded (socket : Nat) (request : Option Nat) (response : Json)
  | answered (request : Nat) (asked : Option Nat)
  | controlRequest (request socket : Nat) (requestId : JsString) (surfaceId : Option JsString)
      (method : JsString) (params : Json)
  | controlCancel (request : Nat) (requestId : JsString)

structure ControlServer where
  sockets : List ControlSocket
  pending : InsertionMap JsString PendingRequest
  timers : InsertionMap Nat RequestTimer
  nextTimer : Nat
  events : List ControlEvent
  threw : Bool

structure ControlOptions where
  platform : ControlPlatform
  token : JsString
  timeoutMs : ℚ

def SERVER_TIMEOUT_MARGIN_MS : ℚ := 10000

def MAX_CLIENT_TIMEOUT_MS : ℚ := 24 * 60 * 60 * 1000 + 5000

/-- A client's deadline and a margin, or the fallback for a value that is no such deadline. -/
def serverTimeoutFor (clientTimeoutMs : Option Json) (fallbackMs : ℚ) : ℚ :=
  match clientTimeoutMs with
  | some (.number ms) =>
    if ms ≤ 0 ∨ MAX_CLIENT_TIMEOUT_MS < ms then fallbackMs else ms + SERVER_TIMEOUT_MARGIN_MS
  | _ => fallbackMs

namespace ControlServer

def create : ControlServer := ⟨[], .empty, .empty, 0, [], false⟩

def emit (s : ControlServer) (event : ControlEvent) : ControlServer :=
  { s with events := s.events ++ [event] }

def modifySocket (s : ControlServer) (socket : Nat) (f : ControlSocket → ControlSocket) :
    ControlServer :=
  { s with sockets := s.sockets.modify socket f }

/-- `socket.destroy()`; the socket's `close` comes later. -/
def destroy (s : ControlServer) (socket : Nat) : ControlServer :=
  s.modifySocket socket fun conn => { conn with destroyed := true }

/-- One line, and the end: nothing when the peer is gone or has had its line. -/
def writeResponse (s : ControlServer) (socket : Nat) (request : Option Nat) (response : Json) :
    ControlServer :=
  if (s.sockets[socket]?).any fun conn => !conn.destroyed && !conn.writableEnded then
    (s.modifySocket socket fun conn => { conn with writableEnded := true }).emit
      (.responded socket request response)
  else s

/-- Forget a pending request and stop its timer. -/
def reap (s : ControlServer) (requestId : JsString) : Option PendingRequest × ControlServer :=
  match s.pending.get requestId with
  | none => (none, s)
  | some entry =>
    (some entry, { s with
      pending := s.pending.delete requestId
      timers := s.timers.delete entry.timeout })

def errorResponse (requestId : Option JsString) (error : JsString) : Json :=
  .object ((requestId.map fun id => (js "requestId", .string id)).toList ++
    [(js "ok", .bool false), (js "error", .string error)])

/-- The id and the method of what is a request. -/
def requestOf (request : Json) : Option (JsString × JsString) := do
  return (← request.stringField (js "requestId"), ← request.stringField (js "method"))

/-- One line of an authenticated connection. -/
def handleRequest (opts : ControlOptions) (socket : Nat) (line : JsString) (s : ControlServer) :
    ControlServer :=
  match opts.platform.parseJson line with
  | none => s.writeResponse socket none (errorResponse none (js "invalid JSON request"))
  -- `null` has no fields to read.
  | some .null => { s with threw := true }
  | some request =>
    match requestOf request with
    | none =>
      s.writeResponse socket none (errorResponse none (js "invalid Dormouse control request"))
    | some (requestId, method) =>
      let params :=
        match request.field (js "params") with
        | none | some .null => .object []
        | some params => params
      emit { s with
          pending := s.pending.set requestId ⟨socket, s.nextTimer⟩
          timers := s.timers.set s.nextTimer ⟨requestId, socket, method,
            serverTimeoutFor (request.field (js "timeoutMs")) opts.timeoutMs⟩
          nextTimer := s.nextTimer + 1 }
        (.controlRequest s.nextTimer socket requestId (request.stringField (js "surfaceId"))
          method params)

/-- The nonce of a hello that proves the token over the challenge, and its proof. -/
def acceptHello (opts : ControlOptions) (line challenge : JsString) :
    Option (JsString × JsString) := do
  let hello ← opts.platform.parseJson line
  let nonce ← hello.stringField (js "nonce")
  let proof ← hello.stringField (js "proof")
  if hello.stringField (js "kind") = some (js "hello") ∧ nonce ≠ [] ∧
      opts.platform.proofMatches (hello.field (js "proof"))
        (opts.platform.proveToken opts.token CLIENT_PROOF_DOMAIN challenge) then
    some (nonce, proof)
  else none

/-- The lines that a chunk completes; a hello that is not one ends it. -/
def readLines (opts : ControlOptions) (socket : Nat) :
    List JsString → ControlServer → ControlServer
  | [], s => s
  | line :: lines, s =>
    match s.sockets[socket]? with
    | none => s
    | some conn =>
      if conn.authenticated then
        let handled := s.handleRequest opts socket line
        if handled.threw then handled else readLines opts socket lines handled
      else
        match acceptHello opts line conn.challenge with
        | none => s.destroy socket
        | some (nonce, proof) =>
          readLines opts socket lines
            (((s.emit (.helloAccepted socket proof)).emit (.welcomed socket nonce
                (opts.platform.proveToken opts.token SERVER_PROOF_DOMAIN nonce))).modifySocket
              socket fun conn => { conn with authenticated := true, handshakeTimer := false })

/-! ### The handlers -/

/-- A connection, which the server greets with a fresh nonce. -/
def onConnection (s : ControlServer) (challenge : JsString) : ControlServer :=
  emit { s with sockets := s.sockets ++ [⟨challenge, [], false, true, false, false, false⟩] }
    (.challenged s.sockets.length challenge)

/-- No data comes of a connection that is gone. -/
def onData (opts : ControlOptions) (s : ControlServer) (socket : Nat) (chunk : JsString) :
    ControlServer :=
  match s.sockets[socket]? with
  | none => s
  | some conn =>
    if conn.destroyed || conn.closed then s
    else
      readLines opts socket (splitLines (conn.buffer ++ chunk)).1
        (s.modifySocket socket fun conn =>
          { conn with buffer := (splitLines (conn.buffer ++ chunk)).2 })

/-- Let go of a request of a socket that has closed. -/
def cancel (s : ControlServer) (e : JsString × PendingRequest) : ControlServer :=
  (s.reap e.1).2.emit (.controlCancel e.2.timeout e.1)

def onClose (s : ControlServer) (socket : Nat) : ControlServer :=
  if (s.sockets[socket]?).any fun conn => !conn.closed then
    (s.pending.entries.filter fun e => e.2.socket = socket).foldl cancel
      (s.modifySocket socket fun conn =>
        { conn with closed := true, destroyed := true, handshakeTimer := false })
  else s

def onHandshakeTimeout (s : ControlServer) (socket : Nat) : ControlServer :=
  if (s.sockets[socket]?).any (·.handshakeTimer) then
    (s.modifySocket socket fun conn => { conn with handshakeTimer := false }).destroy socket
  else s

def onRequestTimeout (s : ControlServer) (timer : Nat) : ControlServer :=
  match s.timers.get timer with
  | none => s
  | some t =>
    (({ s with timers := s.timers.delete timer }.reap t.requestId).2.writeResponse t.socket
        (some timer)
        (errorResponse (some t.requestId) (js "timed out waiting for " ++ t.method))).emit
      (.controlCancel timer t.requestId)

/-- The webview's answer to its request `asked`. An unknown id is one that has been reaped. -/
def respond (s : ControlServer) (asked : Option Nat) (response : Json) : ControlServer :=
  match response.stringField (js "requestId") with
  | none => s
  | some requestId =>
    match s.reap requestId with
    | (none, s) => s
    | (some entry, s) =>
      (s.emit (.answered entry.timeout asked)).writeResponse entry.socket (some entry.timeout)
        response

inductive ControlOp
  | connection (challenge : JsString)
  | data (socket : Nat) (chunk : JsString)
  | error (socket : Nat)
  | close (socket : Nat)
  | handshakeTimeout (socket : Nat)
  | requestTimeout (timer : Nat)
  | respond (asked : Option Nat) (response : Json)

def handle (opts : ControlOptions) (s : ControlServer) : ControlOp → ControlServer
  | .connection challenge => s.onConnection challenge
  | .data socket chunk => s.onData opts socket chunk
  -- A connection that fails is gone before its `close` comes.
  | .error socket => s.destroy socket
  | .close socket => s.onClose socket
  | .handshakeTimeout socket => s.onHandshakeTimeout socket
  | .requestTimeout timer => s.onRequestTimeout timer
  | .respond asked response => s.respond asked response

/-- One step; a process that is down takes none. -/
def step (opts : ControlOptions) (s : ControlServer) (op : ControlOp) : ControlServer :=
  if s.threw then s else s.handle opts op

end ControlServer

end Dormouse.Control
