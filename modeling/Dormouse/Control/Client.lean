import Dormouse.Control.Protocol

/-!
# Dormouse.Control.Client

One **request of a `dor` client** (`dor/src/control-client.ts`): one connection, on which the
client waits for the challenge, answers it, waits for the server's own proof, and only then
writes what it wants.

What the client writes is kept in order, in `events`, with the challenge that its hello answers.
-/

namespace Dormouse.Control

/-- The three lines that the server sends. -/
inductive ClientPhase
  | challenge
  | welcome
  | response
  deriving DecidableEq

/-- What a request has come to; `malformed` is the exception of a response that cannot be read. -/
inductive ClientOutcome
  | resolved (result : Option Json)
  | rejected (error : Json)
  | methodFailed
  | malformed
  | handshakeFailed
  | timedOut
  | connectionClosed
  | connectionError

/-- What is asked, and the nonce of the connection. -/
structure ClientCall where
  requestId : JsString
  surfaceId : Option JsString
  method : JsString
  params : Json
  timeoutMs : ℚ
  nonce : JsString

/-- The lines of a client, and the proof that it accepts. -/
inductive ClientEvent
  | hello (challenge nonce proof : JsString)
  | welcomeAccepted (proof : JsString)
  | request (requestId : JsString) (surfaceId : Option JsString) (method : JsString)
      (params : Json) (timeoutMs : ℚ)

structure ClientSession where
  call : ClientCall
  responseBuffer : JsString
  settled : Option ClientOutcome
  phase : ClientPhase
  events : List ClientEvent

/-- `Boolean(value)`. -/
def truthy : Json → Bool
  | .null => false
  | .bool value => value
  | .number value => value ≠ 0
  | .string value => value ≠ []
  | .array _ => true
  | .object _ => true

namespace ClientSession

def request (call : ClientCall) : ClientSession := ⟨call, [], none, .challenge, []⟩

/-- The first outcome is the last. -/
def settle (c : ClientSession) (outcome : ClientOutcome) : ClientSession :=
  if c.settled.isSome then c else { c with settled := some outcome }

def emit (c : ClientSession) (event : ClientEvent) : ClientSession :=
  { c with events := c.events ++ [event] }

/-- What a response line comes to. -/
def responseOutcome (platform : ControlPlatform) (line : JsString) : ClientOutcome :=
  match platform.parseJson line with
  | none | some .null => .malformed
  | some response =>
    if (response.field (js "ok")).any truthy then .resolved (response.field (js "result"))
    else
      match (response.field (js "error")).filter truthy with
      | some error => .rejected error
      | none => .methodFailed

/-- The nonce of a challenge. -/
def challengeNonce (frame : Json) : Option JsString := do
  let nonce ← frame.stringField (js "nonce")
  if frame.stringField (js "kind") = some (js "challenge") ∧ nonce ≠ [] then some nonce else none

/-- The proof of a welcome, over the nonce of this connection. -/
def welcomeProof (platform : ControlPlatform) (token nonce : JsString) (frame : Json) :
    Option JsString := do
  let proof ← frame.stringField (js "proof")
  if frame.stringField (js "kind") = some (js "welcome") ∧
      platform.proofMatches (frame.field (js "proof"))
        (platform.proveToken token SERVER_PROOF_DOMAIN nonce) then some proof
  else none

def readLine (platform : ControlPlatform) (token line : JsString) (c : ClientSession) :
    ClientSession :=
  match c.phase with
  | .response => c.settle (responseOutcome platform line)
  | .challenge =>
    match (platform.parseJson line).bind challengeNonce with
    | none => c.settle .handshakeFailed
    | some nonce =>
      { c.emit (.hello nonce c.call.nonce
          (platform.proveToken token CLIENT_PROOF_DOMAIN nonce)) with phase := .welcome }
  | .welcome =>
    match (platform.parseJson line).bind (welcomeProof platform token c.call.nonce) with
    | none => c.settle .handshakeFailed
    | some proof =>
      { (c.emit (.welcomeAccepted proof)).emit (.request c.call.requestId c.call.surfaceId
          c.call.method c.call.params c.call.timeoutMs) with phase := .response }

/-- The lines that a chunk completes, until the request is settled. -/
def readLines (platform : ControlPlatform) (token : JsString) :
    List JsString → ClientSession → ClientSession
  | [], c => c
  | line :: lines, c =>
    if c.settled.isSome then c
    else readLines platform token lines (c.readLine platform token line)

def onData (platform : ControlPlatform) (token : JsString) (c : ClientSession)
    (chunk : JsString) : ClientSession :=
  readLines platform token (splitLines (c.responseBuffer ++ chunk)).1
    { c with responseBuffer := (splitLines (c.responseBuffer ++ chunk)).2 }

def onTimeout (c : ClientSession) : ClientSession := c.settle .timedOut

def onError (c : ClientSession) : ClientSession := c.settle .connectionError

def onEnd (c : ClientSession) : ClientSession :=
  c.settle (if c.phase = .response then .connectionClosed else .handshakeFailed)

end ClientSession

end Dormouse.Control
