import Dormouse.Burrow.Connection

/-!
# Dormouse.Burrow.Runtime

The **relay frames** of a Burrow (`burrow-runtime.ts`): what is accepted off the
socket, the bounded queue it waits in, and the one drain that works it off. Everything
that can happen to a Burrow is an `Act`, and `runtime` is the system of all its runs.

The relay, the sockets, the timers, the store and the person may act in any order and at
any clock reading; nothing is assumed of them.
-/

namespace Dormouse.Burrow

open Noise (Bytes NoiseKeyPair)
open Security
open Terminal (Ms)

/-! ### Frames off the wire -/

def e2eIdLength : Nat := base64UrlLength 16

def maxE2eCiphertextLength : Nat := base64UrlLength Noise.noiseMaxMessageLength

def maxClientIdLength : Nat := 256

def maxRelayToBurrowFrameLength : Nat := maxE2eCiphertextLength + maxClientIdLength + 512

def E2eKind.ofJson (value : JsString) : Option E2eKind :=
  if value = js "pairing" then some .pairing
  else if value = js "connection" then some .connection
  else none

def E2eClientStep.ofJson (value : JsString) : Option E2eClientStep :=
  if value = js "init" then some .init
  else if value = js "transport" then some .transport
  else none

def isE2eId (value : JsString) : Bool := isExactBase64Url value e2eIdLength

def isE2eCiphertext (value : JsString) : Bool := isBoundedBase64Url value maxE2eCiphertextLength

/-- `isE2eRelayToBurrowFrame`, and the frame it licenses. -/
def E2eRelayToBurrowFrame.ofJson (value : Json) : Option E2eRelayToBurrowFrame := do
  return {
    clientId := ← (value.stringField (js "clientId")).filter (isBoundedString · maxClientIdLength)
    burrowId := ← (value.stringField (js "burrowId")).filter isE2eId
    kind := ← (value.stringField (js "kind")).bind E2eKind.ofJson
    id := ← (value.stringField (js "id")).filter isE2eId
    step := ← (value.stringField (js "step")).bind E2eClientStep.ofJson
    ct := ← (value.stringField (js "ct")).filter isE2eCiphertext }

/-- What a raw message is accepted as. -/
def RelayToBurrowFrame.ofRaw (parseJson : JsString → Option Json) (raw : JsString) :
    Option RelayToBurrowFrame := do
  if maxRelayToBurrowFrameLength < raw.length then none
  else
    let value ← parseJson raw
    let tag ← value.stringField (js "t")
    if tag = js "client-gone" then
      return .clientGone
        (← (value.stringField (js "clientId")).filter (isBoundedString · maxClientIdLength))
    else if tag = js "e2e" then return .e2e (← E2eRelayToBurrowFrame.ofJson value)
    else none

namespace BurrowRuntime

variable {Key : Type} (opts : BurrowOptions Key)

/-! ### The queue -/

/-- Queue a frame; one too many ends the whole socket. -/
def enqueue (s : BurrowRuntime Key) (frame : RelayToBurrowFrame) (chars : Nat) (now : Ms) :
    BurrowRuntime Key :=
  if maxQueuedRelayFrames ≤ s.frames.length ∨ maxQueuedRelayFrameChars < s.frameChars + chars then
    { s with ws := none }.onClose opts none now
  else
    { s with
      frames := s.frames ++ [(frame, chars)]
      frameChars := s.frameChars + chars
      drainingFrames := true }

/-- The socket's `message` event; anything but a string is ignored. -/
def onMessage (s : BurrowRuntime Key) (socket : Nat) (raw : Option JsString) (now : Ms) :
    BurrowRuntime Key :=
  if s.ws ≠ some socket then s
  else
    match raw with
    | none => s
    | some raw =>
      match RelayToBurrowFrame.ofRaw opts.platform.parseJson raw with
      | none => s
      | some frame => s.enqueue opts frame raw.length now

/-! ### The drain -/

def onClientGone (s : BurrowRuntime Key) (clientId : ClientId) (now : Ms) : BurrowRuntime Key :=
  (s.disposeClient clientId now).reap opts now

/-- `#onE2e`: an `init` is the frame that allocates, so it reaps first. -/
def onE2e (s : BurrowRuntime Key) (frame : E2eRelayToBurrowFrame) (epoch : Nat)
    (replies : Nat → List Json) (now : Ms) : BurrowRuntime Key :=
  match frame.kind, frame.step with
  | .pairing, .init => (s.reap opts now).onPairingInit frame epoch now
  | .pairing, .transport => s.onPairingTransport opts frame now
  | .connection, .init => (s.reap opts now).onConnectionInit frame epoch now
  | .connection, .transport => s.onConnectionTransport opts frame replies now

/-- The drain takes up its next frame, once the one before is done with; when none is
left it ends. -/
def drainFrames (s : BurrowRuntime Key) (replies : Nat → List Json) (now : Ms) :
    BurrowRuntime Key :=
  if !s.drainingFrames || s.task.isSome then s
  else
    match s.frames with
    | [] => { s with drainingFrames := false }
    | (frame, chars) :: rest =>
      let s := { s with frames := rest, frameChars := s.frameChars - chars }
      match frame with
      | .clientGone clientId => s.onClientGone opts clientId now
      | .e2e frame => s.onE2e opts frame s.epoch replies now

/-- What the resumed step draws at random. -/
structure Draws (Key : Type) where
  ephemeral : Option (NoiseKeyPair Key)
  pairingId : JsString
  challenge : Bytes

/-- The drain's step in flight resumes. -/
def taskResumes (s : BurrowRuntime Key) (draws : Draws Key) (now : Ms) : BurrowRuntime Key :=
  match s.task with
  | none => s
  | some task =>
    let s := { s with task := none }
    match task with
    | .pairingHandshake frame epoch held =>
      s.pairingHandshakeResumes opts frame epoch held draws.ephemeral draws.pairingId now
    | .pairingPresence frame pending request =>
      s.pairingPresenceResumes opts frame pending request
    | .connectionRead frame epoch => s.connectionReadResumes opts frame epoch draws.challenge now
    | .connectionWrite frame epoch handshake challenge expiresAt =>
      s.connectionWriteResumes opts frame epoch handshake challenge expiresAt draws.ephemeral now
    | .connectionPresence frame pending proof challengeValid =>
      s.connectionPresenceResumes opts frame pending proof challengeValid now

/-- A remote-api session uses the `send` it was given. -/
def apiSends (s : BurrowRuntime Key) (index : Nat) (payload : Json) : BurrowRuntime Key :=
  match s.senders[index]? with
  | none => s
  | some sender => s.sendApp opts sender payload

end BurrowRuntime

/-! ### Runs -/

/-- One synchronous stretch: who causes it, and what the stretch reads. -/
inductive Act (Key : Type)
  | start
  | stop (now : Ms)
  | socketOpens (socket : Nat) (now : Ms)
  | socketReceives (socket : Nat) (raw : Option JsString) (now : Ms)
  | socketCloses (socket : Nat) (code : Option Nat) (now : Ms)
  | reconnectFires
  | reaperFires (now : Ms)
  | drain (replies : Nat → List Json) (now : Ms)
  | resume (draws : BurrowRuntime.Draws Key) (now : Ms)
  | mint (setupToken : JsString) (relayExpiresAtMs : Ms)
  | mintResumes (index : Nat) (keyPair : Option (NoiseKeyPair Key)) (inviteId : JsString) (now : Ms)
  | approve (clientId : ClientId) (pairingId code : JsString) (now : Ms)
  | deny (clientId : ClientId) (pairingId : JsString) (now : Ms)
  | saveStarts (deliveryId : JsString) (now : Ms)
  | saveSettles (succeeded : Bool) (now : Ms)
  | apiSends (index : Nat) (payload : Json)

/-- The state one stretch leaves. -/
def BurrowRuntime.next {Key : Type} (opts : BurrowOptions Key) (s : BurrowRuntime Key) :
    Act Key → BurrowRuntime Key
  | .start => s.start
  | .stop now => s.stop now
  | .socketOpens socket now => s.onOpen opts socket now
  | .socketReceives socket raw now => s.onMessage opts socket raw now
  | .socketCloses socket code now => s.onSocketClose opts socket code now
  | .reconnectFires => s.onReconnectTimer
  | .reaperFires now => s.onReaperTimer opts now
  | .drain replies now => s.drainFrames opts replies now
  | .resume draws now => s.taskResumes opts draws now
  | .mint setupToken relayExpiresAtMs => s.mintInvitation setupToken relayExpiresAtMs
  | .mintResumes index keyPair inviteId now => s.mintResumes opts index keyPair inviteId now
  | .approve clientId pairingId code now => s.approvePairing opts clientId pairingId code now
  | .deny clientId pairingId now => s.denyPairing opts clientId pairingId now
  | .saveStarts deliveryId now => s.saveStarts opts deliveryId now
  | .saveSettles succeeded now => s.saveSettles opts succeeded now
  | .apiSends index payload => s.apiSends opts index payload

/-- Every run of a Burrow constructed over some records. -/
def runtime {Key : Type} (opts : BurrowOptions Key) (records : List BurrowAclRecord) :
    System (BurrowRuntime Key) (Act Key) where
  init s := ∃ now, s = .construct opts records now
  step s act s' := s' = s.next opts act

/-- The state a run of these acts leaves. -/
def BurrowRuntime.after {Key : Type} (opts : BurrowOptions Key) (s : BurrowRuntime Key)
    (acts : List (Act Key)) : BurrowRuntime Key :=
  acts.foldl (BurrowRuntime.next opts) s

theorem reachable_after {Key : Type} {opts : BurrowOptions Key} {records : List BurrowAclRecord}
    (acts : List (Act Key)) {s : BurrowRuntime Key} (hs : (runtime opts records).Reachable s) :
    (runtime opts records).Reachable (s.after opts acts) :=
  hs.foldl (fun _ _ => rfl) acts

end Dormouse.Burrow
