import Dormouse.Burrow.Pairing

/-!
# Dormouse.Burrow.Connection

The **connection ceremony** (`burrow-runtime.ts`): Noise message 1 against the Burrow's
long-term static, the proof over a fresh challenge, the ACL's decision, and the
established session that carries the remote API.
-/

namespace Dormouse.Burrow.BurrowRuntime

open Noise (Bytes Session NoiseKeyPair NoiseHandshake)
open Security
open Terminal (Ms)

variable {Key : Type} (opts : BurrowOptions Key)

/-- `#loadNoiseStatic()`: nothing when there is nothing usable. -/
def loadNoiseStatic : Option (NoiseKeyPair Key) := do
  let pkcs8 ← opts.noiseStaticPrivateKey
  let publicKey ← opts.noiseStaticPublicKey
  let privateKey ← (fromBase64Url pkcs8).bind opts.platform.importPkcs8
  return ⟨privateKey, ← fromBase64Url publicKey⟩

/-! ### Message 1 -/

/-- `#onConnectionInit`, up to the reading of message 1. -/
def onConnectionInit (s : BurrowRuntime Key) (frame : E2eRelayToBurrowFrame) (epoch : Nat)
    (now : Ms) : BurrowRuntime Key :=
  let (s, spent) := s.spendInitToken now
  if spent then { s with task := some (.connectionRead frame epoch) } else s

/-- The challenge is issued only once message 1 has decrypted. -/
def connectionReadResumes (s : BurrowRuntime Key) (frame : E2eRelayToBurrowFrame) (epoch : Nat)
    (challengeBytes : Bytes) (now : Ms) : BurrowRuntime Key :=
  match loadNoiseStatic opts with
  | none => s
  | some staticKeyPair =>
    match readMessage1 opts (e2eConnectionPrologue opts.burrowId frame.id) staticKeyPair
        frame.ct with
    | none => s
    | some handshake =>
      let (challenges, challenge, expiresAt) := s.challenges.issue challengeBytes now
      { s with
        challenges := challenges
        task := some (.connectionWrite frame epoch handshake challenge expiresAt) }

/-- The pending connection a finished handshake allocates. -/
def connectionFor (s : BurrowRuntime Key) (frame : E2eRelayToBurrowFrame) (h : Handshaken)
    (challenge : JsString) (expiresAt : Ms) : PendingConnectionSession where
  uid := s.nextUid
  connectionId := frame.id
  handshakeHash := h.handshakeHash
  clientStaticPublicKey := h.clientStaticPublicKey
  burrowChallenge := challenge
  expiresAt := expiresAt

/-- Install a pending connection, its session with it. -/
def installConnection (s : BurrowRuntime Key) (clientId : ClientId) (h : Handshaken)
    (pending : PendingConnectionSession) : BurrowRuntime Key :=
  let s := s.clientState clientId
  let s := s.editClient clientId fun state => { state with connection := some pending }
  { s with sessions := s.sessions.set pending.uid h.session, nextUid := s.nextUid + 1 }

/-- `#onConnectionInit`, once message 2 is written; a teardown has come between when the
epoch moved. -/
def connectionWriteResumes (s : BurrowRuntime Key) (frame : E2eRelayToBurrowFrame)
    (epoch : Nat) (handshake : NoiseHandshake Key) (challenge : JsString) (expiresAt : Ms)
    (ephemeral : Option (NoiseKeyPair Key)) (now : Ms) : BurrowRuntime Key :=
  match (fromBase64Url challenge).bind (writeMessage2 opts handshake ephemeral) with
  | none => s
  | some h =>
    if s.epoch ≠ epoch then s
    else
      let s := (s.disposeConnection frame.clientId now).evictOldestConnectionIfFull now
      let s := s.installConnection frame.clientId h (s.connectionFor frame h challenge expiresAt)
      s.armReaper.sendE2e frame.clientId .connection frame.id .response h.message2

/-! ### Established sessions -/

/-- `#sendApp`: only a poisoned session is burrow loss. -/
def sendApp (s : BurrowRuntime Key) (sender : Sender) (payload : Json) : BurrowRuntime Key :=
  match s.sessions.get sender.session with
  | none => s
  | some cipher =>
    let r := cipher.sendApp opts.platform.suite.aead opts.platform.json
      (opts.platform.json.stringify payload)
    let s := { s with sessions := s.sessions.set sender.session r.1 }
    match r.2 with
    | .ok ciphertexts =>
      ciphertexts.foldl (fun s ciphertext =>
        s.sendE2e sender.clientId .connection sender.connectionId .transport ciphertext) s
    | .error _ => if r.1.isPoisoned then s.disposeEstablished sender.clientId else s

/-- Hand one receipt's messages to the API, whose handler answers the `n`th of them with
`replies n`; a session disposed on the way gets no more of them. -/
def handleMessages (sender : Sender) (replies : Nat → List Json) :
    Nat → List Bytes → BurrowRuntime Key → BurrowRuntime Key
  | _, [], s => s
  | n, message :: messages, s =>
    match opts.platform.json.parse message with
    | none => handleMessages sender replies (n + 1) messages s
    | some payload =>
      let s := s.emit (.apiHandled sender.session payload)
      let s := (replies n).foldl (fun s reply => s.sendApp opts sender reply) s
      if s.holdsEstablished sender.clientId sender.session then
        handleMessages sender replies (n + 1) messages s
      else s

/-- One transport frame on an authorized session; a failed decrypt is not activity. -/
def onEstablishedFrame (s : BurrowRuntime Key) (clientId : ClientId)
    (established : EstablishedSession) (ct : JsString) (replies : Nat → List Json) (now : Ms) :
    BurrowRuntime Key :=
  let (s, receipt) := s.receive opts established.uid ct
  match receipt with
  | none => s.disposeEstablished clientId
  | some receipt =>
    let s := s.editClient clientId fun state =>
      { state with established := state.established.map ({ · with lastClientActivityAt := now }) }
    match receipt with
    | .app messages =>
      handleMessages opts ⟨clientId, established.connectionId, established.uid⟩ replies 0
        messages s
    | _ => s

/-- Which client holds a session for a static, and how many others hold one. -/
def establishedFor (s : BurrowRuntime Key) (staticKey : JsString) (exceptClientId : ClientId) :
    Option ClientId × Nat :=
  let established := s.clients.entries.filter fun e => e.2.established.isSome
  ((established.filter fun e =>
      e.2.established.any (·.clientStaticPublicKey == staticKey)).getLast?.map Prod.fst,
    (established.filter fun e => e.1 ≠ exceptClientId).length)

/-- The API session of a promoted connection. -/
def establish (s : BurrowRuntime Key) (clientId : ClientId) (pending : PendingConnectionSession)
    (now : Ms) : BurrowRuntime Key :=
  let sender : Sender := ⟨clientId, pending.connectionId, pending.uid⟩
  let s := { s with senders := s.senders ++ [sender] }
  (s.emit (.apiCreated pending.uid)).editClient clientId fun state =>
    { state with
      established :=
        some ⟨pending.uid, pending.connectionId, pending.clientStaticPublicKey, now⟩ }

/-- `state.established?.api.dispose()`, and the reference with it. -/
def replaceEstablished (s : BurrowRuntime Key) (clientId : ClientId) : BurrowRuntime Key :=
  match s.establishedOf clientId with
  | none => s
  | some established =>
    (s.emit (.apiDisposed established.uid)).editClient clientId fun state =>
      { state with established := none }

/-- Success: answer, then hand the session's byte stream to the remote API. -/
def promoteConnection (s : BurrowRuntime Key) (clientId : ClientId)
    (pending : PendingConnectionSession) (now : Ms) : BurrowRuntime Key :=
  let (incumbent, others) := s.establishedFor pending.clientStaticPublicKey clientId
  if incumbent = none ∧ maxEstablishedE2eSessions ≤ others then
    s.denyConnection opts clientId pending .burrowBusy now
  else
    let s := s.clientState clientId
    let s := s.editClient clientId fun state => { state with connection := none }
    let s := match incumbent with
      | some incumbent => if incumbent = clientId then s else s.disposeEstablished incumbent
      | none => s
    let s := s.replaceEstablished clientId
    let s := s.sendControl opts clientId .connection pending.connectionId pending.uid
      (ConnectionOutcomeV1.ok (boundedBurrowLabel opts.label)).toJson
    if !opts.createSession then s.pruneClient clientId
    else (s.establish clientId pending now).armReaper

/-! ### The request -/

/-- The binding a connection's presence proof must carry. -/
def connectionBinding (pending : PendingConnectionSession) (proof : PresenceProofV1) :
    PresenceBinding :=
  .connection opts.burrowId pending.connectionId pending.burrowChallenge pending.handshakeHash
    proof.binding.passkeyCredentialId

/-- `#onConnectionTransport` on a pending connection, up to the verification of the
proof: the challenge is consumed before any other work. -/
def onPendingConnectionFrame (s : BurrowRuntime Key) (frame : E2eRelayToBurrowFrame)
    (pending : PendingConnectionSession) (now : Ms) : BurrowRuntime Key :=
  let (s, receipt) := s.receive opts pending.uid frame.ct
  match receipt with
  | none => s.disposeConnection frame.clientId now
  | some .keepalive => s
  | some (.control value) =>
    match connectionRequestOfJson value with
    | none => s.denyConnection opts frame.clientId pending .protocolRejected now
    | some proof =>
      let (challenges, valid) := s.challenges.consume pending.burrowChallenge now
      { s with
        challenges := challenges
        task := some (.connectionPresence frame pending proof valid) }
  | some (.app _) => s.denyConnection opts frame.clientId pending .protocolRejected now

/-- Transport on a connection. -/
def onConnectionTransport (s : BurrowRuntime Key) (frame : E2eRelayToBurrowFrame)
    (replies : Nat → List Json) (now : Ms) : BurrowRuntime Key :=
  match s.clients.get frame.clientId with
  | none => s
  | some state =>
    match state.established.filter (·.connectionId == frame.id) with
    | some established => s.onEstablishedFrame opts frame.clientId established frame.ct replies now
    | none =>
      match state.connection.filter (·.connectionId == frame.id) with
      | none => s
      | some pending => s.onPendingConnectionFrame opts frame pending now

/-- Whether one active record holds all four identities. -/
def aclAuthorizes (s : BurrowRuntime Key) (passkeyCredentialId clientStaticPublicKey accountId
    passkeyPublicKeyHash : JsString) : Bool :=
  match s.acl.authorize passkeyCredentialId clientStaticPublicKey with
  | .error _ => false
  | .ok record =>
    record.accountId == accountId && record.passkeyPublicKeyHash == passkeyPublicKeyHash

/-- `#onConnectionTransport`, once the proof has been verified. -/
def connectionPresenceResumes (s : BurrowRuntime Key) (frame : E2eRelayToBurrowFrame)
    (pending : PendingConnectionSession) (proof : PresenceProofV1) (challengeValid : Bool)
    (now : Ms) : BurrowRuntime Key :=
  if !s.holdsConnection frame.clientId pending.uid then s
  else
    match challengeValid, verifyPresenceProof opts.platform proof (connectionBinding opts pending proof)
        opts.policy with
    | true, .ok passkeyPublicKeyHash =>
      if s.aclAuthorizes proof.binding.passkeyCredentialId pending.clientStaticPublicKey
          proof.accountId passkeyPublicKeyHash then
        s.promoteConnection opts frame.clientId pending now
      else s.denyConnection opts frame.clientId pending .pairingRequired now
    | _, _ => s.denyConnection opts frame.clientId pending .presenceRejected now

end Dormouse.Burrow.BurrowRuntime
