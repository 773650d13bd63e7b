import Dormouse.Noise.Transport
import Dormouse.Security.Bytes

/-!
# Dormouse.Noise.Handshake

The **IK handshake** `Noise_IK_25519_ChaChaPoly_SHA256`
(`remote-lib-common/src/security/noise.ts`): `SymmetricState` and `NoiseHandshake`,
down to the cipher states that `Split` hands to a transport session.

SHA-256, HMAC, X25519 and ChaCha20-Poly1305 are parameters (`Suite`); private keys
have a type of their own, since none of them ever leaves WebCrypto. A call runs in
`HandshakeM`: it keeps the writes made before a throw, as the object does.
-/

namespace Dormouse.Noise

open Security (utf8Encode)

/-- The primitives under the suite. A `deriveBits` or an import that rejects is `none`. -/
structure Suite (Key : Type) where
  sha256 : Bytes → Bytes
  hmacSha256 : Bytes → Bytes → Bytes
  deriveBits : Key → Bytes → Option Bytes
  aead : Aead Bytes

def noiseProtocolName : JsString := js "Noise_IK_25519_ChaChaPoly_SHA256"

def noiseKeyLength : Nat := 32

def message1Overhead : Nat := noiseKeyLength * 2 + noiseTagLength * 2

def message2Overhead : Nat := noiseKeyLength + noiseTagLength

structure NoiseKeyPair (Key : Type) where
  privateKey : Key
  publicKey : Bytes

/-- The two directional cipher states and the transcript hash from `Split`. -/
structure NoiseSession where
  send : CipherState Bytes
  receive : CipherState Bytes
  handshakeHash : Bytes

/-- `new NoiseTransportSession(session)`. -/
def NoiseSession.toTransport (session : NoiseSession) : Session Bytes where
  send := session.send
  receive := session.receive
  reassembler := .fresh
  poison := none

/-- `new NoiseCipherState(key)`. -/
def CipherState.initializeKey (key : Bytes) : Except Exn (CipherState Bytes) :=
  if key.length ≠ noiseKeyLength then .error (.noise "ChaChaPoly key must be 32 bytes")
  else .ok ⟨some key, 0, []⟩

def requireKey (key : Bytes) (what : String) : Except Exn Unit :=
  if key.length ≠ noiseKeyLength then .error (.noise (what ++ " must be 32 bytes")) else .ok ()

/-- The 32 bytes at `offset`. -/
def copyKey (source : Bytes) (offset : Nat) : Bytes :=
  subarray source offset (offset + noiseKeyLength)

section Handshake

variable {Key : Type} (suite : Suite Key)

/-- Noise's HKDF with two outputs. -/
def noiseHkdf (chainingKey inputKeyMaterial : Bytes) : Bytes × Bytes :=
  let tempKey := suite.hmacSha256 chainingKey inputKeyMaterial
  let output1 := suite.hmacSha256 tempKey [0x01]
  (output1, suite.hmacSha256 tempKey (output1 ++ [0x02]))

/-- X25519 to a raw shared secret; an all-zero one is refused. -/
def x25519Agree (privateKey : Key) (publicKey : Bytes) : Except Exn Bytes :=
  match requireKey publicKey "X25519 public key" with
  | .error e => .error e
  | .ok () =>
    match suite.deriveBits privateKey publicKey with
    | none => .error (.noise "X25519 agreement failed")
    | some shared =>
      if shared.length ≠ noiseKeyLength ∨ shared = List.replicate noiseKeyLength 0 then
        .error (.noise "X25519 agreement failed")
      else .ok shared

/-! ### Symmetric states -/

structure SymmetricState where
  chainingKey : Bytes
  hash : Bytes
  cipher : CipherState Bytes

namespace SymmetricState

def initializeSymmetric : Except Exn SymmetricState :=
  let name := utf8Encode noiseProtocolName
  if noiseKeyLength < name.length then .error (.noise "protocol name exceeds HASHLEN")
  else
    let hash := name ++ List.replicate (noiseKeyLength - name.length) 0
    .ok ⟨hash, hash, ⟨none, 0, []⟩⟩

def mixHash (s : SymmetricState) (data : Bytes) : SymmetricState :=
  { s with hash := suite.sha256 (s.hash ++ data) }

def mixKey (s : SymmetricState) (inputKeyMaterial : Bytes) : Except Exn SymmetricState :=
  let keys := noiseHkdf suite s.chainingKey inputKeyMaterial
  (CipherState.initializeKey keys.2).map fun cipher =>
    { s with chainingKey := keys.1, cipher := cipher }

def encryptAndHash (s : SymmetricState) (plaintext : Bytes) :
    Except Exn (Bytes × SymmetricState) :=
  match s.cipher.encryptWithAd suite.aead s.hash plaintext with
  | (_, .error e) => .error e
  | (cipher, .ok ciphertext) => .ok (ciphertext, { s with cipher := cipher }.mixHash suite ciphertext)

def decryptAndHash (s : SymmetricState) (ciphertext : Bytes) :
    Except Exn (Bytes × SymmetricState) :=
  match s.cipher.decryptWithAd suite.aead s.hash ciphertext with
  | (_, .error e) => .error e
  | (cipher, .ok plaintext) => .ok (plaintext, { s with cipher := cipher }.mixHash suite ciphertext)

def split (s : SymmetricState) (initiator : Bool) : Except Exn NoiseSession :=
  let keys := noiseHkdf suite s.chainingKey []
  match CipherState.initializeKey (if initiator then keys.1 else keys.2),
      CipherState.initializeKey (if initiator then keys.2 else keys.1) with
  | .ok send, .ok receive => .ok ⟨send, receive, s.hash⟩
  | .error e, _ => .error e
  | _, .error e => .error e

end SymmetricState

/-! ### The handshake object -/

inductive Role
  | initiator
  | responder
  deriving DecidableEq, Repr

structure NoiseHandshake (Key : Type) where
  role : Role
  symmetric : SymmetricState
  staticKeyPair : NoiseKeyPair Key
  ephemeral : Option (NoiseKeyPair Key)
  remoteStatic : Option Bytes
  remoteEphemeral : Option Bytes
  firstMessageDone : Bool
  failed : Bool
  inFlight : Bool
  session : Option NoiseSession

/-- A call on a handshake object. -/
abbrev HandshakeM (Key : Type) := ExceptT Exn (StateM (NoiseHandshake Key))

def requireMessageLength (length message overhead : Nat) : Except Exn Unit :=
  if length < overhead then
    .error (.noise ("handshake message " ++ toString message ++ " is too short"))
  else requireMaxMessageLength length

namespace NoiseHandshake

variable {suite}

/-- A call that may throw, inside a message. -/
def lift {α : Type} : Except Exn α → HandshakeM Key α
  | .ok a => pure a
  | .error e => throw e

/-- Run a step of the symmetric state. -/
def onSymmetric {α : Type} (run : SymmetricState → Except Exn (α × SymmetricState)) :
    HandshakeM Key α := do
  let h ← get
  let r ← lift (run h.symmetric)
  modify fun h => { h with symmetric := r.2 }
  return r.1

/-- `x!`: absent only where the message order was not kept. -/
def present {α : Type} : Option α → HandshakeM Key α
  | some a => pure a
  | none => throw (.other "undefined")

variable (suite)

def mixHash (data : Bytes) : HandshakeM Key Unit :=
  onSymmetric fun s => .ok ((), s.mixHash suite data)

/-- `mixKey(await dh(privateKey, publicKey))`. -/
def mixDh (privateKey : Key) (publicKey : Bytes) : HandshakeM Key Unit := do
  let shared ← lift (x25519Agree suite privateKey publicKey)
  onSymmetric fun s => (s.mixKey suite shared).map fun s => ((), s)

variable {suite}

/-- The injected `e`, else the one `generated` when key generation succeeded. -/
def useEphemeral (generated : Option (NoiseKeyPair Key)) : HandshakeM Key (NoiseKeyPair Key) := do
  let h ← get
  match h.ephemeral.or generated with
  | none => throw (.noise "X25519 key generation failed")
  | some ephemeral =>
    modify fun h => { h with ephemeral := some ephemeral }
    return ephemeral

variable (suite)

/-- `-> e, es, s, ss` -/
def writeMessage1 (generated : Option (NoiseKeyPair Key)) (payload : Bytes) :
    HandshakeM Key Bytes := do
  lift (requireMessageLength (message1Overhead + payload.length) 1 message1Overhead)
  let ephemeral ← useEphemeral generated
  mixHash suite ephemeral.publicKey
  let h ← get
  let remoteStatic ← present h.remoteStatic
  mixDh suite ephemeral.privateKey remoteStatic
  let encryptedStatic ← onSymmetric (·.encryptAndHash suite h.staticKeyPair.publicKey)
  mixDh suite h.staticKeyPair.privateKey remoteStatic
  let encryptedPayload ← onSymmetric (·.encryptAndHash suite payload)
  modify fun h => { h with firstMessageDone := true }
  return ephemeral.publicKey ++ encryptedStatic ++ encryptedPayload

/-- `-> e, es, s, ss` -/
def readMessage1 (message : Bytes) : HandshakeM Key Bytes := do
  lift (requireMessageLength message.length 1 message1Overhead)
  let staticEnd := message1Overhead - noiseTagLength
  let remoteEphemeral := copyKey message 0
  modify fun h => { h with remoteEphemeral := some remoteEphemeral }
  mixHash suite remoteEphemeral
  let h ← get
  mixDh suite h.staticKeyPair.privateKey remoteEphemeral
  let remoteStatic ←
    onSymmetric (·.decryptAndHash suite (subarray message noiseKeyLength staticEnd))
  lift (requireKey remoteStatic "remote static public key")
  modify fun h => { h with remoteStatic := some remoteStatic }
  mixDh suite h.staticKeyPair.privateKey remoteStatic
  let payload ← onSymmetric (·.decryptAndHash suite (message.drop staticEnd))
  modify fun h => { h with firstMessageDone := true }
  return payload

/-- `<- e, ee, se` -/
def writeMessage2 (generated : Option (NoiseKeyPair Key)) (payload : Bytes) :
    HandshakeM Key Bytes := do
  lift (requireMessageLength (message2Overhead + payload.length) 2 message2Overhead)
  let ephemeral ← useEphemeral generated
  mixHash suite ephemeral.publicKey
  let h ← get
  mixDh suite ephemeral.privateKey (← present h.remoteEphemeral)
  mixDh suite ephemeral.privateKey (← present h.remoteStatic)
  let encryptedPayload ← onSymmetric (·.encryptAndHash suite payload)
  let h ← get
  let session ← lift (h.symmetric.split suite (decide (h.role = .initiator)))
  modify fun h => { h with session := some session }
  return ephemeral.publicKey ++ encryptedPayload

/-- `<- e, ee, se` -/
def readMessage2 (message : Bytes) : HandshakeM Key Bytes := do
  lift (requireMessageLength message.length 2 message2Overhead)
  let remoteEphemeral := copyKey message 0
  mixHash suite remoteEphemeral
  let h ← get
  let ephemeral ← present h.ephemeral
  mixDh suite ephemeral.privateKey remoteEphemeral
  mixDh suite h.staticKeyPair.privateKey remoteEphemeral
  let payload ← onSymmetric (·.decryptAndHash suite (message.drop noiseKeyLength))
  let h ← get
  let session ← lift (h.symmetric.split suite (decide (h.role = .initiator)))
  modify fun h => { h with session := some session }
  return payload

variable {suite}

/-- What `#step` checks before it runs a message. -/
def beginStep (h : NoiseHandshake Key) : NoiseHandshake Key × Except Exn Unit :=
  if h.failed then (h, .error (.noise "handshake already failed"))
  else if h.session.isSome then (h, .error (.noise "handshake already complete"))
  else if h.inFlight then
    ({ h with failed := true }, .error (.noise "handshake step is already in flight"))
  else ({ h with inFlight := true }, .ok ())

/-- What `#step` leaves behind once the message has run. -/
def endStep (r : Except Exn Bytes × NoiseHandshake Key) : NoiseHandshake Key × Except Exn Bytes :=
  match r with
  | (.ok out, h) => ({ h with inFlight := false }, .ok out)
  | (.error e, h) =>
    ({ h with inFlight := false, failed := true },
      .error (match e with
        | .noise message => .noise message
        | .other _ => .noise "handshake failed"))

/-- Run one handshake message, at most one at a time. -/
def step (h : NoiseHandshake Key) (run : HandshakeM Key Bytes) :
    NoiseHandshake Key × Except Exn Bytes :=
  match h.beginStep with
  | (h, .error e) => (h, .error e)
  | (h, .ok ()) => endStep (run.run.run h)

variable (suite)

def writeMessage (h : NoiseHandshake Key) (generated : Option (NoiseKeyPair Key))
    (payload : Bytes) : NoiseHandshake Key × Except Exn Bytes :=
  h.step do
    let h ← get
    match h.role with
    | .initiator =>
      if h.firstMessageDone then throw (.noise "the initiator writes only message 1")
      writeMessage1 suite generated payload
    | .responder =>
      unless h.firstMessageDone do throw (.noise "the responder writes only message 2")
      writeMessage2 suite generated payload

def readMessage (h : NoiseHandshake Key) (message : Bytes) :
    NoiseHandshake Key × Except Exn Bytes :=
  h.step do
    let h ← get
    match h.role with
    | .responder =>
      if h.firstMessageDone then throw (.noise "the responder reads only message 1")
      readMessage1 suite message
    | .initiator =>
      unless h.firstMessageDone do throw (.noise "the initiator reads only message 2")
      readMessage2 suite message

/-- Shared by both roles: passing `rs` starts an initiator, omitting it a responder. -/
def start (prologue : Bytes) (staticKeyPair : NoiseKeyPair Key)
    (ephemeral : Option (NoiseKeyPair Key)) (remoteStatic : Option Bytes) :
    Except Exn (NoiseHandshake Key) := do
  requireKey staticKeyPair.publicKey "local static public key"
  match ephemeral with
  | some e => requireKey e.publicKey "ephemeral public key"
  | none => pure ()
  match remoteStatic with
  | some rs => requireKey rs "remote static public key"
  | none => pure ()
  let symmetric ← SymmetricState.initializeSymmetric
  let symmetric := symmetric.mixHash suite prologue
  let symmetric := symmetric.mixHash suite (remoteStatic.getD staticKeyPair.publicKey)
  return {
    role := if remoteStatic.isNone then .responder else .initiator
    symmetric := symmetric
    staticKeyPair := staticKeyPair
    ephemeral := ephemeral
    remoteStatic := remoteStatic
    remoteEphemeral := none
    firstMessageDone := false
    failed := false
    inFlight := false
    session := none }

end NoiseHandshake

def createNoiseInitiator (prologue : Bytes) (staticKeyPair : NoiseKeyPair Key)
    (ephemeral : Option (NoiseKeyPair Key)) (remoteStaticPublicKey : Bytes) :
    Except Exn (NoiseHandshake Key) := do
  requireKey remoteStaticPublicKey "remote static public key"
  NoiseHandshake.start suite prologue staticKeyPair ephemeral
    (some (copyKey remoteStaticPublicKey 0))

def createNoiseResponder (prologue : Bytes) (staticKeyPair : NoiseKeyPair Key)
    (ephemeral : Option (NoiseKeyPair Key)) : Except Exn (NoiseHandshake Key) :=
  NoiseHandshake.start suite prologue staticKeyPair ephemeral none

end Handshake

end Dormouse.Noise
