import Mathlib.Logic.Function.Basic
import Dormouse.Lib.Transition
import Dormouse.Noise.Stream

/-!
# Dormouse.Noise.Transport

The **transport session** that runs once a handshake has split its keys:
`NoiseCipherState` (`remote-lib-common/src/security/noise.ts`) and
`NoiseTransportSession` (`noise-transport.ts`).

ChaCha20-Poly1305 is a parameter (`Aead`), and so is the JSON text of control
messages (`JsonText`). A call answers the session it leaves behind together with
what it returned or threw, since a throw keeps the writes made before it.
-/

namespace Dormouse.Noise

/-- The AEAD a cipher state calls: key, nonce, associated data, then the text. -/
structure Aead (K : Type) where
  encrypt : K → Bytes → Bytes → Bytes → Bytes
  decrypt : K → Bytes → Bytes → Bytes → Option Bytes

/-- `JSON.stringify` to UTF-8, and back. -/
structure JsonText (J : Type) where
  stringify : J → Bytes
  parse : Bytes → Option J
  isObject : J → Bool

/-- What a call throws: a `NoiseError`, or anything else. -/
inductive Exn
  | noise (message : String)
  | other (message : String)
  deriving DecidableEq, Repr

def Exn.message : Exn → String
  | .noise message => message
  | .other message => message

/-! ### Cipher states -/

/-- The reserved counter value `2^64 - 1`. -/
def reservedNonce : Nat := 2 ^ 64 - 1

/-- The `k` low bytes of `n`, little-endian. -/
def littleEndian : Nat → Nat → Bytes
  | 0, _ => []
  | k + 1, n => UInt8.ofNat n :: littleEndian k (n / 256)

/-- The nonce for counter `n`: four zero bytes, then `n` little-endian. -/
def noiseNonceBytes (n : Nat) : Except Exn Bytes :=
  if reservedNonce ≤ n then .error (.noise "nonce counter exhausted")
  else .ok ([0, 0, 0, 0] ++ littleEndian 8 n)

def requireMaxMessageLength (length : Nat) : Except Exn Unit :=
  if noiseMaxMessageLength < length then .error (.noise "message exceeds the Noise maximum")
  else .ok ()

/-- One AEAD encryption: its nonce, plaintext and ciphertext. -/
structure Sealed where
  nonce : Bytes
  plaintext : Bytes
  ciphertext : Bytes
  deriving DecidableEq

/-- A key and a counter. `used` is a history variable: every encryption made so far,
which no function reads. -/
structure CipherState (K : Type) where
  key : Option K
  n : Nat
  used : List Sealed

section Session

variable {K J : Type} (aead : Aead K) (json : JsonText J)

namespace CipherState

def encryptWithAd (cs : CipherState K) (ad plaintext : Bytes) :
    CipherState K × Except Exn Bytes :=
  match requireMaxMessageLength
      (plaintext.length + if cs.key.isNone then 0 else noiseTagLength) with
  | .error e => (cs, .error e)
  | .ok () =>
    match cs.key with
    | none => (cs, .ok plaintext)
    | some key =>
      match noiseNonceBytes cs.n with
      | .error e => (cs, .error e)
      | .ok nonce =>
        let ciphertext := aead.encrypt key nonce ad plaintext
        (⟨cs.key, cs.n + 1, cs.used ++ [⟨nonce, plaintext, ciphertext⟩]⟩, .ok ciphertext)

def decryptWithAd (cs : CipherState K) (ad ciphertext : Bytes) :
    CipherState K × Except Exn Bytes :=
  match requireMaxMessageLength ciphertext.length with
  | .error e => (cs, .error e)
  | .ok () =>
    match cs.key with
    | none => (cs, .ok ciphertext)
    | some key =>
      match noiseNonceBytes cs.n with
      | .error e => (cs, .error e)
      | .ok nonce =>
        match aead.decrypt key nonce ad ciphertext with
        | none => (cs, .error (.noise "ChaChaPoly authentication failed"))
        | some plaintext => ({ cs with n := cs.n + 1 }, .ok plaintext)

end CipherState

/-! ### Transport plaintexts -/

def transportKindKeepalive : UInt8 := 0x00

def transportKindStream : UInt8 := 0x01

def transportKindControl : UInt8 := 0x02

def keepaliveBodySize : Nat := 32

def controlPayloadSize : Nat := 4096

/-- One decoded transport plaintext: `[kind: u8][body]`. -/
inductive TransportPlaintext (J : Type)
  | keepalive
  | control (value : J)
  | stream (body : Bytes)

/-- UTF-8 JSON, NUL-padded to the control payload size. -/
def encodeControlBody (value : J) : Except Exn Bytes :=
  let text := json.stringify value
  if controlPayloadSize < text.length then
    .error (.noise "control message exceeds the control payload size")
  else .ok (text ++ List.replicate (controlPayloadSize - text.length) 0)

/-- Drop the trailing NUL bytes. -/
def dropTrailingNuls (body : Bytes) : Bytes := (body.reverse.dropWhile (· == 0)).reverse

def decodeControlBody (body : Bytes) : Except Exn J :=
  if body.length ≠ controlPayloadSize then
    .error (.noise "control body is not the control payload size")
  else
    match json.parse (dropTrailingNuls body) with
    | none => .error (.noise "control message is not JSON")
    | some value =>
      if json.isObject value then .ok value
      else .error (.noise "control message is not an object")

def encodeTransportPlaintext : TransportPlaintext J → Except Exn Bytes
  | .keepalive => .ok (transportKindKeepalive :: List.replicate keepaliveBodySize 0)
  | .control value => (encodeControlBody json value).map (transportKindControl :: ·)
  | .stream body =>
    if maxStreamBodyLength < body.length then
      .error (.noise "stream body exceeds one Noise message")
    else .ok (transportKindStream :: body)

def decodeTransportPlaintext : Bytes → Except Exn (TransportPlaintext J)
  | [] => .error (.noise "transport plaintext is empty")
  | kind :: body =>
    if kind = transportKindKeepalive then
      if body.length ≠ keepaliveBodySize then .error (.noise "keepalive body must be 32 bytes")
      else if body.any (· != 0) then .error (.noise "keepalive body must be zero")
      else .ok .keepalive
    else if kind = transportKindStream then
      if maxStreamBodyLength < body.length then
        .error (.noise "stream body exceeds one Noise message")
      else .ok (.stream body)
    else if kind = transportKindControl then (decodeControlBody json body).map .control
    else .error (.noise "unknown transport kind")

/-! ### Sessions -/

/-- What one received message turned out to be. -/
inductive TransportReceipt (J : Type)
  | keepalive
  | control (value : J)
  | app (messages : List Bytes)

structure Session (K : Type) where
  send : CipherState K
  receive : CipherState K
  reassembler : StreamReassembler
  poison : Option String

namespace Session

def isPoisoned (s : Session K) : Bool := s.poison.isSome

def requireLive (s : Session K) : Except Exn Unit :=
  match s.poison with
  | none => .ok ()
  | some why => .error (.noise ("session is destroyed: " ++ why))

/-- Run a call on a live session; whatever it throws poisons the session. -/
def guarded {α : Type} (s : Session K) (run : Session K × Except Exn α) :
    Session K × Except Exn α :=
  match s.requireLive with
  | .error e => (s, .error e)
  | .ok () =>
    match run with
    | (s', .ok a) => (s', .ok a)
    | (s', .error e) =>
      ({ s' with poison := some e.message },
        .error (match e with
          | .noise message => .noise message
          | .other _ => .noise "transport failure"))

/-- Encrypt one encoded plaintext with the sending state. -/
def encryptEncoded (s : Session K) (plaintext : Bytes) : Session K × Except Exn Bytes :=
  let r := s.send.encryptWithAd aead [] plaintext
  ({ s with send := r.1 }, r.2)

/-- Encode and encrypt one frame. -/
def encrypt (s : Session K) (frame : TransportPlaintext J) : Session K × Except Exn Bytes :=
  match encodeTransportPlaintext json frame with
  | .error e => (s, .error e)
  | .ok plaintext => s.encryptEncoded aead plaintext

/-- `bodies.map(body => encrypt({ kind: 'stream', body }))`, left to right. -/
def encryptBodies (s : Session K) : List Bytes → Session K × Except Exn (List Bytes)
  | [] => (s, .ok [])
  | body :: bodies =>
    match s.encrypt aead json (.stream body) with
    | (s', .error e) => (s', .error e)
    | (s', .ok ciphertext) =>
      let rest := s'.encryptBodies bodies
      (rest.1, rest.2.map (ciphertext :: ·))

def sendKeepalive (s : Session K) : Session K × Except Exn Bytes :=
  s.guarded (s.encrypt aead json .keepalive)

/-- The value is encoded outside the guard. -/
def sendControl (s : Session K) (value : J) : Session K × Except Exn Bytes :=
  match s.requireLive with
  | .error e => (s, .error e)
  | .ok () =>
    match encodeTransportPlaintext json (.control value) with
    | .error e => (s, .error e)
    | .ok plaintext => s.guarded (s.encryptEncoded aead plaintext)

/-- The message is chunked outside the guard. -/
def sendApp (s : Session K) (message : Bytes) : Session K × Except Exn (List Bytes) :=
  match s.requireLive with
  | .error e => (s, .error e)
  | .ok () =>
    match chunkAppMessage message with
    | none => (s, .error (.noise "application message exceeds the 1 MiB cap"))
    | some bodies => s.guarded (s.encryptBodies aead json bodies)

def PushError.toExn : PushError → Exn
  | .transport why => .noise why
  | .range => .other "offset is out of bounds"

/-- Hand a decoded frame on: a stream body goes through reassembly. -/
def acceptFrame (s : Session K) :
    TransportPlaintext J → Session K × Except Exn (TransportReceipt J)
  | .keepalive => (s, .ok .keepalive)
  | .control value => (s, .ok (.control value))
  | .stream body =>
    let r := s.reassembler.push body
    ({ s with reassembler := r.1 },
      match r.2 with
      | .ok messages => .ok (.app messages)
      | .error e => .error (PushError.toExn e))

/-- What `receive` runs under the guard. -/
def receiveFrame (s : Session K) (ciphertext : Bytes) :
    Session K × Except Exn (TransportReceipt J) :=
  match s.receive.decryptWithAd aead [] ciphertext with
  | (cs, .error e) => ({ s with receive := cs }, .error e)
  | (cs, .ok plaintext) =>
    match decodeTransportPlaintext json plaintext with
    | .error e => ({ s with receive := cs }, .error e)
    | .ok frame => { s with receive := cs }.acceptFrame frame

def receiveMessage (s : Session K) (ciphertext : Bytes) :
    Session K × Except Exn (TransportReceipt J) :=
  s.guarded (s.receiveFrame aead json ciphertext)

end Session

end Session

/-! ### Two sessions and the network between them -/

inductive Party
  | alice
  | bob
  deriving DecidableEq, Repr

def Party.other : Party → Party
  | .alice => .bob
  | .bob => .alice

/-- What the two applications and the network do. -/
inductive Action (J : Type)
  | keepalive
  | control (value : J)
  | app (message : Bytes)
  | deliver (ciphertext : Bytes)

/-- The two sessions, the encryptions whose ciphertexts each has returned, and the
plaintexts each has accepted. -/
structure Net (K : Type) where
  session : Party → Session K
  sent : Party → List Sealed
  accepted : Party → List Bytes

namespace Net

variable {K J : Type} (aead : Aead K) (json : JsonText J)

/-- A sending call returned or threw: only what it returned reaches the network. -/
def afterSend {α : Type} (net : Net K) (p : Party) (r : Session K × Except Exn α) : Net K where
  session := Function.update net.session p r.1
  sent := match r.2 with
    | .ok _ => Function.update net.sent p
        (net.sent p ++ r.1.send.used.drop (net.session p).send.used.length)
    | .error _ => net.sent
  accepted := net.accepted

/-- A receiving call returned or threw: what it returned from is accepted. -/
def afterReceive (net : Net K) (p : Party) (ciphertext : Bytes) : Net K :=
  let r := (net.session p).receiveMessage aead json ciphertext
  let opened := ((net.session p).receive.decryptWithAd aead [] ciphertext).2
  { session := Function.update net.session p r.1
    sent := net.sent
    accepted := match r.2, opened with
      | .ok _, .ok plaintext => Function.update net.accepted p (net.accepted p ++ [plaintext])
      | _, _ => net.accepted }

def next (net : Net K) (p : Party) : Action J → Net K
  | .keepalive => net.afterSend p ((net.session p).sendKeepalive aead json)
  | .control value => net.afterSend p ((net.session p).sendControl aead json value)
  | .app message => net.afterSend p ((net.session p).sendApp aead json message)
  | .deliver ciphertext => net.afterReceive aead json p ciphertext

end Net

/-- A fresh session: the sending direction of `p` under `keys p` at counter `counters p`,
the receiving one mirroring the peer's. -/
def freshSession {K : Type} (keys : Party → K) (counters : Party → Nat) (p : Party) :
    Session K where
  send := ⟨some (keys p), counters p, []⟩
  receive := ⟨some (keys p.other), counters p.other, []⟩
  reassembler := .fresh
  poison := none

/-- **Ideal AEAD**: a ciphertext opens under a direction's key and a nonce only if the
network got it from that direction's sender, who made it under that very nonce. -/
def Unforged {K : Type} (aead : Aead K) (keys : Party → K) (net : Net K)
    (ciphertext : Bytes) : Prop :=
  ∀ p nonce plaintext, aead.decrypt (keys p) nonce [] ciphertext = some plaintext →
    ⟨nonce, plaintext, ciphertext⟩ ∈ net.sent p

/-- Two mirrored sessions over a network that may deliver any byte string to either
side at any time, as often as it likes, forgeries excepted. -/
def network {K J : Type} (aead : Aead K) (json : JsonText J) (keys : Party → K)
    (counters : Party → Nat) : System (Net K) (Party × Action J) where
  init net := net = ⟨freshSession keys counters, fun _ => [], fun _ => []⟩
  step net label net' :=
    (∀ ciphertext, label.2 = .deliver ciphertext → Unforged aead keys net ciphertext) ∧
      net' = net.next aead json label.1 label.2

end Dormouse.Noise
