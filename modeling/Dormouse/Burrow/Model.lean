import Dormouse.Lib.Transition
import Dormouse.Security.Acl
import Dormouse.Security.Challenge
import Dormouse.Burrow.Invitation

/-!
# Dormouse.Burrow.Model

The **Burrow runtime** (`burrow-runtime.ts`): its state, and how what it holds is taken
down again: outcomes sent, invitations retired, deadlines reaped, sockets lost.

A synchronous stretch of the source, from one `await` to the next, is one function of
the state; `now` is what the clock reads during it. Callbacks into the host are
recorded in `outputs`; they neither throw nor call back. Two histories nothing reads
stand beside the state: `outputs`, and the `history` of every pairing ceremony.
-/

namespace Dormouse.Burrow

open Noise (Bytes Session NoiseKeyPair NoiseHandshake)
open Security
open Terminal (Ms)

abbrev ClientId := JsString

/-! ### Data -/

inductive InvitationState
  | live
  | reserved
  | consumed
  | expired
  | dropped
  deriving DecidableEq

/-- How one pairing ceremony ended, for the person standing at this machine. -/
inductive PairingOutcome
  | paired
  | codeMismatch
  | cancelled
  | expired
  | superseded
  | burrowError
  deriving DecidableEq

/-- `PAIRING_OUTCOME_FOR_DENIAL`. -/
def pairingOutcomeForDenial : PairingDenialCode → PairingOutcome
  | .userDenied => .cancelled
  | .confirmationMismatch => .codeMismatch
  | .presenceRejected => .burrowError
  | .invitationExpired => .expired
  | .superseded => .superseded
  | .burrowError => .burrowError

inductive HeldState
  | live
  | reserved
  deriving DecidableEq

/-- One invitation the Burrow is holding, with the key only it knows. `uid` is the
object's identity. -/
structure HeldInvitation (Key : Type) where
  uid : Nat
  invitation : PairingInvitation
  keyPair : NoiseKeyPair Key
  expiresAt : Ms
  state : HeldState

/-- What a verified pairing request leaves for the person at the Burrow. -/
structure Approval where
  code : JsString
  accountId : JsString
  passkeyCredentialId : JsString
  passkeyPublicKeyHash : JsString
  label : JsString

/-- A pairing that has completed Noise. `uid` is the object's identity, under which
`sessions` holds its transport session; `inviteUid` is that of the invitation it
reserved. -/
structure PendingPairingSession where
  uid : Nat
  inviteUid : Nat
  inviteId : JsString
  pairingId : JsString
  handshakeHash : JsString
  clientStaticPublicKey : JsString
  requestedAt : Ms
  expiresAt : Ms
  committing : Bool
  approval : Option Approval
  attempted : Bool

/-- A connection that has completed Noise and is awaiting its presence proof. -/
structure PendingConnectionSession where
  uid : Nat
  connectionId : JsString
  handshakeHash : JsString
  clientStaticPublicKey : JsString
  burrowChallenge : JsString
  expiresAt : Ms

/-- An authorized session; it took over its connection's identity and transport. -/
structure EstablishedSession where
  uid : Nat
  connectionId : JsString
  clientStaticPublicKey : JsString
  lastClientActivityAt : Ms

/-- Per-client lifecycle state. -/
structure ClientState where
  pairing : Option PendingPairingSession
  connection : Option PendingConnectionSession
  established : Option EstablishedSession

def ClientState.fresh : ClientState := ⟨none, none, none⟩

inductive BurrowStatus
  | idle
  | connecting
  | connected
  | disconnected
  | displaced
  | stopped
  deriving DecidableEq

inductive E2eKind
  | pairing
  | connection
  deriving DecidableEq

inductive E2eClientStep
  | init
  | transport
  deriving DecidableEq

inductive E2eBurrowStep
  | response
  | transport
  deriving DecidableEq

/-- A Client's envelope as the relay hands it on. -/
structure E2eRelayToBurrowFrame where
  clientId : ClientId
  burrowId : JsString
  kind : E2eKind
  id : JsString
  step : E2eClientStep
  ct : JsString
  deriving DecidableEq

inductive RelayToBurrowFrame
  | clientGone (clientId : ClientId)
  | e2e (frame : E2eRelayToBurrowFrame)
  deriving DecidableEq

/-- A Burrow's own envelope. -/
structure E2eBurrowFrame where
  clientId : ClientId
  kind : E2eKind
  id : JsString
  step : E2eBurrowStep
  ct : JsString

/-- What the Burrow has told its host and its sockets. -/
inductive Output
  | invitationChanged (inviteId : JsString) (state : InvitationState)
      (outcome : Option PairingOutcome)
  | requestApproval (clientId : ClientId) (pairingId label : JsString) (requestedAt : Ms)
  | dismissApproval (clientId : ClientId)
  | sent (socket : Nat) (frame : E2eBurrowFrame)
  | apiCreated (session : Nat)
  | apiHandled (session : Nat) (payload : Json)
  | apiDisposed (session : Nat)

/-- What a `drain` step waits for, with the epoch it began under. -/
inductive FrameTask (Key : Type)
  | pairingHandshake (frame : E2eRelayToBurrowFrame) (epoch : Nat) (held : HeldInvitation Key)
  | pairingPresence (frame : E2eRelayToBurrowFrame) (pending : PendingPairingSession)
      (request : PairingRequestV1)
  | connectionRead (frame : E2eRelayToBurrowFrame) (epoch : Nat)
  | connectionWrite (frame : E2eRelayToBurrowFrame) (epoch : Nat) (handshake : NoiseHandshake Key)
      (challenge : JsString) (expiresAt : Ms)
  | connectionPresence (frame : E2eRelayToBurrowFrame) (pending : PendingConnectionSession)
      (proof : PresenceProofV1) (challengeValid : Bool)

/-- A `mintInvitation` awaiting its keypair. -/
structure Mint where
  epoch : Nat
  setupToken : JsString
  relayExpiresAtMs : Ms

/-- An approval queued behind the saves before it. -/
structure SaveJob where
  clientId : ClientId
  pending : PendingPairingSession
  approval : Approval
  burrowStaticPublicKey : JsString

/-- The save in flight: the snapshot handed to the store, and what it added. -/
structure Saving where
  job : SaveJob
  client : ApprovedClient
  approvedAt : Ms
  next : BurrowAcl

/-- A `send` handed to a remote-api session. -/
structure Sender where
  clientId : ClientId
  connectionId : JsString
  session : Nat

/-- What happened to the pairing ceremonies, oldest first. -/
inductive Event (Key : Type)
  /-- An invitation was inserted. -/
  | minted (held : HeldInvitation Key)
  /-- Message 1 of this frame, read with this ephemeral, reserved an invitation. -/
  | reserved (frame : E2eRelayToBurrowFrame) (held : HeldInvitation Key)
      (ephemeral : Option (NoiseKeyPair Key)) (pending : PendingPairingSession)
  /-- A pairing's request was believed. -/
  | presented (pending : PendingPairingSession) (request : PairingRequestV1) (approval : Approval)
  /-- A code was typed for a pairing that was waiting for one. -/
  | attempted (pairing : Nat) (code : JsString)
  /-- A snapshot with this record at its end was handed to the store. -/
  | wrote (pending : PendingPairingSession) (approval : Approval) (client : ApprovedClient)
      (at_ : Ms)
  /-- That save succeeded, or failed. -/
  | saved (client : ApprovedClient) (at_ : Ms)
  | saveFailed (client : ApprovedClient) (at_ : Ms)

structure BurrowRuntime (Key : Type) where
  acl : BurrowAcl
  saves : List SaveJob
  saving : Option Saving
  challenges : ChallengeIssuer
  clients : InsertionMap ClientId ClientState
  invitations : InsertionMap JsString (HeldInvitation Key)
  frames : List (RelayToBurrowFrame × Nat)
  frameChars : Nat
  drainingFrames : Bool
  task : Option (FrameTask Key)
  epoch : Nat
  initTokens : TokenBucket
  reaperAt : Option Ms
  ws : Option Nat
  status : BurrowStatus
  stopped : Bool
  displaced : Bool
  backoffMs : Ms
  reconnectAfter : Option Ms
  mints : List Mint
  sessions : InsertionMap Nat (Session Bytes)
  senders : List Sender
  nextUid : Nat
  outputs : List Output
  history : List (Event Key)

/-- What a Burrow is constructed with, as far as any function here reads it. -/
structure BurrowOptions (Key : Type) where
  platform : Platform Key
  burrowId : JsString
  policy : ConnectionPolicy
  label : Option JsString
  noiseStaticPrivateKey : Option JsString
  noiseStaticPublicKey : Option JsString
  reconnect : Bool
  createSession : Bool

def maxTokensPerBurrow : Nat := 8

def maxPendingPairings : Nat := 8

def maxPendingConnectionHandshakes : Nat := 8

def maxEstablishedE2eSessions : Nat := 16

def maxQueuedRelayFrames : Nat := 128

def maxQueuedRelayFrameChars : Nat := 4 * 1024 * 1024

def defaultPairingTtlMs : Ms := 5 * 60 * 1000

def establishedE2eIdleTimeoutMs : Ms := 120000

def e2eInitBurst : Nat := 8

def e2eInitRefillIntervalMs : Nat := 1000

def initialBackoffMs : Ms := 1000

def maxBackoffMs : Ms := 30000

/-- The close code of a Burrow another one replaced. -/
def wsCloseBurrowReplaced : Nat := 4000

namespace BurrowRuntime

variable {Key : Type}

/-- A Burrow constructed at `now` over the records its store holds. -/
def construct (opts : BurrowOptions Key) (records : List BurrowAclRecord) (now : Ms) :
    BurrowRuntime Key where
  acl := .load opts.burrowId records
  saves := []
  saving := none
  challenges := .fresh
  clients := .empty
  invitations := .empty
  frames := []
  frameChars := 0
  drainingFrames := false
  task := none
  epoch := 0
  initTokens := .fresh e2eInitBurst e2eInitRefillIntervalMs now
  reaperAt := none
  ws := none
  status := .idle
  stopped := false
  displaced := false
  backoffMs := initialBackoffMs
  reconnectAfter := none
  mints := []
  sessions := .empty
  senders := []
  nextUid := 0
  outputs := []
  history := []

/-! ### Client entries -/

def pairingOf (s : BurrowRuntime Key) (clientId : ClientId) : Option PendingPairingSession :=
  (s.clients.get clientId).bind ClientState.pairing

def connectionOf (s : BurrowRuntime Key) (clientId : ClientId) :
    Option PendingConnectionSession :=
  (s.clients.get clientId).bind ClientState.connection

def establishedOf (s : BurrowRuntime Key) (clientId : ClientId) : Option EstablishedSession :=
  (s.clients.get clientId).bind ClientState.established

/-- `this.#clients.get(clientId)?.pairing === pending`. -/
def holdsPairing (s : BurrowRuntime Key) (clientId : ClientId) (pairing : Nat) : Bool :=
  (s.pairingOf clientId).any (·.uid == pairing)

def holdsConnection (s : BurrowRuntime Key) (clientId : ClientId) (connection : Nat) : Bool :=
  (s.connectionOf clientId).any (·.uid == connection)

def holdsEstablished (s : BurrowRuntime Key) (clientId : ClientId) (session : Nat) : Bool :=
  (s.establishedOf clientId).any (·.uid == session)

/-- Write to the entry of a client that has one. -/
def editClient (s : BurrowRuntime Key) (clientId : ClientId) (f : ClientState → ClientState) :
    BurrowRuntime Key :=
  match s.clients.get clientId with
  | none => s
  | some state => { s with clients := s.clients.set clientId (f state) }

/-- `#clientState(clientId)`: the entry, allocated when there is none. -/
def clientState (s : BurrowRuntime Key) (clientId : ClientId) : BurrowRuntime Key :=
  if s.clients.has clientId then s
  else { s with clients := s.clients.set clientId .fresh }

/-- Forget a client that holds nothing. -/
def pruneClient (s : BurrowRuntime Key) (clientId : ClientId) : BurrowRuntime Key :=
  match s.clients.get clientId with
  | some ⟨none, none, none⟩ => { s with clients := s.clients.delete clientId }
  | _ => s

/-! ### Sending -/

def emit (s : BurrowRuntime Key) (output : Output) : BurrowRuntime Key :=
  { s with outputs := s.outputs ++ [output] }

/-- One `e2e` envelope, on the socket of the moment. -/
def sendE2e (s : BurrowRuntime Key) (clientId : ClientId) (kind : E2eKind) (id : JsString)
    (step : E2eBurrowStep) (ciphertext : Bytes) : BurrowRuntime Key :=
  match s.ws with
  | none => s
  | some socket => s.emit (.sent socket ⟨clientId, kind, id, step, toBase64Url ciphertext⟩)

variable (opts : BurrowOptions Key)

/-- One control message on a ceremony's session; a poisoned session has nothing to say. -/
def sendControl (s : BurrowRuntime Key) (clientId : ClientId) (kind : E2eKind) (id : JsString)
    (session : Nat) (value : Json) : BurrowRuntime Key :=
  match s.sessions.get session with
  | none => s
  | some cipher =>
    let r := cipher.sendControl opts.platform.suite.aead opts.platform.json value
    let s := { s with sessions := s.sessions.set session r.1 }
    match r.2 with
    | .error _ => s
    | .ok ciphertext => s.sendE2e clientId kind id .transport ciphertext

/-! ### Disposal -/

/-- Drop an invitation and its key, announcing the state it ended in: a reserved one has
always been consumed, and `state` labels one nobody scanned. -/
def retireInvitation (s : BurrowRuntime Key) (inviteId : JsString)
    (state : Option InvitationState) (outcome : Option PairingOutcome) : BurrowRuntime Key :=
  match s.invitations.get inviteId with
  | none => s
  | some held =>
    { s with invitations := s.invitations.delete inviteId }.emit
      (.invitationChanged inviteId
        (if held.state = HeldState.reserved then .consumed else state.getD .dropped) outcome)

/-- Erase a pairing's handshake material and spend its invitation. -/
def disposePairing (s : BurrowRuntime Key) (clientId : ClientId)
    (outcome : Option PairingOutcome) : BurrowRuntime Key :=
  match s.pairingOf clientId with
  | none => s
  | some pending =>
    let s := s.editClient clientId fun state => { state with pairing := none }
    let s := s.retireInvitation pending.inviteId (some .consumed) outcome
    (s.emit (.dismissApproval clientId)).pruneClient clientId

def sendPairingOutcome (s : BurrowRuntime Key) (clientId : ClientId)
    (pending : PendingPairingSession) (outcome : PairingOutcomeV1) : BurrowRuntime Key :=
  s.sendControl opts clientId .pairing pending.inviteId pending.uid outcome.toJson

/-- Send one denial and end the pairing; one whose record is being written only loses its
pipe. -/
def finishPairing (s : BurrowRuntime Key) (clientId : ClientId) (code : PairingDenialCode) :
    BurrowRuntime Key :=
  match s.pairingOf clientId with
  | none => s
  | some pending =>
    if pending.committing then s.disposePairing clientId none
    else
      (s.sendPairingOutcome opts clientId pending (.denied code)).disposePairing clientId
        (some (pairingOutcomeForDenial code))

/-- A challenge dies with the record that named it. -/
def disposeConnection (s : BurrowRuntime Key) (clientId : ClientId) (now : Ms) :
    BurrowRuntime Key :=
  match s.connectionOf clientId with
  | none => s
  | some connection =>
    let s := { s with challenges := (s.challenges.consume connection.burrowChallenge now).1 }
    (s.editClient clientId fun state => { state with connection := none }).pruneClient clientId

def denyConnection (s : BurrowRuntime Key) (clientId : ClientId)
    (pending : PendingConnectionSession) (code : ConnectionDenialCode) (now : Ms) :
    BurrowRuntime Key :=
  (s.sendControl opts clientId .connection pending.connectionId pending.uid
    (ConnectionOutcomeV1.denied code).toJson).disposeConnection clientId now

def disposeEstablished (s : BurrowRuntime Key) (clientId : ClientId) : BurrowRuntime Key :=
  match s.establishedOf clientId with
  | none => s
  | some established =>
    let s := s.emit (.apiDisposed established.uid)
    (s.editClient clientId fun state => { state with established := none }).pruneClient clientId

/-- Everything one client holds. -/
def disposeClient (s : BurrowRuntime Key) (clientId : ClientId) (now : Ms) : BurrowRuntime Key :=
  if s.clients.has clientId then
    let s := s.disposePairing clientId none
    let s := s.disposeConnection clientId now
    let s := s.disposeEstablished clientId
    { s with clients := s.clients.delete clientId }
  else s

/-! ### The reaper -/

/-- What a deadline takes down. -/
inductive Deadline
  | pairing (clientId : ClientId)
  | connection (clientId : ClientId) (pending : PendingConnectionSession)
  | established (clientId : ClientId)
  | invitation (inviteId : JsString)

/-- Every deadline this Burrow owns; clients before invitations. -/
def deadlines (s : BurrowRuntime Key) : List (Ms × Deadline) :=
  (s.clients.entries.flatMap fun e =>
    (e.2.pairing.map fun p => (p.expiresAt, .pairing e.1)).toList ++
      (e.2.connection.map fun c => (c.expiresAt, .connection e.1 c)).toList ++
        (e.2.established.map fun x =>
          (x.lastClientActivityAt + establishedE2eIdleTimeoutMs, .established e.1)).toList) ++
    s.invitations.entries.map fun e => (e.2.expiresAt, .invitation e.1)

def expire (now : Ms) (s : BurrowRuntime Key) : Deadline → BurrowRuntime Key
  | .pairing clientId => s.finishPairing opts clientId .invitationExpired
  | .connection clientId pending =>
    -- The snapshot may be stale: answer only on the cipher the entry still holds.
    if s.holdsConnection clientId pending.uid then
      s.denyConnection opts clientId pending .presenceRejected now
    else s
  | .established clientId => s.disposeEstablished clientId
  | .invitation inviteId => s.retireInvitation inviteId (some .expired) none

variable {opts}

def clearReaper (s : BurrowRuntime Key) : BurrowRuntime Key := { s with reaperAt := none }

/-- Arm the reaper for the soonest deadline it does not already cover. -/
def armReaper (s : BurrowRuntime Key) : BurrowRuntime Key :=
  match (s.deadlines.map Prod.fst).min? with
  | none => s.clearReaper
  | some deadline =>
    match s.reaperAt with
    | some reaperAt =>
      if reaperAt ≤ deadline then s else { s with reaperAt := some deadline }
    | none => { s with reaperAt := some deadline }

variable (opts)

/-- Sweep the deadlines that have passed. -/
def reap (s : BurrowRuntime Key) (now : Ms) : BurrowRuntime Key :=
  (((s.deadlines.filter fun d => decide (d.1 ≤ now)).foldl
    (fun s d => s.expire opts now d.2) s)).armReaper

/-- The age of each client's work of one kind, oldest first by that age. -/
def pendingAges (s : BurrowRuntime Key) (age : ClientState → Option Ms) : List (ClientId × Ms) :=
  s.clients.entries.filterMap fun e => (age e.2).map fun at_ => (e.1, at_)

/-- The first of the oldest. -/
def oldest : List (ClientId × Ms) → Option (ClientId × Ms)
  | [] => none
  | e :: es =>
    match oldest es with
    | none => some e
    | some e' => if e'.2 < e.2 then some e' else some e

/-- Keep one kind of pending work under `cap` by evicting its oldest. An eviction takes
one away, so as many rounds as there are clients are enough. -/
def evictOldestIfFull (age : ClientState → Option Ms) (cap : Nat)
    (evict : BurrowRuntime Key → ClientId → BurrowRuntime Key) :
    Nat → BurrowRuntime Key → BurrowRuntime Key
  | 0, s => s
  | rounds + 1, s =>
    let ages := s.pendingAges age
    match oldest ages with
    | none => s
    | some (clientId, _) =>
      if ages.length < cap then s
      else evictOldestIfFull age cap evict rounds (evict s clientId)

def evictOldestPairingIfFull (s : BurrowRuntime Key) : BurrowRuntime Key :=
  evictOldestIfFull (fun state => state.pairing.map (·.requestedAt)) maxPendingPairings
    (fun s clientId => s.finishPairing opts clientId .superseded) s.clients.size s

def evictOldestConnectionIfFull (s : BurrowRuntime Key) (now : Ms) : BurrowRuntime Key :=
  evictOldestIfFull (fun state => state.connection.map (·.expiresAt))
    maxPendingConnectionHandshakes (fun s clientId => s.disposeConnection clientId now)
    s.clients.size s

/-! ### Socket lifecycle -/

variable {opts}

/-- Connection-scoped state resets on a dropped socket; the ACL persists. -/
def dropTransientState (s : BurrowRuntime Key) (now : Ms) : BurrowRuntime Key :=
  let s := { s with epoch := s.epoch + 1, frames := [], frameChars := 0 }
  let s := s.clients.keys.foldl (fun s clientId => s.disposeClient clientId now) s
  let s := s.invitations.keys.foldl (fun s inviteId => s.retireInvitation inviteId none none) s
  s.armReaper

def connect (s : BurrowRuntime Key) : BurrowRuntime Key :=
  if s.ws.isSome || s.stopped || s.displaced then s
  else { s with status := .connecting, ws := some s.nextUid, nextUid := s.nextUid + 1 }

def clearReconnectTimer (s : BurrowRuntime Key) : BurrowRuntime Key :=
  { s with reconnectAfter := none }

/-- Open the relay socket; also the one way back from `displaced`. -/
def start (s : BurrowRuntime Key) : BurrowRuntime Key :=
  let s := { s with stopped := false, displaced := false }
  { s.clearReconnectTimer with backoffMs := initialBackoffMs }.connect

def stop (s : BurrowRuntime Key) (now : Ms) : BurrowRuntime Key :=
  let s := { s with stopped := true, status := .stopped }
  { (s.clearReconnectTimer.dropTransientState now).clearReaper with ws := none }

variable (opts)

def onClose (s : BurrowRuntime Key) (code : Option Nat) (now : Ms) : BurrowRuntime Key :=
  let s := s.dropTransientState now
  if s.stopped then { s with status := .stopped }
  else if code = some wsCloseBurrowReplaced then { s with displaced := true, status := .displaced }
  else if !opts.reconnect then { s with status := .stopped }
  else
    { s with
      status := .disconnected
      backoffMs := min (s.backoffMs * 2) maxBackoffMs
      reconnectAfter := some s.backoffMs }

/-- The socket's `open` event. -/
def onOpen (s : BurrowRuntime Key) (socket : Nat) (now : Ms) : BurrowRuntime Key :=
  if s.ws = some socket then
    { s with status := .connected, backoffMs := initialBackoffMs }.reap opts now
  else s

/-- The socket's `close` event: only the socket we own drives the lifecycle. -/
def onSocketClose (s : BurrowRuntime Key) (socket : Nat) (code : Option Nat) (now : Ms) :
    BurrowRuntime Key :=
  if s.ws = some socket then { s with ws := none }.onClose opts code now else s

variable {opts}

/-- The reconnect timer fires, when it is armed. -/
def onReconnectTimer (s : BurrowRuntime Key) : BurrowRuntime Key :=
  if s.reconnectAfter.isSome then s.clearReconnectTimer.connect else s

variable (opts)

/-- The reaper's own timer fires, when it is armed. -/
def onReaperTimer (s : BurrowRuntime Key) (now : Ms) : BurrowRuntime Key :=
  if s.reaperAt.isSome then s.clearReaper.reap opts now else s

end BurrowRuntime

end Dormouse.Burrow
