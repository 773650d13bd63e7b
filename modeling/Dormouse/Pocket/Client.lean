import Dormouse.Relay.Hub

/-!
# Dormouse.Pocket.Client

The **Pocket client** (`lib/src/remote/client/pocket-client.ts`) as far as its promises go:
the two ceremonies, remote-api requests, keepalives and the relay socket, with everything
that settles or forgets a promise.

A call runs from one `await` to the next as one step, and what it waited for answers it in
the act: a socket that opens or not, a store, the crypto, the Relay. The records a ceremony
reads and writes change nothing here. A socket delivers nothing while a call runs; what a
callback does on being called is an act of its own that follows.
-/

namespace Dormouse.Pocket

open Security (defaultChallengeTtlMs)
open Terminal (Ms)
open Burrow (E2eKind E2eBurrowStep defaultPairingTtlMs establishedE2eIdleTimeoutMs)
open Relay (RelayToClientFrame E2eRelayToClientFrame)

/-! ### State -/

/-- How a promise settles; a request's result is the relay's JSON. -/
inductive Settlement
  | ciphertext (ct : JsString)
  | result (result : Option Json)
  | rejected (error : JsString)

/-- `${kind}:${id}:${step}`. -/
structure WaiterKey where
  kind : E2eKind
  id : JsString
  step : E2eBurrowStep
  deriving DecidableEq

/-- One awaited ceremony frame; promises are numbered as they are made. -/
structure CiphertextWaiter where
  promise : Nat
  deadline : Ms

/-- An authorized session; `session` is the identity of its cipher states. -/
structure EstablishedSession where
  connectionId : JsString
  session : Nat
  lastSentAt : Ms

/-- What a `pair` or `connect` in flight waits for. -/
inductive CallWait
  /-- The relay socket, to open. -/
  | socket
  /-- `connect`, for the Burrow's record. -/
  | record
  /-- `connect`, for the handshake to be set up. -/
  | initiator
  /-- Message 1, to be written. -/
  | message1
  /-- The Burrow's message 2. -/
  | response (promise : Nat)
  /-- Message 2, to be read. -/
  | message2
  /-- The presence proof. -/
  | presence
  /-- The outcome, or a keepalive before it. -/
  | outcome (promise : Nat)
  /-- `connect`, for its record to be rewritten after a `pairing-required`. -/
  | dropAuthorization
  deriving DecidableEq

/-- A `pair` or `connect` in flight; `id` is its `inviteId` or `connectionId`. -/
structure Call where
  number : Nat
  kind : E2eKind
  burrowId : JsString
  id : JsString
  deadline : Ms
  wait : CallWait

structure PocketClient where
  /-- The current socket, by identity. -/
  ws : Option Nat
  nextSocket : Nat
  established : Option EstablishedSession
  connectedBurrowId : Option JsString
  waiters : InsertionMap WaiterKey CiphertextWaiter
  pending : InsertionMap JsString Nat
  calls : List Call
  nextCall : Nat
  nextPromise : Nat
  /-- The promises of all requests made. -/
  requests : List Nat
  /-- What has settled, in order. -/
  settled : List (Nat × Settlement)
  /-- How often `onBurrowGone` was called. -/
  burrowGone : Nat

def burrowSessionReapedMessage : JsString :=
  js "This phone was away too long, so the computer let the session go. Connect again to resume."

def burrowUnavailableMessage : JsString :=
  js "The computer did not answer. Check that it is awake and connected, then try again."

namespace PocketClient

def fresh : PocketClient := ⟨none, 0, none, none, .empty, .empty, [], 0, 0, [], [], 0⟩

def settle (s : PocketClient) (promise : Nat) (settlement : Settlement) : PocketClient :=
  { s with settled := s.settled ++ [(promise, settlement)] }

/-- What an `await` of a promise answers, once it has settled. -/
def settlementOf (s : PocketClient) (promise : Nat) : Option Settlement :=
  (s.settled.find? fun e => e.1 = promise).map Prod.snd

/-! ### Tearing down -/

/-- Erase every session's cipher state. -/
def disposeCeremony (s : PocketClient) : PocketClient :=
  { s with connectedBurrowId := none, established := none }

/-- Fail every awaited ceremony frame and in-flight request. -/
def rejectAll (s : PocketClient) (error : JsString) : PocketClient :=
  { s with
    settled := s.settled ++ s.waiters.values.map (fun waiter => (waiter.promise, .rejected error)) ++
      s.pending.values.map (fun promise => (promise, .rejected error))
    waiters := .empty
    pending := .empty }

def notifyGone (s : PocketClient) : PocketClient := { s with burrowGone := s.burrowGone + 1 }

/-- Reset all socket-bound state and fail pending work. -/
def teardown (s : PocketClient) (reason : JsString) (notify : Bool) : PocketClient :=
  let s := ({ s with ws := none }.disposeCeremony).rejectAll reason
  if notify then s.notifyGone else s

/-- A session the Burrow has already reaped, ended here too. -/
def reapedByBurrow (s : PocketClient) (established : EstablishedSession) (now : Ms) :
    PocketClient × Bool :=
  if now - established.lastSentAt < establishedE2eIdleTimeoutMs then (s, false)
  else ((s.disposeCeremony.rejectAll burrowSessionReapedMessage).notifyGone, true)

/-! ### Requests -/

/-- One protocol-v1 message on the established session; `sends` is whether the session and
the socket take it. -/
def sendApp (s : PocketClient) (sends : Bool) (now : Ms) : PocketClient × Except JsString Unit :=
  match s.established, s.connectedBurrowId with
  | some established, some _ =>
    match s.reapedByBurrow established now with
    | (s, true) => (s, .error burrowSessionReapedMessage)
    | (s, false) =>
      if s.ws.isNone ∨ sends = false then (s, .error (js "relay socket is not open"))
      else ({ s with established := some { established with lastSentAt := now } }, .ok ())
  | _, _ => (s, .error (js "not connected to a burrow"))

/-- Correlated request on the established session. -/
def request (s : PocketClient) (requestId : JsString) (sends : Bool) (now : Ms) : PocketClient :=
  let promise := s.nextPromise
  let s := { s with
    nextPromise := promise + 1
    requests := s.requests ++ [promise]
    pending := s.pending.set requestId promise }
  match s.sendApp sends now with
  | (s, .ok ()) => s
  | (s, .error error) =>
    match s.pending.get requestId with
    | some pending =>
      { s.settle pending (.rejected error) with pending := s.pending.delete requestId }
    | none => s

def sendKeepalive (s : PocketClient) (sends : Bool) (now : Ms) : PocketClient :=
  match s.established, s.connectedBurrowId with
  | some established, some _ =>
    match s.reapedByBurrow established now with
    | (s, true) => s
    | (s, false) =>
      if s.ws.isNone ∨ sends = false then s
      else { s with established := some { established with lastSentAt := now } }
  | _, _ => s

def close (s : PocketClient) : PocketClient := s.teardown (js "relay socket closed") false

/-! ### Awaited frames -/

/-- Await one ciphertext for `key`; it throws if one is awaited already. -/
def expect (s : PocketClient) (key : WaiterKey) (deadline : Ms) : Option (PocketClient × Nat) :=
  if s.waiters.has key then none
  else
    some ({ s with
      nextPromise := s.nextPromise + 1
      waiters := s.waiters.set key ⟨s.nextPromise, deadline⟩ }, s.nextPromise)

/-- Reclaim a waiter whose frame never left. -/
def reclaim (s : PocketClient) (key : WaiterKey) (error : JsString) : PocketClient :=
  match s.waiters.get key with
  | some waiter =>
    { s.settle waiter.promise (.rejected error) with waiters := s.waiters.delete key }
  | none => s

/-- The deadline of an awaited frame. -/
def expire (s : PocketClient) (key : WaiterKey) (now : Ms) : PocketClient :=
  match s.waiters.get key with
  | some waiter =>
    if waiter.deadline ≤ now then
      { s.settle waiter.promise (.rejected burrowUnavailableMessage) with
        waiters := s.waiters.delete key }
    else s
  | none => s

end PocketClient

/-! ### Frames -/

/-- One protocol-v1 message as it decodes; `other` is an event, or nothing the client reads. -/
inductive AppMessage
  | response (requestId : JsString) (ok : Bool) (result : Option Json) (error : Option JsString)
  | other

/-- What `session.receive` makes of a transport frame on an authorized session. -/
inductive TransportReceipt
  | keepalive
  | control
  | app (messages : List AppMessage)

namespace PocketClient

def onMsg (s : PocketClient) : AppMessage → PocketClient
  | .response requestId ok result error =>
    match s.pending.get requestId with
    | none => s
    | some pending =>
      { s.settle pending (if ok then .result result
          else .rejected (error.getD (js "request failed"))) with
        pending := s.pending.delete requestId }
  | .other => s

/-- One transport frame on an authorized session; any failure to read it ends it. -/
def onEstablishedFrame (s : PocketClient) : Option TransportReceipt → PocketClient
  | none => s.teardown (js "the end-to-end session failed") true
  | some (.app messages) => messages.foldl onMsg s
  | some _ => s

def onE2e (s : PocketClient) (frame : E2eRelayToClientFrame) (receipt : Option TransportReceipt) :
    PocketClient :=
  if frame.kind = .connection ∧ (s.established.any fun e => frame.id = e.connectionId) ∧
      frame.step = .transport then
    s.onEstablishedFrame receipt
  else
    let key : WaiterKey := ⟨frame.kind, frame.id, frame.step⟩
    match s.waiters.get key with
    | none => s
    | some waiter =>
      { s.settle waiter.promise (.ciphertext frame.ct) with waiters := s.waiters.delete key }

def onFrame (s : PocketClient) (frame : RelayToClientFrame) (receipt : Option TransportReceipt) :
    PocketClient :=
  match frame with
  | .e2e frame => s.onE2e frame receipt
  | .burrowGone => (s.disposeCeremony.rejectAll (js "burrow disconnected")).notifyGone
  | .error _ => s.rejectAll burrowUnavailableMessage

/-- A message on a socket; only the current one counts. -/
def onMessage (s : PocketClient) (ws : Nat) (frame : RelayToClientFrame)
    (receipt : Option TransportReceipt) : PocketClient :=
  if s.ws = some ws then s.onFrame frame receipt else s

def onClose (s : PocketClient) (ws : Nat) : PocketClient :=
  if s.ws = some ws then s.teardown (js "relay socket closed") s.connectedBurrowId.isSome else s

/-! ### Ceremonies -/

/-- The call at `i` goes on to wait for something else. -/
def suspend (s : PocketClient) (i : Nat) (call : Call) : PocketClient :=
  { s with calls := s.calls.set i call }

/-- The call at `i` returns or throws. -/
def finish (s : PocketClient) (i : Nat) : PocketClient := { s with calls := s.calls.eraseIdx i }

/-- A ceremony that failed before an outcome. -/
def unavailable (s : PocketClient) (i : Nat) : PocketClient := s.disposeCeremony.finish i

/-- `pair` or `connect`, up to `#ensureSocket`; `opens` is whether a socket can be made. -/
def start (s : PocketClient) (kind : E2eKind) (burrowId inviteId : JsString) (opens : Bool) :
    PocketClient :=
  let call : Call := ⟨s.nextCall, kind, burrowId, inviteId, 0, .socket⟩
  if s.ws.isSome then { s with nextCall := s.nextCall + 1, calls := s.calls ++ [call] }
  else if opens then
    { s with
      nextCall := s.nextCall + 1
      ws := some s.nextSocket
      nextSocket := s.nextSocket + 1
      calls := s.calls ++ [call] }
  else s

/-- `#ensureSocket` has answered. -/
def socketReady (s : PocketClient) (i : Nat) (opened : Bool) (now : Ms) : PocketClient :=
  match s.calls[i]? with
  | some call =>
    if call.wait = .socket then
      if opened then
        match call.kind with
        | .pairing =>
          s.suspend i { call with deadline := now + defaultPairingTtlMs, wait := .message1 }
        | .connection => s.suspend i { call with wait := .record }
      else s.finish i
    else s
  | none => s

/-- `connect` has read the Burrow's record; `connectionId` is random. -/
def recordRead (s : PocketClient) (i : Nat) (paired : Bool) (connectionId : JsString) (now : Ms) :
    PocketClient :=
  match s.calls[i]? with
  | some call =>
    if call.wait = .record then
      if paired then
        s.suspend i { call with
          id := connectionId, deadline := now + defaultChallengeTtlMs, wait := .initiator }
      else s.finish i
    else s
  | none => s

def initiatorReady (s : PocketClient) (i : Nat) (ok : Bool) : PocketClient :=
  match s.calls[i]? with
  | some call =>
    if call.wait = .initiator then
      if ok then s.suspend i { call with wait := .message1 } else s.finish i
    else s
  | none => s

/-- Send a frame and await the Burrow's answer to it: `#exchange`, and `#exchangeControl` up
to its first `await`. The waiter is registered before the send. -/
def exchange (s : PocketClient) (i : Nat) (call : Call) (step : E2eBurrowStep) (sends : Bool) :
    PocketClient :=
  let key : WaiterKey := ⟨call.kind, call.id, step⟩
  match s.expect key call.deadline with
  | none => s.unavailable i
  | some (s, promise) =>
    if s.ws.isNone ∨ sends = false then
      (s.reclaim key (js "relay socket is not open")).unavailable i
    else
      s.suspend i { call with
        wait := match step with | .response => .response promise | .transport => .outcome promise }

/-- Message 1 is written; only `connect` has this inside its `try`. -/
def message1Written (s : PocketClient) (i : Nat) (ok sends : Bool) : PocketClient :=
  match s.calls[i]? with
  | some call =>
    if call.wait = .message1 then
      if ok then s.exchange i call .response sends
      else if call.kind = .connection then s.unavailable i
      else s.finish i
    else s
  | none => s

/-- The Burrow's message 2 has come, or will not. -/
def responseAwaited (s : PocketClient) (i : Nat) : PocketClient :=
  match s.calls[i]? with
  | some call =>
    match call.wait with
    | .response promise =>
      match s.settlementOf promise with
      | none => s
      | some (.ciphertext _) => s.suspend i { call with wait := .message2 }
      | some _ => s.unavailable i
    | _ => s
  | none => s

def message2Read (s : PocketClient) (i : Nat) (ok : Bool) : PocketClient :=
  match s.calls[i]? with
  | some call =>
    if call.wait = .message2 then
      if ok then s.suspend i { call with wait := .presence } else s.unavailable i
    else s
  | none => s

def presenceProved (s : PocketClient) (i : Nat) (ok sends : Bool) : PocketClient :=
  match s.calls[i]? with
  | some call =>
    if call.wait = .presence then
      if ok then s.exchange i call .transport sends else s.finish i
    else s
  | none => s

end PocketClient

/-- What the Burrow's outcome says to a ceremony. -/
inductive CeremonyOutcome
  | malformed
  | ok
  | denied (pairingRequired : Bool)

/-- What `session.receive` makes of the frame a ceremony awaited. -/
inductive CeremonyReceipt
  | control (outcome : CeremonyOutcome)
  | keepalive
  | app

namespace PocketClient

/-- The ceremony has its outcome; what `pair` still does is about its record only. -/
def ceremonyOutcome (s : PocketClient) (i : Nat) (call : Call) (outcome : CeremonyOutcome)
    (now : Ms) : PocketClient :=
  match call.kind, outcome with
  | .connection, .ok =>
    { s with
      established := some ⟨call.id, call.number, now⟩
      connectedBurrowId := some call.burrowId }.finish i
  | .connection, .denied true => s.suspend i { call with wait := .dropAuthorization }
  | _, _ => s.finish i

/-- The loop of `#exchangeControl`: a frame has come, or will not. -/
def outcomeAwaited (s : PocketClient) (i : Nat) (receipt : Option CeremonyReceipt) (now : Ms) :
    PocketClient :=
  match s.calls[i]? with
  | some call =>
    match call.wait with
    | .outcome promise =>
      match s.settlementOf promise with
      | none => s
      | some (.ciphertext _) =>
        match receipt with
        | some (.control outcome) => s.ceremonyOutcome i call outcome now
        | some .keepalive =>
          match s.expect ⟨call.kind, call.id, .transport⟩ call.deadline with
          | none => s.unavailable i
          | some (s, promise) => s.suspend i { call with wait := .outcome promise }
        | _ => s.unavailable i
      | some _ => s.unavailable i
    | _ => s
  | none => s

/-- `#dropAuthorization` is through, whatever became of its writes. -/
def authorizationDropped (s : PocketClient) (i : Nat) : PocketClient :=
  match s.calls[i]? with
  | some call =>
    if call.wait = .dropAuthorization then s.disposeCeremony.finish i else s
  | none => s

end PocketClient

/-! ### Runs -/

/-- Anything that can happen to a client; `i` is a place among its calls in flight. -/
inductive PocketAct
  | pair (burrowId inviteId : JsString) (opens : Bool)
  | connect (burrowId : JsString) (opens : Bool)
  | request (requestId : JsString) (sends : Bool) (now : Ms)
  | keepalive (sends : Bool) (now : Ms)
  | close
  | message (ws : Nat) (frame : RelayToClientFrame) (receipt : Option TransportReceipt)
  /-- The rest of a frame's messages, after a subscriber has called back. -/
  | appMessage (message : AppMessage)
  | closed (ws : Nat)
  | expire (key : WaiterKey) (now : Ms)
  | socketReady (i : Nat) (opened : Bool) (now : Ms)
  | recordRead (i : Nat) (paired : Bool) (connectionId : JsString) (now : Ms)
  | initiatorReady (i : Nat) (ok : Bool)
  | message1Written (i : Nat) (ok sends : Bool)
  | responseAwaited (i : Nat)
  | message2Read (i : Nat) (ok : Bool)
  | presenceProved (i : Nat) (ok sends : Bool)
  | outcomeAwaited (i : Nat) (receipt : Option CeremonyReceipt) (now : Ms)
  | authorizationDropped (i : Nat)

namespace PocketClient

def perform (s : PocketClient) : PocketAct → PocketClient
  | .pair burrowId inviteId opens => s.start .pairing burrowId inviteId opens
  | .connect burrowId opens => s.start .connection burrowId [] opens
  | .request requestId sends now => s.request requestId sends now
  | .keepalive sends now => s.sendKeepalive sends now
  | .close => s.close
  | .message ws frame receipt => s.onMessage ws frame receipt
  | .appMessage message => s.onMsg message
  | .closed ws => s.onClose ws
  | .expire key now => s.expire key now
  | .socketReady i opened now => s.socketReady i opened now
  | .recordRead i paired connectionId now => s.recordRead i paired connectionId now
  | .initiatorReady i ok => s.initiatorReady i ok
  | .message1Written i ok sends => s.message1Written i ok sends
  | .responseAwaited i => s.responseAwaited i
  | .message2Read i ok => s.message2Read i ok
  | .presenceProved i ok sends => s.presenceProved i ok sends
  | .outcomeAwaited i receipt now => s.outcomeAwaited i receipt now
  | .authorizationDropped i => s.authorizationDropped i

/-- All runs of one client. -/
def pocketRuns : System PocketClient PocketAct where
  init s := s = fresh
  step s act s' := s' = s.perform act

end PocketClient

end Dormouse.Pocket
