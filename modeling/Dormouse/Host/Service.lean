import Dormouse.Burrow.InvitationLink
import Dormouse.Burrow.Model
import Dormouse.Lib.InsertionMap
import Dormouse.Lib.Transition

/-!
# Dormouse.Host.Service

The **Burrow service** (`lib/src/host/remote/service.ts`): the commands of the webview, the
enrollment they save and clear, and the one Burrow that runs under it.

A step is one promise continuation, from one `await` to the next. What the service awaits
from outside (its store, the offer file, the exchange with the Relay, a key operation)
settles when its environment says so; the promises that only pass an answer from one of its
functions to the next are one continuation together. Continuations run in any order; the
work on the lifecycle chain is taken one at a time and in order.
-/

namespace Dormouse.Host

open Burrow (BurrowStatus PairingInvitation formatPairingInvitationUrl formatInvitationExpiry
  pairingHashPrefix pairingFragment pairingQrUrlMaxLength defaultPairingTtlMs maxPendingPairings)
open Noise (Bytes)
open Security (BurrowAcl BurrowAclRecord ApprovedClient)
open Terminal (Ms)

/-! ### Data -/

structure BurrowEnrollment where
  relayUrl : JsString
  burrowId : JsString
  burrowToken : JsString
  origin : JsString
  rpId : JsString
  label : Option JsString
  requireUserVerification : Option Bool
  noiseStaticPrivateKey : Option JsString
  noiseStaticPublicKey : Option JsString

/-- The installer's offer on this machine. -/
structure EnrollmentOffer where
  origin : JsString
  token : JsString

inductive BurrowEnrollCredential
  | password (password : JsString)
  | enrollToken (token : JsString)

structure BurrowEnrollResponse where
  burrowId : JsString
  burrowToken : JsString
  origin : JsString
  rpId : JsString
  requireUserVerification : Option Bool

structure NoiseStaticMaterial where
  publicKey : JsString
  privateKeyPkcs8 : JsString

structure EnrollParams where
  relayUrl : JsString
  password : JsString
  label : JsString

structure EnrollOfferParams where
  origin : JsString
  label : JsString

structure ApproveParams where
  clientId : JsString
  pairingId : JsString
  code : JsString

structure DenyParams where
  clientId : JsString
  pairingId : JsString

inductive Command
  | enroll (params : EnrollParams)
  | enrollOffer (params : EnrollOfferParams)
  | status
  | reconnect
  | clearEnrollment
  | setupQr
  | approve (params : ApproveParams)
  | deny (params : DenyParams)
  | pairingQueue
  | unknown (cmd : JsString)

structure BurrowConsoleStatus where
  enrolled : Bool
  relayUrl : Option JsString
  burrowId : Option JsString
  connection : BurrowStatus
  pairedClients : Nat
  suggestedLabel : JsString
  /-- The origin of the offer; its token never gets here. -/
  offer : Option JsString

structure SetupQrResult where
  url : JsString
  inviteId : JsString
  expiresAt : Int

structure PairingQueueItem where
  clientId : JsString
  pairingId : JsString
  label : JsString
  requestedAt : Ms

inductive Reply
  | done
  | enrolled (burrowId relayUrl : JsString)
  | status (status : BurrowConsoleStatus)
  | setupQr (result : SetupQrResult)
  | queue (items : List PairingQueueItem)

/-- What `sendToUi` is handed. -/
inductive Message
  | status (enrolled : Bool)
  | queue (items : List PairingQueueItem)
  | result (burrowRequestId : JsString) (result : Except JsString Reply)

/-- A pairing whose request the runtime has believed. -/
structure RuntimePairing where
  pairingId : JsString
  code : JsString
  client : ApprovedClient
  expiresAt : Ms
  attempted : Bool
  committing : Bool

/-- What the service sees of a `BurrowRuntime`; `uid` is the object's identity. -/
structure ServedRuntime where
  uid : Nat
  enrollment : BurrowEnrollment
  acl : BurrowAcl
  status : BurrowStatus
  epoch : Nat
  pairings : InsertionMap JsString RuntimePairing

/-- The service's projection of a pending pairing. -/
structure PendingPairing where
  pairingId : JsString
  label : JsString
  requestedAt : Ms

/-- What the store has on disk. -/
structure Store where
  enrollment : Option BurrowEnrollment
  acl : InsertionMap JsString (List BurrowAclRecord)

namespace Store

/-- `loadAcl`: a foreign row is dropped. -/
def loadAcl (store : Store) (burrowId : JsString) : List BurrowAclRecord :=
  ((store.acl.get burrowId).getD []).filter (·.burrowId = burrowId)

def saveAcl (store : Store) (burrowId : JsString) (records : List BurrowAclRecord) : Store :=
  { store with acl := store.acl.set burrowId records }

end Store

/-! ### Suspended work -/

/-- Work that queues for the lifecycle chain. -/
inductive Work
  | start
  | enroll (params : EnrollParams)
  | enrollOffer (params : EnrollOfferParams)
  | reconnect
  | clearEnrollment
  | approve (params : ApproveParams)

/-- What the promise of some work is for. -/
inductive Requester
  /-- `start()`, whose caller is told nothing. -/
  | start
  | command (burrowRequestId : JsString)
  /-- `#reconnect`, which goes on with a status. -/
  | reconnect (burrowRequestId : JsString)

/-- What the work at the head of the chain awaits. -/
inductive Awaited
  | loadEnrollment
  | readOffer (params : EnrollOfferParams)
  | performEnrollment (relayUrl : JsString) (credential : BurrowEnrollCredential) (label : JsString)
  | saveEnrollment (enrollment : BurrowEnrollment)
  | deriveNoiseStatic (enrollment : BurrowEnrollment)
  | mintNoiseStatic (enrollment : BurrowEnrollment)
  | saveBackfilled (enrollment : BurrowEnrollment)
  | loadAcl (enrollment : BurrowEnrollment)
  | clearEnrollment
  | saveAcl (uid : Nat) (clientId pairingId : JsString) (next : BurrowAcl)
      (record : BurrowAclRecord)

/-- A continuation of that work that is queued, with what its promise settled with. -/
inductive Resumption
  | begin (work : Work)
  | loadedEnrollment (result : Except JsString (Option BurrowEnrollment))
  | offerRead (params : EnrollOfferParams) (offer : Option EnrollmentOffer)
  | exchanged (relayUrl label : JsString)
      (result : Except JsString (BurrowEnrollResponse × NoiseStaticMaterial))
  | savedEnrollment (enrollment : BurrowEnrollment) (result : Except JsString Unit)
  | derived (enrollment : BurrowEnrollment) (publicKey : Except JsString JsString)
  | minted (enrollment : BurrowEnrollment) (material : Except JsString NoiseStaticMaterial)
  | savedBackfilled (enrollment : BurrowEnrollment) (result : Except JsString Unit)
  /-- `#enrolledWithNoiseStatic` has answered. -/
  | verified (enrollment : Option BurrowEnrollment)
  | loadedAcl (enrollment : BurrowEnrollment) (records : Except JsString (List BurrowAclRecord))
  | clearedEnrollment (result : Except JsString Unit)
  /-- The runtime's own queue of saves has come to this one. -/
  | approving (clientId pairingId : JsString)
  | savedAcl (uid : Nat) (clientId pairingId : JsString) (next : BurrowAcl)
      (record : BurrowAclRecord) (result : Except JsString Unit)

inductive JobStage
  | waits (awaited : Awaited)
  | goesOn (resumption : Resumption)

/-- The work that has the lifecycle chain. `found` is what was there when its turn came,
which nothing reads. -/
structure Job where
  requester : Requester
  reply : Reply
  stage : JobStage
  found : Option Nat × Option BurrowEnrollment

/-- A command off the chain, or one whose work on the chain is over. -/
inductive CallStage
  | reconnected
  | readsOffer
  | offerRead (offer : Option EnrollmentOffer)
  | fetchesSetupToken (uid : Nat) (enrollment : BurrowEnrollment)
  | fetchedSetupToken (uid : Nat) (enrollment : BurrowEnrollment)
      (result : Except JsString (Option (JsString × Ms)))
  | generatesKeyPair (uid epoch : Nat) (enrollment : BurrowEnrollment) (setupToken : JsString)
      (relayExpiresAtMs : Ms)
  | generatedKeyPair (uid epoch : Nat) (enrollment : BurrowEnrollment) (setupToken : JsString)
      (relayExpiresAtMs : Ms) (result : Except JsString (Bytes × JsString))
  /-- The answer is on its way to `sendToUi`. -/
  | answers (result : Except JsString Reply)

structure Call where
  burrowRequestId : JsString
  stage : CallStage

/-- What happened, oldest first. -/
inductive Event
  /-- The store has this enrollment on disk. -/
  | saved (enrollment : BurrowEnrollment)
  /-- This approval is through, and its record as it was written is in the store. -/
  | approved (record : BurrowAclRecord)
  /-- A runtime is started over the records that were loaded for it. -/
  | started (uid : Nat) (enrollment : BurrowEnrollment) (records : List BurrowAclRecord)
  | stopped (uid : Nat)
  /-- A runtime minted an invitation. -/
  | minted (uid : Nat) (invitation : PairingInvitation)
  | disposed

/-- A message, with whether there was an enrollment when it was sent. -/
structure Sent where
  message : Message
  enrolled : Bool

/-- The service. `history`, and the state beside each message, are read by nothing. -/
structure BurrowService where
  store : Store
  disposed : Bool
  burrow : Option ServedRuntime
  enrollment : Option BurrowEnrollment
  pairings : InsertionMap JsString PendingPairing
  active : Option Job
  chain : List (Requester × Work)
  calls : InsertionMap Nat Call
  nextUid : Nat
  sent : List Sent
  history : List Event

/-- What the service is configured with, as far as any function here reads it. -/
structure BurrowServiceOptions where
  /-- `#allowed`: the sources this build may connect to. -/
  allowed : JsString → Bool
  connectSrc : JsString
  suggestedLabel : JsString

/-! ### The runtime -/

/-- `encodeURIComponent` throws on a lone surrogate. -/
def isWellFormed (s : JsString) : Bool :=
  (JsString.codePoints s).all fun point =>
    point.length = 2 || point.all fun c => !(JsString.isHighSurrogate c || JsString.isLowSurrogate c)

namespace ServedRuntime

def construct (uid : Nat) (enrollment : BurrowEnrollment) (records : List BurrowAclRecord) :
    ServedRuntime where
  uid := uid
  enrollment := enrollment
  acl := .load enrollment.burrowId records
  status := .idle
  epoch := 0
  pairings := .empty

/-- `start`, up to the socket whose URL carries the token. -/
def start (b : ServedRuntime) : ServedRuntime :=
  if b.status = .connected then b else { b with status := .connecting }

def activeRecords (b : ServedRuntime) : List BurrowAclRecord :=
  b.acl.records.filter (·.revokedAt.isNone)

end ServedRuntime

namespace BurrowService

variable (opts : BurrowServiceOptions)

def fresh (store : Store) : BurrowService where
  store := store
  disposed := false
  burrow := none
  enrollment := none
  pairings := .empty
  active := none
  chain := []
  calls := .empty
  nextUid := 0
  sent := []
  history := store.enrollment.toList.map .saved ++
    (store.acl.keys.flatMap store.loadAcl).map (.approved ·.asWritten)

/-! ### What the webview is sent -/

def sendToUi (s : BurrowService) (message : Message) : BurrowService :=
  if s.disposed then s else { s with sent := s.sent ++ [⟨message, s.enrollment.isSome⟩] }

def emitStatus (s : BurrowService) : BurrowService := s.sendToUi (.status s.enrollment.isSome)

def queueSnapshot (s : BurrowService) : List PairingQueueItem :=
  s.pairings.entries.map fun (clientId, p) => ⟨clientId, p.pairingId, p.label, p.requestedAt⟩

def emitQueue (s : BurrowService) : BurrowService := s.sendToUi (.queue s.queueSnapshot)

/-! ### The pairing queue -/

def resolvePairing (s : BurrowService) (clientId : JsString) : BurrowService :=
  if s.pairings.has clientId then { s with pairings := s.pairings.delete clientId }.emitQueue else s

/-- The oldest go while the queue is full. -/
def evictPairings : Nat → InsertionMap JsString PendingPairing → InsertionMap JsString PendingPairing
  | 0, pairings => pairings
  | rounds + 1, pairings =>
    if pairings.size < maxPendingPairings then pairings
    else
      match pairings.keys.head? with
      | none => pairings
      | some oldest => evictPairings rounds (pairings.delete oldest)

def enqueuePairing (s : BurrowService) (clientId : JsString) (pending : PendingPairing) :
    BurrowService :=
  { s with
    pairings := (evictPairings s.pairings.size s.pairings).set clientId pending }.emitQueue

/-- Write to the runtime that is current. -/
def editBurrow (s : BurrowService) (f : ServedRuntime → ServedRuntime) : BurrowService :=
  { s with burrow := s.burrow.map f }

def setPairing (s : BurrowService) (clientId : JsString) (pairing : RuntimePairing) :
    BurrowService :=
  s.editBurrow fun b => { b with pairings := b.pairings.set clientId pairing }

/-- `#disposePairing` of the runtime; its invitation and its session are not the service's. -/
def disposePairing (s : BurrowService) (clientId : JsString) : BurrowService :=
  if s.burrow.any (·.pairings.has clientId) then
    (s.editBurrow fun b => { b with pairings := b.pairings.delete clientId }).resolvePairing clientId
  else s

/-- `#dropTransientState` of the runtime, as far as the service sees it. -/
def dropTransientState (s : BurrowService) : BurrowService :=
  match s.burrow with
  | none => s
  | some b =>
    b.pairings.keys.foldl disposePairing (s.editBurrow fun b => { b with epoch := b.epoch + 1 })

def stopBurrow (s : BurrowService) : BurrowService :=
  let s :=
    match s.burrow with
    | none => s
    | some b =>
      { s.dropTransientState with burrow := none, history := s.history ++ [.stopped b.uid] }
  if s.pairings.size > 0 then { s with pairings := .empty }.emitQueue else s

/-! ### The lifecycle chain -/

def call (s : BurrowService) (burrowRequestId : JsString) (stage : CallStage) : BurrowService :=
  { s with
    calls := s.calls.set s.nextUid ⟨burrowRequestId, stage⟩
    nextUid := s.nextUid + 1 }

def serialize (s : BurrowService) (requester : Requester) (work : Work) : BurrowService :=
  { s with chain := s.chain ++ [(requester, work)] }

/-- The work on the chain is over, and its promise settles. -/
def conclude (s : BurrowService) (job : Job) (result : Except JsString Reply) : BurrowService :=
  let s := { s with active := none }
  match job.requester, result with
  | .start, _ => s
  | .command request, result => s.call request (.answers result)
  | .reconnect request, .ok _ => s.call request .reconnected
  | .reconnect request, .error error => s.call request (.answers (.error error))

def awaits (s : BurrowService) (job : Job) (awaited : Awaited) : BurrowService :=
  { s with active := some { job with stage := .waits awaited } }

def goesOn (s : BurrowService) (job : Job) (resumption : Resumption) : BurrowService :=
  { s with active := some { job with stage := .goesOn resumption } }

/-- `#startBurrow`, up to its first await: the Noise static that the enrollment has, or one
that is minted for it. -/
def startBurrow (s : BurrowService) (job : Job) (incoming : BurrowEnrollment) : BurrowService :=
  if s.disposed then s.conclude job (.ok job.reply)
  else if incoming.noiseStaticPrivateKey.isSome ∧ incoming.noiseStaticPublicKey.isSome then
    s.awaits job (.deriveNoiseStatic incoming)
  else s.awaits job (.mintNoiseStatic incoming)

/-- What an enrollment that lacks a Noise static is saved as. -/
def backfilled (enrollment : BurrowEnrollment) (material : NoiseStaticMaterial) :
    BurrowEnrollment :=
  { enrollment with
    noiseStaticPrivateKey := some material.privateKeyPkcs8
    noiseStaticPublicKey := some material.publicKey }

def outsideAllowedSources (relayUrl : JsString) : JsString :=
  relayUrl ++ js " is outside this build's allowed remote sources (" ++ opts.connectSrc ++
    js "). A self-host build bakes its own via DORMOUSE_REMOTE_CONNECT_SRC."

/-- `#enrollWith`, up to the exchange. -/
def enrollWith (s : BurrowService) (job : Job) (relayUrl : JsString)
    (credential : BurrowEnrollCredential) (label : JsString) : BurrowService :=
  if opts.allowed relayUrl then s.awaits job (.performEnrollment relayUrl credential label)
  else s.conclude job (.error (outsideAllowedSources opts relayUrl))

def noPendingPairing : JsString := js "pairing request is no longer pending"

/-- The request a modal displayed, if it still is the one that is pending. -/
def pendingPairing (s : BurrowService) (clientId pairingId : JsString) : Option PendingPairing :=
  (s.pairings.get clientId).filter (·.pairingId = pairingId)

/-- The runtime's side of it. -/
def runtimePairing (s : BurrowService) (clientId pairingId : JsString) : Option RuntimePairing :=
  (s.burrow.bind (·.pairings.get clientId)).filter (·.pairingId = pairingId)

/-- `#approve`, and `#approvePairing` of the runtime up to its queue of saves. -/
def approve (s : BurrowService) (job : Job) (params : ApproveParams) (now : Ms) : BurrowService :=
  match s.pendingPairing params.clientId params.pairingId with
  | none => s.conclude job (.error noPendingPairing)
  | some _ =>
    match s.burrow, s.runtimePairing params.clientId params.pairingId with
    | some b, some pending =>
      if pending.attempted then s.conclude job (.ok .done)
      else
        let s := s.setPairing params.clientId { pending with attempted := true }
        if pending.expiresAt ≤ now ∨ b.enrollment.noiseStaticPublicKey = none ∨
            params.code ≠ pending.code then
          (s.disposePairing params.clientId).conclude job (.ok .done)
        else s.goesOn job (.approving params.clientId params.pairingId)
    | _, _ => s.conclude job (.ok .done)

/-- The turn of some work comes. -/
def begin (s : BurrowService) (job : Job) (now : Ms) : Work → BurrowService
  | .start => s.awaits job .loadEnrollment
  | .enroll params => s.enrollWith opts job params.relayUrl (.password params.password) params.label
  | .enrollOffer params => s.awaits job (.readOffer params)
  | .reconnect =>
    match s.burrow with
    | some b =>
      let s := s.editBurrow ServedRuntime.start
      if isWellFormed b.enrollment.burrowToken then s.conclude job (.ok .done)
      else s.conclude job (.error (js "URI malformed"))
    | none => s.awaits job .loadEnrollment
  | .clearEnrollment => s.awaits job .clearEnrollment
  | .approve params => s.approve job params now

def noOffer : JsString :=
  js "There is no enrollment offer on this machine — it may have been redeemed already. " ++
    js "Re-run the installer to mint a new one, or enroll with the setup password."

def offerChanged (offered expected : JsString) : JsString :=
  js "The enrollment offer changed — it now names " ++ offered ++ js ", not " ++ expected ++
    js ". Reopen this dialog to review the new one."

/-- `relayUrl.replace(/\/+$/, '')`. -/
def withoutTrailingSlashes (relayUrl : JsString) : JsString :=
  (relayUrl.reverse.dropWhile (· = unit '/')).reverse

/-- What `performEnrollment` makes of the Relay's answer. -/
def enrollmentOf (relayUrl label : JsString) (response : BurrowEnrollResponse)
    (material : NoiseStaticMaterial) : BurrowEnrollment where
  relayUrl := withoutTrailingSlashes relayUrl
  burrowId := response.burrowId
  burrowToken := response.burrowToken
  origin := response.origin
  rpId := response.rpId
  label := some label
  requireUserVerification := response.requireUserVerification
  noiseStaticPrivateKey := some material.privateKeyPkcs8
  noiseStaticPublicKey := some material.publicKey

/-- `#startBurrow` once the records are loaded. -/
def buildBurrow (s : BurrowService) (job : Job) (enrollment : BurrowEnrollment)
    (records : List BurrowAclRecord) : BurrowService :=
  if s.disposed then s.conclude job (.ok job.reply)
  else
    let b := (ServedRuntime.construct s.nextUid enrollment records).start
    let s :=
      { s with
        enrollment := some enrollment
        burrow := some b
        nextUid := s.nextUid + 1
        history := s.history ++ [Event.started s.nextUid enrollment records] }
    -- The socket's URL is spelled within `start`.
    if isWellFormed enrollment.burrowToken then s.emitStatus.conclude job (.ok job.reply)
    else s.conclude job (.error (js "URI malformed"))

/-- The runtime's `this.#acl = next`. -/
def commitAcl (s : BurrowService) (uid : Nat) (next : BurrowAcl) : BurrowService :=
  s.editBurrow fun b => if b.uid = uid then { b with acl := next } else b

/-- A continuation of the work on the chain runs. -/
def resumeJob (s : BurrowService) (job : Job) (now : Ms) : Resumption → BurrowService
  | .begin work => s.begin opts job now work
  | .loadedEnrollment (.error error) => s.conclude job (.error error)
  | .loadedEnrollment (.ok none) => s.conclude job (.ok job.reply)
  | .loadedEnrollment (.ok (some enrollment)) =>
    if opts.allowed enrollment.relayUrl then s.startBurrow job enrollment
    else s.conclude job (.ok job.reply)
  | .offerRead _ none => s.conclude job (.error noOffer)
  | .offerRead params (some offer) =>
    if offer.origin ≠ params.origin then
      s.conclude job (.error (offerChanged offer.origin params.origin))
    else s.enrollWith opts job offer.origin (.enrollToken offer.token) params.label
  | .exchanged _ _ (.error error) => s.conclude job (.error error)
  | .exchanged relayUrl label (.ok (response, material)) =>
    s.awaits job (.saveEnrollment (enrollmentOf relayUrl label response material))
  | .savedEnrollment _ (.error error) => s.conclude job (.error error)
  | .savedEnrollment enrollment (.ok _) =>
    let s := if s.burrow.isSome then { s.stopBurrow with enrollment := none }.emitStatus else s
    s.startBurrow { job with reply := .enrolled enrollment.burrowId enrollment.relayUrl }
      enrollment
  | .derived enrollment publicKey =>
    match publicKey with
    | .ok publicKey =>
      if some publicKey = enrollment.noiseStaticPublicKey then
        s.goesOn job (.verified (some enrollment))
      else s.goesOn job (.verified none)
    | .error _ => s.goesOn job (.verified none)
  | .minted _ (.error _) => s.goesOn job (.verified none)
  | .minted enrollment (.ok material) =>
    s.awaits job (.saveBackfilled (backfilled enrollment material))
  | .savedBackfilled _ (.error error) => s.conclude job (.error error)
  | .savedBackfilled enrollment (.ok _) => s.goesOn job (.verified (some enrollment))
  | .verified none => s.conclude job (.ok job.reply)
  | .verified (some enrollment) =>
    if s.disposed then s.conclude job (.ok job.reply)
    else s.stopBurrow.awaits job (.loadAcl enrollment)
  | .loadedAcl _ (.error error) => s.conclude job (.error error)
  | .loadedAcl enrollment (.ok records) => s.buildBurrow job enrollment records
  | .clearedEnrollment (.error error) => s.conclude job (.error error)
  | .clearedEnrollment (.ok _) =>
    { s.stopBurrow with enrollment := none }.emitStatus.conclude job (.ok .done)
  | .approving clientId pairingId =>
    match s.burrow, s.runtimePairing clientId pairingId with
    | some b, some pending =>
      if pending.expiresAt ≤ now then (s.disposePairing clientId).conclude job (.ok .done)
      else
        (s.setPairing clientId { pending with committing := true }).awaits job
          (.saveAcl b.uid clientId pairingId (b.acl.approve pending.client now)
            (BurrowAcl.recordOf b.acl.burrowId pending.client now))
    -- Gone in the meantime.
    | _, _ => s.conclude job (.ok .done)
  | .savedAcl uid clientId pairingId next record result =>
    let s :=
      match result with
      | .ok _ => { s.commitAcl uid next with history := s.history ++ [Event.approved record] }
      | .error _ => s
    match s.runtimePairing clientId pairingId with
    | some _ => (s.disposePairing clientId).conclude job (.ok .done)
    | none => s.conclude job (.ok .done)

/-- The next continuation of the lifecycle chain runs. -/
def runChain (s : BurrowService) (now : Ms) : BurrowService :=
  match s.active, s.chain with
  | none, [] => s
  | none, (requester, work) :: chain =>
    { s with
      chain := chain
      active := some ⟨requester, .done, .goesOn (.begin work),
        (s.burrow.map (·.uid), s.enrollment)⟩ }
  | some job, _ =>
    match job.stage with
    | .waits _ => s
    | .goesOn resumption => s.resumeJob opts job now resumption

/-! ### Calls off the chain -/

/-- `unenrolledStatus`. -/
def unenrolledStatus (offer : Option EnrollmentOffer) : BurrowConsoleStatus where
  enrolled := false
  relayUrl := none
  burrowId := none
  connection := .stopped
  pairedClients := 0
  suggestedLabel := opts.suggestedLabel
  offer := offer.map (·.origin)

/-- The snapshot, once nothing is awaited any more. -/
def statusOf (s : BurrowService) (offer : Option EnrollmentOffer) : BurrowConsoleStatus :=
  match s.enrollment with
  | none => unenrolledStatus opts offer
  | some enrollment =>
    { enrolled := true
      relayUrl := some enrollment.relayUrl
      burrowId := some enrollment.burrowId
      connection := (s.burrow.map (·.status)).getD .stopped
      pairedClients := (s.burrow.map (·.activeRecords.length)).getD 0
      suggestedLabel := opts.suggestedLabel
      offer := none }

/-- `#status`: an enrolled Burrow has nothing to offer, and reads no file. -/
def statusStage (s : BurrowService) : CallStage :=
  if s.enrollment.isSome then .answers (.ok (.status (s.statusOf opts none))) else .readsOffer

def notConnected : JsString := js "This machine is not connected to a Dormouse Relay."

def noSetupToken : JsString :=
  js "could not mint a setup code: the Relay’s answer was not a setup token."

def differentRelay : JsString :=
  js "could not mint a setup code: this machine reconnected to a different Relay."

def connectionDropped : JsString :=
  js "could not mint a setup code: this machine’s connection to the Relay dropped. Try again."

/-- The invitation that a runtime mints with its keypair. -/
def invitationOf (enrollment : BurrowEnrollment) (setupToken : JsString) (publicKey : Bytes)
    (inviteId : JsString) (expiresAt : Ms) : PairingInvitation where
  burrowId := enrollment.burrowId
  inviteId := inviteId
  expiry := ⌊expiresAt / 1000⌋
  setupToken := setupToken
  ephPub := publicKey
  ephPubBase64Url := Security.toBase64Url publicKey

def urlTooLong (origin : JsString) (invitation : PairingInvitation) : JsString :=
  let url := origin ++ js "/" ++ pairingHashPrefix ++ (pairingFragment invitation).getD []
  js "pairing URL is " ++ JsString.ofInt url.length ++ js " characters, over the " ++
    JsString.ofInt pairingQrUrlMaxLength ++ js " limit; " ++
    js "the origin this Burrow enrolled against is too long for a scannable code."

/-- `mintInvitation` once the keypair is there, and the QR that is made of it. -/
def mintQr (s : BurrowService) (uid epoch : Nat) (enrollment : BurrowEnrollment)
    (setupToken : JsString) (relayExpiresAtMs : Ms) (publicKey : Bytes) (inviteId : JsString)
    (now : Ms) : BurrowService × Except JsString Reply :=
  match s.burrow with
  | none => (s, .error connectionDropped)
  | some b =>
    -- A runtime that is stopped has left its epoch too.
    if b.uid ≠ uid ∨ b.epoch ≠ epoch then (s, .error connectionDropped)
    else
      let invitation := invitationOf b.enrollment setupToken publicKey inviteId
        (min (now + defaultPairingTtlMs) relayExpiresAtMs)
      match formatInvitationExpiry invitation.expiry with
      | none => (s, .error (js "pairing invitation expiry must be a uint32 epoch-seconds value"))
      | some _ =>
        ({ s with history := s.history ++ [.minted uid invitation] },
          match formatPairingInvitationUrl enrollment.origin invitation with
          | none => .error (urlTooLong enrollment.origin invitation)
          | some url => .ok (.setupQr ⟨url, inviteId, invitation.expiry * 1000⟩))

def setStage (s : BurrowService) (uid : Nat) (request : JsString) (stage : CallStage) :
    BurrowService :=
  { s with calls := s.calls.set uid ⟨request, stage⟩ }

/-- A continuation of a call runs. -/
def runCall (s : BurrowService) (uid : Nat) (now : Ms) : BurrowService :=
  match s.calls.get uid with
  | none => s
  | some ⟨request, stage⟩ =>
    match stage with
    | .readsOffer | .fetchesSetupToken .. | .generatesKeyPair .. => s
    | .reconnected => s.setStage uid request (s.statusStage opts)
    | .offerRead offer =>
      s.setStage uid request (.answers (.ok (.status (s.statusOf opts offer))))
    | .fetchedSetupToken _ _ (.error error) => s.setStage uid request (.answers (.error error))
    | .fetchedSetupToken _ _ (.ok none) =>
      s.setStage uid request (.answers (.error noSetupToken))
    | .fetchedSetupToken burrow enrollment (.ok (some (setupToken, expiresAt))) =>
      match s.burrow with
      | some b =>
        if b.uid = burrow then
          s.setStage uid request
            (.generatesKeyPair burrow b.epoch enrollment setupToken expiresAt)
        else s.setStage uid request (.answers (.error differentRelay))
      | none => s.setStage uid request (.answers (.error differentRelay))
    | .generatedKeyPair _ _ _ _ _ (.error error) =>
      s.setStage uid request (.answers (.error error))
    | .generatedKeyPair burrow epoch enrollment setupToken expiresAt
        (.ok (publicKey, inviteId)) =>
        let (s, result) :=
          s.mintQr burrow epoch enrollment setupToken expiresAt publicKey inviteId now
        s.setStage uid request (.answers result)
    | .answers result =>
      { s with calls := s.calls.delete uid }.sendToUi (.result request result)

/-! ### Requests -/

/-- `#deny`, and `#denyPairing` of the runtime. -/
def deny (s : BurrowService) (params : DenyParams) : BurrowService × Except JsString Reply :=
  match s.pendingPairing params.clientId params.pairingId with
  | none => (s, .error noPendingPairing)
  | some _ =>
    match s.runtimePairing params.clientId params.pairingId with
    | some pending =>
      if pending.attempted then (s, .ok .done)
      else (s.disposePairing params.clientId, .ok .done)
    | none => (s, .ok .done)

/-- `#setupQr`, up to the request for a setup token. -/
def setupQrStage (s : BurrowService) : CallStage :=
  match s.enrollment, s.burrow with
  | some enrollment, some b => .fetchesSetupToken b.uid enrollment
  | _, _ => .answers (.error notConnected)

/-- `start()`. -/
def start (s : BurrowService) : BurrowService :=
  if s.disposed then s else s.serialize .start .start

def dispose (s : BurrowService) : BurrowService :=
  if s.disposed then s
  else
    let s := { s with disposed := true }.stopBurrow
    { s with history := s.history ++ [.disposed] }

/-- `handleCommand`, up to its await. -/
def handleCommand (s : BurrowService) (request : JsString) (command : Command) : BurrowService :=
  if s.disposed then s
  else
    match command with
    | .enroll params => s.serialize (.command request) (.enroll params)
    | .enrollOffer params => s.serialize (.command request) (.enrollOffer params)
    | .status => s.call request (s.statusStage opts)
    | .reconnect => s.serialize (.reconnect request) .reconnect
    | .clearEnrollment => s.serialize (.command request) .clearEnrollment
    | .setupQr => s.call request s.setupQrStage
    | .approve params => s.serialize (.command request) (.approve params)
    | .deny params =>
      let (s, result) := s.deny params
      s.call request (.answers result)
    | .pairingQueue => s.call request (.answers (.ok (.queue s.queueSnapshot)))
    | .unknown cmd => s.call request (.answers (.error (js "unknown burrow command: " ++ cmd)))

/-! ### The environment -/

/-- What a promise from outside settles with. -/
inductive Outcome
  /-- A rejection; a store write that fails may have landed for all that. -/
  | rejects (error : JsString) (landed : Bool)
  | resolves
  | offer (offer : Option EnrollmentOffer)
  | enrolled (response : BurrowEnrollResponse) (material : NoiseStaticMaterial)
  | publicKey (publicKey : JsString)
  | noiseStatic (material : NoiseStaticMaterial)
  | setupToken (response : Option (JsString × Ms))
  | keyPair (publicKey : Bytes) (inviteId : JsString)

/-- What a write leaves in the store, and in the history if it is known to be there. -/
def land (s : BurrowService) : Awaited → BurrowService
  | .saveEnrollment enrollment | .saveBackfilled enrollment =>
    { s with
      store := { s.store with enrollment := some enrollment }
      history := s.history ++ [.saved enrollment] }
  | .clearEnrollment => { s with store := { s.store with enrollment := none } }
  | .saveAcl _ _ _ next _ => { s with store := s.store.saveAcl next.burrowId next.records }
  | _ => s

/-- The continuation that a settled promise queues. -/
def resumptionOf (s : BurrowService) : Awaited → Outcome → Option Resumption
  | .loadEnrollment, .rejects error _ => some (.loadedEnrollment (.error error))
  | .loadEnrollment, .resolves => some (.loadedEnrollment (.ok s.store.enrollment))
  -- `readOffer` never rejects.
  | .readOffer params, .offer offer => some (.offerRead params offer)
  | .performEnrollment relayUrl _ label, .rejects error _ =>
    some (.exchanged relayUrl label (.error error))
  | .performEnrollment relayUrl _ label, .enrolled response material =>
    some (.exchanged relayUrl label (.ok (response, material)))
  | .saveEnrollment enrollment, .rejects error _ => some (.savedEnrollment enrollment (.error error))
  | .saveEnrollment enrollment, .resolves => some (.savedEnrollment enrollment (.ok ()))
  | .deriveNoiseStatic enrollment, .rejects error _ => some (.derived enrollment (.error error))
  | .deriveNoiseStatic enrollment, .publicKey publicKey =>
    some (.derived enrollment (.ok publicKey))
  | .mintNoiseStatic enrollment, .rejects error _ => some (.minted enrollment (.error error))
  | .mintNoiseStatic enrollment, .noiseStatic material => some (.minted enrollment (.ok material))
  | .saveBackfilled enrollment, .rejects error _ =>
    some (.savedBackfilled enrollment (.error error))
  | .saveBackfilled enrollment, .resolves => some (.savedBackfilled enrollment (.ok ()))
  | .loadAcl enrollment, .rejects error _ => some (.loadedAcl enrollment (.error error))
  | .loadAcl enrollment, .resolves =>
    some (.loadedAcl enrollment (.ok (s.store.loadAcl enrollment.burrowId)))
  | .clearEnrollment, .rejects error _ => some (.clearedEnrollment (.error error))
  | .clearEnrollment, .resolves => some (.clearedEnrollment (.ok ()))
  | .saveAcl uid clientId pairingId next record, .rejects error _ =>
    some (.savedAcl uid clientId pairingId next record (.error error))
  | .saveAcl uid clientId pairingId next record, .resolves =>
    some (.savedAcl uid clientId pairingId next record (.ok ()))
  | _, _ => none

def landedBy (s : BurrowService) (awaited : Awaited) : Outcome → BurrowService
  | .resolves | .rejects _ true => s.land awaited
  | _ => s

/-- What the work on the chain awaits settles. -/
def settleJob (s : BurrowService) (outcome : Outcome) : BurrowService :=
  match s.active with
  | none => s
  | some job =>
    match job.stage with
    | .goesOn _ => s
    | .waits awaited =>
      match s.resumptionOf awaited outcome with
      | none => s
      | some resumption => (s.landedBy awaited outcome).goesOn job resumption

/-- What a call awaits settles. -/
def settleCall (s : BurrowService) (uid : Nat) (outcome : Outcome) : BurrowService :=
  match s.calls.get uid with
  | none => s
  | some ⟨request, stage⟩ =>
    match stage, outcome with
    | .readsOffer, .offer offer => s.setStage uid request (.offerRead offer)
    | .fetchesSetupToken burrow enrollment, .rejects error _ =>
      s.setStage uid request (.fetchedSetupToken burrow enrollment (.error error))
    | .fetchesSetupToken burrow enrollment, .setupToken response =>
      s.setStage uid request (.fetchedSetupToken burrow enrollment (.ok response))
    | .generatesKeyPair burrow epoch enrollment token expiresAt, .rejects error _ =>
      s.setStage uid request
        (.generatedKeyPair burrow epoch enrollment token expiresAt (.error error))
    | .generatesKeyPair burrow epoch enrollment token expiresAt, .keyPair publicKey inviteId =>
      s.setStage uid request
        (.generatedKeyPair burrow epoch enrollment token expiresAt (.ok (publicKey, inviteId)))
    | _, _ => s

/-- The runtime has believed a pairing request; one of the same client is superseded. -/
def requestApproval (s : BurrowService) (clientId : JsString) (pairing : RuntimePairing)
    (label : JsString) (requestedAt : Ms) : BurrowService :=
  if s.burrow.isSome then
    ((s.disposePairing clientId).setPairing clientId
      { pairing with attempted := false, committing := false }).enqueuePairing clientId
        ⟨pairing.pairingId, label, requestedAt⟩
  else s

/-- The relay socket of the runtime changes its state; one that is lost takes what it
carried with it. -/
def socketChanges (s : BurrowService) (status : BurrowStatus) : BurrowService :=
  let s := s.editBurrow fun b => { b with status := status }
  if status = .disconnected ∨ status = .displaced then s.dropTransientState else s

/-! ### Runs -/

inductive Act
  | start
  | command (request : JsString) (command : Command)
  | dispose
  /-- A continuation of the lifecycle chain runs. -/
  | runChain (now : Ms)
  | runCall (uid : Nat) (now : Ms)
  /-- A promise from outside settles. -/
  | settleJob (outcome : Outcome)
  | settleCall (uid : Nat) (outcome : Outcome)
  | requestApproval (clientId : JsString) (pairing : RuntimePairing) (label : JsString)
      (requestedAt : Ms)
  /-- The runtime ends a pairing by itself. -/
  | pairingEnds (clientId : JsString)
  | socketChanges (status : BurrowStatus)

def perform (s : BurrowService) : Act → BurrowService
  | .start => s.start
  | .command request command => s.handleCommand opts request command
  | .dispose => s.dispose
  | .runChain now => s.runChain opts now
  | .runCall uid now => s.runCall opts uid now
  | .settleJob outcome => s.settleJob outcome
  | .settleCall uid outcome => s.settleCall uid outcome
  | .requestApproval clientId pairing label requestedAt =>
    s.requestApproval clientId pairing label requestedAt
  | .pairingEnds clientId => s.disposePairing clientId
  | .socketChanges status => s.socketChanges status

/-- All runs over one store. -/
def serviceRuns : System BurrowService Act where
  init s := ∃ store, s = fresh store
  step s act s' := s' = s.perform opts act

/-- The state that a run of these acts leaves. -/
def after (s : BurrowService) (acts : List Act) : BurrowService := acts.foldl (perform opts) s

theorem reachable_after (acts : List Act) {s : BurrowService}
    (hs : (serviceRuns opts).Reachable s) : (serviceRuns opts).Reachable (s.after opts acts) :=
  hs.foldl (fun _ _ => rfl) acts

end BurrowService

end Dormouse.Host
