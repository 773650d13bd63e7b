import Dormouse.Burrow.InvitationLink
import Dormouse.Terminal.Events
import Dormouse.Lib.InsertionMap
import Dormouse.Lib.Transition

/-!
# Dormouse.Pocket.Deliveries

**Push delivery ids on one device** (`lib/src/remote/client/pocket-client.ts` and
`pocket-db.ts`): the calls that read, write and delete the records of paired Burrows and the
tombstones of ids to be deleted, in any number of tabs that share the two stores.

A call runs from one `await` on a store or on the Relay to the next. A ceremony up to its
authenticated outcome is one such wait. A request that was sent reaches the Relay later, or
never, whatever becomes of the call that sent it. A page that stops leaves its calls where
they are.
-/

namespace Dormouse.Pocket

open Security (isExactBase64Url base64UrlLength)
open Burrow (routingIdLength secretLength)
open Terminal (Ms)

/-! ### Records -/

/-- A Burrow's id as an invitation names it: 16 bytes in base64url. -/
abbrev BurrowId := { id : JsString // isExactBase64Url id routingIdLength = true }

inductive KnownBurrowAuthorization
  /-- `deliveryId` is the capability the Burrow minted for push delivery to this Client. -/
  | paired (deliveryId : JsString) (approvedAt : Ms)
  | pairingRequired
  deriving DecidableEq

/-- `KnownBurrowV1`; of the Client static it has the public half. -/
structure KnownBurrow where
  burrowId : BurrowId
  accountId : JsString
  label : JsString
  burrowStaticPublicKey : JsString
  clientStaticPublicKey : JsString
  passkeyCredentialId : JsString
  passkeyPublicKeyHash : JsString
  authorization : KnownBurrowAuthorization
  deriving DecidableEq

def KnownBurrow.deliveryId (record : KnownBurrow) : Option JsString :=
  match record.authorization with
  | .paired deliveryId _ => some deliveryId
  | .pairingRequired => none

/-- A record as it is stored, with the number of the pairing that it comes from. -/
structure StoredBurrow where
  record : KnownBurrow
  pairing : Nat
  deriving DecidableEq

structure PendingDeliveryDeletion where
  burrowId : BurrowId
  deliveryId : JsString
  queuedAt : Ms
  deriving DecidableEq

/-- The key one tombstone is filed under. -/
def pendingDeletionKey (burrowId : BurrowId) (deliveryId : JsString) : JsString :=
  burrowId.val ++ js ":" ++ deliveryId

def PendingDeliveryDeletion.key (tombstone : PendingDeliveryDeletion) : JsString :=
  pendingDeletionKey tombstone.burrowId tombstone.deliveryId

/-! ### Pairing -/

/-- What a pairing ceremony is about, and what this Client presents in it. -/
structure PairingCeremony where
  burrowId : BurrowId
  clientStaticPublicKey : JsString
  passkeyCredentialId : JsString
  passkeyPublicKeyHash : JsString
  deriving DecidableEq

/-- The outcome of a pairing that the Burrow approved. -/
structure PairingApproval where
  burrowStaticPublicKey : JsString
  burrowLabel : JsString
  accountId : JsString
  passkeyCredentialId : JsString
  passkeyPublicKeyHash : JsString
  deliveryId : JsString
  deriving DecidableEq

def selfhostAccountId : JsString := js "owner"

def isNoisePublicKey (value : JsString) : Bool := isExactBase64Url value secretLength

/-- An approval naming another account, credential, or key is not this ceremony's. -/
def PairingCeremony.accepts (ceremony : PairingCeremony) (approval : PairingApproval) : Bool :=
  approval.accountId == selfhostAccountId &&
    approval.passkeyCredentialId == ceremony.passkeyCredentialId &&
    approval.passkeyPublicKeyHash == ceremony.passkeyPublicKeyHash &&
    isNoisePublicKey approval.burrowStaticPublicKey

def PairingCeremony.record (ceremony : PairingCeremony) (approval : PairingApproval) (now : Ms) :
    KnownBurrow where
  burrowId := ceremony.burrowId
  accountId := approval.accountId
  label := approval.burrowLabel
  burrowStaticPublicKey := approval.burrowStaticPublicKey
  clientStaticPublicKey := ceremony.clientStaticPublicKey
  passkeyCredentialId := approval.passkeyCredentialId
  passkeyPublicKeyHash := approval.passkeyPublicKeyHash
  authorization := .paired approval.deliveryId now

/-! ### Calls -/

/-- What a call has read of a Burrow's record, and how many pairings had written one. -/
structure RecordRead where
  burrowId : BurrowId
  stored : Option StoredBurrow
  pairings : Nat
  deriving DecidableEq

def RecordRead.deliveryId (read : RecordRead) : Option JsString :=
  read.stored.bind (·.record.deliveryId)

/-- What a call in flight waits for. -/
inductive DeliveryWait
  /-- `pair`: the ceremony's outcome. -/
  | pairing (ceremony : PairingCeremony)
  /-- The Burrow's record. -/
  | pairRead (ceremony : PairingCeremony) (approval : PairingApproval)
  /-- The tombstone of the id that is about to be forgotten. -/
  | pairTombstone (ceremony : PairingCeremony) (approval : PairingApproval) (read : RecordRead)
      (deliveryId : JsString)
  /-- The new record. -/
  | pairWrite (ceremony : PairingCeremony) (approval : PairingApproval) (read : RecordRead)
  /-- `connect`: the Burrow's record. -/
  | connectRead (burrowId : BurrowId)
  /-- The ceremony's outcome. -/
  | connecting (record : KnownBurrow) (read : RecordRead)
  /-- `#dropAuthorization`: the tombstone. -/
  | dropTombstone (record : KnownBurrow) (read : RecordRead) (deliveryId : JsString)
  /-- The record, rewritten. -/
  | dropWrite (record : KnownBurrow) (read : RecordRead) (deliveryId : JsString)
  /-- `forgetBurrow`: the Burrow's record. -/
  | forgetRead (burrowId : BurrowId)
  /-- The tombstone. -/
  | forgetTombstone (read : RecordRead) (deliveryId : JsString)
  /-- The record's deletion. -/
  | forgetDelete (read : RecordRead)
  /-- `subscribeToPush`: the Burrow's record. -/
  | subscribeRead (burrowId : BurrowId)
  /-- Its request, to be sent. -/
  | subscribing (burrowId : BurrowId) (deliveryId : JsString)
  /-- `retirePendingDeletions`: the tombstones. -/
  | retireList
  /-- The next request, to be sent. -/
  | retiring (queued : List PendingDeliveryDeletion)
  /-- The Relay's answer to it. -/
  | deleting (request : Nat) (tombstone : PendingDeliveryDeletion)
      (queued : List PendingDeliveryDeletion)
  /-- The tombstone's deletion. -/
  | clearing (tombstone : PendingDeliveryDeletion) (queued : List PendingDeliveryDeletion)
  deriving DecidableEq

inductive DeliveryRequest
  | subscribe (burrowId : BurrowId) (deliveryId : JsString)
  | delete (deliveryId : JsString)
  deriving DecidableEq

/-- The device's two stores, its calls in flight, and the Relay's rows of it. -/
structure PocketDevice where
  knownBurrows : InsertionMap BurrowId StoredBurrow
  pendingDeletions : InsertionMap JsString PendingDeliveryDeletion
  /-- The Burrow and delivery id of every row. -/
  rows : List (BurrowId × JsString)
  /-- What is on its way to the Relay. -/
  requests : List (Nat × DeliveryRequest)
  /-- The requests that the Relay has taken. -/
  taken : List Nat
  nextRequest : Nat
  /-- How many records pairings have written. -/
  pairings : Nat
  calls : List DeliveryWait

namespace PocketDevice

def fresh : PocketDevice := ⟨.empty, .empty, [], [], [], 0, 0, []⟩

/-- A call begins. -/
def start (s : PocketDevice) (wait : DeliveryWait) : PocketDevice :=
  { s with calls := s.calls ++ [wait] }

def goOn (s : PocketDevice) (i : Nat) (wait : DeliveryWait) : PocketDevice :=
  { s with calls := s.calls.set i wait }

/-- It is through, or throws. -/
def finish (s : PocketDevice) (i : Nat) : PocketDevice := { s with calls := s.calls.eraseIdx i }

def putRecord (s : PocketDevice) (stored : StoredBurrow) : PocketDevice :=
  { s with knownBurrows := s.knownBurrows.set stored.record.burrowId stored }

def putTombstone (s : PocketDevice) (tombstone : PendingDeliveryDeletion) : PocketDevice :=
  { s with pendingDeletions := s.pendingDeletions.set tombstone.key tombstone }

def readRecord (s : PocketDevice) (burrowId : BurrowId) : RecordRead :=
  ⟨burrowId, s.knownBurrows.get burrowId, s.pairings⟩

def send (s : PocketDevice) (request : DeliveryRequest) : PocketDevice :=
  { s with
    requests := s.requests ++ [(s.nextRequest, request)]
    nextRequest := s.nextRequest + 1 }

/-! ### Steps -/

/-- `pair` has the Burrow's approval. -/
def approved (s : PocketDevice) (i : Nat) (approval : PairingApproval) : PocketDevice :=
  match s.calls[i]? with
  | some (.pairing ceremony) =>
    if ceremony.accepts approval then s.goOn i (.pairRead ceremony approval) else s.finish i
  | _ => s

/-- `connect` has an outcome; only `pairing-required` goes on. -/
def connected (s : PocketDevice) (i : Nat) (pairingRequired : Bool) : PocketDevice :=
  match s.calls[i]? with
  | some (.connecting record read) =>
    if pairingRequired then
      match record.deliveryId with
      | none => s.finish i
      | some deliveryId => s.goOn i (.dropTombstone record read deliveryId)
    else s.finish i
  | _ => s

/-- A store has answered a read. -/
def storeRead (s : PocketDevice) (i : Nat) : PocketDevice :=
  match s.calls[i]? with
  | some (.pairRead ceremony approval) =>
    let read := s.readRecord ceremony.burrowId
    match read.stored with
    | none => s.goOn i (.pairWrite ceremony approval read)
    | some existing =>
      -- Terminal, and the old record is untouched.
      if existing.record.burrowStaticPublicKey ≠ approval.burrowStaticPublicKey then s.finish i
      else
        match existing.record.deliveryId with
        | none => s.goOn i (.pairWrite ceremony approval read)
        | some deliveryId =>
          if deliveryId = approval.deliveryId then
            s.goOn i (.pairWrite ceremony approval read)
          else s.goOn i (.pairTombstone ceremony approval read deliveryId)
  | some (.connectRead burrowId) =>
    let read := s.readRecord burrowId
    match read.stored with
    | none => s.finish i
    | some stored =>
      if stored.record.deliveryId.isSome then s.goOn i (.connecting stored.record read)
      else s.finish i
  | some (.forgetRead burrowId) =>
    let read := s.readRecord burrowId
    match read.deliveryId with
    | none => s.goOn i (.forgetDelete read)
    | some deliveryId => s.goOn i (.forgetTombstone read deliveryId)
  | some (.subscribeRead burrowId) =>
    match (s.readRecord burrowId).deliveryId with
    | none => s.finish i
    | some deliveryId => s.goOn i (.subscribing burrowId deliveryId)
  | some .retireList => s.goOn i (.retiring s.pendingDeletions.values)
  | _ => s

/-- What the write that a call waits for does to the stores. -/
def write (s : PocketDevice) (wait : DeliveryWait) (now : Ms) : PocketDevice :=
  match wait with
  | .pairTombstone ceremony _ _ deliveryId => s.putTombstone ⟨ceremony.burrowId, deliveryId, now⟩
  | .pairWrite ceremony approval _ =>
    { s with pairings := s.pairings + 1 }.putRecord ⟨ceremony.record approval now, s.pairings⟩
  | .dropTombstone record _ deliveryId => s.putTombstone ⟨record.burrowId, deliveryId, now⟩
  | .dropWrite record _ _ =>
    s.putRecord ⟨{ record with authorization := .pairingRequired }, s.pairings⟩
  | .forgetTombstone read deliveryId => s.putTombstone ⟨read.burrowId, deliveryId, now⟩
  | .forgetDelete read => { s with knownBurrows := s.knownBurrows.delete read.burrowId }
  | .clearing tombstone _ =>
    { s with pendingDeletions := s.pendingDeletions.delete tombstone.key }
  | _ => s

/-- What a call does once its write is through; `none` when it is done. -/
def afterWrite (wait : DeliveryWait) (now : Ms) : Option DeliveryWait :=
  match wait with
  | .pairTombstone ceremony approval read _ => some (.pairWrite ceremony approval read)
  | .dropTombstone record read deliveryId => some (.dropWrite record read deliveryId)
  -- The drain of the one tombstone, and as best-effort.
  | .dropWrite record _ deliveryId => some (.retiring [⟨record.burrowId, deliveryId, now⟩])
  | .forgetTombstone read _ => some (.forgetDelete read)
  | .forgetDelete _ => some .retireList
  | .clearing _ queued => some (.retiring queued)
  | _ => none

/-- What a call does when what it waits for fails; `none` when it is done. -/
def afterFailure : DeliveryWait → Option DeliveryWait
  | .retiring (_ :: queued) => some (.retiring queued)
  | .deleting _ _ queued => some (.retiring queued)
  | .clearing _ queued => some (.retiring queued)
  | _ => none

def resume (s : PocketDevice) (i : Nat) (wait : Option DeliveryWait) : PocketDevice :=
  match wait with
  | some wait => s.goOn i wait
  | none => s.finish i

def isWrite : DeliveryWait → Bool
  | .pairTombstone .. | .pairWrite .. | .dropTombstone .. | .dropWrite .. | .forgetTombstone ..
  | .forgetDelete .. | .clearing .. => true
  | _ => false

/-- A store has answered a write. -/
def storeWrite (s : PocketDevice) (i : Nat) (now : Ms) : PocketDevice :=
  match s.calls[i]? with
  | some wait =>
    if isWrite wait then (s.write wait now).resume i (afterWrite wait now) else s
  | none => s

/-- A store, the Relay or the ceremony fails the call; a write may have landed all the same. -/
def failed (s : PocketDevice) (i : Nat) (landed : Bool) (now : Ms) : PocketDevice :=
  match s.calls[i]? with
  | some wait => (if landed then s.write wait now else s).resume i (afterFailure wait)
  | none => s

/-- A request is sent; `subscribeToPush` has nothing more to do with the stores then. -/
def sent (s : PocketDevice) (i : Nat) : PocketDevice :=
  match s.calls[i]? with
  | some (.subscribing burrowId deliveryId) =>
    (s.send (.subscribe burrowId deliveryId)).finish i
  | some (.retiring []) => s.finish i
  | some (.retiring (tombstone :: queued)) =>
    (s.send (.delete tombstone.deliveryId)).goOn i (.deleting s.nextRequest tombstone queued)
  | _ => s

/-- The Relay answers a deletion, that it has taken. -/
def deleteAnswered (s : PocketDevice) (i : Nat) : PocketDevice :=
  match s.calls[i]? with
  | some (.deleting request tombstone queued) =>
    if request ∈ s.taken then s.goOn i (.clearing tombstone queued) else s
  | _ => s

/-- The Relay takes a request. A subscription may be refused, and may cost other rows. -/
def relayTakes (s : PocketDevice) (k : Nat) (stored : Bool)
    (keeps : BurrowId × JsString → Bool) : PocketDevice :=
  match s.requests[k]? with
  | some (number, request) =>
    { s with
      requests := s.requests.eraseIdx k
      taken := number :: s.taken
      rows :=
        match request with
        | .subscribe burrowId deliveryId =>
          if stored then (burrowId, deliveryId) :: s.rows.filter keeps else s.rows
        | .delete deliveryId => s.rows.filter fun row => row.2 ≠ deliveryId }
  | none => s

/-- The Relay loses rows by itself. -/
def rowsLost (s : PocketDevice) (keeps : BurrowId × JsString → Bool) : PocketDevice :=
  { s with rows := s.rows.filter keeps }

end PocketDevice

/-! ### Runs -/

/-- Anything that can happen; `i` is a place among the calls in flight, `k` among the requests. -/
inductive DeliveryAct
  | pair (ceremony : PairingCeremony)
  | connect (burrowId : BurrowId)
  | forgetBurrow (burrowId : BurrowId)
  | subscribeToPush (burrowId : BurrowId)
  | retirePendingDeletions
  | approved (i : Nat) (approval : PairingApproval)
  | connected (i : Nat) (pairingRequired : Bool)
  | storeRead (i : Nat)
  | storeWrite (i : Nat) (now : Ms)
  | failed (i : Nat) (landed : Bool) (now : Ms)
  | sent (i : Nat)
  | deleteAnswered (i : Nat)
  | relayTakes (k : Nat) (stored : Bool) (keeps : BurrowId × JsString → Bool)
  | rowsLost (keeps : BurrowId × JsString → Bool)

namespace PocketDevice

def perform (s : PocketDevice) : DeliveryAct → PocketDevice
  | .pair ceremony => s.start (.pairing ceremony)
  | .connect burrowId => s.start (.connectRead burrowId)
  | .forgetBurrow burrowId => s.start (.forgetRead burrowId)
  | .subscribeToPush burrowId => s.start (.subscribeRead burrowId)
  | .retirePendingDeletions => s.start .retireList
  | .approved i approval => s.approved i approval
  | .connected i pairingRequired => s.connected i pairingRequired
  | .storeRead i => s.storeRead i
  | .storeWrite i now => s.storeWrite i now
  | .failed i landed now => s.failed i landed now
  | .sent i => s.sent i
  | .deleteAnswered i => s.deleteAnswered i
  | .relayTakes k stored keeps => s.relayTakes k stored keeps
  | .rowsLost keeps => s.rowsLost keeps

/-- All runs of one device. -/
def deliveryRuns : System PocketDevice DeliveryAct where
  init s := s = fresh
  step s act s' := s' = s.perform act

end PocketDevice

end Dormouse.Pocket
