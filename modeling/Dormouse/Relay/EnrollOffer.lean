import Dormouse.Relay.PushStore

/-!
# Dormouse.Relay.EnrollOffer

**Enrollment and the installer's offer** (`relay/src/enroll-token.ts`, the enroll route of
`relay/src/app.ts` and `BurrowStore.enroll`): one request at a time under the Burrow store's
mutex, one file-system step at a time, while the installer publishes new offers.

A step on a file may fail where the source has a branch for it, except `link`, which succeeds
just when the path is free. The name of a claim is any, and a file that had it is lost.
-/

namespace Dormouse.Relay

open Noise (Bytes)
open Terminal (Ms)

/-! ### Offers -/

structure EnrollmentOffer where
  origin : JsString
  token : JsString
  mintedAt : JsString

/-- 64 lowercase hex characters. -/
def isEnrollToken (token : JsString) : Bool :=
  decide (token.length = 64) &&
    token.all fun c => JsString.isDigit c || (0x61 ≤ c && c ≤ 0x66)

def enrollOfferMaxAgeMs : Ms := 24 * 60 * 60 * 1000

def mintedAtMaxLength : Nat := 64

/-- How enrollment is set up, and what it uses of its platform. -/
structure EnrollConfig where
  /-- Whether there is an `enrollTokenFile`. -/
  configured : Bool
  parseJson : JsString → Option Json
  isOrigin : JsString → Bool
  /-- `Date.parse`; `none` for `NaN`. -/
  parseDate : JsString → Option Ms
  sha256 : JsString → Bytes

namespace EnrollConfig

variable (config : EnrollConfig)

/-- Constant-time compare of two secrets, via digests. -/
def secretEquals (a b : JsString) : Bool := config.sha256 a == config.sha256 b

/-- `isEnrollmentOffer`, and the offer it licenses. -/
def offerOfJson (value : Json) : Option EnrollmentOffer := do
  return {
    origin := ← (value.stringField (js "origin")).filter config.isOrigin
    token := ← (value.stringField (js "token")).filter isEnrollToken
    mintedAt := ← (value.stringField (js "mintedAt")).filter fun mintedAt =>
      decide (0 < mintedAt.length ∧ mintedAt.length ≤ mintedAtMaxLength) }

def parseEnrollmentOffer (text : JsString) : Option EnrollmentOffer :=
  ((config.parseJson text).filter Json.isObject).bind config.offerOfJson

def isEnrollmentOfferFresh (offer : EnrollmentOffer) (now : Ms) : Bool :=
  (config.parseDate offer.mintedAt).any fun minted => now - minted ≤ enrollOfferMaxAgeMs

end EnrollConfig

/-- A file that the installer published, the how-manieth and what it says. -/
structure OfferFile where
  generation : Nat
  text : JsString

/-! ### Requests -/

/-- What `pickCredential` leaves of a request: a token still to be redeemed, or the setup
password, checked. -/
inductive EnrollCredential
  | token (supplied : JsString)
  | password

/-- How a request got past its gate: whether as the first, on which offer, and how many had
been published when the path was cleared for it. -/
structure Admission where
  first : Bool
  redeemed : Option Nat
  cleared : Nat
  deriving DecidableEq

/-- What the request under the mutex does next. -/
inductive EnrollWait
  /-- Ask whether `burrows.json` is there. -/
  | exists
  /-- `invalidateEnrollOffer`: rename; a token request is rejected after it. -/
  | invalidate (rejects : Bool)
  /-- Unlink what was invalidated. -/
  | discard (name : JsString) (rejects : Bool) (admission : Admission)
  /-- `redeemEnrollToken`: read the offer. -/
  | read (supplied : JsString)
  /-- `claimOffer`: rename. -/
  | claim (supplied verified : JsString)
  /-- Read the claim back. -/
  | verify (name supplied verified : JsString) (cleared : Nat)
  /-- `releaseClaim`: link. -/
  | release (name : JsString)
  /-- Unlink the claim, then reject. -/
  | released (name : JsString)
  /-- Unlink the claim, then go on. -/
  | spend (name : JsString) (admission : Admission)
  /-- Read `burrows.json`. -/
  | list (admission : Admission)
  /-- Write it. -/
  | write (admission : Admission)

structure EnrollRequest where
  number : Nat
  credential : EnrollCredential

inductive EnrollAnswer
  | enrolled
  | rejected
  | notInvalidated
  | limitReached
  | crashed
  deriving DecidableEq

/-- What has become of the offers. -/
inductive EnrollEvent
  | published (generation : Nat) (text : JsString)
  | claimed (request : Nat) (generation : Nat)
  | redeemed (request : Nat) (generation : Nat) (supplied : JsString)
  | invalidated (request : Nat) (generation : Nat)
  /-- A Burrow is persisted; `offer` is what is at the path then. -/
  | enrolled (request : Nat) (admission : Admission) (offer : Option Nat)
  deriving DecidableEq

structure EnrollRelay where
  /-- What is at the well-known path. -/
  offer : Option OfferFile
  /-- What is at the `.spent-*` paths. -/
  spent : InsertionMap JsString OfferFile
  generations : Nat
  /-- How many rows `burrows.json` has; `none` before it is first written. -/
  burrows : Option Nat
  queue : List EnrollRequest
  active : Option (EnrollRequest × EnrollWait)
  nextRequest : Nat
  answers : List (Nat × EnrollAnswer)
  history : List EnrollEvent

def maxEnrolledBurrows : Nat := 32

namespace EnrollRelay

def fresh (burrows : Option Nat) : EnrollRelay := ⟨none, .empty, 0, burrows, [], none, 0, [], []⟩

def record (s : EnrollRelay) (event : EnrollEvent) : EnrollRelay :=
  { s with history := s.history ++ [event] }

/-- The request under the mutex goes on. -/
def next (s : EnrollRelay) (request : EnrollRequest) (wait : EnrollWait) : EnrollRelay :=
  { s with active := some (request, wait) }

/-- It is done, and gives the mutex back. -/
def done (s : EnrollRelay) (request : EnrollRequest) (answer : EnrollAnswer) : EnrollRelay :=
  { s with active := none, answers := s.answers ++ [(request.number, answer)] }

/-- The installer renames a new offer onto the path. -/
def publish (s : EnrollRelay) (text : JsString) : EnrollRelay :=
  { s with
    offer := some ⟨s.generations, text⟩
    generations := s.generations + 1 }.record (.published s.generations text)

def enqueue (s : EnrollRelay) (credential : EnrollCredential) : EnrollRelay :=
  { s with
    queue := s.queue ++ [⟨s.nextRequest, credential⟩]
    nextRequest := s.nextRequest + 1 }

/-- The mutex is free for the next one. -/
def takeMutex (s : EnrollRelay) : EnrollRelay :=
  match s.active, s.queue with
  | none, request :: queue => { s with queue := queue }.next request .exists
  | _, _ => s

/-- `exists` has answered, and the gate of the enroll route decides on the credential. -/
def existsAnswered (config : EnrollConfig) (s : EnrollRelay) (stats : Bool) : EnrollRelay :=
  match s.active with
  | some (request, .exists) =>
    if stats = false then s.done request .crashed
    else
      match request.credential, s.burrows with
      | .token _, some _ =>
        -- The offer is already dead by durable state.
        if config.configured then s.next request (.invalidate true)
        else s.done request .rejected
      | .token supplied, none =>
        if config.configured = false then s.done request .rejected
        else if isEnrollToken supplied = false then s.done request .rejected
        else s.next request (.read supplied)
      | .password, none =>
        if config.configured then s.next request (.invalidate false)
        else s.next request (.list ⟨true, none, s.generations⟩)
      | .password, some _ => s.next request (.list ⟨false, none, s.generations⟩)
  | _ => s

/-- The rename of `invalidateEnrollOffer`; `renames` is whether it can. -/
def offerInvalidated (s : EnrollRelay) (name : JsString) (renames : Bool) : EnrollRelay :=
  match s.active with
  | some (request, .invalidate rejects) =>
    if renames = false then s.done request (if rejects then .rejected else .notInvalidated)
    else
      match s.offer with
      | none =>
        if rejects then s.done request .rejected
        else s.next request (.list ⟨true, none, s.generations⟩)
      | some file =>
        ({ s with offer := none, spent := s.spent.set name file }.record
          (.invalidated request.number file.generation)).next request
            (.discard name rejects ⟨true, none, s.generations⟩)
  | _ => s

/-- The read of `redeemEnrollToken`; `reads` is whether it can. -/
def offerRead (config : EnrollConfig) (s : EnrollRelay) (reads : Bool) (now : Ms) : EnrollRelay :=
  match s.active with
  | some (request, .read supplied) =>
    match (if reads then s.offer else none).bind (config.parseEnrollmentOffer ·.text) with
    | none => s.done request .rejected
    | some offer =>
      if config.isEnrollmentOfferFresh offer now = false ∨
          config.secretEquals supplied offer.token = false then
        s.done request .rejected
      else s.next request (.claim supplied offer.token)
  | _ => s

/-- The rename of `claimOffer`. -/
def offerClaimed (s : EnrollRelay) (name : JsString) (renames : Bool) : EnrollRelay :=
  match s.active with
  | some (request, .claim supplied verified) =>
    if renames = false then s.done request .notInvalidated
    else
      match s.offer with
      | none => s.done request .rejected
      | some file =>
        ({ s with offer := none, spent := s.spent.set name file }.record
          (.claimed request.number file.generation)).next request
            (.verify name supplied verified s.generations)
  | _ => s

/-- `claimHolds` has read the claim back. -/
def claimRead (config : EnrollConfig) (s : EnrollRelay) (reads : Bool) : EnrollRelay :=
  match s.active with
  | some (request, .verify name supplied verified cleared) =>
    match if reads then s.spent.get name else none with
    | none => s.next request (.release name)
    | some file =>
      match config.parseEnrollmentOffer file.text with
      | none => s.next request (.release name)
      | some claimed =>
        if config.secretEquals verified claimed.token then
          (s.record (.redeemed request.number file.generation supplied)).next request
            (.spend name ⟨true, some file.generation, cleared⟩)
        else s.next request (.release name)
  | _ => s

/-- The hard link of `releaseClaim`: it restores the claim only if the path is free. -/
def claimReleased (s : EnrollRelay) : EnrollRelay :=
  match s.active with
  | some (request, .release name) =>
    match s.offer, s.spent.get name with
    | none, some file => { s with offer := some file }.next request (.released name)
    | _, _ => s.next request (.released name)
  | _ => s

/-- A claim is unlinked; a failure leaves it, inert. -/
def claimUnlinked (s : EnrollRelay) (unlinks : Bool) : EnrollRelay :=
  match s.active with
  | some (request, wait) =>
    let unlink (name : JsString) : EnrollRelay :=
      if unlinks then { s with spent := s.spent.delete name } else s
    match wait with
    | .discard name rejects admission =>
      if rejects then (unlink name).done request .rejected
      else (unlink name).next request (.list admission)
    | .released name => (unlink name).done request .rejected
    | .spend name admission => (unlink name).next request (.list admission)
    | _ => s
  | none => s

/-- `burrows.json` is read for its rows, and the limit is checked. -/
def burrowsListed (s : EnrollRelay) (reads : Bool) : EnrollRelay :=
  match s.active with
  | some (request, .list admission) =>
    if reads = false then s.done request .crashed
    else if maxEnrolledBurrows ≤ s.burrows.getD 0 then s.done request .limitReached
    else s.next request (.write admission)
  | _ => s

/-- The new row is written, or the write throws. -/
def burrowWritten (s : EnrollRelay) (writes : Bool) : EnrollRelay :=
  match s.active with
  | some (request, .write admission) =>
    if writes then
      ({ s with burrows := some (s.burrows.getD 0 + 1) }.record
        (.enrolled request.number admission (s.offer.map OfferFile.generation))).done request .enrolled
    else s.done request .crashed
  | _ => s

/-- `burrows.json` edited by hand, once it is there. -/
def editBurrows (s : EnrollRelay) (rows : Nat) : EnrollRelay :=
  { s with burrows := s.burrows.map fun _ => rows }

end EnrollRelay

/-! ### Runs -/

inductive EnrollAct
  | publish (text : JsString)
  | request (credential : EnrollCredential)
  | takeMutex
  | existsAnswered (stats : Bool)
  | offerInvalidated (name : JsString) (renames : Bool)
  | offerRead (reads : Bool) (now : Ms)
  | offerClaimed (name : JsString) (renames : Bool)
  | claimRead (reads : Bool)
  | claimReleased
  | claimUnlinked (unlinks : Bool)
  | burrowsListed (reads : Bool)
  | burrowWritten (writes : Bool)
  | editBurrows (rows : Nat)

namespace EnrollRelay

variable (config : EnrollConfig)

def perform (s : EnrollRelay) : EnrollAct → EnrollRelay
  | .publish text => s.publish text
  | .request credential => s.enqueue credential
  | .takeMutex => s.takeMutex
  | .existsAnswered stats => s.existsAnswered config stats
  | .offerInvalidated name renames => s.offerInvalidated name renames
  | .offerRead reads now => s.offerRead config reads now
  | .offerClaimed name renames => s.offerClaimed name renames
  | .claimRead reads => s.claimRead config reads
  | .claimReleased => s.claimReleased
  | .claimUnlinked unlinks => s.claimUnlinked unlinks
  | .burrowsListed reads => s.burrowsListed reads
  | .burrowWritten writes => s.burrowWritten writes
  | .editBurrows rows => s.editBurrows rows

/-- There is a path to publish at. -/
def Possible : EnrollAct → Prop
  | .publish _ => config.configured = true
  | _ => True

/-- All runs of enrollment. -/
def enrollRuns : System EnrollRelay EnrollAct where
  init s := ∃ burrows, s = fresh burrows
  step s act s' := Possible config act ∧ s' = s.perform config act

end EnrollRelay

end Dormouse.Relay
