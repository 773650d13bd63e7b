import Mathlib.Data.List.Sort
import Dormouse.Burrow.Runtime

/-!
# Dormouse.Relay.PushStore

**Push subscriptions** (`PushSubscriptionStore` in `relay/src/state.ts`): upserting a row,
forgetting a delivery and dropping dead endpoints, over a file that may hold anything.

The store's mutex runs one mutation at a time, so each is one function of the two files it
reads; it throws when one cannot be read or the new one cannot be written.
-/

namespace Dormouse.Relay

open Terminal (Ms)
open Burrow (isE2eId)

/-! ### State files -/

/-- A file of the state directory; `unreadable` also stands for bytes that are not JSON. -/
inductive StateFile
  | absent
  | unreadable
  | holds (value : Json)

namespace StateFile

/-- Read and parse the file, or `none` if it is not there; it throws on an unreadable one. -/
def readIfPresent : StateFile → Except Unit (Option Json)
  | absent => .ok none
  | unreadable => .error ()
  | holds .null => .ok none
  | holds value => .ok (some value)

end StateFile

/-- Whether a row of `burrows.json` is an enrollment. -/
def isStoredBurrow (row : Json) : Bool :=
  ((row.stringField (js "burrowId")).any isE2eId) &&
    (row.stringField (js "burrowToken")).isSome && (row.numberField (js "enrolledAt")).isSome

/-- The enrolled Burrows' ids, or `none` when `burrows.json` is not there at all. -/
def enrolledIfPresent (burrows : StateFile) : Except Unit (Option (List JsString)) := do
  match ← burrows.readIfPresent with
  | none => pure none
  | some (.array rows) =>
    pure (some ((rows.filter isStoredBurrow).filterMap (·.stringField (js "burrowId"))))
  | some _ => pure (some [])

/-! ### Rows -/

def isPushKeys (keys : Json) : Bool :=
  (keys.stringField (js "p256dh")).isSome && (keys.stringField (js "auth")).isSome

/-- Whether an on-disk row is a subscription this Relay can use. -/
def isStoredPushSubscription (row : Json) : Bool :=
  (row.stringField (js "burrowId")).isSome && (row.stringField (js "deliveryId")).isSome &&
    (row.stringField (js "endpoint")).isSome && ((row.field (js "keys")).any isPushKeys) &&
    (row.stringField (js "vapidPublicKey")).isSome && (row.numberField (js "subscribedAt")).isSome

/-- A row of `push-subscriptions.json`, with whatever else the file has in it. -/
structure StoredPushSubscription where
  row : Json
  stored : isStoredPushSubscription row = true

namespace StoredPushSubscription

def burrowId (s : StoredPushSubscription) : JsString :=
  (s.row.stringField (js "burrowId")).getD []

def deliveryId (s : StoredPushSubscription) : JsString :=
  (s.row.stringField (js "deliveryId")).getD []

def endpoint (s : StoredPushSubscription) : JsString :=
  (s.row.stringField (js "endpoint")).getD []

def vapidPublicKey (s : StoredPushSubscription) : JsString :=
  (s.row.stringField (js "vapidPublicKey")).getD []

def subscribedAt (s : StoredPushSubscription) : Ms :=
  (s.row.numberField (js "subscribedAt")).getD 0

def ofJson (row : Json) : Option StoredPushSubscription :=
  if h : isStoredPushSubscription row = true then some ⟨row, h⟩ else none

end StoredPushSubscription

/-- What `upsert` is given: a subscription without its `subscribedAt`. -/
structure PushRecord where
  burrowId : JsString
  deliveryId : JsString
  endpoint : JsString
  keys : Json
  vapidPublicKey : JsString
  isKeys : isPushKeys keys = true

/-- The row that a record is stored as. -/
def PushRecord.toRow (record : PushRecord) (now : Ms) : Json :=
  .object [(js "burrowId", .string record.burrowId), (js "deliveryId", .string record.deliveryId),
    (js "endpoint", .string record.endpoint), (js "keys", record.keys),
    (js "vapidPublicKey", .string record.vapidPublicKey), (js "subscribedAt", .number now)]

theorem PushRecord.isStored_toRow (record : PushRecord) (now : Ms) :
    isStoredPushSubscription (record.toRow now) = true := by
  have hkeys : (record.toRow now).field (js "keys") = some record.keys := rfl
  rw [isStoredPushSubscription, hkeys, Option.any_some, record.isKeys]
  rfl

def PushRecord.store (record : PushRecord) (now : Ms) : StoredPushSubscription :=
  ⟨record.toRow now, record.isStored_toRow now⟩

/-! ### The caps -/

def maxPushSubscriptionsPerBurrow : Nat := 32

def maxPushSubscriptionsTotal : Nat := 256

/-- The counters of `capSubscriptions`; a row is known by its place. -/
structure PushCounts where
  perBurrow : InsertionMap JsString Nat
  total : Nat
  dropped : List Nat

namespace PushCounts

def forBurrow (c : PushCounts) (burrowId : JsString) : Nat := (c.perBurrow.get burrowId).getD 0

/-- The loop over the rows, oldest first; the row at `keep` is skipped. -/
def evict (keep : Nat) : List (StoredPushSubscription × Nat) → PushCounts → PushCounts
  | [], c => c
  | (row, i) :: rest, c =>
    if i = keep then evict keep rest c
    else if c.total ≤ maxPushSubscriptionsTotal ∧
        c.forBurrow row.burrowId ≤ maxPushSubscriptionsPerBurrow then
      evict keep rest c
    else
      evict keep rest
        { perBurrow := c.perBurrow.set row.burrowId (c.forBurrow row.burrowId - 1)
          total := c.total - 1
          dropped := i :: c.dropped }

end PushCounts

/-- How many rows each Burrow has. -/
def countPerBurrow (rows : List StoredPushSubscription) : InsertionMap JsString Nat :=
  rows.foldl (fun counts row => counts.set row.burrowId ((counts.get row.burrowId).getD 0 + 1))
    .empty

/-- Drop the oldest rows until both caps hold, never `keep`. -/
def capSubscriptions (rows : List StoredPushSubscription) (keep : StoredPushSubscription) :
    List StoredPushSubscription :=
  let all := rows ++ [keep]
  if all.length ≤ maxPushSubscriptionsPerBurrow then all
  else
    let oldestFirst := all.zipIdx.mergeSort fun a b => a.1.subscribedAt ≤ b.1.subscribedAt
    let counts := PushCounts.evict rows.length oldestFirst ⟨countPerBurrow all, all.length, []⟩
    (all.zipIdx.filter fun e => e.2 ∉ counts.dropped).map Prod.fst

/-! ### The store -/

/-- The files the store reads: its own and `burrows.json`. -/
structure PushFiles where
  subscriptions : StateFile
  burrows : StateFile

structure PushSubscriptionUpsertResult where
  subscription : StoredPushSubscription
  endpointBurrowIds : List JsString

namespace PushFiles

/-- What the file has for rows; none when it holds anything but an array. -/
def rows (s : PushFiles) : List Json :=
  match s.subscriptions with
  | .holds (.array rows) => rows
  | _ => []

/-- The rows this Relay can act on. -/
def list (s : PushFiles) : Except Unit (List StoredPushSubscription) := do
  match (← s.subscriptions.readIfPresent).getD (.array []) with
  | .array rows =>
    let kept := rows.filterMap StoredPushSubscription.ofJson
    match ← enrolledIfPresent s.burrows with
    -- An absent `burrows.json` is not an empty one.
    | none => pure kept
    | some enrolled => pure (kept.filter fun s => enrolled.contains s.burrowId)
  | _ => pure []

/-- Overwrite the whole file; nothing changes when that fails. -/
def writeAtomic (s : PushFiles) (rows : List StoredPushSubscription) (writes : Bool) :
    Except Unit PushFiles :=
  if writes then .ok { s with subscriptions := .holds (.array (rows.map (·.row))) } else .error ()

def upsert (s : PushFiles) (record : PushRecord) (now : Ms) (writes : Bool) :
    Except Unit (PushFiles × PushSubscriptionUpsertResult) := do
  let all ← s.list
  let stored := record.store now
  let replacedEndpoints := (all.filter fun s =>
    s.deliveryId = record.deliveryId ∧ s.endpoint ≠ record.endpoint).map (·.endpoint)
  let kept := capSubscriptions
    (all.filter fun s => ¬ (s.burrowId = record.burrowId ∧ s.deliveryId = record.deliveryId) ∧
      s.endpoint ∉ replacedEndpoints) stored
  let s ← s.writeAtomic kept writes
  let endpointBurrowIds := ((kept.filter fun s =>
    s.endpoint = record.endpoint ∧ s.vapidPublicKey = record.vapidPublicKey).foldl
      (fun ids s => ids.set s.burrowId ()) InsertionMap.empty).keys
  pure (s, ⟨stored, endpointBurrowIds⟩)

/-- Forget every row carrying `deliveryId`, across Burrows. -/
def removeDelivery (s : PushFiles) (deliveryId : JsString) (writes : Bool) :
    Except Unit (PushFiles × Nat) := do
  let all ← s.list
  let kept := all.filter fun s => s.deliveryId ≠ deliveryId
  if kept.length = all.length then pure (s, 0)
  else
    let s ← s.writeAtomic kept writes
    pure (s, all.length - kept.length)

/-- Drop subscriptions the push service reported as gone. -/
def removeEndpoints (s : PushFiles) (endpoints : List JsString) (writes : Bool) :
    Except Unit (PushFiles × Nat) := do
  let all ← s.list
  let kept := all.filter fun s => s.endpoint ∉ endpoints
  if kept.length = all.length then pure (s, 0)
  else
    let s ← s.writeAtomic kept writes
    pure (s, all.length - kept.length)

end PushFiles

/-! ### Runs -/

/-- The store's mutations, and the edits of `burrows.json` that come between them. -/
inductive PushAct
  | upsert (record : PushRecord) (now : Ms) (writes : Bool)
  | removeDelivery (deliveryId : JsString) (writes : Bool)
  | removeEndpoints (endpoints : List JsString) (writes : Bool)
  | editBurrows (burrows : StateFile)

namespace PushFiles

/-- A mutation that throws leaves the files as they are. -/
def perform (s : PushFiles) : PushAct → PushFiles
  | .upsert record now writes => match s.upsert record now writes with
    | .ok (s', _) => s'
    | .error () => s
  | .removeDelivery deliveryId writes => match s.removeDelivery deliveryId writes with
    | .ok (s', _) => s'
    | .error () => s
  | .removeEndpoints endpoints writes => match s.removeEndpoints endpoints writes with
    | .ok (s', _) => s'
    | .error () => s
  | .editBurrows burrows => { s with burrows := burrows }

/-- All runs of the store, from any content of either file. -/
def pushRuns : System PushFiles PushAct where
  init _ := True
  step s act s' := s' = s.perform act

end PushFiles

end Dormouse.Relay
