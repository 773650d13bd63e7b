import Dormouse.Lath.Animator
import Dormouse.Lath.Ops
import Dormouse.Lath.Persistence
import Dormouse.Lib.Transition

/-!
# Dormouse.Lath.WallStore

The **wall store** (`lib/src/components/wall/lath-wall-store.ts`): the snapshot that every
view renders from, and the mutators, each of which applies one tree operation and commits
once or not at all.

A commit is the last thing a mutator does, so a listener that calls back finds a store
between two mutators; listeners are left out. Two snapshots of one store are the same
object exactly when their revisions agree.
-/

namespace Dormouse.Lath

/-- The other side. -/
def oppositeEdge : Edge → Edge
  | .left => .right
  | .right => .left
  | .top => .bottom
  | .bottom => .top

/-- An immutable view of the store. `parked` holds mounted detached leaves in eviction order,
with the rect each held. -/
structure LathWallSnapshot where
  tree : LathTree
  leafMeta : InsertionMap LeafId LeafMeta
  parked : InsertionMap LeafId (Option Rect)
  zoomedId : Option LeafId
  revision : Nat

/-- Cap of live parked documents. -/
def MAX_PARKED_SURFACES : Nat := 8

/-- Beside `refId` on `edge`. -/
structure AddLeafPosition where
  refId : LeafId
  edge : Edge

/-- The geometry last reported and the pending enter hints are not part of a snapshot. -/
structure LathWallStore where
  snapshot : LathWallSnapshot
  geometry : Option (Rect × LayoutOpts)
  enterHints : InsertionMap LeafId EnterFrom

namespace LathWallStore

def create : LathWallStore where
  snapshot :=
    { tree := ⟨none⟩
      leafMeta := .empty
      parked := .empty
      zoomedId := none
      revision := 0 }
  geometry := none
  enterHints := .empty

/-! ### Helpers -/

/-- Publish a new snapshot. -/
def commit (s : LathWallStore) (next : LathWallSnapshot) : LathWallStore :=
  { s with snapshot := { next with revision := s.snapshot.revision + 1 } }

/-- A hint from the edge a mutator committed, unless one is already there. -/
def deriveEnterHint (s : LathWallStore) (id : LeafId) (placementEdge : Edge) : LathWallStore :=
  if s.enterHints.has id then s
  else { s with enterHints := s.enterHints.set id (.edge (oppositeEdge placementEdge)) }

/-- What leaves re-entering the tree owe: each stops being parked, and enters from the rect
it held. The parked map is the committed one with the ids taken out. -/
def admitLeaves : List LeafId → LathWallStore → InsertionMap LeafId (Option Rect) →
    LathWallStore × InsertionMap LeafId (Option Rect)
  | [], s, parked => (s, parked)
  | id :: ids, s, parked =>
    match parked.get id with
    | none => admitLeaves ids s parked
    | some (some held) =>
      admitLeaves ids { s with enterHints := s.enterHints.set id (.rect held) } (parked.delete id)
    | some none =>
      admitLeaves ids { s with enterHints := s.enterHints.delete id } (parked.delete id)

/-- Drop the oldest parked leaves while there are too many. -/
def evictOldest : List LeafId → InsertionMap LeafId (Option Rect) →
    InsertionMap LeafId (Option Rect)
  | [], p => p
  | oldest :: keys, p =>
    if p.size ≤ MAX_PARKED_SURFACES then p else evictOldest keys (p.delete oldest)

def parkedWith (s : LathWallStore) (id : LeafId) (rect : Option Rect) :
    InsertionMap LeafId (Option Rect) :=
  let p := s.snapshot.parked.set id rect
  evictOldest p.keys p

/-- Where a leaf sits under the last reported geometry. -/
def leafRect (s : LathWallStore) (id : LeafId) : Option Rect :=
  match s.geometry, findLeafPath s.snapshot.tree id with
  | some (rect, opts), some path => nodeRectAtPath s.snapshot.tree rect opts path
  | _, _ => none

/-- The commit of a leaf that enters the tree `tree` with its metadata. -/
def place (s : LathWallStore) (tree : LathTree) (id : LeafId) (m : LeafMeta) : LathWallStore :=
  let (s, parked) := admitLeaves [id] s s.snapshot.parked
  s.commit
    { s.snapshot with tree := tree, leafMeta := s.snapshot.leafMeta.set id m, parked := parked }

/-! ### Mutators -/

/-- Replace the tree and the metadata wholesale; parked leaves keep theirs, and stay parked
unless the new tree places them. -/
def seed (s : LathWallStore) (tree : LathTree) (leafMeta : List (LeafId × LeafMeta)) :
    LathWallStore :=
  let kept := s.snapshot.parked.keys.foldl (fun next id =>
    match s.snapshot.leafMeta.get id with
    | some held => next.set id held
    | none => next) .empty
  let next := leafMeta.foldl (fun next e => next.set e.1 e.2) kept
  let (s, parked) := admitLeaves (leaves tree) s s.snapshot.parked
  s.commit
    { s.snapshot with tree := tree, leafMeta := next, parked := parked, zoomedId := none }

/-- Where a new leaf goes: at its position when the reference is there, else beside the
last leaf. -/
def placement (s : LathWallStore) (position : Option AddLeafPosition) : Option (LeafId × Edge) :=
  let beside := (leaves s.snapshot.tree).getLast?.map fun refId =>
    (refId, match s.geometry with
      | some (rect, opts) => autoEdge s.snapshot.tree rect refId opts
      | none => .right)
  match position with
  | some position =>
    if (findLeafPath s.snapshot.tree position.refId).isSome then
      some (position.refId, position.edge)
    else beside
  | none => beside

def addLeaf (s : LathWallStore) (id : LeafId) (m : LeafMeta) (position : Option AddLeafPosition) :
    LathWallStore × Bool :=
  if s.snapshot.tree.root.isNone then (s.place (leafTree id) id m, true)
  else
    match s.placement position with
    | none => (s, false)
    | some (refId, edge) =>
      let r := split s.snapshot.tree refId edge id
      if r.ok then ((s.deriveEnterHint id edge).place r.tree id m, true) else (s, false)

/-- The shared body of `removeLeaf` and `doorLeaf`. -/
def detachLeaf (s : LathWallStore) (id : LeafId) (keepMeta park : Bool) :
    LathWallStore × Bool × Option RestoreToken :=
  let r := remove s.snapshot.tree id
  if r.ok then
    let leafMeta := if keepMeta then s.snapshot.leafMeta else s.snapshot.leafMeta.delete id
    (s.commit
      { s.snapshot with
        tree := r.tree
        leafMeta := leafMeta
        parked := if park ∧ leafMeta.has id then s.parkedWith id (s.leafRect id)
          else s.snapshot.parked
        zoomedId := if s.snapshot.zoomedId = some id then none else s.snapshot.zoomedId },
      true, r.token)
  else (s, false, none)

def removeLeaf (s : LathWallStore) (id : LeafId) : LathWallStore × Bool × Option RestoreToken :=
  s.detachLeaf id false false

def doorLeaf (s : LathWallStore) (id : LeafId) (park : Bool) :
    LathWallStore × Bool × Option RestoreToken :=
  s.detachLeaf id true park

def addDoor (s : LathWallStore) (id : LeafId) (m : LeafMeta) : LathWallStore :=
  if s.snapshot.leafMeta.has id then s
  else s.commit { s.snapshot with leafMeta := s.snapshot.leafMeta.set id m }

def forgetLeaf (s : LathWallStore) (id : LeafId) : LathWallStore :=
  if (findLeafPath s.snapshot.tree id).isSome then s
  else if s.snapshot.leafMeta.has id ∨ s.snapshot.parked.has id then
    let s := { s with enterHints := s.enterHints.delete id }
    s.commit
      { s.snapshot with
        leafMeta := s.snapshot.leafMeta.delete id
        parked := s.snapshot.parked.delete id }
  else s

def replaceLeaf (s : LathWallStore) (oldId newId : LeafId) (m : LeafMeta) : LathWallStore × Bool :=
  let r := replace s.snapshot.tree oldId newId
  if r.ok then
    let leafMeta := (s.snapshot.leafMeta.delete oldId).set newId m
    let (s, parked) := admitLeaves [newId] s s.snapshot.parked
    (s.commit
      { s.snapshot with
        tree := r.tree
        leafMeta := leafMeta
        parked := parked
        zoomedId := if s.snapshot.zoomedId = some oldId then some newId else s.snapshot.zoomedId },
      true)
  else (s, false)

def restoreLeaf (s : LathWallStore) (m : LeafMeta) (token : RestoreToken)
    (fallbackRef : Option LeafId) : LathWallStore × Bool × Option RestoreTier :=
  let r := restore s.snapshot.tree token
    { fallbackRef := fallbackRef
      rect := s.geometry.map Prod.fst
      layoutOpts := s.geometry.map Prod.snd }
  if r.ok then
    ((s.deriveEnterHint token.leafId token.edge).place r.tree token.leafId m, true, r.tier)
  else (s, false, r.tier)

def swapLeaves (s : LathWallStore) (a b : LeafId) : LathWallStore × Bool :=
  let r := swap s.snapshot.tree a b
  if r.ok then (s.commit { s.snapshot with tree := r.tree }, true) else (s, false)

def moveLeaf (s : LathWallStore) (id : LeafId) (target : DropTarget) : LathWallStore × Bool :=
  let r := move s.snapshot.tree id target
  if r.ok then (s.commit { s.snapshot with tree := r.tree }, true) else (s, false)

def insertLeaf (s : LathWallStore) (id : LeafId) (m : LeafMeta) (target : DropTarget) :
    LathWallStore × Bool :=
  let r := insert s.snapshot.tree id target defaultInsertWeight
  if r.ok then
    let s := match target with
      | .edge _ edge => s.deriveEnterHint id edge
      | .swap _ => s
    (s.place r.tree id m, true)
  else (s, false)

def resizeBoundary (s : LathWallStore) (splitPath : List Nat) (boundary : ℤ) (deltaPx : ℚ) :
    LathWallStore × Bool :=
  match s.geometry with
  | none => (s, false)
  | some (rect, opts) =>
    let r := resize s.snapshot.tree splitPath boundary deltaPx rect opts
    if r.ok then (s.commit { s.snapshot with tree := r.tree }, true) else (s, false)

def setTitle (s : LathWallStore) (id : LeafId) (title : JsString) : LathWallStore :=
  match s.snapshot.leafMeta.get id with
  | none => s
  | some cur =>
    if cur.title = title then s
    else
      s.commit { s.snapshot with
        leafMeta := s.snapshot.leafMeta.set id { cur with title := title } }

/-- `{ ...(cur.params ?? {}), ...patch }`. -/
def updateParams (s : LathWallStore) (id : LeafId) (patch : InsertionMap JsString Json) :
    LathWallStore :=
  match s.snapshot.leafMeta.get id with
  | none => s
  | some cur =>
    let params := patch.entries.foldl (fun params e => params.set e.1 e.2)
      (cur.params.getD .empty)
    s.commit { s.snapshot with
      leafMeta := s.snapshot.leafMeta.set id { cur with params := some params } }

def setZoomed (s : LathWallStore) (id : Option LeafId) : LathWallStore :=
  if s.snapshot.zoomedId = id then s else s.commit { s.snapshot with zoomedId := id }

/-- A measurement without area is not taken. -/
def setLayoutGeometry (s : LathWallStore) (rect : Rect) (opts : LayoutOpts) : LathWallStore :=
  if rect.width ≤ 0 ∨ rect.height ≤ 0 then s else { s with geometry := some (rect, opts) }

def setEnterHint (s : LathWallStore) (id : LeafId) (enterFrom : EnterFrom) : LathWallStore :=
  { s with enterHints := s.enterHints.set id enterFrom }

def consumeEnterHints (s : LathWallStore) : LathWallStore × InsertionMap LeafId EnterFrom :=
  ({ s with enterHints := .empty }, s.enterHints)

/-! ### Runs -/

/-- One call of a mutator. -/
inductive Mutator
  | seed (tree : LathTree) (leafMeta : List (LeafId × LeafMeta))
  | addLeaf (id : LeafId) (m : LeafMeta) (position : Option AddLeafPosition)
  | removeLeaf (id : LeafId)
  | doorLeaf (id : LeafId) (park : Bool)
  | addDoor (id : LeafId) (m : LeafMeta)
  | forgetLeaf (id : LeafId)
  | replaceLeaf (oldId newId : LeafId) (m : LeafMeta)
  | restoreLeaf (m : LeafMeta) (token : RestoreToken) (fallbackRef : Option LeafId)
  | swapLeaves (a b : LeafId)
  | moveLeaf (id : LeafId) (target : DropTarget)
  | insertLeaf (id : LeafId) (m : LeafMeta) (target : DropTarget)
  | resizeBoundary (splitPath : List Nat) (boundary : ℤ) (deltaPx : ℚ)
  | setTitle (id : LeafId) (title : JsString)
  | updateParams (id : LeafId) (patch : InsertionMap JsString Json)
  | setZoomed (id : Option LeafId)
  | setLayoutGeometry (rect : Rect) (opts : LayoutOpts)
  | setEnterHint (id : LeafId) (enterFrom : EnterFrom)
  | consumeEnterHints

def answered (r : LathWallStore × Bool) : LathWallStore × Option Bool := (r.1, some r.2)

/-- The call, and its `ok` where it answers one. -/
def perform (s : LathWallStore) : Mutator → LathWallStore × Option Bool
  | .seed tree leafMeta => (s.seed tree leafMeta, none)
  | .addLeaf id m position => answered (s.addLeaf id m position)
  | .removeLeaf id => ((s.removeLeaf id).1, some (s.removeLeaf id).2.1)
  | .doorLeaf id park => ((s.doorLeaf id park).1, some (s.doorLeaf id park).2.1)
  | .addDoor id m => (s.addDoor id m, none)
  | .forgetLeaf id => (s.forgetLeaf id, none)
  | .replaceLeaf oldId newId m => answered (s.replaceLeaf oldId newId m)
  | .restoreLeaf m token fallbackRef =>
    ((s.restoreLeaf m token fallbackRef).1, some (s.restoreLeaf m token fallbackRef).2.1)
  | .swapLeaves a b => answered (s.swapLeaves a b)
  | .moveLeaf id target => answered (s.moveLeaf id target)
  | .insertLeaf id m target => answered (s.insertLeaf id m target)
  | .resizeBoundary splitPath boundary deltaPx =>
    answered (s.resizeBoundary splitPath boundary deltaPx)
  | .setTitle id title => (s.setTitle id title, none)
  | .updateParams id patch => (s.updateParams id patch, none)
  | .setZoomed id => (s.setZoomed id, none)
  | .setLayoutGeometry rect opts => (s.setLayoutGeometry rect opts, none)
  | .setEnterHint id enterFrom => (s.setEnterHint id enterFrom, none)
  | .consumeEnterHints => (s.consumeEnterHints.1, none)

/-- A zoom names a leaf or nothing, and a seed is a valid tree with metadata for its leaves. -/
def Mutator.WellGiven (s : LathWallStore) : Mutator → Prop
  | .setZoomed id => ∀ leaf, id = some leaf → leaf ∈ leaves s.snapshot.tree
  | .seed tree leafMeta =>
    validate tree.toJson = [] ∧ ∀ id ∈ leaves tree, id ∈ leafMeta.map Prod.fst
  | _ => True

end LathWallStore

/-- The runs of one store. -/
def wall : System LathWallStore LathWallStore.Mutator where
  init s := s = .create
  step s op t := op.WellGiven s ∧ t = (s.perform op).1

end Dormouse.Lath
