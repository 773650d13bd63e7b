import Dormouse.Lib.InsertionMap
import Dormouse.Lib.Json
import Dormouse.Lath.Canonical

/-!
# Dormouse.Lath.Persistence

The **persisted layout** (`lib/src/lib/lath/persistence.ts`) and the structural check of a
tree that comes from outside (`validate` of `lib/src/lib/lath/model.ts`).

A value read back is a JSON value, in which no two places share an object; so the repeated
node that `validate` also looks for is not there to find. Its messages are constructors.
-/

namespace Dormouse.Lath

/-- Per-leaf presentation metadata. -/
structure LeafMeta where
  component : JsString
  tabComponent : JsString
  title : JsString
  params : Option (InsertionMap JsString Json)

structure LathPersistedLayout where
  version : Nat
  tree : LathTree
  leafMeta : InsertionMap LeafId LeafMeta

/-- `record[id] = value` on a plain object: the one name that is an accessor of every object
sets the prototype and adds no entry. -/
def assign {ν : Type} (record : InsertionMap LeafId ν) (id : LeafId) (value : ν) :
    InsertionMap LeafId ν :=
  if id = "__proto__" then record else record.set id value

/-- The layout of a snapshot: its tree, and the metadata of the leaves the tree places. -/
def lathLayoutFromStore (tree : LathTree) (leafMeta : InsertionMap LeafId LeafMeta) :
    LathPersistedLayout :=
  { version := 1
    tree := tree
    leafMeta := (leaves tree).foldl (fun record id =>
      match leafMeta.get id with
      | some m => assign record id m
      | none => record) .empty }

/-! ### As values -/

def Dir.toJson : Dir → Json
  | .row => .string (js "row")
  | .col => .string (js "col")

mutual
def LathNode.toJson : LathNode → Json
  | .leaf id => .object [(js "kind", .string (js "leaf")), (js "id", .string (js id))]
  | .split dir children =>
    .object [(js "kind", .string (js "split")), (js "dir", dir.toJson),
      (js "children", .array (childrenToJson children))]
def childrenToJson : List LathChild → List Json
  | [] => []
  | c :: cs =>
    .object [(js "node", c.node.toJson), (js "weight", .number c.weight)] :: childrenToJson cs
end

def LathTree.toJson (tree : LathTree) : Json :=
  .object [(js "root", (tree.root.map LathNode.toJson).getD .null)]

def LeafMeta.toJson (m : LeafMeta) : Json :=
  .object ([(js "component", .string m.component), (js "tabComponent", .string m.tabComponent),
    (js "title", .string m.title)] ++
      (m.params.map fun params => (js "params", Json.object params.entries)).toList)

def LathPersistedLayout.toJson (layout : LathPersistedLayout) : Json :=
  .object [(js "version", .number layout.version), (js "tree", layout.tree.toJson),
    (js "leafMeta", .object (layout.leafMeta.entries.map fun e => (js e.1, e.2.toJson)))]

/-! ### Checking a tree -/

inductive ValidateError
  | noRoot
  | invalidNode (path : List Nat)
  | invalidLeafId (path : List Nat)
  | duplicateLeafId (id : JsString) (path : List Nat)
  | invalidSplit (path : List Nat)
  | sameDirection (path : List Nat) (dir : Dir)
  | tooFewChildren (path : List Nat) (count : Nat)
  | invalidChild (path : List Nat) (child : Nat)
  | invalidWeight (path : List Nat) (child : Nat)
  | invalidSum (path : List Nat) (sum : ℚ)

/-- A node still to be looked at; `node` is `none` where the field is not there. -/
structure PendingNode where
  node : Option Json
  path : List Nat
  parentDir : Option Dir

/-- What looking at one node finds. -/
structure NodeReport where
  errors : List ValidateError
  pushed : List PendingNode
  seenIds : List JsString

def readDir (node : Json) : Option Dir :=
  if node.stringField (js "dir") = some (js "row") then some .row
  else if node.stringField (js "dir") = some (js "col") then some .col
  else none

/-- The positive number a weight is, when it is one. -/
def readWeight (child : Json) : Option ℚ :=
  match child.field (js "weight") with
  | some (.number w) => if 0 < w then some w else none
  | _ => none

/-- The children of a split from child `i` on: their errors, the sum of their weights, and
their nodes. -/
def validateChildren (path : List Nat) (dir : Dir) :
    Nat → List Json → List ValidateError × ℚ × List PendingNode
  | _, [] => ([], 0, [])
  | i, child :: children =>
    let (errors, sum, pushed) := validateChildren path dir (i + 1) children
    if child.isRecord then
      let node := ⟨child.field (js "node"), path ++ [i], some dir⟩
      match readWeight child with
      | some w => (errors, w + sum, node :: pushed)
      | none => (.invalidWeight path i :: errors, sum, node :: pushed)
    else (.invalidChild path i :: errors, sum, pushed)

def validateSplit (path : List Nat) (parentDir : Option Dir) (dir : Dir) (children : List Json)
    (seenIds : List JsString) : NodeReport :=
  let (errors, sum, pushed) := validateChildren path dir 0 children
  { errors :=
      (if parentDir = some dir then [.sameDirection path dir] else []) ++
        (if children.length < 2 then [.tooFewChildren path children.length] else []) ++
        errors ++
        (if 0 < children.length ∧ validateTol < |sum - 1| then [.invalidSum path sum] else [])
    pushed := pushed
    seenIds := seenIds }

def validateNode (p : PendingNode) (seenIds : List JsString) : NodeReport :=
  match p.node with
  | some (.object fields) =>
    let node := Json.object fields
    if node.stringField (js "kind") = some (js "leaf") then
      match node.stringField (js "id") with
      | none => ⟨[.invalidLeafId p.path], [], seenIds⟩
      | some id =>
        ⟨if id ∈ seenIds then [.duplicateLeafId id p.path] else [], [], id :: seenIds⟩
    else if node.stringField (js "kind") = some (js "split") then
      match readDir node, node.field (js "children") with
      | some dir, some (.array children) =>
        validateSplit p.path p.parentDir dir children seenIds
      | _, _ => ⟨[.invalidSplit p.path], [], seenIds⟩
    else ⟨[.invalidSplit p.path], [], seenIds⟩
  | _ => ⟨[.invalidNode p.path], [], seenIds⟩

/-- What is left to look at. -/
def PendingNode.size (p : PendingNode) : Nat := 1 + (p.node.map Json.size).getD 0

theorem validateChildren_pushed (path : List Nat) (dir : Dir) (children : List Json) :
    ∀ i, (((validateChildren path dir i children).2.2).map PendingNode.size).sum ≤
      Json.sizes children := by
  induction children with
  | nil => exact fun _ => Nat.le_refl _
  | cons child children ih =>
    intro i
    have hrest := ih (i + 1)
    have hchild : ∀ node, child.isRecord = true → node = child.field (js "node") →
        1 + (node.map Json.size).getD 0 ≤ child.size := by
      intro node hrecord hnode
      cases hfield : child.field (js "node") with
      | none =>
        rw [hnode, hfield]
        exact child.size_pos
      | some part =>
        have hlt := Json.size_field_lt hfield
        rw [hnode, hfield, Option.map_some, Option.getD_some]
        omega
    rw [validateChildren, Json.sizes]
    dsimp only
    split
    · next hrecord =>
        have hle := hchild _ hrecord rfl
        split <;>
          · rw [List.map_cons, List.sum_cons]
            exact Nat.add_le_add hle hrest
    · exact hrest.trans (Nat.le_add_left _ _)

theorem validateNode_pushed (p : PendingNode) (seenIds : List JsString) :
    (((validateNode p seenIds).pushed).map PendingNode.size).sum < p.size := by
  have hpos : 0 < p.size := Nat.lt_of_lt_of_le Nat.zero_lt_one (Nat.le_add_right _ _)
  unfold validateNode
  split
  · next fields hnode =>
      dsimp only
      split
      · split <;> exact hpos
      split
      · split
        · next dir children hdir hchildren =>
            have hlt := Json.size_field_lt hchildren
            have hpushed := validateChildren_pushed p.path dir children 0
            show (((validateChildren p.path dir 0 children).2.2).map PendingNode.size).sum < _
            rw [PendingNode.size, hnode, Option.map_some, Option.getD_some]
            rw [Json.size] at hlt
            omega
        · exact hpos
      · exact hpos
  · exact hpos

/-- The work list, its top first: what a node pushed last is looked at next. -/
def validateFrom (pending : List PendingNode) (seenIds : List JsString) : List ValidateError :=
  match pending with
  | [] => []
  | p :: pending =>
    (validateNode p seenIds).errors ++
      validateFrom ((validateNode p seenIds).pushed.reverse ++ pending)
        (validateNode p seenIds).seenIds
termination_by (pending.map PendingNode.size).sum
decreasing_by
  have hlt := validateNode_pushed p seenIds
  simp only [List.map_append, List.sum_append, List.map_reverse, List.sum_reverse, List.map_cons,
    List.sum_cons]
  omega

/-- Every structural violation of a tree; `[]` means valid. -/
def validate (tree : Json) : List ValidateError :=
  match tree.field (js "root") with
  | none => [.noRoot]
  | some .null => []
  | some root => validateFrom [⟨some root, [], none⟩] []

/-! ### Checking a layout -/

/-- Pre-order leaf ids of the nodes of a checked tree. -/
def leavesFrom (nodes : List Json) : List JsString :=
  match nodes with
  | [] => []
  | node :: nodes =>
    if node.stringField (js "kind") = some (js "leaf") then
      (node.stringField (js "id")).toList ++ leavesFrom nodes
    else
      match h : node.field (js "children") with
      | some (.array children) =>
        leavesFrom (children.filterMap (·.field (js "node")) ++ nodes)
      | _ => leavesFrom nodes
termination_by Json.sizes nodes
decreasing_by
  · have hpos := node.size_pos
    rw [Json.sizes]
    omega
  · have hlt := Json.size_field_lt h
    have hle := Json.sizes_filterMap_field (js "node") children
    rw [Json.size] at hlt
    rw [Json.sizes_append, Json.sizes]
    omega
  · have hpos := node.size_pos
    rw [Json.sizes]
    omega

/-- Pre-order leaf ids of a checked tree. -/
def leavesOfJson (tree : Json) : List JsString :=
  match tree.field (js "root") with
  | some root => leavesFrom [root]
  | none => []

/-- `meta` as the reader of a layout accepts it. -/
def isLeafMeta (value : Json) : Bool :=
  value.isRecord && (value.stringField (js "component")).isSome &&
    (value.stringField (js "tabComponent")).isSome && (value.stringField (js "title")).isSome &&
    (value.field (js "params")).all Json.isRecord

/-- Validate the whole layout at the read boundary. -/
def isLathPersistedLayout (blob : Json) : Bool :=
  match blob.field (js "version"), blob.field (js "tree"), blob.field (js "leafMeta") with
  | some (.number version), some tree, some (.object entries) =>
    if version = 1 ∧ validate tree = [] then
      let ids := leavesOfJson tree
      decide (entries.length = ids.toFinset.card) &&
        entries.all fun e => decide (e.1 ∈ ids) && isLeafMeta e.2
    else false
  | _, _, _ => false

end Dormouse.Lath
