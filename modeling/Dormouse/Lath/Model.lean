import Mathlib.Data.Rat.Floor
import Mathlib.Data.Finset.Basic
import Mathlib.Algebra.BigOperators.Group.List.Basic

/-!
# Dormouse.Lath.Model

The **split tree** of the tiling engine (`lib/src/lib/lath/model.ts`) and the
constructors every operation builds through.

Weights and coordinates are exact rationals. A child index that names no child
(in the source: out of range, negative or fractional) is one natural number here,
since the source looks all of them up with `children[i]` and treats `undefined`
alike.

The structure fingerprint is the stripped tree itself (`Shape`) rather than its
JSON text: the source only ever compares two fingerprints, and `JSON.stringify`
is injective on the stripped objects it is applied to.
-/

namespace Dormouse.Lath

abbrev LeafId := String

/-- A side of a rectangle: `left`/`right` split the x axis, `top`/`bottom` the y axis. -/
inductive Edge
  | left
  | right
  | top
  | bottom
  deriving DecidableEq, Repr

/-- Direction of a split: a `row` lays its children left→right, a `col` top→bottom. -/
inductive Dir
  | row
  | col
  deriving DecidableEq

structure Rect where
  x : ℚ
  y : ℚ
  width : ℚ
  height : ℚ
  deriving DecidableEq

structure Size where
  width : ℚ
  height : ℚ

/-- Whether two rects match within `eps` on every field. -/
def rectsClose (a b : Rect) (eps : ℚ) : Bool :=
  |a.x - b.x| ≤ eps && |a.y - b.y| ≤ eps &&
    |a.width - b.width| ≤ eps && |a.height - b.height| ≤ eps

/-- Identity of a rect: the four numbers the source spells as `"x,y,w,h"`. -/
def rectKey (r : Rect) : ℚ × ℚ × ℚ × ℚ := (r.x, r.y, r.width, r.height)

/-- A child slot of a split: a node and the share of the split it takes. -/
structure Weighted (α : Type) where
  node : α
  weight : ℚ

inductive LathNode
  | leaf (id : LeafId)
  | split (dir : Dir) (children : List (Weighted LathNode))

abbrev LathChild := Weighted LathNode

/-- `root = none` is the empty Wall. -/
structure LathTree where
  root : Option LathNode

/-- The split axis an edge divides. -/
def edgeAxis : Edge → Dir
  | .left | .right => .row
  | .top | .bottom => .col

/-- Does inserting on `edge` place the new sibling *before* the reference child? -/
def edgeIsBefore : Edge → Bool
  | .left | .top => true
  | .right | .bottom => false

/-- The single-pane Wall. -/
def leafTree (id : LeafId) : LathTree := ⟨some (.leaf id)⟩

/-- Pre-order induction over a tree: a split may assume the statement of each child. -/
@[elab_as_elim, induction_eliminator]
theorem LathNode.induct {motive : LathNode → Prop} (leaf : ∀ id, motive (.leaf id))
    (split : ∀ dir children, (∀ c ∈ children, motive c.node) →
      motive (.split dir children)) : ∀ n, motive n
  | .leaf id => leaf id
  | .split dir children => split dir children (go children)
where
  go : ∀ cs : List LathChild, ∀ c ∈ cs, motive c.node
    | [] => List.forall_mem_nil _
    | c :: cs => List.forall_mem_cons.2 ⟨LathNode.induct leaf split c.node, go cs⟩

/-! ### Leaves and paths -/

mutual
/-- Pre-order leaf ids of a node. -/
def LathNode.leaves : LathNode → List LeafId
  | .leaf id => [id]
  | .split _ children => leavesOf children
/-- Pre-order leaf ids of a child list. -/
def leavesOf : List LathChild → List LeafId
  | [] => []
  | c :: cs => c.node.leaves ++ leavesOf cs
end

/-- Pre-order leaf ids of the tree. -/
def leaves (tree : LathTree) : List LeafId :=
  match tree.root with
  | none => []
  | some root => root.leaves

mutual
/-- Path of the first leaf `id` below a node. -/
def LathNode.findLeafPath (id : LeafId) : LathNode → Option (List Nat)
  | .leaf i => if i = id then some [] else none
  | .split _ children => findLeafPathFrom id 0 children
/-- Path of the first leaf `id` below a child list whose head is child `i`. -/
def findLeafPathFrom (id : LeafId) : Nat → List LathChild → Option (List Nat)
  | _, [] => none
  | i, c :: cs =>
    match c.node.findLeafPath id with
    | some path => some (i :: path)
    | none => findLeafPathFrom id (i + 1) cs
end

/-- Path (child-index chain from the root; the root is `[]`) of the leaf `id`. -/
def findLeafPath (tree : LathTree) (id : LeafId) : Option (List Nat) :=
  tree.root.bind (·.findLeafPath id)

/-- The node at `path` below a node. -/
def LathNode.nodeAtPath : LathNode → List Nat → Option LathNode
  | node, [] => some node
  | .leaf _, _ :: _ => none
  | .split _ children, i :: path =>
    match children[i]? with
    | none => none
    | some child => child.node.nodeAtPath path

/-- The node at `path`, or `none` if the path leaves the tree. -/
def nodeAtPath (tree : LathTree) (path : List Nat) : Option LathNode :=
  tree.root.bind (·.nodeAtPath path)

/-! ### Canonical form -/

/-- Sum of the weights of a child list. -/
def weightSum (children : List LathChild) : ℚ := (children.map (·.weight)).sum

/-- Rescale a child list so its weights sum to 1, preserving proportions; equal
weights if the incoming sum is non-positive. -/
def normalizeWeights (children : List LathChild) : List LathChild :=
  let sum := weightSum children
  if sum ≤ 0 then
    let w : ℚ := if children.length > 0 then 1 / children.length else 0
    children.map fun c => ⟨c.node, w⟩
  else
    children.map fun c => ⟨c.node, c.weight / sum⟩

mutual
/-- Canonicalize a node: flatten same-direction child splits into the parent,
collapse single-child splits, drop empty splits, renormalize each split's weights. -/
def LathNode.normalize : LathNode → Option LathNode
  | .leaf id => some (.leaf id)
  | .split dir children =>
    match collected dir children with
    | [] => none
    | [c] => some c.node
    | cs => some (.split dir (normalizeWeights cs))
/-- The child list `normalize` collects for a split of direction `dir`. -/
def collected (dir : Dir) : List LathChild → List LathChild
  | [] => []
  | c :: cs =>
    match c.node.normalize with
    | none => collected dir cs
    | some (.leaf id) => ⟨.leaf id, c.weight⟩ :: collected dir cs
    | some (.split d gcs) =>
      if d = dir then
        gcs.map (fun gc => ⟨gc.node, gc.weight * c.weight⟩) ++ collected dir cs
      else ⟨.split d gcs, c.weight⟩ :: collected dir cs
end

/-- Replace the subtree at `path` with `replacement`. A path that leaves the tree
returns the subtree reached so far unchanged. -/
def LathNode.replaceAtPath (root : LathNode) (path : List Nat)
    (replacement : LathNode) : LathNode :=
  match path, root with
  | [], _ => replacement
  | _ :: _, .leaf id => .leaf id
  | i :: rest, .split dir children =>
    match children[i]? with
    | none => .split dir children
    | some child =>
      .split dir (children.set i ⟨child.node.replaceAtPath rest replacement, child.weight⟩)

/-! ### Structure fingerprints -/

/-- A tree with its weights stripped. -/
inductive Shape
  | leaf (id : LeafId)
  | split (dir : Dir) (children : List Shape)

mutual
/-- Equality of shapes, which stands for equality of their JSON texts. -/
def Shape.same : Shape → Shape → Bool
  | .leaf a, .leaf b => a == b
  | .split d as, .split e bs => d == e && sameShapes as bs
  | _, _ => false
/-- Pointwise equality of shape lists. -/
def sameShapes : List Shape → List Shape → Bool
  | [], [] => true
  | a :: as, b :: bs => a.same b && sameShapes as bs
  | _, _ => false
end

mutual
/-- Structure-only fingerprint (kinds, dirs, leaf ids) of a node. -/
def structureFingerprint : LathNode → Shape
  | .leaf id => .leaf id
  | .split dir children => .split dir (fingerprints children)
/-- Fingerprints of a child list. -/
def fingerprints : List LathChild → List Shape
  | [] => []
  | c :: cs => structureFingerprint c.node :: fingerprints cs
end

/-! ### First lemmas -/

@[simp] theorem leavesOf_eq (cs : List LathChild) :
    leavesOf cs = cs.flatMap (fun c => c.node.leaves) := by
  induction cs with
  | nil => rfl
  | cons c cs ih => rw [leavesOf, ih, List.flatMap_cons]

@[simp] theorem leaves_leaf (id : LeafId) : (LathNode.leaf id).leaves = [id] := rfl

@[simp] theorem leaves_split (dir : Dir) (cs : List LathChild) :
    (LathNode.split dir cs).leaves = cs.flatMap (fun c => c.node.leaves) := by
  rw [LathNode.leaves, leavesOf_eq]

@[simp] theorem nodeAtPath_nil (n : LathNode) : n.nodeAtPath [] = some n := by
  cases n <;> rfl

@[simp] theorem nodeAtPath_leaf_cons (id : LeafId) (i : Nat) (p : List Nat) :
    (LathNode.leaf id).nodeAtPath (i :: p) = none := rfl

theorem nodeAtPath_split_cons (dir : Dir) (cs : List LathChild) (i : Nat) (p : List Nat) :
    (LathNode.split dir cs).nodeAtPath (i :: p) = cs[i]?.bind (·.node.nodeAtPath p) := by
  rw [LathNode.nodeAtPath]
  cases cs[i]? <;> rfl

@[simp] theorem replaceAtPath_nil (n r : LathNode) : n.replaceAtPath [] r = r := by
  cases n <;> rfl

@[simp] theorem weightSum_nil : weightSum [] = 0 := rfl

@[simp] theorem weightSum_cons (c : LathChild) (cs : List LathChild) :
    weightSum (c :: cs) = c.weight + weightSum cs := by
  simp [weightSum]

@[simp] theorem weightSum_append (as bs : List LathChild) :
    weightSum (as ++ bs) = weightSum as + weightSum bs := by
  simp [weightSum]

end Dormouse.Lath
