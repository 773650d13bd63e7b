import Dormouse.Lath.Layout

/-!
# Dormouse.Lath.Ops

The **tree operations** (`lib/src/lib/lath/ops.ts`): split, remove, restore,
replace, swap, insert, move and resize, with the restore tokens and drop targets
they exchange.

Every operation answers a tree and an `ok` flag. Where the source casts a node it
has just located (`nodeAtPath(...) as SplitNode`), the match below carries a last
branch for the shape the cast excludes; it answers like an invalid input.
-/

namespace Dormouse.Lath

/-- Restore context captured by `remove`. The two sibling fields are absent on
tokens written before the split-subtree restore. -/
structure RestoreToken where
  leafId : LeafId
  weight : ℚ
  siblingId : Option LeafId
  siblingLeafIds : Option (List LeafId)
  siblingFingerprint : Option Shape
  edge : Edge
  index : ℤ
  fingerprint : Option Shape

/-- A resolved drop, produced by hit-testing. -/
inductive DropTarget
  | edge (path : List Nat) (edge : Edge)
  | swap (leaf : LeafId)
  deriving DecidableEq

/-- Answer of an operation. -/
structure OpResult where
  tree : LathTree
  ok : Bool

structure RemoveResult where
  tree : LathTree
  ok : Bool
  token : Option RestoreToken

/-- How faithfully a leaf was restored. -/
inductive RestoreTier
  | exact
  | neighbor
  | fallback
  deriving DecidableEq

structure RestoreResult where
  tree : LathTree
  ok : Bool
  tier : Option RestoreTier

structure RestoreOpts where
  fallbackRef : Option LeafId := none
  rect : Option Rect := none
  layoutOpts : Option LayoutOpts := none

/-! ### Locating a remembered place -/

mutual
/-- Path of the first split, in pre-order, whose fingerprint is `fingerprint`. -/
def LathNode.findSplitPath (fingerprint : Shape) : LathNode → Option (List Nat)
  | .leaf _ => none
  | .split dir children =>
    if (structureFingerprint (.split dir children)).same fingerprint then some []
    else findSplitPathFrom fingerprint 0 children
def findSplitPathFrom (fingerprint : Shape) : Nat → List LathChild → Option (List Nat)
  | _, [] => none
  | i, c :: cs =>
    match c.node.findSplitPath fingerprint with
    | some path => some (i :: path)
    | none => findSplitPathFrom fingerprint (i + 1) cs
end

def findSplitPathByFingerprint (tree : LathTree) (fingerprint : Shape) : Option (List Nat) :=
  tree.root.bind (·.findSplitPath fingerprint)

/-- Set of the leaf ids below a node. -/
def LathNode.leafSet (node : LathNode) : Finset LeafId := node.leaves.toFinset

/-- Keep the shorter of a found path and a new one, the found one on a tie. -/
def shorterPath (result : Option (List Nat)) (path : List Nat) : Option (List Nat) :=
  match result with
  | none => some path
  | some found => if path.length < found.length then some path else some found

mutual
/-- Post-order search for the shallowest node whose leaf set is `target`. -/
def LathNode.walkLeafSet (target : Finset LeafId) :
    LathNode → List Nat → Option (List Nat) → Option (List Nat)
  | .leaf id, path, result =>
    if {id} = target then shorterPath result path else result
  | .split dir children, path, result =>
    let result := walkLeafSets target path 0 children result
    if (LathNode.split dir children).leafSet = target then shorterPath result path else result
def walkLeafSets (target : Finset LeafId) (path : List Nat) :
    Nat → List LathChild → Option (List Nat) → Option (List Nat)
  | _, [], result => result
  | i, c :: cs, result =>
    walkLeafSets target path (i + 1) cs (c.node.walkLeafSet target (path ++ [i]) result)
end

def findPathByLeafSet (tree : LathTree) (target : Finset LeafId) : Option (List Nat) :=
  if target = ∅ then none
  else tree.root.bind fun root => root.walkLeafSet target [] none

/-! ### Operations -/

/-- Insert `newId` beside `at`: a nested half-and-half split in the place of `at`,
flattened by `normalize` where directions match. -/
def split (tree : LathTree) (at_ : LeafId) (edge : Edge) (newId : LeafId) : OpResult :=
  match tree.root, findLeafPath tree at_ with
  | some root, some atPath =>
    if (findLeafPath tree newId).isSome then ⟨tree, false⟩
    else
      let nested : LathNode := .split (edgeAxis edge)
        (if edgeIsBefore edge then [⟨.leaf newId, 1 / 2⟩, ⟨.leaf at_, 1 / 2⟩]
         else [⟨.leaf at_, 1 / 2⟩, ⟨.leaf newId, 1 / 2⟩])
      ⟨⟨(root.replaceAtPath atPath nested).normalize⟩, true⟩
  | _, _ => ⟨tree, false⟩

/-- Edge of the sibling a removed child sat on: after it (`before` its own index) or before it. -/
def siblingEdge (dir : Dir) (before : Bool) : Edge :=
  match dir, before with
  | .row, true => .right
  | .col, true => .bottom
  | .row, false => .left
  | .col, false => .top

/-- Remove a leaf; surviving siblings absorb its weight proportionally. -/
def remove (tree : LathTree) (id : LeafId) : RemoveResult :=
  match tree.root, findLeafPath tree id with
  | some root, some path =>
    match path.getLast? with
    | none => ⟨⟨none⟩, true, some ⟨id, 1, none, none, none, .right, 0, none⟩⟩
    | some idx =>
      let parentPath := path.dropLast
      match nodeAtPath tree parentPath with
      | some (.split dir children) =>
        let before := decide (0 < idx)
        match children[idx]?, children[if before then idx - 1 else idx + 1]? with
        | some child, some sibChild =>
          let newParent : LathNode := .split dir (children.eraseIdx idx)
          let token : RestoreToken :=
            { leafId := id
              weight := child.weight
              siblingId := sibChild.node.leaves.head?
              siblingLeafIds := some sibChild.node.leaves
              siblingFingerprint := some (structureFingerprint sibChild.node)
              edge := siblingEdge dir before
              index := idx
              fingerprint := some (structureFingerprint newParent) }
          ⟨⟨(root.replaceAtPath parentPath newParent).normalize⟩, true, some token⟩
        | _, _ => ⟨tree, false, none⟩
      | _ => ⟨tree, false, none⟩
  | _, _ => ⟨tree, false, none⟩

/-- Replace one leaf id in place. -/
def replace (tree : LathTree) (oldId newId : LeafId) : OpResult :=
  match tree.root, findLeafPath tree oldId with
  | some root, some path =>
    if (findLeafPath tree newId).isSome then ⟨tree, false⟩
    else ⟨⟨some (root.replaceAtPath path (.leaf newId))⟩, true⟩
  | _, _ => ⟨tree, false⟩

/-- Exchange two leaf identities. -/
def swap (tree : LathTree) (a b : LeafId) : OpResult :=
  if a = b then ⟨tree, false⟩
  else
    match tree.root, findLeafPath tree a, findLeafPath tree b with
    | some root, some pa, some pb =>
      ⟨⟨some ((root.replaceAtPath pa (.leaf b)).replaceAtPath pb (.leaf a))⟩, true⟩
    | _, _, _ => ⟨tree, false⟩

/-- A new leaf of weight `w` nested beside a node that keeps the complement. -/
def besideSplit (axis : Dir) (before : Bool) (newLeaf node : LathNode) (w : ℚ) : LathNode :=
  .split axis (if before then [⟨newLeaf, w⟩, ⟨node, 1 - w⟩] else [⟨node, 1 - w⟩, ⟨newLeaf, w⟩])

/-- Insert leaf `newId` beside the node at `targetPath`: as a sibling when the
parent runs along the edge axis, otherwise nested with the target. -/
def insertBesideNode (tree : LathTree) (targetPath : List Nat) (edge : Edge)
    (newId : LeafId) (w : ℚ) : LathTree :=
  let axis := edgeAxis edge
  let before := edgeIsBefore edge
  match tree.root with
  | none => tree
  | some root =>
    match targetPath.getLast? with
    | none => ⟨(besideSplit axis before (.leaf newId) root w).normalize⟩
    | some idx =>
      let parentPath := targetPath.dropLast
      let nestedTree : LathTree :=
        match nodeAtPath tree targetPath with
        | none => tree
        | some targetNode =>
          ⟨(root.replaceAtPath targetPath
            (besideSplit axis before (.leaf newId) targetNode w)).normalize⟩
      match nodeAtPath tree parentPath with
      | some (.split dir children) =>
        if dir = axis then
          let at_ := if before then idx else idx + 1
          let newParent : LathNode :=
            .split axis (normalizeWeights (children.insertIdx at_ ⟨.leaf newId, w⟩))
          ⟨(root.replaceAtPath parentPath newParent).normalize⟩
        else nestedTree
      | _ => nestedTree

/-- Margin that keeps an inserted weight inside `(0, 1)`. -/
def insertEps : ℚ := 1 / 1000000

/-- The weight an omitted argument of `insert` stands for. -/
def defaultInsertWeight : ℚ := 1 / 2

/-- Insert a new leaf beside the node an edge target names. -/
def insert (tree : LathTree) (id : LeafId) (target : DropTarget) (weight : ℚ) : OpResult :=
  match target with
  | .swap _ => ⟨tree, false⟩
  | .edge path edge =>
    if tree.root.isNone then ⟨tree, false⟩
    else if (findLeafPath tree id).isSome then ⟨tree, false⟩
    else if (nodeAtPath tree path).isNone then ⟨tree, false⟩
    else
      let w := min (max weight insertEps) (1 - insertEps)
      ⟨insertBesideNode tree path edge id w, true⟩

/-- The exact tier of `restore`: the fingerprinted parent at `parentPath` takes the
leaf back at its index and weight. -/
def restoreInto (root : LathNode) (parentPath : List Nat) (dir : Dir)
    (children : List LathChild) (token : RestoreToken) : LathTree :=
  let scaled := children.map fun c => (⟨c.node, c.weight * (1 - token.weight)⟩ : LathChild)
  let insertAt := (min (max token.index 0) scaled.length).toNat
  let newParent : LathNode :=
    .split dir (normalizeWeights (scaled.insertIdx insertAt ⟨.leaf token.leafId, token.weight⟩))
  ⟨(root.replaceAtPath parentPath newParent).normalize⟩

/-- The exact tier: through the parent's fingerprint, else through the sibling
subtree the removed parent collapsed into. -/
def restoreExact (tree : LathTree) (root : LathNode) (token : RestoreToken) : Option LathTree :=
  match token.siblingId, token.fingerprint with
  | some _, some fingerprint =>
    match findSplitPathByFingerprint tree fingerprint with
    | some parentPath =>
      match nodeAtPath tree parentPath with
      | some (.split dir children) => some (restoreInto root parentPath dir children token)
      | _ => none
    | none =>
      match token.siblingLeafIds, token.siblingFingerprint with
      | some ids, some siblingFingerprint =>
        if ids.length > 1 then
          match findPathByLeafSet tree ids.toFinset with
          | none => none
          | some siblingPath =>
            match nodeAtPath tree siblingPath with
            | none => none
            | some sibling =>
              if (structureFingerprint sibling).same siblingFingerprint then
                let r := insert tree token.leafId (.edge siblingPath token.edge)
                  token.weight
                if r.ok then some r.tree else none
              else none
        else none
      | _, _ => none
  | _, _ => none

/-- The neighbor tier: split beside the remembered sibling on the original edge. -/
def restoreNeighbor (tree : LathTree) (token : RestoreToken) : Option LathTree :=
  match token.siblingId with
  | none => none
  | some siblingId =>
    if (findLeafPath tree siblingId).isSome then
      let r := split tree siblingId token.edge token.leafId
      if r.ok then some r.tree else none
    else none

/-- Edge the fallback splits on: the widest one where a geometry is given. -/
def fallbackEdge (tree : LathTree) (ref : LeafId) (opts : RestoreOpts) : Edge :=
  match opts.rect, opts.layoutOpts with
  | some rect, some layoutOpts => autoEdge tree rect ref layoutOpts
  | _, _ => .right

/-- The fallback tier: split beside `opts.fallbackRef` (an empty string counts as absent). -/
def restoreFallback (tree : LathTree) (token : RestoreToken) (opts : RestoreOpts) :
    Option LathTree :=
  match opts.fallbackRef with
  | none => none
  | some ref =>
    if ref ≠ "" ∧ (findLeafPath tree ref).isSome then
      let r := split tree ref (fallbackEdge tree ref opts) token.leafId
      if r.ok then some r.tree else none
    else none

/-- Reinsert a removed leaf, best-effort, in three degrading tiers. -/
def restore (tree : LathTree) (token : RestoreToken) (opts : RestoreOpts) : RestoreResult :=
  if (findLeafPath tree token.leafId).isSome then ⟨tree, false, none⟩
  else
    match tree.root with
    | none => ⟨leafTree token.leafId, true, some .fallback⟩
    | some root =>
      match restoreExact tree root token with
      | some t => ⟨t, true, some .exact⟩
      | none =>
        match restoreNeighbor tree token with
        | some t => ⟨t, true, some .neighbor⟩
        | none =>
          match restoreFallback tree token opts with
          | some t => ⟨t, true, some .fallback⟩
          | none => ⟨tree, false, none⟩

/-- Weight a leaf at `idPath` carries into a move: its share of its parent, 1 at the root. -/
def carriedWeight (tree : LathTree) (idPath : List Nat) : ℚ :=
  match idPath.getLast? with
  | none => 1
  | some idx =>
    match nodeAtPath tree idPath.dropLast with
    | some (.split _ children) =>
      match children[idx]? with
      | some child => child.weight
      | none => 1
    | _ => 1

/-- Where a move inserts after the removal: the surviving leaf set of the target,
else the target's first surviving leaf. -/
def moveInsertPath (t2 : LathTree) (id : LeafId) (targetLeaves : List LeafId) :
    Option (List Nat) :=
  match findPathByLeafSet t2 (targetLeaves.filter (· ≠ id)).toFinset with
  | some path => some path
  | none =>
    match targetLeaves.find? (· ≠ id) with
    | some anchor => findLeafPath t2 anchor
    | none => none

/-- Move a leaf to a drop target as one operation. The path is read against the
input tree and re-found after the removal by the target's surviving leaf set. -/
def move (tree : LathTree) (id : LeafId) (target : DropTarget) : OpResult :=
  match target with
  | .swap leaf => swap tree id leaf
  | .edge path edge =>
    match findLeafPath tree id, nodeAtPath tree path with
    | some idPath, some targetNode =>
      let targetLeaves := targetNode.leaves
      if targetLeaves = [id] then ⟨tree, false⟩
      else
        let w := carriedWeight tree idPath
        let t2 := (remove tree id).tree
        match moveInsertPath t2 id targetLeaves with
        | none => ⟨tree, false⟩
        | some insertPath =>
          let r := insert t2 id (.edge insertPath edge) w
          if r.ok then r else ⟨tree, false⟩
    | _, _ => ⟨tree, false⟩

/-- Weight of the first child of the resized pair: the requested one clamped into
the feasible range, then kept strictly inside the pair. -/
def resizedWeight (wa pairSum minA minB delta : ℚ) : ℚ :=
  let lo := minA
  let hi := pairSum - minB
  let newWa :=
    if hi < lo then
      if 0 < minA + minB then pairSum * (minA / (minA + minB)) else pairSum / 2
    else min (max (wa + delta) lo) hi
  let eps := 1 / 10000 * pairSum
  min (max newWa eps) (pairSum - eps)

/-- Adjust the two weights adjacent to `boundary` of the split at `splitPath`. -/
def resize (tree : LathTree) (splitPath : List Nat) (boundary : ℤ) (deltaPx : ℚ)
    (rect : Rect) (opts : LayoutOpts) : OpResult :=
  match tree.root, nodeAtPath tree splitPath with
  | some root, some (.split dir children) =>
    if boundary < 0 ∨ (children.length : ℤ) - 1 ≤ boundary then ⟨tree, false⟩
    else
      match nodeRectAtPath tree rect opts splitPath with
      | none => ⟨tree, false⟩
      | some splitRect =>
        let available := availableSpan children (splitRect.span dir) opts
        if available ≤ 0 then ⟨tree, false⟩
        else
          let a := boundary.toNat
          let b := a + 1
          match children[a]?, children[b]? with
          | some ca, some cb =>
            let pairSum := ca.weight + cb.weight
            let minA := ca.node.minSpan dir opts / available
            let minB := cb.node.minSpan dir opts / available
            let newWa := resizedWeight ca.weight pairSum minA minB (deltaPx / available)
            let newWb := pairSum - newWa
            let newNode : LathNode :=
              .split dir ((children.set a ⟨ca.node, newWa⟩).set b ⟨cb.node, newWb⟩)
            ⟨⟨(root.replaceAtPath splitPath newNode).normalize⟩, true⟩
          | _, _ => ⟨tree, false⟩
  | _, _ => ⟨tree, false⟩

end Dormouse.Lath
