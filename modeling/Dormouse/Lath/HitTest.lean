import Mathlib.Data.List.Sort
import Dormouse.Lath.Ops

/-!
# Dormouse.Lath.HitTest

**Hit-testing** (`lib/src/lib/lath/hit-test.ts`): a pointer over the laid-out wall
gives an ordered list of drop candidates, each found by running the operation it
stands for and laying out the result.

Distances are compared through their squares, which order the same way as
`Math.hypot`.
-/

namespace Dormouse.Lath

structure DropCandidate where
  target : DropTarget
  previewRect : Rect
  depth : Nat
  deriving DecidableEq

structure Point where
  x : ℚ
  y : ℚ

/-- Placeholder leaf id for the speculative `insert` of an external (Door) drag. -/
def externalId : LeafId := "__lath_external_drop__"

def bandFraction : ℚ := 3 / 10

def maxBand : ℚ := 96

def coincideEps : ℚ := 1 / 2

def edgeCoord (r : Rect) : Edge → ℚ
  | .left => r.x
  | .right => r.x + r.width
  | .top => r.y
  | .bottom => r.y + r.height

/-- Square of the distance from the point to the nearest point of `r`. -/
def distToRectSq (r : Rect) (p : Point) : ℚ :=
  let dx := max (max (r.x - p.x) 0) (p.x - (r.x + r.width))
  let dy := max (max (r.y - p.y) 0) (p.y - (r.y + r.height))
  dx * dx + dy * dy

/-- Is the point in the rectangle, its sides included? -/
def Rect.holds (r : Rect) (p : Point) : Bool :=
  r.x ≤ p.x && p.x ≤ r.x + r.width && r.y ≤ p.y && p.y ≤ r.y + r.height

/-- Do two layouts give the same leaves the same rectangles? -/
def sameLayout (a b : InsertionMap LeafId Rect) : Bool :=
  a.size == b.size &&
    a.entries.all fun e =>
      match b.get e.1 with
      | none => false
      | some rb => rectsClose e.2 rb 0

/-- The leaf under the point: the first whose rectangle holds it, else the nearest. -/
def leafUnder (p : Point) : List (LeafId × Rect) → Option (ℚ × LeafId × Rect) →
    Option (LeafId × Rect)
  | [], best => best.map (·.2)
  | (id, r) :: rest, best =>
    if r.holds p then some (id, r)
    else
      let d := distToRectSq r p
      match best with
      | none => leafUnder p rest (some (d, id, r))
      | some b =>
        if d < b.1 then leafUnder p rest (some (d, id, r)) else leafUnder p rest (some b)

/-- One edge band the point lies in, and how far it is from that edge. -/
structure Band where
  edge : Edge
  dist : ℚ

def Edge.rank : Edge → Nat
  | .left => 0
  | .right => 1
  | .top => 2
  | .bottom => 3

/-- The edge bands of `leafRect` that hold the point. -/
def bandsAt (leafRect : Rect) (p : Point) : List Band :=
  let bandX := min (bandFraction * leafRect.width) maxBand
  let bandY := min (bandFraction * leafRect.height) maxBand
  let dl := p.x - leafRect.x
  let dr := leafRect.x + leafRect.width - p.x
  let dt := p.y - leafRect.y
  let db := leafRect.y + leafRect.height - p.y
  (if dl < bandX then [⟨.left, dl⟩] else []) ++ (if dr < bandX then [⟨.right, dr⟩] else []) ++
    (if dt < bandY then [⟨.top, dt⟩] else []) ++ (if db < bandY then [⟨.bottom, db⟩] else [])

/-- The order of the source's `bands.sort`: nearest first, ties by edge. -/
def Band.le (a b : Band) : Bool :=
  a.dist < b.dist || (a.dist == b.dist && a.edge.rank ≤ b.edge.rank)

/-- Ancestors of the leaf, innermost first, whose `edge` boundary coincides with the leaf's. -/
def ancestorTargets (tree : LathTree) (rect : Rect) (opts : LayoutOpts) (leafRect : Rect)
    (leafPath : List Nat) (edge : Edge) : Nat → List DropTarget
  | 0 => []
  | k + 1 =>
    let ancestorPath := leafPath.take k
    let below := ancestorTargets tree rect opts leafRect leafPath edge k
    match nodeRectAtPath tree rect opts ancestorPath with
    | none => below
    | some ar =>
      if |edgeCoord ar edge - edgeCoord leafRect edge| ≤ coincideEps then
        .edge ancestorPath edge :: below
      else below

/-- The targets the point names, before any of them is tried. -/
def rawTargets (tree : LathTree) (rect : Rect) (opts : LayoutOpts) (dragged : Option LeafId)
    (leafId : LeafId) (leafRect : Rect) (leafPath : List Nat) (p : Point) : List DropTarget :=
  match (bandsAt leafRect p).insertionSort (fun a b => a.le b) with
  | [] => if dragged.isSome ∧ dragged ≠ some leafId then [.swap leafId] else []
  | band :: _ =>
    .edge leafPath band.edge ::
      ancestorTargets tree rect opts leafRect leafPath band.edge leafPath.length

/-- The operation a drop runs: a move of the dragged leaf, or an insert of a Door's. -/
def drop (tree : LathTree) (dragged : Option LeafId) (doorId : LeafId) (target : DropTarget) :
    OpResult :=
  match dragged with
  | some id => move tree id target
  | none => insert tree doorId target defaultInsertWeight

/-- Is a target that leaves the layout as it is passed over? Only for a move beside a node. -/
def checksLayout (dragged : Option LeafId) (target : DropTarget) : Bool :=
  match dragged, target with
  | some _, .edge _ _ => true
  | _, _ => false

/-- Try each target: drop rejected operations, moves that change nothing and targets
that put the leaf where an earlier one does. -/
def tryTargets (tree : LathTree) (rect : Rect) (opts : LayoutOpts) (dragged : Option LeafId) :
    List DropTarget → List (ℚ × ℚ × ℚ × ℚ) → List DropCandidate → List DropCandidate
  | [], _, out => out
  | target :: rest, seen, out =>
    let r := drop tree dragged externalId target
    if !r.ok then tryTargets tree rect opts dragged rest seen out
    else
      let resultRects := layout r.tree rect opts
      match resultRects.get (dragged.getD externalId) with
      | none => tryTargets tree rect opts dragged rest seen out
      | some pr =>
        if checksLayout dragged target && sameLayout (layout tree rect opts) resultRects then
          tryTargets tree rect opts dragged rest seen out
        else if seen.contains (rectKey pr) then
          tryTargets tree rect opts dragged rest seen out
        else
          tryTargets tree rect opts dragged rest (rectKey pr :: seen)
            (out ++ [⟨target, pr, out.length⟩])

/-- Ordered drop candidates for a pointer over the wall, innermost first. `dragged`
is `none` for an external Door. -/
def hitTest (tree : LathTree) (rect : Rect) (p : Point) (dragged : Option LeafId)
    (opts : LayoutOpts) : List DropCandidate :=
  if tree.root.isNone then []
  else if !rect.holds p then []
  else
    match leafUnder p (layout tree rect opts).entries none with
    | none => []
    | some (leafId, leafRect) =>
      match findLeafPath tree leafId with
      | none => []
      | some leafPath =>
        tryTargets tree rect opts dragged
          (rawTargets tree rect opts dragged leafId leafRect leafPath p) [] []

end Dormouse.Lath
