import Dormouse.Lath.Model
import Dormouse.Lib.InsertionMap

/-!
# Dormouse.Lath.Layout

**Layout**: pure geometry over the split tree (`lib/src/lib/lath/layout.ts`). A
tree and a rectangle give one rectangle per leaf (`layout`), one band per adjacent
child pair (`sashes`) and the rectangle of any node (`nodeRectAtPath`).

The three share `forEachChildRect`, the list of rectangles a split hands to its
children: spans allocated along the split's axis by a min-size waterfill, rounded
cumulatively, and advanced by span plus gap.

The waterfill's `for(;;)` becomes a recursion on fuel. Every pass but the last
clamps a child, so one more pass than there are children is enough.
-/

namespace Dormouse.Lath

structure LayoutOpts where
  gap : ℚ
  minLeaf : Size

/-- Extent of a size along an axis. -/
def Size.along (size : Size) : Dir → ℚ
  | .row => size.width
  | .col => size.height

mutual
/-- Minimum extent of a node along `axis`, honoring `minLeaf` and gaps: a split
along the axis sums its children plus gaps, one across it takes the maximum. -/
def LathNode.minSpan (axis : Dir) (opts : LayoutOpts) : LathNode → ℚ
  | .leaf _ => opts.minLeaf.along axis
  | .split dir children =>
    if dir = axis then
      minSpanSum axis opts children + opts.gap * ((children.length : ℚ) - 1)
    else minSpanMax axis opts children
/-- Sum of the children's minimum extents. -/
def minSpanSum (axis : Dir) (opts : LayoutOpts) : List LathChild → ℚ
  | [] => 0
  | c :: cs => c.node.minSpan axis opts + minSpanSum axis opts cs
/-- Maximum of the children's minimum extents and 0. -/
def minSpanMax (axis : Dir) (opts : LayoutOpts) : List LathChild → ℚ
  | [] => 0
  | c :: cs => max (c.node.minSpan axis opts) (minSpanMax axis opts cs)
end

/-! ### Rounding -/

/-- `Math.round`: the nearest integer, halves upward. -/
def mathRound (x : ℚ) : ℤ := ⌊x + 1 / 2⌋

/-- The rounding loop from cumulative sum `cum` and last boundary `prevRounded`. -/
def cumulativeRoundFrom (target : ℤ) : ℚ → ℤ → List ℚ → List ℤ
  | _, _, [] => []
  | _, prevRounded, [_] => [target - prevRounded]
  | cum, prevRounded, f :: g :: fracs =>
    let rounded := mathRound (cum + f)
    (rounded - prevRounded) :: cumulativeRoundFrom target (cum + f) rounded (g :: fracs)

/-- Cumulative rounding: entry `i` is the difference of two rounded boundaries,
and the last boundary snaps to `round total`. -/
def cumulativeRound (fracs : List ℚ) (total : ℚ) : List ℤ :=
  cumulativeRoundFrom (mathRound total) 0 0 fracs

/-! ### The waterfill -/

/-- What the waterfill knows of one child. -/
structure Slot where
  weight : ℚ
  min : ℚ
  clamped : Bool
  frac : ℚ

/-- Slack of the comparison of a share with a minimum. -/
def clampEps : ℚ := 1 / 1000000000

def activeWeight (slots : List Slot) : ℚ :=
  ((slots.filter (fun s => !s.clamped)).map (·.weight)).sum

def activeCount (slots : List Slot) : Nat :=
  (slots.filter (fun s => !s.clamped)).length

/-- Share of `remaining` an unclamped slot takes in this pass. -/
def share (slots : List Slot) (remaining : ℚ) (s : Slot) : ℚ :=
  if 0 < activeWeight slots then s.weight / activeWeight slots * remaining
  else remaining / activeCount slots

/-- Is the slot unclamped and its share below its minimum? -/
def belowMin (slots : List Slot) (remaining : ℚ) (s : Slot) : Bool :=
  !s.clamped && decide (share slots remaining s < s.min - clampEps)

/-- Pin a slot at its minimum. -/
def Slot.clamp (s : Slot) : Slot := { s with clamped := true, frac := s.min }

/-- Clamp any child below its minimum, redistribute the rest by weight, repeat.
A whole pass is classified against one budget. -/
def waterfill : Nat → List Slot → ℚ → List Slot
  | 0, slots, _ => slots
  | fuel + 1, slots, remaining =>
    if activeCount slots = 0 then slots
    else if slots.any (belowMin slots remaining) then
      let pinned := ((slots.filter (belowMin slots remaining)).map (·.min)).sum
      waterfill fuel
        (slots.map fun s => if belowMin slots remaining s then s.clamp else s)
        (remaining - pinned)
    else
      slots.map fun s => if s.clamped then s else { s with frac := share slots remaining s }

/-- Fractional child extents: proportional to the minimums when they do not fit,
otherwise the waterfill. -/
def fractionalSpans (children : List LathChild) (available : ℚ) (opts : LayoutOpts)
    (dir : Dir) : List ℚ :=
  let mins := children.map (·.node.minSpan dir opts)
  let totalMin := mins.sum
  if available < totalMin then
    if 0 < totalMin then mins.map fun m => m / totalMin * available
    else mins.map fun _ => available / children.length
  else
    (waterfill (children.length + 1)
      (children.map fun c => ⟨c.weight, c.node.minSpan dir opts, false, 0⟩) available).map
        (·.frac)

/-- Span a split has left for its children once the gaps are taken out. -/
def availableSpan (children : List LathChild) (span : ℚ) (opts : LayoutOpts) : ℚ :=
  span - opts.gap * ((children.length : ℚ) - 1)

/-- Integer child extents along a split's axis which, with the gaps, tile `span`. -/
def allocateChildSpans (children : List LathChild) (span : ℚ) (opts : LayoutOpts)
    (dir : Dir) : List ℤ :=
  let available := max 0 (availableSpan children span opts)
  cumulativeRound (fractionalSpans children available opts dir) available

/-! ### Rectangles -/

/-- Extent of a rect along an axis. -/
def Rect.span (rect : Rect) : Dir → ℚ
  | .row => rect.width
  | .col => rect.height

/-- Start of a rect along an axis. -/
def Rect.start (rect : Rect) : Dir → ℚ
  | .row => rect.x
  | .col => rect.y

/-- The slice of `rect` that starts at `pos` and extends `span` along `dir`. -/
def Rect.slice (rect : Rect) (dir : Dir) (pos span : ℚ) : Rect :=
  match dir with
  | .row => ⟨pos, rect.y, span, rect.height⟩
  | .col => ⟨rect.x, pos, rect.width, span⟩

/-- Consecutive slices from `pos`, a gap after each. -/
def slices (rect : Rect) (dir : Dir) (gap : ℚ) : ℚ → List ℤ → List Rect
  | _, [] => []
  | pos, s :: spans => rect.slice dir pos s :: slices rect dir gap (pos + (s + gap)) spans

/-- The rectangle of each child of a split laid out in `rect`, in split order. -/
def forEachChildRect (dir : Dir) (children : List LathChild) (rect : Rect)
    (opts : LayoutOpts) : List Rect :=
  slices rect dir opts.gap (rect.start dir)
    (allocateChildSpans children (rect.span dir) opts dir)

def nonnegativeRect (rect : Rect) : Rect :=
  { rect with width := max 0 rect.width, height := max 0 rect.height }

mutual
/-- Record the rectangle of every leaf below a node laid out in a rectangle. -/
def layoutNode (opts : LayoutOpts) :
    LathNode → Rect → InsertionMap LeafId Rect → InsertionMap LeafId Rect
  | .leaf id, rect, out => out.set id rect
  | .split dir children, rect, out =>
    layoutChildren opts children (forEachChildRect dir children rect opts) out
/-- Record the leaves of each child in its own rectangle. -/
def layoutChildren (opts : LayoutOpts) :
    List LathChild → List Rect → InsertionMap LeafId Rect → InsertionMap LeafId Rect
  | c :: cs, r :: rs, out => layoutChildren opts cs rs (layoutNode opts c.node r out)
  | [], _, out => out
  | _ :: _, [], out => out
end

/-- Per-leaf rects that tile `rect` minus gaps. -/
def layout (tree : LathTree) (rect : Rect) (opts : LayoutOpts) : InsertionMap LeafId Rect :=
  match tree.root with
  | none => .empty
  | some root => layoutNode opts root (nonnegativeRect rect) .empty

/-- Rect of the node at `path` below a node laid out in `cur`. -/
def LathNode.nodeRectAtPath (opts : LayoutOpts) : LathNode → Rect → List Nat → Option Rect
  | _, cur, [] => some cur
  | .leaf _, _, _ :: _ => none
  | .split dir children, cur, idx :: path =>
    match children[idx]?, (forEachChildRect dir children cur opts)[idx]? with
    | some child, some childRect => child.node.nodeRectAtPath opts childRect path
    | _, _ => none

/-- Rect of the node at `path` under the geometry `layout` produces. -/
def nodeRectAtPath (tree : LathTree) (rect : Rect) (opts : LayoutOpts)
    (path : List Nat) : Option Rect :=
  tree.root.bind fun root => root.nodeRectAtPath opts (nonnegativeRect rect) path

/-- The aspect-ratio split heuristic. -/
def autoEdge (tree : LathTree) (rect : Rect) (id : LeafId) (opts : LayoutOpts) : Edge :=
  match (layout tree rect opts).get id with
  | none => .right
  | some r => if 0 < r.width - r.height then .right else .bottom

/-! ### Sashes -/

/-- One boundary between adjacent children of a split and the gap band over it. -/
structure Sash where
  splitPath : List Nat
  boundary : Nat
  dir : Dir
  rect : Rect

/-- The gap band after `childRect` in a split laid out in `r`. -/
def sashBand (dir : Dir) (r childRect : Rect) (gap : ℚ) : Rect :=
  r.slice dir (childRect.start dir + childRect.span dir) gap

mutual
/-- Sashes of the splits below a node at `path` laid out in a rectangle. -/
def sashesBelow (opts : LayoutOpts) : LathNode → Rect → List Nat → List Sash
  | .leaf _, _, _ => []
  | .split dir children, r, path =>
    sashesFrom opts dir r path children.length 0 children (forEachChildRect dir children r opts)
/-- Sashes of a split's children from child `i` on, out of `n`. -/
def sashesFrom (opts : LayoutOpts) (dir : Dir) (r : Rect) (path : List Nat) (n : Nat) :
    Nat → List LathChild → List Rect → List Sash
  | i, c :: cs, cr :: crs =>
    (if i + 1 < n then [⟨path, i, dir, sashBand dir r cr opts.gap⟩] else []) ++
      sashesBelow opts c.node cr (path ++ [i]) ++
        sashesFrom opts dir r path n (i + 1) cs crs
  | _, [], _ => []
  | _, _ :: _, [] => []
end

/-- One entry per adjacent child pair of every split. -/
def sashes (tree : LathTree) (rect : Rect) (opts : LayoutOpts) : List Sash :=
  match tree.root with
  | none => []
  | some root => sashesBelow opts root (nonnegativeRect rect) []

/-! ### First lemmas -/

@[simp] theorem minSpanSum_eq (axis : Dir) (opts : LayoutOpts) (cs : List LathChild) :
    minSpanSum axis opts cs = (cs.map fun c => c.node.minSpan axis opts).sum := by
  induction cs with
  | nil => rfl
  | cons c cs ih => rw [minSpanSum, ih, List.map_cons, List.sum_cons]

theorem le_minSpanMax (axis : Dir) (opts : LayoutOpts) {cs : List LathChild} {c : LathChild}
    (h : c ∈ cs) : c.node.minSpan axis opts ≤ minSpanMax axis opts cs := by
  induction cs with
  | nil => exact absurd h List.not_mem_nil
  | cons d ds ih =>
    rw [minSpanMax]
    rcases List.mem_cons.1 h with rfl | h
    · exact le_max_left _ _
    · exact (ih h).trans (le_max_right _ _)

theorem minSpanMax_nonneg (axis : Dir) (opts : LayoutOpts) (cs : List LathChild) :
    0 ≤ minSpanMax axis opts cs := by
  induction cs with
  | nil => exact le_refl 0
  | cons c cs ih => rw [minSpanMax]; exact ih.trans (le_max_right _ _)

@[simp] theorem slice_span (rect : Rect) (dir : Dir) (pos span : ℚ) :
    (rect.slice dir pos span).span dir = span := by
  cases dir <;> rfl

@[simp] theorem slice_start (rect : Rect) (dir : Dir) (pos span : ℚ) :
    (rect.slice dir pos span).start dir = pos := by
  cases dir <;> rfl

end Dormouse.Lath
