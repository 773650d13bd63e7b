import Mathlib.Data.Rat.Floor
import Dormouse.Lath.Model
import Dormouse.Lib.InsertionMap

/-!
# Dormouse.Lath.Animator

The **layout animator** (`lib/src/lib/lath/animator.ts`): committed layout changes become
presentation frames as a pure function of the time it is handed. Times, coordinates and opacities
are exact rationals; an absent `enters` or `layers` map is the empty one. The slope of an easing,
which only the selection ring reads, is left out.
-/

namespace Dormouse.Lath

/-! ### Easing -/

/-- The polynomial coefficients of a cubic bezier from (0,0) to (1,1), per axis. -/
structure Bezier where
  ax : ℚ
  bx : ℚ
  cx : ℚ
  ay : ℚ
  by' : ℚ
  cy : ℚ

namespace Bezier

variable (b : Bezier)

def sampleX (s : ℚ) : ℚ := ((b.ax * s + b.bx) * s + b.cx) * s

def sampleY (s : ℚ) : ℚ := ((b.ay * s + b.by') * s + b.cy) * s

def sampleDX (s : ℚ) : ℚ := (3 * b.ax * s + 2 * b.bx) * s + b.cx

/-- The Newton–Raphson rounds; `none` when the slope vanishes or the rounds run out. -/
def newton (x : ℚ) : Nat → ℚ → Option ℚ
  | 0, _ => none
  | n + 1, s =>
    let err := b.sampleX s - x
    if |err| < 1 / 1000000 then some s
    else
      let d := b.sampleDX s
      if |d| < 1 / 1000000 then none else newton x n (s - err / d)

/-- The bisection rounds between `lo` and `hi`. -/
def bisect (x : ℚ) : Nat → (lo hi s : ℚ) → ℚ
  | 0, _, _, s => s
  | n + 1, lo, hi, s =>
    let err := b.sampleX s - x
    if |err| < 1 / 1000000 then s
    else if err > 0 then bisect x n lo s ((lo + s) / 2)
    else bisect x n s hi ((s + hi) / 2)

def solveX (x : ℚ) : ℚ := (b.newton x 8 x).getD (b.bisect x 32 0 1 x)

end Bezier

/-- Cubic-bezier easing: progress `t` to eased progress, exact at the endpoints. -/
def cubicBezier (x1 y1 x2 y2 t : ℚ) : ℚ :=
  let cx := 3 * x1
  let bx := 3 * (x2 - x1) - cx
  let cy := 3 * y1
  let byy := 3 * (y2 - y1) - cy
  let b : Bezier := ⟨1 - cx - bx, bx, cx, 1 - cy - byy, byy, cy⟩
  if t ≤ 0 then 0 else if t ≥ 1 then 1 else b.sampleY (b.solveX t)

/-- The house easing. -/
def LATH_EASING : ℚ → ℚ := cubicBezier (22 / 100) 1 (36 / 100) 1

/-- House motion. -/
def LATH_MOTION_MS : ℚ := 440

/-! ### Frames -/

def LATH_LAYER_TILED : ℚ := 0

def LATH_LAYER_DYING : ℚ := 1

def LATH_LAYER_ELEVATED : ℚ := 2

/-- What is shown of one leaf at an instant. -/
structure Frame where
  rect : Rect
  opacity : ℚ
  layer : ℚ
  deriving DecidableEq

/-- Where the frames of an entering leaf begin. -/
inductive EnterFrom
  | edge (edge : Edge)
  | topLeft
  | rect (rect : Rect)

/-- The target collapsed against the boundary a leaf enters from; an explicit rect is itself. -/
def collapsedRect (dst : Rect) : EnterFrom → Rect
  | .edge .left => ⟨dst.x, dst.y, 0, dst.height⟩
  | .edge .right => ⟨dst.x + dst.width, dst.y, 0, dst.height⟩
  | .edge .top => ⟨dst.x, dst.y, dst.width, 0⟩
  | .edge .bottom => ⟨dst.x, dst.y + dst.height, dst.width, 0⟩
  | .topLeft => ⟨dst.x, dst.y, 0, 0⟩
  | .rect r => r

/-- The first frame of an entering leaf: collapsed and unseen, or the rect it held, in full. -/
def enterFrame (dst : Frame) : EnterFrom → Frame
  | .rect r => { dst with rect := r, opacity := 1 }
  | enter => { dst with rect := collapsedRect dst.rect enter, opacity := 0 }

def lerp (a b t : ℚ) : ℚ := a + (b - a) * t

def lerpFrame (src dst : Frame) (t : ℚ) (settled : Bool) : Frame where
  rect := ⟨lerp src.rect.x dst.rect.x t, lerp src.rect.y dst.rect.y t,
    lerp src.rect.width dst.rect.width t, lerp src.rect.height dst.rect.height t⟩
  opacity := lerp src.opacity dst.opacity t
  layer := if settled then dst.layer else max src.layer dst.layer

/-- How far apart two frames may be and still pass for one picture. -/
def SETTLE_EPS : ℚ := 1 / 100

def framesClose (a b : Frame) : Bool :=
  rectsClose a.rect b.rect SETTLE_EPS && decide (|a.opacity - b.opacity| < SETTLE_EPS) &&
    decide (a.layer = b.layer)

/-! ### The animator -/

/-- The motion of one leaf: `src` to `dst` from `start` on, for the animator's duration. -/
structure Segment where
  src : Frame
  dst : Frame
  start : ℚ

structure AnimatorOptions where
  durationMs : ℚ
  easing : ℚ → ℚ := LATH_EASING

/-- The two maps of segments: of the live leaves and of those on their way out. -/
structure Animator where
  anims : InsertionMap LeafId Segment
  dying : InsertionMap LeafId Segment

structure RetargetOpts where
  snap : Bool := false
  layers : InsertionMap LeafId ℚ := .empty

namespace Animator

variable (o : AnimatorOptions)

def createAnimator : Animator := ⟨.empty, .empty⟩

/-- How far a segment has come at `now`, between 0 and 1. -/
def progress (start now : ℚ) : ℚ :=
  let raw := if o.durationMs ≤ 0 then 1 else (now - start) / o.durationMs
  if raw < 0 then 0 else if raw > 1 then 1 else raw

def sample (seg : Segment) (now : ℚ) : Frame :=
  let clamped := progress o seg.start now
  lerpFrame seg.src seg.dst (o.easing clamped) (decide (clamped ≥ 1))

def framesAt (a : Animator) (now : ℚ) : InsertionMap LeafId Frame :=
  a.dying.entries.foldl (fun out e => out.set e.1 (sample o e.2 now))
    (a.anims.entries.foldl (fun out e => out.set e.1 (sample o e.2 now)) .empty)

/-- The frame leaf `id` is to end at under a retarget to `toRect`. -/
def targetFrame (opts : RetargetOpts) (id : LeafId) (toRect : Rect) : Frame :=
  ⟨toRect, 1, (opts.layers.get id).getD LATH_LAYER_TILED⟩

/-- The segment a retarget gives the listed leaf `id`; `current` is what was shown before it. -/
def segmentTo (a : Animator) (current : InsertionMap LeafId Frame) (now : ℚ)
    (enters : InsertionMap LeafId EnterFrom) (opts : RetargetOpts) (id : LeafId) (toRect : Rect) :
    Segment :=
  let dst := targetFrame opts id toRect
  let src :=
    if opts.snap then dst
    else if a.anims.has id then (current.get id).getD dst
    else (enters.get id).elim dst (enterFrame dst)
  let start := if opts.snap || framesClose src dst then now - o.durationMs else now
  ⟨src, dst, start⟩

def retarget (a : Animator) (targets : InsertionMap LeafId Rect) (now : ℚ)
    (enters : InsertionMap LeafId EnterFrom) (opts : RetargetOpts) : Animator :=
  let current := framesAt o a now
  -- A dying leaf still in the tree stays dying.
  { anims := targets.entries.foldl (fun next e =>
      if ¬ a.dying.has e.1 then next.set e.1 (segmentTo o a current now enters opts e.1 e.2) else next)
      .empty
    dying := a.dying.filter fun id _ => targets.has id }

/-- The rect an exit ends at: where it stands, or shrunk into its own bottom-right corner. -/
def exitRect (shrinkTowardBottomRight : Bool) (r : Rect) : Rect :=
  if shrinkTowardBottomRight then ⟨r.x + r.width, r.y + r.height, 0, 0⟩ else r

/-- The frame an exit of what is shown as `cur` ends at. -/
def exitFrame (shrinkTowardBottomRight : Bool) (cur : Frame) : Frame :=
  ⟨exitRect shrinkTowardBottomRight cur.rect, 0, max cur.layer LATH_LAYER_DYING⟩

def markDying (a : Animator) (id : LeafId) (now : ℚ) (shrinkTowardBottomRight : Bool) : Animator :=
  if a.dying.has id then a
  else
    match a.anims.get id with
    | none => a
    | some seg =>
      let cur := sample o seg now
      { anims := a.anims.delete id
        dying := a.dying.set id
          ⟨⟨cur.rect, cur.opacity, max cur.layer LATH_LAYER_DYING⟩,
            exitFrame shrinkTowardBottomRight cur, now⟩ }

def isDying (a : Animator) (id : LeafId) : Bool := a.dying.has id

/-- Whether nothing is mid-flight at `now`. -/
def settledAt (a : Animator) (now : ℚ) : Bool :=
  a.anims.values.all (fun seg => !decide (now < seg.start + o.durationMs)) &&
    a.dying.values.all (fun seg => !decide (now < seg.start + o.durationMs))

/-! ### Runs -/

/-- A call on the animator; a snap is a retarget whose options say so. -/
inductive Call
  | retarget (targets : InsertionMap LeafId Rect) (now : ℚ)
      (enters : InsertionMap LeafId EnterFrom) (opts : RetargetOpts)
  | markDying (id : LeafId) (now : ℚ) (shrinkTowardBottomRight : Bool)

def call (a : Animator) : Call → Animator
  | .retarget targets now enters opts => a.retarget o targets now enters opts
  | .markDying id now shrink => a.markDying o id now shrink

/-- The animator after a list of calls. -/
def run (calls : List Call) : Animator := calls.foldl (call o) createAnimator

end Animator

end Dormouse.Lath
