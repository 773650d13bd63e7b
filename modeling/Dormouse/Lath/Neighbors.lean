import Mathlib.Data.List.Lex
import Mathlib.Data.Prod.Lex
import Dormouse.Lath.Layout
import Dormouse.Lib.JsString

/-!
# Dormouse.Lath.Neighbors

**Directional navigation** (`neighbors` of `lib/src/lib/lath/layout.ts`): the nearest leaf in a
direction, found among the laid-out rectangles.
-/

namespace Dormouse.Lath

inductive Direction
  | left
  | right
  | up
  | down
  deriving DecidableEq, Repr

/-- `left` and `right` move along the x axis. -/
def Direction.isHorizontal : Direction → Bool
  | .left | .right => true
  | .up | .down => false

/-- A leaf beyond the current one, with its distance from it. -/
structure Cand where
  id : LeafId
  dist : ℚ
  overlaps : Bool
  r : Rect

/-- Does `r` lie beyond the edge of `c` in the direction? Touching the edge counts. -/
def beyondEdge (direction : Direction) (c r : Rect) : Bool :=
  match direction with
  | .left => !decide (c.x < r.x + r.width)
  | .right => !decide (r.x < c.x + c.width)
  | .up => !decide (c.y < r.y + r.height)
  | .down => !decide (r.y < c.y + c.height)

/-- Do the rects overlap on the axis across the direction? -/
def overlapsAcross (direction : Direction) (c r : Rect) : Bool :=
  if direction.isHorizontal then
    decide (r.y < c.y + c.height) && decide (c.y < r.y + r.height)
  else decide (r.x < c.x + c.width) && decide (c.x < r.x + r.width)

/-- Distance from the edge of `c` to the facing edge of `r`. -/
def edgeDist (direction : Direction) (c r : Rect) : ℚ :=
  match direction with
  | .left => c.x - (r.x + r.width)
  | .right => r.x - (c.x + c.width)
  | .up => c.y - (r.y + r.height)
  | .down => r.y - (c.y + c.height)

/-- The candidates among the laid-out rects, in layout order. -/
def candidates (id : LeafId) (direction : Direction) (c : Rect) (rects : List (LeafId × Rect)) :
    List Cand :=
  rects.filterMap fun (pid, r) =>
    if pid = id then none
    else if beyondEdge direction c r then
      some ⟨pid, edgeDist direction c r, overlapsAcross direction c r, r⟩
    else none

/-- What `pool.sort` compares: the distance, then `y`, then `x`, then the id. -/
def Cand.key (a : Cand) : ℚ ×ₗ ℚ ×ₗ ℚ ×ₗ List ℕ :=
  toLex (a.dist, toLex (a.r.y, toLex (a.r.x, (js a.id).map UInt16.toNat)))

def Cand.le (a b : Cand) : Bool := decide (a.key ≤ b.key)

/-- The overlapping candidates where there are any, else all of them. -/
def candPool (cands : List Cand) : List Cand :=
  let overlapping := cands.filter (·.overlaps)
  if overlapping.length > 0 then overlapping else cands

/-- Nearest leaf in `direction` from the laid-out rects. -/
def neighbors (tree : LathTree) (rect : Rect) (id : LeafId) (direction : Direction)
    (opts : LayoutOpts) : Option LeafId :=
  let rects := layout tree rect opts
  match rects.get id with
  | none => none
  | some c =>
    ((candPool (candidates id direction c rects.entries)).mergeSort Cand.le).head?.map (·.id)

/-! ### First lemmas -/

theorem mem_candidates {id : LeafId} {direction : Direction} {c : Rect}
    {rects : List (LeafId × Rect)} {cand : Cand} :
    cand ∈ candidates id direction c rects ↔
      ∃ pid r, (pid, r) ∈ rects ∧ pid ≠ id ∧ beyondEdge direction c r = true ∧
        cand = ⟨pid, edgeDist direction c r, overlapsAcross direction c r, r⟩ := by
  rw [candidates, List.mem_filterMap]
  constructor
  · rintro ⟨⟨pid, r⟩, hmem, hcand⟩
    dsimp only at hcand
    split at hcand
    · cases hcand
    · next hne =>
        split at hcand
        · next hbeyond => exact ⟨pid, r, hmem, hne, hbeyond, (Option.some.inj hcand).symm⟩
        · cases hcand
  · rintro ⟨pid, r, hmem, hne, hbeyond, rfl⟩
    exact ⟨(pid, r), hmem, by
      dsimp only
      rw [if_neg hne, if_pos hbeyond]⟩

/-- The first of the sorted pool is one of it, and none is nearer. -/
theorem head_mergeSort {pool : List Cand} {first : Cand}
    (h : (pool.mergeSort Cand.le).head? = some first) :
    first ∈ pool ∧ ∀ cand ∈ pool, first.dist ≤ cand.dist := by
  have hsorted := @List.pairwise_mergeSort _ Cand.le
    (fun a b c hab hbc => decide_eq_true
      ((of_decide_eq_true hab).trans (of_decide_eq_true hbc)))
    (fun a b => by
      rw [Bool.or_eq_true, Cand.le, Cand.le, decide_eq_true_iff, decide_eq_true_iff]
      exact le_total _ _) pool
  have hmem : ∀ cand, cand ∈ pool.mergeSort Cand.le ↔ cand ∈ pool := fun cand =>
    List.mem_mergeSort
  cases hpool : pool.mergeSort Cand.le with
  | nil =>
    rw [hpool] at h
    cases h
  | cons a rest =>
    rw [hpool] at h hsorted hmem
    obtain rfl : a = first := Option.some.inj h
    refine ⟨(hmem a).1 List.mem_cons_self, fun cand hcand => ?_⟩
    rcases List.mem_cons.1 ((hmem cand).2 hcand) with rfl | hrest
    · exact le_rfl
    · exact Prod.Lex.monotone_fst _ _ (of_decide_eq_true (List.rel_of_pairwise_cons hsorted hrest))

end Dormouse.Lath
