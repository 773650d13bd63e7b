import Dormouse.Lath.LayoutSound
import Dormouse.Lath.Neighbors
import Dormouse.Lib.Cuts

/-!
# Dormouse.Lath.NeighborsSound

**Directional navigation is complete.** A wall of whole pixels is cut again and again along its
splits, a gap at each cut, so that a leaf which does not touch the wall in a direction has a
neighbor a gap away that overlaps it, and nothing nearer.
-/

namespace Dormouse.Lath

/-! ### A layout as cuts -/

/-- A rect as a box over the two axes. -/
def Rect.box (r : Rect) : Box Dir ℚ := ⟨r.start, fun axis => r.start axis + r.span axis⟩

theorem slice_start_ne (R : Rect) {dir axis : Dir} (h : axis ≠ dir) (pos span : ℚ) :
    (R.slice dir pos span).start axis = R.start axis := by
  cases dir <;> cases axis <;> first | rfl | exact absurd rfl h

/-- The part of a rect from one position to another along an axis, cut in two. -/
theorem halves_slice (R : Rect) (dir : Dir) (gap pos first second : ℚ) :
    Box.Halves gap dir (R.slice dir pos (first + (gap + second))).box (R.slice dir pos first).box
      (R.slice dir (pos + (first + gap)) second).box := by
  refine ⟨fun axis => ?_, fun axis h => ?_, fun axis h => ?_, fun axis => ?_, ?_⟩
  · show (R.slice dir pos first).start axis = (R.slice dir pos (first + (gap + second))).start axis
    by_cases h : axis = dir
    · rw [h, slice_start, slice_start]
    · rw [slice_start_ne R h, slice_start_ne R h]
  · simp only [Rect.box, slice_start_ne R h, slice_span_ne R h]
  · simp only [Rect.box, slice_start_ne R h]
  · by_cases h : axis = dir
    · simp only [Rect.box, h, slice_start, slice_span]
      ring
    · simp only [Rect.box, slice_start_ne R h, slice_span_ne R h]
  · simp only [Rect.box, slice_start, slice_span]
    ring

/-- The boxes of the leaves below a node. -/
def LathNode.leafBoxes (opts : LayoutOpts) (n : LathNode) (R : Rect) : List (Box Dir ℚ) :=
  (n.leafRects opts R).map fun e => e.2.box

/-- Whole pixels along both axes. -/
def Rect.Pixels (R : Rect) : Prop := ∀ axis, ∃ k : ℤ, R.span axis = k

/-- Laid out on whole pixels with every leaf wider than the gap, a node is cut again and again. -/
def LathNode.Cuts (opts : LayoutOpts) (n : LathNode) : Prop :=
  ∀ R : Rect, R.Pixels → (∀ b ∈ n.leafBoxes opts R, b.Wide opts.gap) →
    Cutting opts.gap R.box (n.leafBoxes opts R)

/-- Consecutive children along an axis: a cut after each, and every span wider than the gap. -/
theorem chain_cuts {opts : LayoutOpts} {dir : Dir} {R : Rect} (hgap : 0 ≤ opts.gap)
    (hR : R.Pixels) : ∀ {cs : List LathChild} {spans : List ℤ} {pos : ℚ},
      cs ≠ [] → cs.length = spans.length → (∀ c ∈ cs, c.node.Cuts opts) →
      (∀ e ∈ leafRectsOf opts cs (slices R dir opts.gap pos spans), e.2.box.Wide opts.gap) →
        Cutting opts.gap (R.slice dir pos (extent opts.gap spans)).box
            ((leafRectsOf opts cs (slices R dir opts.gap pos spans)).map fun e => e.2.box) ∧
          ∀ s ∈ spans, opts.gap < (s : ℚ)
  | [], _, _, hne, _, _, _ => absurd rfl hne
  | _ :: _, [], _, _, hlen, _, _ => by simp at hlen
  | c :: cs, s :: spans, pos, _, hlen, hcuts, hwide => by
    rw [slices, leafRectsOf] at hwide ⊢
    obtain ⟨hwide₁, hwide₂⟩ := List.forall_mem_append.1 hwide
    have hpixels : (R.slice dir pos s).Pixels := by
      intro axis
      by_cases h : axis = dir
      · exact ⟨s, by rw [h, slice_span]⟩
      · rw [slice_span_ne R h]
        exact hR axis
    have hfirst := hcuts c List.mem_cons_self (R.slice dir pos s) hpixels
      (List.forall_mem_map.2 hwide₁)
    have hs : opts.gap < (s : ℚ) := by
      have hwhole := hfirst.wide_whole dir
      simp only [Rect.box, slice_start, slice_span] at hwhole
      linarith
    cases spans with
    | nil =>
      obtain rfl : cs = [] := List.length_eq_zero_iff.1 (by simpa using hlen)
      rw [slices, leafRectsOf, List.append_nil, extent]
      exact ⟨hfirst, List.forall_mem_singleton.2 hs⟩
    | cons t spans =>
      have hne : cs ≠ [] := fun hnil => by simp [hnil] at hlen
      obtain ⟨hrest, hspans⟩ := @chain_cuts opts dir R hgap hR cs (t :: spans)
        (pos + (s + opts.gap)) hne (by simpa using hlen) (fun d hd => hcuts d (List.mem_cons_of_mem c hd)) hwide₂
      rw [List.map_append, extent]
      exact ⟨Cutting.cut hgap (halves_slice R dir opts.gap pos s _) hfirst hrest,
        List.forall_mem_cons.2 ⟨hs, hspans⟩⟩

/-- The rounded parts add up to the rounded total. -/
theorem sum_cumulativeRoundFrom (target : ℤ) : ∀ {fracs : List ℚ} (cum : ℚ) (prev : ℤ),
    fracs ≠ [] → (cumulativeRoundFrom target cum prev fracs).sum = target - prev
  | [], _, _, h => absurd rfl h
  | [_], _, _, _ => by simp [cumulativeRoundFrom]
  | f :: g :: fracs, cum, prev, _ => by
    rw [cumulativeRoundFrom, List.sum_cons,
      sum_cumulativeRoundFrom target (cum + f) (mathRound (cum + f)) (List.cons_ne_nil g fracs)]
    ring

/-- Spans wider than the gap fill a split of whole pixels exactly. -/
theorem extent_allocateChildSpans {opts : LayoutOpts} {dir : Dir} {cs : List LathChild} {R : Rect}
    (hgap : IsWhole opts.gap) (hR : R.Pixels) (hne : cs ≠ [])
    (hspans : ∀ s ∈ allocateChildSpans cs (R.span dir) opts dir, opts.gap < (s : ℚ)) :
    extent opts.gap (allocateChildSpans cs (R.span dir) opts dir) = R.span dir := by
  have hlen := length_allocateChildSpans cs (R.span dir) opts dir
  have hspans_ne : allocateChildSpans cs (R.span dir) opts dir ≠ [] := fun hnil => by
    rw [hnil] at hlen
    exact hne (List.length_eq_zero_iff.1 hlen.symm)
  obtain ⟨g, hg⟩ := hgap
  obtain ⟨w, hw⟩ := hR dir
  -- The split's budget is a whole number of pixels.
  have havail : availableSpan cs (R.span dir) opts = ((w - g * (cs.length - 1) : ℤ) : ℚ) := by
    rw [availableSpan, hw, hg]
    push_cast
    ring
  have hsum : (allocateChildSpans cs (R.span dir) opts dir).sum =
      max 0 (w - g * (cs.length - 1) : ℤ) := by
    have hcast : max 0 (availableSpan cs (R.span dir) opts) =
        ((max 0 (w - g * (cs.length - 1)) : ℤ) : ℚ) := by
      rw [havail]
      push_cast
      rfl
    have hfracs : fractionalSpans cs (max 0 (availableSpan cs (R.span dir) opts)) opts dir ≠ [] := by
      intro hnil
      apply hspans_ne
      rw [allocateChildSpans, hnil]
      rfl
    rw [allocateChildSpans, cumulativeRound, sum_cumulativeRoundFrom _ _ _ hfracs, hcast,
      mathRound_intCast, sub_zero]
  have hpos : 0 < (allocateChildSpans cs (R.span dir) opts dir).sum := by
    refine List.sum_pos _ (fun s hs => ?_) hspans_ne
    have hlt := hspans s hs
    have hzero : (0 : ℚ) < s := (hg ▸ Nat.cast_nonneg g : (0 : ℚ) ≤ opts.gap).trans_lt hlt
    exact_mod_cast hzero
  rw [hsum, lt_max_iff] at hpos
  have hbudget : 0 < w - g * (cs.length - 1 : ℤ) := hpos.resolve_left (lt_irrefl 0)
  rw [extent_eq _ hspans_ne, hsum, max_eq_right hbudget.le, hlen, hw, hg]
  push_cast
  ring

/-- **A layout on whole pixels is cut again and again**, where every leaf is wider than the gap. -/
theorem canonical_cuts {tol : ℚ} {opts : LayoutOpts} (hgap : IsWhole opts.gap) {n : LathNode}
    (h : n.Canonical tol) : n.Cuts opts := by
  induction h with
  | leaf id =>
    intro R _ hwide
    exact Cutting.single (hwide R.box (List.mem_singleton_self _))
  | @split dir cs two pos sum alternate below ih =>
    intro R hR hwide
    have hne : cs ≠ [] := fun hnil => by simp [hnil] at two
    obtain ⟨hcutting, hspans⟩ := @chain_cuts opts dir R hgap.nonneg hR cs _ (R.start dir) hne
      (length_allocateChildSpans cs (R.span dir) opts dir).symm ih (List.forall_mem_map.1 hwide)
    rw [extent_allocateChildSpans hgap hR hne hspans, Rect.slice_self] at hcutting
    exact hcutting

/-! ### What faces a leaf -/

/-- The axis a direction moves along. -/
def Direction.axis : Direction → Dir
  | .left | .right => .row
  | .up | .down => .col

/-- Does the direction move towards higher coordinates? -/
def Direction.forward : Direction → Bool
  | .right | .down => true
  | .left | .up => false

/-- The leaf's edge in the direction is the wall's. -/
def TouchesWall (direction : Direction) (wall c : Rect) : Prop :=
  match direction with
  | .left => c.x = wall.x
  | .right => c.x + c.width = wall.x + wall.width
  | .up => c.y = wall.y
  | .down => c.y + c.height = wall.y + wall.height

theorem touchesWall_iff (direction : Direction) (wall c : Rect) :
    TouchesWall direction wall c ↔
      if direction.forward then c.box.hi direction.axis = wall.box.hi direction.axis
      else c.box.lo direction.axis = wall.box.lo direction.axis := by
  cases direction <;> exact Iff.rfl

theorem beyondEdge_iff (direction : Direction) (c r : Rect) :
    beyondEdge direction c r = true ↔
      if direction.forward then c.box.hi direction.axis ≤ r.box.lo direction.axis
      else r.box.hi direction.axis ≤ c.box.lo direction.axis := by
  cases direction <;>
    simp [beyondEdge, Direction.forward, Direction.axis, Rect.box, Rect.start, Rect.span]

theorem edgeDist_eq (direction : Direction) (c r : Rect) :
    edgeDist direction c r =
      if direction.forward then r.box.lo direction.axis - c.box.hi direction.axis
      else c.box.lo direction.axis - r.box.hi direction.axis := by
  cases direction <;> rfl

theorem overlapsAcross_iff (direction : Direction) (c r : Rect) :
    overlapsAcross direction c r = true ↔
      ∀ i, i ≠ direction.axis → c.box.Overlaps r.box i := by
  have hother : ∀ {P : Dir → Prop}, (∀ i, i ≠ direction.axis → P i) ↔
      if direction.isHorizontal then P .col else P .row := by
    intro P
    constructor
    · intro h
      cases direction <;> exact h _ (by simp [Direction.axis])
    · intro h i hi
      cases direction <;> cases i <;>
        first
        | exact h
        | exact absurd rfl hi
  rw [hother, overlapsAcross]
  cases direction.isHorizontal <;>
    simp [Box.Overlaps, Rect.box, Rect.start, Rect.span, and_comm]

section Facing

variable {gap : ℚ} {wall : Rect} {rects : List (LeafId × Rect)} {id : LeafId} {c : Rect}

theorem mem_boxes {e : LeafId × Rect} (h : e ∈ rects) : e.2.box ∈ rects.map fun e => e.2.box :=
  List.mem_map_of_mem h

/-- A leaf that touches the wall has nothing beyond it. -/
theorem beyondEdge_of_touches (hgap : 0 ≤ gap)
    (h : Cutting gap wall.box (rects.map fun e => e.2.box)) {direction : Direction}
    (htouch : TouchesWall direction wall c) {pid : LeafId} {r : Rect} (hr : (pid, r) ∈ rects) :
    beyondEdge direction c r ≠ true := by
  have hwide := h.wide _ (mem_boxes hr) direction.axis
  have hin := h.within _ (mem_boxes hr)
  have hlo := hin.lo direction.axis
  have hhi := hin.hi direction.axis
  rw [touchesWall_iff] at htouch
  rw [Ne, beyondEdge_iff]
  cases hforward : direction.forward with
  | true =>
    rw [hforward, if_pos rfl] at htouch
    rw [if_pos rfl, htouch]
    linarith
  | false =>
    rw [hforward, if_neg Bool.false_ne_true] at htouch
    rw [if_neg Bool.false_ne_true, htouch]
    linarith

/-- A leaf that does not touch the wall faces an overlapping one across the gap. -/
theorem exists_facing (hgap : 0 ≤ gap) (h : Cutting gap wall.box (rects.map fun e => e.2.box))
    (hc : (id, c) ∈ rects) {direction : Direction} (hfree : ¬TouchesWall direction wall c) :
    ∃ pid r, (pid, r) ∈ rects ∧ beyondEdge direction c r = true ∧
      edgeDist direction c r = gap ∧ overlapsAcross direction c r = true := by
  rw [touchesWall_iff] at hfree
  cases hforward : direction.forward with
  | true =>
    rw [hforward, if_pos rfl] at hfree
    rcases h.next_hi _ (mem_boxes hc) direction.axis with hside | ⟨b, hb, hnext, hacross⟩
    · exact absurd hside hfree
    obtain ⟨⟨pid, r⟩, hr, rfl⟩ := List.mem_map.1 hb
    refine ⟨pid, r, hr, ?_, ?_, (overlapsAcross_iff direction c r).2 hacross⟩
    · rw [beyondEdge_iff, hforward, if_pos rfl, hnext]
      exact le_add_of_nonneg_right hgap
    · rw [edgeDist_eq, hforward, if_pos rfl, hnext]
      exact add_sub_cancel_left _ _
  | false =>
    rw [hforward, if_neg Bool.false_ne_true] at hfree
    rcases h.next_lo _ (mem_boxes hc) direction.axis with hside | ⟨b, hb, hnext, hacross⟩
    · exact absurd hside hfree
    obtain ⟨⟨pid, r⟩, hr, rfl⟩ := List.mem_map.1 hb
    refine ⟨pid, r, hr, ?_, ?_, (overlapsAcross_iff direction c r).2 hacross⟩
    · rw [beyondEdge_iff, hforward, if_neg Bool.false_ne_true, ← hnext]
      exact le_add_of_nonneg_right hgap
    · rw [edgeDist_eq, hforward, if_neg Bool.false_ne_true, ← hnext]
      exact add_sub_cancel_left _ _

/-- No overlapping leaf beyond the edge is nearer than the gap. -/
theorem gap_le_edgeDist (hgap : 0 ≤ gap)
    (h : Cutting gap wall.box (rects.map fun e => e.2.box)) (hc : (id, c) ∈ rects)
    {direction : Direction} {pid : LeafId} {r : Rect} (hr : (pid, r) ∈ rects)
    (hbeyond : beyondEdge direction c r = true) (hover : overlapsAcross direction c r = true) :
    gap ≤ edgeDist direction c r := by
  have hwide := h.wide _ (mem_boxes hc) direction.axis
  have hwide' := h.wide _ (mem_boxes hr) direction.axis
  rw [beyondEdge_iff] at hbeyond
  have hne : c.box ≠ r.box := by
    intro heq
    rw [heq] at hbeyond hwide
    split at hbeyond <;> linarith
  have hapart := h.beyond hgap (mem_boxes hc) (mem_boxes hr) hne
    ((overlapsAcross_iff direction c r).1 hover)
  rw [edgeDist_eq]
  cases hforward : direction.forward with
  | true =>
    rw [hforward, if_pos rfl] at hbeyond
    rw [if_pos rfl]
    rcases hapart with h | h <;> linarith
  | false =>
    rw [hforward, if_neg Bool.false_ne_true] at hbeyond
    rw [if_neg Bool.false_ne_true]
    rcases hapart with h | h <;> linarith

end Facing

/-! ### Completeness -/

/-- **Directional navigation is complete.** On a wall of whole pixels with a whole gap, where every
leaf is larger than the gap, a leaf has no neighbor in a direction exactly when it touches the wall
there, and otherwise one whose facing edge is the gap away and which overlaps it across. -/
theorem neighbors_complete {tol : ℚ} {tree : LathTree} (h : tree.Valid tol) {rect : Rect}
    {opts : LayoutOpts} (hwidth : IsWhole rect.width) (hheight : IsWhole rect.height)
    (hgap : IsWhole opts.gap)
    (hroom : ∀ id r, (layout tree rect opts).get id = some r →
      opts.gap < r.width ∧ opts.gap < r.height)
    {id : LeafId} {c : Rect} (hc : (layout tree rect opts).get id = some c)
    (direction : Direction) :
    (neighbors tree rect id direction opts = none ↔ TouchesWall direction rect c) ∧
      ∀ other, neighbors tree rect id direction opts = some other →
        ∃ r, (layout tree rect opts).get other = some r ∧ edgeDist direction c r = opts.gap ∧
          overlapsAcross direction c r = true := by
  rcases hroot : tree.root with _ | root
  · rw [layout, hroot] at hc
    cases hc
  have hrect : nonnegativeRect rect = rect := by
    rw [nonnegativeRect, max_eq_right hwidth.nonneg, max_eq_right hheight.nonneg]
  have hentries := layout_entries hroot h.nodup rect opts
  rw [hrect] at hentries
  have hget : ∀ {pid r}, (pid, r) ∈ (layout tree rect opts).entries ↔
      (layout tree rect opts).get pid = some r := InsertionMap.get_eq_some.symm
  have hpixels : rect.Pixels := by
    intro axis
    obtain ⟨w, hw⟩ := hwidth
    obtain ⟨v, hv⟩ := hheight
    cases axis
    · exact ⟨w, hw⟩
    · exact ⟨v, hv⟩
  have hwide : ∀ b ∈ root.leafBoxes opts rect, b.Wide opts.gap := by
    refine List.forall_mem_map.2 fun e he => ?_
    rw [← hentries] at he
    obtain ⟨hw, hv⟩ := hroom e.1 e.2 (hget.1 he)
    intro axis
    cases axis
    · exact add_lt_add_right hw _
    · exact add_lt_add_right hv _
  have hcuts : Cutting opts.gap rect.box
      ((layout tree rect opts).entries.map fun e => e.2.box) := by
    rw [hentries]
    exact canonical_cuts hgap (h.canonical root hroot) rect hpixels hwide
  have hmem := hget.2 hc
  have hg := hgap.nonneg
  rw [neighbors]
  simp only [hc]
  by_cases htouch : TouchesWall direction rect c
  · -- Nothing lies beyond the wall.
    have hnone : candidates id direction c (layout tree rect opts).entries = [] := by
      refine List.eq_nil_iff_forall_not_mem.2 fun cand hcand => ?_
      obtain ⟨pid, r, hr, -, hbeyond, -⟩ := mem_candidates.1 hcand
      exact beyondEdge_of_touches hg hcuts htouch hr hbeyond
    rw [hnone]
    have hhead : ((candPool []).mergeSort Cand.le).head?.map (·.id) = none := by
      rw [show candPool [] = [] from rfl, List.mergeSort_nil]
      rfl
    rw [hhead]
    exact ⟨iff_of_true rfl htouch, fun other hother => by cases hother⟩
  · -- The pool holds the overlapping candidates, one of them the gap away.
    obtain ⟨pid, r, hr, hbeyond, hdist, hover⟩ := exists_facing hg hcuts hmem htouch
    have hself : pid ≠ id := by
      intro heq
      rw [heq, hget, hc] at hr
      cases hr
      have hwide' := hcuts.wide _ (mem_boxes hmem) direction.axis
      rw [beyondEdge_iff] at hbeyond
      split at hbeyond <;> linarith
    set cands := candidates id direction c (layout tree rect opts).entries
    have hfacing : (⟨pid, edgeDist direction c r, overlapsAcross direction c r, r⟩ : Cand) ∈
        cands.filter (·.overlaps) :=
      List.mem_filter.2 ⟨mem_candidates.2 ⟨pid, r, hr, hself, hbeyond, rfl⟩, hover⟩
    have hpool : candPool cands = cands.filter (·.overlaps) :=
      if_pos (List.length_pos_of_mem hfacing)
    rw [hpool]
    have hne : (cands.filter (·.overlaps)).mergeSort Cand.le ≠ [] := fun hnil => by
      have := (@List.mem_mergeSort _ Cand.le).2 hfacing
      rw [hnil] at this
      cases this
    obtain ⟨first, rest, hsorted⟩ := List.exists_cons_of_ne_nil hne
    rw [hsorted, List.head?_cons, Option.map_some]
    refine ⟨iff_of_false (Option.some_ne_none _) htouch, fun other hother => ?_⟩
    obtain rfl : first.id = other := Option.some.inj hother
    obtain ⟨hfirst, hleast⟩ := head_mergeSort (by rw [hsorted]; rfl)
    obtain ⟨hfirst, hover'⟩ := List.mem_filter.1 hfirst
    obtain ⟨pid', r', hr', -, hbeyond', rfl⟩ := mem_candidates.1 hfirst
    refine ⟨r', hget.1 hr', le_antisymm ?_ ?_, hover'⟩
    · exact hdist ▸ hleast _ hfacing
    · exact gap_le_edgeDist hg hcuts hmem hr' hbeyond' hover'

/-- A row of two panes, half of the wall each. -/
def twoPanes : LathTree := ⟨some (.split .row [⟨.leaf "a", 1 / 2⟩, ⟨.leaf "b", 1 / 2⟩])⟩

theorem valid_twoPanes : twoPanes.Valid 0 :=
  valid_two_leaves le_rfl .row (by decide) (by norm_num) (by norm_num) (by norm_num)

/-- Of two panes with a gap of 1 between them, the left one faces the right one. -/
theorem neighbors_complete_two_panes :
    (neighbors twoPanes ⟨0, 0, 5, 2⟩ "a" .right ⟨1, ⟨0, 0⟩⟩ = none ↔
        TouchesWall .right ⟨0, 0, 5, 2⟩ ⟨0, 0, 2, 2⟩) ∧
      ∀ other, neighbors twoPanes ⟨0, 0, 5, 2⟩ "a" .right ⟨1, ⟨0, 0⟩⟩ = some other →
        ∃ r, (layout twoPanes ⟨0, 0, 5, 2⟩ ⟨1, ⟨0, 0⟩⟩).get other = some r ∧
          edgeDist .right ⟨0, 0, 2, 2⟩ r = 1 ∧ overlapsAcross .right ⟨0, 0, 2, 2⟩ r = true := by
  have hentries : (layout twoPanes ⟨0, 0, 5, 2⟩ ⟨1, ⟨0, 0⟩⟩).entries =
      [("a", ⟨0, 0, 2, 2⟩), ("b", ⟨3, 0, 2, 2⟩)] := by decide +kernel
  refine neighbors_complete valid_twoPanes ⟨5, rfl⟩ ⟨2, rfl⟩ ⟨1, rfl⟩ (fun id r hr => ?_)
    (by decide +kernel) .right
  rw [InsertionMap.get_eq_some, hentries, List.mem_pair] at hr
  rcases hr with hr | hr <;> cases hr <;> norm_num

/-- **Fractions of a pixel and negative gaps break navigation.** On a wall or with a gap that is no
whole number of pixels the last pane of a row ends off the wall and has no neighbor beyond; with a
negative gap two panes overlap and neither is beyond the other. Every pane is larger than the gap. -/
theorem off_the_wall_without_neighbor :
    (neighbors twoPanes ⟨0, 0, 101 / 2, 10⟩ "b" .right ⟨0, ⟨0, 0⟩⟩ = none ∧
      (layout twoPanes ⟨0, 0, 101 / 2, 10⟩ ⟨0, ⟨0, 0⟩⟩).entries =
        [("a", ⟨0, 0, 25, 10⟩), ("b", ⟨25, 0, 26, 10⟩)] ∧
      ¬TouchesWall .right ⟨0, 0, 101 / 2, 10⟩ ⟨25, 0, 26, 10⟩) ∧
    (neighbors twoPanes ⟨0, 0, 10, 10⟩ "b" .right ⟨1 / 2, ⟨0, 0⟩⟩ = none ∧
      (layout twoPanes ⟨0, 0, 10, 10⟩ ⟨1 / 2, ⟨0, 0⟩⟩).entries =
        [("a", ⟨0, 0, 5, 10⟩), ("b", ⟨11 / 2, 0, 5, 10⟩)] ∧
      ¬TouchesWall .right ⟨0, 0, 10, 10⟩ ⟨11 / 2, 0, 5, 10⟩) ∧
    (neighbors twoPanes ⟨0, 0, 10, 10⟩ "a" .right ⟨-1, ⟨0, 0⟩⟩ = none ∧
      (layout twoPanes ⟨0, 0, 10, 10⟩ ⟨-1, ⟨0, 0⟩⟩).entries =
        [("a", ⟨0, 0, 6, 10⟩), ("b", ⟨5, 0, 5, 10⟩)] ∧
      ¬TouchesWall .right ⟨0, 0, 10, 10⟩ ⟨0, 0, 6, 10⟩) := by
  refine ⟨⟨by decide +kernel, by decide +kernel, ?_⟩, ⟨by decide +kernel, by decide +kernel, ?_⟩,
    by decide +kernel, by decide +kernel, ?_⟩ <;> norm_num [TouchesWall]

end Dormouse.Lath
