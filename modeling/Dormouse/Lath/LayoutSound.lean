import Dormouse.Lath.Paths
import Dormouse.Lath.Spans
import Dormouse.Lib.Tiling

/-!
# Dormouse.Lath.LayoutSound

**Layout is an exact integer tiling.** The leaf rectangles of `layout` and the
bands of `sashes` tile the root rectangle, `nodeRectAtPath` agrees with `layout`
on every leaf, and a wall at least as large as the tree's minimum span costs each
leaf at most one pixel of its minimum.

One lemma about the child rectangles of a single split (`childRects_spec`) carries
the argument; everything else is an induction over the tree.
-/

namespace Dormouse.Lath

/-! ### Rectangles as regions -/

/-- Points of a rectangle, its right and bottom sides excluded. -/
def Rect.region (r : Rect) : Set (ℚ × ℚ) :=
  {p | (r.x ≤ p.1 ∧ p.1 < r.x + r.width) ∧ r.y ≤ p.2 ∧ p.2 < r.y + r.height}

def Rect.area (r : Rect) : ℚ := r.width * r.height

/-- `r` lies within the sides of `R`. -/
structure Rect.Inside (r R : Rect) : Prop where
  left : R.x ≤ r.x
  right : r.x + r.width ≤ R.x + R.width
  top : R.y ≤ r.y
  bottom : r.y + r.height ≤ R.y + R.height

/-- A nonnegative integer. -/
def IsWhole (q : ℚ) : Prop := ∃ n : ℕ, q = n

/-- Nonnegative integer coordinates and extents. -/
structure Rect.Whole (r : Rect) : Prop where
  x : IsWhole r.x
  y : IsWhole r.y
  width : IsWhole r.width
  height : IsWhole r.height

theorem IsWhole.nonneg {q : ℚ} (h : IsWhole q) : 0 ≤ q := by
  obtain ⟨n, rfl⟩ := h
  positivity

theorem IsWhole.add {p q : ℚ} (hp : IsWhole p) (hq : IsWhole q) : IsWhole (p + q) := by
  obtain ⟨m, rfl⟩ := hp
  obtain ⟨n, rfl⟩ := hq
  exact ⟨m + n, by push_cast; ring⟩

theorem isWhole_intCast {n : ℤ} (h : 0 ≤ n) : IsWhole n :=
  ⟨n.toNat, by exact_mod_cast (Int.toNat_of_nonneg h).symm⟩

theorem Rect.Inside.refl (r : Rect) : r.Inside r :=
  ⟨le_rfl, le_rfl, le_rfl, le_rfl⟩

theorem Rect.Inside.trans {a b c : Rect} (hab : a.Inside b) (hbc : b.Inside c) : a.Inside c :=
  ⟨hbc.left.trans hab.left, hab.right.trans hbc.right, hbc.top.trans hab.top,
    hab.bottom.trans hbc.bottom⟩

theorem Rect.Whole.start {r : Rect} (h : r.Whole) (dir : Dir) : IsWhole (r.start dir) := by
  cases dir
  · exact h.x
  · exact h.y

theorem Rect.Whole.span {r : Rect} (h : r.Whole) (dir : Dir) : IsWhole (r.span dir) := by
  cases dir
  · exact h.width
  · exact h.height

theorem Rect.Whole.slice {R : Rect} (h : R.Whole) (dir : Dir) {pos span : ℚ}
    (hpos : IsWhole pos) (hspan : IsWhole span) : (R.slice dir pos span).Whole := by
  cases dir
  · exact ⟨hpos, h.y, hspan, h.height⟩
  · exact ⟨h.x, hpos, h.width, hspan⟩

theorem Rect.inside_slice {R : Rect} {dir : Dir} {pos span : ℚ} (hpos : R.start dir ≤ pos)
    (hend : pos + span ≤ R.start dir + R.span dir) : (R.slice dir pos span).Inside R := by
  cases dir
  · exact ⟨hpos, hend, le_rfl, le_rfl⟩
  · exact ⟨le_rfl, le_rfl, hpos, hend⟩

theorem Rect.slice_self (R : Rect) (dir : Dir) : R.slice dir (R.start dir) (R.span dir) = R := by
  cases dir <;> rfl

/-- A slice keeps the extent across its direction. -/
theorem slice_span_ne (R : Rect) {dir axis : Dir} (h : axis ≠ dir) (pos span : ℚ) :
    (R.slice dir pos span).span axis = R.span axis := by
  cases dir <;> cases axis <;> first | rfl | exact absurd rfl h

theorem nonnegativeRect_of_whole {r : Rect} (h : r.Whole) : nonnegativeRect r = r := by
  rw [nonnegativeRect, max_eq_right h.width.nonneg, max_eq_right h.height.nonneg]

/-- Cutting a slice in two. -/
theorem tiles_cut (R : Rect) (dir : Dir) (pos : ℚ) {a b : ℚ} (ha : 0 ≤ a) (hb : 0 ≤ b) :
    Tiles Rect.region Rect.area (R.slice dir pos (a + b))
      [R.slice dir pos a, R.slice dir (pos + a) b] := by
  refine Tiles.cut ?_ ?_ ?_
  · rw [Set.disjoint_left]
    rintro ⟨x, y⟩ hp hq
    cases dir
    · exact absurd hq.1.1 (not_le.2 hp.1.2)
    · exact absurd hq.2.1 (not_le.2 hp.2.2)
  · ext ⟨x, y⟩
    cases dir <;>
      simp only [Rect.region, Rect.slice, Set.mem_ofPred_eq, Set.mem_union] <;>
      constructor
    · rintro ⟨⟨h1, h2⟩, h3⟩
      rcases lt_or_ge x (pos + a) with h | h
      · exact .inl ⟨⟨h1, h⟩, h3⟩
      · exact .inr ⟨⟨h, by linarith⟩, h3⟩
    · rintro (⟨⟨h1, h2⟩, h3⟩ | ⟨⟨h1, h2⟩, h3⟩)
      · exact ⟨⟨h1, by linarith⟩, h3⟩
      · exact ⟨⟨by linarith, by linarith⟩, h3⟩
    · rintro ⟨h3, h1, h2⟩
      rcases lt_or_ge y (pos + a) with h | h
      · exact .inl ⟨h3, h1, h⟩
      · exact .inr ⟨h3, h, by linarith⟩
    · rintro (⟨h3, h1, h2⟩ | ⟨h3, h1, h2⟩)
      · exact ⟨h3, h1, by linarith⟩
      · exact ⟨h3, by linarith, by linarith⟩
  · cases dir <;> simp only [Rect.area, Rect.slice] <;> ring

/-! ### Leaf rectangles as a list -/

mutual
/-- Leaves below a node with their rectangles, in split order. -/
def LathNode.leafRects (opts : LayoutOpts) : LathNode → Rect → List (LeafId × Rect)
  | .leaf id, r => [(id, r)]
  | .split dir children, r => leafRectsOf opts children (forEachChildRect dir children r opts)
/-- Leaves below each child with their rectangles. -/
def leafRectsOf (opts : LayoutOpts) : List LathChild → List Rect → List (LeafId × Rect)
  | c :: cs, r :: rs => c.node.leafRects opts r ++ leafRectsOf opts cs rs
  | [], _ => []
  | _ :: _, [] => []
end

/-- `layoutNode` records the leaf rectangles one by one. -/
theorem layoutNode_eq (opts : LayoutOpts) (n : LathNode) : ∀ (r : Rect)
    (out : InsertionMap LeafId Rect),
      layoutNode opts n r out = (n.leafRects opts r).foldl (fun m e => m.set e.1 e.2) out := by
  induction n with
  | leaf id => exact fun r out => rfl
  | split dir cs ih =>
    intro r out
    rw [layoutNode, LathNode.leafRects]
    generalize forEachChildRect dir cs r opts = rs
    induction cs generalizing rs out with
    | nil => rfl
    | cons c cs ihcs =>
      cases rs with
      | nil => rfl
      | cons r rs =>
        rw [layoutChildren, leafRectsOf, List.foldl_append, ← ih c List.mem_cons_self]
        exact ihcs (fun d hd => ih d (List.mem_cons_of_mem c hd)) _ _

theorem length_slices (R : Rect) (dir : Dir) (gap : ℚ) : ∀ (pos : ℚ) (spans : List ℤ),
    (slices R dir gap pos spans).length = spans.length
  | _, [] => rfl
  | pos, s :: spans => by
    rw [slices, List.length_cons, length_slices R dir gap _ spans, List.length_cons]

theorem length_cumulativeRoundFrom (target : ℤ) : ∀ (cum : ℚ) (prev : ℤ) (fracs : List ℚ),
    (cumulativeRoundFrom target cum prev fracs).length = fracs.length
  | _, _, [] => rfl
  | _, _, [_] => rfl
  | cum, prev, f :: g :: fracs => by
    rw [cumulativeRoundFrom, List.length_cons,
      length_cumulativeRoundFrom target _ _ (g :: fracs), List.length_cons (a := f)]

theorem length_waterfill : ∀ (fuel : Nat) (slots : List Slot) (remaining : ℚ),
    (waterfill fuel slots remaining).length = slots.length
  | 0, _, _ => rfl
  | fuel + 1, slots, remaining => by
    rw [waterfill]
    split
    · rfl
    · split
      · rw [length_waterfill fuel, List.length_map]
      · rw [List.length_map]

theorem length_allocateChildSpans (cs : List LathChild) (span : ℚ) (opts : LayoutOpts)
    (dir : Dir) : (allocateChildSpans cs span opts dir).length = cs.length := by
  rw [allocateChildSpans, cumulativeRound, length_cumulativeRoundFrom, fractionalSpans]
  split
  · split <;> simp
  · rw [List.length_map, length_waterfill, List.length_map]

/-- A split lays out one rectangle per child. -/
theorem length_forEachChildRect (dir : Dir) (cs : List LathChild) (r : Rect)
    (opts : LayoutOpts) : (forEachChildRect dir cs r opts).length = cs.length := by
  rw [forEachChildRect, length_slices, length_allocateChildSpans]

/-- The leaves that get a rectangle are the leaves of the tree, in order. -/
theorem map_fst_leafRects (opts : LayoutOpts) (n : LathNode) : ∀ r : Rect,
    (n.leafRects opts r).map Prod.fst = n.leaves := by
  induction n with
  | leaf id => exact fun r => rfl
  | split dir cs ih =>
    intro r
    rw [LathNode.leafRects, leaves_split]
    have hlen := length_forEachChildRect dir cs r opts
    generalize forEachChildRect dir cs r opts = rs at hlen
    induction cs generalizing rs with
    | nil => rfl
    | cons c cs ihcs =>
      cases rs with
      | nil => simp at hlen
      | cons r rs =>
        rw [leafRectsOf, List.map_append, ih c List.mem_cons_self, List.flatMap_cons,
          ihcs (fun d hd => ih d (List.mem_cons_of_mem c hd)) rs (by simpa using hlen)]

/-- The entries of `layout` are the leaf rectangles. -/
theorem layout_entries {tree : LathTree} {root : LathNode} (hroot : tree.root = some root)
    (hnodup : (leaves tree).Nodup) (rect : Rect) (opts : LayoutOpts) :
    (layout tree rect opts).entries = root.leafRects opts (nonnegativeRect rect) := by
  have hkeys : ((root.leafRects opts (nonnegativeRect rect)).map Prod.fst).Nodup := by
    rw [map_fst_leafRects]
    simpa [leaves, hroot] using hnodup
  rw [layout, hroot]
  simp only
  rw [layoutNode_eq, InsertionMap.entries_foldl_set _ _ (by simpa [InsertionMap.empty] using hkeys)]
  rfl

/-! ### The child rectangles of one split -/

/-- A whole gap and a minimum leaf size that is not negative. -/
structure LayoutOpts.Sane (opts : LayoutOpts) : Prop where
  gap : IsWhole opts.gap
  minLeaf : ∀ axis, 0 ≤ opts.minLeaf.along axis

/-- A whole minimum leaf size. -/
def LayoutOpts.WholeMin (opts : LayoutOpts) : Prop := ∀ axis, IsWhole (opts.minLeaf.along axis)

/-- The rectangle is at most one pixel short of the node's minimum span. -/
def LathNode.Roomy (opts : LayoutOpts) (n : LathNode) (r : Rect) : Prop :=
  ∀ axis, n.minSpan axis opts - 1 ≤ r.span axis

theorem minSpan_nonneg {opts : LayoutOpts} (hopts : opts.Sane) {tol : ℚ} {n : LathNode}
    (h : n.Canonical tol) (axis : Dir) : 0 ≤ n.minSpan axis opts := by
  induction h with
  | leaf id => exact hopts.minLeaf axis
  | @split dir cs two pos sum alternate below ih =>
    rw [LathNode.minSpan]
    split
    · rw [minSpanSum_eq]
      have hmins : 0 ≤ (cs.map fun c => c.node.minSpan axis opts).sum := by
        refine List.sum_nonneg ?_
        rintro m hm
        obtain ⟨c, hc, rfl⟩ := List.mem_map.1 hm
        exact ih c hc
      have hlen : (1 : ℚ) ≤ cs.length := by exact_mod_cast (by omega : 1 ≤ cs.length)
      have hgap := mul_nonneg hopts.gap.nonneg (sub_nonneg.2 hlen)
      linarith
    · exact minSpanMax_nonneg axis opts cs

theorem minSpan_int {opts : LayoutOpts} (hgap : IsWhole opts.gap) (hmin : opts.WholeMin)
    (n : LathNode) (axis : Dir) : ∃ k : ℤ, n.minSpan axis opts = k := by
  induction n with
  | leaf id =>
    obtain ⟨k, hk⟩ := hmin axis
    exact ⟨k, by simpa [LathNode.minSpan] using hk⟩
  | split dir cs ih =>
    rw [LathNode.minSpan]
    obtain ⟨g, hg⟩ := hgap
    split
    · have hsum : ∃ k : ℤ, minSpanSum axis opts cs = k := by
        clear * - ih
        induction cs with
        | nil => exact ⟨0, by simp [minSpanSum]⟩
        | cons c cs ihcs =>
          obtain ⟨k, hk⟩ := ih c List.mem_cons_self
          obtain ⟨l, hl⟩ := ihcs fun d hd => ih d (List.mem_cons_of_mem c hd)
          exact ⟨k + l, by rw [minSpanSum, hk, hl]; push_cast; ring⟩
      obtain ⟨k, hk⟩ := hsum
      exact ⟨k + g * (cs.length - 1), by rw [hk, hg]; push_cast; ring⟩
    · clear * - ih
      induction cs with
      | nil => exact ⟨0, by simp [minSpanMax]⟩
      | cons c cs ihcs =>
        obtain ⟨k, hk⟩ := ih c List.mem_cons_self
        obtain ⟨l, hl⟩ := ihcs fun d hd => ih d (List.mem_cons_of_mem c hd)
        exact ⟨max k l, by rw [minSpanMax, hk, hl]; push_cast; rfl⟩

/-- Extent of consecutive spans with a gap between each two. -/
def extent (gap : ℚ) : List ℤ → ℚ
  | [] => 0
  | [s] => s
  | s :: t :: spans => s + (gap + extent gap (t :: spans))

theorem extent_eq (gap : ℚ) : ∀ {spans : List ℤ}, spans ≠ [] →
    extent gap spans = spans.sum + gap * ((spans.length : ℚ) - 1)
  | [], h => absurd rfl h
  | [s], _ => by simp [extent]
  | s :: t :: spans, _ => by
    rw [extent, extent_eq gap (List.cons_ne_nil t spans)]
    simp only [List.sum_cons, List.length_cons]
    push_cast
    ring

theorem extent_nonneg {gap : ℚ} (hgap : 0 ≤ gap) : ∀ {spans : List ℤ}, (∀ s ∈ spans, 0 ≤ s) →
    0 ≤ extent gap spans
  | [], _ => le_rfl
  | [s], h => by
    have := h s List.mem_cons_self
    simpa [extent] using this
  | s :: t :: spans, h => by
    have hs : (0 : ℚ) ≤ s := by exact_mod_cast h s List.mem_cons_self
    have := extent_nonneg hgap fun u hu => h u (List.mem_cons_of_mem s hu)
    rw [extent]
    linarith

/-- Each slice starts on a whole coordinate and ends before the extent does. -/
theorem slices_spec (R : Rect) (dir : Dir) {gap : ℚ} (hgap : IsWhole gap) {α : Type}
    {P : α → ℤ → Prop} : ∀ {as : List α} {spans : List ℤ} {pos : ℚ}, IsWhole pos →
      List.Forall₂ (fun a s => 0 ≤ s ∧ P a s) as spans →
        List.Forall₂ (fun a r => ∃ p s, r = R.slice dir p (s : ℤ) ∧ IsWhole p ∧ 0 ≤ s ∧
            pos ≤ p ∧ p + s ≤ pos + extent gap spans ∧ P a s)
          as (slices R dir gap pos spans)
  | _, _, _, _, .nil => .nil
  | _, s :: spans, pos, hpos, .cons ⟨hs, hP⟩ hrest => by
    have hcast : (0 : ℚ) ≤ s := by exact_mod_cast hs
    have hnext := slices_spec R dir hgap (hpos.add ((isWhole_intCast hs).add hgap)) hrest
    have hg := hgap.nonneg
    have hall : ∀ t ∈ spans, 0 ≤ t := by
      clear * - hrest
      induction hrest with
      | nil => simp
      | cons h _ ih => exact List.forall_mem_cons.2 ⟨h.1, ih⟩
    rcases spans with _ | ⟨t, spans⟩
    · cases hrest
      exact .cons ⟨pos, s, rfl, hpos, hs, le_rfl, by simp [extent], hP⟩ .nil
    have htail := extent_nonneg hg hall
    refine .cons ⟨pos, s, rfl, hpos, hs, le_rfl, ?_, hP⟩ (hnext.imp ?_)
    · rw [extent]
      linarith
    · rintro a r ⟨p, u, hr, hp, hu, hle, hend, hPa⟩
      refine ⟨p, u, hr, hp, hu, by linarith, ?_, hPa⟩
      rw [extent]
      linarith

/-- The child rectangles of a split with room for its gaps: the slices of whole
spans that, with the gaps, fill the split. -/
theorem forEachChildRect_spec {tol : ℚ} {dir : Dir} {cs : List LathChild} {R : Rect}
    {opts : LayoutOpts} (hopts : opts.Sane) (h : (LathNode.split dir cs).Canonical tol)
    (hR : R.Whole) (havail : 0 ≤ availableSpan cs (R.span dir) opts) :
    ∃ spans : List ℤ, forEachChildRect dir cs R opts =
        slices R dir opts.gap (R.start dir) spans ∧
      extent opts.gap spans = R.span dir ∧
      List.Forall₂ (fun (c : LathChild) (s : ℤ) => 0 ≤ s ∧
        (opts.WholeMin → (LathNode.split dir cs).Roomy opts R →
          c.node.minSpan dir opts - 1 ≤ s)) cs spans := by
  cases h with
  | split two pos sum alternate below =>
    have hne : cs ≠ [] := by
      rintro rfl
      simp at two
    have halloc : Allocatable cs opts dir :=
      ⟨hne, pos, fun c hc => minSpan_nonneg hopts (below c hc) dir⟩
    obtain ⟨w, hw⟩ := hR.span dir
    obtain ⟨g, hg⟩ := hopts.gap
    have hspan : availableSpan cs (R.span dir) opts = ((w - g * (cs.length - 1) : ℤ) : ℚ) := by
      rw [availableSpan, hw, hg]
      push_cast
      ring
    rw [hspan] at havail
    obtain ⟨hall, htotal⟩ := allocateChildSpans_spec halloc hspan (by exact_mod_cast havail)
    refine ⟨_, rfl, ?_, hall.imp ?_⟩
    · have hne' : allocateChildSpans cs (R.span dir) opts dir ≠ [] := by
        intro hnil
        rw [hnil, List.forall₂_nil_right_iff] at hall
        exact hne hall
      rw [extent_eq _ hne', htotal, ← hall.length_eq, hw, hg]
      push_cast
      ring
    · rintro c s ⟨hs, hmin⟩
      refine ⟨hs, fun hwhole hroomy => hmin ?_ (minSpan_int hopts.gap hwhole c.node dir)⟩
      have hroom := hroomy dir
      rw [LathNode.minSpan, if_pos rfl, minSpanSum_eq] at hroom
      rw [← hspan, availableSpan, childMins]
      linarith

/-- What a split in a whole rectangle hands to each child. -/
structure ChildRect (opts : LayoutOpts) (n : LathNode) (R : Rect) (c : LathChild)
    (r : Rect) : Prop where
  whole : r.Whole
  inside : r.Inside R
  roomy : opts.WholeMin → n.Roomy opts R → c.node.Roomy opts r

theorem childRects_spec {tol : ℚ} {dir : Dir} {cs : List LathChild} {R : Rect}
    {opts : LayoutOpts} (hopts : opts.Sane) (h : (LathNode.split dir cs).Canonical tol)
    (hR : R.Whole) (havail : 0 ≤ availableSpan cs (R.span dir) opts) :
    List.Forall₂ (fun c r => c ∈ cs ∧ ChildRect opts (.split dir cs) R c r) cs
      (forEachChildRect dir cs R opts) := by
  obtain ⟨spans, hrects, hextent, hall⟩ := forEachChildRect_spec hopts h hR havail
  have hmem : List.Forall₂ (fun (c : LathChild) (s : ℤ) => 0 ≤ s ∧ c ∈ cs ∧
      (opts.WholeMin → (LathNode.split dir cs).Roomy opts R →
        c.node.minSpan dir opts - 1 ≤ s)) cs spans := by
    rw [List.forall₂_iff_get] at hall ⊢
    exact ⟨hall.1, fun i hi hi' => ⟨(hall.2 i hi hi').1, List.get_mem cs _, (hall.2 i hi hi').2⟩⟩
  rw [hrects]
  refine (slices_spec R dir hopts.gap (hR.start dir) hmem).imp ?_
  rintro c r ⟨p, s, rfl, hp, hs, hle, hend, hc, hmin⟩
  refine ⟨hc, hR.slice dir hp (isWhole_intCast hs), Rect.inside_slice hle (hextent ▸ hend), ?_⟩
  intro hwhole hroomy axis
  by_cases haxis : axis = dir
  · subst haxis
    rw [slice_span]
    exact hmin hwhole hroomy
  · rw [slice_span_ne R haxis]
    have hroom := hroomy axis
    rw [LathNode.minSpan, if_neg (fun hd => haxis hd.symm)] at hroom
    have := le_minSpanMax axis opts hc
    linarith

/-! ### Every split has room for its gaps -/

/-- Every split at or below a node laid out in `r` has a nonnegative available span. -/
def LathNode.Fits (opts : LayoutOpts) (n : LathNode) (r : Rect) : Prop :=
  ∀ path dir cs r', n.nodeAtPath path = some (.split dir cs) →
    n.nodeRectAtPath opts r path = some r' → 0 ≤ availableSpan cs (r'.span dir) opts

theorem LathNode.Fits.here {opts : LayoutOpts} {dir : Dir} {cs : List LathChild} {r : Rect}
    (h : (LathNode.split dir cs).Fits opts r) : 0 ≤ availableSpan cs (r.span dir) opts :=
  h [] dir cs r (nodeAtPath_nil _) rfl

theorem LathNode.Fits.child {opts : LayoutOpts} {dir : Dir} {cs : List LathChild} {r cr : Rect}
    {i : Nat} {c : LathChild} (h : (LathNode.split dir cs).Fits opts r) (hc : cs[i]? = some c)
    (hcr : (forEachChildRect dir cs r opts)[i]? = some cr) : c.node.Fits opts cr := by
  intro path d ds r' hnode hrect
  refine h (i :: path) d ds r' ?_ ?_
  · rw [nodeAtPath_split_cons, hc]
    exact hnode
  · rw [LathNode.nodeRectAtPath, hc, hcr]
    exact hrect

/-- Per child of a split: what holds of its rectangle, and that it has room below. -/
theorem LathNode.Fits.children {tol : ℚ} {dir : Dir} {cs : List LathChild} {R : Rect}
    {opts : LayoutOpts} (hopts : opts.Sane) (h : (LathNode.split dir cs).Canonical tol)
    (hR : R.Whole) (hfits : (LathNode.split dir cs).Fits opts R) :
    List.Forall₂ (fun c r => c ∈ cs ∧ ChildRect opts (.split dir cs) R c r ∧ c.node.Fits opts r)
      cs (forEachChildRect dir cs R opts) := by
  have hall := childRects_spec hopts h hR hfits.here
  rw [List.forall₂_iff_get] at hall ⊢
  refine ⟨hall.1, fun i hi hi' => ⟨(hall.2 i hi hi').1, (hall.2 i hi hi').2, ?_⟩⟩
  exact hfits.child (List.getElem?_eq_getElem hi) (List.getElem?_eq_getElem hi')

/-! ### The leaf rectangles -/

/-- A leaf's rectangle within the rectangle its tree is laid out in. -/
structure LeafRect (opts : LayoutOpts) (n : LathNode) (R r : Rect) : Prop where
  whole : r.Whole
  inside : r.Inside R
  minimum : opts.WholeMin → n.Roomy opts R → ∀ axis, opts.minLeaf.along axis - 1 ≤ r.span axis

theorem mem_leafRectsOf {opts : LayoutOpts} : ∀ {cs : List LathChild} {rs : List Rect}
    {e : LeafId × Rect}, e ∈ leafRectsOf opts cs rs →
      ∃ c r, (c, r) ∈ cs.zip rs ∧ e ∈ c.node.leafRects opts r
  | [], _, e, h => absurd h (by simp [leafRectsOf])
  | _ :: _, [], e, h => absurd h (by simp [leafRectsOf])
  | c :: cs, r :: rs, e, h => by
    rw [leafRectsOf] at h
    rcases List.mem_append.1 h with h | h
    · exact ⟨c, r, List.mem_cons_self, h⟩
    · obtain ⟨d, s, hmem, he⟩ := mem_leafRectsOf h
      exact ⟨d, s, List.mem_cons_of_mem _ hmem, he⟩

theorem leafRects_spec {tol : ℚ} {opts : LayoutOpts} (hopts : opts.Sane) (n : LathNode) :
    ∀ {R : Rect}, n.Canonical tol → R.Whole → n.Fits opts R →
      ∀ e ∈ n.leafRects opts R, LeafRect opts n R e.2 := by
  induction n with
  | leaf id =>
    intro R _ hR _ e he
    obtain rfl := List.mem_singleton.1 he
    exact ⟨hR, .refl R, fun _ hroomy => hroomy⟩
  | split dir cs ih =>
    intro R hcan hR hfits e he
    rw [LathNode.leafRects] at he
    obtain ⟨c, r, hzip, he⟩ := mem_leafRectsOf he
    obtain ⟨hc, hchild, hcfits⟩ := List.forall₂_zip (hfits.children hopts hcan hR) hzip
    have hleaf := ih c hc (hcan.of_split c hc) hchild.whole hcfits e he
    exact ⟨hleaf.whole, hleaf.inside.trans hchild.inside,
      fun hwhole hroomy => hleaf.minimum hwhole (hchild.roomy hwhole hroomy)⟩

/-- The rectangle at a leaf's path is the leaf's rectangle. -/
theorem nodeRectAtPath_mem_leafRects (opts : LayoutOpts) (n : LathNode) :
    ∀ (R : Rect) (path : List Nat) (id : LeafId), n.nodeAtPath path = some (.leaf id) →
      ∃ r, n.nodeRectAtPath opts R path = some r ∧ (id, r) ∈ n.leafRects opts R := by
  induction n with
  | leaf i =>
    intro R path id h
    cases path with
    | nil =>
      obtain rfl : i = id := by simpa using h
      exact ⟨R, rfl, List.mem_singleton_self _⟩
    | cons k path => exact absurd h (by simp)
  | split dir cs ih =>
    intro R path id h
    rcases path with _ | ⟨i, path⟩
    · exact absurd h (by simp)
    rw [nodeAtPath_split_cons] at h
    obtain ⟨c, hc, hnode⟩ := Option.bind_eq_some_iff.1 h
    obtain ⟨hi, rfl⟩ := List.getElem?_eq_some_iff.1 hc
    have hi' : i < (forEachChildRect dir cs R opts).length := by
      rwa [length_forEachChildRect]
    obtain ⟨r, hr, hmem⟩ := ih _ (List.getElem_mem hi)
      (forEachChildRect dir cs R opts)[i] path id hnode
    refine ⟨r, ?_, ?_⟩
    · rw [LathNode.nodeRectAtPath, hc, List.getElem?_eq_getElem hi']
      exact hr
    · rw [LathNode.leafRects]
      exact leafRects_subset hi hi' hmem
where
  leafRects_subset {opts : LayoutOpts} : ∀ {cs : List LathChild} {rs : List Rect} {i : Nat}
      {e : LeafId × Rect} (hi : i < cs.length) (hi' : i < rs.length),
        e ∈ cs[i].node.leafRects opts rs[i] → e ∈ leafRectsOf opts cs rs
    | c :: cs, r :: rs, 0, e, _, _, h => List.mem_append_left _ h
    | c :: cs, r :: rs, i + 1, e, hi, hi', h => by
      simp only [List.getElem_cons_succ] at h
      rw [leafRectsOf]
      exact List.mem_append_right _ (leafRects_subset (by simpa using hi) (by simpa using hi') h)

/-! ### Sashes and the tiling -/

theorem length_sashesFrom {opts : LayoutOpts} (dir : Dir) (R : Rect) (path : List Nat) {n : Nat} :
    ∀ {i : Nat} {cs : List LathChild} {rs : List Rect}, rs.length = cs.length →
      n = i + cs.length → cs ≠ [] →
      (∀ c ∈ cs, ∀ r p, (sashesBelow opts c.node r p).length + 1 = c.node.leaves.length) →
        (sashesFrom opts dir R path n i cs rs).length + 1 =
          (cs.flatMap fun c => c.node.leaves).length
  | _, [], _, _, _, hne, _ => absurd rfl hne
  | _, _ :: _, [], hlen, _, _, _ => by simp at hlen
  | i, [c], r :: rs, hlen, hn, _, h => by
    obtain rfl : rs = [] := by simpa using hlen
    have hc := h c List.mem_cons_self r (path ++ [i])
    have hlast : ¬ i + 1 < n := by simp [hn]
    simpa [sashesFrom, hlast] using hc
  | i, c :: d :: cs, r :: rs, hlen, hn, _, h => by
    have hc := h c List.mem_cons_self r (path ++ [i])
    have hlen' : rs.length = (d :: cs).length := by simpa using hlen
    have hn' : n = i + 1 + (d :: cs).length := by
      rw [hn, List.length_cons]
      omega
    have hrest := length_sashesFrom dir R path hlen' hn' (List.cons_ne_nil d cs)
      fun e he => h e (List.mem_cons_of_mem c he)
    have hlt : i + 1 < n := by simp [hn]
    rw [sashesFrom, if_pos hlt, List.flatMap_cons, List.length_append, List.length_append,
      List.length_append, ← hrest, ← hc, List.length_singleton]
    omega

theorem length_sashesBelow {tol : ℚ} (opts : LayoutOpts) (n : LathNode) :
    n.Canonical tol → ∀ (r : Rect) (path : List Nat),
      (sashesBelow opts n r path).length + 1 = n.leaves.length := by
  induction n with
  | leaf id => exact fun _ _ _ => rfl
  | split dir cs ih =>
    intro hcan r path
    rw [sashesBelow, leaves_split]
    exact length_sashesFrom dir r path (length_forEachChildRect dir cs r opts) (by omega) hcan.ne_nil
      fun c hc => ih c hc (hcan.of_split c hc)

/-- Leaf rectangles and sash bands of a node. -/
def LathNode.tiles (opts : LayoutOpts) (n : LathNode) (r : Rect) (path : List Nat) : List Rect :=
  (n.leafRects opts r).map Prod.snd ++ (sashesBelow opts n r path).map (·.rect)

theorem sashBand_slice (dir : Dir) (R : Rect) (pos span gap : ℚ) :
    sashBand dir R (R.slice dir pos span) gap = R.slice dir (pos + span) gap := by
  rw [sashBand, slice_start, slice_span]

/-- Tiled child rectangles and the bands between them tile the slice they span. -/
theorem children_tile {opts : LayoutOpts} {dir : Dir} {R : Rect} (path : List Nat) {n : Nat}
    (hgap : 0 ≤ opts.gap) : ∀ {i : Nat} {cs : List LathChild} {spans : List ℤ} {pos : ℚ},
      (∀ s ∈ spans, 0 ≤ s) → n = i + cs.length → cs ≠ [] →
      List.Forall₂ (fun c r => ∀ p, Tiles Rect.region Rect.area r (c.node.tiles opts r p)) cs
        (slices R dir opts.gap pos spans) →
        Tiles Rect.region Rect.area (R.slice dir pos (extent opts.gap spans))
          ((leafRectsOf opts cs (slices R dir opts.gap pos spans)).map Prod.snd ++
            (sashesFrom opts dir R path n i cs (slices R dir opts.gap pos spans)).map (·.rect))
  | _, [], _, _, _, _, hne, _ => absurd rfl hne
  | _, _ :: _, [], _, _, _, _, h => by simp [slices] at h
  | i, [c], [s], pos, _, hn, _, .cons hc .nil => by
    have hlast : ¬ i + 1 < n := by simp [hn]
    simpa [slices, leafRectsOf, sashesFrom, extent, hlast, LathNode.tiles] using
      hc (path ++ [i])
  | _, [_], _ :: _ :: _, _, _, _, _, .cons _ h => by simp [slices] at h
  | _, _ :: _ :: _, [_], _, _, _, _, .cons _ h => by simp [slices] at h
  | i, c :: d :: cs, s :: t :: spans, pos, hnonneg, hn, _, .cons hc hrest => by
    have hs : (0 : ℚ) ≤ s := by exact_mod_cast hnonneg s List.mem_cons_self
    have hnonneg' : ∀ u ∈ t :: spans, 0 ≤ u := fun u hu => hnonneg u (List.mem_cons_of_mem s hu)
    have hext := extent_nonneg hgap hnonneg'
    have hn' : n = i + 1 + (d :: cs).length := by
      rw [hn, List.length_cons]
      omega
    have htail := children_tile path hgap hnonneg' hn' (List.cons_ne_nil d cs) hrest
    have hlt : i + 1 < n := by simp [hn]
    -- child, band and remainder, then the tiles of the first and the last
    have hband := (tiles_cut R dir pos hs (add_nonneg hgap hext)).perm (List.Perm.swap _ _ _)
    have hcut := (hband.refine_head (tiles_cut R dir (pos + s) hgap hext)).perm
      (List.reverse_perm _).symm
    simp only [List.cons_append, List.nil_append, List.reverse_cons, List.reverse_nil] at hcut
    have hchild := (hcut.refine_head (hc (path ++ [i]))).perm List.perm_append_comm
    rw [add_assoc pos] at hchild
    refine (hchild.refine_head htail).perm ?_
    have hfirst : slices R dir opts.gap pos (s :: t :: spans) =
      R.slice dir pos s :: slices R dir opts.gap (pos + (s + opts.gap)) (t :: spans) := rfl
    rw [hfirst]
    generalize slices R dir opts.gap (pos + (s + opts.gap)) (t :: spans) = rs
    rw [leafRectsOf, sashesFrom, if_pos hlt, sashBand_slice, LathNode.tiles]
    simp only [List.map_append, List.map_cons, List.map_nil, List.append_eq]
    rw [← Multiset.coe_eq_coe]
    simp only [← Multiset.coe_add]
    abel

theorem forall₂_mem_right {α β : Type*} {R : α → β → Prop} {Q : β → Prop}
    (hQ : ∀ a b, R a b → Q b) : ∀ {as : List α} {bs : List β}, List.Forall₂ R as bs →
      ∀ b ∈ bs, Q b
  | _, _, .nil => by simp
  | _, _, .cons h hrest => List.forall_mem_cons.2 ⟨hQ _ _ h, forall₂_mem_right hQ hrest⟩

/-- **Leaf rectangles and sash bands tile the rectangle a tree is laid out in.** -/
theorem node_tiles {tol : ℚ} {opts : LayoutOpts} (hopts : opts.Sane) (n : LathNode) :
    n.Canonical tol → ∀ (R : Rect) (path : List Nat), R.Whole → n.Fits opts R →
      Tiles Rect.region Rect.area R (n.tiles opts R path) := by
  induction n with
  | leaf id =>
    intro _ R path _ _
    exact Tiles.single Rect.region Rect.area R
  | split dir cs ih =>
    intro hcan R path hR hfits
    obtain ⟨spans, hrects, hextent, hspans⟩ := forEachChildRect_spec hopts hcan hR hfits.here
    have hchildren := hfits.children hopts hcan hR
    rw [LathNode.tiles, LathNode.leafRects, sashesBelow]
    rw [hrects] at hchildren ⊢
    have htile := children_tile path (n := cs.length) (i := 0) hopts.gap.nonneg
      (forall₂_mem_right (fun _ _ h => h.1) hspans) (by omega) hcan.ne_nil
      (hchildren.imp fun c r ⟨hc, hchild, hcfits⟩ p =>
        ih c hc (hcan.of_split c hc) r p hchild.whole hcfits)
    rwa [hextent, Rect.slice_self] at htile

/-! ### The layout of a tree -/

/-- Every split of the tree has a nonnegative available span under `layout`'s geometry. -/
def SplitsFit (tree : LathTree) (rect : Rect) (opts : LayoutOpts) : Prop :=
  ∀ path dir cs r, nodeAtPath tree path = some (.split dir cs) →
    nodeRectAtPath tree rect opts path = some r → 0 ≤ availableSpan cs (r.span dir) opts

theorem SplitsFit.fits {tree : LathTree} {root : LathNode} {rect : Rect} {opts : LayoutOpts}
    (h : SplitsFit tree rect opts) (hroot : tree.root = some root) :
    root.Fits opts (nonnegativeRect rect) := by
  intro path dir cs r hnode hrect
  refine h path dir cs r ?_ ?_
  · rw [nodeAtPath, hroot]
    exact hnode
  · rw [nodeRectAtPath, hroot]
    exact hrect

/-- A tree's minimum span fits the rectangle on both axes. -/
def MinSpanFits (tree : LathTree) (rect : Rect) (opts : LayoutOpts) : Prop :=
  ∀ root, tree.root = some root → ∀ axis, root.minSpan axis opts ≤ rect.span axis

/-- What layout promises of a tree in a rectangle. -/
structure ExactLayout (tree : LathTree) (rect : Rect) (opts : LayoutOpts) : Prop where
  /-- Exactly the leaves of the tree get a rectangle. -/
  keys : (layout tree rect opts).keys = leaves tree
  /-- It is whole and inside the root rectangle. -/
  leaf : ∀ id r, (layout tree rect opts).get id = some r → r.Whole ∧ r.Inside rect
  /-- With the sash bands, the leaf rectangles tile the root rectangle. -/
  tiles : tree.root ≠ none → Tiles Rect.region Rect.area rect
    ((layout tree rect opts).entries.map Prod.snd ++ (sashes tree rect opts).map (·.rect))
  /-- One sash less than leaves. -/
  sash_count : (sashes tree rect opts).length = (leaves tree).length - 1
  /-- The rectangle at a leaf's path is the leaf's. -/
  rect_at_path : ∀ id path, findLeafPath tree id = some path →
    ∃ r, nodeRectAtPath tree rect opts path = some r ∧ (layout tree rect opts).get id = some r
  /-- A whole minimum that fits costs a leaf at most one pixel of its own. -/
  minimum : opts.WholeMin → MinSpanFits tree rect opts → ∀ id r,
    (layout tree rect opts).get id = some r → ∀ axis, opts.minLeaf.along axis - 1 ≤ r.span axis

/-- **Layout is exact** for every valid tree, whole rectangle and whole gap under
which every split has room for its gaps. -/
theorem layout_exact (tree : LathTree) (rect : Rect) (opts : LayoutOpts)
    (hvalid : tree.Valid validateTol) (hrect : rect.Whole) (hopts : opts.Sane)
    (hfits : SplitsFit tree rect opts) : ExactLayout tree rect opts := by
  cases hroot : tree.root with
  | none =>
    refine ⟨?_, ?_, fun h => absurd hroot h, ?_, ?_, ?_⟩
    all_goals simp [layout, sashes, leaves, findLeafPath, hroot, InsertionMap.keys,
      InsertionMap.empty, InsertionMap.get, InsertionMap.getEntry]
  | some root =>
    have hcan := hvalid.canonical root hroot
    have hfit := hfits.fits hroot
    have hentries := layout_entries hroot hvalid.nodup rect opts
    have hleaves : leaves tree = root.leaves := by rw [leaves, hroot]
    have hsashes : sashes tree rect opts = sashesBelow opts root (nonnegativeRect rect) [] := by
      rw [sashes, hroot]
    rw [nonnegativeRect_of_whole hrect] at hfit hentries hsashes
    have hget : ∀ {id r}, (layout tree rect opts).get id = some r ↔
        (id, r) ∈ root.leafRects opts rect := by
      intro id r
      rw [InsertionMap.get_eq_some, hentries]
    refine ⟨?_, ?_, ?_, ?_, ?_, ?_⟩
    · rw [InsertionMap.keys, hentries, map_fst_leafRects, hleaves]
    · intro id r h
      have hleaf := leafRects_spec hopts root hcan hrect hfit _ (hget.1 h)
      exact ⟨hleaf.whole, hleaf.inside⟩
    · intro _
      rw [hentries, hsashes]
      exact node_tiles hopts root hcan rect [] hrect hfit
    · have := length_sashesBelow opts root hcan rect []
      rw [hsashes, hleaves]
      omega
    · intro id path h
      have hnode := nodeAtPath_findLeafPath (by simpa [findLeafPath, hroot] using h)
      obtain ⟨r, hr, hmem⟩ := nodeRectAtPath_mem_leafRects opts root rect path id hnode
      refine ⟨r, ?_, hget.2 hmem⟩
      rw [nodeRectAtPath, hroot, nonnegativeRect_of_whole hrect]
      exact hr
    · intro hwhole hmin id r h
      have hleaf := leafRects_spec hopts root hcan hrect hfit _ (hget.1 h)
      refine hleaf.minimum hwhole fun axis => ?_
      have := hmin root hroot axis
      linarith

/-- Two panes side by side. -/
theorem layout_exact_row :
    ExactLayout ⟨some (.split .row [⟨.leaf "a", 1 / 4⟩, ⟨.leaf "b", 3 / 4⟩])⟩ ⟨0, 0, 11, 4⟩
      ⟨2, ⟨1, 1⟩⟩ := by
  have hvalid : LathTree.Valid validateTol
      ⟨some (.split .row [⟨.leaf "a", 1 / 4⟩, ⟨.leaf "b", 3 / 4⟩])⟩ :=
    valid_two_leaves (by norm_num [validateTol]) .row (by decide) (by norm_num) (by norm_num)
      (by norm_num)
  refine layout_exact _ _ _ hvalid ?_ ⟨⟨2, rfl⟩, fun axis => ?_⟩ ?_
  · exact ⟨⟨0, rfl⟩, ⟨0, rfl⟩, ⟨11, rfl⟩, ⟨4, rfl⟩⟩
  · cases axis <;> norm_num [Size.along]
  · intro path dir cs r hnode hrect
    rw [nodeAtPath, Option.bind_some] at hnode
    rcases path with _ | ⟨i, path⟩
    · rw [nodeAtPath_nil] at hnode
      obtain ⟨rfl, rfl⟩ := LathNode.split.inj (Option.some.inj hnode)
      obtain rfl := Option.some.inj hrect
      norm_num [availableSpan, nonnegativeRect, Rect.span]
    · -- below the root there are only leaves
      rw [nodeAtPath_split_cons] at hnode
      obtain ⟨c, hc, hbelow⟩ := Option.bind_eq_some_iff.1 hnode
      rcases List.mem_pair.1 (List.mem_of_getElem? hc) with rfl | rfl
      all_goals cases path <;> simp at hbelow

end Dormouse.Lath
