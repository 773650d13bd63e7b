import Dormouse.Lath.Fractional
import Dormouse.Lath.LayoutSound

/-!
# Dormouse.Lath.Before

**Which leaf comes before which.** Along an axis, a leaf is before another when some split of that
direction has them on its two sides. `normalize` keeps this order through every collapse and every
flattening, and a layout obeys it: the earlier leaf ends where the later one begins, or before.
-/

namespace Dormouse.Lath

/-- Leaf ids below a child list, in order. -/
def listLeaves (cs : List LathChild) : List LeafId := cs.flatMap fun c => c.node.leaves

@[simp] theorem listLeaves_append (as bs : List LathChild) :
    listLeaves (as ++ bs) = listLeaves as ++ listLeaves bs :=
  List.flatMap_append

theorem mem_listLeaves {cs : List LathChild} {a : LeafId} :
    a ∈ listLeaves cs ↔ ∃ c ∈ cs, a ∈ c.node.leaves :=
  List.mem_flatMap

theorem listLeaves_of_nodes {as bs : List LathChild} (h : as.map (·.node) = bs.map (·.node)) :
    listLeaves as = listLeaves bs :=
  flatMap_leaves_eq_of_nodes h

theorem ne_nil_of_mem_listLeaves {cs : List LathChild} {a : LeafId} (h : a ∈ listLeaves cs) :
    cs ≠ [] := by
  rintro rfl
  cases h

/-- A split of direction `dir` has `a` on its earlier and `b` on its later side. -/
inductive LathNode.Before (dir : Dir) (a b : LeafId) : LathNode → Prop
  | here {as bs : List LathChild} (ha : a ∈ listLeaves as) (hb : b ∈ listLeaves bs) :
      Before dir a b (.split dir (as ++ bs))
  | inner {d : Dir} {cs : List LathChild} {c : LathChild} (hc : c ∈ cs)
      (h : Before dir a b c.node) : Before dir a b (.split d cs)

namespace LathNode.Before

variable {dir : Dir} {a b : LeafId} {n : LathNode}

theorem mem (h : n.Before dir a b) : a ∈ n.leaves ∧ b ∈ n.leaves := by
  induction h with
  | here ha hb =>
    rw [leaves_split, ← listLeaves, listLeaves_append]
    exact ⟨List.mem_append_left _ ha, List.mem_append_right _ hb⟩
  | inner hc _ ih =>
    rw [leaves_split]
    exact ⟨mem_listLeaves.2 ⟨_, hc, ih.1⟩, mem_listLeaves.2 ⟨_, hc, ih.2⟩⟩

/-- Only a split orders leaves; there the two are on two sides, or below one child. -/
theorem cases_split {d : Dir} {cs : List LathChild} (h : (LathNode.split d cs).Before dir a b) :
    (d = dir ∧ ∃ as bs, cs = as ++ bs ∧ a ∈ listLeaves as ∧ b ∈ listLeaves bs) ∨
      ∃ c ∈ cs, c.node.Before dir a b := by
  cases h with
  | here ha hb => exact .inl ⟨rfl, _, _, rfl, ha, hb⟩
  | inner hc h => exact .inr ⟨_, hc, h⟩

/-- The order depends on the nodes of a child list alone. -/
theorem of_nodes {d : Dir} {cs ds : List LathChild} (hnodes : cs.map (·.node) = ds.map (·.node))
    (h : (LathNode.split d cs).Before dir a b) : (LathNode.split d ds).Before dir a b := by
  rcases h.cases_split with ⟨rfl, as, bs, rfl, ha, hb⟩ | ⟨c, hc, h⟩
  · rw [List.map_append] at hnodes
    obtain ⟨as', bs', rfl, has, hbs⟩ := List.map_eq_append_iff.1 hnodes.symm
    exact .here (listLeaves_of_nodes has ▸ ha) (listLeaves_of_nodes hbs ▸ hb)
  · have hmem : c.node ∈ ds.map (·.node) := hnodes ▸ List.mem_map_of_mem hc
    obtain ⟨d', hd', heq⟩ := List.mem_map.1 hmem
    exact .inner hd' (heq ▸ h)

/-- A child list within a longer one. -/
theorem widen {d : Dir} {cs : List LathChild} (pre post : List LathChild)
    (h : (LathNode.split d cs).Before dir a b) :
    (LathNode.split d (pre ++ cs ++ post)).Before dir a b := by
  rcases h.cases_split with ⟨rfl, as, bs, rfl, ha, hb⟩ | ⟨c, hc, h⟩
  · rw [show pre ++ (as ++ bs) ++ post = (pre ++ as) ++ (bs ++ post) by simp]
    refine .here ?_ ?_
    · rw [listLeaves_append]
      exact List.mem_append_right _ ha
    · rw [listLeaves_append]
      exact List.mem_append_left _ hb
  · exact .inner (List.mem_append_left _ (List.mem_append_right _ hc)) h

end LathNode.Before

/-! ### `normalize` keeps the order -/

theorem collected_append (dir : Dir) (as bs : List LathChild) :
    collected dir (as ++ bs) = collected dir as ++ collected dir bs := by
  induction as with
  | nil => rfl
  | cons c cs ih => rw [List.cons_append, collected_cons, collected_cons, ih, List.append_assoc]

theorem listLeaves_collected (dir : Dir) (cs : List LathChild) :
    listLeaves (collected dir cs) = listLeaves cs :=
  collected_leaves dir fun c _ => leaves_normalize c.node

/-- What one child contributes still orders the leaves that it orders. -/
theorem before_collected_child {dir d : Dir} {a b : LeafId} {c : LathChild} {m : LathNode}
    (hm : c.node.normalize = some m) (h : m.Before dir a b) :
    (LathNode.split d (collected d [c])).Before dir a b := by
  rw [collected_cons, hm, collected, List.append_nil]
  cases m with
  | leaf id => cases h
  | split e gcs =>
    by_cases he : e = d
    · simp only [if_pos he]
      rw [← he]
      exact h.of_nodes (by rw [List.map_map]; rfl)
    · simp only [if_neg he]
      exact .inner (List.mem_singleton_self _) h

/-- **`normalize` keeps the order of leaves.** -/
theorem before_normalize {dir : Dir} {a b : LeafId} {n : LathNode} (h : n.Before dir a b) :
    ∀ m, n.normalize = some m → m.Before dir a b := by
  -- Whatever the collected children order, the split made of them orders.
  have hfinish : ∀ {d : Dir} {cs : List LathChild} {m : LathNode},
      (LathNode.split d (collected d cs)).Before dir a b →
        (LathNode.split d cs).normalize = some m → m.Before dir a b := by
    intro d cs m hcol hm
    rw [normalize_split] at hm
    rcases hds : collected d cs with _ | ⟨c, _ | ⟨e, ds⟩⟩
    · rw [hds] at hm
      cases hm
    · rw [hds] at hm hcol
      obtain rfl : c.node = m := Option.some.inj hm
      rcases hcol.cases_split with ⟨rfl, as, bs, heq, ha, hb⟩ | ⟨c', hc', h'⟩
      · -- One child cannot stand on both sides.
        have hlen := congrArg List.length heq
        have has := List.length_pos_iff.2 (ne_nil_of_mem_listLeaves ha)
        have hbs := List.length_pos_iff.2 (ne_nil_of_mem_listLeaves hb)
        rw [List.length_append, List.length_singleton] at hlen
        omega
      · rw [List.mem_singleton.1 hc'] at h'
        exact h'
    · rw [hds] at hm hcol
      obtain rfl := Option.some.inj hm
      exact hcol.of_nodes (map_node_normalizeWeights _).symm
  induction h with
  | here ha hb =>
    intro m hm
    refine hfinish ?_ hm
    rw [collected_append]
    refine .here ?_ ?_
    · rw [listLeaves_collected]
      exact ha
    · rw [listLeaves_collected]
      exact hb
  | @inner d cs c hc h ih =>
    intro m hm
    refine hfinish ?_ hm
    obtain ⟨pre, post, rfl⟩ := List.append_of_mem hc
    have hsome : ∃ m', c.node.normalize = some m' := by
      cases hnorm : c.node.normalize with
      | none =>
        have hleaves := leaves_normalize c.node
        rw [hnorm] at hleaves
        exact absurd h.mem.1 (by rw [← hleaves]; exact List.not_mem_nil)
      | some m' => exact ⟨m', rfl⟩
    obtain ⟨m', hm'⟩ := hsome
    have hchild := (before_collected_child (d := d) hm' (ih m' hm')).widen (collected d pre)
      (collected d post)
    rw [List.append_cons, collected_append, collected_append]
    exact hchild

/-- A subtree that replaces another orders its leaves in the whole tree. -/
theorem before_replaceAtPath {dir : Dir} {a b : LeafId} {n old new : LathNode} {path : List Nat}
    (hold : n.nodeAtPath path = some old) (h : new.Before dir a b) :
    (n.replaceAtPath path new).Before dir a b := by
  induction path generalizing n with
  | nil => rwa [replaceAtPath_nil]
  | cons i path ih =>
    obtain ⟨d, cs, c, rfl, hc, hnode⟩ := child_of_nodeAtPath hold
    obtain ⟨before, after, -, -, hset⟩ := exists_split_of_getElem? hc
    rw [replaceAtPath_split_cons d cs i path new hc, hset]
    exact .inner (List.mem_append_right _ List.mem_cons_self) (ih hnode)

/-! ### A layout obeys the order -/

/-- The extents of a split are never negative. -/
theorem allocateChildSpans_nonneg {cs : List LathChild} {opts : LayoutOpts} {dir : Dir}
    (h : Allocatable cs opts dir) (span : ℚ) :
    ∀ s ∈ allocateChildSpans cs span opts dir, 0 ≤ s := by
  have hzero : mathRound 0 = 0 := by simpa using mathRound_intCast 0
  obtain ⟨hnonneg, hsum, -⟩ := fractionalSpans_spec h (le_max_left 0 (availableSpan cs span opts))
  have hspec := (cumulativeRoundFrom_spec 0 hnonneg ((zero_add _).trans_le hsum)).1
  rw [hzero] at hspec
  rw [allocateChildSpans, cumulativeRound]
  intro s hs
  generalize fractionalSpans cs (max 0 (availableSpan cs span opts)) opts dir = fracs at hspec hs
  revert hs
  generalize cumulativeRoundFrom _ 0 0 fracs = spans at hspec
  induction hspec with
  | nil => exact fun hs => absurd hs List.not_mem_nil
  | cons hhead _ ih =>
    intro hs
    rcases List.mem_cons.1 hs with rfl | hs
    · exact hhead.1
    · exact ih hs

theorem canonical_allocatable {tol : ℚ} {opts : LayoutOpts} (hopts : opts.Sane) {dir : Dir}
    {cs : List LathChild} (h : (LathNode.split dir cs).Canonical tol) (axis : Dir) :
    Allocatable cs opts axis := by
  cases h with
  | split two pos sum alternate below =>
    exact ⟨fun hnil => by simp [hnil] at two, pos, fun c hc => minSpan_nonneg hopts (below c hc) axis⟩

/-- An entry of a layout lies between two positions along an axis. -/
def Between (dir : Dir) (lo hi : ℚ) (e : LeafId × Rect) : Prop :=
  lo ≤ e.2.start dir ∧ e.2.start dir + e.2.span dir ≤ hi

/-- Leaves below a node laid out on whole pixels along an axis stay within it along that axis. -/
def LathNode.Stays (opts : LayoutOpts) (dir : Dir) (n : LathNode) : Prop :=
  ∀ R : Rect, IsWhole (R.span dir) →
    ∀ e ∈ n.leafRects opts R, Between dir (R.start dir) (R.start dir + R.span dir) e

/-- The leaves that a child list lays out are its own. -/
theorem map_fst_leafRectsOf (opts : LayoutOpts) (dir : Dir) (R : Rect) : ∀ {cs : List LathChild} {spans : List ℤ} (pos : ℚ),
    cs.length = spans.length →
      (leafRectsOf opts cs (slices R dir opts.gap pos spans)).map Prod.fst = listLeaves cs
  | [], [], _, _ => rfl
  | [], _ :: _, _, h => by simp at h
  | _ :: _, [], _, h => by simp at h
  | c :: cs, s :: spans, pos, h => by
    rw [slices, leafRectsOf, List.map_append, map_fst_leafRects,
      map_fst_leafRectsOf opts dir R _ (by simpa using h)]
    rfl

section Slices

variable {opts : LayoutOpts} {dir : Dir} (hgap : opts.gap = 0)
include hgap

/-- Consecutive slices keep their leaves between the first start and the last end. -/
theorem leafRectsOf_between (R : Rect) : ∀ {cs : List LathChild} {spans : List ℤ} {pos : ℚ},
    (∀ c ∈ cs, c.node.Stays opts dir) → (∀ s ∈ spans, 0 ≤ s) →
      ∀ e ∈ leafRectsOf opts cs (slices R dir opts.gap pos spans),
        Between dir pos (pos + (spans.sum : ℤ)) e
  | [], _, _, _, _, e, he => by
    rw [leafRectsOf] at he
    cases he
  | _ :: _, [], _, _, _, e, he => by
    rw [slices, leafRectsOf] at he
    cases he
  | c :: cs, s :: spans, pos, hcs, hspans, e, he => by
    have hs : (0 : ℚ) ≤ s := by exact_mod_cast hspans s List.mem_cons_self
    have hrest : (0 : ℚ) ≤ (spans.sum : ℤ) := by
      exact_mod_cast List.sum_nonneg fun t ht => hspans t (List.mem_cons_of_mem s ht)
    rw [slices, leafRectsOf, List.mem_append, hgap, add_zero] at he
    rw [List.sum_cons, Int.cast_add]
    rcases he with he | he
    · have hwhole : IsWhole ((R.slice dir pos s).span dir) := by
        rw [slice_span]
        exact isWhole_intCast (hspans s List.mem_cons_self)
      obtain ⟨hlo, hhi⟩ := hcs c List.mem_cons_self (R.slice dir pos s) hwhole e he
      rw [slice_start] at hlo hhi
      rw [slice_span] at hhi
      exact ⟨hlo, by linarith⟩
    · rw [← hgap] at he
      obtain ⟨hlo, hhi⟩ := leafRectsOf_between R (fun d hd => hcs d (List.mem_cons_of_mem c hd))
        (fun t ht => hspans t (List.mem_cons_of_mem s ht)) e he
      exact ⟨by linarith, by linarith⟩

/-- The slices of two child lists follow each other. -/
theorem leafRectsOf_append (R : Rect) (bs : List LathChild) : ∀ (as : List LathChild)
    {spans : List ℤ} (pos : ℚ), (as ++ bs).length = spans.length → ∃ front back,
      spans = front ++ back ∧ as.length = front.length ∧
        leafRectsOf opts (as ++ bs) (slices R dir opts.gap pos spans) =
          leafRectsOf opts as (slices R dir opts.gap pos front) ++
            leafRectsOf opts bs (slices R dir opts.gap (pos + (front.sum : ℤ)) back)
  | [], spans, pos, _ => ⟨[], spans, rfl, rfl, by simp [leafRectsOf]⟩
  | _ :: _, [], _, hlen => by simp at hlen
  | a :: as, s :: spans, pos, hlen => by
    obtain ⟨front, back, rfl, hfront, heq⟩ := leafRectsOf_append R bs as (pos + (s + opts.gap))
      (by simpa using hlen)
    refine ⟨s :: front, back, rfl, by simp [hfront], ?_⟩
    have hpos : pos + (s + opts.gap) + (front.sum : ℤ) = pos + ((s :: front).sum : ℤ) := by
      rw [List.sum_cons, hgap]
      push_cast
      ring
    rw [hpos] at heq
    rw [List.cons_append, slices, leafRectsOf, slices, leafRectsOf, heq, List.append_assoc]

theorem canonical_stays {tol : ℚ} (hopts : opts.Sane) {n : LathNode} (h : n.Canonical tol) :
    n.Stays opts dir := by
  induction h with
  | leaf id =>
    intro R _ e he
    rw [List.mem_singleton.1 he]
    exact ⟨le_rfl, le_rfl⟩
  | @split d cs two pos sum alternate below ih =>
    intro R hR e he
    have halloc := canonical_allocatable hopts (.split two pos sum alternate below) d
    have hspans := allocateChildSpans_nonneg halloc (R.span d)
    rw [LathNode.leafRects, forEachChildRect] at he
    by_cases hd : d = dir
    · -- The children's spans fill the split.
      subst hd
      obtain ⟨k, hk⟩ := hR
      have havail : availableSpan cs (R.span d) opts = ((k : ℤ) : ℚ) := by
        rw [availableSpan, hgap, hk]
        simp
      have htotal := (allocateChildSpans_spec halloc havail (Int.natCast_nonneg k)).2
      obtain ⟨hlo, hhi⟩ := leafRectsOf_between hgap R ih hspans e he
      rw [htotal] at hhi
      rw [hk]
      exact ⟨hlo, by simpa using hhi⟩
    · -- Across the split's own axis every child has the split's extent.
      generalize allocateChildSpans cs (R.span d) opts d = spans at he
      generalize R.start d = p at he
      clear two pos sum alternate below halloc hspans
      induction cs generalizing spans p with
      | nil =>
        rw [leafRectsOf] at he
        cases he
      | cons c cs ihcs =>
        rcases spans with _ | ⟨s, spans⟩
        · rw [slices, leafRectsOf] at he
          cases he
        rw [slices, leafRectsOf, List.mem_append] at he
        rcases he with he | he
        · have hsame : (R.slice d p s).start dir = R.start dir ∧
              (R.slice d p s).span dir = R.span dir := by
            cases d <;> cases dir <;>
              first
              | exact ⟨rfl, rfl⟩
              | exact absurd rfl hd
          have hstays := ih c List.mem_cons_self (R.slice d p s)
            (by rw [hsame.2]; exact hR) e he
          rwa [hsame.1, hsame.2] at hstays
        · exact ihcs (fun b hb => ih b (List.mem_cons_of_mem c hb)) _ _ he

/-- **A layout obeys the order**: with no gap, a leaf ends before any leaf it comes before begins. -/
theorem before_layout {tol : ℚ} (hopts : opts.Sane) {a b : LeafId} {n : LathNode}
    (h : n.Canonical tol) (hnodup : n.leaves.Nodup) (hbefore : n.Before dir a b) :
    ∀ (R ra rb : Rect), (a, ra) ∈ n.leafRects opts R → (b, rb) ∈ n.leafRects opts R →
      ra.start dir + ra.span dir ≤ rb.start dir := by
  have fst_mem : ∀ {L : List (LeafId × Rect)} {x : LeafId} {r : Rect}, (x, r) ∈ L →
      x ∈ L.map Prod.fst := fun hmem => List.mem_map_of_mem hmem
  induction hbefore with
  | @here as bs ha hb =>
    intro R ra rb hra hrb
    have halloc := canonical_allocatable hopts h dir
    have hspans := allocateChildSpans_nonneg halloc (R.span dir)
    have hstays : ∀ c ∈ as ++ bs, c.node.Stays opts dir := fun c hc =>
      canonical_stays hgap hopts (h.of_split c hc)
    have hlen := length_allocateChildSpans (as ++ bs) (R.span dir) opts dir
    rw [leaves_split, ← listLeaves, listLeaves_append, List.nodup_append] at hnodup
    obtain ⟨-, -, hdisjoint⟩ := hnodup
    rw [LathNode.leafRects, forEachChildRect] at hra hrb
    obtain ⟨front, back, hsplit, hfront, heq⟩ :=
      leafRectsOf_append hgap R bs as (R.start dir) hlen.symm
    rw [hsplit] at hspans
    have hback : bs.length = back.length := by
      rw [hsplit, List.length_append, List.length_append] at hlen
      omega
    rw [heq, List.mem_append] at hra hrb
    -- Unique ids: the first rectangle is among the earlier children, the second among the later.
    have hra' := hra.resolve_right fun hmem => by
      have hx := fst_mem hmem
      rw [map_fst_leafRectsOf opts dir R _ hback] at hx
      exact hdisjoint a ha a hx rfl
    have hrb' := hrb.resolve_left fun hmem => by
      have hx := fst_mem hmem
      rw [map_fst_leafRectsOf opts dir R _ hfront] at hx
      exact hdisjoint b hx b hb rfl
    have hend := (leafRectsOf_between hgap R
      (fun c hc => hstays c (List.mem_append_left _ hc))
      (fun s hs => hspans s (List.mem_append_left _ hs)) _ hra').2
    have hstart := (leafRectsOf_between hgap R
      (fun c hc => hstays c (List.mem_append_right _ hc))
      (fun s hs => hspans s (List.mem_append_right _ hs)) _ hrb').1
    exact hend.trans hstart
  | @inner d cs c hc hinner ih =>
    intro R ra rb hra hrb
    have hlen := length_allocateChildSpans cs (R.span d) opts d
    rw [LathNode.leafRects, forEachChildRect] at hra hrb
    obtain ⟨pre, post, rfl⟩ := List.append_of_mem hc
    rw [leaves_split, ← listLeaves, List.append_cons, listLeaves_append, listLeaves_append,
      List.nodup_append] at hnodup
    obtain ⟨hfirst, -, hdisjoint⟩ := hnodup
    obtain ⟨hpre, hown, hdisjoint'⟩ := List.nodup_append.1 hfirst
    have hsingle : listLeaves [c] = c.node.leaves := by simp [listLeaves]
    rw [hsingle] at hdisjoint hdisjoint' hown
    rw [List.append_cons] at hlen hra hrb
    obtain ⟨front, back, hsplit, hfront, heq⟩ :=
      leafRectsOf_append hgap R post (pre ++ [c]) (R.start d) hlen.symm
    have hback : post.length = back.length := by
      rw [hsplit, List.length_append, List.length_append] at hlen
      omega
    obtain ⟨front', own, hsplit', hfront', heq'⟩ :=
      leafRectsOf_append hgap R [c] pre (R.start d) hfront
    obtain ⟨s, rfl⟩ : ∃ s, own = [s] := by
      rw [hsplit', List.length_append, List.length_append] at hfront
      exact List.length_eq_one_iff.1 (by simp at hfront; omega)
    rw [heq, heq', slices, slices, leafRectsOf, leafRectsOf, List.append_nil, List.mem_append,
      List.mem_append] at hra hrb
    -- Unique ids: both rectangles are those of the child that orders the two.
    have hown' : ∀ {x : LeafId} {r : Rect} {P Q : List (LeafId × Rect)},
        x ∈ c.node.leaves → P.map Prod.fst = listLeaves pre → Q.map Prod.fst = listLeaves post →
          ((x, r) ∈ P ∨ (x, r) ∈ c.node.leafRects opts (R.slice d (R.start d + (front'.sum : ℤ)) s))
            ∨ (x, r) ∈ Q → (x, r) ∈ c.node.leafRects opts
              (R.slice d (R.start d + (front'.sum : ℤ)) s) := by
      intro x r P Q hx hP hQ hmem
      rcases hmem with (hmem | hmem) | hmem
      · have hpre' := fst_mem hmem
        rw [hP] at hpre'
        exact absurd rfl (hdisjoint' x hpre' x hx)
      · exact hmem
      · have hpost := fst_mem hmem
        rw [hQ] at hpost
        exact absurd rfl (hdisjoint x (List.mem_append_right _ hx) x hpost)
    have hleft := map_fst_leafRectsOf opts d R (R.start d) hfront'
    have hright := map_fst_leafRectsOf opts d R
      (R.start d + (front.sum : ℤ)) hback
    exact ih (h.of_split c hc) hown _ ra rb (hown' hinner.mem.1 hleft hright hra)
      (hown' hinner.mem.2 hleft hright hrb)

end Slices

end Dormouse.Lath
