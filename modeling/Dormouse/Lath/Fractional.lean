import Mathlib.Algebra.BigOperators.Ring.List
import Dormouse.Lath.OpsValid

/-!
# Dormouse.Lath.Fractional

**Geometry by shares.** Read as shares of their split, the weights of a tree cut a rectangle up
without gaps, minimums or rounding. `normalize` keeps these rectangles: collapsing a split of one
child leaves that child the whole, and a flattened grandchild takes the product of two shares. A
`split` therefore halves one leaf and moves no other.
-/

namespace Dormouse.Lath

/-- The part of a rect that takes the share `share` of its extent along `dir`, from the share
`offset` on. -/
def Rect.portion (r : Rect) (dir : Dir) (offset share : ℚ) : Rect :=
  r.slice dir (r.start dir + offset * r.span dir) (share * r.span dir)

theorem Rect.portion_portion (r : Rect) (dir : Dir) (a s b t : ℚ) :
    (r.portion dir a s).portion dir b t = r.portion dir (a + b * s) (t * s) := by
  cases dir <;> simp only [Rect.portion, Rect.slice, Rect.start, Rect.span, Rect.mk.injEq,
    true_and, and_true] <;> constructor <;> ring

theorem Rect.portion_whole (r : Rect) (dir : Dir) : r.portion dir 0 1 = r := by
  cases dir <;> simp [Rect.portion, Rect.slice, Rect.start, Rect.span]

mutual
/-- The rectangles of the leaves below a node, pre-order, each child of a split taking the share
of its weight. -/
def LathNode.fracRects : LathNode → Rect → List (LeafId × Rect)
  | .leaf id, r => [(id, r)]
  | .split dir children, r => fracRectsFrom dir r (weightSum children) 0 children
/-- The same below a child list of total weight `total`, of which `before` lies before it. -/
def fracRectsFrom (dir : Dir) (r : Rect) (total : ℚ) : ℚ → List LathChild → List (LeafId × Rect)
  | _, [] => []
  | before, c :: cs =>
    c.node.fracRects (r.portion dir (before / total) (c.weight / total)) ++
      fracRectsFrom dir r total (before + c.weight) cs
end

/-- The rectangles of a tree's leaves by shares. -/
def LathTree.fracRects (tree : LathTree) (r : Rect) : List (LeafId × Rect) :=
  match tree.root with
  | none => []
  | some root => root.fracRects r

/-- Every split has a child. -/
inductive LathNode.Leafy : LathNode → Prop
  | leaf (id : LeafId) : Leafy (.leaf id)
  | split {dir : Dir} {children : List LathChild} (ne : children ≠ [])
      (below : ∀ c ∈ children, c.node.Leafy) : Leafy (.split dir children)

theorem LathNode.Canonical.leafy {tol : ℚ} {n : LathNode} (h : n.Canonical tol) : n.Leafy := by
  induction h with
  | leaf id => exact .leaf id
  | split two pos sum alternate below ih =>
    exact .split (fun hnil => by simp [hnil] at two) ih

/-! ### Child lists -/

theorem fracRectsFrom_append (dir : Dir) (r : Rect) (total : ℚ) (as bs : List LathChild) :
    ∀ before : ℚ, fracRectsFrom dir r total before (as ++ bs) =
      fracRectsFrom dir r total before as ++ fracRectsFrom dir r total (before + weightSum as) bs := by
  induction as with
  | nil => simp [fracRectsFrom]
  | cons a as ih =>
    intro before
    rw [List.cons_append, fracRectsFrom, fracRectsFrom, ih, weightSum_cons, List.append_assoc,
      add_assoc]

/-- Only the proportions of the weights count. -/
theorem fracRectsFrom_scale (dir : Dir) (r : Rect) {k : ℚ} (hk : k ≠ 0) (total : ℚ)
    (cs : List LathChild) : ∀ before : ℚ,
      fracRectsFrom dir r (total / k) (before / k) (cs.map fun c => ⟨c.node, c.weight / k⟩) =
        fracRectsFrom dir r total before cs := by
  induction cs with
  | nil => intro before; rfl
  | cons c cs ih =>
    intro before
    rw [List.map_cons, fracRectsFrom, fracRectsFrom, ← add_div, ih, div_div_div_cancel_right₀ hk,
      div_div_div_cancel_right₀ hk]

/-- A child list within a child along the same axis: its weights scale by the child's. -/
theorem fracRectsFrom_nested (dir : Dir) (r : Rect) (total before weight : ℚ)
    (gcs : List LathChild) : ∀ inner : ℚ,
      fracRectsFrom dir (r.portion dir (before / total) (weight / total)) 1 inner gcs =
        fracRectsFrom dir r total (before + inner * weight)
          (gcs.map fun gc => ⟨gc.node, gc.weight * weight⟩) := by
  induction gcs with
  | nil => intro inner; rfl
  | cons gc gcs ih =>
    intro inner
    have hoffset : before / total + inner / 1 * (weight / total) =
        (before + inner * weight) / total := by ring
    have hshare : gc.weight / 1 * (weight / total) = gc.weight * weight / total := by ring
    have hnext : before + (inner + gc.weight) * weight =
        before + inner * weight + gc.weight * weight := by ring
    rw [List.map_cons, fracRectsFrom, fracRectsFrom, ih, Rect.portion_portion, hoffset, hshare,
      hnext]

/-- Normalizing the weights of a child list moves nothing. -/
theorem fracRects_normalizeWeights (dir : Dir) (r : Rect) {cs : List LathChild} (hne : cs ≠ [])
    (hpos : ∀ c ∈ cs, 0 < c.weight) :
    (LathNode.split dir (normalizeWeights cs)).fracRects r =
      (LathNode.split dir cs).fracRects r := by
  have hsum := weightSum_pos hne hpos
  rw [LathNode.fracRects, weightSum_normalizeWeights hne hpos, LathNode.fracRects,
    normalizeWeights_of_pos hne hpos, ← fracRectsFrom_scale dir r hsum.ne' (weightSum cs) cs 0,
    div_self hsum.ne', zero_div]

/-! ### `normalize` keeps the rectangles -/

/-- A node that `normalize` keeps with its rectangles. -/
def LathNode.KeepsRects (n : LathNode) : Prop :=
  ∃ m, n.normalize = some m ∧ ∀ r, m.fracRects r = n.fracRects r

theorem collected_fracRects (dir : Dir) {cs : List LathChild}
    (hkeeps : ∀ c ∈ cs, c.node.KeepsRects)
    (hcan : ∀ c ∈ cs, ∀ m, c.node.normalize = some m → m.Canonical 0) :
    weightSum (collected dir cs) = weightSum cs ∧ ∀ r total before,
      fracRectsFrom dir r total before (collected dir cs) =
        fracRectsFrom dir r total before cs := by
  induction cs with
  | nil => exact ⟨rfl, fun _ _ _ => rfl⟩
  | cons c cs ih =>
    obtain ⟨hsum, hrects⟩ := ih (fun d hd => hkeeps d (List.mem_cons_of_mem c hd))
      fun d hd => hcan d (List.mem_cons_of_mem c hd)
    obtain ⟨m, hm, hsame⟩ := hkeeps c List.mem_cons_self
    have hcanon := hcan c List.mem_cons_self m hm
    rw [collected_cons, hm]
    cases m with
    | leaf id =>
      refine ⟨by simp [hsum], fun r total before => ?_⟩
      show fracRectsFrom dir r total before ([⟨.leaf id, c.weight⟩] ++ collected dir cs) = _
      rw [List.singleton_append, fracRectsFrom, fracRectsFrom, hrects, hsame]
    | split d gcs =>
      by_cases hd : d = dir
      · -- The grandchildren of the same direction move up, with products of weights.
        have hone : weightSum gcs = 1 := by
          cases hcanon with
          | split two pos sum alternate below => linarith [abs_nonpos_iff.1 sum]
        have hscaled : weightSum (gcs.map fun gc => ⟨gc.node, gc.weight * c.weight⟩) =
            c.weight := by
          rw [weightSum, List.map_map]
          show (gcs.map fun gc => gc.weight * c.weight).sum = c.weight
          rw [List.sum_map_mul_right, show (gcs.map fun gc => gc.weight).sum = 1 from hone,
            one_mul]
        simp only [if_pos hd]
        refine ⟨by rw [weightSum_append, hscaled, weightSum_cons, hsum], fun r total before => ?_⟩
        have hnested := fracRectsFrom_nested dir r total before c.weight gcs 0
        rw [zero_mul, add_zero] at hnested
        rw [fracRectsFrom_append, hscaled, hrects, fracRectsFrom, ← hsame, LathNode.fracRects,
          hone, hd, hnested]
      · simp only [if_neg hd]
        refine ⟨by simp [hsum], fun r total before => ?_⟩
        rw [List.singleton_append, fracRectsFrom, fracRectsFrom, hrects, hsame]

/-- **`normalize` keeps every rectangle** of a tree with positive weights and no empty split. -/
theorem keepsRects_of_positive {n : LathNode} (hpos : n.Positive) (hleafy : n.Leafy) :
    n.KeepsRects := by
  induction n with
  | leaf id => exact ⟨.leaf id, rfl, fun _ => rfl⟩
  | split dir cs ih =>
    obtain ⟨hweights, hbelow⟩ := hpos.of_split
    cases hleafy with
    | split hne hleafy =>
      have hcan : ∀ c ∈ cs, ∀ m, c.node.normalize = some m → m.Canonical 0 :=
        fun c hc => canonical_normalize (hbelow c hc)
      have hcol := collected_collectable dir hweights hcan
      obtain ⟨hsum, hrects⟩ := collected_fracRects dir
        (fun c hc => ih c hc (hbelow c hc) (hleafy c hc)) hcan
      have htotal := weightSum_pos hne hweights
      rw [LathNode.KeepsRects, normalize_split]
      rcases hds : collected dir cs with _ | ⟨c, _ | ⟨d, ds⟩⟩
      · rw [hds, weightSum_nil] at hsum
        exact absurd hsum htotal.ne
      · -- One child is left: its share is the whole.
        refine ⟨c.node, rfl, fun r => ?_⟩
        rw [hds, weightSum_cons, weightSum_nil, add_zero] at hsum
        rw [LathNode.fracRects, ← hrects, hds, fracRectsFrom, fracRectsFrom, List.append_nil,
          zero_div, hsum, div_self htotal.ne', Rect.portion_whole]
      · refine ⟨_, rfl, fun r => ?_⟩
        rw [hds] at hcol
        rw [fracRects_normalizeWeights dir r (List.cons_ne_nil _ _) fun e he => (hcol e he).pos,
          ← hds, LathNode.fracRects, hsum, hrects, ← LathNode.fracRects]

/-! ### Canonical trees -/

mutual
/-- The tree with the weights of every split rescaled to the sum 1. -/
def LathNode.rescale : LathNode → LathNode
  | .leaf id => .leaf id
  | .split dir children => .split dir (normalizeWeights (rescaleAll children))
/-- The child list with every child's tree rescaled. -/
def rescaleAll : List LathChild → List LathChild
  | [] => []
  | c :: cs => ⟨c.node.rescale, c.weight⟩ :: rescaleAll cs
end

theorem rescaleAll_eq (cs : List LathChild) :
    rescaleAll cs = cs.map fun c => ⟨c.node.rescale, c.weight⟩ := by
  induction cs with
  | nil => rfl
  | cons c cs ih => rw [rescaleAll, ih, List.map_cons]

@[simp] theorem dir?_rescale (n : LathNode) : n.rescale.dir? = n.dir? := by
  cases n <;> rfl

theorem fingerprints_eq (cs : List LathChild) :
    fingerprints cs = (cs.map (·.node)).map structureFingerprint := by
  induction cs with
  | nil => rfl
  | cons c cs ih => rw [fingerprints, ih, List.map_cons, List.map_cons]

/-- Rescaling keeps the structure. -/
@[simp] theorem structureFingerprint_rescale (n : LathNode) :
    structureFingerprint n.rescale = structureFingerprint n := by
  induction n with
  | leaf id => rfl
  | split dir cs ih =>
    rw [LathNode.rescale, structureFingerprint, structureFingerprint, fingerprints_eq,
      fingerprints_eq, map_node_normalizeWeights, rescaleAll_eq, List.map_map, List.map_map,
      List.map_map]
    congr 1
    exact List.map_congr_left fun c hc => ih c hc

theorem collected_of_alternate {dir : Dir} {cs : List LathChild}
    (halternate : ∀ c ∈ cs, c.node.dir? ≠ some dir)
    (hnormal : ∀ c ∈ cs, c.node.normalize = some c.node.rescale) :
    collected dir cs = rescaleAll cs := by
  induction cs with
  | nil => rfl
  | cons c cs ih =>
    have hdir := halternate c List.mem_cons_self
    rw [← dir?_rescale] at hdir
    rw [collected_cons, hnormal c List.mem_cons_self, rescaleAll,
      ih (fun d hd => halternate d (List.mem_cons_of_mem c hd))
        fun d hd => hnormal d (List.mem_cons_of_mem c hd)]
    cases hn : c.node.rescale with
    | leaf id => rfl
    | split d gcs =>
      have hne : d ≠ dir := by
        rw [hn] at hdir
        exact fun heq => hdir (by rw [heq]; rfl)
      simp only [if_neg hne, List.singleton_append]

/-- On a canonical tree `normalize` rescales the weights and changes nothing else. -/
theorem normalize_of_canonical {tol : ℚ} {n : LathNode} (h : n.Canonical tol) :
    n.normalize = some n.rescale := by
  induction h with
  | leaf id => rfl
  | @split dir cs two pos sum alternate below ih =>
    rw [normalize_split, collected_of_alternate alternate ih, LathNode.rescale]
    match hcs : cs with
    | [] => simp at two
    | [c] => simp at two
    | c :: d :: ds => rfl

theorem rescale_of_exact {n : LathNode} (h : n.Canonical 0) : n.rescale = n := by
  induction h with
  | leaf id => rfl
  | @split dir cs two pos sum alternate below ih =>
    have hone : weightSum cs = 1 := by linarith [abs_nonpos_iff.1 sum]
    have hall : rescaleAll cs = cs := by
      rw [rescaleAll_eq]
      exact (List.map_congr_left fun c hc => by rw [ih c hc, id]).trans (List.map_id cs)
    have hne : cs ≠ [] := fun hnil => by simp [hnil] at two
    rw [LathNode.rescale, hall, normalizeWeights_of_pos hne pos, hone]
    congr 1
    exact (List.map_congr_left fun c _ => by rw [div_one, id]).trans (List.map_id cs)

theorem normalize_of_exact {n : LathNode} (h : n.Canonical 0) : n.normalize = some n := by
  rw [normalize_of_canonical h, rescale_of_exact h]

/-- **`normalize` is idempotent.** -/
theorem normalize_normalize {n : LathNode} (h : n.Positive) :
    n.normalize.bind (·.normalize) = n.normalize := by
  cases hn : n.normalize with
  | none => rfl
  | some m => exact normalize_of_exact (canonical_normalize h m hn)

/-! ### Replacing a subtree -/

theorem exists_split_of_getElem? {α : Type*} {l : List α} {i : Nat} {a : α} (h : l[i]? = some a) :
    ∃ before after, l = before ++ a :: after ∧ before.length = i ∧
      ∀ b, l.set i b = before ++ b :: after := by
  induction l generalizing i with
  | nil => cases h
  | cons x l ih =>
    cases i with
    | zero =>
      cases h
      exact ⟨[], l, rfl, rfl, fun _ => rfl⟩
    | succ i =>
      obtain ⟨before, after, heq, hlen, hset⟩ := ih h
      exact ⟨x :: before, after, congrArg (x :: ·) heq, congrArg (· + 1) hlen,
        fun b => congrArg (x :: ·) (hset b)⟩

/-- A subtree has a rectangle of its own, and whatever replaces it is laid out there. -/
theorem fracRects_replaceAtPath {n old : LathNode} {path : List Nat}
    (h : n.nodeAtPath path = some old) : ∀ r, ∃ before after former,
      n.fracRects r = before ++ old.fracRects former ++ after ∧
        ∀ new, (n.replaceAtPath path new).fracRects r =
          before ++ new.fracRects former ++ after := by
  induction path generalizing n with
  | nil =>
    intro r
    rw [nodeAtPath_nil] at h
    cases h
    exact ⟨[], [], r, by simp, fun new => by simp⟩
  | cons i path ih =>
    intro r
    obtain ⟨dir, cs, c, rfl, hc, hnode⟩ := child_of_nodeAtPath h
    obtain ⟨as, bs, hcs, -, hset⟩ := exists_split_of_getElem? hc
    obtain ⟨before, after, former, hold, hnew⟩ := ih hnode
      (r.portion dir (weightSum as / weightSum cs) (c.weight / weightSum cs))
    have hfrom : ∀ d : LathChild, d.weight = c.weight →
        fracRectsFrom dir r (weightSum cs) 0 (as ++ d :: bs) =
          fracRectsFrom dir r (weightSum cs) 0 as ++
            (d.node.fracRects (r.portion dir (weightSum as / weightSum cs)
                (c.weight / weightSum cs)) ++
              fracRectsFrom dir r (weightSum cs) (weightSum as + c.weight) bs) := by
      intro d hd
      rw [fracRectsFrom_append, fracRectsFrom, zero_add, hd]
    refine ⟨fracRectsFrom dir r (weightSum cs) 0 as ++ before,
      after ++ fracRectsFrom dir r (weightSum cs) (weightSum as + c.weight) bs, former,
      ?_, fun new => ?_⟩
    · have hwhole := hfrom c rfl
      rw [← hcs] at hwhole
      rw [LathNode.fracRects, hwhole, hold]
      simp only [List.append_assoc]
    · rw [replaceAtPath_split_cons dir cs i path new hc, LathNode.fracRects,
        weightSum_set _ hc, hset,
        hfrom ⟨c.node.replaceAtPath path new, c.weight⟩ rfl, hnew]
      simp only [List.append_assoc]

theorem LathNode.Leafy.replaceAtPath {n new : LathNode} (hn : n.Leafy) (hnew : new.Leafy)
    (path : List Nat) : (n.replaceAtPath path new).Leafy := by
  induction path generalizing n with
  | nil => rwa [replaceAtPath_nil]
  | cons i path ih =>
    cases n with
    | leaf id => exact hn
    | split dir cs =>
      rw [LathNode.replaceAtPath]
      cases hn with
      | split hne hbelow =>
        cases hc : cs[i]? with
        | none => exact .split hne hbelow
        | some c =>
          refine .split (fun hnil => ?_) (forall_mem_set hbelow
            (ih (hbelow c (List.mem_of_getElem? hc))))
          rw [List.set_eq_nil_iff] at hnil
          exact hne hnil

/-- The new leaf and the split one, half of a rectangle each. -/
def halves (edge : Edge) (at_ newId : LeafId) (former : Rect) : List (LeafId × Rect) :=
  let first := former.portion (edgeAxis edge) 0 (1 / 2)
  let second := former.portion (edgeAxis edge) (1 / 2) (1 / 2)
  if edgeIsBefore edge then [(newId, first), (at_, second)] else [(at_, first), (newId, second)]

/-- **A `split` halves one leaf and moves no other.** -/
theorem fracRects_split {tol : ℚ} {tree : LathTree} {at_ newId : LeafId} {edge : Edge}
    (h : tree.Valid tol) (ok : (split tree at_ edge newId).ok = true) (r : Rect) :
    ∃ before after former, tree.fracRects r = before ++ (at_, former) :: after ∧
      (split tree at_ edge newId).tree.fracRects r =
        before ++ halves edge at_ newId former ++ after := by
  unfold split at ok ⊢
  rcases hroot : tree.root with _ | root
  · simp [hroot] at ok
  rcases hat : findLeafPath tree at_ with _ | atPath
  · simp [hroot, hat] at ok
  by_cases hnew : (findLeafPath tree newId).isSome = true
  · simp [hroot, hat, hnew] at ok
  simp only [if_neg hnew]
  have hnode := nodeAtPath_of_findLeafPath hroot hat
  obtain ⟨before, after, former, hold, hreplaced⟩ := fracRects_replaceAtPath hnode r
  refine ⟨before, after, former, ?_, ?_⟩
  · rw [LathTree.fracRects, hroot]
    simpa [LathNode.fracRects] using hold
  · set nested : LathNode := .split (edgeAxis edge)
      (if edgeIsBefore edge then [⟨.leaf newId, 1 / 2⟩, ⟨.leaf at_, 1 / 2⟩]
        else [⟨.leaf at_, 1 / 2⟩, ⟨.leaf newId, 1 / 2⟩]) with hnested
    have hpos : nested.Positive ∧ nested.Leafy := by
      rw [hnested]
      cases edgeIsBefore edge
      · exact ⟨positive_pair (.leaf at_) (.leaf newId) (by norm_num) (by norm_num),
          .split (List.cons_ne_nil _ _) (by simp [LathNode.Leafy.leaf])⟩
      · exact ⟨positive_pair (.leaf newId) (.leaf at_) (by norm_num) (by norm_num),
          .split (List.cons_ne_nil _ _) (by simp [LathNode.Leafy.leaf])⟩
    obtain ⟨m, hm, hsame⟩ := keepsRects_of_positive
      ((h.positive hroot).replaceAtPath hpos.1 atPath)
      (((h.canonical root hroot).leafy).replaceAtPath hpos.2 atPath)
    have hhalves : nested.fracRects former = halves edge at_ newId former := by
      rw [hnested, halves]
      cases edgeIsBefore edge <;>
        norm_num [LathNode.fracRects, fracRectsFrom]
    rw [hm]
    show m.fracRects r = _
    rw [hsame, hreplaced, hhalves]

/-- **`normalize` keeps the geometry.** It is idempotent on positive weights; on a canonical tree it
only rescales each split's weights, and on one whose weights sum to exactly 1 it changes nothing.
Where no split is empty it keeps the rectangle of every leaf. So a successful `split` of a valid
tree halves the leaf it splits and moves no other. -/
theorem normalize_keeps_geometry {n : LathNode} (hpos : n.Positive) :
    n.normalize.bind (·.normalize) = n.normalize ∧
      (∀ tol, n.Canonical tol → n.normalize = some n.rescale ∧
        structureFingerprint n.rescale = structureFingerprint n) ∧
      (n.Canonical 0 → n.normalize = some n) ∧
      (n.Leafy → ∃ m, n.normalize = some m ∧ ∀ r, m.fracRects r = n.fracRects r) ∧
      ∀ tol at_ newId edge, LathTree.Valid tol ⟨some n⟩ →
        (split ⟨some n⟩ at_ edge newId).ok = true → ∀ r,
          ∃ before after former, n.fracRects r = before ++ (at_, former) :: after ∧
            (split ⟨some n⟩ at_ edge newId).tree.fracRects r =
              before ++ halves edge at_ newId former ++ after :=
  ⟨normalize_normalize hpos,
    fun _ h => ⟨normalize_of_canonical h, structureFingerprint_rescale n⟩,
    normalize_of_exact, keepsRects_of_positive hpos,
    fun _ _ _ _ h ok r => fracRects_split h ok r⟩

/-- A row in a row: the inner leaves keep a quarter each. -/
theorem normalize_keeps_geometry_nested_row :
    ∃ m, (LathNode.split .row
        [⟨.leaf "a", 1⟩, ⟨.split .row [⟨.leaf "b", 3⟩, ⟨.leaf "c", 3⟩], 1⟩]).normalize = some m ∧
      m.fracRects ⟨0, 0, 4, 1⟩ = [("a", ⟨0, 0, 2, 1⟩), ("b", ⟨2, 0, 1, 1⟩), ("c", ⟨3, 0, 1, 1⟩)] := by
  obtain ⟨m, hm, hrects⟩ := (@normalize_keeps_geometry (.split .row
    [⟨.leaf "a", 1⟩, ⟨.split .row [⟨.leaf "b", 3⟩, ⟨.leaf "c", 3⟩], 1⟩])
    (positive_pair (.leaf "a") (positive_pair (.leaf "b") (.leaf "c") (by norm_num) (by norm_num))
      (by norm_num) (by norm_num))).2.2.2.1
    (.split (List.cons_ne_nil _ _) (List.forall_mem_cons.2 ⟨.leaf "a", List.forall_mem_cons.2
      ⟨.split (List.cons_ne_nil _ _) (by simp [LathNode.Leafy.leaf]), List.forall_mem_nil _⟩⟩))
  exact ⟨m, hm, (hrects _).trans (by decide +kernel)⟩

/-- **Weights that sum to 1 within the slack are rescaled, and an empty split gives its share
away**: the first tree is valid and not left as it is, the second has positive weights and its leaf
grows. -/
theorem slack_rescaled_and_empty_dropped :
    (LathTree.Valid validateTol
        ⟨some (.split .row [⟨.leaf "a", 1 / 2⟩, ⟨.leaf "b", 1 / 2 + 1 / 2000000⟩])⟩ ∧
      (LathNode.split .row [⟨.leaf "a", 1 / 2⟩, ⟨.leaf "b", 1 / 2 + 1 / 2000000⟩]).normalize ≠
        some (.split .row [⟨.leaf "a", 1 / 2⟩, ⟨.leaf "b", 1 / 2 + 1 / 2000000⟩])) ∧
      (LathNode.split .row [⟨.leaf "a", 1⟩, ⟨.split .col [], 1⟩]).Positive ∧
      (LathNode.split .row [⟨.leaf "a", 1⟩, ⟨.split .col [], 1⟩]).normalize = some (.leaf "a") ∧
      (LathNode.split .row [⟨.leaf "a", 1⟩, ⟨.split .col [], 1⟩]).fracRects ⟨0, 0, 2, 1⟩ ≠
        (LathNode.leaf "a").fracRects ⟨0, 0, 2, 1⟩ := by
  refine ⟨⟨⟨?_, by decide⟩, fun h => ?_⟩, ?_, rfl, by decide +kernel⟩
  · rintro root ⟨⟩
    refine .split (by simp) (by norm_num) ?_ (by simp [LathNode.dir?]) ?_
    · norm_num [weightSum, validateTol, abs_le]
    · simp [LathNode.Canonical.leaf]
  · have hweights := congrArg (List.map fun c : LathChild => c.weight)
      (LathNode.split.inj (Option.some.inj h)).2
    exact absurd hweights (by decide +kernel)
  · exact positive_pair (.leaf "a") (.split (List.forall_mem_nil _) (List.forall_mem_nil _))
      (by norm_num) (by norm_num)

end Dormouse.Lath
