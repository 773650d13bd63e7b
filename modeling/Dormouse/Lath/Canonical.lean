import Mathlib.Tactic.Linarith
import Mathlib.Tactic.Positivity
import Mathlib.Algebra.Order.Field.Basic
import Mathlib.Algebra.Order.BigOperators.Group.List
import Dormouse.Lath.Model

/-!
# Dormouse.Lath.Canonical

The **canonical form** of a split tree and the one lemma every operation rests on:
`normalize` turns any tree of positive weights into a canonical one with the same
leaves in the same order.

Canonical form is stated with a tolerance on the weight sums: `0` for the exact
arithmetic the operations are verified in, `1e-6` for what `validate` accepts.
-/

namespace Dormouse.Lath

/-- Direction of a split, `none` for a leaf. -/
def LathNode.dir? : LathNode → Option Dir
  | .leaf _ => none
  | .split dir _ => some dir

/-- Every weight in the tree is positive: what an operation hands to `normalize`. -/
inductive LathNode.Positive : LathNode → Prop
  | leaf (id : LeafId) : Positive (.leaf id)
  | split {dir : Dir} {children : List LathChild}
      (pos : ∀ c ∈ children, 0 < c.weight)
      (below : ∀ c ∈ children, c.node.Positive) : Positive (.split dir children)

/-- Splits have at least two children, positive weights summing to 1 within `tol`,
and no child split of their own direction. -/
inductive LathNode.Canonical (tol : ℚ) : LathNode → Prop
  | leaf (id : LeafId) : Canonical tol (.leaf id)
  | split {dir : Dir} {children : List LathChild}
      (two : 2 ≤ children.length)
      (pos : ∀ c ∈ children, 0 < c.weight)
      (sum : |weightSum children - 1| ≤ tol)
      (alternate : ∀ c ∈ children, c.node.dir? ≠ some dir)
      (below : ∀ c ∈ children, c.node.Canonical tol) : Canonical tol (.split dir children)

/-- A valid tree: canonical, with unique leaf ids. -/
structure LathTree.Valid (tol : ℚ) (tree : LathTree) : Prop where
  canonical : ∀ root, tree.root = some root → root.Canonical tol
  nodup : (leaves tree).Nodup

/-- The slack `validate` leaves a weight sum. -/
def validateTol : ℚ := 1 / 1000000

namespace LathNode

theorem Positive.of_split {dir : Dir} {cs : List LathChild}
    (h : (LathNode.split dir cs).Positive) :
    (∀ c ∈ cs, 0 < c.weight) ∧ ∀ c ∈ cs, c.node.Positive := by
  cases h with
  | split pos below => exact ⟨pos, below⟩

theorem Canonical.positive {tol : ℚ} {n : LathNode} (h : n.Canonical tol) : n.Positive := by
  induction h with
  | leaf id => exact .leaf id
  | split two pos sum alternate below ih => exact .split pos ih

theorem Canonical.of_split {tol : ℚ} {dir : Dir} {cs : List LathChild}
    (h : (LathNode.split dir cs).Canonical tol) : ∀ c ∈ cs, c.node.Canonical tol := by
  cases h with
  | split two pos sum alternate below => exact below

theorem Canonical.ne_nil {tol : ℚ} {dir : Dir} {cs : List LathChild}
    (h : (LathNode.split dir cs).Canonical tol) : cs ≠ [] := by
  cases h with
  | split two pos sum alternate below =>
    rintro rfl
    simp at two

theorem Canonical.mono {tol tol' : ℚ} (hle : tol ≤ tol') {n : LathNode}
    (h : n.Canonical tol) : n.Canonical tol' := by
  induction h with
  | leaf id => exact .leaf id
  | split two pos sum alternate below ih => exact .split two pos (sum.trans hle) alternate ih

end LathNode

/-! ### Weights -/

theorem weightSum_pos {cs : List LathChild} (hne : cs ≠ []) (hpos : ∀ c ∈ cs, 0 < c.weight) :
    0 < weightSum cs := by
  induction cs with
  | nil => exact absurd rfl hne
  | cons c cs ih =>
    rw [weightSum_cons]
    have hc := hpos c List.mem_cons_self
    by_cases h : cs = []
    · subst h
      rw [weightSum_nil, add_zero]
      exact hc
    · have := ih h fun d hd => hpos d (List.mem_cons_of_mem c hd)
      linarith

/-- Under positive weights, normalizing weights is dividing by their sum. -/
theorem normalizeWeights_of_pos {cs : List LathChild} (hne : cs ≠ [])
    (hpos : ∀ c ∈ cs, 0 < c.weight) :
    normalizeWeights cs = cs.map fun c => ⟨c.node, c.weight / weightSum cs⟩ := by
  rw [normalizeWeights]
  exact if_neg (not_le.2 (weightSum_pos hne hpos))

@[simp] theorem length_normalizeWeights (cs : List LathChild) :
    (normalizeWeights cs).length = cs.length := by
  rw [normalizeWeights]
  split <;> simp

/-- Normalizing weights leaves the nodes alone. -/
theorem map_node_normalizeWeights (cs : List LathChild) :
    (normalizeWeights cs).map (·.node) = cs.map (·.node) := by
  rw [normalizeWeights]
  split <;> simp [Function.comp_def]

theorem flatMap_leaves_eq_of_nodes {as bs : List LathChild}
    (h : as.map (·.node) = bs.map (·.node)) :
    as.flatMap (fun c => c.node.leaves) = bs.flatMap (fun c => c.node.leaves) := by
  have hmap : ∀ cs : List LathChild,
      cs.flatMap (fun c => c.node.leaves) = (cs.map (·.node)).flatMap LathNode.leaves :=
    fun cs => by rw [List.flatMap_map]
  rw [hmap, hmap, h]

theorem mem_normalizeWeights_node {cs : List LathChild} {c : LathChild}
    (h : c ∈ normalizeWeights cs) : ∃ d ∈ cs, d.node = c.node := by
  have hmem : c.node ∈ (normalizeWeights cs).map (·.node) := List.mem_map_of_mem h
  rw [map_node_normalizeWeights, List.mem_map] at hmem
  exact hmem

theorem normalizeWeights_pos {cs : List LathChild} (hpos : ∀ c ∈ cs, 0 < c.weight) :
    ∀ c ∈ normalizeWeights cs, 0 < c.weight := by
  intro c hc
  by_cases hne : cs = []
  · subst hne
    have hlen := List.length_pos_of_mem hc
    simp at hlen
  · rw [normalizeWeights_of_pos hne hpos, List.mem_map] at hc
    obtain ⟨d, hd, rfl⟩ := hc
    exact div_pos (hpos d hd) (weightSum_pos hne hpos)

theorem weightSum_map_div (cs : List LathChild) (s : ℚ) :
    weightSum (cs.map fun c => ⟨c.node, c.weight / s⟩) = weightSum cs / s := by
  induction cs with
  | nil => simp
  | cons c cs ih => rw [List.map_cons, weightSum_cons, ih, weightSum_cons, add_div]

theorem weightSum_normalizeWeights {cs : List LathChild} (hne : cs ≠ [])
    (hpos : ∀ c ∈ cs, 0 < c.weight) : weightSum (normalizeWeights cs) = 1 := by
  rw [normalizeWeights_of_pos hne hpos, weightSum_map_div]
  exact div_self (weightSum_pos hne hpos).ne'

/-- With two or more positive children whose weights sum to 1, each weighs less than 1. -/
theorem weight_lt_one {cs : List LathChild} (two : 2 ≤ cs.length)
    (hpos : ∀ c ∈ cs, 0 < c.weight) (hsum : weightSum cs = 1) {c : LathChild} (hc : c ∈ cs) :
    c.weight < 1 := by
  obtain ⟨pre, post, rfl⟩ := List.append_of_mem hc
  have hrest : pre ++ post ≠ [] := by
    intro h
    rw [List.append_eq_nil_iff] at h
    obtain ⟨rfl, rfl⟩ := h
    simp at two
  have hrestPos : 0 < weightSum (pre ++ post) := by
    refine weightSum_pos hrest fun d hd => hpos d ?_
    rcases List.mem_append.1 hd with hd | hd
    · exact List.mem_append_left _ hd
    · exact List.mem_append_right _ (List.mem_cons_of_mem c hd)
  rw [weightSum_append] at hrestPos
  rw [weightSum_append, weightSum_cons] at hsum
  linarith

/-- Two leaves sharing a split make a valid tree. -/
theorem valid_two_leaves {tol : ℚ} (htol : 0 ≤ tol) (dir : Dir) {a b : LeafId} (hab : a ≠ b)
    {v w : ℚ} (hv : 0 < v) (hw : 0 < w) (hsum : v + w = 1) :
    LathTree.Valid tol ⟨some (.split dir [⟨.leaf a, v⟩, ⟨.leaf b, w⟩])⟩ := by
  refine ⟨?_, by simp [leaves, hab]⟩
  rintro n ⟨⟩
  refine .split (by simp) (by simp [hv, hw]) ?_ (by simp [LathNode.dir?]) ?_
  · simp [hsum, htol]
  · intro c hc
    rcases List.mem_pair.1 hc with rfl | rfl
    · exact .leaf a
    · exact .leaf b

/-! ### What `collected` gathers -/

/-- One step of `collected`: a child contributes nothing, its own grandchildren, or itself. -/
theorem collected_cons (dir : Dir) (c : LathChild) (cs : List LathChild) :
    collected dir (c :: cs) =
      (match c.node.normalize with
        | none => []
        | some n =>
          match n with
          | .leaf id => [⟨.leaf id, c.weight⟩]
          | .split d gcs =>
            if d = dir then gcs.map (fun gc => ⟨gc.node, gc.weight * c.weight⟩)
            else [⟨.split d gcs, c.weight⟩]) ++ collected dir cs := by
  rw [collected]
  cases c.node.normalize with
  | none => rfl
  | some n =>
    cases n with
    | leaf id => rfl
    | split d gcs =>
      by_cases h : d = dir
      · simp only [if_pos h]
      · simp only [if_neg h, List.singleton_append]

/-- A collected child can stand in a canonical split of direction `dir`. -/
structure Collectable (dir : Dir) (c : LathChild) : Prop where
  pos : 0 < c.weight
  alternate : c.node.dir? ≠ some dir
  canonical : c.node.Canonical 0

theorem collected_collectable (dir : Dir) {cs : List LathChild}
    (hpos : ∀ c ∈ cs, 0 < c.weight)
    (hcan : ∀ c ∈ cs, ∀ n, c.node.normalize = some n → n.Canonical 0) :
    ∀ c ∈ collected dir cs, Collectable dir c := by
  induction cs with
  | nil => simp [collected]
  | cons c cs ih =>
    have htail := ih (fun d hd => hpos d (List.mem_cons_of_mem c hd))
      (fun d hd => hcan d (List.mem_cons_of_mem c hd))
    have hc := hpos c List.mem_cons_self
    have hn := hcan c List.mem_cons_self
    intro d hd
    rw [collected_cons, List.mem_append] at hd
    rcases hd with hd | hd
    · cases hnorm : c.node.normalize with
      | none => simp [hnorm] at hd
      | some n =>
        rw [hnorm] at hd
        have hcanon := hn n hnorm
        cases n with
        | leaf id =>
          obtain rfl := List.mem_singleton.1 hd
          exact ⟨hc, by simp [LathNode.dir?], hcanon⟩
        | split e gcs =>
          by_cases he : e = dir
          · simp only [if_pos he, List.mem_map] at hd
            obtain ⟨gc, hgc, rfl⟩ := hd
            cases hcanon with
            | split two pos sum alternate below =>
              exact ⟨mul_pos (pos gc hgc) hc, he ▸ alternate gc hgc, below gc hgc⟩
          · simp only [if_neg he] at hd
            obtain rfl := List.mem_singleton.1 hd
            exact ⟨hc, by simpa [LathNode.dir?] using he, hcanon⟩
    · exact htail d hd

theorem collected_leaves (dir : Dir) {cs : List LathChild}
    (h : ∀ c ∈ cs, leaves ⟨c.node.normalize⟩ = c.node.leaves) :
    (collected dir cs).flatMap (fun c => c.node.leaves) =
      cs.flatMap (fun c => c.node.leaves) := by
  induction cs with
  | nil => rfl
  | cons c cs ih =>
    rw [collected_cons, List.flatMap_append, List.flatMap_cons,
      ih fun d hd => h d (List.mem_cons_of_mem c hd), ← h c List.mem_cons_self]
    congr 1
    cases c.node.normalize with
    | none => rfl
    | some n =>
      cases n with
      | leaf id => simp [leaves]
      | split d gcs =>
        by_cases hd : d = dir
        · simp [leaves, hd, List.flatMap_map]
        · simp [leaves, hd]

/-! ### `normalize` -/

/-- `normalize` of a split, by what was collected. -/
theorem normalize_split (dir : Dir) (cs : List LathChild) :
    (LathNode.split dir cs).normalize =
      match collected dir cs with
      | [] => none
      | [c] => some c.node
      | ds => some (.split dir (normalizeWeights ds)) := by
  rcases h : collected dir cs with _ | ⟨c, _ | ⟨d, ds⟩⟩ <;> simp only [LathNode.normalize, h]

/-- **`normalize` keeps every leaf, in order.** -/
theorem leaves_normalize (n : LathNode) : leaves ⟨n.normalize⟩ = n.leaves := by
  induction n with
  | leaf id => rfl
  | split dir cs ih =>
    rw [leaves_split, ← collected_leaves dir ih, normalize_split]
    rcases collected dir cs with _ | ⟨c, _ | ⟨d, ds⟩⟩
    · rfl
    · simp [leaves]
    · simp only [leaves, leaves_split]
      exact flatMap_leaves_eq_of_nodes (map_node_normalizeWeights _)

/-- **`normalize` makes a tree of positive weights canonical.** -/
theorem canonical_normalize {n : LathNode} (h : n.Positive) :
    ∀ m, n.normalize = some m → m.Canonical 0 := by
  induction n with
  | leaf id =>
    intro m hm
    obtain rfl : LathNode.leaf id = m := by simpa [LathNode.normalize] using hm
    exact .leaf id
  | split dir cs ih =>
    obtain ⟨hpos, hbelow⟩ := h.of_split
    have hcol := collected_collectable dir hpos fun c hc => ih c hc (hbelow c hc)
    intro m hm
    rw [normalize_split] at hm
    rcases hds : collected dir cs with _ | ⟨c, _ | ⟨d, ds⟩⟩
    · simp [hds] at hm
    · obtain rfl : c.node = m := by simpa [hds] using hm
      exact (hcol c (by simp [hds])).canonical
    rw [hds] at hm hcol
    obtain rfl := Option.some.inj hm
    have hwpos : ∀ e ∈ c :: d :: ds, 0 < e.weight := fun e he => (hcol e he).pos
    refine .split (by simp) (normalizeWeights_pos hwpos) ?_ ?_ ?_
    · rw [weightSum_normalizeWeights (by simp) hwpos]
      simp
    · intro e he
      obtain ⟨f, hf, hfe⟩ := mem_normalizeWeights_node he
      exact hfe ▸ (hcol f hf).alternate
    · intro e he
      obtain ⟨f, hf, hfe⟩ := mem_normalizeWeights_node he
      exact hfe ▸ (hcol f hf).canonical

/-- Normalizing a positive tree with unique leaf ids gives a valid tree. -/
theorem valid_normalize {n : LathNode} (h : n.Positive) (hnodup : n.leaves.Nodup) :
    LathTree.Valid 0 ⟨n.normalize⟩ :=
  ⟨fun m hm => canonical_normalize h m hm, by rwa [leaves_normalize]⟩

end Dormouse.Lath
