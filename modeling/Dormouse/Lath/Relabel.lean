import Dormouse.Lath.OpsValid
import Dormouse.Lath.LayoutSound

/-!
# Dormouse.Lath.Relabel

**Leaf ids are only names**: renaming the leaves of a tree commutes with
normalizing, with inserting beside a node and with layout. Two facts that
hit-testing needs follow: a Door lands where its placeholder did, and a swap
exchanges two rectangles.
-/

namespace Dormouse.Lath

mutual
/-- Rename every leaf. -/
def LathNode.relabel (f : LeafId → LeafId) : LathNode → LathNode
  | .leaf id => .leaf (f id)
  | .split dir children => .split dir (relabelAll f children)
def relabelAll (f : LeafId → LeafId) : List LathChild → List LathChild
  | [] => []
  | c :: cs => ⟨c.node.relabel f, c.weight⟩ :: relabelAll f cs
end

/-- Rename the leaves of one child. -/
def LathChild.relabel (f : LeafId → LeafId) (c : LathChild) : LathChild :=
  ⟨c.node.relabel f, c.weight⟩

theorem relabelAll_eq (f : LeafId → LeafId) (cs : List LathChild) :
    relabelAll f cs = cs.map (LathChild.relabel f) := by
  induction cs with
  | nil => rfl
  | cons c cs ih => rw [relabelAll, ih]; rfl

@[simp] theorem relabel_leaf (f : LeafId → LeafId) (id : LeafId) :
    (LathNode.leaf id).relabel f = .leaf (f id) := rfl

@[simp] theorem relabel_split (f : LeafId → LeafId) (dir : Dir) (cs : List LathChild) :
    (LathNode.split dir cs).relabel f = .split dir (cs.map (LathChild.relabel f)) := by
  rw [LathNode.relabel, relabelAll_eq]

def LathTree.relabel (f : LeafId → LeafId) (tree : LathTree) : LathTree :=
  ⟨tree.root.map (·.relabel f)⟩

/-- Renaming the leaves of a tree to themselves. -/
theorem relabel_eq_self {f : LeafId → LeafId} (n : LathNode) :
    (∀ id ∈ n.leaves, f id = id) → n.relabel f = n := by
  induction n with
  | leaf id => intro h; rw [relabel_leaf, h id (by simp)]
  | split dir cs ih =>
    intro h
    rw [relabel_split, List.map_congr_left (g := id), List.map_id]
    intro c hc
    rw [leaves_split] at h
    have hnode := ih c hc fun id hid => h id (List.mem_flatMap.2 ⟨c, hc, hid⟩)
    rw [LathChild.relabel, hnode]
    rfl

/-! ### Normalizing -/

theorem weightSum_relabel (f : LeafId → LeafId) (cs : List LathChild) :
    weightSum (cs.map (LathChild.relabel f)) = weightSum cs := by
  rw [weightSum, weightSum, List.map_map]
  rfl

theorem normalizeWeights_relabel (f : LeafId → LeafId) (cs : List LathChild) :
    normalizeWeights (cs.map (LathChild.relabel f)) =
      (normalizeWeights cs).map (LathChild.relabel f) := by
  rw [normalizeWeights, normalizeWeights, weightSum_relabel, List.length_map]
  split <;> rw [List.map_map, List.map_map] <;> rfl

theorem collected_relabel {f : LeafId → LeafId} {dir : Dir} {cs : List LathChild}
    (h : ∀ c ∈ cs, (c.node.relabel f).normalize = c.node.normalize.map (·.relabel f)) :
    collected dir (cs.map (LathChild.relabel f)) =
      (collected dir cs).map (LathChild.relabel f) := by
  induction cs with
  | nil => rfl
  | cons c cs ih =>
    have hc := h c List.mem_cons_self
    have htail := ih fun d hd => h d (List.mem_cons_of_mem c hd)
    rw [List.map_cons, collected_cons, collected_cons, htail, List.map_append]
    simp only [LathChild.relabel]
    rw [hc]
    congr 1
    rcases c.node.normalize with _ | n
    · rfl
    cases n with
    | leaf id => rfl
    | split d gcs =>
      simp only [Option.map_some, relabel_split]
      split
      · rw [List.map_map, List.map_map]
        rfl
      · simp [LathChild.relabel]

/-- Renaming commutes with normalizing. -/
theorem normalize_relabel (f : LeafId → LeafId) (n : LathNode) :
    (n.relabel f).normalize = n.normalize.map (·.relabel f) := by
  induction n with
  | leaf id => rfl
  | split dir cs ih =>
    rw [relabel_split, normalize_split, normalize_split, collected_relabel ih]
    rcases collected dir cs with _ | ⟨c, _ | ⟨d, ds⟩⟩
    · rfl
    · rfl
    · simp only [List.map_cons, Option.map_some, relabel_split]
      rw [← normalizeWeights_relabel]
      rfl

/-! ### Paths -/

theorem nodeAtPath_relabel (f : LeafId → LeafId) (n : LathNode) (path : List Nat) :
    (n.relabel f).nodeAtPath path = (n.nodeAtPath path).map (·.relabel f) := by
  induction path generalizing n with
  | nil => simp
  | cons i p ih =>
    cases n with
    | leaf id => rfl
    | split dir cs =>
      rw [relabel_split, nodeAtPath_split_cons, nodeAtPath_split_cons, List.getElem?_map]
      cases cs[i]? with
      | none => rfl
      | some c => exact ih c.node

theorem replaceAtPath_relabel (f : LeafId → LeafId) (n r : LathNode) (path : List Nat) :
    (n.replaceAtPath path r).relabel f = (n.relabel f).replaceAtPath path (r.relabel f) := by
  induction path generalizing n with
  | nil => simp
  | cons i p ih =>
    cases n with
    | leaf id => rfl
    | split dir cs =>
      rw [relabel_split]
      rcases hc : cs[i]? with _ | c
      · simp [LathNode.replaceAtPath, hc]
      have hc' : (cs.map (LathChild.relabel f))[i]? = some (LathChild.relabel f c) := by
        rw [List.getElem?_map, hc]
        rfl
      rw [replaceAtPath_split_cons dir cs i p r hc,
        replaceAtPath_split_cons dir _ i p _ hc', relabel_split, List.map_set]
      congr 2
      rw [LathChild.relabel, ih]
      rfl

/-- Writing back what a path already names. -/
theorem replaceAtPath_self {n m : LathNode} {path : List Nat} (h : n.nodeAtPath path = some m) :
    n.replaceAtPath path m = n := by
  induction path generalizing n with
  | nil =>
    obtain rfl : n = m := by simpa using h
    exact replaceAtPath_nil n n
  | cons i p ih =>
    obtain ⟨dir, cs, c, rfl, hc, hm⟩ := child_of_nodeAtPath h
    rw [replaceAtPath_split_cons dir cs i p m hc, ih hm]
    congr 1
    obtain ⟨hlt, rfl⟩ := List.getElem?_eq_some_iff.1 hc
    exact List.set_getElem_self hlt

/-! ### Inserting -/

theorem besideSplit_relabel (f : LeafId → LeafId) (axis : Dir) (before : Bool) (a n : LathNode)
    (w : ℚ) : (besideSplit axis before a n w).relabel f =
      besideSplit axis before (a.relabel f) (n.relabel f) w := by
  rw [besideSplit, relabel_split]
  cases before <;> rfl

/-- Renaming commutes with inserting a leaf beside a node. -/
theorem insertBesideNode_relabel (f : LeafId → LeafId) (tree : LathTree) (path : List Nat)
    (edge : Edge) (id : LeafId) (w : ℚ) :
    (insertBesideNode tree path edge id w).relabel f =
      insertBesideNode (tree.relabel f) path edge (f id) w := by
  rcases hroot : tree.root with _ | root
  · simp [insertBesideNode, LathTree.relabel, hroot]
  have hroot' : (tree.relabel f).root = some (root.relabel f) := by
    rw [LathTree.relabel, hroot]
    rfl
  have hat : ∀ p, nodeAtPath (tree.relabel f) p = (nodeAtPath tree p).map (·.relabel f) := by
    intro p
    rw [nodeAtPath, nodeAtPath, hroot', hroot, Option.bind_some, Option.bind_some,
      nodeAtPath_relabel]
  have hnorm : ∀ n : LathNode,
      LathTree.relabel f ⟨n.normalize⟩ = ⟨(n.relabel f).normalize⟩ := by
    intro n
    rw [LathTree.relabel, normalize_relabel]
  rw [insertBesideNode, insertBesideNode]
  simp only [hroot, hroot']
  cases path.getLast? with
  | none =>
    simp only
    rw [hnorm, besideSplit_relabel]
    rfl
  | some idx =>
    simp only [hat]
    -- the nested insertion, shared by two branches
    have hnested : ∀ targetNode : LathNode, LathTree.relabel f ⟨(root.replaceAtPath path
        (besideSplit (edgeAxis edge) (edgeIsBefore edge) (.leaf id) targetNode w)).normalize⟩ =
        ⟨((root.relabel f).replaceAtPath path (besideSplit (edgeAxis edge) (edgeIsBefore edge)
          (.leaf (f id)) (targetNode.relabel f) w)).normalize⟩ := by
      intro targetNode
      rw [hnorm, replaceAtPath_relabel, besideSplit_relabel]
      rfl
    rcases nodeAtPath tree path.dropLast with _ | parent
    · rcases nodeAtPath tree path with _ | targetNode
      exacts [rfl, hnested targetNode]
    cases parent with
    | leaf i =>
      rcases nodeAtPath tree path with _ | targetNode
      exacts [rfl, hnested targetNode]
    | split dir cs =>
      simp only [Option.map_some, relabel_split]
      split
      · rw [hnorm, replaceAtPath_relabel, relabel_split, ← normalizeWeights_relabel,
          List.map_insertIdx]
        rfl
      · rcases nodeAtPath tree path with _ | targetNode
        exacts [rfl, hnested targetNode]

/-! ### Layout -/

theorem minSpan_relabel (f : LeafId → LeafId) (axis : Dir) (opts : LayoutOpts) (n : LathNode) :
    (n.relabel f).minSpan axis opts = n.minSpan axis opts := by
  induction n with
  | leaf id => rfl
  | split dir cs ih =>
    have hmax : minSpanMax axis opts (cs.map (LathChild.relabel f)) =
        minSpanMax axis opts cs := by
      clear * - ih
      induction cs with
      | nil => rfl
      | cons c cs ihcs =>
        rw [List.map_cons, minSpanMax, minSpanMax,
          ihcs fun d hd => ih d (List.mem_cons_of_mem c hd)]
        exact congrArg (max · _) (ih c List.mem_cons_self)
    have hsum : minSpanSum axis opts (cs.map (LathChild.relabel f)) =
        minSpanSum axis opts cs := by
      rw [minSpanSum_eq, minSpanSum_eq, List.map_map]
      exact congrArg List.sum (List.map_congr_left ih)
    rw [relabel_split, LathNode.minSpan, LathNode.minSpan, hmax, hsum, List.length_map]

theorem forEachChildRect_relabel (f : LeafId → LeafId) (dir : Dir) (cs : List LathChild)
    (r : Rect) (opts : LayoutOpts) :
    forEachChildRect dir (cs.map (LathChild.relabel f)) r opts =
      forEachChildRect dir cs r opts := by
  have hmin : ∀ c : LathChild, (LathChild.relabel f c).node.minSpan dir opts =
      c.node.minSpan dir opts := fun c => minSpan_relabel f dir opts c.node
  have hmins : (cs.map (LathChild.relabel f)).map (·.node.minSpan dir opts) =
      cs.map (·.node.minSpan dir opts) := by
    rw [List.map_map]
    exact List.map_congr_left fun c _ => hmin c
  have hslots : (cs.map (LathChild.relabel f)).map
      (fun c => (⟨c.weight, c.node.minSpan dir opts, false, 0⟩ : Slot)) =
      cs.map fun c => ⟨c.weight, c.node.minSpan dir opts, false, 0⟩ := by
    rw [List.map_map]
    refine List.map_congr_left fun c _ => ?_
    simp only [Function.comp_apply, hmin]
    rfl
  rw [forEachChildRect, forEachChildRect, allocateChildSpans, allocateChildSpans,
    fractionalSpans, fractionalSpans, availableSpan, availableSpan, hmins, hslots,
    List.length_map]

/-- Renaming commutes with layout: each leaf keeps its rectangle. -/
theorem leafRects_relabel (f : LeafId → LeafId) (opts : LayoutOpts) (n : LathNode) : ∀ r : Rect,
    (n.relabel f).leafRects opts r = (n.leafRects opts r).map fun e => (f e.1, e.2) := by
  induction n with
  | leaf id => exact fun r => rfl
  | split dir cs ih =>
    intro r
    rw [relabel_split, LathNode.leafRects, LathNode.leafRects, forEachChildRect_relabel]
    generalize forEachChildRect dir cs r opts = rs
    clear r
    induction cs generalizing rs with
    | nil => rfl
    | cons c cs ihcs =>
      cases rs with
      | nil => rfl
      | cons r rs =>
        rw [List.map_cons, leafRectsOf, leafRectsOf, List.map_append,
          ihcs (fun d hd => ih d (List.mem_cons_of_mem c hd)) rs]
        exact congrArg (· ++ _) (ih c List.mem_cons_self r)

theorem nodeRectAtPath_relabel (f : LeafId → LeafId) (opts : LayoutOpts) (n : LathNode)
    (r : Rect) (path : List Nat) :
    (n.relabel f).nodeRectAtPath opts r path = n.nodeRectAtPath opts r path := by
  induction path generalizing n r with
  | nil => cases n <;> rfl
  | cons i p ih =>
    cases n with
    | leaf id => rfl
    | split dir cs =>
      rw [relabel_split, LathNode.nodeRectAtPath, LathNode.nodeRectAtPath,
        forEachChildRect_relabel, List.getElem?_map]
      cases cs[i]? with
      | none => rfl
      | some c =>
        cases (forEachChildRect dir cs r opts)[i]? with
        | none => rfl
        | some cr => exact ih c.node cr

/-- Renaming one leaf in place moves no rectangle. -/
theorem nodeRectAtPath_replaceAtPath_leaf {opts : LayoutOpts} {n : LathNode} {a b : LeafId}
    {p : List Nat} (h : n.nodeAtPath p = some (.leaf a)) (r : Rect) (q : List Nat) :
    (n.replaceAtPath p (.leaf b)).nodeRectAtPath opts r q = n.nodeRectAtPath opts r q := by
  -- with all names erased, nothing was replaced
  have hsame : (n.replaceAtPath p (.leaf b)).relabel (fun _ => "") = n.relabel fun _ => "" := by
    rw [replaceAtPath_relabel]
    refine replaceAtPath_self ?_
    rw [nodeAtPath_relabel, h]
    rfl
  rw [← nodeRectAtPath_relabel (fun _ => ""), hsame, nodeRectAtPath_relabel]

end Dormouse.Lath
