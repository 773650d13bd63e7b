import Mathlib.Algebra.Order.Group.Multiset
import Dormouse.Lath.Canonical
import Dormouse.Lath.Ops

/-!
# Dormouse.Lath.Paths

**Paths** into a tree: what `findLeafPath` finds, what `nodeAtPath` reads and what
`replaceAtPath` rewrites. The central fact is the multiset equation
`leafBag_replaceAtPath`: replacing a subtree exchanges exactly its leaves.
-/

namespace Dormouse.Lath

/-! ### Reading along a path -/

theorem nodeAtPath_append (n : LathNode) (p q : List Nat) :
    n.nodeAtPath (p ++ q) = (n.nodeAtPath p).bind (·.nodeAtPath q) := by
  induction p generalizing n with
  | nil => simp
  | cons i p ih =>
    cases n with
    | leaf id => rfl
    | split dir cs =>
      rw [List.cons_append, nodeAtPath_split_cons, nodeAtPath_split_cons]
      cases cs[i]? with
      | none => rfl
      | some c => exact ih c.node

/-- A path that is not empty leads below a child. -/
theorem child_of_nodeAtPath {n m : LathNode} {i : Nat} {p : List Nat}
    (h : n.nodeAtPath (i :: p) = some m) :
    ∃ dir cs c, n = .split dir cs ∧ cs[i]? = some c ∧ c.node.nodeAtPath p = some m := by
  cases n with
  | leaf id => cases h
  | split dir cs =>
    rw [nodeAtPath_split_cons] at h
    obtain ⟨c, hc, hm⟩ := Option.bind_eq_some_iff.1 h
    exact ⟨dir, cs, c, rfl, hc, hm⟩

/-- The parent of a node found at a nonempty path is a split that has it as a child. -/
theorem parent_of_nodeAtPath {n m : LathNode} {path : List Nat} {idx : Nat}
    (h : n.nodeAtPath path = some m) (hidx : path.getLast? = some idx) :
    ∃ dir cs c, n.nodeAtPath path.dropLast = some (.split dir cs) ∧
      cs[idx]? = some c ∧ c.node = m := by
  obtain ⟨p, rfl⟩ := List.getLast?_eq_some_iff.1 hidx
  rw [nodeAtPath_append] at h
  obtain ⟨parent, hparent, hchild⟩ := Option.bind_eq_some_iff.1 h
  rw [List.dropLast_concat]
  obtain ⟨dir, cs, c, rfl, hc, hm⟩ := child_of_nodeAtPath hchild
  exact ⟨dir, cs, c, hparent, hc, by simpa using hm⟩

mutual
theorem nodeAtPath_findLeafPath {id : LeafId} : ∀ {n : LathNode} {path : List Nat},
    n.findLeafPath id = some path → n.nodeAtPath path = some (.leaf id)
  | .leaf i, path, h => by
    rw [LathNode.findLeafPath] at h
    split at h
    · rename_i hi
      obtain rfl := Option.some.inj h
      rw [hi, nodeAtPath_nil]
    · exact absurd h (by simp)
  | .split dir cs, path, h => by
    rw [LathNode.findLeafPath] at h
    obtain ⟨i, p, c, rfl, hc, hp⟩ := nodeAtPath_findLeafPathFrom h
    rw [Nat.zero_add, nodeAtPath_split_cons, hc]
    exact hp
theorem nodeAtPath_findLeafPathFrom {id : LeafId} : ∀ {cs : List LathChild} {k : Nat}
    {path : List Nat}, findLeafPathFrom id k cs = some path →
      ∃ i p c, path = (k + i) :: p ∧ cs[i]? = some c ∧ c.node.nodeAtPath p = some (.leaf id)
  | [], k, path, h => by simp [findLeafPathFrom] at h
  | c :: cs, k, path, h => by
    rw [findLeafPathFrom] at h
    split at h
    · rename_i p hp
      obtain rfl := Option.some.inj h
      exact ⟨0, p, c, rfl, rfl, nodeAtPath_findLeafPath hp⟩
    · obtain ⟨i, p, d, rfl, hd, hp⟩ := nodeAtPath_findLeafPathFrom h
      exact ⟨i + 1, p, d, by rw [Nat.add_assoc, Nat.add_comm 1], by simpa using hd, hp⟩
end

mutual
theorem findLeafPath_eq_none {id : LeafId} : ∀ {n : LathNode},
    n.findLeafPath id = none ↔ id ∉ n.leaves
  | .leaf i => by
    rw [LathNode.findLeafPath, leaves_leaf, List.mem_singleton]
    by_cases h : i = id
    · simp [h]
    · have h' : ¬ id = i := fun hid => h hid.symm
      simp [h, h']
  | .split dir cs => by
    rw [LathNode.findLeafPath, leaves_split]
    exact findLeafPathFrom_eq_none cs 0
theorem findLeafPathFrom_eq_none {id : LeafId} : ∀ (cs : List LathChild) (k : Nat),
    findLeafPathFrom id k cs = none ↔ id ∉ cs.flatMap (fun c => c.node.leaves)
  | [], k => by simp [findLeafPathFrom]
  | c :: cs, k => by
    rw [findLeafPathFrom, List.flatMap_cons, List.mem_append, not_or,
      ← findLeafPath_eq_none (n := c.node), ← findLeafPathFrom_eq_none cs (k + 1)]
    cases c.node.findLeafPath id <;> simp
end

/-! ### Rewriting at a path -/

theorem replaceAtPath_split_cons (dir : Dir) (cs : List LathChild) (i : Nat) (p : List Nat)
    (r : LathNode) {c : LathChild} (hc : cs[i]? = some c) :
    (LathNode.split dir cs).replaceAtPath (i :: p) r =
      .split dir (cs.set i ⟨c.node.replaceAtPath p r, c.weight⟩) := by
  rw [LathNode.replaceAtPath]
  simp only [hc]

/-- Leaf ids of a node as a multiset. -/
def LathNode.leafBag (n : LathNode) : Multiset LeafId := (n.leaves : Multiset LeafId)

/-- Leaf ids of a child list as a multiset. -/
def leafBags (cs : List LathChild) : Multiset LeafId := (cs.map (·.node.leafBag)).sum

@[simp] theorem leafBags_nil : leafBags [] = 0 := rfl

@[simp] theorem leafBags_cons (c : LathChild) (cs : List LathChild) :
    leafBags (c :: cs) = c.node.leafBag + leafBags cs := by
  simp [leafBags]

@[simp] theorem leafBag_leaf (id : LeafId) : (LathNode.leaf id).leafBag = {id} := rfl

@[simp] theorem leafBag_split (dir : Dir) (cs : List LathChild) :
    (LathNode.split dir cs).leafBag = leafBags cs := by
  rw [LathNode.leafBag, leaves_split]
  induction cs with
  | nil => rfl
  | cons c cs ih =>
    rw [List.flatMap_cons, ← Multiset.coe_add, ih, leafBags_cons]
    rfl

/-- Only the nodes of a child list count, not its weights. -/
theorem leafBags_congr {as bs : List LathChild} (h : as.map (·.node) = bs.map (·.node)) :
    leafBags as = leafBags bs := by
  have hmap : ∀ cs : List LathChild,
      leafBags cs = ((cs.map (·.node)).map LathNode.leafBag).sum :=
    fun cs => by rw [leafBags, List.map_map]; rfl
  rw [hmap, hmap, h]

/-- Child lists that agree up to order have the same leaves. -/
theorem leafBags_perm {as bs : List LathChild} (h : as.Perm bs) : leafBags as = leafBags bs :=
  (h.map _).sum_eq

@[simp] theorem leafBags_normalizeWeights (cs : List LathChild) :
    leafBags (normalizeWeights cs) = leafBags cs :=
  leafBags_congr (map_node_normalizeWeights cs)

theorem leafBags_set {cs : List LathChild} {i : Nat} {c d : LathChild} (hc : cs[i]? = some c) :
    c.node.leafBag + leafBags (cs.set i d) = d.node.leafBag + leafBags cs := by
  induction cs generalizing i with
  | nil => simp at hc
  | cons e es ih =>
    cases i with
    | zero =>
      obtain rfl : e = c := by simpa using hc
      rw [List.set_cons_zero, leafBags_cons, leafBags_cons]
      exact add_left_comm _ _ _
    | succ i =>
      rw [List.set_cons_succ, leafBags_cons, leafBags_cons, add_left_comm,
        ih (by simpa using hc), add_left_comm]

/-- **Replacing a subtree exchanges its leaves for those of the replacement.** -/
theorem leafBag_replaceAtPath {n m : LathNode} {path : List Nat}
    (h : n.nodeAtPath path = some m) (r : LathNode) :
    m.leafBag + (n.replaceAtPath path r).leafBag = r.leafBag + n.leafBag := by
  induction path generalizing n with
  | nil =>
    obtain rfl : n = m := by simpa using h
    rw [replaceAtPath_nil, add_comm]
  | cons i p ih =>
    obtain ⟨dir, cs, c, rfl, hc, hm⟩ := child_of_nodeAtPath h
    have hset := leafBags_set (d := ⟨c.node.replaceAtPath p r, c.weight⟩) hc
    have hrec := ih hm
    rw [replaceAtPath_split_cons dir cs i p r hc, leafBag_split, leafBag_split]
    have hsum : c.node.leafBag + (m.leafBag + leafBags (cs.set i
        ⟨c.node.replaceAtPath p r, c.weight⟩)) =
        c.node.leafBag + (r.leafBag + leafBags cs) := by
      rw [add_left_comm, hset, ← add_assoc, hrec, add_comm r.leafBag, add_assoc]
    exact add_left_cancel hsum

/-- Membership after overwriting one slot of a list. -/
theorem forall_mem_set {α : Type} {P : α → Prop} {l : List α} {i : Nat} {a : α}
    (hl : ∀ x ∈ l, P x) (ha : P a) : ∀ x ∈ l.set i a, P x := by
  intro x hx
  rcases List.mem_or_eq_of_mem_set hx with hx | rfl
  · exact hl x hx
  · exact ha

theorem LathNode.Positive.nodeAtPath {n m : LathNode} {path : List Nat} (hn : n.Positive)
    (h : n.nodeAtPath path = some m) : m.Positive := by
  induction path generalizing n with
  | nil => simpa using (show n = m by simpa using h) ▸ hn
  | cons i p ih =>
    obtain ⟨dir, cs, c, rfl, hc, hm⟩ := child_of_nodeAtPath h
    exact ih (hn.of_split.2 c (List.mem_of_getElem? hc)) hm

theorem LathNode.Positive.replaceAtPath {n r : LathNode} (hn : n.Positive) (hr : r.Positive)
    (path : List Nat) : (n.replaceAtPath path r).Positive := by
  induction path generalizing n with
  | nil => rwa [replaceAtPath_nil]
  | cons i p ih =>
    cases n with
    | leaf id => exact hn
    | split dir cs =>
      cases hc : cs[i]? with
      | none => simpa [LathNode.replaceAtPath, hc] using hn
      | some c =>
        rw [replaceAtPath_split_cons dir cs i p r hc]
        obtain ⟨hpos, hbelow⟩ := hn.of_split
        have hmem := List.mem_of_getElem? hc
        exact .split (forall_mem_set hpos (hpos c hmem))
          (forall_mem_set hbelow (ih (hbelow c hmem)))

theorem LathNode.Canonical.nodeAtPath {tol : ℚ} {n m : LathNode} {path : List Nat}
    (hn : n.Canonical tol) (h : n.nodeAtPath path = some m) : m.Canonical tol := by
  induction path generalizing n with
  | nil => exact (show n = m by simpa using h) ▸ hn
  | cons i p ih =>
    obtain ⟨dir, cs, c, rfl, hc, hm⟩ := child_of_nodeAtPath h
    cases hn with
    | split two pos sum alternate below => exact ih (below c (List.mem_of_getElem? hc)) hm

/-! ### Renaming a leaf in place -/

theorem weightSum_set {cs : List LathChild} {i : Nat} {c : LathChild} (n : LathNode)
    (hc : cs[i]? = some c) : weightSum (cs.set i ⟨n, c.weight⟩) = weightSum cs := by
  induction cs generalizing i with
  | nil => simp at hc
  | cons e es ih =>
    cases i with
    | zero =>
      obtain rfl : e = c := by simpa using hc
      simp
    | succ i => rw [List.set_cons_succ, weightSum_cons, weightSum_cons, ih (by simpa using hc)]

/-- Replacing a leaf by a leaf keeps the direction at the top. -/
theorem dir?_replaceAtPath_leaf {n : LathNode} {a : LeafId} (b : LeafId) {path : List Nat}
    (h : n.nodeAtPath path = some (.leaf a)) :
    (n.replaceAtPath path (.leaf b)).dir? = n.dir? := by
  cases path with
  | nil =>
    obtain rfl : n = .leaf a := by simpa using h
    rfl
  | cons i p =>
    obtain ⟨dir, cs, c, rfl, hc, -⟩ := child_of_nodeAtPath h
    rw [replaceAtPath_split_cons dir cs i p _ hc]
    rfl

/-- **Replacing a leaf by a leaf keeps the tree canonical.** -/
theorem canonical_replaceAtPath_leaf {tol : ℚ} {n : LathNode} {a : LeafId} (b : LeafId)
    {path : List Nat} (hn : n.Canonical tol) (h : n.nodeAtPath path = some (.leaf a)) :
    (n.replaceAtPath path (.leaf b)).Canonical tol := by
  induction path generalizing n with
  | nil => rw [replaceAtPath_nil]; exact .leaf b
  | cons i p ih =>
    cases hn with
    | leaf id => cases h
    | @split dir cs two pos sum alternate below =>
      rw [nodeAtPath_split_cons] at h
      obtain ⟨c, hc, hm⟩ := Option.bind_eq_some_iff.1 h
      have hmem := List.mem_of_getElem? hc
      rw [replaceAtPath_split_cons dir cs i p _ hc]
      refine .split (by rwa [List.length_set]) (forall_mem_set pos (pos c hmem)) ?_
        (forall_mem_set alternate ?_) (forall_mem_set below (ih (below c hmem) hm))
      · rwa [weightSum_set _ hc]
      · rw [dir?_replaceAtPath_leaf b hm]
        exact alternate c hmem

/-- Replacing one leaf leaves the other leaves where they are. -/
theorem nodeAtPath_replaceAtPath_ne {n r : LathNode} {a b : LeafId} {pa pb : List Nat}
    (ha : n.nodeAtPath pa = some (.leaf a)) (hb : n.nodeAtPath pb = some (.leaf b))
    (hne : pa ≠ pb) : (n.replaceAtPath pa r).nodeAtPath pb = some (.leaf b) := by
  induction pa generalizing n pb with
  | nil =>
    obtain rfl : n = .leaf a := by simpa using ha
    cases pb with
    | nil => exact absurd rfl hne
    | cons j q => cases hb
  | cons i p ih =>
    obtain ⟨dir, cs, c, rfl, hc, hm⟩ := child_of_nodeAtPath ha
    rw [replaceAtPath_split_cons dir cs i p r hc]
    rcases pb with _ | ⟨j, q⟩
    · simp at hb
    rw [nodeAtPath_split_cons] at hb ⊢
    by_cases hij : i = j
    · subst hij
      rw [hc, Option.bind_some] at hb
      have hlt := (List.getElem?_eq_some_iff.1 hc).1
      rw [List.getElem?_set_self hlt, Option.bind_some]
      exact ih hm hb fun hpq => hne (by rw [hpq])
    · rwa [List.getElem?_set_ne hij]

end Dormouse.Lath
