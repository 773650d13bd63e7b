import Dormouse.Lath.Before

/-!
# Dormouse.Lath.MoveSound

**A move beside a subtree.** `move` reads its target against the input tree, takes the leaf out and
looks for the target's other leaves again. Where they are still one subtree, the moved leaf lands on
the given side of all of them; where the removal dissolved it, beside the first of them.
-/

namespace Dormouse.Lath

/-! ### Finding a subtree by its leaves -/

section Walk

variable {target : Finset LeafId}

theorem shorterPath_eq_some {result : Option (List Nat)} {path p : List Nat}
    (h : shorterPath result path = some p) : result = some p ∨ p = path := by
  cases result with
  | none => exact .inr (Option.some.inj h).symm
  | some found =>
    rw [shorterPath] at h
    split at h
    · exact .inr (Option.some.inj h).symm
    · exact .inl h

theorem shorterPath_ne_none (result : Option (List Nat)) (path : List Nat) :
    shorterPath result path ≠ none := by
  cases result with
  | none => exact Option.some_ne_none _
  | some found =>
    rw [shorterPath]
    split <;> exact Option.some_ne_none _

/-- The walk answers what it was given, or the path of a node with the leaves it looks for. -/
theorem walkLeafSet_eq_some (n : LathNode) : ∀ {path p : List Nat} {result : Option (List Nat)},
    n.walkLeafSet target path result = some p →
      result = some p ∨ ∃ q m, p = path ++ q ∧ n.nodeAtPath q = some m ∧ m.leafSet = target := by
  induction n with
  | leaf id =>
    intro path p result h
    rw [LathNode.walkLeafSet] at h
    split at h
    · next hset =>
        rcases shorterPath_eq_some h with h | rfl
        · exact .inl h
        · exact .inr ⟨[], .leaf id, (List.append_nil _).symm, rfl, hset⟩
    · exact .inl h
  | split dir cs ih =>
    intro path p result h
    have hchildren : ∀ (ds : List LathChild), (∀ c ∈ ds, c ∈ cs) → ∀ {i p result},
        walkLeafSets target path i ds result = some p → result = some p ∨
          ∃ j c q m, p = path ++ (i + j) :: q ∧ ds[j]? = some c ∧
            c.node.nodeAtPath q = some m ∧ m.leafSet = target := by
      intro ds
      induction ds with
      | nil => exact fun _ => fun h => .inl h
      | cons d ds ihds =>
        intro hsub i p result h
        rw [walkLeafSets] at h
        rcases ihds (fun c hc => hsub c (List.mem_cons_of_mem d hc)) h with
          h | ⟨j, c, q, m, rfl, hc, hnode⟩
        · rcases ih d (hsub d List.mem_cons_self) h with h | ⟨q, m, rfl, hnode⟩
          · exact .inl h
          · exact .inr ⟨0, d, q, m, by simp, rfl, hnode⟩
        · exact .inr ⟨j + 1, c, q, m, by rw [Nat.add_right_comm, Nat.add_assoc], hc, hnode⟩
    have hfound : ∀ {r}, walkLeafSets target path 0 cs result = some r → result = some r ∨
        ∃ q m, r = path ++ q ∧ (LathNode.split dir cs).nodeAtPath q = some m ∧
          m.leafSet = target := by
      intro r hr
      rcases hchildren cs (fun _ hc => hc) hr with hr | ⟨j, c, q, m, heq, hc, hnode, hset⟩
      · exact .inl hr
      · refine .inr ⟨j :: q, m, by rw [heq, Nat.zero_add], ?_, hset⟩
        rw [nodeAtPath_split_cons, hc]
        exact hnode
    rw [LathNode.walkLeafSet] at h
    split at h
    · next hset =>
        rcases shorterPath_eq_some h with h | rfl
        · exact hfound h
        · exact .inr ⟨[], _, (List.append_nil _).symm, nodeAtPath_nil _, hset⟩
    · exact hfound h

/-- The walk answers nothing only where no node has the leaves it looks for. -/
theorem walkLeafSet_eq_none (n : LathNode) : ∀ {path : List Nat} {result : Option (List Nat)},
    n.walkLeafSet target path result = none →
      result = none ∧ ∀ q m, n.nodeAtPath q = some m → m.leafSet ≠ target := by
  induction n with
  | leaf id =>
    intro path result h
    rw [LathNode.walkLeafSet] at h
    split at h
    · exact absurd h (shorterPath_ne_none _ _)
    next hset =>
      refine ⟨h, fun q m hm => ?_⟩
      cases q with
      | nil =>
        cases hm
        exact hset
      | cons i q => cases hm
  | split dir cs ih =>
    intro path result h
    have hchildren : ∀ (ds : List LathChild), (∀ c ∈ ds, c ∈ cs) → ∀ {i result},
        walkLeafSets target path i ds result = none → result = none ∧
          ∀ c ∈ ds, ∀ q m, c.node.nodeAtPath q = some m → m.leafSet ≠ target := by
      intro ds
      induction ds with
      | nil => exact fun _ => fun h => ⟨h, fun c hc => absurd hc List.not_mem_nil⟩
      | cons d ds ihds =>
        intro hsub i result h
        rw [walkLeafSets] at h
        obtain ⟨h, hrest⟩ := ihds (fun c hc => hsub c (List.mem_cons_of_mem d hc)) h
        obtain ⟨h, hfirst⟩ := ih d (hsub d List.mem_cons_self) h
        exact ⟨h, List.forall_mem_cons.2 ⟨hfirst, hrest⟩⟩
    rw [LathNode.walkLeafSet] at h
    split at h
    · exact absurd h (shorterPath_ne_none _ _)
    next hset =>
      obtain ⟨h, hbelow⟩ := hchildren cs (fun _ hc => hc) h
      refine ⟨h, fun q m hm => ?_⟩
      cases q with
      | nil =>
        cases hm
        exact hset
      | cons i q =>
        rw [nodeAtPath_split_cons] at hm
        obtain ⟨c, hc, hm⟩ := Option.bind_eq_some_iff.1 hm
        exact hbelow c (List.mem_of_getElem? hc) q m hm

end Walk

/-- A subtree of a tree with exactly the given leaves. -/
def HasSubtree (tree : LathTree) (target : Finset LeafId) : Prop :=
  ∃ path m, nodeAtPath tree path = some m ∧ m.leafSet = target

/-- A path that `findPathByLeafSet` answers leads to a node with the leaves it was asked for. -/
theorem findPathByLeafSet_eq_some {tree : LathTree} {target : Finset LeafId} {path : List Nat}
    (h : findPathByLeafSet tree target = some path) :
    ∃ m, nodeAtPath tree path = some m ∧ m.leafSet = target := by
  unfold findPathByLeafSet at h
  split at h
  · cases h
  · obtain ⟨root, hroot, h⟩ := Option.bind_eq_some_iff.1 h
    rcases walkLeafSet_eq_some root h with h | ⟨q, m, rfl, hnode, hset⟩
    · cases h
    · exact ⟨m, by rw [nodeAtPath, hroot]; exact hnode, hset⟩

/-- It answers none only where no subtree has those leaves. -/
theorem findPathByLeafSet_eq_none {tree : LathTree} {target : Finset LeafId}
    (h : findPathByLeafSet tree target = none) (hne : target ≠ ∅) : ¬HasSubtree tree target := by
  rintro ⟨path, m, hnode, hset⟩
  obtain ⟨root, hroot, hnode⟩ := Option.bind_eq_some_iff.1 hnode
  rw [findPathByLeafSet, if_neg hne, hroot] at h
  exact (walkLeafSet_eq_none root h).2 path m hnode hset

/-! ### Removing a leaf -/

/-- `remove` succeeds on every leaf of a valid tree. -/
theorem remove_ok {tol : ℚ} {tree : LathTree} {id : LeafId} (h : tree.Valid tol)
    (hid : id ∈ leaves tree) : (remove tree id).ok = true := by
  unfold remove
  rcases hroot : tree.root with _ | root
  · rw [leaves, hroot] at hid
    cases hid
  cases hpath : findLeafPath tree id with
  | none =>
    have hnone := (@findLeafPath_isSome tree id).2 hid
    rw [hpath] at hnone
    cases hnone
  | some path =>
    have hnode := nodeAtPath_of_findLeafPath hroot hpath
    rcases hidx : path.getLast? with _ | idx
    · simp only [hidx]
    obtain ⟨dir, cs, c, hparent, hc, -⟩ := parent_of_nodeAtPath hnode hidx
    have hparent' : nodeAtPath tree path.dropLast = some (.split dir cs) := by
      rw [nodeAtPath, hroot]
      exact hparent
    have hsib : ∃ sib, cs[if decide (0 < idx) then idx - 1 else idx + 1]? = some sib := by
      have hlt := (List.getElem?_eq_some_iff.1 hc).1
      have htwo : 2 ≤ cs.length := by
        cases (h.canonical root hroot).nodeAtPath hparent with
        | split two pos sum alternate below => exact two
      have hlt' : (if decide (0 < idx) then idx - 1 else idx + 1) < cs.length := by
        split <;> rename_i hpos <;> simp at hpos <;> omega
      exact ⟨_, List.getElem?_eq_getElem hlt'⟩
    obtain ⟨sib, hsib⟩ := hsib
    simp only [hidx, hparent', hc, hsib]

/-- `remove` leaves the other leaves. -/
theorem mem_leaves_remove {tol : ℚ} {tree : LathTree} {id : LeafId} (h : tree.Valid tol)
    (hid : id ∈ leaves tree) {x : LeafId} :
    x ∈ leaves (remove tree id).tree ↔ x ∈ leaves tree ∧ x ≠ id := by
  obtain ⟨-, -, hbag, -⟩ := remove_spec h (remove_ok h hid)
  have hmem : ∀ {t : LathTree} {y : LeafId}, y ∈ t.leafBag ↔ y ∈ leaves t := Multiset.mem_coe
  have hnodup := h.nodup_bag
  rw [hbag, Multiset.nodup_cons] at hnodup
  rw [← hmem, ← hmem, hbag, Multiset.mem_cons]
  constructor
  · intro hx
    exact ⟨.inr hx, fun heq => hnodup.1 (heq ▸ hx)⟩
  · rintro ⟨rfl | hx, hne⟩
    · exact absurd rfl hne
    · exact hx

/-! ### Inserting beside a node -/

/-- On which side of another an inserted leaf comes. -/
def OrderedBy (edge : Edge) (moved other : LeafId) : LathNode → Prop :=
  LathNode.Before (edgeAxis edge) (if edgeIsBefore edge then moved else other)
    (if edgeIsBefore edge then other else moved)

/-- Inserting behind the first part of a list. -/
theorem insertIdx_length {α : Type*} (as bs : List α) (a : α) :
    (as ++ bs).insertIdx as.length a = as ++ a :: bs := by
  induction as with
  | nil => rfl
  | cons x as ih =>
    rw [List.cons_append, List.length_cons, List.insertIdx_succ_cons, ih, List.cons_append]

theorem besideSplit_orders (edge : Edge) (id : LeafId) (target : LathNode) (w : ℚ) {x : LeafId}
    (hx : x ∈ target.leaves) :
    OrderedBy edge id x (besideSplit (edgeAxis edge) (edgeIsBefore edge) (.leaf id) target w) := by
  have hleaf : ∀ v : ℚ, id ∈ listLeaves [⟨.leaf id, v⟩] := fun v => by simp [listLeaves]
  have htarget : ∀ v : ℚ, x ∈ listLeaves [⟨target, v⟩] := fun v => by
    rw [listLeaves, List.flatMap_singleton]
    exact hx
  rw [OrderedBy, besideSplit]
  cases edgeIsBefore edge with
  | true => exact @LathNode.Before.here _ _ _ [_] [_] (hleaf w) (htarget (1 - w))
  | false => exact @LathNode.Before.here _ _ _ [_] [_] (htarget (1 - w)) (hleaf w)

/-- A leaf put among the children of a split, right beside one of them. -/
theorem insertIdx_orders (edge : Edge) (id : LeafId) {cs : List LathChild} {c : LathChild}
    {idx : Nat} (w : ℚ) (hc : cs[idx]? = some c) {x : LeafId} (hx : x ∈ c.node.leaves) :
    OrderedBy edge id x (.split (edgeAxis edge)
      (cs.insertIdx (if edgeIsBefore edge then idx else idx + 1) ⟨.leaf id, w⟩)) := by
  obtain ⟨before, after, rfl, rfl, -⟩ := exists_split_of_getElem? hc
  have hleaf : id ∈ (LathNode.leaf id).leaves := by simp
  rw [OrderedBy]
  cases edgeIsBefore edge with
  | true =>
    rw [if_pos rfl, if_pos rfl, if_pos rfl, insertIdx_length, List.append_cons]
    exact .here (mem_listLeaves.2 ⟨_, List.mem_append_right _ (List.mem_singleton_self _), hleaf⟩)
      (mem_listLeaves.2 ⟨c, List.mem_cons_self, hx⟩)
  | false =>
    have hsplit := insertIdx_length (before ++ [c]) after (⟨.leaf id, w⟩ : LathChild)
    rw [List.length_append, List.length_singleton, ← List.append_cons] at hsplit
    rw [if_neg Bool.false_ne_true, if_neg Bool.false_ne_true, if_neg Bool.false_ne_true, hsplit]
    exact .here (mem_listLeaves.2 ⟨c, List.mem_append_right _ (List.mem_singleton_self _), hx⟩)
      (mem_listLeaves.2 ⟨_, List.mem_cons_self, hleaf⟩)

/-- **An inserted leaf stands on the edge side of every leaf of its target.** -/
theorem insertBesideNode_orders {tree : LathTree} {path : List Nat} {target : LathNode}
    {edge : Edge} {id : LeafId} {w : ℚ} (htarget : nodeAtPath tree path = some target)
    {m : LathNode} (hm : (insertBesideNode tree path edge id w).root = some m) {x : LeafId}
    (hx : x ∈ target.leaves) : OrderedBy edge id x m := by
  obtain ⟨root, hroot, hnode⟩ := Option.bind_eq_some_iff.1 htarget
  unfold insertBesideNode at hm
  simp only [hroot] at hm
  cases hidx : path.getLast? with
  | none =>
    obtain rfl := List.getLast?_eq_none_iff.1 hidx
    rw [nodeAtPath_nil] at hnode
    cases hnode
    simp only [hidx] at hm
    exact before_normalize (besideSplit_orders edge id _ w hx) m hm
  | some idx =>
    obtain ⟨dir, cs, c, hparent, hc, rfl⟩ := parent_of_nodeAtPath hnode hidx
    have hparent' : nodeAtPath tree path.dropLast = some (.split dir cs) := by
      rw [nodeAtPath, hroot]
      exact hparent
    simp only [hidx, hparent', htarget] at hm
    by_cases hdir : dir = edgeAxis edge
    · subst hdir
      simp only [if_true] at hm
      refine before_normalize (before_replaceAtPath hparent ?_) m hm
      exact (insertIdx_orders edge id w hc hx).of_nodes (map_node_normalizeWeights _).symm
    · simp only [if_neg hdir] at hm
      exact before_normalize
        (before_replaceAtPath hnode (besideSplit_orders edge id c.node w hx)) m hm

/-! ### Moving beside a subtree -/

/-- The rect `moved` lies entirely on the edge side of `other`. -/
def OnSide (edge : Edge) (moved other : Rect) : Prop :=
  match edge with
  | .left => moved.x + moved.width ≤ other.x
  | .right => other.x + other.width ≤ moved.x
  | .top => moved.y + moved.height ≤ other.y
  | .bottom => other.y + other.height ≤ moved.y

/-- No gap and no minimum size. -/
def flatOpts : LayoutOpts := ⟨0, ⟨0, 0⟩⟩

theorem flatOpts_sane : flatOpts.Sane :=
  ⟨⟨0, rfl⟩, fun axis => by cases axis <;> exact le_rfl⟩

/-- Where the order puts a leaf, the gap-free layout puts its rectangle. -/
theorem onSide_of_orderedBy {tree : LathTree} {tol : ℚ} (h : tree.Valid tol) {root : LathNode}
    (hroot : tree.root = some root) {edge : Edge} {moved other : LeafId}
    (horder : OrderedBy edge moved other root) (rect : Rect) :
    ∃ rm ro, (layout tree rect flatOpts).get moved = some rm ∧
      (layout tree rect flatOpts).get other = some ro ∧ OnSide edge rm ro := by
  have hnodup : root.leaves.Nodup := by
    have := h.nodup
    rwa [leaves, hroot] at this
  have hget : ∀ {x : LeafId}, x ∈ root.leaves →
      ∃ r, (x, r) ∈ root.leafRects flatOpts (nonnegativeRect rect) := by
    intro x hx
    rw [← map_fst_leafRects flatOpts root (nonnegativeRect rect)] at hx
    obtain ⟨⟨y, r⟩, hmem, rfl⟩ := List.mem_map.1 hx
    exact ⟨r, hmem⟩
  have hlayout : ∀ {x : LeafId} {r : Rect}, (x, r) ∈ root.leafRects flatOpts (nonnegativeRect rect) →
      (layout tree rect flatOpts).get x = some r := by
    intro x r hmem
    rw [InsertionMap.get_eq_some, layout_entries hroot h.nodup]
    exact hmem
  have hsides : ∀ {a b : LeafId}, root.Before (edgeAxis edge) a b → ∃ ra rb,
      (layout tree rect flatOpts).get a = some ra ∧ (layout tree rect flatOpts).get b = some rb ∧
        ra.start (edgeAxis edge) + ra.span (edgeAxis edge) ≤ rb.start (edgeAxis edge) := by
    intro a b hab
    obtain ⟨ra, hra⟩ := hget hab.mem.1
    obtain ⟨rb, hrb⟩ := hget hab.mem.2
    exact ⟨ra, rb, hlayout hra, hlayout hrb, before_layout rfl flatOpts_sane
      (h.canonical root hroot) hnodup hab _ ra rb hra hrb⟩
  obtain ⟨ra, rb, ha, hb, hle⟩ := hsides horder
  cases edge with
  | left => exact ⟨ra, rb, ha, hb, hle⟩
  | top => exact ⟨ra, rb, ha, hb, hle⟩
  | right => exact ⟨rb, ra, hb, ha, hle⟩
  | bottom => exact ⟨rb, ra, hb, ha, hle⟩

/-- The leaves of a subtree are leaves of the tree. -/
theorem mem_leaves_of_nodeAtPath {n m : LathNode} {path : List Nat}
    (h : n.nodeAtPath path = some m) {x : LeafId} (hx : x ∈ m.leaves) : x ∈ n.leaves := by
  induction path generalizing n with
  | nil =>
    cases (nodeAtPath_nil n).symm.trans h
    exact hx
  | cons i path ih =>
    obtain ⟨dir, cs, c, rfl, hc, hnode⟩ := child_of_nodeAtPath h
    rw [leaves_split]
    exact mem_listLeaves.2 ⟨c, List.mem_of_getElem? hc, ih hnode⟩

/-- Where the insertion of a move goes: to the subtree of the target's other leaves if there is
one, else to the first of them. -/
theorem moveInsertPath_spec {t2 : LathTree} {id : LeafId} {targetLeaves : List LeafId}
    {first : LeafId} (hfirst : targetLeaves.find? (· ≠ id) = some first)
    (hmem : first ∈ leaves t2) :
    ∃ insertPath m, moveInsertPath t2 id targetLeaves = some insertPath ∧
      nodeAtPath t2 insertPath = some m ∧ first ∈ m.leaves ∧
      (HasSubtree t2 (targetLeaves.filter (· ≠ id)).toFinset →
        m.leafSet = (targetLeaves.filter (· ≠ id)).toFinset) := by
  have hin : first ∈ (targetLeaves.filter (· ≠ id)).toFinset := by
    rw [List.mem_toFinset, List.mem_filter]
    exact ⟨List.mem_of_find?_eq_some hfirst, by simpa using List.find?_some hfirst⟩
  unfold moveInsertPath
  cases hpath : findPathByLeafSet t2 (targetLeaves.filter (· ≠ id)).toFinset with
  | some path =>
    obtain ⟨m, hnode, hset⟩ := findPathByLeafSet_eq_some hpath
    refine ⟨path, m, rfl, hnode, ?_, fun _ => hset⟩
    rw [← hset] at hin
    exact List.mem_toFinset.1 hin
  | none =>
    have hnone := findPathByLeafSet_eq_none hpath (Finset.ne_empty_of_mem hin)
    simp only [hfirst]
    cases hanchor : findLeafPath t2 first with
    | none =>
      have hsome := findLeafPath_isSome.2 hmem
      rw [hanchor] at hsome
      cases hsome
    | some path =>
      obtain ⟨root, hroot, hroot'⟩ := Option.bind_eq_some_iff.1 hanchor
      refine ⟨path, .leaf first, rfl, ?_, by simp, fun h => absurd h hnone⟩
      rw [nodeAtPath, hroot]
      exact nodeAtPath_findLeafPath hroot'

/-- **A move beside a subtree.** Onto the edge of a subtree with another leaf than the moved one, a
move always succeeds. If the target's other leaves are one subtree once the leaf is out, the moved
leaf lies on the edge side of all of them in the gap-free layout; otherwise it lies on the edge side
of the first of them. -/
theorem move_lands_beside {tol : ℚ} {tree : LathTree} (h : tree.Valid tol) {id : LeafId}
    (hid : id ∈ leaves tree) {path : List Nat} {edge : Edge} {target : LathNode}
    (htarget : nodeAtPath tree path = some target) {first : LeafId}
    (hfirst : target.leaves.find? (· ≠ id) = some first) :
    (move tree id (.edge path edge)).ok = true ∧ ∀ rect : Rect,
      (HasSubtree (remove tree id).tree (target.leaves.filter (· ≠ id)).toFinset →
        ∀ other ∈ target.leaves, other ≠ id → ∃ rm ro,
          (layout (move tree id (.edge path edge)).tree rect flatOpts).get id = some rm ∧
          (layout (move tree id (.edge path edge)).tree rect flatOpts).get other = some ro ∧
          OnSide edge rm ro) ∧
      ∃ rm ro, (layout (move tree id (.edge path edge)).tree rect flatOpts).get id = some rm ∧
        (layout (move tree id (.edge path edge)).tree rect flatOpts).get first = some ro ∧
        OnSide edge rm ro := by
  obtain ⟨root, hroot, hnode⟩ := Option.bind_eq_some_iff.1 htarget
  have hok := remove_ok h hid
  obtain ⟨-, hvalid, -, -⟩ := remove_spec h hok
  have hne : first ≠ id := by simpa using List.find?_some hfirst
  have hfirst' : first ∈ leaves tree := by
    rw [leaves, hroot]
    exact mem_leaves_of_nodeAtPath hnode (List.mem_of_find?_eq_some hfirst)
  have hsurvives := (mem_leaves_remove h hid).2 ⟨hfirst', hne⟩
  obtain ⟨insertPath, m, hpath, hm, hmem, hset⟩ := moveInsertPath_spec hfirst hsurvives
  obtain ⟨idPath, hidPath⟩ := Option.isSome_iff_exists.1 (findLeafPath_isSome.2 hid)
  have hnotonly : target.leaves ≠ [id] := by
    intro heq
    rw [heq, List.find?_singleton] at hfirst
    simp at hfirst
  -- The insertion finds its target and a fresh id.
  have hfresh : (findLeafPath (remove tree id).tree id).isSome ≠ true := fun hsome =>
    ((mem_leaves_remove h hid).1 (findLeafPath_isSome.1 hsome)).2 rfl
  obtain ⟨root₂, hroot₂, -⟩ := Option.bind_eq_some_iff.1 hm
  have hinsert : ∀ w, insert (remove tree id).tree id (.edge insertPath edge) w =
      ⟨insertBesideNode (remove tree id).tree insertPath edge id
        (min (max w insertEps) (1 - insertEps)), true⟩ := by
    intro w
    rw [insert]
    simp only [hroot₂, Option.isNone_some, Bool.false_eq_true, if_false, if_neg hfresh, hm]
  have hmove : move tree id (.edge path edge) =
      insert (remove tree id).tree id (.edge insertPath edge) (carriedWeight tree idPath) := by
    rw [move]
    simp only [hidPath, htarget, if_neg hnotonly, hpath]
    rw [if_pos (by rw [hinsert])]
  have hmoveOk : (move tree id (.edge path edge)).ok = true := by rw [hmove, hinsert]
  refine ⟨hmoveOk, fun rect => ?_⟩
  have hvalid' := (insert_spec hvalid (by rw [← hmove]; exact hmoveOk)).2.1
  rw [← hmove] at hvalid'
  have hbeside : ∀ other ∈ m.leaves, ∃ rm ro,
      (layout (move tree id (.edge path edge)).tree rect flatOpts).get id = some rm ∧
      (layout (move tree id (.edge path edge)).tree rect flatOpts).get other = some ro ∧
      OnSide edge rm ro := by
    intro other hother
    have hbag := (insert_spec hvalid (by rw [← hmove]; exact hmoveOk)).2.2
    rw [← hmove] at hbag
    cases hresult : (move tree id (.edge path edge)).tree.root with
    | none =>
      have hempty : (move tree id (.edge path edge)).tree.leafBag = 0 := by
        rw [LathTree.leafBag, leaves, hresult]
        rfl
      rw [hempty] at hbag
      exact absurd hbag.symm (Multiset.cons_ne_zero)
    | some final =>
      have hinserted := hresult
      rw [hmove, hinsert] at hinserted
      exact onSide_of_orderedBy hvalid' hresult (insertBesideNode_orders hm hinserted hother) rect
  refine ⟨fun hsub other hother hne' => hbeside other ?_, hbeside first hmem⟩
  have hin : other ∈ m.leafSet := by
    rw [hset hsub, List.mem_toFinset, List.mem_filter]
    exact ⟨hother, by simpa using hne'⟩
  exact List.mem_toFinset.1 hin

/-- A pane beside a column of the moved leaf over a row of two. -/
def columnWall : LathTree :=
  ⟨some (.split .row [⟨.leaf "x", 1 / 2⟩, ⟨.split .col [⟨.leaf "m", 1 / 2⟩,
    ⟨.split .row [⟨.leaf "a", 1 / 2⟩, ⟨.leaf "b", 1 / 2⟩], 1 / 2⟩], 1 / 2⟩])⟩

theorem valid_columnWall : columnWall.Valid 0 := by
  have hpair : ∀ {dir : Dir} {a b : LathNode}, a.dir? ≠ some dir → b.dir? ≠ some dir →
      a.Canonical 0 → b.Canonical 0 →
        (LathNode.split dir [⟨a, 1 / 2⟩, ⟨b, 1 / 2⟩]).Canonical 0 := by
    intro dir a b ha hb ha' hb'
    refine .split (by simp) (by norm_num) (by norm_num [weightSum]) ?_ ?_
    · simp [ha, hb]
    · simp [ha', hb']
  refine ⟨?_, by decide⟩
  rintro root ⟨⟩
  exact hpair (by simp [LathNode.dir?]) (by simp [LathNode.dir?]) (.leaf "x")
    (hpair (by simp [LathNode.dir?]) (by simp [LathNode.dir?]) (.leaf "m")
      (hpair (by simp [LathNode.dir?]) (by simp [LathNode.dir?]) (.leaf "a") (.leaf "b")))

/-- Moved to the left of the whole column, the leaf succeeds and lands left of its first pane. -/
theorem move_lands_beside_column :
    (move columnWall "m" (.edge [1] .left)).ok = true ∧
      ∃ rm ro, (layout (move columnWall "m" (.edge [1] .left)).tree ⟨0, 0, 80, 40⟩ flatOpts).get "m" =
          some rm ∧
        (layout (move columnWall "m" (.edge [1] .left)).tree ⟨0, 0, 80, 40⟩ flatOpts).get "a" =
          some ro ∧ OnSide .left rm ro := by
  obtain ⟨hok, hrects⟩ := @move_lands_beside 0 columnWall valid_columnWall "m" (by decide) [1] .left
    _ rfl "a" (by decide)
  exact ⟨hok, (hrects ⟨0, 0, 80, 40⟩).2⟩

/-- **A dissolved target loses its far side**: taken out of its column, the leaf lets the row below
flatten into the wall's, and dropped on that row's right edge it lands between its two panes. -/
theorem move_into_dissolved_row :
    columnWall.Valid 0 ∧ nodeAtPath columnWall [1, 1] =
        some (.split .row [⟨.leaf "a", 1 / 2⟩, ⟨.leaf "b", 1 / 2⟩]) ∧
      (layout (move columnWall "m" (.edge [1, 1] .right)).tree ⟨0, 0, 60, 40⟩ flatOpts).get "m" =
        some ⟨30, 0, 20, 40⟩ ∧
      (layout (move columnWall "m" (.edge [1, 1] .right)).tree ⟨0, 0, 60, 40⟩ flatOpts).get "b" =
        some ⟨50, 0, 10, 40⟩ ∧
      ¬OnSide .right ⟨30, 0, 20, 40⟩ ⟨50, 0, 10, 40⟩ :=
  ⟨valid_columnWall, rfl, by decide +kernel, by decide +kernel, by norm_num [OnSide]⟩

end Dormouse.Lath
