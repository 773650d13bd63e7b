import Dormouse.Lath.Paths

/-!
# Dormouse.Lath.OpsValid

**The operations keep the tree valid**, change its leaf set exactly as they say,
one specification lemma per operation.
-/

namespace Dormouse.Lath

/-- Leaf ids of a tree as a multiset. -/
def LathTree.leafBag (tree : LathTree) : Multiset LeafId := (leaves tree : Multiset LeafId)

theorem LathTree.leafBag_some (root : LathNode) :
    LathTree.leafBag ⟨some root⟩ = root.leafBag := rfl

theorem leafBag_of_root {tree : LathTree} {root : LathNode} (h : tree.root = some root) :
    tree.leafBag = root.leafBag := by
  rw [LathTree.leafBag, leaves, h]
  rfl

theorem leafBag_normalize (n : LathNode) : LathTree.leafBag ⟨n.normalize⟩ = n.leafBag := by
  rw [LathTree.leafBag, leaves_normalize]
  rfl

theorem LathTree.Valid.nodup_bag {tol : ℚ} {tree : LathTree} (h : tree.Valid tol) :
    tree.leafBag.Nodup :=
  Multiset.coe_nodup.2 h.nodup

theorem LathTree.Valid.mono {tol tol' : ℚ} (hle : tol ≤ tol') {tree : LathTree}
    (h : tree.Valid tol) : tree.Valid tol' :=
  ⟨fun root hroot => (h.canonical root hroot).mono hle, h.nodup⟩

/-- What every rewriting operation ends with: normalizing a positive tree whose
leaves are `bag`. -/
theorem normalize_yields {n : LathNode} {bag : Multiset LeafId} (hpos : n.Positive)
    (hbag : n.leafBag = bag) (hnodup : bag.Nodup) :
    LathTree.Valid 0 ⟨n.normalize⟩ ∧ LathTree.leafBag ⟨n.normalize⟩ = bag :=
  ⟨valid_normalize hpos (Multiset.coe_nodup.1 (hbag.symm ▸ hnodup : n.leafBag.Nodup)),
    (leafBag_normalize n).trans hbag⟩

/-- Replacing a subtree by one that has the leaf `x` more. -/
theorem leafBag_replaceAtPath_cons {n m r : LathNode} {path : List Nat} {x : LeafId}
    (h : n.nodeAtPath path = some m) (hr : r.leafBag = x ::ₘ m.leafBag) :
    (n.replaceAtPath path r).leafBag = x ::ₘ n.leafBag := by
  have heq := leafBag_replaceAtPath h r
  rw [hr, Multiset.cons_add, ← Multiset.add_cons] at heq
  exact add_left_cancel heq

/-- Replacing a subtree by one with the same leaves. -/
theorem leafBag_replaceAtPath_same {n m r : LathNode} {path : List Nat}
    (h : n.nodeAtPath path = some m) (hr : r.leafBag = m.leafBag) :
    (n.replaceAtPath path r).leafBag = n.leafBag := by
  have heq := leafBag_replaceAtPath h r
  rw [hr] at heq
  exact add_left_cancel heq

theorem findLeafPath_isSome {tree : LathTree} {id : LeafId} :
    (findLeafPath tree id).isSome = true ↔ id ∈ leaves tree := by
  rw [findLeafPath, leaves]
  cases tree.root with
  | none => simp
  | some root =>
    rw [Option.bind_some, ← not_iff_not, ← findLeafPath_eq_none (n := root)]
    simp

/-- A leaf found in a tree sits at its path. -/
theorem nodeAtPath_of_findLeafPath {tree : LathTree} {root : LathNode} {id : LeafId}
    {path : List Nat} (hroot : tree.root = some root) (h : findLeafPath tree id = some path) :
    root.nodeAtPath path = some (.leaf id) := by
  rw [findLeafPath, hroot] at h
  exact nodeAtPath_findLeafPath h

theorem mem_of_findLeafPath {tree : LathTree} {id : LeafId} {path : List Nat}
    (h : findLeafPath tree id = some path) : id ∈ leaves tree :=
  findLeafPath_isSome.1 (by rw [h]; rfl)

theorem not_mem_of_not_isSome {tree : LathTree} {id : LeafId}
    (h : ¬(findLeafPath tree id).isSome = true) : id ∉ leaves tree :=
  fun hmem => h (findLeafPath_isSome.2 hmem)

theorem nodup_cons_bag {tol : ℚ} {tree : LathTree} (h : tree.Valid tol) {id : LeafId}
    (hid : id ∉ leaves tree) : (id ::ₘ tree.leafBag).Nodup :=
  Multiset.nodup_cons.2 ⟨fun hmem => hid (Multiset.mem_coe.1 hmem), h.nodup_bag⟩

theorem LathTree.Valid.positive {tol : ℚ} {tree : LathTree} {root : LathNode} (h : tree.Valid tol)
    (hroot : tree.root = some root) : root.Positive :=
  (h.canonical root hroot).positive

/-! ### split -/

theorem positive_pair {dir : Dir} {a b : LathNode} {v w : ℚ} (ha : a.Positive) (hb : b.Positive)
    (hv : 0 < v) (hw : 0 < w) : (LathNode.split dir [⟨a, v⟩, ⟨b, w⟩]).Positive :=
  .split (by simp [hv, hw]) (by simp [ha, hb])

/-- A successful `split` adds exactly the new leaf. -/
theorem split_spec {tol : ℚ} {tree : LathTree} {at_ newId : LeafId} {edge : Edge}
    (h : tree.Valid tol) (ok : (split tree at_ edge newId).ok = true) :
    newId ∉ leaves tree ∧ (split tree at_ edge newId).tree.Valid 0 ∧
      (split tree at_ edge newId).tree.leafBag = newId ::ₘ tree.leafBag := by
  unfold split at ok ⊢
  rcases hroot : tree.root with _ | root
  · simp [hroot] at ok
  rcases hat : findLeafPath tree at_ with _ | atPath
  · simp [hroot, hat] at ok
  by_cases hnew : (findLeafPath tree newId).isSome = true
  · simp [hroot, hat, hnew] at ok
  simp only [if_neg hnew]
  have hfresh := not_mem_of_not_isSome hnew
  have hnode := nodeAtPath_of_findLeafPath hroot hat
  refine ⟨hfresh, normalize_yields ((h.positive hroot).replaceAtPath ?_ atPath) ?_
    (nodup_cons_bag h hfresh)⟩
  · cases edgeIsBefore edge
    · exact positive_pair (.leaf at_) (.leaf newId) (by norm_num) (by norm_num)
    · exact positive_pair (.leaf newId) (.leaf at_) (by norm_num) (by norm_num)
  · rw [leafBag_of_root hroot]
    refine leafBag_replaceAtPath_cons hnode ?_
    cases edgeIsBefore edge
    · simpa using Multiset.pair_comm at_ newId
    · simp

/-! ### remove -/

/-- A token of a removed leaf: the leaf was the root, or its weight is a proper share. -/
def RestoreToken.Sound (token : RestoreToken) : Prop :=
  token.siblingId = none ∨ (0 < token.weight ∧ token.weight < 1)

theorem leafBags_eraseIdx {cs : List LathChild} {i : Nat} {c : LathChild}
    (hc : cs[i]? = some c) : c.node.leafBag + leafBags (cs.eraseIdx i) = leafBags cs := by
  obtain ⟨hlt, rfl⟩ := List.getElem?_eq_some_iff.1 hc
  rw [← leafBags_cons]
  exact leafBags_perm (List.getElem_cons_eraseIdx_perm hlt)

/-- A successful `remove` drops exactly the leaf; where the weights sum to 1 exactly, its
token is sound. -/
theorem remove_spec {tol : ℚ} {tree : LathTree} {id : LeafId} (h : tree.Valid tol)
    (ok : (remove tree id).ok = true) :
    id ∈ leaves tree ∧ (remove tree id).tree.Valid 0 ∧
      tree.leafBag = id ::ₘ (remove tree id).tree.leafBag ∧
      ∀ token, (remove tree id).token = some token →
        token.leafId = id ∧ (tol = 0 → token.Sound) := by
  unfold remove at ok ⊢
  rcases hroot : tree.root with _ | root
  · simp [hroot] at ok
  rcases hpath : findLeafPath tree id with _ | path
  · simp [hroot, hpath] at ok
  have hmem := mem_of_findLeafPath hpath
  have hnode := nodeAtPath_of_findLeafPath hroot hpath
  cases hidx : path.getLast? with
  | none =>
    obtain rfl := List.getLast?_eq_none_iff.1 hidx
    obtain rfl : root = .leaf id := by simpa using hnode
    refine ⟨hmem, ⟨by simp, by simp [leaves]⟩, ?_, ?_⟩
    · rw [leafBag_of_root hroot]
      rfl
    · rintro token ⟨⟩
      exact ⟨rfl, fun _ => .inl rfl⟩
  | some idx =>
    obtain ⟨dir, cs, c, hparent, hc, hleaf⟩ := parent_of_nodeAtPath hnode hidx
    have hparent' : nodeAtPath tree path.dropLast = some (.split dir cs) := by
      rw [nodeAtPath, hroot]
      exact hparent
    simp only [hroot, hpath, hidx, hparent', hc, decide_eq_true_eq] at ok ⊢
    rcases hsib : cs[if 0 < idx then idx - 1 else idx + 1]? with _ | sib
    · simp [hsib] at ok
    simp only [hsib] at ok ⊢
    cases (h.canonical root hroot).nodeAtPath hparent with
    | split two pos sum alternate below =>
      have hcmem := List.mem_of_getElem? hc
      have hsum : tol = 0 → weightSum cs = 1 := by
        intro htol
        have := abs_eq_zero.1 (le_antisymm (htol ▸ sum) (abs_nonneg _))
        linarith
      have herase := leafBags_eraseIdx hc
      rw [hleaf] at herase
      have hbag : root.leafBag = id ::ₘ (root.replaceAtPath path.dropLast
          (.split dir (cs.eraseIdx idx))).leafBag := by
        have heq := leafBag_replaceAtPath hparent (.split dir (cs.eraseIdx idx))
        rw [leafBag_split, leafBag_split, ← herase, add_assoc,
          add_left_comm] at heq
        exact (add_left_cancel heq).symm
      have hsub : ∀ d ∈ cs.eraseIdx idx, d ∈ cs :=
        fun d hd => List.mem_of_mem_eraseIdx hd
      have hpos := (h.positive hroot).replaceAtPath (r := .split dir
        (cs.eraseIdx idx)) (.split (fun d hd => pos d (hsub d hd))
          fun d hd => (below d (hsub d hd)).positive) path.dropLast
      have hnodup := h.nodup_bag
      rw [leafBag_of_root hroot, hbag] at hnodup
      obtain ⟨hvalid, hres⟩ := normalize_yields hpos rfl
        (Multiset.nodup_cons.1 hnodup).2
      refine ⟨hmem, hvalid, ?_, ?_⟩
      · rw [hres, leafBag_of_root hroot]
        exact hbag
      · rintro token ⟨⟩
        refine ⟨rfl, fun htol => .inr ⟨pos c hcmem, ?_⟩⟩
        exact weight_lt_one two pos (hsum htol) hcmem

/-- A failed `remove` answers the input tree and no token. -/
theorem remove_fail {tree : LathTree} {id : LeafId} (fail : (remove tree id).ok = false) :
    (remove tree id).tree = tree ∧ (remove tree id).token = none := by
  revert fail
  unfold remove
  split
  · split
    · simp
    · simp only
      split
      · split <;> simp
      · simp
  · simp

/-! ### replace and swap -/

/-- A successful `replace` renames one leaf. -/
theorem replace_spec {tol : ℚ} {tree : LathTree} {oldId newId : LeafId} (h : tree.Valid tol)
    (ok : (replace tree oldId newId).ok = true) :
    oldId ∈ leaves tree ∧ newId ∉ leaves tree ∧ (replace tree oldId newId).tree.Valid tol ∧
      oldId ::ₘ (replace tree oldId newId).tree.leafBag = newId ::ₘ tree.leafBag := by
  unfold replace at ok ⊢
  rcases hroot : tree.root with _ | root
  · simp [hroot] at ok
  rcases hpath : findLeafPath tree oldId with _ | path
  · simp [hroot, hpath] at ok
  by_cases hnew : (findLeafPath tree newId).isSome = true
  · simp [hroot, hpath, hnew] at ok
  simp only [if_neg hnew]
  have hfresh := not_mem_of_not_isSome hnew
  have hmem := mem_of_findLeafPath hpath
  have hnode := nodeAtPath_of_findLeafPath hroot hpath
  have heq := leafBag_replaceAtPath hnode (.leaf newId)
  rw [leafBag_leaf, leafBag_leaf, Multiset.singleton_add, Multiset.singleton_add] at heq
  have hnodup : (oldId ::ₘ (root.replaceAtPath path (.leaf newId)).leafBag).Nodup := by
    rw [heq, ← leafBag_of_root hroot]
    exact nodup_cons_bag h hfresh
  refine ⟨hmem, hfresh, ⟨?_, ?_⟩, ?_⟩
  · rintro n ⟨⟩
    exact canonical_replaceAtPath_leaf newId (h.canonical root hroot) hnode
  · exact Multiset.coe_nodup.1 (Multiset.nodup_cons.1 hnodup).2
  · rw [LathTree.leafBag_some, heq, leafBag_of_root hroot]

/-- A successful `swap` keeps the leaves. -/
theorem swap_spec {tol : ℚ} {tree : LathTree} {a b : LeafId} (h : tree.Valid tol)
    (ok : (swap tree a b).ok = true) :
    (swap tree a b).tree.Valid tol ∧ (swap tree a b).tree.leafBag = tree.leafBag := by
  unfold swap at ok ⊢
  by_cases hab : a = b
  · simp [hab] at ok
  simp only [if_neg hab] at ok ⊢
  rcases hroot : tree.root with _ | root
  · simp [hroot] at ok
  rcases hpa : findLeafPath tree a with _ | pa
  · simp [hroot, hpa] at ok
  rcases hpb : findLeafPath tree b with _ | pb
  · simp [hroot, hpa, hpb] at ok
  simp only
  have hna := nodeAtPath_of_findLeafPath hroot hpa
  have hnb := nodeAtPath_of_findLeafPath hroot hpb
  have hne : pa ≠ pb := by
    rintro rfl
    rw [hna] at hnb
    exact hab (by simpa using hnb)
  have hnb' := nodeAtPath_replaceAtPath_ne (r := .leaf b) hna hnb hne
  have h1 := leafBag_replaceAtPath hna (.leaf b)
  have h2 := leafBag_replaceAtPath hnb' (.leaf a)
  have hbag : ((root.replaceAtPath pa (.leaf b)).replaceAtPath pb
      (.leaf a)).leafBag = root.leafBag := by
    rw [← add_right_inj (LathNode.leaf b).leafBag, h2, h1]
  refine ⟨⟨?_, ?_⟩, ?_⟩
  · rintro n ⟨⟩
    exact canonical_replaceAtPath_leaf a
      (canonical_replaceAtPath_leaf b (h.canonical root hroot) hna) hnb'
  · refine Multiset.coe_nodup.1 ?_
    rw [leaves, ← LathNode.leafBag, hbag, ← leafBag_of_root hroot]
    exact h.nodup_bag
  · rw [LathTree.leafBag_some, hbag, leafBag_of_root hroot]

/-! ### insert -/

theorem besideSplit_positive {axis : Dir} {before : Bool} {a n : LathNode} {w : ℚ}
    (ha : a.Positive) (hn : n.Positive) (hw : 0 < w) (hw' : w < 1) :
    (besideSplit axis before a n w).Positive := by
  have hc : 0 < 1 - w := by linarith
  cases before
  · exact positive_pair hn ha hc hw
  · exact positive_pair ha hn hw hc

theorem besideSplit_leafBag (axis : Dir) (before : Bool) (id : LeafId) (n : LathNode) (w : ℚ) :
    (besideSplit axis before (.leaf id) n w).leafBag = id ::ₘ n.leafBag := by
  cases before
  · simp [besideSplit, add_comm]
  · simp [besideSplit]

/-- A split whose weights are normalized after one leaf was put among its children. -/
theorem normalizedInsert_spec (dir : Dir) (id : LeafId) {cs : List LathChild} {i : Nat} {w : ℚ}
    (hi : i ≤ cs.length) (hpos : ∀ c ∈ cs, 0 < c.weight) (hbelow : ∀ c ∈ cs, c.node.Positive)
    (hw : 0 < w) :
    (LathNode.split dir (normalizeWeights (cs.insertIdx i ⟨.leaf id, w⟩))).Positive ∧
      (LathNode.split dir (normalizeWeights (cs.insertIdx i ⟨.leaf id, w⟩))).leafBag =
        id ::ₘ leafBags cs := by
  have hall : ∀ {P : LathChild → Prop}, (∀ c ∈ cs, P c) → P ⟨.leaf id, w⟩ →
      ∀ c ∈ cs.insertIdx i ⟨.leaf id, w⟩, P c := by
    intro P hcs hnew c hc
    rcases (List.mem_insertIdx hi).1 hc with rfl | hc
    · exact hnew
    · exact hcs c hc
  refine ⟨.split (normalizeWeights_pos (hall hpos hw)) ?_, ?_⟩
  · intro c hc
    obtain ⟨d, hd, hdc⟩ := mem_normalizeWeights_node hc
    exact hdc ▸ hall (P := fun c => c.node.Positive) hbelow (.leaf id) d hd
  · rw [leafBag_split, leafBags_normalizeWeights,
      leafBags_perm (List.perm_insertIdx _ cs hi), leafBags_cons, leafBag_leaf,
      Multiset.singleton_add]

theorem insertBesideNode_spec {tol : ℚ} {tree : LathTree} {path : List Nat} {target : LathNode}
    {edge : Edge} {id : LeafId} {w : ℚ} (h : tree.Valid tol)
    (htarget : nodeAtPath tree path = some target) (hfresh : id ∉ leaves tree)
    (hw : 0 < w) (hw' : w < 1) :
    (insertBesideNode tree path edge id w).Valid 0 ∧
      (insertBesideNode tree path edge id w).leafBag = id ::ₘ tree.leafBag := by
  obtain ⟨root, hroot, hnode⟩ := Option.bind_eq_some_iff.1 htarget
  have hpos := h.positive hroot
  have hnodup := nodup_cons_bag h hfresh
  rw [leafBag_of_root hroot] at hnodup ⊢
  unfold insertBesideNode
  simp only [hroot]
  rcases hidx : path.getLast? with _ | idx
  · exact normalize_yields (besideSplit_positive (.leaf id) hpos hw hw')
      (besideSplit_leafBag _ _ id root w) hnodup
  obtain ⟨dir, cs, c, hparent, hc, hleaf⟩ := parent_of_nodeAtPath hnode hidx
  have hparent' : nodeAtPath tree path.dropLast = some (.split dir cs) := by
    rw [nodeAtPath, hroot]
    exact hparent
  simp only [hparent', htarget]
  have hlt := (List.getElem?_eq_some_iff.1 hc).1
  by_cases hdir : dir = edgeAxis edge
  · subst hdir
    have hle : (if edgeIsBefore edge = true then idx else idx + 1) ≤ cs.length := by
      split <;> omega
    obtain ⟨hcpos, hcbelow⟩ := (hpos.nodeAtPath hparent).of_split
    obtain ⟨hp, hb⟩ := normalizedInsert_spec (edgeAxis edge) id hle hcpos
      hcbelow hw
    simp only [if_true]
    exact normalize_yields (hpos.replaceAtPath hp _)
      (leafBag_replaceAtPath_cons hparent (by rw [hb, leafBag_split])) hnodup
  · simp only [if_neg hdir]
    exact normalize_yields
      (hpos.replaceAtPath (besideSplit_positive (.leaf id) (hpos.nodeAtPath hnode) hw hw') _)
      (leafBag_replaceAtPath_cons hnode (besideSplit_leafBag _ _ id target w)) hnodup

theorem insertWeight_mem (weight : ℚ) :
    0 < min (max weight insertEps) (1 - insertEps) ∧
      min (max weight insertEps) (1 - insertEps) < 1 := by
  have heps : (0 : ℚ) < insertEps := by norm_num [insertEps]
  have hone : (0 : ℚ) < 1 - insertEps := by norm_num [insertEps]
  refine ⟨lt_min (heps.trans_le (le_max_right _ _)) hone, ?_⟩
  exact (min_le_right _ _).trans_lt (by linarith)

/-- A successful `insert` adds exactly the new leaf. -/
theorem insert_spec {tol : ℚ} {tree : LathTree} {id : LeafId} {target : DropTarget} {weight : ℚ}
    (h : tree.Valid tol) (ok : (insert tree id target weight).ok = true) :
    id ∉ leaves tree ∧ (insert tree id target weight).tree.Valid 0 ∧
      (insert tree id target weight).tree.leafBag = id ::ₘ tree.leafBag := by
  unfold insert at ok ⊢
  cases target with
  | swap leaf => simp at ok
  | edge path edge =>
    by_cases hroot : tree.root.isNone = true
    · simp [hroot] at ok
    by_cases hid : (findLeafPath tree id).isSome = true
    · simp [hroot, hid] at ok
    cases hnode : nodeAtPath tree path with
    | none => simp [hroot, hid, hnode] at ok
    | some node =>
      simp only [if_neg hroot, if_neg hid, hnode, Option.isNone_some, Bool.false_eq_true,
        if_false]
      have hfresh := not_mem_of_not_isSome hid
      obtain ⟨hw, hw'⟩ := insertWeight_mem weight
      exact ⟨hfresh, insertBesideNode_spec h hnode hfresh hw hw'⟩

/-! ### restore -/

/-- What a tier of `restore` must deliver: the leaf is back and nothing else changed. -/
def Restores (tree : LathTree) (id : LeafId) (t : LathTree) : Prop :=
  t.Valid 0 ∧ t.leafBag = id ::ₘ tree.leafBag

/-- A weight the exact tier can bring back: a proper share, wherever the fingerprint of the
parent names a split of the tree. -/
def RestoreToken.Restorable (tree : LathTree) (token : RestoreToken) : Prop :=
  ∀ siblingId fingerprint parentPath, token.siblingId = some siblingId →
    token.fingerprint = some fingerprint →
    findSplitPathByFingerprint tree fingerprint = some parentPath →
    0 < token.weight ∧ token.weight < 1

theorem RestoreToken.Sound.restorable {token : RestoreToken} (h : token.Sound) (tree : LathTree) :
    token.Restorable tree := by
  intro siblingId _ _ hsibling _ _
  exact h.resolve_left (by rw [hsibling]; simp)

theorem restoreInto_spec {tol : ℚ} {tree : LathTree} {root : LathNode} {parentPath : List Nat}
    {dir : Dir} {cs : List LathChild} {token : RestoreToken} (h : tree.Valid tol)
    (hroot : tree.root = some root) (hparent : root.nodeAtPath parentPath = some (.split dir cs))
    (hfresh : token.leafId ∉ leaves tree) (hw : 0 < token.weight) (hw' : token.weight < 1) :
    Restores tree token.leafId (restoreInto root parentPath dir cs token) := by
  have hpos := h.positive hroot
  obtain ⟨hcpos, hcbelow⟩ := (hpos.nodeAtPath hparent).of_split
  have hscale : 0 < 1 - token.weight := by linarith
  have hnodup := nodup_cons_bag h hfresh
  rw [leafBag_of_root hroot] at hnodup
  unfold restoreInto Restores
  simp only
  generalize hscaled : (cs.map fun c => (⟨c.node, c.weight * (1 - token.weight)⟩ : LathChild))
    = scaled
  have hspos : ∀ c ∈ scaled, 0 < c.weight := by
    intro c hc
    rw [← hscaled, List.mem_map] at hc
    obtain ⟨d, hd, rfl⟩ := hc
    exact mul_pos (hcpos d hd) hscale
  have hsbelow : ∀ c ∈ scaled, c.node.Positive := by
    intro c hc
    rw [← hscaled, List.mem_map] at hc
    obtain ⟨d, hd, rfl⟩ := hc
    exact hcbelow d hd
  have hsbag : leafBags scaled = leafBags cs := by
    refine leafBags_congr ?_
    rw [← hscaled, List.map_map]
    rfl
  have hle : (min (max token.index 0) (scaled.length : ℤ)).toNat ≤ scaled.length := by omega
  obtain ⟨hp, hb⟩ := normalizedInsert_spec dir token.leafId hle hspos hsbelow hw
  rw [leafBag_of_root hroot]
  exact normalize_yields (hpos.replaceAtPath hp _)
    (leafBag_replaceAtPath_cons hparent (by rw [hb, hsbag, leafBag_split])) hnodup

theorem restoreExact_spec {tol : ℚ} {tree t : LathTree} {root : LathNode} {token : RestoreToken}
    (h : tree.Valid tol) (hroot : tree.root = some root) (hfresh : token.leafId ∉ leaves tree)
    (hshare : token.Restorable tree) (ht : restoreExact tree root token = some t) :
    Restores tree token.leafId t := by
  unfold restoreExact at ht
  split at ht
  · rename_i sid fp hsid hfp
    split at ht
    · rename_i parentPath hpp
      obtain ⟨hw, hw'⟩ := hshare sid fp parentPath hsid hfp hpp
      split at ht
      · rename_i dir cs hnode
        obtain rfl := Option.some.inj ht
        rw [nodeAtPath, hroot] at hnode
        exact restoreInto_spec h hroot hnode hfresh hw hw'
      · exact absurd ht (by simp)
    · split at ht
      · split at ht
        · split at ht
          · exact absurd ht (by simp)
          · split at ht
            · exact absurd ht (by simp)
            · split at ht
              · simp only at ht
                split at ht
                · rename_i hok
                  obtain rfl := Option.some.inj ht
                  exact (insert_spec h hok).2
                · exact absurd ht (by simp)
              · exact absurd ht (by simp)
        · exact absurd ht (by simp)
      · exact absurd ht (by simp)
  · exact absurd ht (by simp)

theorem restoreNeighbor_spec {tol : ℚ} {tree t : LathTree} {token : RestoreToken}
    (h : tree.Valid tol) (ht : restoreNeighbor tree token = some t) : Restores tree token.leafId t := by
  unfold restoreNeighbor at ht
  split at ht
  · exact absurd ht (by simp)
  split at ht
  · simp only at ht
    split at ht
    · rename_i hok
      obtain rfl := Option.some.inj ht
      exact (split_spec h hok).2
    · exact absurd ht (by simp)
  · exact absurd ht (by simp)

theorem restoreFallback_spec {tol : ℚ} {tree t : LathTree} {token : RestoreToken}
    {opts : RestoreOpts} (h : tree.Valid tol) (ht : restoreFallback tree token opts = some t) :
    Restores tree token.leafId t := by
  unfold restoreFallback at ht
  split at ht
  · exact absurd ht (by simp)
  split at ht
  · simp only at ht
    split at ht
    · rename_i hok
      obtain rfl := Option.some.inj ht
      exact (split_spec h hok).2
    · exact absurd ht (by simp)
  · exact absurd ht (by simp)

/-- A successful `restore` of a proper share adds exactly the removed leaf. -/
theorem restore_spec {tol : ℚ} {tree : LathTree} {token : RestoreToken} {opts : RestoreOpts}
    (h : tree.Valid tol) (hshare : token.Restorable tree) (ok : (restore tree token opts).ok = true) :
    token.leafId ∉ leaves tree ∧ Restores tree token.leafId (restore tree token opts).tree := by
  unfold restore at ok ⊢
  by_cases hid : (findLeafPath tree token.leafId).isSome = true
  · simp [hid] at ok
  have hfresh := not_mem_of_not_isSome hid
  simp only [if_neg hid] at ok ⊢
  refine ⟨hfresh, ?_⟩
  cases hroot : tree.root with
  | none =>
    refine ⟨⟨?_, by simp [leaves, leafTree]⟩, ?_⟩
    · rintro n ⟨⟩
      exact .leaf token.leafId
    · simp [LathTree.leafBag, leaves, leafTree, hroot]
  | some root =>
    simp only [hroot] at ok ⊢
    cases hexact : restoreExact tree root token with
    | some t => exact restoreExact_spec h hroot hfresh hshare hexact
    | none =>
      simp only [hexact] at ok ⊢
      cases hneighbor : restoreNeighbor tree token with
      | some t => exact restoreNeighbor_spec h hneighbor
      | none =>
        simp only [hneighbor] at ok ⊢
        cases hfallback : restoreFallback tree token opts with
        | some t => exact restoreFallback_spec h hfallback
        | none => simp [hfallback] at ok

/-! ### move -/

/-- A successful `move` keeps the leaves. -/
theorem move_spec {tol : ℚ} {tree : LathTree} {id : LeafId} {target : DropTarget}
    (htol : 0 ≤ tol) (h : tree.Valid tol) (ok : (move tree id target).ok = true) :
    (move tree id target).tree.Valid tol ∧ (move tree id target).tree.leafBag = tree.leafBag := by
  unfold move at ok ⊢
  cases target with
  | swap leaf => exact swap_spec h ok
  | edge path edge =>
    rcases hid : findLeafPath tree id with _ | idPath
    · simp [hid] at ok
    rcases hnode : nodeAtPath tree path with _ | targetNode
    · simp [hid, hnode] at ok
    simp only [hid, hnode] at ok ⊢
    split at ok
    · exact absurd ok (by simp)
    rename_i htl
    simp only [if_neg htl]
    rcases hip : moveInsertPath (remove tree id).tree id targetNode.leaves with _ | insertPath
    · simp [hip] at ok
    simp only [hip] at ok ⊢
    split at ok
    · rename_i hins
      simp only [if_pos hins]
      cases hrem : (remove tree id).ok with
      | true =>
        obtain ⟨-, hvalid, hbag, -⟩ := remove_spec h hrem
        obtain ⟨-, hvalid', hbag'⟩ := insert_spec hvalid hins
        exact ⟨hvalid'.mono htol, hbag'.trans hbag.symm⟩
      | false =>
        rw [(remove_fail hrem).1] at hins
        exact absurd (mem_of_findLeafPath hid) (insert_spec h hins).1
    · exact absurd ok (by simp)

/-! ### resize -/

theorem resizedWeight_mem {wa wb : ℚ} (minA minB delta : ℚ) (ha : 0 < wa) (hb : 0 < wb) :
    0 < resizedWeight wa (wa + wb) minA minB delta ∧
      0 < wa + wb - resizedWeight wa (wa + wb) minA minB delta := by
  unfold resizedWeight
  simp only
  generalize (if wa + wb - minB < minA then
      if 0 < minA + minB then (wa + wb) * (minA / (minA + minB)) else (wa + wb) / 2
    else min (max (wa + delta) minA) (wa + wb - minB)) = newWa
  have heps : 0 < 1 / 10000 * (wa + wb) := by positivity
  have hhi : 0 < wa + wb - 1 / 10000 * (wa + wb) := by linarith
  refine ⟨lt_min (heps.trans_le (le_max_right _ _)) hhi, ?_⟩
  have := min_le_right (max newWa (1 / 10000 * (wa + wb))) (wa + wb - 1 / 10000 * (wa + wb))
  linarith

/-- A successful `resize` keeps the leaves. -/
theorem resize_spec {tol : ℚ} {tree : LathTree} {splitPath : List Nat} {boundary : ℤ}
    {deltaPx : ℚ} {rect : Rect} {opts : LayoutOpts} (h : tree.Valid tol)
    (ok : (resize tree splitPath boundary deltaPx rect opts).ok = true) :
    (resize tree splitPath boundary deltaPx rect opts).tree.Valid 0 ∧
      (resize tree splitPath boundary deltaPx rect opts).tree.leafBag = tree.leafBag := by
  unfold resize at ok ⊢
  split at ok
  · rename_i root dir cs hroot hnode
    have hnode' : root.nodeAtPath splitPath = some (.split dir cs) := by
      rwa [nodeAtPath, hroot] at hnode
    split at ok
    · exact absurd ok (by simp)
    rename_i hbound
    simp only [if_neg hbound]
    split at ok
    · exact absurd ok (by simp)
    simp only at ok ⊢
    split at ok
    · exact absurd ok (by simp)
    rename_i havail
    simp only [if_neg havail]
    split at ok
    · rename_i ca cb hca hcb
      have hpos := h.positive hroot
      obtain ⟨hcpos, hcbelow⟩ := (hpos.nodeAtPath hnode').of_split
      have hma := List.mem_of_getElem? hca
      have hmb := List.mem_of_getElem? hcb
      obtain ⟨hwa, hwb⟩ := resizedWeight_mem _ _ _
        (hcpos ca hma) (hcpos cb hmb)
      have hnodes : ∀ {v w : ℚ}, ((cs.set boundary.toNat ⟨ca.node, v⟩).set
          (boundary.toNat + 1) ⟨cb.node, w⟩).map (·.node) = cs.map (·.node) := by
        intro v w
        rw [List.map_set, List.map_set]
        have hget : ∀ {i : Nat} {c : LathChild}, cs[i]? = some c →
            (cs.map (·.node))[i]? = some c.node := fun hc => by
          rw [List.getElem?_map, hc]; rfl
        rw [set_getElem? (hget hca), set_getElem? (hget hcb)]
      rw [leafBag_of_root hroot]
      refine normalize_yields (hpos.replaceAtPath (.split ?_ ?_) _)
        (leafBag_replaceAtPath_same hnode' ?_) ?_
      · exact forall_mem_set (forall_mem_set hcpos hwa) hwb
      · exact forall_mem_set (forall_mem_set hcbelow (hcbelow ca hma)) (hcbelow cb hmb)
      · rw [leafBag_split, leafBag_split]
        exact leafBags_congr hnodes
      · rw [← leafBag_of_root hroot]
        exact h.nodup_bag
    · exact absurd ok (by simp)
  · exact absurd ok (by simp)
where
  set_getElem? {α : Type} {l : List α} {i : Nat} {a : α} (h : l[i]? = some a) :
      l.set i a = l := by
    obtain ⟨hlt, rfl⟩ := List.getElem?_eq_some_iff.1 h
    exact List.set_getElem_self hlt

end Dormouse.Lath
