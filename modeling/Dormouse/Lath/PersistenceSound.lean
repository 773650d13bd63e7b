import Dormouse.Lath.Paths
import Dormouse.Lath.Persistence

/-!
# Dormouse.Lath.PersistenceSound

**What the check of a persisted layout accepts**: of the trees the tiling engine writes,
exactly the valid ones, with the metadata of exactly their leaves.
-/

namespace Dormouse.Lath

/-! ### Reading back what was written -/

theorem kind_leaf (id : LeafId) :
    (LathNode.leaf id).toJson.stringField (js "kind") = some (js "leaf") := by
  rfl

theorem id_leaf (id : LeafId) :
    (LathNode.leaf id).toJson.stringField (js "id") = some (js id) := by
  have hne : (js "kind" == js "id") = false := by decide +kernel
  have heq : (js "id" == js "id") = true := by decide +kernel
  simp only [LathNode.toJson, Json.stringField, Json.field, List.find?, hne, heq]
  rfl

theorem kind_split (dir : Dir) (cs : List LathChild) :
    (LathNode.split dir cs).toJson.stringField (js "kind") = some (js "split") := by
  rfl

theorem readDir_split (dir : Dir) (cs : List LathChild) :
    readDir (LathNode.split dir cs).toJson = some dir := by
  have hdir : (LathNode.split dir cs).toJson.stringField (js "dir") = dir.toJson.asString := by
    have hne : (js "kind" == js "dir") = false := by decide +kernel
    have heq : (js "dir" == js "dir") = true := by decide +kernel
    simp only [LathNode.toJson, Json.stringField, Json.field, List.find?, hne, heq]
    rfl
  rw [readDir, hdir]
  cases dir with
  | row => rfl
  | col => decide +kernel

theorem children_split (dir : Dir) (cs : List LathChild) :
    (LathNode.split dir cs).toJson.field (js "children") = some (.array (childrenToJson cs)) := by
  have hkind : (js "kind" == js "children") = false := by decide +kernel
  have hdir : (js "dir" == js "children") = false := by decide +kernel
  have heq : (js "children" == js "children") = true := by decide +kernel
  simp only [LathNode.toJson, Json.field, List.find?, hkind, hdir, heq]
  rfl

theorem childrenToJson_eq (cs : List LathChild) :
    childrenToJson cs = cs.map fun c =>
      .object [(js "node", c.node.toJson), (js "weight", .number c.weight)] := by
  induction cs with
  | nil => rfl
  | cons c cs ih => rw [childrenToJson, ih, List.map_cons]

theorem node_child (node : Json) (weight : ℚ) :
    (Json.object [(js "node", node), (js "weight", .number weight)]).field (js "node") =
      some node := by
  rfl

theorem weight_child (node : Json) (weight : ℚ) :
    readWeight (Json.object [(js "node", node), (js "weight", .number weight)]) =
      if 0 < weight then some weight else none := by
  have hne : (js "node" == js "weight") = false := by decide +kernel
  have heq : (js "weight" == js "weight") = true := by decide +kernel
  simp only [readWeight, Json.field, List.find?, hne, heq]
  rfl

/-! ### The check of a tree -/

/-- A node of a typed tree on the work list. -/
structure Place where
  node : LathNode
  path : List Nat
  parentDir : Option Dir

def Place.toPending (p : Place) : PendingNode := ⟨some p.node.toJson, p.path, p.parentDir⟩

/-- The children of a split, on the work list. -/
def childPlaces (path : List Nat) (dir : Dir) (i : Nat) (cs : List LathChild) : List Place :=
  (cs.zipIdx i).map fun c => ⟨c.1.node, path ++ [c.2], some dir⟩

theorem validateChildren_toJson (path : List Nat) (dir : Dir) (cs : List LathChild) :
    ∀ i, (validateChildren path dir i (childrenToJson cs)).2.2 =
        (childPlaces path dir i cs).map Place.toPending ∧
      ((validateChildren path dir i (childrenToJson cs)).1 = [] ↔ ∀ c ∈ cs, 0 < c.weight) ∧
      ((∀ c ∈ cs, 0 < c.weight) →
        (validateChildren path dir i (childrenToJson cs)).2.1 = weightSum cs) := by
  induction cs with
  | nil => exact fun i => ⟨rfl, by simp [childrenToJson, validateChildren], fun _ => rfl⟩
  | cons c cs ih =>
    intro i
    obtain ⟨hpushed, herrors, hsum⟩ := ih (i + 1)
    rw [childrenToJson, validateChildren]
    dsimp only
    have hrecord : (Json.object [(js "node", c.node.toJson),
        (js "weight", .number c.weight)]).isRecord = true := rfl
    rw [if_pos hrecord, weight_child, node_child]
    by_cases hw : 0 < c.weight
    · simp only [if_pos hw]
      refine ⟨?_, ?_, ?_⟩
      · rw [hpushed]
        rfl
      · rw [herrors, List.forall_mem_cons]
        exact ⟨fun h => ⟨hw, h⟩, fun h => h.2⟩
      · intro hpos
        rw [hsum fun d hd => hpos d (List.mem_cons_of_mem _ hd), weightSum_cons]
    · simp only [if_neg hw]
      refine ⟨?_, ?_, ?_⟩
      · rw [hpushed]
        rfl
      · rw [List.forall_mem_cons]
        exact ⟨fun h => absurd h (List.cons_ne_nil _ _), fun h => absurd h.1 hw⟩
      · intro hpos
        exact absurd (hpos c List.mem_cons_self) hw

theorem childrenToJson_length (cs : List LathChild) : (childrenToJson cs).length = cs.length := by
  rw [childrenToJson_eq, List.length_map]

/-- What the check of one split looks for. -/
def SplitFits (parentDir : Option Dir) (dir : Dir) (cs : List LathChild) : Prop :=
  parentDir ≠ some dir ∧ 2 ≤ cs.length ∧ (∀ c ∈ cs, 0 < c.weight) ∧
    |weightSum cs - 1| ≤ validateTol

/-- A split is reported unless it alternates, has two children, and they are whole. -/
theorem validateSplit_eq_nil (path : List Nat) (parentDir : Option Dir) (dir : Dir)
    (children : List Json) (seenIds : List JsString) :
    (validateSplit path parentDir dir children seenIds).errors = [] ↔
      parentDir ≠ some dir ∧ 2 ≤ children.length ∧ (validateChildren path dir 0 children).1 = [] ∧
        |(validateChildren path dir 0 children).2.1 - 1| ≤ validateTol := by
  have hif : ∀ {P : Prop} [Decidable P] (e : ValidateError),
      (if P then [e] else []) = [] ↔ ¬P := by
    intro P _ e
    split <;> simp_all
  unfold validateSplit
  rw [List.append_eq_nil_iff, List.append_eq_nil_iff, List.append_eq_nil_iff, hif, hif, hif]
  constructor
  · rintro ⟨⟨⟨hdir, hlen⟩, herrors⟩, hsum⟩
    exact ⟨hdir, by omega, herrors, not_lt.1 fun hlt => hsum ⟨by omega, hlt⟩⟩
  · rintro ⟨hdir, hlen, herrors, hsum⟩
    exact ⟨⟨⟨hdir, by omega⟩, herrors⟩, fun hbad => absurd hbad.2 (not_lt.2 hsum)⟩

theorem validateSplit_errors (path : List Nat) (parentDir : Option Dir) (dir : Dir)
    (cs : List LathChild) (seenIds : List JsString) :
    (validateSplit path parentDir dir (childrenToJson cs) seenIds).errors = [] ↔
      SplitFits parentDir dir cs := by
  obtain ⟨-, herrors, hsum⟩ := validateChildren_toJson path dir cs 0
  rw [validateSplit_eq_nil, herrors, childrenToJson_length]
  exact and_congr_right fun _ => and_congr_right fun _ => and_congr_right fun hpos => by rw [hsum hpos]

/-- The leaves below places. -/
def placesBag (ps : List Place) : Multiset LeafId := (ps.map fun p => p.node.leafBag).sum

/-- What is right about the nodes that are left: canonical, not along their parent's
direction, and with leaves that are new. -/
structure Acceptable (ps : List Place) (seen : List LeafId) : Prop where
  canonical : ∀ p ∈ ps, p.node.Canonical validateTol
  alternate : ∀ p ∈ ps, ∀ dir, p.parentDir = some dir → p.node.dir? ≠ some dir
  nodup : (placesBag ps).Nodup
  fresh : ∀ id ∈ placesBag ps, id ∉ seen

theorem acceptable_leaf {id : LeafId} {path : List Nat} {parentDir : Option Dir} {ps : List Place}
    {seen : List LeafId} :
    Acceptable (⟨.leaf id, path, parentDir⟩ :: ps) seen ↔ id ∉ seen ∧ Acceptable ps (id :: seen) := by
  have hbag : placesBag (⟨.leaf id, path, parentDir⟩ :: ps) = id ::ₘ placesBag ps := by
    unfold placesBag
    rw [List.map_cons, List.sum_cons, leafBag_leaf, Multiset.singleton_add]
  constructor
  · intro h
    have hnodup := h.nodup
    have hfresh := h.fresh
    rw [hbag] at hnodup hfresh
    rw [Multiset.nodup_cons] at hnodup
    refine ⟨hfresh id (Multiset.mem_cons_self _ _),
      fun p hp => h.canonical p (List.mem_cons_of_mem _ hp),
      fun p hp => h.alternate p (List.mem_cons_of_mem _ hp), hnodup.2, ?_⟩
    intro id' hid' hseen
    rcases List.mem_cons.1 hseen with rfl | hseen
    · exact hnodup.1 hid'
    · exact hfresh id' (Multiset.mem_cons_of_mem hid') hseen
  · intro h
    obtain ⟨hid, h⟩ := h
    refine ⟨List.forall_mem_cons.2 ⟨.leaf id, h.canonical⟩,
      List.forall_mem_cons.2 ⟨fun _ _ => (Option.some_ne_none _).symm, h.alternate⟩, ?_, ?_⟩
    · rw [hbag, Multiset.nodup_cons]
      exact ⟨fun hmem => h.fresh id hmem List.mem_cons_self, h.nodup⟩
    · rw [hbag]
      intro id' hid' hseen
      rcases Multiset.mem_cons.1 hid' with rfl | hid'
      · exact hid hseen
      · exact h.fresh id' hid' (List.mem_cons_of_mem _ hseen)

theorem mem_childPlaces {path : List Nat} {dir : Dir} {i : Nat} {cs : List LathChild} {p : Place}
    (h : p ∈ childPlaces path dir i cs) :
    p.parentDir = some dir ∧ ∃ c ∈ cs, p.node = c.node := by
  obtain ⟨c, hc, rfl⟩ := List.mem_map.1 h
  exact ⟨rfl, c.1, List.fst_mem_of_mem_zipIdx hc, rfl⟩

theorem childPlaces_nodes (path : List Nat) (dir : Dir) (cs : List LathChild) :
    ∀ i, (childPlaces path dir i cs).map (·.node) = cs.map (·.node) := by
  intro i
  unfold childPlaces
  rw [List.map_map]
  show (cs.zipIdx i).map ((·.node) ∘ Prod.fst) = _
  rw [← List.map_map, List.zipIdx_map_fst]

theorem acceptable_split {dir : Dir} {cs : List LathChild} {path : List Nat}
    {parentDir : Option Dir} {ps : List Place} {seen : List LeafId} :
    Acceptable (⟨.split dir cs, path, parentDir⟩ :: ps) seen ↔
      SplitFits parentDir dir cs ∧ Acceptable ((childPlaces path dir 0 cs).reverse ++ ps) seen := by
  have hchildren : placesBag (childPlaces path dir 0 cs) = leafBags cs := by
    have hnodes := congrArg (List.map LathNode.leafBag) (childPlaces_nodes path dir cs 0)
    rw [List.map_map, List.map_map] at hnodes
    exact congrArg List.sum hnodes
  have hbag : placesBag ((childPlaces path dir 0 cs).reverse ++ ps) =
      placesBag (⟨.split dir cs, path, parentDir⟩ :: ps) := by
    unfold placesBag at hchildren ⊢
    rw [List.map_append, List.map_reverse, List.sum_append, List.sum_reverse, hchildren, List.map_cons,
      List.sum_cons, leafBag_split]
  constructor
  · intro h
    cases h.canonical _ List.mem_cons_self with
    | split two pos sum alternate below =>
      refine ⟨⟨?_, two, pos, sum⟩, ?_, ?_, hbag ▸ h.nodup, hbag ▸ h.fresh⟩
      · exact fun hdir => h.alternate _ List.mem_cons_self dir hdir rfl
      · intro p hp
        rcases List.mem_append.1 hp with hp | hp
        · obtain ⟨-, c, hc, hnode⟩ := mem_childPlaces (List.mem_reverse.1 hp)
          exact hnode ▸ below c hc
        · exact h.canonical p (List.mem_cons_of_mem _ hp)
      · intro p hp
        rcases List.mem_append.1 hp with hp | hp
        · obtain ⟨hparent, c, hc, hnode⟩ := mem_childPlaces (List.mem_reverse.1 hp)
          intro dir' hdir'
          rw [hparent] at hdir'
          cases hdir'
          rw [hnode]
          exact alternate c hc
        · exact h.alternate p (List.mem_cons_of_mem _ hp)
  · intro h
    obtain ⟨⟨hdir, two, pos, sum⟩, h⟩ := h
    have hplace : ∀ c ∈ cs, ∃ p ∈ childPlaces path dir 0 cs, p.node = c.node ∧
        p.parentDir = some dir := by
      intro c hc
      have hmem : c.node ∈ (childPlaces path dir 0 cs).map (·.node) := by
        rw [childPlaces_nodes]
        exact List.mem_map_of_mem hc
      obtain ⟨p, hp, hnode⟩ := List.mem_map.1 hmem
      exact ⟨p, hp, hnode, (mem_childPlaces hp).1⟩
    refine ⟨List.forall_mem_cons.2 ⟨.split two pos sum ?_ ?_, ?_⟩,
      List.forall_mem_cons.2 ⟨?_, ?_⟩, hbag ▸ h.nodup, hbag ▸ h.fresh⟩
    · intro c hc
      obtain ⟨p, hp, hnode, hparent⟩ := hplace c hc
      rw [← hnode]
      exact h.alternate p (List.mem_append_left _ (List.mem_reverse.2 hp)) dir hparent
    · intro c hc
      obtain ⟨p, hp, hnode, -⟩ := hplace c hc
      rw [← hnode]
      exact h.canonical p (List.mem_append_left _ (List.mem_reverse.2 hp))
    · exact fun p hp => h.canonical p (List.mem_append_right _ hp)
    · intro dir' hparent hsame
      cases hsame
      exact hdir hparent
    · exact fun p hp => h.alternate p (List.mem_append_right _ hp)

theorem validateNode_leaf (id : LeafId) (path : List Nat) (parentDir : Option Dir)
    (seenIds : List JsString) :
    validateNode (Place.toPending ⟨.leaf id, path, parentDir⟩) seenIds =
      ⟨if js id ∈ seenIds then [.duplicateLeafId (js id) path] else [], [], js id :: seenIds⟩ := by
  have hkind := kind_leaf id
  have hid := id_leaf id
  unfold validateNode Place.toPending
  rw [LathNode.toJson] at hkind hid ⊢
  dsimp only
  rw [if_pos hkind, hid]

theorem validateNode_split (dir : Dir) (cs : List LathChild) (path : List Nat)
    (parentDir : Option Dir) (seenIds : List JsString) :
    validateNode (Place.toPending ⟨.split dir cs, path, parentDir⟩) seenIds =
      validateSplit path parentDir dir (childrenToJson cs) seenIds := by
  have hkind := kind_split dir cs
  have hdir := readDir_split dir cs
  have hchildren := children_split dir cs
  have hne : some (js "split") ≠ some (js "leaf") := by decide +kernel
  unfold validateNode Place.toPending
  rw [LathNode.toJson] at hkind hdir hchildren ⊢
  dsimp only
  rw [hkind, if_neg hne, if_pos rfl, hdir, hchildren]

/-- The work list finds nothing wrong exactly when nothing is: by induction on the checks
still to be made, a leaf joining the leaves seen and a split leaving its children. -/
theorem validateFrom_toJson (pending : List PendingNode) (seenIds : List JsString) :
    ∀ (ps : List Place) (seen : List LeafId), pending = ps.map Place.toPending →
      seenIds = seen.map js → (validateFrom pending seenIds = [] ↔ Acceptable ps seen) := by
  induction pending, seenIds using validateFrom.induct with
  | case1 seenIds =>
    intro ps seen hps _
    obtain rfl := List.map_eq_nil_iff.1 hps.symm
    rw [validateFrom]
    refine ⟨fun _ => ⟨?_, ?_, Multiset.nodup_zero, ?_⟩, fun _ => rfl⟩
    · exact List.forall_mem_nil _
    · exact List.forall_mem_nil _
    · exact fun id hid => absurd hid (Multiset.notMem_zero id)
  | case2 seenIds p pending ih =>
    intro ps seen hps hseen
    obtain ⟨place, ps', rfl, rfl, rfl⟩ := List.map_eq_cons_iff.1 hps.symm
    rw [validateFrom, List.append_eq_nil_iff]
    obtain ⟨node, path, parentDir⟩ := place
    cases node with
    | leaf id =>
      rw [validateNode_leaf] at ih ⊢
      have hmem : js id ∈ seenIds ↔ id ∈ seen := by
        rw [hseen, List.mem_map]
        exact ⟨fun h => by
          obtain ⟨id', hid', heq⟩ := h
          exact js_injective heq ▸ hid', fun h => ⟨id, h, rfl⟩⟩
      rw [acceptable_leaf, ih ps' (id :: seen) rfl (by rw [hseen]; rfl)]
      rw [ite_eq_right_iff, hmem]
      exact and_congr_left' ⟨fun h hid => absurd (h hid) (List.cons_ne_nil _ _),
        fun h hid => absurd hid h⟩
    | split dir cs =>
      have hpushed : (validateSplit path parentDir dir (childrenToJson cs) seenIds).pushed =
          (childPlaces path dir 0 cs).map Place.toPending :=
        (validateChildren_toJson path dir cs 0).1
      rw [validateNode_split] at ih ⊢
      rw [validateSplit_errors, acceptable_split]
      rw [ih ((childPlaces path dir 0 cs).reverse ++ ps') seen
        (by rw [hpushed, List.map_append, List.map_reverse]) hseen]

/-- **The check of a tree accepts exactly the valid trees.** -/
theorem validate_toJson (tree : LathTree) :
    validate tree.toJson = [] ↔ tree.Valid validateTol := by
  cases hroot : tree.root with
  | none =>
    have hjson : tree.toJson = .object [(js "root", .null)] := by
      rw [LathTree.toJson, hroot]
      rfl
    refine ⟨fun _ => ⟨?_, ?_⟩, fun _ => ?_⟩
    · rw [hroot]
      exact fun root h => by cases h
    · rw [leaves, hroot]
      exact List.nodup_nil
    · rw [hjson]
      rfl
  | some root =>
    have hjson : tree.toJson = .object [(js "root", root.toJson)] := by
      rw [LathTree.toJson, hroot]
      rfl
    have hvalidate : validate tree.toJson = validateFrom [Place.toPending ⟨root, [], none⟩] [] := by
      rw [hjson]
      cases root with
      | leaf id => rfl
      | split dir cs => rfl
    have hbag : placesBag [⟨root, [], none⟩] = root.leafBag := by
      unfold placesBag
      rw [List.map_singleton, List.sum_singleton]
    rw [hvalidate]
    refine (validateFrom_toJson _ _ [⟨root, [], none⟩] [] rfl rfl).trans ?_
    constructor
    · intro h
      refine ⟨?_, ?_⟩
      · rw [hroot]
        intro root' heq
        cases heq
        exact h.canonical _ List.mem_cons_self
      · have hnodup := h.nodup
        rw [hbag] at hnodup
        rw [leaves, hroot]
        exact Multiset.coe_nodup.1 hnodup
    · intro h
      have hnodup := h.nodup
      rw [leaves, hroot] at hnodup
      refine ⟨?_, ?_, ?_, fun _ _ => List.not_mem_nil⟩
      · intro p hp
        rw [List.mem_singleton.1 hp]
        exact h.canonical root hroot
      · intro p hp dir hdir
        rw [List.mem_singleton.1 hp] at hdir
        cases hdir
      · rw [hbag]
        exact Multiset.coe_nodup.2 hnodup

/-! ### The check of a layout -/

/-- The leaf ids read back are those written, in order. -/
theorem leavesFrom_toJson (nodes : List Json) :
    ∀ ns : List LathNode, nodes = ns.map LathNode.toJson →
      leavesFrom nodes = (ns.flatMap LathNode.leaves).map js := by
  induction nodes using leavesFrom.induct with
  | case1 =>
    intro ns hns
    obtain rfl := List.map_eq_nil_iff.1 hns.symm
    rw [leavesFrom]
    rfl
  | case2 node nodes hkind ih =>
    intro ns hns
    obtain ⟨n, ns', rfl, rfl, rfl⟩ := List.map_eq_cons_iff.1 hns.symm
    cases n with
    | leaf id =>
      rw [leavesFrom, if_pos hkind, id_leaf, ih ns' rfl, List.flatMap_cons, leaves_leaf,
        List.map_append]
      rfl
    | split dir cs =>
      rw [kind_split] at hkind
      exact absurd hkind (by decide +kernel)
  | case3 node nodes hkind children hchildren ih =>
    intro ns hns
    obtain ⟨n, ns', rfl, rfl, rfl⟩ := List.map_eq_cons_iff.1 hns.symm
    cases n with
    | leaf id => exact absurd (kind_leaf id) hkind
    | split dir cs =>
      rw [children_split] at hchildren
      obtain rfl : childrenToJson cs = children := by
        injection Option.some.inj hchildren
      have hnodes : (childrenToJson cs).filterMap (·.field (js "node")) =
          (cs.map (·.node)).map LathNode.toJson := by
        rw [childrenToJson_eq, List.filterMap_map, List.map_map]
        exact List.filterMap_eq_map (f := fun c : LathChild => c.node.toJson) ▸ rfl
      rw [leavesFrom, if_neg hkind]
      have hfield := children_split dir cs
      split
      · next children' hchildren' =>
          rw [hfield] at hchildren'
          obtain rfl : childrenToJson cs = children' := by
            injection Option.some.inj hchildren'
          rw [ih (cs.map (·.node) ++ ns') (by rw [hnodes, List.map_append]), List.flatMap_append,
            List.flatMap_cons, leaves_split, List.flatMap_map]
      · next hnone => exact absurd hfield (hnone _)
  | case4 node nodes hkind hnone ih =>
    intro ns hns
    obtain ⟨n, ns', rfl, rfl, rfl⟩ := List.map_eq_cons_iff.1 hns.symm
    cases n with
    | leaf id => exact absurd (kind_leaf id) hkind
    | split dir cs => exact absurd (children_split dir cs) (hnone _)

theorem leavesOfJson_toJson (tree : LathTree) : leavesOfJson tree.toJson = (leaves tree).map js := by
  have hroot : tree.toJson.field (js "root") =
      some ((tree.root.map LathNode.toJson).getD .null) := by
    simp [LathTree.toJson, Json.field]
  rw [leavesOfJson, hroot, leaves]
  cases tree.root with
  | none =>
    dsimp only [Option.map_none, Option.getD_none]
    rw [leavesFrom, leavesFrom]
    rfl
  | some root =>
    dsimp only [Option.map_some, Option.getD_some]
    rw [leavesFrom_toJson [root.toJson] [root] rfl, List.flatMap_singleton]

theorem isLeafMeta_toJson (m : LeafMeta) : isLeafMeta m.toJson = true := by
  obtain ⟨component, tabComponent, title, params⟩ := m
  cases params with
  | none => rfl
  | some params => rfl

theorem keys_assign {ν : Type} {record : InsertionMap LeafId ν} {id : LeafId} (value : ν)
    (hnew : id ∉ record.keys) :
    (assign record id value).keys = record.keys ++ [id].filter (· ≠ "__proto__") := by
  rw [assign]
  split
  · next hid =>
      subst hid
      simp
  next hid =>
    have hkeys : (record.set id value).keys = record.keys ++ [id] := by
      have hset := InsertionMap.keys_setEntry id value record.entries
      rwa [if_neg (show id ∉ record.entries.map Prod.fst from hnew)] at hset
    rw [hkeys, List.filter_singleton, decide_eq_true hid]
    rfl

/-- The entries of a layout: one for each leaf, the one name apart that takes none. -/
theorem keys_lathLayoutFromStore {tree : LathTree} {leafMeta : InsertionMap LeafId LeafMeta}
    (hnodup : (leaves tree).Nodup) (hmeta : ∀ id ∈ leaves tree, leafMeta.has id = true) :
    (lathLayoutFromStore tree leafMeta).leafMeta.keys =
      (leaves tree).filter (· ≠ "__proto__") := by
  have hfold : ∀ (f : InsertionMap LeafId LeafMeta → LeafId → InsertionMap LeafId LeafMeta),
      (∀ record id m, leafMeta.get id = some m → f record id = assign record id m) →
      ∀ (ids : List LeafId) (record : InsertionMap LeafId LeafMeta),
        (record.keys ++ ids).Nodup → (∀ id ∈ ids, leafMeta.has id = true) →
        (ids.foldl f record).keys = record.keys ++ ids.filter (· ≠ "__proto__") := by
    intro f hf ids
    induction ids with
    | nil => exact fun record _ _ => (List.append_nil _).symm
    | cons id ids ih =>
      intro record hnodup hmeta
      obtain ⟨m, hm⟩ := Option.isSome_iff_exists.1 (hmeta id List.mem_cons_self)
      have hnew : id ∉ record.keys := fun hmem =>
        List.disjoint_of_nodup_append hnodup hmem List.mem_cons_self
      have hkeys := keys_assign m hnew
      rw [List.foldl_cons, hf record id m hm]
      rw [ih (assign record id m) ?_ fun id' hid' => hmeta id' (List.mem_cons_of_mem _ hid'), hkeys,
        List.append_assoc, ← List.filter_append, List.singleton_append]
      rw [hkeys, List.append_assoc]
      refine hnodup.sublist ((List.Sublist.refl _).append ?_)
      rw [← List.singleton_append (x := id) (l := ids)]
      exact List.filter_sublist.append (List.Sublist.refl _)
  refine hfold _ (fun record id m hm => ?_) (leaves tree) .empty hnodup hmeta
  rw [hm]

/-- **The layout of a valid tree is accepted**, unless a leaf has the name that a plain object
cannot hold an entry of. -/
theorem isLathPersistedLayout_fromStore {tree : LathTree}
    {leafMeta : InsertionMap LeafId LeafMeta} (hvalid : tree.Valid validateTol)
    (hmeta : ∀ id ∈ leaves tree, leafMeta.has id = true) :
    isLathPersistedLayout (lathLayoutFromStore tree leafMeta).toJson = true ↔
      "__proto__" ∉ leaves tree := by
  have hkeys := keys_lathLayoutFromStore hvalid.nodup hmeta
  have hlayout : lathLayoutFromStore tree leafMeta =
      ⟨1, tree, (lathLayoutFromStore tree leafMeta).leafMeta⟩ := rfl
  rw [hlayout]
  generalize (lathLayoutFromStore tree leafMeta).leafMeta = record at hkeys ⊢
  have hversion : (LathPersistedLayout.toJson ⟨1, tree, record⟩).field (js "version") =
      some (.number 1) := by
    simp [LathPersistedLayout.toJson, Json.field]
  have htree : (LathPersistedLayout.toJson ⟨1, tree, record⟩).field (js "tree") =
      some tree.toJson := by
    have hne : (js "version" == js "tree") = false := by decide +kernel
    simp [LathPersistedLayout.toJson, Json.field, List.find?, hne]
  have hentries : (LathPersistedLayout.toJson ⟨1, tree, record⟩).field (js "leafMeta") =
      some (.object (record.entries.map fun e => (js e.1, e.2.toJson))) := by
    have hne : (js "version" == js "leafMeta") = false := by decide +kernel
    have hne' : (js "tree" == js "leafMeta") = false := by decide +kernel
    simp [LathPersistedLayout.toJson, Json.field, List.find?, hne, hne']
  have hids := leavesOfJson_toJson tree
  have hcard : ((leaves tree).map js).toFinset.card = (leaves tree).length := by
    rw [List.toFinset_card_of_nodup (hvalid.nodup.map js_injective), List.length_map]
  have hlength : record.entries.length = ((leaves tree).filter (· ≠ "__proto__")).length := by
    rw [← hkeys, InsertionMap.keys, List.length_map]
  have hall : ((record.entries.map fun e => (js e.1, e.2.toJson)).all fun e =>
      decide (e.1 ∈ (leaves tree).map js) && isLeafMeta e.2) = true := by
    rw [List.all_map, List.all_eq_true]
    intro e he
    have hkey : e.1 ∈ leaves tree := by
      have hmem : e.1 ∈ record.keys := List.mem_map_of_mem he
      rw [hkeys] at hmem
      exact (List.mem_filter.1 hmem).1
    rw [Function.comp, isLeafMeta_toJson, Bool.and_true]
    exact decide_eq_true (List.mem_map_of_mem hkey)
  rw [isLathPersistedLayout, hversion, htree, hentries]
  dsimp only
  rw [if_pos ⟨rfl, (validate_toJson tree).2 hvalid⟩, hids, hcard, hall, Bool.and_true, decide_eq_true_iff, List.length_map, hlength,
    List.length_filter_eq_length_iff]
  constructor
  · intro h hmem
    exact of_decide_eq_true (h _ hmem) rfl
  · intro h id hid
    exact decide_eq_true fun heq => h (heq ▸ hid)

end Dormouse.Lath
