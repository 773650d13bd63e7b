import Mathlib.Data.List.Perm.Basic
import Dormouse.Lath.PersistenceSound

/-!
# Dormouse.Lath.ValidateSound

**What passes `validate` is a tree**, whatever value it comes as, and every tree passes. Left out
is a weight without a text (an object with a `toString` of its own): its message cannot be written.
-/

namespace Dormouse.Lath

mutual
/-- A node that may stand below a split of direction `parentDir`, and the ids of its leaves. -/
inductive ValidNode : Option Dir → Json → List JsString → Prop
  | leaf {parentDir : Option Dir} {node : Json} {id : JsString}
      (kind : node.stringField (js "kind") = some (js "leaf"))
      (id_eq : node.stringField (js "id") = some id) : ValidNode parentDir node [id]
  | split {parentDir : Option Dir} {node : Json} {dir : Dir} {children : List Json} {sum : ℚ}
      {ids : List (List JsString)} (kind : node.stringField (js "kind") = some (js "split"))
      (dir_eq : readDir node = some dir) (alternates : parentDir ≠ some dir)
      (children_eq : node.field (js "children") = some (.array children))
      (two : 2 ≤ children.length) (each : ValidChildren dir children sum ids)
      (whole : |sum - 1| ≤ validateTol) : ValidNode parentDir node ids.flatten
/-- Children with positive weights of this sum. -/
inductive ValidChildren : Dir → List Json → ℚ → List (List JsString) → Prop
  | nil {dir : Dir} : ValidChildren dir [] 0 []
  | cons {dir : Dir} {child node : Json} {children : List Json} {weight rest sum : ℚ}
      {ids : List JsString} {others : List (List JsString)} (record : child.isRecord = true)
      (weight_eq : readWeight child = some weight) (node_eq : child.field (js "node") = some node)
      (valid : ValidNode (some dir) node ids) (each : ValidChildren dir children rest others)
      (sum_eq : sum = weight + rest) : ValidChildren dir (child :: children) sum (ids :: others)
end

/-- A value with a valid tree below its root, or none. -/
def ValidTree (tree : Json) : Prop :=
  tree.field (js "root") = some .null ∨ ∃ root ids,
    tree.field (js "root") = some root ∧ ValidNode none root ids ∧ ids.Nodup

def PendingNode.Valid (p : PendingNode) (ids : List JsString) : Prop :=
  ∃ node, p.node = some node ∧ ValidNode p.parentDir node ids

/-- The children of a split are reported unless they are valid, given that their nodes are. -/
theorem validateChildren_valid (path : List Nat) (dir : Dir) (children : List Json) :
    ∀ i sum ids, (validateChildren path dir i children).1 = [] ∧
      (validateChildren path dir i children).2.1 = sum ∧
      List.Forall₂ PendingNode.Valid (validateChildren path dir i children).2.2 ids ↔
      ValidChildren dir children sum ids := by
  induction children with
  | nil =>
    intro i sum ids
    refine ⟨fun h => ?_, fun h => ?_⟩
    · obtain ⟨-, hsum, h⟩ := h
      cases h
      exact hsum ▸ .nil
    · cases h
      exact ⟨rfl, rfl, .nil⟩
  | cons child children ih =>
    intro i sum ids
    rw [validateChildren]
    dsimp only
    split
    case isFalse hrecord =>
      refine ⟨fun h => (List.cons_ne_nil _ _ h.1).elim, fun h => ?_⟩
      cases h
      contradiction
    case isTrue hrecord =>
      split
      · next w hw =>
        refine ⟨fun h => ?_, fun h => ?_⟩
        · obtain ⟨herrors, hsum, h⟩ := h
          obtain ⟨ids, others, ⟨node, hnode, hvalid⟩, hrest, rfl⟩ := List.forall₂_cons_left_iff.1 h
          exact .cons hrecord hw hnode hvalid ((ih _ _ _).1 ⟨herrors, rfl, hrest⟩) hsum.symm
        · cases h with
          | cons _ hw' hnode hvalid hrest hsum =>
            obtain rfl := Option.some.inj (hw.symm.trans hw')
            obtain ⟨herrors, rfl, hothers⟩ := (ih (i + 1) _ _).2 hrest
            exact ⟨herrors, hsum.symm, .cons ⟨_, hnode, hvalid⟩ hothers⟩
      · next hw =>
        refine ⟨fun h => (List.cons_ne_nil _ _ h.1).elim, fun h => ?_⟩
        cases h with
        | cons _ hw' => cases hw.symm.trans hw'

/-- A node is a leaf with a text for its id, or it passes exactly when what it pushes does. -/
theorem validateNode_cases (p : PendingNode) (seenIds : List JsString) :
    (∃ id, (∀ ids, p.Valid ids ↔ ids = [id]) ∧ (validateNode p seenIds).pushed = [] ∧
      (validateNode p seenIds).seenIds = id :: seenIds ∧
        ((validateNode p seenIds).errors = [] ↔ id ∉ seenIds)) ∨
    (validateNode p seenIds).seenIds = seenIds ∧ ∀ ids, p.Valid ids ↔
      (validateNode p seenIds).errors = [] ∧ ∃ each,
        List.Forall₂ PendingNode.Valid (validateNode p seenIds).pushed each ∧ ids = each.flatten := by
  have hbad : ∀ {error : ValidateError}, (∀ ids, ¬ p.Valid ids) →
      ∀ ids, p.Valid ids ↔ [error] = [] ∧ ∃ each,
        List.Forall₂ PendingNode.Valid [] each ∧ ids = each.flatten :=
    fun hnot ids => ⟨fun h => (hnot ids h).elim, fun h => (List.cons_ne_nil _ _ h.1).elim⟩
  unfold validateNode
  split
  case h_2 hnode =>
    refine .inr ⟨rfl, hbad fun ids ⟨node, heq, hvalid⟩ => ?_⟩
    have hkind : ∃ kind, node.stringField (js "kind") = some kind := by
      cases hvalid with
      | leaf kind => exact ⟨_, kind⟩
      | split kind => exact ⟨_, kind⟩
    obtain ⟨kind, hkind⟩ := hkind
    cases node with
    | object fields => exact hnode fields heq
    | _ => cases hkind
  case h_1 fields hnode =>
    dsimp only
    have hsame : ∀ {ids}, p.Valid ids ↔ ValidNode p.parentDir (.object fields) ids := by
      intro ids
      rw [PendingNode.Valid, hnode]
      exact ⟨fun ⟨node, heq, h⟩ => Option.some.inj heq ▸ h, fun h => ⟨_, rfl, h⟩⟩
    have hkinds : js "leaf" ≠ js "split" := by decide
    split
    case isTrue hleaf =>
      split
      · next hid =>
        refine .inr ⟨rfl, hbad fun ids h => ?_⟩
        cases hsame.1 h with
        | leaf _ hid' => cases hid.symm.trans hid'
        | split hkind => exact hkinds (Option.some.inj (hleaf.symm.trans hkind))
      · next id hid =>
        refine .inl ⟨id, fun ids => hsame.trans ⟨fun h => ?_, ?_⟩, rfl, rfl, ?_⟩
        · cases h with
          | leaf _ hid' => rw [Option.some.inj (hid.symm.trans hid')]
          | split hkind => exact (hkinds (Option.some.inj (hleaf.symm.trans hkind))).elim
        · rintro rfl
          exact .leaf hleaf hid
        · dsimp only
          split <;> simp_all
    case isFalse hleaf =>
      split
      case isTrue hsplit =>
        split
        · next dir children hdir hchildren =>
          refine .inr ⟨rfl, fun ids => hsame.trans ?_⟩
          rw [validateSplit_eq_nil]
          constructor
          · intro h
            cases h with
            | leaf hkind => contradiction
            | split _ hdir' halternates hchildren' htwo heach hwhole =>
              obtain rfl := Option.some.inj (hdir.symm.trans hdir')
              cases hchildren.symm.trans hchildren'
              obtain ⟨herrors, rfl, hpushed⟩ := (validateChildren_valid p.path _ _ 0 _ _).2 heach
              exact ⟨⟨halternates, htwo, herrors, hwhole⟩, _, hpushed, rfl⟩
          · rintro ⟨⟨halternates, htwo, herrors, hwhole⟩, each, heach, rfl⟩
            exact .split hsplit hdir halternates hchildren htwo
              ((validateChildren_valid _ _ _ _ _ _).1 ⟨herrors, rfl, heach⟩) hwhole
        · next hnot =>
          refine .inr ⟨rfl, hbad fun ids h => ?_⟩
          cases hsame.1 h with
          | leaf hkind => contradiction
          | split _ hdir _ hchildren => exact hnot _ _ hdir hchildren
      case isFalse hsplit =>
        refine .inr ⟨rfl, hbad fun ids h => ?_⟩
        cases hsame.1 h <;> contradiction

theorem forall₂_append_left {R : PendingNode → List JsString → Prop} {l l' : List PendingNode} :
    ∀ {ids}, List.Forall₂ R (l ++ l') ids →
      ∃ first rest, List.Forall₂ R l first ∧ List.Forall₂ R l' rest ∧ ids = first ++ rest := by
  induction l with
  | nil => exact fun h => ⟨[], _, .nil, h, rfl⟩
  | cons p l ih =>
    intro ids h
    obtain ⟨here, others, hhere, hothers, rfl⟩ := List.forall₂_cons_left_iff.1 h
    obtain ⟨first, rest, hfirst, hrest, rfl⟩ := ih hothers
    exact ⟨here :: first, rest, .cons hhere hfirst, hrest, rfl⟩

theorem validateFrom_eq_nil (pending : List PendingNode) (seenIds : List JsString) :
    validateFrom pending seenIds = [] ↔ ∃ ids : List (List JsString),
      List.Forall₂ PendingNode.Valid pending ids ∧ ids.flatten.Nodup ∧
        ∀ id ∈ ids.flatten, id ∉ seenIds := by
  induction pending, seenIds using validateFrom.induct with
  | case1 seenIds =>
    rw [validateFrom]
    exact ⟨fun _ => ⟨[], .nil, List.nodup_nil, fun _ => by simp⟩, fun _ => rfl⟩
  | case2 seenIds p pending ih =>
    rw [validateFrom, List.append_eq_nil_iff, ih]
    rcases validateNode_cases p seenIds with ⟨id, hvalid, hpushed, hseen, herrors⟩ |
      ⟨hseen, hvalid⟩
    · rw [hpushed, hseen, herrors]
      constructor
      · rintro ⟨hid, rest, hrest, hnodup, hnew⟩
        refine ⟨[id] :: rest, .cons ((hvalid _).2 rfl) hrest, List.nodup_cons.2 ⟨fun h => ?_, hnodup⟩,
          List.forall_mem_cons.2 ⟨hid, fun id' h hseen => ?_⟩⟩
        · exact hnew id h List.mem_cons_self
        · exact hnew id' h (List.mem_cons_of_mem id hseen)
      · rintro ⟨ids, hids, hnodup, hnew⟩
        obtain ⟨first, rest, hfirst, hrest, rfl⟩ := List.forall₂_cons_left_iff.1 hids
        obtain rfl := (hvalid _).1 hfirst
        obtain ⟨hfresh, hnodup⟩ := List.nodup_cons.1 hnodup
        obtain ⟨hid, hnew⟩ := List.forall_mem_cons.1 hnew
        exact ⟨hid, rest, hrest, hnodup, fun id' h hseen => (List.mem_cons.1 hseen).elim
          (fun heq => hfresh (heq ▸ h)) (hnew id' h)⟩
    · have hperm : ∀ each rest : List (List JsString),
          (each.reverse ++ rest).flatten.Perm (each.flatten ++ rest.flatten) := by
        intro each rest
        rw [List.flatten_append]
        exact (List.reverse_perm each).flatten.append_right _
      rw [hseen]
      constructor
      · rintro ⟨herrors, ids, hids, hnodup, hnew⟩
        obtain ⟨each, rest, heach, hrest, rfl⟩ := forall₂_append_left hids
        rw [← List.reverse_reverse each] at hnodup hnew
        refine ⟨each.reverse.flatten :: rest, .cons ((hvalid _).2 ⟨herrors, _, ?_, rfl⟩) hrest,
          (hperm _ rest).nodup_iff.1 hnodup, fun id hid => hnew id ((hperm _ rest).mem_iff.2 hid)⟩
        rwa [← List.forall₂_reverse_iff, List.reverse_reverse]
      · rintro ⟨ids, hids, hnodup, hnew⟩
        obtain ⟨first, rest, hfirst, hrest, rfl⟩ := List.forall₂_cons_left_iff.1 hids
        obtain ⟨herrors, each, heach, rfl⟩ := (hvalid _).1 hfirst
        exact ⟨herrors, each.reverse ++ rest, List.rel_append (List.rel_reverse heach) hrest,
          (hperm each rest).nodup_iff.2 hnodup, fun id hid => hnew id ((hperm each rest).mem_iff.1 hid)⟩

end Dormouse.Lath
