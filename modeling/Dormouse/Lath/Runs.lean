import Dormouse.Lath.OpsValid
import Dormouse.Lib.Transition

/-!
# Dormouse.Lath.Runs

**Runs of the tree operations.** A run starts from a single pane and applies any
operation to any arguments; the one thing it may not invent is a restore token,
which comes from an earlier `remove`.
-/

namespace Dormouse.Lath

/-- One call of the tree interface with its arguments. -/
inductive Op
  | split (at_ : LeafId) (edge : Edge) (newId : LeafId)
  | remove (id : LeafId)
  | restore (token : RestoreToken) (opts : RestoreOpts)
  | replace (oldId newId : LeafId)
  | swap (a b : LeafId)
  | move (id : LeafId) (target : DropTarget)
  | insert (id : LeafId) (target : DropTarget) (weight : ℚ)
  | resize (splitPath : List Nat) (boundary : ℤ) (deltaPx : ℚ) (rect : Rect) (opts : LayoutOpts)

namespace Op

/-- The call itself. -/
def apply (tree : LathTree) : Op → OpResult
  | .split at_ edge newId => Lath.split tree at_ edge newId
  | .remove id => ⟨(Lath.remove tree id).tree, (Lath.remove tree id).ok⟩
  | .restore token opts => ⟨(Lath.restore tree token opts).tree, (Lath.restore tree token opts).ok⟩
  | .replace oldId newId => Lath.replace tree oldId newId
  | .swap a b => Lath.swap tree a b
  | .move id target => Lath.move tree id target
  | .insert id target weight => Lath.insert tree id target weight
  | .resize splitPath boundary deltaPx rect opts =>
    Lath.resize tree splitPath boundary deltaPx rect opts

/-- The token a call leaves behind. -/
def token? (tree : LathTree) : Op → Option RestoreToken
  | .remove id => (Lath.remove tree id).token
  | _ => none

/-- How a successful call changes the set of leaf ids. -/
def Changes (before after : Finset LeafId) : Op → Prop
  | .split _ _ newId => newId ∉ before ∧ after = Insert.insert newId before
  | .remove id => id ∈ before ∧ after = before.erase id
  | .restore token _ => token.leafId ∉ before ∧ after = Insert.insert token.leafId before
  | .replace oldId newId =>
    oldId ∈ before ∧ newId ∉ before ∧ after = Insert.insert newId (before.erase oldId)
  | .insert id _ _ => id ∉ before ∧ after = Insert.insert id before
  | .swap _ _ | .move _ _ | .resize _ _ _ _ _ => after = before

end Op

/-- A tree together with the tokens handed out so far. -/
structure RunState where
  tree : LathTree
  tokens : List RestoreToken

/-- A restore uses one of the run's own tokens. -/
def Op.Admissible (s : RunState) : Op → Prop
  | .restore token _ => token ∈ s.tokens
  | _ => True

def RunState.next (s : RunState) (op : Op) : RunState :=
  ⟨(op.apply s.tree).tree, (op.token? s.tree).toList ++ s.tokens⟩

/-- Every run of operations from the tree of the single leaf `id`. -/
def runs (id : LeafId) : System RunState Op where
  init s := s = ⟨leafTree id, []⟩
  step s op t := op.Admissible s ∧ t = s.next op

/-! ### Leaf sets -/

/-- Set of the leaf ids of a tree. -/
def LathTree.leafSet (tree : LathTree) : Finset LeafId := (leaves tree).toFinset

theorem LathTree.leafSet_eq (tree : LathTree) : tree.leafSet = tree.leafBag.toFinset :=
  rfl

theorem mem_leafSet {tree : LathTree} {id : LeafId} : id ∈ tree.leafSet ↔ id ∈ leaves tree :=
  List.mem_toFinset

theorem leafSet_cons {tree t : LathTree} {id : LeafId} (h : t.leafBag = id ::ₘ tree.leafBag) :
    t.leafSet = Insert.insert id tree.leafSet := by
  rw [t.leafSet_eq, tree.leafSet_eq, h, Multiset.toFinset_cons]

theorem leafSet_congr {tree t : LathTree} (h : t.leafBag = tree.leafBag) :
    t.leafSet = tree.leafSet := by
  rw [t.leafSet_eq, tree.leafSet_eq, h]

theorem not_mem_leafSet_of_cons {tree t : LathTree} {id : LeafId} (hv : tree.Valid 0)
    (h : tree.leafBag = id ::ₘ t.leafBag) : id ∉ t.leafSet := by
  have hnodup := hv.nodup_bag
  rw [h] at hnodup
  rw [t.leafSet_eq, Multiset.mem_toFinset]
  exact (Multiset.nodup_cons.1 hnodup).1

/-- Taking one leaf out of a valid tree erases it from the leaf set. -/
theorem leafSet_erase {tree t : LathTree} {id : LeafId} (hv : tree.Valid 0)
    (h : tree.leafBag = id ::ₘ t.leafBag) : t.leafSet = tree.leafSet.erase id := by
  rw [leafSet_cons h, Finset.erase_insert (not_mem_leafSet_of_cons hv h)]

/-! ### One step -/

namespace Op

/-- A failed call answers the input tree. -/
theorem apply_fail {tree : LathTree} {op : Op} (fail : (op.apply tree).ok = false) :
    (op.apply tree).tree = tree := by
  revert fail
  cases op with
  | split at_ edge newId =>
    simp only [apply, Lath.split]
    split
    · split <;> simp
    · simp
  | remove id => exact fun fail => (remove_fail fail).1
  | restore token opts =>
    simp only [apply, Lath.restore]
    split
    · simp
    split
    · simp
    · split
      · simp
      · split
        · simp
        · split <;> simp
  | replace oldId newId =>
    simp only [apply, Lath.replace]
    split
    · split <;> simp
    · simp
  | swap a b =>
    simp only [apply]
    exact swap_fail
  | move id target =>
    simp only [apply, Lath.move]
    cases target with
    | swap leaf => exact swap_fail
    | edge path edge =>
      simp only
      split
      · split
        · simp
        · split
          · simp
          · split
            · rename_i hok
              simp [hok]
            · simp
      · simp
  | insert id target weight =>
    simp only [apply, Lath.insert]
    cases target with
    | swap leaf => simp
    | edge path edge =>
      simp only
      split
      · simp
      · split
        · simp
        · split <;> simp
  | resize splitPath boundary deltaPx rect opts =>
    simp only [apply, Lath.resize]
    split
    · split
      · simp
      · split
        · simp
        · split
          · simp
          · split <;> simp
    · simp
where
  swap_fail {tree : LathTree} {a b : LeafId} :
      (Lath.swap tree a b).ok = false → (Lath.swap tree a b).tree = tree := by
    unfold Lath.swap
    split
    · simp
    · split <;> simp

/-- A successful call on a valid tree answers a valid tree whose leaf set changed
as the operation says. -/
theorem apply_ok {tree : LathTree} {op : Op} (hv : tree.Valid 0)
    (hsound : ∀ token opts, op = .restore token opts → token.Sound)
    (ok : (op.apply tree).ok = true) :
    (op.apply tree).tree.Valid 0 ∧ op.Changes tree.leafSet (op.apply tree).tree.leafSet := by
  cases op with
  | split at_ edge newId =>
    obtain ⟨hfresh, hvalid, hbag⟩ := split_spec hv ok
    exact ⟨hvalid, mt mem_leafSet.1 hfresh, leafSet_cons hbag⟩
  | remove id =>
    obtain ⟨hmem, hvalid, hbag, -⟩ := remove_spec hv ok
    exact ⟨hvalid, mem_leafSet.2 hmem, leafSet_erase hv hbag⟩
  | restore token opts =>
    obtain ⟨hfresh, hvalid, hbag⟩ := restore_spec hv ((hsound token opts rfl).restorable tree) ok
    exact ⟨hvalid, mt mem_leafSet.1 hfresh, leafSet_cons hbag⟩
  | replace oldId newId =>
    obtain ⟨hmem, hfresh, hvalid, hbag⟩ := replace_spec hv ok
    refine ⟨hvalid, mem_leafSet.2 hmem, mt mem_leafSet.1 hfresh, ?_⟩
    have hne : oldId ≠ newId := fun h => hfresh (h ▸ hmem)
    have hold : oldId ∉ (apply tree (.replace oldId newId)).tree.leafSet := by
      have hnodup := nodup_cons_bag hv hfresh
      rw [← hbag] at hnodup
      rw [LathTree.leafSet_eq, Multiset.mem_toFinset]
      exact (Multiset.nodup_cons.1 hnodup).1
    have hsets := congrArg Multiset.toFinset hbag
    rw [Multiset.toFinset_cons, Multiset.toFinset_cons, ← LathTree.leafSet_eq,
      ← LathTree.leafSet_eq] at hsets
    rw [← Finset.erase_insert_of_ne hne.symm, ← hsets]
    exact (Finset.erase_insert hold).symm
  | swap a b =>
    obtain ⟨hvalid, hbag⟩ := swap_spec hv ok
    exact ⟨hvalid, leafSet_congr hbag⟩
  | move id target =>
    obtain ⟨hvalid, hbag⟩ := move_spec le_rfl hv ok
    exact ⟨hvalid, leafSet_congr hbag⟩
  | insert id target weight =>
    obtain ⟨hfresh, hvalid, hbag⟩ := insert_spec hv ok
    exact ⟨hvalid, mt mem_leafSet.1 hfresh, leafSet_cons hbag⟩
  | resize splitPath boundary deltaPx rect opts =>
    obtain ⟨hvalid, hbag⟩ := resize_spec hv ok
    exact ⟨hvalid, leafSet_congr hbag⟩

end Op

/-! ### Whole runs -/

/-- What holds along a run: the tree is valid and every token handed out is sound. -/
structure RunState.Inv (s : RunState) : Prop where
  valid : s.tree.Valid 0
  sound : ∀ token ∈ s.tokens, token.Sound

theorem RunState.Inv.admissible {s : RunState} (h : s.Inv) {op : Op} (hadm : op.Admissible s)
    (token : RestoreToken) (opts : RestoreOpts) (hop : op = .restore token opts) :
    token.Sound := by
  subst hop
  exact h.sound token hadm

theorem RunState.Inv.next {s : RunState} (h : s.Inv) {op : Op} (hadm : op.Admissible s) :
    (s.next op).Inv := by
  refine ⟨?_, ?_⟩
  · cases hok : (op.apply s.tree).ok with
    | true => exact (Op.apply_ok h.valid (h.admissible hadm) hok).1
    | false =>
      rw [RunState.next, Op.apply_fail hok]
      exact h.valid
  · intro token htoken
    rcases List.mem_append.1 htoken with hnew | hold
    · cases op with
      | remove id =>
        cases hok : (remove s.tree id).ok with
        | true => exact ((remove_spec h.valid hok).2.2.2 token (Option.mem_toList.1 hnew)).2 rfl
        | false =>
          rw [Op.token?, (remove_fail hok).2] at hnew
          exact absurd hnew (by simp)
      | _ => exact absurd hnew (by simp [Op.token?])
    · exact h.sound token hold

theorem valid_leafTree (id : LeafId) : (leafTree id).Valid 0 := by
  refine ⟨?_, by simp [leaves, leafTree]⟩
  rintro n ⟨⟩
  exact .leaf id

/-- The invariant of runs holds in every state a run reaches. -/
theorem runs_inductive (id : LeafId) : (runs id).Inductive RunState.Inv where
  init := by
    rintro s rfl
    exact ⟨valid_leafTree id, by simp⟩
  step := by
    rintro s t op h ⟨hadm, rfl⟩
    exact h.next hadm

/-- In every state a run reaches the tree is valid, and every further operation
keeps it valid, changes the leaf set as it says and answers the input tree when it
fails. -/
theorem run_keeps_tree_valid (id : LeafId) (s : RunState) (h : (runs id).Reachable s) (op : Op)
    (hadm : op.Admissible s) :
    s.tree.Valid 0 ∧ (op.apply s.tree).tree.Valid 0 ∧
      ((op.apply s.tree).ok = true →
        op.Changes s.tree.leafSet (op.apply s.tree).tree.leafSet) ∧
      ((op.apply s.tree).ok = false → (op.apply s.tree).tree = s.tree) := by
  have hinv := (runs_inductive id).reachable h
  refine ⟨hinv.valid, (hinv.next hadm).valid, fun hok => ?_, Op.apply_fail⟩
  exact (Op.apply_ok hinv.valid (hinv.admissible hadm) hok).2

/-- Removing one of the two leaves of a split pane. -/
theorem run_keeps_tree_valid_remove :
    let s := (⟨leafTree "a", []⟩ : RunState).next (.split "a" .right "b")
    let after := (Op.remove "a").apply s.tree
    after.ok = true ∧ s.tree.Valid 0 ∧ after.tree.Valid 0 ∧
      (after.ok = true → (Op.remove "a").Changes s.tree.leafSet after.tree.leafSet) ∧
      (after.ok = false → after.tree = s.tree) := by
  intro s after
  have hreach : (runs "a").Reachable s :=
    .next (a := Op.split "a" .right "b") (.start rfl) ⟨trivial, rfl⟩
  exact ⟨by decide +kernel, run_keeps_tree_valid "a" s hreach (.remove "a") trivial⟩

end Dormouse.Lath
