import Dormouse.Lath.PersistenceSound
import Dormouse.Lath.OpsValid
import Dormouse.Lath.WallStore

/-!
# Dormouse.Lath.WallStoreCoherent

**The wall store stays coherent** in every run in which a restored leaf brings a weight that
is a proper share of its split: the tree is valid, everything it places has metadata, what is
parked is not placed, and the zoom is on a leaf. A commit moves the revision on, and a
rejected mutator commits nothing.
-/

namespace Dormouse.Lath

/-- What views of the wall rely on. -/
structure LathWallSnapshot.Coherent (s : LathWallSnapshot) : Prop where
  valid : s.tree.Valid validateTol
  placed : ∀ id ∈ leaves s.tree, s.leafMeta.has id = true
  apart : ∀ id, s.parked.has id = true → id ∉ leaves s.tree
  retained : ∀ id, s.parked.has id = true → s.leafMeta.has id = true
  capped : s.parked.size ≤ MAX_PARKED_SURFACES
  zoomed : ∀ id, s.zoomedId = some id → id ∈ leaves s.tree

namespace LathWallStore

/-! ### Commits -/

/-- A mutator committed at most once. -/
def Commits (s t : LathWallStore) : Prop :=
  t.snapshot = s.snapshot ∨ t.snapshot.revision = s.snapshot.revision + 1

theorem Commits.refl (s : LathWallStore) : Commits s s := .inl rfl

theorem commits_commit (s s' : LathWallStore) (next : LathWallSnapshot)
    (h : s'.snapshot = s.snapshot) : Commits s (s'.commit next) :=
  .inr (by rw [← h]; rfl)

@[simp] theorem snapshot_deriveEnterHint (s : LathWallStore) (id : LeafId) (edge : Edge) :
    (s.deriveEnterHint id edge).snapshot = s.snapshot := by
  rw [deriveEnterHint]
  split <;> rfl

/-- The ids admitted are not parked any more, and nothing else changes. -/
theorem admitLeaves_spec (ids : List LeafId) : ∀ (s : LathWallStore)
    (parked : InsertionMap LeafId (Option Rect)),
    (admitLeaves ids s parked).1.snapshot = s.snapshot ∧
      (∀ id, (admitLeaves ids s parked).2.has id = true → parked.has id = true ∧ id ∉ ids) ∧
      (admitLeaves ids s parked).2.size ≤ parked.size := by
  induction ids with
  | nil => exact fun s parked => ⟨rfl, fun id h => ⟨h, List.not_mem_nil⟩, Nat.le_refl _⟩
  | cons id ids ih =>
    intro s parked
    have hdelete : ∀ s' : LathWallStore, s'.snapshot = s.snapshot →
        (admitLeaves ids s' (parked.delete id)).1.snapshot = s.snapshot ∧
          (∀ id', (admitLeaves ids s' (parked.delete id)).2.has id' = true →
            parked.has id' = true ∧ id' ∉ id :: ids) ∧
          (admitLeaves ids s' (parked.delete id)).2.size ≤ parked.size := by
      intro s' hs'
      obtain ⟨hsnapshot, hhas, hsize⟩ := ih s' (parked.delete id)
      refine ⟨hsnapshot.trans hs', ?_, hsize.trans (parked.size_delete_le id)⟩
      intro id' h
      obtain ⟨hparked, hids⟩ := hhas id' h
      obtain ⟨hne, hold⟩ := InsertionMap.has_delete.1 hparked
      exact ⟨hold, fun hmem => (List.mem_cons.1 hmem).elim (fun h => hne h.symm) hids⟩
    rw [admitLeaves]
    split
    · next hnone =>
        obtain ⟨hsnapshot, hhas, hsize⟩ := ih s parked
        refine ⟨hsnapshot, ?_, hsize⟩
        intro id' h
        obtain ⟨hparked, hids⟩ := hhas id' h
        refine ⟨hparked, fun hmem => ?_⟩
        rcases List.mem_cons.1 hmem with rfl | hrest
        · rw [InsertionMap.has, hnone] at hparked
          cases hparked
        · exact hids hrest
    · exact hdelete _ rfl
    · exact hdelete _ rfl

theorem snapshot_admitLeaves (ids : List LeafId) (s : LathWallStore)
    (parked : InsertionMap LeafId (Option Rect)) : (admitLeaves ids s parked).1.snapshot = s.snapshot :=
  (admitLeaves_spec ids s parked).1

theorem place_eq (s : LathWallStore) (tree : LathTree) (id : LeafId) (m : LeafMeta) :
    (s.place tree id m).snapshot =
      { tree := tree
        leafMeta := s.snapshot.leafMeta.set id m
        parked := (admitLeaves [id] s s.snapshot.parked).2
        zoomedId := s.snapshot.zoomedId
        revision := s.snapshot.revision + 1 } := by
  rw [place]
  dsimp only
  rw [commit, snapshot_admitLeaves]

theorem commits_place (s s' : LathWallStore) (tree : LathTree) (id : LeafId) (m : LeafMeta)
    (h : s'.snapshot = s.snapshot) : Commits s (s'.place tree id m) :=
  .inr (by rw [place_eq, h])

/-! ### Parking -/

theorem evictOldest_has (keys : List LeafId) : ∀ (p : InsertionMap LeafId (Option Rect)) (id : LeafId),
    (evictOldest keys p).has id = true → p.has id = true := by
  induction keys with
  | nil => exact fun _ _ h => h
  | cons oldest keys ih =>
    intro p id h
    rw [evictOldest] at h
    split at h
    · exact h
    · exact (InsertionMap.has_delete.1 (ih _ id h)).2

/-- Dropping the oldest ends at the cap. -/
theorem evictOldest_size (keys : List LeafId) : ∀ p : InsertionMap LeafId (Option Rect),
    p.keys = keys → (evictOldest keys p).size ≤ MAX_PARKED_SURFACES := by
  induction keys with
  | nil =>
    intro p hp
    rw [evictOldest, InsertionMap.size_eq, hp]
    exact Nat.zero_le _
  | cons oldest keys ih =>
    intro p hp
    rw [evictOldest]
    split
    · next hsize => exact hsize
    refine ih _ ?_
    have hnodup := p.keys_nodup
    rw [hp, List.nodup_cons] at hnodup
    rw [InsertionMap.keys_delete, hp, List.filter_cons_of_neg (by simp), List.filter_eq_self]
    intro id hid
    exact decide_eq_true fun heq => hnodup.1 (heq ▸ hid)

theorem parkedWith_has {s : LathWallStore} {id : LeafId} {rect : Option Rect} {id' : LeafId}
    (h : (s.parkedWith id rect).has id' = true) : id = id' ∨ s.snapshot.parked.has id' = true :=
  InsertionMap.has_set.1 (evictOldest_has _ _ _ h)

/-! ### Coherence -/

theorem mem_leaves_of_bag {t : LathTree} {bag : Multiset LeafId} (h : t.leafBag = bag) (id : LeafId) :
    id ∈ leaves t ↔ id ∈ bag := by
  rw [← h]
  exact Multiset.mem_coe.symm

variable {s : LathWallStore}

/-- A leaf that enters the tree. -/
theorem coherent_place (h : s.snapshot.Coherent) {tree : LathTree} {id : LeafId} (m : LeafMeta)
    (hvalid : tree.Valid validateTol) (hbag : tree.leafBag = id ::ₘ s.snapshot.tree.leafBag) :
    (s.place tree id m).snapshot.Coherent := by
  have hleaves := fun id' => (mem_leaves_of_bag hbag id').trans Multiset.mem_cons
  obtain ⟨-, hhas, hsize⟩ := admitLeaves_spec [id] s s.snapshot.parked
  rw [place_eq]
  refine ⟨hvalid, ?_, ?_, ?_, hsize.trans h.capped, ?_⟩
  · intro id' hid'
    rcases (hleaves id').1 hid' with rfl | hold
    · exact InsertionMap.has_set.2 (.inl rfl)
    · exact InsertionMap.has_set.2 (.inr (h.placed id' (Multiset.mem_coe.1 hold)))
  · intro id' hparked hid'
    obtain ⟨hold, hne⟩ := hhas id' hparked
    rcases (hleaves id').1 hid' with rfl | hleaf
    · exact hne (List.mem_singleton.2 rfl)
    · exact h.apart id' hold (Multiset.mem_coe.1 hleaf)
  · intro id' hparked
    exact InsertionMap.has_set.2 (.inr (h.retained id' (hhas id' hparked).1))
  · intro id' hzoom
    exact (hleaves id').2 (.inr (Multiset.mem_coe.2 (h.zoomed id' hzoom)))

/-- The same leaves, placed differently. -/
theorem coherent_retree (h : s.snapshot.Coherent) {tree : LathTree}
    (hvalid : tree.Valid validateTol) (hbag : tree.leafBag = s.snapshot.tree.leafBag) :
    (s.commit { s.snapshot with tree := tree }).snapshot.Coherent := by
  have hleaves := fun id' => mem_leaves_of_bag hbag id'
  refine ⟨hvalid, ?_, ?_, h.retained, h.capped, ?_⟩
  · exact fun id hid => h.placed id (Multiset.mem_coe.1 ((hleaves id).1 hid))
  · exact fun id hparked hid => h.apart id hparked (Multiset.mem_coe.1 ((hleaves id).1 hid))
  · exact fun id hzoom => (hleaves id).2 (Multiset.mem_coe.2 (h.zoomed id hzoom))

/-- More metadata, or other metadata. -/
theorem coherent_set (h : s.snapshot.Coherent) (id : LeafId) (m : LeafMeta) :
    (s.commit { s.snapshot with leafMeta := s.snapshot.leafMeta.set id m }).snapshot.Coherent :=
  ⟨h.valid, fun id' hid' => InsertionMap.has_set.2 (.inr (h.placed id' hid')), h.apart,
    fun id' hparked => InsertionMap.has_set.2 (.inr (h.retained id' hparked)), h.capped, h.zoomed⟩

theorem coherent_detachLeaf (h : s.snapshot.Coherent) (id : LeafId) (keepMeta park : Bool)
    (hpark : park = true → keepMeta = true) :
    (s.detachLeaf id keepMeta park).1.snapshot.Coherent := by
  rw [detachLeaf]
  split
  · next hok =>
      obtain ⟨hmem, hvalid, hbag, -⟩ := remove_spec h.valid hok
      have hleaves := fun id' => (mem_leaves_of_bag hbag id').trans Multiset.mem_cons
      have hgone : id ∉ leaves (remove s.snapshot.tree id).tree := by
        have hnodup := h.valid.nodup_bag
        rw [hbag, Multiset.nodup_cons] at hnodup
        exact hnodup.1
      have hkeep : keepMeta = true → (if keepMeta = true then s.snapshot.leafMeta
          else s.snapshot.leafMeta.delete id) = s.snapshot.leafMeta := fun hkeep => if_pos hkeep
      have hmeta : ∀ id', id' ≠ id → s.snapshot.leafMeta.has id' = true →
          (if keepMeta = true then s.snapshot.leafMeta
            else s.snapshot.leafMeta.delete id).has id' = true := by
        intro id' hne hold
        split
        · exact hold
        · exact InsertionMap.has_delete.2 ⟨fun heq => hne heq.symm, hold⟩
      generalize (if keepMeta = true then s.snapshot.leafMeta
        else s.snapshot.leafMeta.delete id) = leafMeta at hkeep hmeta ⊢
      have hparked : ∀ id', (if park = true ∧ leafMeta.has id = true
          then s.parkedWith id (s.leafRect id) else s.snapshot.parked).has id' = true →
          (park = true ∧ id' = id) ∨ s.snapshot.parked.has id' = true := by
        intro id' hhas
        split at hhas
        · next hcond =>
            rcases parkedWith_has hhas with rfl | hold
            · exact .inl ⟨hcond.1, rfl⟩
            · exact .inr hold
        · exact .inr hhas
      refine ⟨hvalid.mono (by norm_num [validateTol]), ?_, ?_, ?_, ?_, ?_⟩
      · intro id' hid'
        exact hmeta id' (fun heq => hgone (heq ▸ hid'))
          (h.placed id' ((hleaves id').2 (.inr (Multiset.mem_coe.2 hid'))))
      · intro id' hhas hid'
        rcases hparked id' hhas with ⟨-, rfl⟩ | hold
        · exact hgone hid'
        · exact h.apart id' hold ((hleaves id').2 (.inr (Multiset.mem_coe.2 hid')))
      · intro id' hhas
        rcases hparked id' hhas with ⟨hp, rfl⟩ | hold
        · show leafMeta.has id' = true
          rw [hkeep (hpark hp)]
          exact h.placed id' hmem
        · exact hmeta id' (fun heq => h.apart id' hold (heq ▸ hmem)) (h.retained id' hold)
      · show (if park = true ∧ leafMeta.has id = true
          then s.parkedWith id (s.leafRect id) else s.snapshot.parked).size ≤ _
        split
        · exact evictOldest_size _ _ rfl
        · exact h.capped
      · intro id' hzoom
        have hzoom' : (if s.snapshot.zoomedId = some id then none else s.snapshot.zoomedId) =
            some id' := hzoom
        split at hzoom'
        · cases hzoom'
        · next hne =>
            rcases (hleaves id').1 (h.zoomed id' hzoom') with rfl | hold
            · exact absurd hzoom' hne
            · exact Multiset.mem_coe.1 hold
  · exact h

theorem has_foldl_set {ν : Type} (es : List (LeafId × ν)) (id : LeafId) :
    ∀ record : InsertionMap LeafId ν,
      (es.foldl (fun record e => record.set e.1 e.2) record).has id = true ↔
        record.has id = true ∨ id ∈ es.map Prod.fst := by
  induction es with
  | nil => exact fun record => by simp
  | cons e es ih =>
    intro record
    rw [List.foldl_cons, ih, InsertionMap.has_set, List.map_cons, List.mem_cons, eq_comm, or_comm,
      ← or_assoc, or_comm]
    tauto

theorem has_foldl_kept (leafMeta : InsertionMap LeafId LeafMeta) (ids : List LeafId) (id : LeafId) :
    ∀ record : InsertionMap LeafId LeafMeta,
      record.has id = true ∨ (id ∈ ids ∧ leafMeta.has id = true) →
        (ids.foldl (fun next id =>
          match leafMeta.get id with
          | some held => next.set id held
          | none => next) record).has id = true := by
  induction ids with
  | nil =>
    intro record h
    rcases h with h | ⟨h, -⟩
    · exact h
    · cases h
  | cons id' ids ih =>
    intro record h
    rw [List.foldl_cons]
    refine ih _ ?_
    cases hget : leafMeta.get id' with
    | none =>
      rcases h with h | ⟨hmem, hhas⟩
      · exact .inl h
      · rcases List.mem_cons.1 hmem with rfl | hrest
        · rw [InsertionMap.has, hget] at hhas
          cases hhas
        · exact .inr ⟨hrest, hhas⟩
    | some held =>
      rcases h with h | ⟨hmem, hhas⟩
      · exact .inl (InsertionMap.has_set.2 (.inr h))
      · rcases List.mem_cons.1 hmem with rfl | hrest
        · exact .inl (InsertionMap.has_set.2 (.inl rfl))
        · exact .inr ⟨hrest, hhas⟩

theorem coherent_seed (h : s.snapshot.Coherent) {tree : LathTree}
    {leafMeta : List (LeafId × LeafMeta)} (hvalid : tree.Valid validateTol)
    (hmeta : ∀ id ∈ leaves tree, id ∈ leafMeta.map Prod.fst) :
    (s.seed tree leafMeta).snapshot.Coherent := by
  obtain ⟨-, hhas, hsize⟩ := admitLeaves_spec (leaves tree) s s.snapshot.parked
  refine ⟨hvalid, ?_, ?_, ?_, hsize.trans h.capped, ?_⟩
  · exact fun id hid => (has_foldl_set leafMeta id _).2 (.inr (hmeta id hid))
  · exact fun id hparked => (hhas id hparked).2
  · intro id hparked
    have hold := (hhas id hparked).1
    exact (has_foldl_set leafMeta id _).2 (.inl (has_foldl_kept s.snapshot.leafMeta
      s.snapshot.parked.keys id _ (.inr ⟨InsertionMap.has_iff.1 hold, h.retained id hold⟩)))
  · intro id hzoom
    cases hzoom

theorem coherent_forgetLeaf (h : s.snapshot.Coherent) (id : LeafId) :
    (s.forgetLeaf id).snapshot.Coherent := by
  rw [forgetLeaf]
  split
  · exact h
  next hgone =>
    split
    · refine ⟨h.valid, ?_, ?_, ?_, ?_, h.zoomed⟩
      · intro id' hid'
        refine InsertionMap.has_delete.2 ⟨fun heq => ?_, h.placed id' hid'⟩
        exact hgone (findLeafPath_isSome.2 (heq ▸ hid'))
      · exact fun id' hparked => h.apart id' (InsertionMap.has_delete.1 hparked).2
      · intro id' hparked
        obtain ⟨hne, hold⟩ := InsertionMap.has_delete.1 hparked
        exact InsertionMap.has_delete.2 ⟨hne, h.retained id' hold⟩
      · exact (InsertionMap.size_delete_le _ _).trans h.capped
    · exact h

theorem coherent_replaceLeaf (h : s.snapshot.Coherent) (oldId newId : LeafId) (m : LeafMeta) :
    (s.replaceLeaf oldId newId m).1.snapshot.Coherent := by
  rw [replaceLeaf]
  dsimp only
  split
  · next hok =>
      obtain ⟨hold, hnew, hvalid, hbag⟩ := replace_spec h.valid hok
      obtain ⟨-, hhas, hsize⟩ := admitLeaves_spec [newId] s s.snapshot.parked
      have hleaves : ∀ id, id ∈ leaves (replace s.snapshot.tree oldId newId).tree →
          id = newId ∨ (id ∈ leaves s.snapshot.tree ∧ id ≠ oldId) := by
        intro id hid
        have hnodup : (oldId ::ₘ (replace s.snapshot.tree oldId newId).tree.leafBag).Nodup := by
          rw [hbag]
          exact nodup_cons_bag h.valid hnew
        have hmem : id ∈ newId ::ₘ s.snapshot.tree.leafBag :=
          hbag ▸ Multiset.mem_cons_of_mem (Multiset.mem_coe.2 hid)
        rcases Multiset.mem_cons.1 hmem with heq | hmem
        · exact .inl heq
        · refine .inr ⟨Multiset.mem_coe.1 hmem, fun heq => ?_⟩
          rw [heq] at hid
          exact (Multiset.nodup_cons.1 hnodup).1 (Multiset.mem_coe.2 hid)
      have hkept : ∀ id, id ∈ leaves s.snapshot.tree → id ≠ oldId →
          id ∈ leaves (replace s.snapshot.tree oldId newId).tree := by
        intro id hid hne
        have hmem : id ∈ oldId ::ₘ (replace s.snapshot.tree oldId newId).tree.leafBag :=
          hbag ▸ Multiset.mem_cons_of_mem (Multiset.mem_coe.2 hid)
        exact Multiset.mem_coe.1 ((Multiset.mem_cons.1 hmem).resolve_left hne)
      have hplaced : newId ∈ leaves (replace s.snapshot.tree oldId newId).tree := by
        have hmem : newId ∈ oldId ::ₘ (replace s.snapshot.tree oldId newId).tree.leafBag :=
          hbag ▸ Multiset.mem_cons_self _ _
        exact Multiset.mem_coe.1 ((Multiset.mem_cons.1 hmem).resolve_left fun heq =>
          hnew (heq ▸ hold))
      rw [snapshot_admitLeaves]
      refine ⟨hvalid, ?_, ?_, ?_, hsize.trans h.capped, ?_⟩
      · intro id hid
        rcases hleaves id hid with rfl | ⟨hid', hne⟩
        · exact InsertionMap.has_set.2 (.inl rfl)
        · exact InsertionMap.has_set.2 (.inr (InsertionMap.has_delete.2
            ⟨fun heq => hne heq.symm, h.placed id hid'⟩))
      · intro id hparked hid
        obtain ⟨hparked', hids⟩ := hhas id hparked
        rcases hleaves id hid with rfl | ⟨hid', -⟩
        · exact hids (List.mem_singleton.2 rfl)
        · exact h.apart id hparked' hid'
      · intro id hparked
        obtain ⟨hparked', -⟩ := hhas id hparked
        refine InsertionMap.has_set.2 (.inr (InsertionMap.has_delete.2 ⟨fun heq => ?_,
          h.retained id hparked'⟩))
        exact h.apart id hparked' (heq ▸ hold)
      · intro id hzoom
        have hzoom' : (if s.snapshot.zoomedId = some oldId then some newId
            else s.snapshot.zoomedId) = some id := hzoom
        split at hzoom'
        · exact Option.some.inj hzoom' ▸ hplaced
        · next hne =>
            exact hkept id (h.zoomed id hzoom') fun heq => hne (heq ▸ hzoom')
  · exact h

/-! ### Every mutator -/

/-- A restored leaf brings a weight the exact tier can bring back. -/
def Mutator.Restorable (s : LathWallStore) : Mutator → Prop
  | .restoreLeaf _ token _ => token.Restorable s.snapshot.tree
  | _ => True

theorem coherent_addLeaf (h : s.snapshot.Coherent) (id : LeafId) (m : LeafMeta)
    (position : Option AddLeafPosition) : (s.addLeaf id m position).1.snapshot.Coherent := by
  have htol : (0 : ℚ) ≤ validateTol := by norm_num [validateTol]
  rw [addLeaf]
  split
  · next hroot =>
      have hnone := Option.isNone_iff_eq_none.1 hroot
      refine coherent_place h m ⟨?_, ?_⟩ ?_
      · intro root heq
        cases heq
        exact .leaf id
      · exact List.nodup_singleton id
      · rw [LathTree.leafBag, LathTree.leafBag, leaves, leaves, hnone]
        rfl
  · split
    · exact h
    · next refId edge _ =>
        dsimp only
        split
        · next hok =>
            obtain ⟨-, hvalid, hbag⟩ := split_spec h.valid hok
            have hs : (s.deriveEnterHint id edge).snapshot = s.snapshot :=
              snapshot_deriveEnterHint s id edge
            exact coherent_place (hs ▸ h) m (hvalid.mono htol) (hs ▸ hbag)
        · exact h

theorem coherent_restoreLeaf (h : s.snapshot.Coherent) (m : LeafMeta) (token : RestoreToken)
    (fallbackRef : Option LeafId) (hshare : token.Restorable s.snapshot.tree) :
    (s.restoreLeaf m token fallbackRef).1.snapshot.Coherent := by
  have htol : (0 : ℚ) ≤ validateTol := by norm_num [validateTol]
  rw [restoreLeaf]
  split
  · next hok =>
      obtain ⟨-, hvalid, hbag⟩ := restore_spec h.valid hshare hok
      have hs := snapshot_deriveEnterHint s token.leafId token.edge
      exact coherent_place (hs ▸ h) m (hvalid.mono htol) (hs ▸ hbag)
  · exact h

theorem coherent_insertLeaf (h : s.snapshot.Coherent) (id : LeafId) (m : LeafMeta)
    (target : DropTarget) : (s.insertLeaf id m target).1.snapshot.Coherent := by
  have htol : (0 : ℚ) ≤ validateTol := by norm_num [validateTol]
  unfold insertLeaf
  dsimp only
  split
  · next hok =>
      obtain ⟨-, hvalid, hbag⟩ := insert_spec h.valid hok
      cases target with
      | swap leaf => exact coherent_place h m (hvalid.mono htol) hbag
      | edge path edge =>
        have hs := snapshot_deriveEnterHint s id edge
        exact coherent_place (hs ▸ h) m (hvalid.mono htol) (hs ▸ hbag)
  · exact h

/-- **Every mutator keeps the store coherent.** -/
theorem coherent_perform (h : s.snapshot.Coherent) {op : Mutator} (hgiven : op.WellGiven s)
    (hshare : op.Restorable s) : (s.perform op).1.snapshot.Coherent := by
  have htol : (0 : ℚ) ≤ validateTol := by norm_num [validateTol]
  cases op with
  | seed tree leafMeta => exact coherent_seed h ((validate_toJson tree).1 hgiven.1) hgiven.2
  | addLeaf id m position => exact coherent_addLeaf h id m position
  | removeLeaf id => exact coherent_detachLeaf h id false false fun h => by cases h
  | doorLeaf id park => exact coherent_detachLeaf h id true park fun _ => rfl
  | addDoor id m =>
    show (s.addDoor id m).snapshot.Coherent
    rw [addDoor]
    split
    · exact h
    · exact coherent_set h id m
  | forgetLeaf id => exact coherent_forgetLeaf h id
  | replaceLeaf oldId newId m => exact coherent_replaceLeaf h oldId newId m
  | restoreLeaf m token fallbackRef => exact coherent_restoreLeaf h m token fallbackRef hshare
  | swapLeaves a b =>
    show (s.swapLeaves a b).1.snapshot.Coherent
    rw [swapLeaves]
    split
    · next hok => exact coherent_retree h (swap_spec h.valid hok).1 (swap_spec h.valid hok).2
    · exact h
  | moveLeaf id target =>
    show (s.moveLeaf id target).1.snapshot.Coherent
    rw [moveLeaf]
    split
    · next hok =>
        obtain ⟨hvalid, hbag⟩ := move_spec htol h.valid hok
        exact coherent_retree h hvalid hbag
    · exact h
  | insertLeaf id m target => exact coherent_insertLeaf h id m target
  | resizeBoundary splitPath boundary deltaPx =>
    show (s.resizeBoundary splitPath boundary deltaPx).1.snapshot.Coherent
    rw [resizeBoundary]
    split
    · exact h
    dsimp only
    split
    · next hok =>
        obtain ⟨hvalid, hbag⟩ := resize_spec h.valid hok
        exact coherent_retree h (hvalid.mono htol) hbag
    · exact h
  | setTitle id title =>
    show (s.setTitle id title).snapshot.Coherent
    rw [setTitle]
    split
    · exact h
    · split
      · exact h
      · exact coherent_set h id _
  | updateParams id patch =>
    show (s.updateParams id patch).snapshot.Coherent
    rw [updateParams]
    split
    · exact h
    · exact coherent_set h id _
  | setZoomed id =>
    show (s.setZoomed id).snapshot.Coherent
    rw [setZoomed]
    split
    · exact h
    · exact ⟨h.valid, h.placed, h.apart, h.retained, h.capped, hgiven⟩
  | setLayoutGeometry rect opts =>
    show (s.setLayoutGeometry rect opts).snapshot.Coherent
    rw [setLayoutGeometry]
    split <;> exact h
  | setEnterHint id enterFrom => exact h
  | consumeEnterHints => exact h

/-- What a call that answers an `ok` owes: a rejected one commits nothing. -/
def Settles (s : LathWallStore) (r : LathWallStore × Bool) : Prop :=
  Commits s r.1 ∧ (r.2 = false → r.1.snapshot = s.snapshot)

theorem settles_rejected (s : LathWallStore) : Settles s (s, false) := ⟨.refl s, fun _ => rfl⟩

theorem settles_ok {t : LathWallStore} (h : Commits s t) : Settles s (t, true) :=
  ⟨h, fun hfalse => by cases hfalse⟩

theorem settles_retree (s : LathWallStore) (r : OpResult) :
    Settles s (if r.ok = true then (s.commit { s.snapshot with tree := r.tree }, true)
      else (s, false)) := by
  split
  · exact settles_ok (commits_commit s s _ rfl)
  · exact settles_rejected s

theorem settles_addLeaf (s : LathWallStore) (id : LeafId) (m : LeafMeta)
    (position : Option AddLeafPosition) : Settles s (s.addLeaf id m position) := by
  rw [addLeaf]
  split
  · exact settles_ok (commits_place s s _ id m rfl)
  split
  · exact settles_rejected s
  · next refId edge _ =>
      dsimp only
      split
      · exact settles_ok (commits_place s _ _ id m (snapshot_deriveEnterHint s id edge))
      · exact settles_rejected s

theorem settles_detachLeaf (s : LathWallStore) (id : LeafId) (keepMeta park : Bool) :
    Settles s ((s.detachLeaf id keepMeta park).1, (s.detachLeaf id keepMeta park).2.1) := by
  rw [detachLeaf]
  split
  · exact settles_ok (commits_commit s s _ rfl)
  · exact settles_rejected s

theorem settles_replaceLeaf (s : LathWallStore) (oldId newId : LeafId) (m : LeafMeta) :
    Settles s (s.replaceLeaf oldId newId m) := by
  rw [replaceLeaf]
  dsimp only
  split
  · exact settles_ok (commits_commit s _ _ (snapshot_admitLeaves ..))
  · exact settles_rejected s

theorem settles_restoreLeaf (s : LathWallStore) (m : LeafMeta) (token : RestoreToken)
    (fallbackRef : Option LeafId) :
    Settles s ((s.restoreLeaf m token fallbackRef).1, (s.restoreLeaf m token fallbackRef).2.1) := by
  rw [restoreLeaf]
  split
  · exact settles_ok (commits_place s _ _ _ m (snapshot_deriveEnterHint s token.leafId token.edge))
  · exact settles_rejected s

theorem settles_insertLeaf (s : LathWallStore) (id : LeafId) (m : LeafMeta) (target : DropTarget) :
    Settles s (s.insertLeaf id m target) := by
  unfold insertLeaf
  dsimp only
  split
  · cases target with
    | swap leaf => exact settles_ok (commits_place s s _ id m rfl)
    | edge path edge =>
      exact settles_ok (commits_place s _ _ id m (snapshot_deriveEnterHint s id edge))
  · exact settles_rejected s

theorem settles_resizeBoundary (s : LathWallStore) (splitPath : List Nat) (boundary : ℤ)
    (deltaPx : ℚ) : Settles s (s.resizeBoundary splitPath boundary deltaPx) := by
  rw [resizeBoundary]
  split
  · exact settles_rejected s
  · exact settles_retree s _

/-- **A mutator commits once or not at all, and not at all when it is rejected.** -/
theorem perform_commits (s : LathWallStore) (op : Mutator) :
    Commits s (s.perform op).1 ∧
      ((s.perform op).2 = some false → (s.perform op).1.snapshot = s.snapshot) := by
  have answers : ∀ {r : LathWallStore × Bool}, Settles s r →
      Commits s r.1 ∧ (some r.2 = some false → r.1.snapshot = s.snapshot) :=
    fun h => ⟨h.1, fun hfalse => h.2 (Option.some.inj hfalse)⟩
  have silent : ∀ {t : LathWallStore}, Commits s t →
      Commits s t ∧ (none = some false → t.snapshot = s.snapshot) :=
    fun h => ⟨h, fun hfalse => absurd hfalse (Option.some_ne_none _).symm⟩
  cases op with
  | seed tree leafMeta => exact silent (commits_commit s _ _ (snapshot_admitLeaves ..))
  | addLeaf id m position => exact answers (settles_addLeaf s id m position)
  | removeLeaf id => exact answers (settles_detachLeaf s id false false)
  | doorLeaf id park => exact answers (settles_detachLeaf s id true park)
  | addDoor id m =>
    refine silent ?_
    show Commits s (s.addDoor id m)
    rw [addDoor]
    split
    · exact .refl s
    · exact commits_commit s s _ rfl
  | forgetLeaf id =>
    refine silent ?_
    show Commits s (s.forgetLeaf id)
    rw [forgetLeaf]
    split
    · exact .refl s
    · split
      · exact commits_commit s _ _ rfl
      · exact .refl s
  | replaceLeaf oldId newId m => exact answers (settles_replaceLeaf s oldId newId m)
  | restoreLeaf m token fallbackRef => exact answers (settles_restoreLeaf s m token fallbackRef)
  | swapLeaves a b => exact answers (settles_retree s (swap s.snapshot.tree a b))
  | moveLeaf id target => exact answers (settles_retree s (move s.snapshot.tree id target))
  | insertLeaf id m target => exact answers (settles_insertLeaf s id m target)
  | resizeBoundary splitPath boundary deltaPx =>
    exact answers (settles_resizeBoundary s splitPath boundary deltaPx)
  | setTitle id title =>
    refine silent ?_
    show Commits s (s.setTitle id title)
    rw [setTitle]
    split
    · exact .refl s
    · split
      · exact .refl s
      · exact commits_commit s s _ rfl
  | updateParams id patch =>
    refine silent ?_
    show Commits s (s.updateParams id patch)
    rw [updateParams]
    split
    · exact .refl s
    · exact commits_commit s s _ rfl
  | setZoomed id =>
    refine silent ?_
    show Commits s (s.setZoomed id)
    rw [setZoomed]
    split
    · exact .refl s
    · exact commits_commit s s _ rfl
  | setLayoutGeometry rect opts =>
    refine silent ?_
    show Commits s (s.setLayoutGeometry rect opts)
    rw [setLayoutGeometry]
    split
    · exact .refl s
    · exact .inl rfl
  | setEnterHint id enterFrom => exact silent (.inl rfl)
  | consumeEnterHints => exact silent (.inl rfl)

end LathWallStore

open LathWallStore

/-! ### Runs -/

/-- The runs in which every restored leaf brings a weight the exact tier can bring back. -/
def restoringWall : System LathWallStore Mutator where
  init := wall.init
  step s op t := wall.step s op t ∧ op.Restorable s

theorem wall_next {s : LathWallStore} (hs : wall.Reachable s) (op : Mutator)
    (hgiven : op.WellGiven s) : wall.Reachable (s.perform op).1 :=
  hs.next ⟨hgiven, rfl⟩

theorem restoringWall_next {s : LathWallStore} (hs : restoringWall.Reachable s) (op : Mutator)
    (hgiven : op.WellGiven s) (hshare : op.Restorable s) :
    restoringWall.Reachable (s.perform op).1 :=
  hs.next ⟨⟨hgiven, rfl⟩, hshare⟩

/-- A terminal pane's metadata. -/
def terminalLeafMeta : LeafMeta := ⟨js "terminal", js "terminal", js "", none⟩

/-- Two panes, one of them minimized and kept mounted. -/
def minimizedPane : LathWallStore :=
  ((((LathWallStore.create.addLeaf "a" terminalLeafMeta none).1.addLeaf "b" terminalLeafMeta
    none).1.setZoomed (some "b")).doorLeaf "b" true).1

/-- A row whose weights sum to 1 within the tolerance, the first of them above 1. -/
def heavyRow : LathTree :=
  ⟨some (.split .row [⟨.leaf "a", 10000005 / 10000000⟩, ⟨.leaf "b", 2 / 10000000⟩,
    ⟨.leaf "c", 2 / 10000000⟩])⟩

def heavySeed : List (LeafId × LeafMeta) :=
  [("a", terminalLeafMeta), ("b", terminalLeafMeta), ("c", terminalLeafMeta)]

/-- The heavy pane minimized, with the token that the store answered. -/
def heavyDoor : LathWallStore × Bool × Option RestoreToken :=
  (LathWallStore.create.seed heavyRow heavySeed).doorLeaf "a" false

def rootToken : RestoreToken := ⟨"a", 1, none, none, none, .right, 0, none⟩

/-- The heavy pane back from its own token. -/
def heavyRestored : LathWallStore :=
  (heavyDoor.1.restoreLeaf terminalLeafMeta (heavyDoor.2.2.getD rootToken) none).1

/-- The weights of the outermost split. -/
def LathTree.rootWeights (tree : LathTree) : List ℚ :=
  match tree.root with
  | some (.split _ cs) => cs.map (·.weight)
  | _ => []

theorem rootWeights_pos {tree : LathTree} {tol : ℚ} (h : tree.Valid tol) :
    ∀ w ∈ tree.rootWeights, 0 < w := by
  obtain ⟨root⟩ := tree
  intro w hw
  cases root with
  | none => cases hw
  | some root =>
    cases root with
    | leaf id => cases hw
    | split dir cs =>
      obtain ⟨c, hc, rfl⟩ := List.mem_map.1 hw
      exact ((h.canonical _ rfl).positive.of_split).1 c hc

theorem heavyRow_valid : heavyRow.Valid validateTol := by
  refine ⟨?_, by decide +kernel⟩
  intro root hroot
  cases hroot
  refine .split (by decide) ?_ ?_ ?_ ?_
  · decide +kernel
  · decide +kernel
  · intro c hc
    simp only [List.mem_cons, List.not_mem_nil, or_false] at hc
    rcases hc with rfl | rfl | rfl <;> exact (Option.some_ne_none _).symm
  · intro c hc
    simp only [List.mem_cons, List.not_mem_nil, or_false] at hc
    rcases hc with rfl | rfl | rfl <;> exact .leaf _

end Dormouse.Lath
