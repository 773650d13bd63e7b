import Dormouse.Lath.HitTest
import Dormouse.Lath.Relabel

/-!
# Dormouse.Lath.HitTestSound

**Drop previews are what a drop commits.** Every candidate's preview is the
rectangle the dropped leaf receives, previews are pairwise distinct, depths count
up from zero, and a candidate that leaves the layout as it is can only be a swap of
two leaves with the same rectangle.
-/

namespace Dormouse.Lath

/-! ### Layouts as maps -/

/-- A leaf of a tree with unique ids has the rectangle layout lists for it. -/
theorem layout_get {tree : LathTree} {root : LathNode} (hroot : tree.root = some root)
    (hnodup : (leaves tree).Nodup) {rect : Rect} {opts : LayoutOpts} {id : LeafId} {r : Rect} :
    (layout tree rect opts).get id = some r ↔
      (id, r) ∈ root.leafRects opts (nonnegativeRect rect) := by
  rw [InsertionMap.get_eq_some, layout_entries hroot hnodup]

/-- Only leaves of the tree have a rectangle. -/
theorem mem_leaves_of_layout {tree : LathTree} (hnodup : (leaves tree).Nodup) {rect : Rect}
    {opts : LayoutOpts} {id : LeafId} {r : Rect}
    (h : (layout tree rect opts).get id = some r) : id ∈ leaves tree := by
  cases hroot : tree.root with
  | none => simp [layout, hroot] at h
  | some root =>
    have hmem := (layout_get hroot hnodup).1 h
    rw [leaves, hroot]
    simp only
    rw [← map_fst_leafRects opts root (nonnegativeRect rect)]
    exact List.mem_map_of_mem hmem

/-- Two layouts give every leaf the same rectangle. -/
def SameRects (a b : InsertionMap LeafId Rect) : Prop := ∀ id, a.get id = b.get id

/-- The source's comparison finds equal layouts equal. -/
theorem sameLayout_of_sameRects {a b : InsertionMap LeafId Rect} (h : SameRects a b) :
    sameLayout a b = true := by
  have hmem : ∀ e : LeafId × Rect, e ∈ a.entries ↔ e ∈ b.entries := by
    intro e
    rw [← InsertionMap.get_eq_some, ← InsertionMap.get_eq_some, h]
  have hperm : a.entries.Perm b.entries :=
    (List.perm_ext_iff_of_nodup a.nodup.of_map b.nodup.of_map).2 hmem
  rw [sameLayout, Bool.and_eq_true, beq_iff_eq, List.all_eq_true]
  refine ⟨hperm.length_eq, fun e he => ?_⟩
  have hget : b.get e.1 = some e.2 := InsertionMap.get_eq_some.2 ((hmem e).1 he)
  rw [hget]
  simp [rectsClose]

/-! ### A Door lands where its placeholder did -/

/-- A renamed leaf keeps its rectangle. -/
theorem layout_relabel {f : LeafId → LeafId} {tree : LathTree} (hnodup : (leaves tree).Nodup)
    (hnodup' : (leaves (tree.relabel f)).Nodup) {rect : Rect} {opts : LayoutOpts} {id : LeafId}
    {r : Rect} (h : (layout tree rect opts).get id = some r) :
    (layout (tree.relabel f) rect opts).get (f id) = some r := by
  cases hroot : tree.root with
  | none => simp [layout, hroot] at h
  | some root =>
    have hroot' : (tree.relabel f).root = some (root.relabel f) := by
      rw [LathTree.relabel, hroot]
      rfl
    rw [layout_get hroot hnodup] at h
    rw [layout_get hroot' hnodup', leafRects_relabel]
    exact List.mem_map.2 ⟨(id, r), h, rfl⟩

theorem insert_edge_of_ok {tree : LathTree} {id : LeafId} {target : DropTarget} {w : ℚ}
    (ok : (insert tree id target w).ok = true) :
    ∃ path edge, target = .edge path edge ∧ tree.root.isNone = false ∧
      (nodeAtPath tree path).isNone = false := by
  unfold insert at ok
  cases target with
  | swap leaf => exact absurd ok (by simp)
  | edge path edge =>
    refine ⟨path, edge, rfl, ?_, ?_⟩
    · by_contra hroot
      simp only [if_pos (Bool.eq_true_of_not_eq_false hroot)] at ok
      exact absurd ok (by simp)
    · by_contra hnode
      have hnone : nodeAtPath tree path = none := by simpa using hnode
      simp only [hnone, Option.isNone_none, if_true] at ok
      split at ok
      · exact absurd ok (by simp)
      · split at ok <;> exact absurd ok (by simp)

/-- Inserting another fresh leaf at the same target gives the same tree up to the name. -/
theorem insert_rename {tree : LathTree} {a b : LeafId} {target : DropTarget} {w : ℚ}
    (ok : (insert tree a target w).ok = true) (ha : a ∉ leaves tree) (hb : b ∉ leaves tree) :
    (insert tree b target w).ok = true ∧ (insert tree b target w).tree =
      (insert tree a target w).tree.relabel fun id => if id = a then b else id := by
  obtain ⟨path, edge, rfl, hroot, hnode⟩ := insert_edge_of_ok ok
  have hfind : ∀ {id : LeafId}, id ∉ leaves tree → (findLeafPath tree id).isSome = false := by
    intro id hid
    rw [Bool.eq_false_iff]
    exact fun h => hid (findLeafPath_isSome.1 h)
  have hself : tree.relabel (fun id => if id = a then b else id) = tree := by
    rw [LathTree.relabel]
    cases htree : tree.root with
    | none => simp [htree] at hroot
    | some root =>
      have hfix : root.relabel (fun id => if id = a then b else id) = root := by
        refine relabel_eq_self root fun id hid => if_neg ?_
        rintro rfl
        exact ha (by rwa [leaves, htree])
      rw [Option.map_some, hfix, ← htree]
  simp only [insert, hroot, hfind ha, hfind hb, hnode, Bool.false_eq_true, if_false, true_and]
  rw [insertBesideNode_relabel, hself]
  simp

/-! ### A swap exchanges two rectangles -/

theorem nodeAtPath_replaceAtPath_self {n m : LathNode} {path : List Nat}
    (h : n.nodeAtPath path = some m) (r : LathNode) :
    (n.replaceAtPath path r).nodeAtPath path = some r := by
  induction path generalizing n with
  | nil => simp
  | cons i p ih =>
    obtain ⟨dir, cs, c, rfl, hc, hm⟩ := child_of_nodeAtPath h
    have hlt := (List.getElem?_eq_some_iff.1 hc).1
    rw [replaceAtPath_split_cons dir cs i p r hc, nodeAtPath_split_cons,
      List.getElem?_set_self hlt]
    exact ih hm

/-- After a swap the first leaf has the second one's rectangle. -/
theorem layout_swap {tol : ℚ} {tree : LathTree} {a b : LeafId} (h : tree.Valid tol)
    (ok : (swap tree a b).ok = true) (rect : Rect) (opts : LayoutOpts) :
    (layout (swap tree a b).tree rect opts).get a = (layout tree rect opts).get b := by
  have hvalid := (swap_spec h ok).1
  unfold swap at ok hvalid ⊢
  by_cases hab : a = b
  · simp [hab] at ok
  simp only [if_neg hab] at ok hvalid ⊢
  rcases hroot : tree.root with _ | root
  · simp [hroot] at ok
  rcases hpa : findLeafPath tree a with _ | pa
  · simp [hroot, hpa] at ok
  rcases hpb : findLeafPath tree b with _ | pb
  · simp [hroot, hpa, hpb] at ok
  simp only [hroot, hpa, hpb] at hvalid ⊢
  have hna := nodeAtPath_of_findLeafPath hroot hpa
  have hnb := nodeAtPath_of_findLeafPath hroot hpb
  have hne : pa ≠ pb := by
    rintro rfl
    rw [hna] at hnb
    exact hab (by simpa using hnb)
  have hnb' := nodeAtPath_replaceAtPath_ne (r := .leaf b) hna hnb hne
  have hat := nodeAtPath_replaceAtPath_self hnb' (.leaf a)
  obtain ⟨r, hr, hmem⟩ := nodeRectAtPath_mem_leafRects opts _
    (nonnegativeRect rect) pb a hat
  obtain ⟨r', hr', hmem'⟩ := nodeRectAtPath_mem_leafRects opts root
    (nonnegativeRect rect) pb b hnb
  rw [nodeRectAtPath_replaceAtPath_leaf hnb', nodeRectAtPath_replaceAtPath_leaf hna,
    hr'] at hr
  obtain rfl := Option.some.inj hr
  rw [(layout_get rfl hvalid.nodup).2 hmem, (layout_get hroot h.nodup).2 hmem']

/-! ### The candidate list -/

section Candidates

variable (tree : LathTree) (rect : Rect) (opts : LayoutOpts) (dragged : Option LeafId)

/-- Dropping the candidate with leaf `doorId` standing in for a Door gives the preview. -/
structure Commits (doorId : LeafId) (c : DropCandidate) : Prop where
  ok : (drop tree dragged doorId c.target).ok = true
  preview : (layout (drop tree dragged doorId c.target).tree rect opts).get
    (dragged.getD doorId) = some c.previewRect

/-- What holds of the candidates kept so far. -/
structure Kept (seen : List (ℚ × ℚ × ℚ × ℚ)) (out : List DropCandidate) : Prop where
  commits : ∀ c ∈ out, Commits tree rect opts dragged externalId c
  changes : ∀ c ∈ out, checksLayout dragged c.target = true →
    sameLayout (layout tree rect opts)
      (layout (drop tree dragged externalId c.target).tree rect opts) = false
  seen : ∀ c ∈ out, rectKey c.previewRect ∈ seen
  distinct : (out.map (·.previewRect)).Nodup
  depth : ∀ (i : Nat) (c : DropCandidate), out[i]? = some c → c.depth = i

variable {tree rect opts dragged}

/-- Keeping one more candidate whose preview is new. -/
theorem Kept.push {seen : List (ℚ × ℚ × ℚ × ℚ)} {out : List DropCandidate}
    (h : Kept tree rect opts dragged seen out) {target : DropTarget} {pr : Rect}
    (hok : (drop tree dragged externalId target).ok = true)
    (hpr : (layout (drop tree dragged externalId target).tree rect opts).get
      (dragged.getD externalId) = some pr)
    (hchange : checksLayout dragged target = true → sameLayout (layout tree rect opts)
      (layout (drop tree dragged externalId target).tree rect opts) = false)
    (hnew : rectKey pr ∉ seen) :
    Kept tree rect opts dragged (rectKey pr :: seen) (out ++ [⟨target, pr, out.length⟩]) := by
  have hall : ∀ {P : DropCandidate → Prop}, (∀ c ∈ out, P c) → P ⟨target, pr, out.length⟩ →
      ∀ c ∈ out ++ [⟨target, pr, out.length⟩], P c := by
    intro P hout hlast c hc
    rcases List.mem_append.1 hc with hc | hc
    · exact hout c hc
    · rw [List.mem_singleton.1 hc]
      exact hlast
  refine ⟨hall h.commits ⟨hok, hpr⟩, hall h.changes hchange,
    hall (fun c hc => List.mem_cons_of_mem _ (h.seen c hc)) List.mem_cons_self, ?_, ?_⟩
  · rw [List.map_append, List.nodup_append]
    refine ⟨h.distinct, List.nodup_singleton _, ?_⟩
    intro r hr r' hr' heq
    obtain ⟨c, hc, rfl⟩ := List.mem_map.1 hr
    obtain rfl : r' = pr := by simpa using hr'
    exact hnew (heq ▸ h.seen c hc)
  · intro i c hc
    rcases Nat.lt_or_ge i out.length with hi | hi
    · rw [List.getElem?_append_left hi] at hc
      exact h.depth i c hc
    rw [List.getElem?_append_right hi] at hc
    obtain ⟨hi', rfl⟩ := List.getElem?_eq_some_iff.1 hc
    have : i = out.length := by
      rw [List.length_singleton] at hi'
      omega
    subst this
    simp

/-- Trying the remaining targets keeps the invariant. -/
theorem Kept.tryAll (targets : List DropTarget) : ∀ {seen : List (ℚ × ℚ × ℚ × ℚ)}
    {out : List DropCandidate}, Kept tree rect opts dragged seen out →
      ∃ seen', Kept tree rect opts dragged seen'
        (tryTargets tree rect opts dragged targets seen out) := by
  induction targets with
  | nil => exact fun {seen _} h => ⟨seen, h⟩
  | cons target rest ih =>
    intro seen out h
    rw [tryTargets]
    simp only
    cases hok : (drop tree dragged externalId target).ok with
    | false => exact ih h
    | true =>
      simp only [Bool.not_true, Bool.false_eq_true, if_false]
      cases hpr : (layout (drop tree dragged externalId target).tree rect opts).get
          (dragged.getD externalId) with
      | none => exact ih h
      | some pr =>
        simp only
        split
        · exact ih h
        rename_i hsame
        split
        · exact ih h
        · rename_i hseen
          refine ih (h.push hok hpr ?_ (by simpa using hseen))
          intro hcheck
          simpa [hcheck] using hsame

variable (tree rect opts dragged) in
theorem hitTest_kept (p : Point) :
    ∃ seen, Kept tree rect opts dragged seen (hitTest tree rect p dragged opts) := by
  have hnil : Kept tree rect opts dragged [] [] :=
    ⟨by simp, by simp, by simp, List.nodup_nil, by simp⟩
  rw [hitTest]
  split
  · exact ⟨[], hnil⟩
  split
  · exact ⟨[], hnil⟩
  · split
    · exact ⟨[], hnil⟩
    · split
      · exact ⟨[], hnil⟩
      · exact hnil.tryAll _

end Candidates

/-! ### What hit-testing promises -/

/-- A candidate of an external drag commits the same rectangle for any fresh leaf. -/
theorem Commits.door {tol : ℚ} {tree : LathTree} {rect : Rect} {opts : LayoutOpts}
    {c : DropCandidate} {doorId : LeafId} (hv : tree.Valid tol) (hfresh : doorId ∉ leaves tree)
    (h : Commits tree rect opts none externalId c) : Commits tree rect opts none doorId c := by
  obtain ⟨hok, hpreview⟩ := h
  simp only [drop, Option.getD_none] at hok hpreview
  obtain ⟨hext, hvalid, -⟩ := insert_spec hv hok
  obtain ⟨hok', hrename⟩ := insert_rename hok hext hfresh
  have hvalid' := (insert_spec hv hok').2.1
  refine ⟨hok', ?_⟩
  simp only [drop, Option.getD_none]
  rw [hrename] at hvalid' ⊢
  have hget := layout_relabel hvalid.nodup hvalid'.nodup hpreview
  simpa using hget

/-- **Drop previews never lie.** For the dragged leaf, or for the fresh leaf of a
Door, each candidate commits to its preview; previews are pairwise distinct; depths
are list positions; and only a swap of two leaves with one rectangle leaves the
layout as it is. -/
theorem hitTest_sound (tree : LathTree) (rect : Rect) (p : Point) (dragged : Option LeafId)
    (opts : LayoutOpts) (doorId : LeafId) (hvalid : tree.Valid validateTol)
    (hdoor : dragged = none → doorId ∉ leaves tree) :
    (∀ c ∈ hitTest tree rect p dragged opts, Commits tree rect opts dragged doorId c) ∧
      ((hitTest tree rect p dragged opts).map (·.previewRect)).Nodup ∧
      (∀ (i : Nat) (c : DropCandidate),
        (hitTest tree rect p dragged opts)[i]? = some c → c.depth = i) ∧
      ∀ c ∈ hitTest tree rect p dragged opts,
        SameRects (layout tree rect opts)
            (layout (drop tree dragged doorId c.target).tree rect opts) →
          ∃ id leaf, dragged = some id ∧ c.target = .swap leaf ∧
            (layout tree rect opts).get id = (layout tree rect opts).get leaf := by
  obtain ⟨seen, hkept⟩ := hitTest_kept tree rect opts dragged p
  have hcommits : ∀ c ∈ hitTest tree rect p dragged opts,
      Commits tree rect opts dragged doorId c := by
    intro c hc
    have hext := hkept.commits c hc
    cases dragged with
    | none => exact hext.door hvalid (hdoor rfl)
    | some id => exact ⟨hext.ok, hext.preview⟩
  refine ⟨hcommits, hkept.distinct, hkept.depth, ?_⟩
  intro c hc hsame
  have hc' := hcommits c hc
  cases dragged with
  | none =>
    have hget := hsame doorId
    rw [show (layout (drop tree none doorId c.target).tree rect opts).get doorId =
      some c.previewRect from hc'.preview] at hget
    exact absurd (mem_leaves_of_layout hvalid.nodup hget) (hdoor rfl)
  | some id =>
    cases htarget : c.target with
    | edge path edge =>
      have hchange := hkept.changes c hc (by rw [htarget]; rfl)
      rw [show drop tree (some id) externalId c.target =
        drop tree (some id) doorId c.target from rfl,
        sameLayout_of_sameRects hsame] at hchange
      exact absurd hchange (by simp)
    | swap leaf =>
      refine ⟨id, leaf, rfl, rfl, ?_⟩
      have hok := hc'.ok
      rw [hsame id, htarget]
      rw [htarget] at hok
      exact layout_swap hvalid hok rect opts

/-- A Door over the left edge of one of two panes. -/
theorem hitTest_sound_door :
    let tree : LathTree := ⟨some (.split .row [⟨.leaf "a", 1 / 2⟩, ⟨.leaf "b", 1 / 2⟩])⟩
    let rect : Rect := ⟨0, 0, 406, 100⟩
    let opts : LayoutOpts := ⟨6, ⟨100, 60⟩⟩
    hitTest tree rect ⟨10, 50⟩ none opts ≠ [] ∧
      ∀ c ∈ hitTest tree rect ⟨10, 50⟩ none opts, Commits tree rect opts none "door" c := by
  intro tree rect opts
  have hvalid : tree.Valid validateTol :=
    valid_two_leaves (by norm_num [validateTol]) .row (by decide) (by norm_num) (by norm_num)
      (by norm_num)
  exact ⟨by decide +kernel, (hitTest_sound tree rect ⟨10, 50⟩ none opts "door" hvalid
    fun _ => by decide).1⟩

/-- On a wall without width, with no gap, two leaves of a row have one rectangle, and
the swap offered at their center changes nothing. -/
theorem hitTest_offers_idle_swap :
    let tree : LathTree := ⟨some (.split .row [⟨.leaf "a", 1 / 2⟩, ⟨.leaf "b", 1 / 2⟩])⟩
    let rect : Rect := ⟨0, 0, 0, 100⟩
    let opts : LayoutOpts := ⟨0, ⟨100, 60⟩⟩
    tree.Valid validateTol ∧ ∃ c ∈ hitTest tree rect ⟨0, 50⟩ (some "b") opts,
      (move tree "b" c.target).ok = true ∧
        SameRects (layout tree rect opts) (layout (move tree "b" c.target).tree rect opts) := by
  intro tree rect opts
  refine ⟨valid_two_leaves (by norm_num [validateTol]) .row (by decide) (by norm_num)
    (by norm_num) (by norm_num), ⟨.swap "a", ⟨0, 0, 0, 100⟩, 0⟩, by decide +kernel,
    by decide +kernel, fun id => ?_⟩
  have hbefore : (layout tree rect opts).entries =
      [("a", ⟨0, 0, 0, 100⟩), ("b", ⟨0, 0, 0, 100⟩)] := by decide +kernel
  have hafter : (layout (move tree "b" (.swap "a")).tree rect opts).entries =
      [("b", ⟨0, 0, 0, 100⟩), ("a", ⟨0, 0, 0, 100⟩)] := by decide +kernel
  rw [InsertionMap.get, InsertionMap.get, hbefore, hafter]
  simp only [InsertionMap.getEntry]
  split
  · split <;> rfl
  · rfl

end Dormouse.Lath
