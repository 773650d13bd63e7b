import Dormouse.Relay.PushStoreSound

/-!
# Dormouse.Relay.PushCaps

**How much an upsert evicts.** One pass drops the oldest rows while a cap is exceeded, without
knowing what it drops later. A row that goes for the total can therefore turn out to have been
spare, when younger rows go for their own Burrow; but it never is beside those.
-/

namespace Dormouse.Relay

open Terminal (Ms)

namespace PushCounts

variable {all : List StoredPushSubscription} {keep i : Nat} {row : StoredPushSubscription}

/-! ### What the loop drops -/

/-- The loop over `todo` takes `c` to `c'` and drops `gone`, in this order. -/
structure Drops (keep : Nat) (todo : List (StoredPushSubscription × Nat)) (c c' : PushCounts)
    (gone : List (StoredPushSubscription × Nat)) : Prop where
  sublist : gone.Sublist todo
  spared : ∀ e ∈ gone, e.2 ≠ keep
  dropped : ∀ j, j ∈ c'.dropped ↔ j ∈ c.dropped ∨ j ∈ gone.map Prod.snd
  total : c.total = c'.total + gone.length
  forBurrow : ∀ burrowId, c.forBurrow burrowId =
    c'.forBurrow burrowId + gone.countP fun e => decide (e.1.burrowId = burrowId)
  oldest : maxPushSubscriptionsTotal < c.total →
    ∀ e rest, todo = e :: rest → e.2 ≠ keep → e ∈ gone
  -- With a row and all that went after it, a cap is exceeded.
  needed : ∀ older e younger, gone = older ++ e :: younger →
    maxPushSubscriptionsTotal < c'.total + (e :: younger).length ∨
      maxPushSubscriptionsPerBurrow < c'.forBurrow e.1.burrowId +
        (e :: younger).countP fun later => decide (later.1.burrowId = e.1.burrowId)
  -- A cap that alone drops rows is met exactly.
  forBurrows : c.total ≤ maxPushSubscriptionsTotal →
    ∀ e ∈ gone, maxPushSubscriptionsPerBurrow ≤ c'.forBurrow e.1.burrowId
  forTotal : (∀ burrowId, c.forBurrow burrowId ≤ maxPushSubscriptionsPerBurrow) →
    ∀ e ∈ gone, maxPushSubscriptionsTotal ≤ c'.total

theorem Drops.nil (keep : Nat) (c : PushCounts) : Drops keep [] c c [] where
  sublist := List.Sublist.refl _
  spared := nofun
  dropped j := by simp
  total := rfl
  forBurrow _ := rfl
  oldest _ _ _ h := nomatch h
  needed older e younger h := by simp at h
  forBurrows _ := nofun
  forTotal _ := nofun

/-- A row the loop passes over. -/
theorem Drops.skip {todo gone : List (StoredPushSubscription × Nat)} {c c' : PushCounts}
    (h : Drops keep todo c c' gone) (hskip : i = keep ∨ c.total ≤ maxPushSubscriptionsTotal) :
    Drops keep ((row, i) :: todo) c c' gone :=
  { h with
    sublist := h.sublist.cons _
    oldest := by
      intro hover e rest hfirst hne
      obtain ⟨rfl, -⟩ := List.cons.inj hfirst
      rcases hskip with hkeep | hcap
      · exact absurd hkeep hne
      · omega }

/-- A row the loop drops. -/
theorem Drops.drop {todo gone : List (StoredPushSubscription × Nat)} {c c' : PushCounts}
    (h : Drops keep todo (c.drop row i) c' gone) (hcounts : Counts all c)
    (hleft : (row, i) ∈ left all c.dropped) (hne : i ≠ keep)
    (hover : maxPushSubscriptionsTotal < c.total ∨
      maxPushSubscriptionsPerBurrow < c.forBurrow row.burrowId) :
    Drops keep ((row, i) :: todo) c c' ((row, i) :: gone) := by
  have hpos : 0 < c.total := by
    rw [hcounts.total]
    exact List.length_pos_of_mem hleft
  have hposBurrow : 0 < c.forBurrow row.burrowId := by
    rw [hcounts.forBurrow]
    exact List.countP_pos_iff.2 ⟨_, hleft, decide_eq_true rfl⟩
  have htotal : c.total = c'.total + ((row, i) :: gone).length := by
    have hrest : c.total - 1 = c'.total + gone.length := h.total
    rw [List.length_cons]
    omega
  have hforBurrow : ∀ burrowId, c.forBurrow burrowId = c'.forBurrow burrowId +
      ((row, i) :: gone).countP fun e => decide (e.1.burrowId = burrowId) := by
    intro burrowId
    have hrest := h.forBurrow burrowId
    rw [forBurrow_drop] at hrest
    rw [List.countP_cons]
    by_cases hsame : row.burrowId = burrowId
    · subst hsame
      rw [if_pos rfl] at hrest
      rw [if_pos (decide_eq_true rfl)]
      omega
    · rw [if_neg hsame] at hrest
      rw [if_neg (by simpa using hsame)]
      omega
  exact {
    sublist := h.sublist.cons_cons _
    spared := fun e he => (List.mem_cons.1 he).elim (fun heq => heq ▸ hne) (h.spared e)
    dropped := fun j => by
      rw [h.dropped, List.map_cons, List.mem_cons]
      change j ∈ i :: c.dropped ∨ _ ↔ _
      rw [List.mem_cons]
      tauto
    total := htotal
    forBurrow := hforBurrow
    oldest := fun _ e rest hfirst _ => (List.cons.inj hfirst).1 ▸ List.mem_cons_self
    needed := by
      intro older e younger hsplit
      rcases List.cons_eq_append_iff.1 hsplit with ⟨-, hcons⟩ | ⟨older', -, hgone⟩
      · obtain ⟨rfl, rfl⟩ := List.cons.inj hcons
        rw [← htotal, ← hforBurrow]
        exact hover
      · exact h.needed older' e younger hgone
    forBurrows := by
      intro hcap e he
      have hcap' : (c.drop row i).total ≤ maxPushSubscriptionsTotal :=
        Nat.le_trans (Nat.sub_le _ _) hcap
      rcases List.mem_cons.1 he with rfl | he
      · by_cases hmore : ∃ later ∈ gone, later.1.burrowId = row.burrowId
        · obtain ⟨later, hlater, hsame⟩ := hmore
          exact hsame ▸ h.forBurrows hcap' later hlater
        · have hzero : gone.countP (fun e => decide (e.1.burrowId = row.burrowId)) = 0 := by
            refine List.countP_eq_zero.2 fun later hlater hsame => hmore ?_
            exact ⟨later, hlater, of_decide_eq_true hsame⟩
          have hrest := hforBurrow row.burrowId
          rw [List.countP_cons, hzero, if_pos (decide_eq_true rfl)] at hrest
          dsimp only
          omega
      · exact h.forBurrows hcap' e he
    forTotal := by
      intro hcap e he
      have hcap' : ∀ burrowId, (c.drop row i).forBurrow burrowId ≤
          maxPushSubscriptionsPerBurrow := by
        intro burrowId
        rw [forBurrow_drop]
        exact Nat.le_trans (Nat.sub_le _ _) (hcap burrowId)
      cases gone with
      | nil =>
        rw [List.length_singleton] at htotal
        have hcaps := hcap row.burrowId
        omega
      | cons later gone => exact h.forTotal hcap' later List.mem_cons_self }

/-- The loop, by induction on the rows still to come. -/
theorem evict_drops : ∀ {todo : List (StoredPushSubscription × Nat)} {c : PushCounts},
    Counts all c → (∀ e ∈ todo, e ∈ left all c.dropped) → (todo.map Prod.snd).Nodup →
    ∃ gone, Drops keep todo c (evict keep todo c) gone
  | [], c, _, _, _ => ⟨[], .nil keep c⟩
  | (row, i) :: rest, c, hcounts, hleft, hnodup => by
    have hrest : ∀ e ∈ rest, e ∈ left all c.dropped :=
      fun e he => hleft e (List.mem_cons_of_mem _ he)
    rw [List.map_cons, List.nodup_cons] at hnodup
    obtain ⟨hfresh, hnodup⟩ := hnodup
    rw [evict]
    by_cases hkeep : i = keep
    · rw [if_pos hkeep]
      obtain ⟨gone, hgone⟩ := evict_drops hcounts hrest hnodup
      exact ⟨gone, hgone.skip (.inl hkeep)⟩
    rw [if_neg hkeep]
    by_cases hcaps : c.total ≤ maxPushSubscriptionsTotal ∧
        c.forBurrow row.burrowId ≤ maxPushSubscriptionsPerBurrow
    · rw [if_pos hcaps]
      obtain ⟨gone, hgone⟩ := evict_drops hcounts hrest hnodup
      exact ⟨gone, hgone.skip (.inr hcaps.1)⟩
    rw [if_neg hcaps]
    have hhere : (row, i) ∈ left all c.dropped := hleft _ List.mem_cons_self
    have hlater : ∀ e ∈ rest, e ∈ left all (c.drop row i).dropped := by
      intro e he
      obtain ⟨hat, hnot⟩ := mem_left.1 (hrest e he)
      refine mem_left.2 ⟨hat, ?_⟩
      change e.2 ∉ i :: c.dropped
      rw [List.mem_cons, not_or]
      exact ⟨fun heq => hfresh (List.mem_map.2 ⟨e, he, heq⟩), hnot⟩
    obtain ⟨gone, hgone⟩ := evict_drops (hcounts.drop hhere) hlater hnodup
    exact ⟨_, hgone.drop hcounts hhere hkeep (by omega)⟩

end PushCounts

/-! ### What is evicted -/

/-- The oldest row first. -/
theorem pairwise_oldestFirst (rows : List (StoredPushSubscription × Nat)) :
    (rows.mergeSort fun a b => a.1.subscribedAt ≤ b.1.subscribedAt).Pairwise
      fun a b => a.1.subscribedAt ≤ b.1.subscribedAt := by
  refine (List.pairwise_mergeSort (fun a b c hab hbc => ?_) (fun a b => ?_) rows).imp
    of_decide_eq_true
  · exact decide_eq_true (le_trans (of_decide_eq_true hab) (of_decide_eq_true hbc))
  · simpa using le_total a.1.subscribedAt b.1.subscribedAt

/-- What `capSubscriptions` keeps and what it drops, oldest first, over the caps that the loop
was within at the end. -/
theorem capSubscriptions_drops (rows : List StoredPushSubscription)
    (keep : StoredPushSubscription) :
    capSubscriptions rows keep = rows ++ [keep] ∧
        (rows ++ [keep]).length ≤ maxPushSubscriptionsPerBurrow ∨
      ∃ c' gone kept, PushCounts.Drops rows.length
          ((rows ++ [keep]).zipIdx.mergeSort fun a b => a.1.subscribedAt ≤ b.1.subscribedAt)
          ⟨countPerBurrow (rows ++ [keep]), (rows ++ [keep]).length, []⟩ c' gone ∧
        PushCounts.Counts (rows ++ [keep]) c' ∧ c'.total ≤ maxPushSubscriptionsTotal ∧
        (∀ burrowId, c'.forBurrow burrowId ≤ maxPushSubscriptionsPerBurrow) ∧
        capSubscriptions rows keep = (PushCounts.left (rows ++ [keep]) c'.dropped).map Prod.fst ∧
        capSubscriptions rows keep = kept ++ [keep] ∧ kept.Sublist rows ∧
        rows.Perm (kept ++ gone.map Prod.fst) := by
  by_cases hsmall : (rows ++ [keep]).length ≤ maxPushSubscriptionsPerBurrow
  · exact .inl ⟨if_pos hsmall, hsmall⟩
  obtain ⟨todo, c', rfl, hc', htodo, hplaces, hleft, hevicted, htotal, hforBurrow, heq, hkept, hsub,
    hperm⟩ := capSubscriptions_evicts hsmall
  obtain ⟨gone, hgone⟩ := PushCounts.evict_drops
    (PushCounts.counts_start (rows ++ [keep])) hleft hplaces
  rw [hc'] at hgone
  have hdropped : ∀ j, j ∈ c'.dropped ↔ j ∈ gone.map Prod.snd := fun j => by
    rw [hgone.dropped]
    exact or_iff_right List.not_mem_nil
  refine .inr ⟨c', gone, _, hgone, hevicted.counts, htotal, hforBurrow, heq, hkept, hsub, ?_⟩
  -- The rows at the dropped places are the rows that the loop dropped.
  have hsame : (rows.zipIdx.filter fun e => !decide (e.2 ∉ c'.dropped)).Perm gone := by
    have hrows : rows.zipIdx.Nodup := List.Nodup.of_map Prod.snd (by
      rw [List.zipIdx_map_snd]
      exact List.nodup_range')
    refine (List.perm_ext_iff_of_nodup (hrows.filter _)
      ((List.Nodup.of_map Prod.snd hplaces).sublist hgone.sublist)).2 fun e => ?_
    rw [List.mem_filter, Bool.not_eq_true', decide_eq_false_iff_not, not_not, hdropped]
    constructor
    · rintro ⟨hmem, hplace⟩
      obtain ⟨e', he', heq⟩ := List.mem_map.1 hplace
      have hat := htodo.mem_iff.2 (List.mem_append_left _ hmem)
      exact List.inj_on_of_nodup_map hplaces (hgone.sublist.subset he') hat heq ▸ he'
    · intro he
      have hat := htodo.mem_iff.1 (hgone.sublist.subset he)
      refine ⟨(List.mem_append.1 hat).resolve_right fun hlast => hgone.spared e he ?_,
        List.mem_map_of_mem he⟩
      rw [List.mem_singleton.1 hlast]
  exact hperm.trans ((hsame.map Prod.fst).append_left _)

/-- Both caps hold of the rows. -/
def Capped (rows : List StoredPushSubscription) : Prop :=
  rows.length ≤ maxPushSubscriptionsTotal ∧
    ∀ burrowId, rows.countP (·.burrowId = burrowId) ≤ maxPushSubscriptionsPerBurrow

/-- With more rows than the total allows, or more of one Burrow. -/
theorem not_capped (rows more : List StoredPushSubscription) (burrowId : JsString)
    (h : maxPushSubscriptionsTotal < rows.length + more.length ∨
      maxPushSubscriptionsPerBurrow < rows.countP (·.burrowId = burrowId) +
        more.countP (·.burrowId = burrowId)) : ¬ Capped (more ++ rows) := by
  rintro ⟨htotal, hforBurrow⟩
  rw [List.length_append] at htotal
  have hhere := hforBurrow burrowId
  rw [List.countP_append] at hhere
  omega

/-- Both caps hold of what is kept. A dropped row exceeds one together with the rows that were
dropped after it; and by itself, when the rows exceeded only one of the caps. -/
theorem capSubscriptions_needed (rows : List StoredPushSubscription)
    (keep : StoredPushSubscription) :
    ∃ kept gone, capSubscriptions rows keep = kept ++ [keep] ∧ kept.Sublist rows ∧
      rows.Perm (kept ++ gone) ∧
      gone.Pairwise (fun older younger => older.subscribedAt ≤ younger.subscribedAt) ∧
      Capped (capSubscriptions rows keep) ∧
      (∀ older row younger, gone = older ++ row :: younger →
        ¬ Capped (row :: younger ++ capSubscriptions rows keep)) ∧
      ((rows ++ [keep]).length ≤ maxPushSubscriptionsTotal ∨
          (∀ burrowId, (rows ++ [keep]).countP (·.burrowId = burrowId) ≤
            maxPushSubscriptionsPerBurrow) →
        ∀ row ∈ gone, ¬ Capped (row :: capSubscriptions rows keep)) := by
  rcases capSubscriptions_drops rows keep with ⟨hall, hsmall⟩ |
    ⟨c', gone, kept, hdrops, hcounts, htotal, hforBurrow, heq, hkept, hsub, hperm⟩
  · refine ⟨rows, [], hall, List.Sublist.refl _, by rw [List.append_nil], List.Pairwise.nil,
      ?_, ?_, fun _ => nofun⟩
    · rw [hall]
      exact ⟨Nat.le_trans hsmall (by decide),
        fun _ => Nat.le_trans List.countP_le_length hsmall⟩
    · intro older row younger h
      simp at h
  · have hlength : (capSubscriptions rows keep).length = c'.total := by
      rw [heq, List.length_map, hcounts.total]
    have hcount : ∀ burrowId, (capSubscriptions rows keep).countP (·.burrowId = burrowId) =
        c'.forBurrow burrowId := by
      intro burrowId
      rw [heq, List.countP_map, hcounts.forBurrow]
      rfl
    refine ⟨kept, gone.map Prod.fst, hkept, hsub, hperm, ?_, ?_, ?_, ?_⟩
    · exact List.pairwise_map.2
        ((pairwise_oldestFirst _).sublist hdrops.sublist)
    · exact ⟨hlength ▸ htotal, fun burrowId => hcount burrowId ▸ hforBurrow burrowId⟩
    · intro older row younger hsplit
      obtain ⟨older', rest, rfl, -, hrest⟩ := List.map_eq_append_iff.1 hsplit
      obtain ⟨e, younger', rfl, rfl, rfl⟩ := List.map_eq_cons_iff.1 hrest
      rw [← List.map_cons]
      refine not_capped _ _ e.1.burrowId ?_
      rw [hlength, hcount, List.length_map, List.countP_map]
      exact hdrops.needed older' e younger' rfl
    · intro hone row hrow
      obtain ⟨e, he, rfl⟩ := List.mem_map.1 hrow
      refine not_capped (capSubscriptions rows keep) [e.1] e.1.burrowId ?_
      rw [hlength, hcount, List.countP_singleton, if_pos (decide_eq_true rfl),
        List.length_singleton]
      rcases hone with hcap | hcap
      · exact .inr (Nat.lt_succ_of_le (hdrops.forBurrows hcap e he))
      · refine .inl (Nat.lt_succ_of_le (hdrops.forTotal (fun burrowId => ?_) e he))
        rw [PushCounts.forBurrow, PushCounts.countPerBurrow_get]
        exact hcap burrowId

/-- A subscription of one phone. -/
def onePhone (burrowId : JsString) : PushRecord where
  burrowId := burrowId
  deliveryId := js "delivery"
  endpoint := js "https://push.example"
  keys := .object [(js "p256dh", .string (js "key")), (js "auth", .string (js "secret"))]
  vapidPublicKey := js "vapid"
  isKeys := by decide

/-- A file with all the rows it may hold: eight Burrows with all the rows each may have. -/
def fullFile : List StoredPushSubscription :=
  [js "a", js "b", js "c", js "d", js "e", js "f", js "g", js "h"].flatMap fun burrowId =>
    List.replicate maxPushSubscriptionsPerBurrow ((onePhone burrowId).store 0)

theorem length_fullFile : fullFile.length = maxPushSubscriptionsTotal := by
  decide +kernel

theorem countP_fullFile :
    fullFile.countP (·.burrowId = js "a") = maxPushSubscriptionsPerBurrow ∧
      fullFile.countP (·.burrowId = js "b") = maxPushSubscriptionsPerBurrow := by
  decide +kernel

/-- The rows of the file are of one time, which the new row is later than. -/
theorem sorted_fullFile (keep : StoredPushSubscription) (hkeep : 0 ≤ keep.subscribedAt) :
    ((fullFile ++ [keep]).zipIdx.mergeSort fun a b => a.1.subscribedAt ≤ b.1.subscribedAt) =
      (fullFile ++ [keep]).zipIdx := by
  have hzero : ∀ row ∈ fullFile, row.subscribedAt = 0 := by
    intro row hrow
    obtain ⟨_, -, hrow⟩ := List.mem_flatMap.1 hrow
    rw [List.eq_of_mem_replicate hrow]
    rfl
  have hsorted : (fullFile ++ [keep]).Pairwise (·.subscribedAt ≤ ·.subscribedAt) := by
    refine List.pairwise_append.2 ⟨?_, List.pairwise_singleton _ _, fun a ha b hb => ?_⟩
    · exact List.pairwise_of_forall_mem_list fun a ha b hb => le_of_eq (by
        rw [hzero a ha, hzero b hb])
    · rw [hzero a ha, List.mem_singleton.1 hb]
      exact hkeep
  refine List.mergeSort_of_pairwise ?_
  rw [← List.zipIdx_map_fst (l := fullFile ++ [keep]) (i := 0), List.pairwise_map] at hsorted
  exact hsorted.imp fun h => decide_eq_true h

/-- One more row of the second Burrow evicts its oldest row, and before that one of the first,
which could have stayed. -/
theorem capSubscriptions_spare :
    ∃ kept gone row, capSubscriptions fullFile ((onePhone (js "b")).store 1) =
        kept ++ [(onePhone (js "b")).store 1] ∧
      fullFile.Perm (kept ++ gone) ∧ row ∈ gone ∧
      Capped (row :: capSubscriptions fullFile ((onePhone (js "b")).store 1)) := by
  obtain ⟨hfirst, hsecond⟩ := countP_fullFile
  generalize hnew : (onePhone (js "b")).store 1 = keep
  have hburrow : keep.burrowId = js "b" := hnew ▸ rfl
  have htime : 0 ≤ keep.subscribedAt := by
    rw [← hnew]
    exact zero_le_one
  have htotalAll : (fullFile ++ [keep]).length = maxPushSubscriptionsTotal + 1 := by
    rw [List.length_append, length_fullFile, List.length_singleton]
  have hstart : ∀ burrowId, PushCounts.forBurrow
      ⟨countPerBurrow (fullFile ++ [keep]), (fullFile ++ [keep]).length, []⟩ burrowId =
        fullFile.countP (·.burrowId = burrowId) + [keep].countP (·.burrowId = burrowId) := by
    intro burrowId
    rw [PushCounts.forBurrow, PushCounts.countPerBurrow_get, List.countP_append]
  obtain ⟨-, hsmall⟩ | ⟨c', gone, kept, hdrops, hcounts, htotal, hforBurrow, heq, hkept, -,
    hperm⟩ := capSubscriptions_drops fullFile keep
  · rw [htotalAll] at hsmall
    exact absurd hsmall (by decide)
  rw [sorted_fullFile keep htime] at hdrops
  -- The oldest row goes, as the total is exceeded, and one of the second Burrow.
  have holdest : ((onePhone (js "a")).store 0, 0) ∈ gone := by
    refine hdrops.oldest ?_ _ _ rfl ?_
    · exact htotalAll ▸ Nat.lt_succ_self _
    · rw [length_fullFile]
      decide
  have hone : 0 < gone.countP fun e => decide (e.1.burrowId = js "b") := by
    have h := hdrops.forBurrow (js "b")
    rw [hstart, hsecond, List.countP_singleton, if_pos (decide_eq_true hburrow)] at h
    have hle := hforBurrow (js "b")
    omega
  have hother : 0 < gone.countP fun e => decide ¬ e.1.burrowId = js "b" :=
    List.countP_pos_iff.2 ⟨_, holdest, by decide⟩
  have htwo : c'.total + 1 ≤ maxPushSubscriptionsTotal := by
    have h : (fullFile ++ [keep]).length = c'.total + gone.length := hdrops.total
    have hsplit := List.length_eq_countP_add_countP
      (fun e : StoredPushSubscription × Nat => decide (e.1.burrowId = js "b")) (l := gone)
    rw [htotalAll] at h
    simp only [decide_eq_true_eq] at hsplit
    omega
  refine ⟨kept, gone.map Prod.fst, (onePhone (js "a")).store 0, hkept, hperm,
    List.mem_map_of_mem holdest, ?_, fun burrowId => ?_⟩
  · rwa [List.length_cons, heq, List.length_map, ← hcounts.total]
  · have hcount : (capSubscriptions fullFile keep).countP (·.burrowId = burrowId) =
        c'.forBurrow burrowId := by
      rw [heq, List.countP_map, hcounts.forBurrow]
      rfl
    have hrow : ((onePhone (js "a")).store 0).burrowId = js "a" := rfl
    rw [List.countP_cons, hcount, hrow]
    by_cases hsame : js "a" = burrowId
    · have h := hdrops.forBurrow (js "a")
      rw [hstart, hfirst, List.countP_singleton, hburrow, if_neg (by decide)] at h
      have hsome : 0 < gone.countP fun e => decide (e.1.burrowId = js "a") :=
        List.countP_pos_iff.2 ⟨_, holdest, by decide⟩
      subst hsame
      rw [if_pos (decide_eq_true rfl)]
      omega
    · rw [if_neg fun h => hsame (of_decide_eq_true h)]
      exact hforBurrow burrowId

end Dormouse.Relay
