import Dormouse.Relay.PushStore

/-!
# Dormouse.Relay.PushStoreSound

What an **upsert leaves behind**, whatever the file held: the new row alone under its pair,
none of the addresses its delivery moved off, both caps, and every other row that no rule
names.
-/

namespace Dormouse.Relay

open Terminal (Ms)

/-! ### Eviction -/

namespace PushCounts

variable {all : List StoredPushSubscription} {keep i : Nat} {row : StoredPushSubscription}

/-- The rows that have not been dropped, with their places. -/
def left (all : List StoredPushSubscription) (dropped : List Nat) :
    List (StoredPushSubscription × Nat) :=
  all.zipIdx.filter fun e => e.2 ∉ dropped

theorem mem_left {dropped : List Nat} :
    (row, i) ∈ left all dropped ↔ all[i]? = some row ∧ i ∉ dropped := by
  rw [left, List.mem_filter, List.mk_mem_zipIdx_iff_getElem?, decide_eq_true_iff]

theorem nodup_places (all : List StoredPushSubscription) (dropped : List Nat) :
    ((left all dropped).map Prod.snd).Nodup := by
  refine List.Nodup.sublist (List.filter_sublist.map Prod.snd) ?_
  rw [List.zipIdx_map_snd]
  exact List.nodup_range'

/-- Dropping one more row. -/
theorem left_perm {dropped : List Nat} (h : (row, i) ∈ left all dropped) :
    (left all dropped).Perm ((row, i) :: left all (i :: dropped)) := by
  obtain ⟨before, after, hsplit⟩ := List.append_of_mem h
  have hplaces := nodup_places all dropped
  rw [hsplit, List.map_append, List.map_cons, List.nodup_middle] at hplaces
  have hnot : i ∉ before.map Prod.snd ++ after.map Prod.snd := (List.nodup_cons.1 hplaces).1
  have hleft : left all (i :: dropped) = before ++ after := by
    have hfilter : left all (i :: dropped) = (left all dropped).filter fun e => e.2 ≠ i := by
      rw [left, left, List.filter_filter]
      refine List.filter_congr fun e _ => ?_
      rw [← Bool.decide_and, decide_eq_decide, List.mem_cons, not_or]
    rw [hfilter, hsplit, List.filter_append, List.filter_cons_of_neg (by simp)]
    congr 1
    · refine List.filter_eq_self.2 fun e he => decide_eq_true fun heq => hnot ?_
      exact List.mem_append_left _ (heq ▸ List.mem_map_of_mem he)
    · refine List.filter_eq_self.2 fun e he => decide_eq_true fun heq => hnot ?_
      exact List.mem_append_right _ (heq ▸ List.mem_map_of_mem he)
  rw [hleft, hsplit]
  exact List.perm_middle

/-- The counters say how many rows are left. -/
structure Counts (all : List StoredPushSubscription) (c : PushCounts) : Prop where
  total : c.total = (left all c.dropped).length
  forBurrow : ∀ burrowId, c.forBurrow burrowId =
    (left all c.dropped).countP fun e => decide (e.1.burrowId = burrowId)

/-- The row at hand is dropped. -/
def drop (c : PushCounts) (row : StoredPushSubscription) (i : Nat) : PushCounts where
  perBurrow := c.perBurrow.set row.burrowId (c.forBurrow row.burrowId - 1)
  total := c.total - 1
  dropped := i :: c.dropped

theorem forBurrow_drop (c : PushCounts) (row : StoredPushSubscription) (i : Nat)
    (burrowId : JsString) : (c.drop row i).forBurrow burrowId =
      c.forBurrow burrowId - if row.burrowId = burrowId then 1 else 0 := by
  unfold forBurrow drop
  by_cases hsame : row.burrowId = burrowId
  · rw [if_pos hsame, ← hsame]
    rw [InsertionMap.get_set_self]
    rfl
  · rw [if_neg hsame]
    rw [InsertionMap.get_set_ne _ _ hsame]
    rfl

theorem Counts.drop {c : PushCounts} (h : Counts all c) (hrow : (row, i) ∈ left all c.dropped) :
    Counts all (c.drop row i) where
  total := by
    have hperm := (left_perm hrow).length_eq
    rw [List.length_cons] at hperm
    change c.total - 1 = (left all (i :: c.dropped)).length
    rw [h.total]
    omega
  forBurrow burrowId := by
    have hperm := (left_perm hrow).countP_eq fun e => decide (e.1.burrowId = burrowId)
    rw [List.countP_cons] at hperm
    rw [forBurrow_drop, h.forBurrow burrowId]
    change _ = (left all (i :: c.dropped)).countP fun e => decide (e.1.burrowId = burrowId)
    by_cases hsame : row.burrowId = burrowId
    · rw [if_pos hsame]
      rw [if_pos (by simpa using hsame)] at hperm
      omega
    · rw [if_neg hsame]
      rw [if_neg (by simpa using hsame)] at hperm
      omega

/-- What the loop does to the rows of `todo`. -/
structure Evicted (all : List StoredPushSubscription) (keep : Nat)
    (todo : List (StoredPushSubscription × Nat)) (c c' : PushCounts) : Prop where
  counts : Counts all c'
  total_le : c'.total ≤ c.total
  forBurrow_le : ∀ burrowId, c'.forBurrow burrowId ≤ c.forBurrow burrowId
  grows : ∀ i ∈ c.dropped, i ∈ c'.dropped
  -- A row goes only over a cap, and never the one to keep.
  cause : ∀ i ∈ c'.dropped, i ∈ c.dropped ∨ i ≠ keep ∧ ∃ row, (row, i) ∈ todo ∧
    (maxPushSubscriptionsTotal < c.total ∨
      maxPushSubscriptionsPerBurrow < c.forBurrow row.burrowId)
  -- A cap that is still exceeded has let no row stay.
  overTotal : maxPushSubscriptionsTotal < c'.total →
    ∀ e ∈ todo, e.2 ≠ keep → e.2 ∈ c'.dropped
  overBurrow : ∀ burrowId, maxPushSubscriptionsPerBurrow < c'.forBurrow burrowId →
    ∀ e ∈ todo, e.2 ≠ keep → e.1.burrowId = burrowId → e.2 ∈ c'.dropped

/-- A row the loop passes over. -/
theorem Evicted.skip {rest : List (StoredPushSubscription × Nat)} {c c' : PushCounts}
    (h : Evicted all keep rest c c')
    (hskip : i = keep ∨ c.total ≤ maxPushSubscriptionsTotal ∧
      c.forBurrow row.burrowId ≤ maxPushSubscriptionsPerBurrow) :
    Evicted all keep ((row, i) :: rest) c c' :=
  { h with
    cause j hj := by
      rcases h.cause j hj with hold | ⟨hne, row', hmem, hover⟩
      · exact .inl hold
      · exact .inr ⟨hne, row', List.mem_cons_of_mem _ hmem, hover⟩
    overTotal hover e he hne := by
      rcases List.mem_cons.1 he with rfl | he
      · rcases hskip with hkeep | hcaps
        · exact absurd hkeep hne
        · have hle := h.total_le
          omega
      · exact h.overTotal hover e he hne
    overBurrow burrowId hover e he hne hburrow := by
      rcases List.mem_cons.1 he with rfl | he
      · rcases hskip with hkeep | hcaps
        · exact absurd hkeep hne
        · have hle := h.forBurrow_le row.burrowId
          have hover' : maxPushSubscriptionsPerBurrow < c'.forBurrow row.burrowId :=
            hburrow ▸ hover
          omega
      · exact h.overBurrow burrowId hover e he hne hburrow }

/-- A row the loop drops. -/
theorem Evicted.dropped {rest : List (StoredPushSubscription × Nat)} {c c' : PushCounts}
    (h : Evicted all keep rest (c.drop row i) c') (hne : i ≠ keep)
    (hover : maxPushSubscriptionsTotal < c.total ∨
      maxPushSubscriptionsPerBurrow < c.forBurrow row.burrowId) :
    Evicted all keep ((row, i) :: rest) c c' := by
  have htotal : (c.drop row i).total ≤ c.total := Nat.sub_le _ _
  have hforBurrow : ∀ burrowId, (c.drop row i).forBurrow burrowId ≤ c.forBurrow burrowId := by
    intro burrowId
    rw [forBurrow_drop]
    exact Nat.sub_le _ _
  have hgone : i ∈ c'.dropped := h.grows i List.mem_cons_self
  exact {
    counts := h.counts
    total_le := Nat.le_trans h.total_le htotal
    forBurrow_le := fun burrowId => Nat.le_trans (h.forBurrow_le burrowId) (hforBurrow burrowId)
    grows := fun j hj => h.grows j (List.mem_cons_of_mem _ hj)
    cause := by
      intro j hj
      rcases h.cause j hj with hold | ⟨hne', row', hmem, hover'⟩
      · rcases List.mem_cons.1 hold with rfl | hold
        · exact .inr ⟨hne, row, List.mem_cons_self, hover⟩
        · exact .inl hold
      · refine .inr ⟨hne', row', List.mem_cons_of_mem _ hmem, ?_⟩
        have hle := hforBurrow row'.burrowId
        omega
    overTotal := by
      intro hover' e he hne'
      rcases List.mem_cons.1 he with rfl | he
      · exact hgone
      · exact h.overTotal hover' e he hne'
    overBurrow := by
      intro burrowId hover' e he hne' hburrow
      rcases List.mem_cons.1 he with rfl | he
      · exact hgone
      · exact h.overBurrow burrowId hover' e he hne' hburrow }

/-- The loop: its invariant, by induction on the rows still to come. -/
theorem evicted : ∀ {todo : List (StoredPushSubscription × Nat)} {c : PushCounts},
    Counts all c → (∀ e ∈ todo, e ∈ left all c.dropped) → (todo.map Prod.snd).Nodup →
    Evicted all keep todo c (evict keep todo c)
  | [], c, hcounts, _, _ =>
    { counts := hcounts
      total_le := Nat.le_refl _
      forBurrow_le _ := Nat.le_refl _
      grows _ hi := hi
      cause _ hi := .inl hi
      overTotal _ _ he := by cases he
      overBurrow _ _ _ he := by cases he }
  | (row, i) :: rest, c, hcounts, hleft, hnodup => by
    have hrest : ∀ e ∈ rest, e ∈ left all c.dropped :=
      fun e he => hleft e (List.mem_cons_of_mem _ he)
    rw [List.map_cons, List.nodup_cons] at hnodup
    obtain ⟨hfresh, hnodup⟩ := hnodup
    rw [evict]
    by_cases hkeep : i = keep
    · rw [if_pos hkeep]
      exact (evicted hcounts hrest hnodup).skip (.inl hkeep)
    rw [if_neg hkeep]
    by_cases hcaps : c.total ≤ maxPushSubscriptionsTotal ∧
        c.forBurrow row.burrowId ≤ maxPushSubscriptionsPerBurrow
    · rw [if_pos hcaps]
      exact (evicted hcounts hrest hnodup).skip (.inr hcaps)
    rw [if_neg hcaps]
    refine (evicted (hcounts.drop (hleft _ List.mem_cons_self)) ?_ hnodup).dropped hkeep ?_
    · intro e he
      obtain ⟨hat, hnot⟩ := mem_left.1 (hrest e he)
      refine mem_left.2 ⟨hat, ?_⟩
      change e.2 ∉ i :: c.dropped
      rw [List.mem_cons, not_or]
      exact ⟨fun heq => hfresh (List.mem_map.2 ⟨e, he, heq⟩), hnot⟩
    · omega

/-- The counters the loop starts from. -/
theorem countPerBurrow_get (rows : List StoredPushSubscription) (burrowId : JsString) :
    ((countPerBurrow rows).get burrowId).getD 0 = rows.countP (·.burrowId = burrowId) := by
  have hfold : ∀ (counts : InsertionMap JsString Nat),
      ((rows.foldl (fun counts row =>
        counts.set row.burrowId ((counts.get row.burrowId).getD 0 + 1)) counts).get
          burrowId).getD 0 =
        (counts.get burrowId).getD 0 + rows.countP (·.burrowId = burrowId) := by
    induction rows with
    | nil => exact fun _ => rfl
    | cons row rows ih =>
      intro counts
      rw [List.foldl_cons, ih, List.countP_cons]
      by_cases hsame : row.burrowId = burrowId
      · rw [hsame, InsertionMap.get_set_self, if_pos (decide_eq_true rfl), Option.getD_some]
        omega
      · rw [InsertionMap.get_set_ne _ _ hsame, if_neg (by simpa using hsame)]
        rfl
  rw [countPerBurrow, hfold]
  exact Nat.zero_add _

theorem left_nil (all : List StoredPushSubscription) : left all [] = all.zipIdx :=
  List.filter_eq_self.2 fun _ _ => decide_eq_true List.not_mem_nil

theorem countP_zipIdx (all : List StoredPushSubscription) (p : StoredPushSubscription → Bool) :
    all.zipIdx.countP (fun e => p e.1) = all.countP p := by
  have hmap := List.countP_map (p := p) (f := Prod.fst) (l := all.zipIdx)
  rw [List.zipIdx_map_fst] at hmap
  exact hmap.symm

theorem counts_start (all : List StoredPushSubscription) :
    Counts all ⟨countPerBurrow all, all.length, []⟩ where
  total := by
    rw [left_nil, List.length_zipIdx]
  forBurrow burrowId := by
    rw [left_nil, countP_zipIdx all fun s => decide (s.burrowId = burrowId)]
    exact countPerBurrow_get all burrowId

/-- Of rows at different places, one at most is at a given one. -/
theorem countP_place_le_one (place : Nat) {es : List (StoredPushSubscription × Nat)}
    (hes : (es.map Prod.snd).Nodup) {p : StoredPushSubscription × Nat → Bool}
    (hp : ∀ e ∈ es, p e = true → e.2 = place) : es.countP p ≤ 1 := by
  rw [List.countP_eq_length_filter, ← List.length_map Prod.snd]
  have hall : ∀ j ∈ (es.filter p).map Prod.snd, j = place := by
    intro j hj
    obtain ⟨e, he, rfl⟩ := List.mem_map.1 hj
    obtain ⟨hmem, hpe⟩ := List.mem_filter.1 he
    exact hp e hmem hpe
  have hnodup : ((es.filter p).map Prod.snd).Nodup := hes.sublist (List.filter_sublist.map _)
  rw [List.eq_replicate_of_mem hall, List.nodup_replicate] at hnodup
  exact hnodup

/-- The loop ends within both caps. -/
theorem Evicted.capped {c' : PushCounts} {todo : List (StoredPushSubscription × Nat)}
    {c : PushCounts} (h : Evicted all keep todo c c') (htodo : ∀ e ∈ all.zipIdx, e ∈ todo) :
    c'.total ≤ maxPushSubscriptionsTotal ∧
      ∀ burrowId, c'.forBurrow burrowId ≤ maxPushSubscriptionsPerBurrow := by
  have hplaces := nodup_places all c'.dropped
  have hleft : ∀ e ∈ left all c'.dropped, e ∈ todo ∧ e.2 ∉ c'.dropped := by
    intro e he
    obtain ⟨hmem, hnot⟩ := List.mem_filter.1 he
    exact ⟨htodo e hmem, of_decide_eq_true hnot⟩
  constructor
  · by_contra hover
    have hone : (left all c'.dropped).countP (fun _ => true) ≤ 1 := by
      refine countP_place_le_one keep hplaces fun e he _ => ?_
      obtain ⟨hmem, hnot⟩ := hleft e he
      by_contra hne
      exact hnot (h.overTotal (Nat.lt_of_not_le hover) e hmem hne)
    rw [List.countP_true, ← h.counts.total] at hone
    unfold maxPushSubscriptionsTotal at hover
    omega
  · intro burrowId
    by_contra hover
    have hone : (left all c'.dropped).countP (fun e => decide (e.1.burrowId = burrowId)) ≤ 1 := by
      refine countP_place_le_one keep hplaces fun e he hburrow => ?_
      obtain ⟨hmem, hnot⟩ := hleft e he
      by_contra hne
      exact hnot (h.overBurrow burrowId (Nat.lt_of_not_le hover) e hmem hne
        (of_decide_eq_true hburrow))
    rw [← h.counts.forBurrow burrowId] at hone
    unfold maxPushSubscriptionsPerBurrow at hover
    omega

end PushCounts

/-- Above the cap of one Burrow the loop runs, over all rows with the one to keep as the last. It
never drops that one, so this stays the last. -/
theorem capSubscriptions_evicts {rows : List StoredPushSubscription}
    {keep : StoredPushSubscription}
    (hlarge : ¬ (rows ++ [keep]).length ≤ maxPushSubscriptionsPerBurrow) :
    ∃ todo c', (rows ++ [keep]).zipIdx.mergeSort
        (fun a b => a.1.subscribedAt ≤ b.1.subscribedAt) = todo ∧
      PushCounts.evict rows.length todo
        ⟨countPerBurrow (rows ++ [keep]), (rows ++ [keep]).length, []⟩ = c' ∧
      todo.Perm (rows.zipIdx ++ [(keep, rows.length)]) ∧ (todo.map Prod.snd).Nodup ∧
      (∀ e ∈ todo, e ∈ PushCounts.left (rows ++ [keep]) []) ∧
      PushCounts.Evicted (rows ++ [keep]) rows.length todo
        ⟨countPerBurrow (rows ++ [keep]), (rows ++ [keep]).length, []⟩ c' ∧
      c'.total ≤ maxPushSubscriptionsTotal ∧
      (∀ burrowId, c'.forBurrow burrowId ≤ maxPushSubscriptionsPerBurrow) ∧
      capSubscriptions rows keep = (PushCounts.left (rows ++ [keep]) c'.dropped).map Prod.fst ∧
      capSubscriptions rows keep =
        (rows.zipIdx.filter fun e => e.2 ∉ c'.dropped).map Prod.fst ++ [keep] ∧
      ((rows.zipIdx.filter fun e => e.2 ∉ c'.dropped).map Prod.fst).Sublist rows ∧
      rows.Perm ((rows.zipIdx.filter fun e => e.2 ∉ c'.dropped).map Prod.fst ++
        (rows.zipIdx.filter fun e => !decide (e.2 ∉ c'.dropped)).map Prod.fst) := by
  unfold capSubscriptions
  rw [if_neg hlarge]
  set all := rows ++ [keep] with hall
  set todo := all.zipIdx.mergeSort fun a b => a.1.subscribedAt ≤ b.1.subscribedAt
  set dropped := (PushCounts.evict rows.length todo ⟨countPerBurrow all, all.length, []⟩).dropped
  have hperm : todo.Perm all.zipIdx := List.mergeSort_perm _ _
  have hplaces : (todo.map Prod.snd).Nodup := by
    rw [(hperm.map Prod.snd).nodup_iff, List.zipIdx_map_snd]
    exact List.nodup_range'
  have hleft : ∀ e ∈ todo, e ∈ PushCounts.left all [] := fun e he => by
    rw [PushCounts.left_nil]
    exact hperm.mem_iff.1 he
  have h : PushCounts.Evicted all rows.length todo ⟨countPerBurrow all, all.length, []⟩
      (PushCounts.evict rows.length todo ⟨countPerBurrow all, all.length, []⟩) :=
    PushCounts.evicted (PushCounts.counts_start all) hleft hplaces
  have hcapped := h.capped fun e he => hperm.mem_iff.2 he
  have hzip : all.zipIdx = rows.zipIdx ++ [(keep, rows.length)] := by
    rw [hall, List.zipIdx_append, Nat.zero_add]
    rfl
  have hkeep : rows.length ∉ dropped := by
    intro hmem
    rcases h.cause _ hmem with hnone | ⟨hne, -⟩
    · cases hnone
    · exact hne rfl
  refine ⟨todo, _, rfl, rfl, hzip ▸ hperm, hplaces, hleft, h, hcapped.1, hcapped.2, rfl, ?_, ?_, ?_⟩
  · have hlast : [(keep, rows.length)].filter (fun e => decide (e.2 ∉ dropped)) =
        [(keep, rows.length)] := List.filter_cons_of_pos (p := _) (decide_eq_true hkeep)
    change (PushCounts.left all dropped).map Prod.fst = _
    rw [PushCounts.left, hzip, List.filter_append, hlast, List.map_append]
    rfl
  · have hsub : ((rows.zipIdx.filter fun e => e.2 ∉ dropped).map Prod.fst).Sublist
        (rows.zipIdx.map Prod.fst) := List.filter_sublist.map _
    rwa [List.zipIdx_map_fst] at hsub
  · have hsplit := (List.filter_append_perm (fun e : StoredPushSubscription × Nat =>
      decide (e.2 ∉ dropped)) rows.zipIdx).map Prod.fst
    rw [List.map_append, List.zipIdx_map_fst] at hsplit
    exact hsplit.symm

/-- The caps hold of the rows that `capSubscriptions` leaves: the row to keep, last, and those
of the others that no cap drops. -/
theorem capSubscriptions_spec (rows : List StoredPushSubscription)
    (keep : StoredPushSubscription) :
    ∃ kept gone, capSubscriptions rows keep = kept ++ [keep] ∧ kept.Sublist rows ∧
      rows.Perm (kept ++ gone) ∧
      (∀ row ∈ gone, maxPushSubscriptionsTotal < (rows ++ [keep]).length ∨
        maxPushSubscriptionsPerBurrow < (rows ++ [keep]).countP (·.burrowId = row.burrowId)) ∧
      (capSubscriptions rows keep).length ≤ maxPushSubscriptionsTotal ∧
      ∀ burrowId, (capSubscriptions rows keep).countP (·.burrowId = burrowId) ≤
        maxPushSubscriptionsPerBurrow := by
  by_cases hsmall : (rows ++ [keep]).length ≤ maxPushSubscriptionsPerBurrow
  · have hall : capSubscriptions rows keep = rows ++ [keep] := if_pos hsmall
    rw [hall]
    refine ⟨rows, [], rfl, List.Sublist.refl _, ?_, nofun, ?_, fun burrowId => ?_⟩
    · rw [List.append_nil]
    · exact Nat.le_trans hsmall (by decide)
    · exact Nat.le_trans List.countP_le_length hsmall
  obtain ⟨todo, c', -, -, htodo, hplaces, -, h, htotal, hforBurrow, hleft, hkept, hsub, hperm⟩ :=
    capSubscriptions_evicts hsmall
  refine ⟨_, _, hkept, hsub, hperm, ?_, ?_, ?_⟩
  · intro row hrow
    obtain ⟨⟨row', i⟩, he, rfl⟩ := List.mem_map.1 hrow
    obtain ⟨hmem, hgone⟩ := List.mem_filter.1 he
    have hin : i ∈ c'.dropped := by
      by_contra hnot
      rw [decide_eq_true hnot] at hgone
      cases hgone
    rcases h.cause i hin with hnone | ⟨-, row, hrow, hover⟩
    · cases hnone
    -- There is one row at a place.
    have hsame := List.inj_on_of_nodup_map hplaces hrow
      (htodo.mem_iff.2 (List.mem_append_left _ hmem)) rfl
    obtain rfl := congrArg Prod.fst hsame
    rw [show PushCounts.forBurrow ⟨countPerBurrow (rows ++ [keep]), _, []⟩ row.burrowId =
      (rows ++ [keep]).countP (·.burrowId = row.burrowId) from
        PushCounts.countPerBurrow_get _ row.burrowId] at hover
    exact hover
  · rw [hleft, List.length_map]
    exact h.counts.total ▸ htotal
  · intro burrowId
    rw [hleft, List.countP_map]
    exact h.counts.forBurrow burrowId ▸ hforBurrow burrowId

/-! ### What a row reads as -/

namespace StoredPushSubscription

theorem ofJson_eq_some {row : Json} {s : StoredPushSubscription} :
    ofJson row = some s ↔ s.row = row := by
  unfold ofJson
  split
  · exact ⟨fun h => Option.some.inj h ▸ rfl, fun h => by cases s; cases h; rfl⟩
  · next hnot => exact ⟨nofun, fun h => absurd (h ▸ s.stored) hnot⟩

theorem ofJson_eq_none {row : Json} :
    ofJson row = none ↔ isStoredPushSubscription row = false := by
  unfold ofJson
  split
  · next h => simp [h]
  · next h => simp [h]

theorem burrowId_eq (s : StoredPushSubscription) :
    s.row.stringField (js "burrowId") = some s.burrowId := by
  have hstored := s.stored
  simp only [isStoredPushSubscription, Bool.and_eq_true] at hstored
  obtain ⟨burrowId, hburrow⟩ := Option.isSome_iff_exists.1 hstored.1.1.1.1.1
  rw [StoredPushSubscription.burrowId, hburrow, Option.getD_some]

end StoredPushSubscription

namespace PushFiles

/-- Why a row of the file is not a row this Relay can act on. -/
def Unlisted (s : PushFiles) (row : Json) : Prop :=
  isStoredPushSubscription row = false ∨
    ∃ enrolled burrowId, enrolledIfPresent s.burrows = .ok (some enrolled) ∧
      row.stringField (js "burrowId") = some burrowId ∧ burrowId ∉ enrolled

theorem list_perm (rows : List Json) :
    ∃ gone, rows.Perm ((rows.filterMap StoredPushSubscription.ofJson).map (·.row) ++ gone) ∧
      ∀ row ∈ gone, isStoredPushSubscription row = false := by
  induction rows with
  | nil => exact ⟨[], List.Perm.refl _, nofun⟩
  | cons row rows ih =>
    obtain ⟨gone, hperm, hgone⟩ := ih
    cases hrow : StoredPushSubscription.ofJson row with
    | none =>
      refine ⟨row :: gone, ?_, ?_⟩
      · rw [List.filterMap_cons_none hrow]
        exact (hperm.cons row).trans List.perm_middle.symm
      · intro other hother
        rcases List.mem_cons.1 hother with rfl | hother
        · exact StoredPushSubscription.ofJson_eq_none.1 hrow
        · exact hgone other hother
    | some sub =>
      refine ⟨gone, ?_, hgone⟩
      rw [List.filterMap_cons_some hrow, List.map_cons,
        StoredPushSubscription.ofJson_eq_some.1 hrow]
      exact hperm.cons row

theorem list_sublist (rows : List Json) :
    ((rows.filterMap StoredPushSubscription.ofJson).map (·.row)).Sublist rows := by
  induction rows with
  | nil => exact List.Sublist.refl _
  | cons row rows ih =>
    cases hrow : StoredPushSubscription.ofJson row with
    | none =>
      rw [List.filterMap_cons_none hrow]
      exact ih.cons row
    | some sub =>
      rw [List.filterMap_cons_some hrow, List.map_cons,
        StoredPushSubscription.ofJson_eq_some.1 hrow]
      exact ih.cons_cons row

/-- Splitting a list of rows by a test. -/
theorem perm_filter {subs : List StoredPushSubscription} (p : StoredPushSubscription → Bool) :
    (subs.map (·.row)).Perm
      ((subs.filter p).map (·.row) ++ (subs.filter fun s => !p s).map (·.row)) := by
  rw [← List.map_append]
  exact ((List.filter_append_perm p subs).map _).symm

/-- The rows that the join with `burrows.json` leaves. -/
def joined (rows : List Json) : Option (List JsString) → List StoredPushSubscription
  | none => rows.filterMap StoredPushSubscription.ofJson
  | some enrolled =>
    (rows.filterMap StoredPushSubscription.ofJson).filter fun s => enrolled.contains s.burrowId

theorem list_eq {s : PushFiles} {all : List StoredPushSubscription} (h : s.list = .ok all) :
    ∃ enrolled, (s.rows = [] ∨ enrolledIfPresent s.burrows = .ok enrolled) ∧
      all = joined s.rows enrolled := by
  have hjoin : ∀ rows : List Json, (do
      match ← enrolledIfPresent s.burrows with
      | none => pure (rows.filterMap StoredPushSubscription.ofJson)
      | some enrolled => pure ((rows.filterMap StoredPushSubscription.ofJson).filter fun s =>
        enrolled.contains s.burrowId)) = Except.ok all →
      ∃ enrolled, enrolledIfPresent s.burrows = .ok enrolled ∧ all = joined rows enrolled := by
    intro rows hrows
    cases henrolled : enrolledIfPresent s.burrows with
    | error e =>
      rw [henrolled] at hrows
      cases hrows
    | ok enrolled =>
      rw [henrolled] at hrows
      cases enrolled with
      | none => exact ⟨none, rfl, (Except.ok.inj hrows).symm⟩
      | some enrolled => exact ⟨some enrolled, rfl, (Except.ok.inj hrows).symm⟩
  unfold list at h
  unfold rows
  cases hfile : s.subscriptions with
  | absent =>
    rw [hfile] at h
    obtain ⟨enrolled, -, hall⟩ := hjoin [] h
    exact ⟨enrolled, .inl rfl, hall⟩
  | unreadable =>
    rw [hfile] at h
    cases h
  | holds value =>
    rw [hfile] at h
    cases value with
    | null =>
      obtain ⟨enrolled, -, hall⟩ := hjoin [] h
      exact ⟨enrolled, .inl rfl, hall⟩
    | array rows =>
      obtain ⟨enrolled, henrolled, hall⟩ := hjoin rows h
      exact ⟨enrolled, .inr henrolled, hall⟩
    | bool b => exact ⟨none, .inl rfl, (Except.ok.inj h).symm⟩
    | number n => exact ⟨none, .inl rfl, (Except.ok.inj h).symm⟩
    | string t => exact ⟨none, .inl rfl, (Except.ok.inj h).symm⟩
    | object fields => exact ⟨none, .inl rfl, (Except.ok.inj h).symm⟩

/-- What `list` makes of the file. -/
theorem list_spec {s : PushFiles} {all : List StoredPushSubscription} (h : s.list = .ok all) :
    (all.map (·.row)).Sublist s.rows ∧
      ∃ gone, s.rows.Perm (all.map (·.row) ++ gone) ∧ ∀ row ∈ gone, s.Unlisted row := by
  obtain ⟨enrolled, hjoin, rfl⟩ := list_eq h
  obtain ⟨malformed, hperm, hmalformed⟩ := list_perm s.rows
  rcases enrolled with _ | enrolled
  · exact ⟨list_sublist s.rows, malformed, hperm, fun row hrow => .inl (hmalformed row hrow)⟩
  refine ⟨(List.filter_sublist.map _).trans (list_sublist s.rows),
    (((s.rows.filterMap StoredPushSubscription.ofJson).filter fun s =>
      !enrolled.contains s.burrowId).map (·.row)) ++ malformed, ?_, ?_⟩
  · refine hperm.trans ?_
    rw [← List.append_assoc]
    exact (perm_filter fun s => enrolled.contains s.burrowId).append_right malformed
  · intro row hrow
    rcases List.mem_append.1 hrow with hrow | hrow
    · obtain ⟨sub, hsub, rfl⟩ := List.mem_map.1 hrow
      obtain ⟨hmem, hnot⟩ := List.mem_filter.1 hsub
      rcases hjoin with hnone | henrolled
      · rw [hnone] at hmem
        cases hmem
      · refine .inr ⟨enrolled, sub.burrowId, henrolled, sub.burrowId_eq, fun hin => ?_⟩
        rw [List.contains_iff_mem.2 hin] at hnot
        cases hnot
    · exact .inl (hmalformed row hrow)

/-! ### What an upsert leaves -/

/-- The addresses that a delivery is moving off. -/
def replacedEndpoints (all : List StoredPushSubscription) (record : PushRecord) :
    List JsString :=
  (all.filter fun s => s.deliveryId = record.deliveryId ∧ s.endpoint ≠ record.endpoint).map
    (·.endpoint)

theorem mem_replacedEndpoints {all : List StoredPushSubscription} {record : PushRecord}
    {endpoint : JsString} : endpoint ∈ replacedEndpoints all record ↔
      ∃ old ∈ all, old.deliveryId = record.deliveryId ∧ old.endpoint ≠ record.endpoint ∧
        old.endpoint = endpoint := by
  simp only [replacedEndpoints, List.mem_map, List.mem_filter, decide_eq_true_iff, and_assoc]

/-- The rows that an upsert keeps if no cap is in the way. -/
def others (all : List StoredPushSubscription) (record : PushRecord) :
    List StoredPushSubscription :=
  all.filter fun s => ¬ (s.burrowId = record.burrowId ∧ s.deliveryId = record.deliveryId) ∧
    s.endpoint ∉ replacedEndpoints all record

/-- Why an upsert may take a row out of the file: it cannot be acted on, the new row takes
its place, its delivery is moving off its address, or a cap is exceeded. -/
def Displaced (s : PushFiles) (all : List StoredPushSubscription) (record : PushRecord)
    (row : Json) : Prop :=
  s.Unlisted row ∨ ∃ sub ∈ all, sub.row = row ∧
    (sub.burrowId = record.burrowId ∧ sub.deliveryId = record.deliveryId ∨
      sub.endpoint ∈ replacedEndpoints all record ∨
      maxPushSubscriptionsTotal < (others all record).length + 1 ∨
      maxPushSubscriptionsPerBurrow < (others all record).countP (·.burrowId = sub.burrowId) +
        if record.burrowId = sub.burrowId then 1 else 0)

theorem burrowId_store (record : PushRecord) (now : Ms) :
    (record.store now).burrowId = record.burrowId := rfl

theorem deliveryId_store (record : PushRecord) (now : Ms) :
    (record.store now).deliveryId = record.deliveryId := rfl

theorem endpoint_store (record : PushRecord) (now : Ms) :
    (record.store now).endpoint = record.endpoint := rfl

/-- The steps of an upsert that goes through. -/
theorem upsert_eq {s s' : PushFiles} {record : PushRecord} {now : Ms} {writes : Bool}
    {result : PushSubscriptionUpsertResult}
    (h : s.upsert record now writes = .ok (s', result)) :
    ∃ all, s.list = .ok all ∧
      s' = { s with subscriptions := .holds (.array
        ((capSubscriptions (others all record) (record.store now)).map (·.row))) } ∧
      result = ⟨record.store now, (((capSubscriptions (others all record)
        (record.store now)).filter fun s =>
          s.endpoint = record.endpoint ∧ s.vapidPublicKey = record.vapidPublicKey).foldl
            (fun ids s => ids.set s.burrowId ()) InsertionMap.empty).keys⟩ := by
  unfold upsert at h
  cases hall : s.list with
  | error e =>
    rw [hall] at h
    cases h
  | ok all =>
    rw [hall] at h
    cases writes with
    | false => cases h
    | true =>
      obtain ⟨rfl, rfl⟩ := Prod.ext_iff.1 (Except.ok.inj h)
      exact ⟨all, rfl, rfl, rfl⟩

/-- Both caps, of the rows as the file has them. -/
def Capped (s : PushFiles) : Prop :=
  s.rows.length ≤ maxPushSubscriptionsTotal ∧
    ∀ burrowId, s.rows.countP (fun row => row.stringField (js "burrowId") = some burrowId) ≤
      maxPushSubscriptionsPerBurrow

theorem Capped.mono {s s' : PushFiles} (h : s.Capped) (hsub : s'.rows.Sublist s.rows) :
    s'.Capped :=
  ⟨Nat.le_trans hsub.length_le h.1, fun burrowId => Nat.le_trans hsub.countP_le (h.2 burrowId)⟩

theorem capped_of_rows {s : PushFiles} {subs : List StoredPushSubscription}
    (hrows : s.rows = subs.map (·.row)) (htotal : subs.length ≤ maxPushSubscriptionsTotal)
    (hburrow : ∀ burrowId, subs.countP (·.burrowId = burrowId) ≤ maxPushSubscriptionsPerBurrow) :
    s.Capped := by
  refine ⟨?_, fun burrowId => ?_⟩
  · rw [hrows, List.length_map]
    exact htotal
  · rw [hrows, List.countP_map]
    refine Nat.le_trans (Nat.le_of_eq (List.countP_congr fun sub _ => ?_)) (hburrow burrowId)
    simp only [Function.comp_apply, sub.burrowId_eq, Option.some.injEq]

theorem upsert_capped {s s' : PushFiles} {record : PushRecord} {now : Ms} {writes : Bool}
    {result : PushSubscriptionUpsertResult}
    (h : s.upsert record now writes = .ok (s', result)) : s'.Capped := by
  obtain ⟨all, -, rfl, -⟩ := upsert_eq h
  obtain ⟨-, -, -, -, -, -, htotal, hburrow⟩ :=
    capSubscriptions_spec (others all record) (record.store now)
  exact capped_of_rows rfl htotal hburrow

/-- A removal takes rows out and puts none in. -/
theorem remove_sublist {s s' : PushFiles} {all : List StoredPushSubscription}
    {p : StoredPushSubscription → Bool} {writes : Bool} {removed : Nat}
    (hall : s.list = .ok all)
    (h : (if (all.filter p).length = all.length then pure (s, 0)
      else do
        let s ← s.writeAtomic (all.filter p) writes
        pure (s, all.length - (all.filter p).length)) = Except.ok (s', removed)) :
    s'.rows.Sublist s.rows := by
  split at h
  · cases h
    exact List.Sublist.refl _
  · cases writes with
    | false => cases h
    | true =>
      cases h
      exact (List.filter_sublist.map _).trans (list_spec hall).1

theorem removeDelivery_sublist {s s' : PushFiles} {deliveryId : JsString} {writes : Bool}
    {removed : Nat} (h : s.removeDelivery deliveryId writes = .ok (s', removed)) :
    s'.rows.Sublist s.rows := by
  unfold removeDelivery at h
  cases hall : s.list with
  | error e =>
    rw [hall] at h
    cases h
  | ok all =>
    rw [hall] at h
    exact remove_sublist hall h

theorem removeEndpoints_sublist {s s' : PushFiles} {endpoints : List JsString} {writes : Bool}
    {removed : Nat} (h : s.removeEndpoints endpoints writes = .ok (s', removed)) :
    s'.rows.Sublist s.rows := by
  unfold removeEndpoints at h
  cases hall : s.list with
  | error e =>
    rw [hall] at h
    cases h
  | ok all =>
    rw [hall] at h
    exact remove_sublist hall h

/-- Once the caps hold, every mutation keeps them. -/
theorem capped_step {s s' : PushFiles} {act : PushAct} (h : s.Capped)
    (hstep : pushRuns.step s act s') : s'.Capped := by
  obtain rfl : s' = s.perform act := hstep
  cases act with
  | upsert record now writes =>
    unfold perform
    dsimp only
    cases hupsert : s.upsert record now writes with
    | error e => exact h
    | ok answer => exact upsert_capped hupsert
  | removeDelivery deliveryId writes =>
    unfold perform
    dsimp only
    cases hremove : s.removeDelivery deliveryId writes with
    | error e => exact h
    | ok answer => exact h.mono (removeDelivery_sublist hremove)
  | removeEndpoints endpoints writes =>
    unfold perform
    dsimp only
    cases hremove : s.removeEndpoints endpoints writes with
    | error e => exact h
    | ok answer => exact h.mono (removeEndpoints_sublist hremove)
  | editBurrows burrows => exact h

theorem capped_run {s s' : PushFiles} (h : s.Capped)
    (hs : (pushRuns.startingAt s).Reachable s') : s'.Capped := by
  have hinductive : (pushRuns.startingAt s).Inductive Capped :=
    ⟨fun hinit => by cases hinit; exact h, fun hcap hstep => capped_step hcap hstep⟩
  exact hinductive.reachable hs

theorem mem_keys_foldl {subs : List StoredPushSubscription} {burrowId : JsString} :
    ∀ {ids : InsertionMap JsString Unit},
      burrowId ∈ (subs.foldl (fun ids s => ids.set s.burrowId ()) ids).keys ↔
        burrowId ∈ ids.keys ∨ ∃ sub ∈ subs, sub.burrowId = burrowId := by
  induction subs with
  | nil => simp
  | cons sub subs ih =>
    intro ids
    rw [List.foldl_cons, ih, ← InsertionMap.has_iff, InsertionMap.has_set,
      InsertionMap.has_iff, List.exists_mem_cons_iff]
    tauto

/-- **What an upsert leaves**, whatever the two files hold, so after any run: the new row,
alone under its pair; no address that a row of its delivery, among those the Relay can act
on, held other than the presented one; both caps, then and ever after; every other row in
its place unless a rule displaces it; and in the answer just the Burrows that the presented
endpoint and VAPID key are registered with. -/
theorem upsert_committed {s s' : PushFiles} {record : PushRecord} {now : Ms} {writes : Bool}
    {result : PushSubscriptionUpsertResult}
    (h : s.upsert record now writes = .ok (s', result)) :
    ∃ all subs : List StoredPushSubscription, s.list = .ok all ∧
      s'.subscriptions = .holds (.array (subs.map (·.row))) ∧
      (result.subscription = record.store now ∧
        subs.filter (fun r => r.burrowId = record.burrowId ∧ r.deliveryId = record.deliveryId) =
          [record.store now]) ∧
      (∀ r ∈ subs, ∀ old ∈ all, old.deliveryId = record.deliveryId →
        old.endpoint ≠ record.endpoint → r.endpoint ≠ old.endpoint) ∧
      (∀ s'', (pushRuns.startingAt s').Reachable s'' → s''.Capped) ∧
      (∃ survivors gone, s'.rows = survivors ++ [record.toRow now] ∧
        survivors.Sublist s.rows ∧ s.rows.Perm (survivors ++ gone) ∧
        ∀ row ∈ gone, s.Displaced all record row) ∧
      result.endpointBurrowIds.Nodup ∧
      ∀ burrowId, burrowId ∈ result.endpointBurrowIds ↔
        ∃ r ∈ subs, r.burrowId = burrowId ∧ r.endpoint = record.endpoint ∧
          r.vapidPublicKey = record.vapidPublicKey := by
  have hcapped := upsert_capped h
  obtain ⟨all, hall, rfl, rfl⟩ := upsert_eq h
  obtain ⟨kept, capGone, hcap, hsub, hperm, hcause, -, -⟩ :=
    capSubscriptions_spec (others all record) (record.store now)
  obtain ⟨hlisted, unlisted, hlist, hunlisted⟩ := list_spec hall
  have hothers : ∀ r ∈ kept, r ∈ all ∧
      ¬ (r.burrowId = record.burrowId ∧ r.deliveryId = record.deliveryId) ∧
        r.endpoint ∉ replacedEndpoints all record := by
    intro r hr
    obtain ⟨hmem, hkeep⟩ := List.mem_filter.1 (hsub.subset hr)
    exact ⟨hmem, of_decide_eq_true hkeep⟩
  refine ⟨all, _, hall, rfl, ⟨rfl, ?_⟩, ?_, fun s'' hs => capped_run hcapped hs, ?_,
    InsertionMap.keys_nodup _, fun burrowId => ?_⟩
  · rw [hcap, List.filter_append, List.filter_eq_nil_iff.2]
    · simp [burrowId_store, deliveryId_store]
    · exact fun r hr hpair => (hothers r hr).2.1 (of_decide_eq_true hpair)
  · intro r hr old hold hdelivery hne heq
    have hreplaced : r.endpoint ∈ replacedEndpoints all record :=
      mem_replacedEndpoints.2 ⟨old, hold, hdelivery, hne, heq.symm⟩
    rw [hcap] at hr
    rcases List.mem_append.1 hr with hr | hr
    · exact (hothers r hr).2.2 hreplaced
    · rw [List.mem_singleton.1 hr, endpoint_store] at heq
      exact hne heq.symm
  · refine ⟨kept.map (·.row), capGone.map (·.row) ++
      (all.filter fun s => !decide (¬ (s.burrowId = record.burrowId ∧
        s.deliveryId = record.deliveryId) ∧
          s.endpoint ∉ replacedEndpoints all record)).map (·.row) ++ unlisted, ?_, ?_, ?_, ?_⟩
    · change (capSubscriptions _ _).map (·.row) = _
      rw [hcap, List.map_append]
      rfl
    · exact (hsub.map _).trans ((List.filter_sublist.map _).trans hlisted)
    · refine hlist.trans ?_
      rw [← List.append_assoc, ← List.append_assoc]
      refine List.Perm.append_right unlisted ((perm_filter _).trans (List.Perm.append_right _ ?_))
      rw [← List.map_append]
      exact hperm.map _
    · intro row hrow
      rcases List.mem_append.1 hrow with hrow | hrow
      · rcases List.mem_append.1 hrow with hrow | hrow
        · obtain ⟨sub, hsub', rfl⟩ := List.mem_map.1 hrow
          have hmem : sub ∈ others all record :=
            hperm.mem_iff.2 (List.mem_append_right _ hsub')
          have hover := hcause sub hsub'
          rw [List.length_append, List.countP_append, List.countP_singleton,
            burrowId_store] at hover
          simp only [decide_eq_true_iff] at hover
          exact .inr ⟨sub, (List.mem_filter.1 hmem).1, rfl, .inr (.inr hover)⟩
        · obtain ⟨sub, hsub', rfl⟩ := List.mem_map.1 hrow
          obtain ⟨hmem, hnot⟩ := List.mem_filter.1 hsub'
          rw [Bool.not_eq_true', decide_eq_false_iff_not, not_and_or, not_not, not_not] at hnot
          refine .inr ⟨sub, hmem, rfl, ?_⟩
          rcases hnot with hpair | hreplaced
          · exact .inl hpair
          · exact .inr (.inl hreplaced)
      · exact .inl (hunlisted row hrow)
  · rw [mem_keys_foldl]
    simp only [InsertionMap.keys, InsertionMap.empty, List.map_nil, List.not_mem_nil, false_or,
      List.mem_filter, decide_eq_true_iff]
    constructor
    · rintro ⟨r, ⟨hr, hendpoint, hvapid⟩, hburrow⟩
      exact ⟨r, hr, hburrow, hendpoint, hvapid⟩
    · rintro ⟨r, hr, hburrow, hendpoint, hvapid⟩
      exact ⟨r, ⟨hr, hendpoint, hvapid⟩, hburrow⟩

end PushFiles

/-! ### One upsert -/

namespace OneUpsert

def burrowId : JsString := js "AAAAAAAAAAAAAAAAAAAAAA"

def revokedId : JsString := js "BBBBBBBBBBBBBBBBBBBBBB"

def keys : Json := .object [(js "p256dh", .string (js "BA")), (js "auth", .string (js "AA"))]

def record (burrowId deliveryId endpoint : JsString) : PushRecord where
  burrowId := burrowId
  deliveryId := deliveryId
  endpoint := endpoint
  keys := keys
  vapidPublicKey := js "vapid"
  isKeys := rfl

/-- The first row is of a Burrow that is not enrolled any more. -/
def files : PushFiles where
  subscriptions := .holds (.array [
    (record revokedId (js "delivery-1") (js "https://push.example/old")).toRow 1,
    (record burrowId (js "delivery-2") (js "https://push.example/old")).toRow 2])
  burrows := .holds (.array [.object [(js "burrowId", .string burrowId),
    (js "burrowToken", .string (js "token")), (js "enrolledAt", .number 0)]])

def presented : PushRecord := record burrowId (js "delivery-1") (js "https://push.example/new")

end OneUpsert

/-- Moving `delivery-2` off its address replaces its row. -/
theorem PushFiles.upsert_committed_one :
    ∃ s' result, OneUpsert.files.upsert (OneUpsert.record OneUpsert.burrowId (js "delivery-2")
        (js "https://push.example/new")) 3 true = .ok (s', result) ∧
      s'.Capped ∧ result.endpointBurrowIds.Nodup := by
  have hok : (OneUpsert.files.upsert (OneUpsert.record OneUpsert.burrowId (js "delivery-2")
      (js "https://push.example/new")) 3 true).isOk = true := by decide +kernel
  cases h : OneUpsert.files.upsert (OneUpsert.record OneUpsert.burrowId (js "delivery-2")
      (js "https://push.example/new")) 3 true with
  | error e =>
    rw [h] at hok
    cases hok
  | ok answer =>
    obtain ⟨-, -, -, -, -, -, hcapped, -, hnodup, -⟩ := upsert_committed h
    exact ⟨answer.1, answer.2, rfl, hcapped _ (.start rfl), hnodup⟩

/-- A row whose Burrow is no longer enrolled is dropped before its address is read: a row with
the same address stays. -/
theorem PushFiles.unlisted_address_stays :
    ¬ ∀ (s s' : PushFiles) (record : PushRecord) (now : Ms)
      (result : PushSubscriptionUpsertResult), s.upsert record now true = .ok (s', result) →
      ∀ row ∈ s'.rows, ∀ old ∈ s.rows, isStoredPushSubscription old = true →
        old.stringField (js "deliveryId") = some record.deliveryId →
        old.stringField (js "endpoint") ≠ some record.endpoint →
        row.stringField (js "endpoint") ≠ old.stringField (js "endpoint") := by
  intro hall
  have hrows : ((OneUpsert.files.upsert OneUpsert.presented 3 true).toOption.map fun answer =>
      answer.1.rows.map fun row => row.stringField (js "endpoint")) =
        some [some (js "https://push.example/old"), some (js "https://push.example/new")] := by
    decide +kernel
  cases h : OneUpsert.files.upsert OneUpsert.presented 3 true with
  | error e =>
    rw [h] at hrows
    cases hrows
  | ok answer =>
    rw [h] at hrows
    have hendpoints : (answer.1.rows.map fun row => row.stringField (js "endpoint")) =
        [some (js "https://push.example/old"), some (js "https://push.example/new")] :=
      Option.some.inj hrows
    have hmem : some (js "https://push.example/old") ∈
        answer.1.rows.map fun row => row.stringField (js "endpoint") := by
      rw [hendpoints]
      exact List.mem_cons_self
    obtain ⟨row, hrow, hendpoint⟩ := List.mem_map.1 hmem
    refine hall _ _ _ _ _ h row hrow ((OneUpsert.record OneUpsert.revokedId (js "delivery-1")
      (js "https://push.example/old")).toRow 1) List.mem_cons_self ?_ ?_ ?_ ?_
    · exact PushRecord.isStored_toRow _ _
    · decide +kernel
    · decide +kernel
    · exact hendpoint

end Dormouse.Relay
