import Dormouse.Notepad.ArchiveModel

/-!
# Dormouse.Notepad.ArchiveMutation

**Applying an archive mutation again.** A save that meets a conflict applies its mutation to
what it then reads, which may be an archive that holds the mutation already
(`runMutation` in `archive-service.ts`).

The deletes of a mutation act on each batch alone, and its appends put new batches behind the
ones there are. The second application therefore starts from the first one's result without
the appended batches that the deletes name, and appends those again, at the end.
-/

namespace Dormouse.Notepad

/-! ### The deletes -/

namespace ArchiveMutation

/-- The deletes of `applyArchiveMutation`, batch ids first. -/
def deletes (mutation : ArchiveMutation) (batches : List ArchiveBatch) : List ArchiveBatch :=
  Notepad.deleteNotes mutation.deleteNotes
    (batches.filter fun batch => batch.id ∉ mutation.deleteBatchIds)

/-- No delete names the batch or a note of it. -/
def Spares (mutation : ArchiveMutation) (batch : ArchiveBatch) : Prop :=
  batch.id ∉ mutation.deleteBatchIds ∧
    ∀ note ∈ batch.notes, (⟨batch.id, note.id⟩ : NoteRef) ∉ mutation.deleteNotes

/-- The deletes name the batch, or every note of it. -/
def Removes (mutation : ArchiveMutation) (batch : ArchiveBatch) : Prop :=
  batch.id ∈ mutation.deleteBatchIds ∨
    ∀ note ∈ batch.notes, (⟨batch.id, note.id⟩ : NoteRef) ∈ mutation.deleteNotes

instance (mutation : ArchiveMutation) (batch : ArchiveBatch) : Decidable (mutation.Spares batch) :=
  inferInstanceAs (Decidable (_ ∧ _))

instance (mutation : ArchiveMutation) (batch : ArchiveBatch) : Decidable (mutation.Removes batch) :=
  inferInstanceAs (Decidable (_ ∨ _))

variable (mutation : ArchiveMutation)

@[simp] theorem deletes_nil : mutation.deletes [] = [] := rfl

theorem deletes_append (xs ys : List ArchiveBatch) :
    mutation.deletes (xs ++ ys) = mutation.deletes xs ++ mutation.deletes ys := by
  simp [deletes, Notepad.deleteNotes]

theorem deletes_cons (batch : ArchiveBatch) (batches : List ArchiveBatch) :
    mutation.deletes (batch :: batches) = mutation.deletes [batch] ++ mutation.deletes batches :=
  deletes_append mutation [batch] batches

/-- The notes of a batch that no delete names. -/
def spared (batch : ArchiveBatch) : List ArchivedNote :=
  batch.notes.filter fun note => (⟨batch.id, note.id⟩ : NoteRef) ∉ mutation.deleteNotes

theorem spared_unnamed {batch : ArchiveBatch}
    (hnamed : ¬ mutation.deleteNotes.any (·.batchId = batch.id) = true) :
    mutation.spared batch = batch.notes := by
  refine List.filter_eq_self.2 fun note _ => decide_eq_true fun hmem => hnamed ?_
  exact List.any_eq_true.2 ⟨_, hmem, decide_eq_true rfl⟩

/-- What the deletes leave of one batch: nothing, or the batch with its spared notes. -/
theorem deletes_singleton (batch : ArchiveBatch) :
    mutation.deletes [batch] =
      if batch.id ∈ mutation.deleteBatchIds ∨
          mutation.deleteNotes.any (·.batchId = batch.id) = true ∧ mutation.spared batch = [] then []
      else [{ batch with notes := mutation.spared batch }] := by
  by_cases hgone : batch.id ∈ mutation.deleteBatchIds
  · rw [if_pos (.inl hgone), deletes, List.filter_cons_of_neg (by simpa using hgone)]
    rfl
  have hfilter : [batch].filter (fun batch => decide (batch.id ∉ mutation.deleteBatchIds)) =
      [batch] := List.filter_cons_of_pos (p := _) (decide_eq_true hgone)
  rw [deletes, hfilter, Notepad.deleteNotes, List.flatMap_singleton]
  by_cases hnamed : mutation.deleteNotes.any (·.batchId = batch.id) = true
  · rw [if_pos hnamed]
    change (if mutation.spared batch = [] then [] else [{ batch with
      notes := mutation.spared batch }]) = _
    by_cases hempty : mutation.spared batch = []
    · rw [if_pos hempty, if_pos (.inr ⟨hnamed, hempty⟩)]
    · rw [if_neg hempty, if_neg (not_or.2 ⟨hgone, fun h => hempty h.2⟩)]
  · rw [if_neg hnamed, if_neg (not_or.2 ⟨hgone, fun h => hnamed h.1⟩),
      spared_unnamed mutation hnamed]

theorem deletes_spares {batch : ArchiveBatch} (h : mutation.Spares batch)
    (hnotes : batch.notes ≠ []) : mutation.deletes [batch] = [batch] := by
  have hall : mutation.spared batch = batch.notes :=
    List.filter_eq_self.2 fun note hnote => decide_eq_true (h.2 note hnote)
  rw [deletes_singleton, hall, if_neg (not_or.2 ⟨h.1, fun hgone => hnotes hgone.2⟩)]

theorem deletes_removes {batch : ArchiveBatch} (h : mutation.Removes batch)
    (hnotes : batch.notes ≠ []) : mutation.deletes [batch] = [] := by
  rw [deletes_singleton]
  rcases h with hid | hall
  · exact if_pos (.inl hid)
  · obtain ⟨note, hnote⟩ := List.exists_mem_of_ne_nil _ hnotes
    refine if_pos (.inr ⟨List.any_eq_true.2 ⟨_, hall note hnote, decide_eq_true rfl⟩, ?_⟩)
    exact List.filter_eq_nil_iff.2 fun note hnote => by simpa using hall note hnote

/-- A batch that the deletes leave as it is. -/
theorem spares_of_deletes {batch : ArchiveBatch} (h : mutation.deletes [batch] = [batch]) :
    mutation.Spares batch := by
  rw [deletes_singleton] at h
  split at h
  · cases h
  · next hkept =>
    have hnotes : mutation.spared batch = batch.notes :=
      congrArg ArchiveBatch.notes (List.singleton_inj.1 h)
    refine ⟨fun hid => hkept (.inl hid), fun note hnote => ?_⟩
    exact of_decide_eq_true (List.filter_eq_self.1 hnotes note hnote)

theorem removes_of_deletes {batch : ArchiveBatch} (h : mutation.deletes [batch] = []) :
    mutation.Removes batch := by
  rw [deletes_singleton] at h
  split at h
  · next hgone =>
    refine hgone.imp_right fun hempty note hnote => ?_
    simpa using List.filter_eq_nil_iff.1 hempty.2 note hnote
  · cases h

/-- The deletes, once more, find nothing. -/
theorem deletes_deletes (batches : List ArchiveBatch) :
    mutation.deletes (mutation.deletes batches) = mutation.deletes batches := by
  induction batches with
  | nil => rfl
  | cons batch batches ih =>
    rw [deletes_cons, deletes_append, ih]
    congr 1
    rw [deletes_singleton mutation batch]
    split
    · rfl
    next hkept =>
    have hagain : mutation.spared { batch with notes := mutation.spared batch } =
        mutation.spared batch := by
      change List.filter _ (List.filter _ _) = _
      rw [List.filter_filter]
      simp [spared]
    rw [deletes_singleton, hagain, if_neg hkept]

/-- The deletes leave of each batch its id and some of its notes. -/
theorem deletes_ids (batches : List ArchiveBatch) :
    ((mutation.deletes batches).map ArchiveBatch.id).Sublist (batches.map ArchiveBatch.id) := by
  induction batches with
  | nil => exact List.Sublist.refl _
  | cons batch batches ih =>
    rw [deletes_cons, deletes_singleton]
    split
    · exact ih.cons _
    · exact ih.cons_cons _

theorem deletes_noteIds (batches : List ArchiveBatch) :
    (noteIds (mutation.deletes batches)).Sublist (noteIds batches) := by
  induction batches with
  | nil => exact List.Sublist.refl _
  | cons batch batches ih =>
    rw [deletes_cons, deletes_singleton]
    split
    · exact ih.trans (List.sublist_append_right _ _)
    · exact ((List.filter_sublist (l := batch.notes)).map ArchivedNote.id).append ih

/-- Batches that the deletes leave as they are. -/
theorem spares_of_deletes_eq {batches : List ArchiveBatch}
    (h : mutation.deletes batches = batches) : ∀ batch ∈ batches, mutation.Spares batch := by
  induction batches with
  | nil => exact fun _ hmem => absurd hmem List.not_mem_nil
  | cons first batches ih =>
    have hfirst : mutation.deletes [first] = [first] ∧ mutation.deletes batches = batches := by
      rw [deletes_cons, deletes_singleton] at h
      split at h
      · have hle := (deletes_ids mutation batches).length_le
        rw [List.nil_append] at h
        rw [h, List.length_map, List.length_map, List.length_cons] at hle
        omega
      · next hkept =>
        rw [List.singleton_append, List.cons.injEq] at h
        rw [deletes_singleton, if_neg hkept]
        exact ⟨congrArg (fun batch => [batch]) h.1, h.2⟩
    intro batch hbatch
    rcases List.mem_cons.1 hbatch with rfl | hbatch
    · exact spares_of_deletes mutation hfirst.1
    · exact ih hfirst.2 batch hbatch

theorem removes_of_deletes_eq {batches : List ArchiveBatch}
    (h : mutation.deletes batches = []) : ∀ batch ∈ batches, mutation.Removes batch := by
  induction batches with
  | nil => exact fun _ hmem => absurd hmem List.not_mem_nil
  | cons first batches ih =>
    rw [deletes_cons, List.append_eq_nil_iff] at h
    intro batch hbatch
    rcases List.mem_cons.1 hbatch with rfl | hbatch
    · exact removes_of_deletes mutation h.1
    · exact ih h.2 batch hbatch

end ArchiveMutation

/-! ### The appends -/

/-- What a batch adds to the ones before it. -/
def unseen (batches : List ArchiveBatch) (batch : ArchiveBatch) : List ArchiveBatch :=
  if batch.id ∈ batches.map ArchiveBatch.id then []
  else
    let notes := batch.notes.filter fun note => note.id ∉ noteIds batches
    if notes = [] then [] else [{ batch with notes := notes }]

/-- What a list of batches to append has that `batches` does not: the batches whose id is not
there, with those of their notes that are not there, but for the ones that have no such note. -/
def newOf (batches : List ArchiveBatch) : List ArchiveBatch → List ArchiveBatch
  | [] => []
  | batch :: rest => unseen batches batch ++ newOf (batches ++ unseen batches batch) rest

theorem appendBatch_eq (batches : List ArchiveBatch) (batch : ArchiveBatch) :
    appendBatch batches batch = batches ++ unseen batches batch := by
  simp only [appendBatch, unseen]
  split
  · exact (List.append_nil _).symm
  · split
    · exact (List.append_nil _).symm
    · rfl

theorem foldl_appendBatch (batches append : List ArchiveBatch) :
    append.foldl appendBatch batches = batches ++ newOf batches append := by
  induction append generalizing batches with
  | nil => exact (List.append_nil _).symm
  | cons batch append ih =>
    rw [List.foldl_cons, ih, appendBatch_eq, newOf, List.append_assoc]

theorem noteIds_append (xs ys : List ArchiveBatch) :
    noteIds (xs ++ ys) = noteIds xs ++ noteIds ys := List.flatMap_append

/-- Nothing is unseen, or one batch under the same id with the notes that are. -/
theorem unseen_cases (batches : List ArchiveBatch) (batch : ArchiveBatch) :
    (unseen batches batch = [] ∧ (batch.id ∈ batches.map ArchiveBatch.id ∨
      ∀ note ∈ batch.notes, note.id ∈ noteIds batches)) ∨
    batch.id ∉ batches.map ArchiveBatch.id ∧ ∃ notes, notes ≠ [] ∧
      notes = batch.notes.filter (fun note => note.id ∉ noteIds batches) ∧
      unseen batches batch = [{ batch with notes := notes }] := by
  unfold unseen
  by_cases hid : batch.id ∈ batches.map ArchiveBatch.id
  · exact .inl ⟨if_pos hid, .inl hid⟩
  · rw [if_neg hid]
    by_cases hempty : batch.notes.filter (fun note => note.id ∉ noteIds batches) = []
    · refine .inl ⟨if_pos hempty, .inr fun note hnote => ?_⟩
      simpa using List.filter_eq_nil_iff.1 hempty note hnote
    · exact .inr ⟨hid, _, hempty, rfl, if_neg hempty⟩

theorem unseen_of_seen {batches : List ArchiveBatch} {batch : ArchiveBatch}
    (h : batch.id ∈ batches.map ArchiveBatch.id ∨
      ∀ note ∈ batch.notes, note.id ∈ noteIds batches) : unseen batches batch = [] := by
  rcases unseen_cases batches batch with ⟨hnone, -⟩ | ⟨hid, notes, hsome, rfl, -⟩
  · exact hnone
  · refine absurd ?_ hsome
    have hall := h.resolve_left hid
    exact List.filter_eq_nil_iff.2 fun note hnote => by simpa using hall note hnote

/-- Every new batch has a note. -/
theorem newOf_notes {batches append : List ArchiveBatch} :
    ∀ batch ∈ newOf batches append, batch.notes ≠ [] := by
  induction append generalizing batches with
  | nil => exact fun _ hmem => absurd hmem List.not_mem_nil
  | cons first append ih =>
    intro batch hbatch
    rcases List.mem_append.1 hbatch with hbatch | hbatch
    · rcases unseen_cases batches first with ⟨hnone, -⟩ | ⟨-, notes, hsome, -, hone⟩
      · rw [hnone] at hbatch
        cases hbatch
      · rw [hone, List.mem_singleton] at hbatch
        rwa [hbatch]
    · exact ih batch hbatch

/-- Appending again to an archive that holds the first of the new batches adds the others. -/
theorem newOf_again {batches append stay gone : List ArchiveBatch}
    (h : newOf batches append = stay ++ gone) : newOf (batches ++ stay) append = gone := by
  induction append generalizing batches stay with
  | nil =>
    obtain ⟨-, rfl⟩ := List.append_eq_nil_iff.1 h.symm
    rfl
  | cons batch append ih =>
    rcases unseen_cases batches batch with ⟨hnone, hseen⟩ | ⟨-, notes, -, -, hone⟩
    · have hstill : unseen (batches ++ stay) batch = [] := by
        refine unseen_of_seen (hseen.imp (fun hid => ?_) fun hall note hnote => ?_)
        · rw [List.map_append]
          exact List.mem_append_left _ hid
        · rw [noteIds_append]
          exact List.mem_append_left _ (hall note hnote)
      rw [newOf, hnone, List.append_nil] at h
      rw [newOf, hstill, List.append_nil]
      exact ih h
    · cases stay with
      | nil => rwa [List.append_nil]
      | cons first stay =>
        rw [newOf, hone, List.cons_append, List.nil_append, List.cons_append,
          List.cons.injEq] at h
        obtain ⟨rfl, h⟩ := h
        have hpresent : unseen (batches ++ { batch with notes := notes } :: stay) batch = [] :=
          unseen_of_seen (.inl (by simp))
        rw [newOf, hpresent, List.append_nil, List.nil_append]
        have hrest := ih h
        rwa [List.append_assoc] at hrest

theorem newOf_ids {batches : List ArchiveBatch} (append : List ArchiveBatch)
    (h : (batches.map ArchiveBatch.id).Nodup) :
    ((batches ++ newOf batches append).map ArchiveBatch.id).Nodup := by
  induction append generalizing batches with
  | nil => rwa [newOf, List.append_nil]
  | cons batch append ih =>
    rw [newOf, ← List.append_assoc]
    refine ih ?_
    rcases unseen_cases batches batch with ⟨hnone, -⟩ | ⟨hid, notes, -, -, hone⟩
    · rwa [hnone, List.append_nil]
    · rw [hone, List.map_append, List.nodup_append]
      refine ⟨h, List.pairwise_singleton _ _, fun id hmem id' hmem' heq => ?_⟩
      rw [List.map_singleton, List.mem_singleton] at hmem'
      exact hid (hmem' ▸ heq ▸ hmem)

/-- No stored note is new. -/
theorem newOf_unstored {batches append : List ArchiveBatch} {noteId : JsString}
    (h : noteId ∈ noteIds batches) : noteId ∉ noteIds (newOf batches append) := by
  induction append generalizing batches with
  | nil => exact List.not_mem_nil
  | cons batch append ih =>
    rw [newOf, noteIds_append, List.mem_append, not_or]
    refine ⟨?_, ih (noteIds_append _ _ ▸ List.mem_append_left _ h)⟩
    rcases unseen_cases batches batch with ⟨hnone, -⟩ | ⟨-, notes, -, rfl, hone⟩
    · rw [hnone]
      exact List.not_mem_nil
    · rw [hone]
      intro hmem
      obtain ⟨note, hnote, rfl⟩ := List.mem_map.1 (by simpa [noteIds] using hmem :
        noteId ∈ (batch.notes.filter fun note => note.id ∉ noteIds batches).map ArchivedNote.id)
      exact of_decide_eq_true (List.mem_filter.1 hnote).2 h

/-- A note that is new twice is twice in one of the batches to append. -/
theorem newOf_twice {batches append : List ArchiveBatch} {noteId : JsString}
    (h : 1 < (noteIds (newOf batches append)).count noteId) :
    ∃ batch ∈ append, 1 < (batch.notes.map ArchivedNote.id).count noteId := by
  induction append generalizing batches with
  | nil => exact absurd h (by simp [newOf, noteIds])
  | cons batch append ih =>
    rw [newOf, noteIds_append, List.count_append] at h
    by_cases hfirst : noteId ∈ noteIds (unseen batches batch)
    · have hlater : (noteIds (newOf (batches ++ unseen batches batch) append)).count noteId = 0 := by
        refine List.count_eq_zero.2 (newOf_unstored ?_)
        rw [noteIds_append]
        exact List.mem_append_right _ hfirst
      have hsub : (noteIds (unseen batches batch)).Sublist (batch.notes.map ArchivedNote.id) := by
        rcases unseen_cases batches batch with ⟨hnone, -⟩ | ⟨-, notes, -, rfl, hone⟩
        · rw [hnone]
          exact List.nil_sublist _
        · rw [hone]
          simpa [noteIds] using (List.filter_sublist (l := batch.notes)).map ArchivedNote.id
      refine ⟨batch, List.mem_cons_self, ?_⟩
      have hle := hsub.count_le noteId
      omega
    · rw [List.count_eq_zero.2 hfirst, Nat.zero_add] at h
      obtain ⟨later, hlater, htwice⟩ := ih h
      exact ⟨later, List.mem_cons_of_mem _ hlater, htwice⟩

/-! ### The mutation, applied twice -/

variable (archive : NotepadArchive) (mutation : ArchiveMutation)

theorem applyArchiveMutation_batches :
    (applyArchiveMutation archive mutation).batches = mutation.deletes archive.batches ++
      newOf (mutation.deletes archive.batches) mutation.append :=
  foldl_appendBatch _ _

/-- The deletes name each batch that the append adds as a whole or not at all, and the ones
that they do not name come first. -/
def Repeatable : Prop :=
  let added := newOf (mutation.deletes archive.batches) mutation.append
  (∀ batch ∈ added, mutation.Spares batch ∨ mutation.Removes batch) ∧
    added.Pairwise fun before after => mutation.Spares after → mutation.Spares before

instance : Decidable (Repeatable archive mutation) := inferInstanceAs (Decidable (_ ∧ _))

/-- The second application leaves the first of the added batches and appends the others. -/
theorem applyArchiveMutation_again_iff :
    applyArchiveMutation (applyArchiveMutation archive mutation) mutation =
        applyArchiveMutation archive mutation ↔
      ∃ stay gone, newOf (mutation.deletes archive.batches) mutation.append = stay ++ gone ∧
        mutation.deletes stay = stay ∧ mutation.deletes gone = [] := by
  have hbatches : applyArchiveMutation (applyArchiveMutation archive mutation) mutation =
        applyArchiveMutation archive mutation ↔
      (applyArchiveMutation (applyArchiveMutation archive mutation) mutation).batches =
        (applyArchiveMutation archive mutation).batches :=
    ⟨congrArg _, fun h => by
      cases hx : applyArchiveMutation (applyArchiveMutation archive mutation) mutation
      cases hy : applyArchiveMutation archive mutation
      rw [hy] at h hx
      rw [hx] at h
      exact congrArg NotepadArchive.mk h⟩
  rw [hbatches, applyArchiveMutation_batches, applyArchiveMutation_batches,
    ArchiveMutation.deletes_append, ArchiveMutation.deletes_deletes, List.append_assoc,
    List.append_cancel_left_eq]
  generalize mutation.deletes archive.batches = kept
  generalize hadded : newOf kept mutation.append = added
  constructor
  · intro h
    refine ⟨mutation.deletes added, newOf (kept ++ mutation.deletes added) mutation.append,
      h.symm, ArchiveMutation.deletes_deletes _ _, ?_⟩
    have hagain := congrArg mutation.deletes h
    rw [ArchiveMutation.deletes_append, ArchiveMutation.deletes_deletes] at hagain
    exact List.append_right_eq_self.1 hagain
  · rintro ⟨stay, gone, rfl, hstay, hgone⟩
    rw [ArchiveMutation.deletes_append, hstay, hgone, List.append_nil, newOf_again hadded]

/-- Batches of which the deletes name each as a whole or not at all, those last. -/
theorem split_iff {added : List ArchiveBatch} (hnotes : ∀ batch ∈ added, batch.notes ≠ []) :
    ((∀ batch ∈ added, mutation.Spares batch ∨ mutation.Removes batch) ∧
        added.Pairwise fun before after => mutation.Spares after → mutation.Spares before) ↔
      ∃ stay gone, added = stay ++ gone ∧ mutation.deletes stay = stay ∧
        mutation.deletes gone = [] := by
  constructor
  · rintro ⟨hwhole, horder⟩
    induction added with
    | nil => exact ⟨[], [], rfl, rfl, rfl⟩
    | cons batch added ih =>
      obtain ⟨hfirst, horder⟩ := List.pairwise_cons.1 horder
      obtain ⟨stay, gone, rfl, hstay, hgone⟩ :=
        ih (fun b hb => hnotes b (List.mem_cons_of_mem _ hb))
          (fun b hb => hwhole b (List.mem_cons_of_mem _ hb)) horder
      have hsome := hnotes batch List.mem_cons_self
      by_cases hspares : mutation.Spares batch
      · refine ⟨batch :: stay, gone, rfl, ?_, hgone⟩
        rw [ArchiveMutation.deletes_cons, mutation.deletes_spares hspares hsome, hstay]
        rfl
      -- A batch that goes lets no later one stay.
      have hnone : stay = [] := by
        refine List.eq_nil_iff_forall_not_mem.2 fun b hb => hspares ?_
        exact hfirst b (List.mem_append_left _ hb)
          (mutation.spares_of_deletes_eq hstay b hb)
      refine ⟨[], batch :: gone, by rw [hnone]; rfl, rfl, ?_⟩
      have hremoves := (hwhole batch List.mem_cons_self).resolve_left hspares
      rw [ArchiveMutation.deletes_cons, mutation.deletes_removes hremoves hsome, hgone]
      rfl
  · rintro ⟨stay, gone, rfl, hstay, hgone⟩
    have hspares := mutation.spares_of_deletes_eq hstay
    have hremoves := mutation.removes_of_deletes_eq hgone
    refine ⟨fun batch hbatch => ?_, ?_⟩
    · exact (List.mem_append.1 hbatch).imp (hspares batch) (hremoves batch)
    · refine List.pairwise_append.2 ⟨?_, ?_, fun b hb _ _ _ => hspares b hb⟩
      · exact List.pairwise_of_forall_mem_list fun b hb _ _ _ => hspares b hb
      · refine List.pairwise_of_forall_mem_list fun _ _ b hb hspared => ?_
        have hsome := hnotes b (List.mem_append_right _ hb)
        have heq := mutation.deletes_spares hspared hsome
        rw [mutation.deletes_removes (hremoves b hb) hsome] at heq
        cases heq

/-- No note is stored twice but one that the archive stored twice already, or that one of the
batches to append has twice. -/
theorem noteIds_applyArchiveMutation {noteId : JsString}
    (h : 1 < (noteIds (applyArchiveMutation archive mutation).batches).count noteId) :
    1 < (noteIds archive.batches).count noteId ∨
      ∃ batch ∈ mutation.append, 1 < (batch.notes.map ArchivedNote.id).count noteId := by
  rw [applyArchiveMutation_batches, noteIds_append, List.count_append] at h
  by_cases hstored : noteId ∈ noteIds (mutation.deletes archive.batches)
  · rw [List.count_eq_zero.2 (newOf_unstored hstored), Nat.add_zero] at h
    exact .inl (Nat.lt_of_lt_of_le h ((mutation.deletes_noteIds archive.batches).count_le noteId))
  · rw [List.count_eq_zero.2 hstored, Nat.zero_add] at h
    exact .inr (newOf_twice h)

theorem ids_applyArchiveMutation (h : (archive.batches.map ArchiveBatch.id).Nodup) :
    ((applyArchiveMutation archive mutation).batches.map ArchiveBatch.id).Nodup := by
  rw [applyArchiveMutation_batches]
  exact newOf_ids _ (h.sublist (mutation.deletes_ids archive.batches))

/-- Applying a mutation twice is applying it once exactly when it is repeatable; that batch ids
stay unique, and notes too, does not depend on it. -/
theorem applyArchiveMutation_idempotent_iff
    (hids : (archive.batches.map ArchiveBatch.id).Nodup) :
    (applyArchiveMutation (applyArchiveMutation archive mutation) mutation =
        applyArchiveMutation archive mutation ∧
      ((applyArchiveMutation archive mutation).batches.map ArchiveBatch.id).Nodup ∧
      ∀ noteId, 1 < (noteIds (applyArchiveMutation archive mutation).batches).count noteId →
        1 < (noteIds archive.batches).count noteId ∨
          ∃ batch ∈ mutation.append, 1 < (batch.notes.map ArchivedNote.id).count noteId) ↔
      Repeatable archive mutation := by
  rw [and_iff_left ⟨ids_applyArchiveMutation archive mutation hids,
      fun _ => noteIds_applyArchiveMutation archive mutation⟩,
    applyArchiveMutation_again_iff, Repeatable, split_iff mutation newOf_notes]

/-- A batch with one note. -/
def oneNote (id : JsString) (noteId : JsString) : ArchiveBatch where
  id := id
  closedAt := 0
  surfaceTitle := js "shell"
  surfaceKind := .terminal
  cwd := none
  notes := [⟨noteId, 0, .plain (js "text")⟩]

/-- A closure's replacement of the batch of an earlier attempt. -/
theorem applyArchiveMutation_idempotent_replacing :
    applyArchiveMutation (applyArchiveMutation ⟨[oneNote (js "a") (js "1")]⟩
        ⟨[oneNote (js "a") (js "2")], [js "a"], []⟩) ⟨[oneNote (js "a") (js "2")], [js "a"], []⟩ =
      applyArchiveMutation ⟨[oneNote (js "a") (js "1")]⟩
        ⟨[oneNote (js "a") (js "2")], [js "a"], []⟩ :=
  ((applyArchiveMutation_idempotent_iff ⟨[oneNote (js "a") (js "1")]⟩
    ⟨[oneNote (js "a") (js "2")], [js "a"], []⟩ (by decide)).2 (by decide)).1

/-- A batch that is replaced goes behind one that is only appended. -/
theorem applyArchiveMutation_reorders :
    (applyArchiveMutation emptyArchive
        ⟨[oneNote (js "a") (js "1"), oneNote (js "b") (js "2")], [js "a"], []⟩).batches =
      [oneNote (js "a") (js "1"), oneNote (js "b") (js "2")] ∧
    (applyArchiveMutation (applyArchiveMutation emptyArchive
        ⟨[oneNote (js "a") (js "1"), oneNote (js "b") (js "2")], [js "a"], []⟩)
        ⟨[oneNote (js "a") (js "1"), oneNote (js "b") (js "2")], [js "a"], []⟩).batches =
      [oneNote (js "b") (js "2"), oneNote (js "a") (js "1")] := by
  decide

/-! ### The mutations that hosts make -/

/-- A mutation that only deletes. -/
theorem repeatable_deletes (h : mutation.append = []) : Repeatable archive mutation := by
  rw [Repeatable, h]
  exact ⟨fun _ hmem => absurd hmem List.not_mem_nil, List.Pairwise.nil⟩

/-- A mutation that only appends. -/
theorem repeatable_appends (hids : mutation.deleteBatchIds = [])
    (hnotes : mutation.deleteNotes = []) : Repeatable archive mutation := by
  have hall : ∀ batch, mutation.Spares batch := by
    intro batch
    rw [ArchiveMutation.Spares, hids, hnotes]
    exact ⟨List.not_mem_nil, fun _ _ => List.not_mem_nil⟩
  exact ⟨fun batch _ => .inl (hall batch), List.pairwise_of_forall fun _ _ _ => hall _⟩

/-- A mutation that replaces one batch by one of the same id. -/
theorem repeatable_replaces {batch : ArchiveBatch} (happend : mutation.append = [batch])
    (hid : batch.id ∈ mutation.deleteBatchIds) : Repeatable archive mutation := by
  rw [Repeatable, happend, newOf, newOf, List.append_nil]
  rcases unseen_cases (mutation.deletes archive.batches) batch with
    ⟨hnone, -⟩ | ⟨-, notes, -, -, hone⟩
  · rw [hnone]
    exact ⟨fun _ hmem => absurd hmem List.not_mem_nil, List.Pairwise.nil⟩
  · rw [hone]
    refine ⟨fun added hadded => .inr (.inl ?_), List.pairwise_singleton _ _⟩
    rwa [List.mem_singleton.1 hadded]

end Dormouse.Notepad
