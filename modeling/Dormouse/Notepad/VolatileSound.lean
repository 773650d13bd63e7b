import Mathlib.Data.List.Induction
import Dormouse.Notepad.Volatile

/-!
# Dormouse.Notepad.VolatileSound

**What becomes of a Surface in the volatile mirror**, over every run of calls.

The mirror refines one slot a Surface: empty, or the router that reported the Surface last with
what it reported. A run of calls is then followed on the slot alone.
-/

namespace Dormouse.Notepad

/-! ### The slot of a Surface -/

/-- What a snapshot reports of a Surface: the last of the entries that are let in. -/
def reportOf (snapshot : Json) (id : JsString) : Option VolatileSurfaceNotes :=
  ((acceptedSurfaces snapshot).filter fun surface => surface.surfaceId = id).getLast?

namespace MirrorCall

/-- The call is a snapshot that reports the Surface. -/
def Reports (id : JsString) : MirrorCall → Prop
  | .setVolatileForRouter _ snapshot => (reportOf snapshot id).isSome
  | _ => False

/-- The call is a snapshot of this router that does not report the Surface. -/
def Retires (routerId id : JsString) : MirrorCall → Prop
  | .setVolatileForRouter sender snapshot => sender = routerId ∧ reportOf snapshot id = none
  | _ => False

/-- The call takes the Surface out, if it is this router's. -/
def Takes (routerId id : JsString) : MirrorCall → Prop
  | .takeVolatileForSurfaces ids => id ∈ ids
  | .takeVolatileForRouter drained => drained = routerId
  | .takeAllVolatile => True
  | _ => False

/-- A snapshot or a disposal of this router. -/
def By (routerId : JsString) : MirrorCall → Prop
  | .setVolatileForRouter sender _ => sender = routerId
  | .takeVolatileForRouter drained => drained = routerId
  | .takeStagedForRouter drained => drained = routerId
  | _ => False

end MirrorCall

/-- What a call makes of the slot. -/
def slotAfter (id : JsString) (slot : Option (JsString × VolatileSurfaceNotes)) :
    MirrorCall → Option (JsString × VolatileSurfaceNotes)
  | .setVolatileForRouter routerId snapshot =>
    match reportOf snapshot id with
    | some surface => some (routerId, surface)
    | none => slot.filter fun held => held.1 ≠ routerId
  | .takeVolatileForSurfaces ids => if id ∈ ids then none else slot
  | .takeVolatileForRouter routerId => slot.filter fun held => held.1 ≠ routerId
  | .takeAllVolatile => none
  | .takeStagedForRouter _ => slot
  | .snapshotForLiveResume _ => slot

theorem slotAfter_of_report {id : JsString} {slot : Option (JsString × VolatileSurfaceNotes)}
    {routerId : JsString} {snapshot : Json} {surface : VolatileSurfaceNotes}
    (h : reportOf snapshot id = some surface) :
    slotAfter id slot (.setVolatileForRouter routerId snapshot) = some (routerId, surface) := by
  simp only [slotAfter, h]

/-- A slot is left alone by what neither reports its Surface nor retires or takes it. -/
theorem slotAfter_of_idle {id routerId : JsString} {surface : VolatileSurfaceNotes}
    {call : MirrorCall} (hreports : ¬call.Reports id) (hretires : ¬call.Retires routerId id)
    (htakes : ¬call.Takes routerId id) :
    slotAfter id (some (routerId, surface)) call = some (routerId, surface) := by
  cases call with
  | setVolatileForRouter sender snapshot =>
    have hnone : reportOf snapshot id = none := by
      simpa [MirrorCall.Reports] using hreports
    have hne : routerId ≠ sender := fun heq => hretires ⟨heq.symm, hnone⟩
    simp [slotAfter, hnone, hne]
  | takeVolatileForSurfaces ids => exact if_neg htakes
  | takeVolatileForRouter drained =>
    have hne : routerId ≠ drained := fun heq => htakes heq.symm
    simp [slotAfter, hne]
  | takeAllVolatile => exact absurd trivial htakes
  | takeStagedForRouter _ => rfl
  | snapshotForLiveResume _ => rfl

/-- What is held was held, or the call reports it. -/
theorem slotAfter_cases {id : JsString} {slot : Option (JsString × VolatileSurfaceNotes)}
    {call : MirrorCall} {held : JsString × VolatileSurfaceNotes}
    (h : slotAfter id slot call = some held) :
    slot = some held ∧ ¬call.Reports id ∨
      ∃ snapshot, call = .setVolatileForRouter held.1 snapshot ∧ reportOf snapshot id = some held.2 := by
  cases call with
  | setVolatileForRouter routerId snapshot =>
    cases hreport : reportOf snapshot id with
    | some surface =>
      rw [slotAfter_of_report hreport] at h
      cases h
      exact .inr ⟨snapshot, rfl, hreport⟩
    | none =>
      simp only [slotAfter, hreport, Option.filter_eq_some_iff] at h
      exact .inl ⟨h.1, by simp [MirrorCall.Reports, hreport]⟩
  | takeVolatileForSurfaces ids =>
    rw [slotAfter] at h
    split at h
    · cases h
    · exact .inl ⟨h, not_false⟩
  | takeVolatileForRouter routerId =>
    rw [slotAfter, Option.filter_eq_some_iff] at h
    exact .inl ⟨h.1, not_false⟩
  | takeAllVolatile => cases h
  | takeStagedForRouter _ => exact .inl ⟨h, not_false⟩
  | snapshotForLiveResume _ => exact .inl ⟨h, not_false⟩

/-! ### The mirror refines its slots -/

namespace VolatileMirror

variable {mirror : VolatileMirror}

/-- What is held of a Surface. -/
def slot (mirror : VolatileMirror) (id : JsString) : Option (JsString × VolatileSurfaceNotes) :=
  (mirror.surfaceOwner.get id).bind fun owner => (mirror.mirroredSurfaces.get id).map (owner, ·)

/-- Both tables hold the same Surfaces, in one order, each under its own id. -/
structure Tidy (mirror : VolatileMirror) : Prop where
  keys : mirror.mirroredSurfaces.keys = mirror.surfaceOwner.keys
  named : ∀ id surface, mirror.mirroredSurfaces.get id = some surface → surface.surfaceId = id

theorem tidy_fresh : fresh.Tidy := ⟨rfl, fun _ _ hget => by cases hget⟩

theorem Tidy.owned (h : mirror.Tidy) {id : JsString} {surface : VolatileSurfaceNotes}
    (hsurface : mirror.mirroredSurfaces.get id = some surface) :
    ∃ owner, mirror.slot id = some (owner, surface) := by
  have hhas : mirror.surfaceOwner.has id = true := by
    rw [InsertionMap.has_iff, ← h.keys, ← InsertionMap.has_iff, InsertionMap.has, hsurface]
    rfl
  obtain ⟨owner, howner⟩ := Option.isSome_iff_exists.1 hhas
  exact ⟨owner, by rw [slot, howner, hsurface]; rfl⟩

theorem get_of_slot {id : JsString} {held : JsString × VolatileSurfaceNotes}
    (h : mirror.slot id = some held) :
    mirror.surfaceOwner.get id = some held.1 ∧ mirror.mirroredSurfaces.get id = some held.2 := by
  obtain ⟨owner, howner, hmap⟩ := Option.bind_eq_some_iff.1 h
  obtain ⟨surface, hsurface, rfl⟩ := Option.map_eq_some_iff.1 hmap
  exact ⟨howner, hsurface⟩

theorem Tidy.slot_eq_none (h : mirror.Tidy) {id : JsString} :
    mirror.slot id = none ↔ mirror.mirroredSurfaces.get id = none := by
  constructor
  · intro hslot
    cases hsurface : mirror.mirroredSurfaces.get id with
    | none => rfl
    | some surface =>
      obtain ⟨owner, howned⟩ := h.owned hsurface
      rw [howned] at hslot
      cases hslot
  · intro hsurface
    cases howner : mirror.surfaceOwner.get id <;> simp [slot, howner, hsurface]

/-! ### Forgetting and keeping -/

theorem slot_forget (mirror : VolatileMirror) (gone id : JsString) :
    (mirror.forget gone).slot id = if gone = id then none else mirror.slot id := by
  by_cases h : gone = id <;> simp [slot, forget, InsertionMap.get_delete, h]

theorem Tidy.forget (h : mirror.Tidy) (gone : JsString) : (mirror.forget gone).Tidy where
  keys := by
    show (mirror.mirroredSurfaces.delete gone).keys = (mirror.surfaceOwner.delete gone).keys
    rw [InsertionMap.keys_delete, InsertionMap.keys_delete, h.keys]
  named := by
    intro id surface hget
    have hdelete : (mirror.mirroredSurfaces.delete gone).get id = some surface := hget
    exact h.named id surface (InsertionMap.get_of_delete hdelete).2

theorem Tidy.foldl_forget (h : mirror.Tidy) (gone : List JsString) :
    (gone.foldl VolatileMirror.forget mirror).Tidy := by
  induction gone generalizing mirror with
  | nil => exact h
  | cons id gone ih => exact ih (h.forget id)

theorem slot_foldl_forget (mirror : VolatileMirror) (gone : List JsString) (id : JsString) :
    (gone.foldl VolatileMirror.forget mirror).slot id = if id ∈ gone then none else mirror.slot id := by
  induction gone generalizing mirror with
  | nil => rfl
  | cons first gone ih =>
    rw [List.foldl_cons, ih, slot_forget]
    by_cases h : first = id
    · simp [h]
    · simp [h, Ne.symm h]

theorem slot_keep (mirror : VolatileMirror) (routerId : JsString) (surface : VolatileSurfaceNotes)
    (id : JsString) :
    (mirror.keep routerId surface).slot id =
      if surface.surfaceId = id then some (routerId, surface) else mirror.slot id := by
  by_cases h : surface.surfaceId = id <;> simp [slot, keep, InsertionMap.get_set, h]

theorem Tidy.keep (h : mirror.Tidy) (routerId : JsString) (surface : VolatileSurfaceNotes) :
    (mirror.keep routerId surface).Tidy where
  keys := by
    have hkeys : mirror.mirroredSurfaces.entries.map Prod.fst =
      mirror.surfaceOwner.entries.map Prod.fst := h.keys
    show (InsertionMap.setEntry surface.surfaceId surface mirror.mirroredSurfaces.entries).map Prod.fst =
      (InsertionMap.setEntry surface.surfaceId routerId mirror.surfaceOwner.entries).map Prod.fst
    rw [InsertionMap.keys_setEntry, InsertionMap.keys_setEntry, hkeys]
  named := by
    intro id other hget
    have hset : (mirror.mirroredSurfaces.set surface.surfaceId surface).get id = some other := hget
    rcases InsertionMap.get_of_set hset with ⟨hid, rfl⟩ | ⟨-, hset⟩
    · exact hid
    · exact h.named id other hset

theorem Tidy.foldl_keep (h : mirror.Tidy) (routerId : JsString)
    (surfaces : List VolatileSurfaceNotes) :
    (surfaces.foldl (VolatileMirror.keep routerId) mirror).Tidy := by
  induction surfaces generalizing mirror with
  | nil => exact h
  | cons surface surfaces ih => exact ih (h.keep routerId surface)

/-- The last entry of a Surface is the one that stands. -/
theorem slot_foldl_keep (mirror : VolatileMirror) (routerId : JsString)
    (surfaces : List VolatileSurfaceNotes) (id : JsString) :
    (surfaces.foldl (VolatileMirror.keep routerId) mirror).slot id =
      match (surfaces.filter fun surface => surface.surfaceId = id).getLast? with
      | some surface => some (routerId, surface)
      | none => mirror.slot id := by
  induction surfaces using List.reverseRecOn with
  | nil => rfl
  | append_singleton surfaces surface ih =>
    rw [List.foldl_append, List.foldl_cons, List.foldl_nil, slot_keep, ih, List.filter_append]
    by_cases h : surface.surfaceId = id
    · simp [h]
    · simp [h]

/-! ### The calls -/

theorem mem_surfaceIdsForRouter {routerId id : JsString} :
    id ∈ mirror.surfaceIdsForRouter routerId ↔ mirror.surfaceOwner.get id = some routerId := by
  rw [surfaceIdsForRouter, InsertionMap.get_eq_some, List.mem_map]
  constructor
  · intro h
    obtain ⟨e, he, rfl⟩ := h
    obtain ⟨hmem, howner⟩ := List.mem_filter.1 he
    rw [decide_eq_true_eq] at howner
    exact howner ▸ hmem
  · intro h
    exact ⟨(id, routerId), List.mem_filter.2 ⟨h, decide_eq_true rfl⟩, rfl⟩

/-- Of the Surfaces of one router, the slots of that router are emptied. -/
theorem ite_owned_eq_filter (mirror : VolatileMirror) (routerId id : JsString) :
    (if id ∈ mirror.surfaceIdsForRouter routerId then none else mirror.slot id) =
      (mirror.slot id).filter fun held => held.1 ≠ routerId := by
  rcases hslot : mirror.slot id with _ | held
  · simp
  have howner := (get_of_slot hslot).1
  by_cases heq : held.1 = routerId
  · rw [if_pos (mem_surfaceIdsForRouter.2 (heq ▸ howner)), Option.filter_some,
      if_neg (by simpa using heq)]
  · rw [if_neg fun hmem => heq (Option.some.inj
      (howner.symm.trans (mem_surfaceIdsForRouter.1 hmem))), Option.filter_some,
      if_pos (decide_eq_true heq)]

theorem Tidy.setVolatileForRouter (h : mirror.Tidy) (routerId : JsString) (snapshot : Json) :
    (mirror.setVolatileForRouter routerId snapshot).Tidy := by
  have hretired := h.foldl_forget ((mirror.surfaceIdsForRouter routerId).filter fun id =>
    id ∉ (acceptedSurfaces snapshot).map VolatileSurfaceNotes.surfaceId)
  have hkept := hretired.foldl_keep routerId (acceptedSurfaces snapshot)
  exact ⟨hkept.keys, hkept.named⟩

/-- A snapshot puts its report in the slot; without one, the slot of its router is emptied. -/
theorem slot_setVolatileForRouter (mirror : VolatileMirror) (routerId : JsString)
    (snapshot : Json) (id : JsString) :
    (mirror.setVolatileForRouter routerId snapshot).slot id =
      slotAfter id (mirror.slot id) (.setVolatileForRouter routerId snapshot) := by
  have hset : (mirror.setVolatileForRouter routerId snapshot).slot id =
      match reportOf snapshot id with
      | some surface => some (routerId, surface)
      | none => (((mirror.surfaceIdsForRouter routerId).filter fun id =>
        id ∉ (acceptedSurfaces snapshot).map VolatileSurfaceNotes.surfaceId).foldl
          VolatileMirror.forget mirror).slot id :=
    slot_foldl_keep _ routerId (acceptedSurfaces snapshot) id
  rw [hset, slotAfter]
  cases hreport : reportOf snapshot id with
  | some surface => rfl
  | none =>
    have hnot : id ∉ (acceptedSurfaces snapshot).map VolatileSurfaceNotes.surfaceId := by
      intro hmem
      obtain ⟨surface, hsurface, hid⟩ := List.mem_map.1 hmem
      have hnil := List.filter_eq_nil_iff.1 (List.getLast?_eq_none_iff.1 hreport) surface hsurface
      exact hnil (decide_eq_true hid)
    rw [slot_foldl_forget, ← ite_owned_eq_filter]
    simp only [List.mem_filter, hnot, not_false_eq_true, decide_true, and_true]

theorem Tidy.takeVolatileForSurfaces (h : mirror.Tidy) (ids : List JsString) :
    (mirror.takeVolatileForSurfaces ids).1.Tidy := by
  induction ids generalizing mirror with
  | nil => exact h
  | cons id ids ih =>
    rw [VolatileMirror.takeVolatileForSurfaces]
    split
    · exact ih h
    · exact ih (h.forget id)

theorem Tidy.slot_takeVolatileForSurfaces (h : mirror.Tidy) (ids : List JsString) (id : JsString) :
    (mirror.takeVolatileForSurfaces ids).1.slot id = if id ∈ ids then none else mirror.slot id := by
  induction ids generalizing mirror with
  | nil => rfl
  | cons first ids ih =>
    rw [VolatileMirror.takeVolatileForSurfaces]
    split
    · rename_i hnone
      rw [ih h]
      by_cases heq : first = id
      · have hslot := h.slot_eq_none.2 hnone
        rw [heq] at hslot
        simp [heq, hslot]
      · simp [Ne.symm heq]
    · dsimp only
      rw [ih (h.forget first), slot_forget]
      by_cases heq : first = id
      · simp [heq]
      · simp [heq, Ne.symm heq]

/-- What a take returns: what was held of the Surfaces, each once. -/
theorem Tidy.mem_takeVolatileForSurfaces (h : mirror.Tidy) (ids : List JsString)
    {surface : VolatileSurfaceNotes} (hmem : surface ∈ (mirror.takeVolatileForSurfaces ids).2) :
    surface.surfaceId ∈ ids ∧ mirror.mirroredSurfaces.get surface.surfaceId = some surface := by
  induction ids generalizing mirror with
  | nil => cases hmem
  | cons id ids ih =>
    rw [VolatileMirror.takeVolatileForSurfaces] at hmem
    split at hmem
    · obtain ⟨hids, hget⟩ := ih h hmem
      exact ⟨List.mem_cons_of_mem _ hids, hget⟩
    rename_i held hget
    rcases List.mem_cons.1 hmem with heq | hrest
    · rw [heq, h.named id held hget]
      exact ⟨List.mem_cons_self, hget⟩
    obtain ⟨hids, hrestGet⟩ := ih (h.forget id) hrest
    have hdelete : (mirror.mirroredSurfaces.delete id).get surface.surfaceId = some surface :=
      hrestGet
    exact ⟨List.mem_cons_of_mem _ hids, (InsertionMap.get_of_delete hdelete).2⟩

theorem Tidy.nodup_takeVolatileForSurfaces (h : mirror.Tidy) (ids : List JsString) :
    ((mirror.takeVolatileForSurfaces ids).2.map VolatileSurfaceNotes.surfaceId).Nodup := by
  induction ids generalizing mirror with
  | nil => exact List.nodup_nil
  | cons id ids ih =>
    rw [VolatileMirror.takeVolatileForSurfaces]
    split
    · exact ih h
    rename_i held hget
    rw [List.map_cons, List.nodup_cons]
    refine ⟨fun hmem => ?_, ih (h.forget id)⟩
    -- The Surface is gone by then.
    obtain ⟨surface, hsurface, hid⟩ := List.mem_map.1 hmem
    obtain ⟨-, hdelete⟩ := (h.forget id).mem_takeVolatileForSurfaces ids hsurface
    rw [hid, h.named id held hget] at hdelete
    have hself : (mirror.mirroredSurfaces.delete id).get id = some surface := hdelete
    rw [InsertionMap.get_delete_self] at hself
    cases hself

theorem Tidy.answer (h : mirror.Tidy) (call : MirrorCall) : (mirror.answer call).1.Tidy := by
  cases call with
  | setVolatileForRouter routerId snapshot => exact h.setVolatileForRouter routerId snapshot
  | takeVolatileForSurfaces ids => exact h.takeVolatileForSurfaces ids
  | takeVolatileForRouter routerId =>
    have htaken := h.takeVolatileForSurfaces (mirror.surfaceIdsForRouter routerId)
    exact ⟨htaken.keys, htaken.named⟩
  | takeStagedForRouter _ => exact ⟨h.keys, h.named⟩
  | takeAllVolatile => exact tidy_fresh
  | snapshotForLiveResume _ => exact h

/-- **The mirror refines its slots**: one call does to each what `slotAfter` says. -/
theorem Tidy.slot_answer (h : mirror.Tidy) (call : MirrorCall) (id : JsString) :
    (mirror.answer call).1.slot id = slotAfter id (mirror.slot id) call := by
  cases call with
  | setVolatileForRouter routerId snapshot => exact slot_setVolatileForRouter mirror routerId snapshot id
  | takeVolatileForSurfaces ids => exact h.slot_takeVolatileForSurfaces ids id
  | takeVolatileForRouter routerId =>
    exact (h.slot_takeVolatileForSurfaces _ id).trans (ite_owned_eq_filter mirror routerId id)
  | takeStagedForRouter _ => rfl
  | takeAllVolatile => rfl
  | snapshotForLiveResume _ => rfl

/-- What a call takes out was held, and is not held after it. -/
theorem Tidy.taken (h : mirror.Tidy) {call : MirrorCall} {surface : VolatileSurfaceNotes}
    (hmem : surface ∈ (mirror.answer call).2) :
    mirror.mirroredSurfaces.get surface.surfaceId = some surface ∧
      (mirror.answer call).1.slot surface.surfaceId = none := by
  cases call with
  | setVolatileForRouter _ _ => cases hmem
  | takeVolatileForSurfaces ids =>
    obtain ⟨hids, hget⟩ := h.mem_takeVolatileForSurfaces ids hmem
    exact ⟨hget, (h.slot_takeVolatileForSurfaces ids _).trans (if_pos hids)⟩
  | takeVolatileForRouter routerId =>
    obtain ⟨hids, hget⟩ := h.mem_takeVolatileForSurfaces _ hmem
    exact ⟨hget, (h.slot_takeVolatileForSurfaces _ _).trans (if_pos hids)⟩
  | takeStagedForRouter _ => cases hmem
  | takeAllVolatile =>
    obtain ⟨id, hget⟩ := InsertionMap.get_of_mem_values hmem
    rw [h.named id surface hget]
    exact ⟨hget, rfl⟩
  | snapshotForLiveResume _ => cases hmem

theorem Tidy.nodup_taken (h : mirror.Tidy) (call : MirrorCall) :
    ((mirror.answer call).2.map VolatileSurfaceNotes.surfaceId).Nodup := by
  cases call with
  | setVolatileForRouter _ _ => exact List.nodup_nil
  | takeVolatileForSurfaces ids => exact h.nodup_takeVolatileForSurfaces ids
  | takeVolatileForRouter _ => exact h.nodup_takeVolatileForSurfaces _
  | takeStagedForRouter _ => exact List.nodup_nil
  | takeAllVolatile =>
    have hnamed : mirror.mirroredSurfaces.values.map VolatileSurfaceNotes.surfaceId =
        mirror.mirroredSurfaces.keys := by
      rw [InsertionMap.values, InsertionMap.keys, List.map_map]
      exact List.map_congr_left fun e he => h.named e.1 e.2 (InsertionMap.get_eq_some.2 he)
    show (mirror.mirroredSurfaces.values.map VolatileSurfaceNotes.surfaceId).Nodup
    rw [hnamed]
    exact mirror.mirroredSurfaces.keys_nodup
  | snapshotForLiveResume _ => exact List.nodup_nil

end VolatileMirror

/-! ### Runs -/

theorem mirrorAfter_concat (calls : List MirrorCall) (call : MirrorCall) :
    mirrorAfter (calls ++ [call]) = ((mirrorAfter calls).answer call).1 := by
  rw [mirrorAfter, List.foldl_append, List.foldl_cons, List.foldl_nil, mirrorAfter]

/-- A snapshot takes nothing out. -/
theorem takenBy_setVolatileForRouter (calls : List MirrorCall) (routerId : JsString)
    (snapshot : Json) : takenBy calls (.setVolatileForRouter routerId snapshot) = [] := rfl

theorem tidy_mirrorAfter (calls : List MirrorCall) : (mirrorAfter calls).Tidy := by
  induction calls using List.reverseRecOn with
  | nil => exact VolatileMirror.tidy_fresh
  | append_singleton calls call ih =>
    rw [mirrorAfter_concat]
    exact ih.answer call

theorem slot_mirrorAfter_concat (calls : List MirrorCall) (call : MirrorCall) (id : JsString) :
    (mirrorAfter (calls ++ [call])).slot id = slotAfter id ((mirrorAfter calls).slot id) call := by
  rw [mirrorAfter_concat]
  exact (tidy_mirrorAfter calls).slot_answer call id

/-- A report stays in its slot over calls that leave the slot alone. -/
theorem slot_of_report {before later : List MirrorCall} {routerId id : JsString} {snapshot : Json}
    {surface : VolatileSurfaceNotes} (hreport : reportOf snapshot id = some surface)
    (hidle : ∀ call ∈ later, ¬call.Reports id ∧ ¬call.Retires routerId id ∧ ¬call.Takes routerId id) :
    (mirrorAfter (before ++ .setVolatileForRouter routerId snapshot :: later)).slot id =
      some (routerId, surface) := by
  induction later using List.reverseRecOn with
  | nil => rw [slot_mirrorAfter_concat, slotAfter_of_report hreport]
  | append_singleton later call ih =>
    obtain ⟨hreports, hretires, htakes⟩ := hidle call (by simp)
    rw [← List.cons_append, ← List.append_assoc, slot_mirrorAfter_concat,
      ih fun c hc => hidle c (List.mem_append_left _ hc),
      slotAfter_of_idle hreports hretires htakes]

/-- The report that a take is of: since then, the Surface was neither reported nor taken. -/
def LatestUntaken (calls : List MirrorCall) (routerId id : JsString)
    (surface : VolatileSurfaceNotes) : Prop :=
  ∃ before snapshot later, calls = before ++ .setVolatileForRouter routerId snapshot :: later ∧
    reportOf snapshot id = some surface ∧
    ∀ mid call rest, later = mid ++ call :: rest → ¬call.Reports id ∧
      ∀ taken ∈ takenBy (before ++ .setVolatileForRouter routerId snapshot :: mid) call,
        taken.surfaceId ≠ id

/-- What is held of a Surface is its last report, and it was not taken since. -/
theorem latestUntaken_of_slot {calls : List MirrorCall} {id : JsString}
    {held : JsString × VolatileSurfaceNotes} (h : (mirrorAfter calls).slot id = some held) :
    LatestUntaken calls held.1 id held.2 := by
  induction calls using List.reverseRecOn with
  | nil => cases h
  | append_singleton calls call ih =>
    have hafter := h
    rw [slot_mirrorAfter_concat] at h
    rcases slotAfter_cases h with ⟨hslot, hquiet⟩ | ⟨snapshot, rfl, hreport⟩
    · obtain ⟨before, snapshot, later, rfl, hreport, hlater⟩ := ih hslot
      refine ⟨before, snapshot, later ++ [call], by simp, hreport, fun mid c rest heq => ?_⟩
      rcases List.eq_nil_or_concat rest with rfl | ⟨rest, last, rfl⟩
      · -- The last call: what it takes out is not held after it.
        obtain ⟨rfl, hcall⟩ := List.append_inj' heq rfl
        obtain rfl := (List.cons.inj hcall).1
        refine ⟨hquiet, fun taken htaken hid => ?_⟩
        have hgone := ((tidy_mirrorAfter _).taken htaken).2
        rw [hid, ← mirrorAfter_concat, hafter] at hgone
        cases hgone
      · rw [List.concat_eq_append, ← List.cons_append, ← List.append_assoc] at heq
        exact hlater mid c rest (List.append_inj' heq rfl).1
    · exact ⟨calls, snapshot, [], rfl, hreport, fun mid c rest heq => by simp at heq⟩

/-! ### What becomes of a Surface -/

/-- The last report of a Surface in these calls, and by whom. -/
def LastReport (calls : List MirrorCall) (routerId id : JsString) (surface : VolatileSurfaceNotes) :
    Prop :=
  ∃ before snapshot later, calls = before ++ .setVolatileForRouter routerId snapshot :: later ∧
    reportOf snapshot id = some surface ∧ ∀ call ∈ later, ¬call.Reports id

theorem LatestUntaken.lastReport {calls : List MirrorCall} {routerId id : JsString}
    {surface : VolatileSurfaceNotes} (h : LatestUntaken calls routerId id surface) :
    LastReport calls routerId id surface := by
  obtain ⟨before, snapshot, later, heq, hreport, hlater⟩ := h
  refine ⟨before, snapshot, later, heq, hreport, fun call hcall => ?_⟩
  obtain ⟨mid, rest, hsplit⟩ := List.append_of_mem hcall
  exact (hlater mid call rest hsplit).1

/-- There is one last report. -/
theorem LastReport.unique {calls : List MirrorCall} {routerId routerId' id : JsString}
    {surface surface' : VolatileSurfaceNotes} (h : LastReport calls routerId id surface)
    (h' : LastReport calls routerId' id surface') : routerId = routerId' ∧ surface = surface' := by
  obtain ⟨before, snapshot, later, heq, hreport, hlater⟩ := h
  obtain ⟨before', snapshot', later', heq', hreport', hlater'⟩ := h'
  rw [heq] at heq'
  have hreports : (MirrorCall.setVolatileForRouter routerId snapshot).Reports id := by
    simp [MirrorCall.Reports, hreport]
  have hreports' : (MirrorCall.setVolatileForRouter routerId' snapshot').Reports id := by
    simp [MirrorCall.Reports, hreport']
  rcases List.append_eq_append_iff.1 heq' with ⟨mid, rfl, hmid⟩ | ⟨mid, rfl, hmid⟩
  · cases mid with
    | nil =>
      obtain ⟨hcall, -⟩ := List.cons.inj hmid
      cases hcall
      exact ⟨rfl, Option.some.inj (hreport.symm.trans hreport')⟩
    | cons c mid =>
      obtain ⟨-, rfl⟩ := List.cons.inj hmid
      exact absurd hreports' (hlater _ (by simp))
  · cases mid with
    | nil =>
      obtain ⟨hcall, -⟩ := List.cons.inj hmid
      cases hcall
      exact ⟨rfl, Option.some.inj (hreport.symm.trans hreport')⟩
    | cons c mid =>
      obtain ⟨-, rfl⟩ := List.cons.inj hmid
      exact absurd hreports (hlater' _ (by simp))

/-- What the mirror does with every Surface, over these calls. -/
structure MirrorSound (calls : List MirrorCall) : Prop where
  /-- The mirrored Surfaces and the owner table have the same keys. -/
  sameKeys : (mirrorAfter calls).mirroredSurfaces.keys = (mirrorAfter calls).surfaceOwner.keys
  /-- A router's snapshot or disposal leaves what another router reported last, unless it reports
  the Surface itself. -/
  isolated : ∀ (call : MirrorCall) (routerId reporter id : JsString)
    (surface held : VolatileSurfaceNotes), LastReport calls reporter id surface →
    reporter ≠ routerId → call.By routerId → (mirrorAfter calls).mirroredSurfaces.get id = some held →
    ∃ after, (mirrorAfter (calls ++ [call])).mirroredSurfaces.get id = some after ∧
      (¬call.Reports id → after = held)
  /-- From the last report of a Surface on, it is there as reported, until its router sends a
  snapshot that does not report it or it is taken. -/
  present : ∀ (before later : List MirrorCall) (routerId id : JsString) (snapshot : Json)
    (surface : VolatileSurfaceNotes),
    calls = before ++ .setVolatileForRouter routerId snapshot :: later →
    reportOf snapshot id = some surface →
    (∀ call ∈ later, ¬call.Reports id ∧ ¬call.Retires routerId id ∧ ¬call.Takes routerId id) →
    (mirrorAfter calls).mirroredSurfaces.get id = some surface ∧
      (mirrorAfter calls).surfaceOwner.get id = some routerId
  /-- A take returns the last report of the Surface, and no take has since. -/
  takenOnce : ∀ (call : MirrorCall), ((takenBy calls call).map VolatileSurfaceNotes.surfaceId).Nodup ∧
    ∀ surface ∈ takenBy calls call, ∃ routerId, LatestUntaken calls routerId surface.surfaceId surface

theorem isolated_step {calls : List MirrorCall} {call : MirrorCall} {routerId reporter id : JsString}
    {surface held : VolatileSurfaceNotes} (hlast : LastReport calls reporter id surface)
    (hne : reporter ≠ routerId) (hby : call.By routerId)
    (hheld : (mirrorAfter calls).mirroredSurfaces.get id = some held) :
    ∃ after, (mirrorAfter (calls ++ [call])).mirroredSurfaces.get id = some after ∧
      (¬call.Reports id → after = held) := by
  obtain ⟨owner, hslot⟩ := (tidy_mirrorAfter calls).owned hheld
  obtain ⟨rfl, -⟩ := (latestUntaken_of_slot hslot).lastReport.unique hlast
  by_cases hreports : call.Reports id
  · cases call with
    | setVolatileForRouter sender snapshot =>
      obtain ⟨after, hafter⟩ := Option.isSome_iff_exists.1 hreports
      have hset := slot_mirrorAfter_concat calls (.setVolatileForRouter sender snapshot) id
      rw [slotAfter_of_report hafter] at hset
      exact ⟨after, (VolatileMirror.get_of_slot hset).2, absurd hreports⟩
    | _ => exact hreports.elim
  · have hretires : ¬call.Retires owner id := by
      cases call with
      | setVolatileForRouter sender snapshot => exact fun h => hne (h.1.symm.trans hby)
      | _ => exact not_false
    have htakes : ¬call.Takes owner id := by
      cases call with
      | takeVolatileForRouter drained => exact fun h => hne (Eq.trans (Eq.symm h) hby)
      | setVolatileForRouter _ _ => exact not_false
      | takeStagedForRouter _ => exact not_false
      | takeVolatileForSurfaces _ => exact hby.elim
      | takeAllVolatile => exact hby.elim
      | snapshotForLiveResume _ => exact hby.elim
    have hkeep := slot_mirrorAfter_concat calls call id
    rw [hslot, slotAfter_of_idle hreports hretires htakes] at hkeep
    exact ⟨held, (VolatileMirror.get_of_slot hkeep).2, fun _ => rfl⟩

/-- **The volatile mirror loses and doubles no Surface**, whatever the routers send. -/
theorem volatile_mirror_sound (calls : List MirrorCall) : MirrorSound calls where
  sameKeys := (tidy_mirrorAfter calls).keys
  isolated := by
    intro call routerId reporter id surface held hlast hne hby hheld
    exact isolated_step hlast hne hby hheld
  present := by
    intro before later routerId id snapshot surface heq hreport hidle
    subst heq
    exact (VolatileMirror.get_of_slot (slot_of_report hreport hidle)).symm
  takenOnce := by
    intro call
    refine ⟨(tidy_mirrorAfter calls).nodup_taken call, fun surface hmem => ?_⟩
    obtain ⟨owner, hslot⟩ := (tidy_mirrorAfter calls).owned ((tidy_mirrorAfter calls).taken hmem).1
    exact ⟨owner, latestUntaken_of_slot hslot⟩

/-! ### A Surface that moved -/

/-- A snapshot of terminal Surfaces without notes. -/
def toySnapshot (surfaceIds : List JsString) : Json :=
  .object [(js "surfaces", .array (surfaceIds.map fun id =>
    .object [(js "surfaceId", .string id), (js "surfaceTitle", .string (js "sh")),
      (js "surfaceKind", .string (js "terminal"))]))]

/-- `b` re-reports the Surface of `a`, which is then disposed. -/
def movedSurface : List MirrorCall :=
  [.setVolatileForRouter (js "a") (toySnapshot [js "s"]),
    .setVolatileForRouter (js "b") (toySnapshot [js "s"]), .takeVolatileForRouter (js "a")]

theorem volatile_mirror_sound_moved :
    MirrorSound movedSurface ∧
      (takenBy movedSurface (.takeVolatileForRouter (js "b"))).map VolatileSurfaceNotes.surfaceId =
        [js "s"] :=
  ⟨volatile_mirror_sound movedSurface, by decide +kernel⟩

/-- In its latest snapshot the router still reports the Surface, which was not taken since. -/
def StillReports (calls : List MirrorCall) (routerId id : JsString) : Prop :=
  ∃ before snapshot later, calls = before ++ .setVolatileForRouter routerId snapshot :: later ∧
    (reportOf snapshot id).isSome ∧
    ∀ mid call rest, later = mid ++ call :: rest → ¬call.Retires routerId id ∧
      ∀ taken ∈ takenBy (before ++ .setVolatileForRouter routerId snapshot :: mid) call,
        taken.surfaceId ≠ id

/-- `b` re-reports the Surface of `a` and drops it: it is gone, though `a` still reports it. -/
theorem mirror_drops_still_reported :
    ¬∀ calls routerId id, StillReports calls routerId id →
      (mirrorAfter calls).mirroredSurfaces.has id = true := by
  intro h
  have hgone := h [.setVolatileForRouter (js "a") (toySnapshot [js "s"]),
    .setVolatileForRouter (js "b") (toySnapshot [js "s"]),
    .setVolatileForRouter (js "b") (toySnapshot [])] (js "a") (js "s") ?_
  · exact absurd hgone (by decide +kernel)
  · refine ⟨[], toySnapshot [js "s"], _, rfl, by decide +kernel, fun mid call rest heq => ?_⟩
    have hcall : call ∈ [MirrorCall.setVolatileForRouter (js "b") (toySnapshot [js "s"]),
      .setVolatileForRouter (js "b") (toySnapshot [])] := by
      rw [heq]
      simp
    have hb : ∃ snapshot, call = .setVolatileForRouter (js "b") snapshot := by
      simp only [List.mem_cons, List.not_mem_nil, or_false] at hcall
      exact hcall.elim (fun hc => ⟨_, hc⟩) fun hc => ⟨_, hc⟩
    obtain ⟨snapshot, rfl⟩ := hb
    rw [takenBy_setVolatileForRouter]
    exact ⟨fun hretires => absurd hretires.1 (by decide), fun _ htaken => by cases htaken⟩

end Dormouse.Notepad
