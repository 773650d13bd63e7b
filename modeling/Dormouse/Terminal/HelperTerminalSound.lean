import Dormouse.Lib.History
import Dormouse.Lib.Transition
import Dormouse.Terminal.HelperTerminal

/-!
# Dormouse.Terminal.HelperTerminalSound

**No helper is lost, and none types over its user.** Whatever the order of calls, answers, polls
and input, a helper that was spawned is its parent's, or has been promoted or disposed of; its
command is written once at most, at a prompt that the shell itself has told of, and to a helper
that nobody has touched; and a reopening replaces only such a helper, after the host has found it
idle.

Most of what happens is of no account here (`Frame`). What is left keeps the invariant `Kept`, in
which a helper that is being let go of may be spared.
-/

namespace Dormouse.Terminal

/-! ### What the events say -/

/-- The user's hand on a helper. -/
def HelperEvent.touches (id : JsString) : HelperEvent → Prop
  | input id' => id' = id
  | promotionBegan id' => id' = id
  | _ => False

/-- The command has been written. -/
def HelperEvent.runs (id : JsString) : HelperEvent → Prop
  | autorun id' _ _ => id' = id
  | _ => False

/-- The Session that an event is about. -/
def HelperEvent.session : HelperEvent → JsString
  | spawned id _ _ => id
  | autorun id _ _ => id
  | input id => id
  | promotionBegan id => id
  | promoted id => id
  | idle id => id
  | reopened id => id
  | disposed id => id

/-- An autorun is the first, at a prompt of an integrated shell, and before any touch; a
reopening comes before any touch too, and behind an inspection that found the helper idle. -/
def JustifiedHelper (before : List HelperEvent) : HelperEvent → Prop
  | .autorun id _ pane =>
    pane.oscDriven ∧ HelperStore.atPrompt pane ∧ ∀ e ∈ before, ¬e.runs id ∧ ¬e.touches id
  | .reopened id => .idle id ∈ before ∧ ∀ e ∈ before, ¬e.touches id
  | _ => True

namespace HelperStore

variable {host : HelperHost} {s s' s'' : HelperStore} {id parentId : JsString} {ref : Nat}
  {gone : Option JsString}

/-! ### Steps of no account -/

/-- The tables and the history stay; entries stay touched, and objects stay armed or not. -/
structure Frame (s s' : HelperStore) : Prop where
  registry : s'.registry = s.registry
  helpers : s'.helpers = s.helpers
  pending : s'.pending = s.pending
  events : s'.events = s.events
  length : s'.entries.length = s.entries.length
  entries : ∀ (ref : Nat) (entry' : TerminalEntry), s'.entries[ref]? = some entry' →
    ∃ entry : TerminalEntry, s.entries[ref]? = some entry ∧ (entry'.untouched → entry.untouched)
  objects : ∀ id (helper' : HelperTerminal), s'.objects.get id = some helper' →
    ∃ helper : HelperTerminal, s.objects.get id = some helper ∧ helper'.parentId = helper.parentId ∧
      helper'.command = helper.command ∧ (helper'.status = .waiting → helper.status = .waiting)
  kept : ∀ id helper, s.objects.get id = some helper → ∃ helper', s'.objects.get id = some helper'

namespace Frame

theorem refl (s : HelperStore) : Frame s s where
  registry := rfl
  helpers := rfl
  pending := rfl
  events := rfl
  length := rfl
  entries _ entry h := ⟨entry, h, id⟩
  objects _ helper h := ⟨helper, h, rfl, rfl, id⟩
  kept _ helper h := ⟨helper, h⟩

theorem trans (h : Frame s s') (h' : Frame s' s'') : Frame s s'' where
  registry := h'.registry.trans h.registry
  helpers := h'.helpers.trans h.helpers
  pending := h'.pending.trans h.pending
  events := h'.events.trans h.events
  length := h'.length.trans h.length
  entries ref entry'' hentry := by
    obtain ⟨entry', hentry', huntouched'⟩ := h'.entries ref entry'' hentry
    obtain ⟨entry, hentry, huntouched⟩ := h.entries ref entry' hentry'
    exact ⟨entry, hentry, huntouched ∘ huntouched'⟩
  objects id helper'' hhelper := by
    obtain ⟨helper', hhelper', hparent', hcommand', hstatus'⟩ := h'.objects id helper'' hhelper
    obtain ⟨helper, hhelper, hparent, hcommand, hstatus⟩ := h.objects id helper' hhelper'
    exact ⟨helper, hhelper, hparent'.trans hparent, hcommand'.trans hcommand, hstatus ∘ hstatus'⟩
  kept id helper hhelper := by
    obtain ⟨helper', hhelper'⟩ := h.kept id helper hhelper
    exact h'.kept id helper' hhelper'

theorem after (h' : Frame s' s'') (h : Frame s s') : Frame s s'' := h.trans h'

/-- Changes of what nobody reads here. -/
theorem of_eq (hregistry : s'.registry = s.registry) (hhelpers : s'.helpers = s.helpers)
    (hpending : s'.pending = s.pending) (hevents : s'.events = s.events)
    (hentries : s'.entries = s.entries) (hobjects : s'.objects = s.objects) : Frame s s' where
  registry := hregistry
  helpers := hhelpers
  pending := hpending
  events := hevents
  length := by rw [hentries]
  entries ref entry h := ⟨entry, hentries ▸ h, id⟩
  objects _ helper h := ⟨helper, hobjects ▸ h, rfl, rfl, id⟩
  kept _ helper h := ⟨helper, hobjects.symm ▸ h⟩

theorem modifyObject (s : HelperStore) (id : JsString) {f : HelperTerminal → HelperTerminal}
    (hparent : ∀ h, (f h).parentId = h.parentId) (hcommand : ∀ h, (f h).command = h.command)
    (hstatus : ∀ h, (f h).status = .waiting → h.status = .waiting) :
    Frame s (s.modifyObject id f) := by
  unfold HelperStore.modifyObject
  split
  · exact refl s
  rename_i helper hhelper
  refine { refl s with objects := fun id' helper' h => ?_, kept := fun id' helper' h => ?_ }
  · rcases InsertionMap.get_of_set h with ⟨heq, rfl⟩ | ⟨-, h⟩
    · exact ⟨helper, heq ▸ hhelper, hparent _, hcommand _, hstatus _⟩
    · exact ⟨helper', h, rfl, rfl, fun h => h⟩
  · simp only [InsertionMap.get_set]
    split
    · exact ⟨_, rfl⟩
    · exact ⟨helper', h⟩

theorem modifyEntry (s : HelperStore) (ref : Nat) {f : TerminalEntry → TerminalEntry}
    (hf : ∀ entry, (f entry).untouched → entry.untouched) : Frame s (s.modifyEntry ref f) := by
  refine { refl s with length := List.length_modify _ _ _, entries := fun ref' entry' h => ?_ }
  unfold HelperStore.modifyEntry at h
  rw [List.getElem?_modify] at h
  obtain ⟨entry, hentry, heq⟩ := Option.map_eq_some_iff.1 h
  refine ⟨entry, hentry, ?_⟩
  subst heq
  split
  · exact hf entry
  · exact fun h => h

theorem clearTimer (s : HelperStore) (id : JsString) : Frame s (s.clearTimer id) :=
  modifyObject s id (fun _ => rfl) (fun _ => rfl) fun _ h => h

theorem notifyHelpers (s : HelperStore) : Frame s s.notifyHelpers :=
  of_eq rfl rfl rfl rfl rfl rfl

theorem setStatus (s : HelperStore) (id : JsString) {status : HelperStatus}
    (hstatus : status ≠ .waiting) : Frame s (s.modifyObject id fun helper =>
      { helper with status := status }) :=
  modifyObject s id (fun _ => rfl) (fun _ => rfl) fun _ h => absurd h hstatus

theorem watchHelper (s : HelperStore) (id : JsString) (launchCwd : Option JsString) (now : Ms) :
    Frame s (s.watchHelper id launchCwd now) := by
  unfold HelperStore.watchHelper
  dsimp only
  split
  · exact clearTimer s id
  split
  · exact clearTimer s id
  · refine Frame.after (modifyObject _ id ?_ ?_ ?_)
      ((clearTimer s id).trans (of_eq rfl rfl rfl rfl rfl rfl))
    · exact fun _ => rfl
    · exact fun _ => rfl
    · exact fun _ h => h

theorem setHelperVisible (s : HelperStore) (parentId : JsString) (visible : Bool) (now : Ms) :
    Frame s (s.setHelperVisible parentId visible now) := by
  unfold HelperStore.setHelperVisible
  dsimp only
  split
  · exact of_eq rfl rfl rfl rfl rfl rfl
  split
  · exact (watchHelper _ _ _ _).after (of_eq rfl rfl rfl rfl rfl rfl)
  · split
    · exact (clearTimer _ _).after (of_eq rfl rfl rfl rfl rfl rfl)
    · refine Frame.after (modifyEntry _ _ ?_)
        ((clearTimer _ _).after (of_eq rfl rfl rfl rfl rfl rfl))
      exact fun _ h => h

theorem beginInspection (s : HelperStore) (id : JsString) :
    Frame s (s.beginInspection id).2 := by
  unfold HelperStore.beginInspection
  split
  · exact refl s
  split
  · exact refl s
  split
  · exact refl s
  · split
    · exact refl s
    · split
      · exact modifyEntry s _ fun _ h => h
      · exact refl s

theorem finishInspection (s : HelperStore) (i : WorkInspection) (answer : HostAnswer) :
    Frame s (s.finishInspection host i answer).2 :=
  modifyEntry s _ fun _ h => h

theorem endPollInspection (s : HelperStore) (id : JsString) (entry watch : Nat) :
    Frame s (s.endPollInspection id entry watch) := by
  unfold HelperStore.endPollInspection
  split
  · exact refl s
  dsimp only
  split
  · exact modifyObject s id (fun _ => rfl) (fun _ => rfl) fun _ h => h
  · refine Frame.trans (modifyObject s id ?_ ?_ ?_) (modifyEntry _ _ ?_)
    · exact fun _ => rfl
    · exact fun _ => rfl
    · exact fun _ h => h
    · exact fun _ h => h

theorem pollWork (s : HelperStore) (id : JsString) (ref : Nat) (timer : HelperWatch)
    (status : HelperStatus) (now : Ms) : Frame s (s.pollWork id ref timer status now) := by
  unfold HelperStore.pollWork
  split
  · exact refl s
  dsimp only
  generalize hs₁ : s.modifyObject id (fun helper =>
    { helper with timer := helper.timer.map fun timer =>
        { timer with inspecting := true, lastInspection := now } }) = s₁
  have hframe : Frame s s₁ := by
    subst hs₁
    exact modifyObject s id (fun _ => rfl) (fun _ => rfl) fun _ h => h
  have hbegin := beginInspection s₁ id
  split
  · rename_i heq
    rw [heq] at hbegin
    exact (hframe.trans hbegin).trans (endPollInspection _ _ _ _)
  · rename_i heq
    rw [heq] at hbegin
    exact (hframe.trans hbegin).trans (of_eq rfl rfl rfl rfl rfl rfl)

theorem pollInspected (s : HelperStore) (index : Nat) (answer : HostAnswer) :
    Frame s (s.pollInspected host index answer) := by
  unfold HelperStore.pollInspected
  split
  · exact refl s
  refine Frame.trans ?_ (endPollInspection _ _ _ _)
  split
  · refine Frame.after (modifyEntry _ _ ?_) (of_eq rfl rfl rfl rfl rfl rfl)
    exact fun _ h => h
  · exact (finishInspection _ _ _).after (of_eq rfl rfl rfl rfl rfl rfl)

theorem endPromotion (s : HelperStore) (id : JsString) (now : Ms) :
    Frame s (s.endPromotion id now) := by
  refine Frame.trans (modifyObject s id ?_ ?_ ?_) (watchHelper _ _ _ _)
  · exact fun _ => rfl
  · exact fun _ => rfl
  · exact fun _ h => h

theorem promotionAnswered (s : HelperStore) (index : Nat) (failed : Bool) (now : Ms) :
    Frame s (s.promotionAnswered index failed now) := by
  unfold HelperStore.promotionAnswered
  split
  · exact refl s
  · dsimp only
    split
    · exact (endPromotion _ _ _).after (of_eq rfl rfl rfl rfl rfl rfl)
    · exact of_eq rfl rfl rfl rfl rfl rfl

theorem rollbackAnswered (s : HelperStore) (index : Nat) (now : Ms) :
    Frame s (s.rollbackAnswered index now) := by
  unfold HelperStore.rollbackAnswered
  split
  · exact refl s
  · exact (endPromotion _ _ _).after (of_eq rfl rfl rfl rfl rfl rfl)

theorem cancelPromotion (s : HelperStore) (parentId : JsString) :
    Frame s (s.cancelPromotion parentId) := by
  unfold HelperStore.cancelPromotion
  split
  · exact refl s
  · exact of_eq rfl rfl rfl rfl rfl rfl

end Frame

/-! ### The invariant -/

/-- An id that nothing has been known by. -/
structure Fresh (s : HelperStore) (id : JsString) : Prop where
  object : s.objects.get id = none
  session : s.registry.get id = none
  events : ∀ e ∈ s.events, e.session ≠ id

/-- What an event leaves behind: a touched helper is marked, and one that was promoted or has run
its command does not wait any more. -/
def Marked (s : HelperStore) : HelperEvent → Prop
  | .autorun id _ _ => ∀ helper, s.objects.get id = some helper → helper.status ≠ .waiting
  | .input id => ∀ helper ref entry, s.objects.get id = some helper →
      s.registry.get id = some ref → s.entries[ref]? = some entry → entry.untouched = false
  | .promotionBegan id => ∀ helper, s.objects.get id = some helper → helper.status ≠ .waiting ∧
      ∀ ref entry, s.registry.get id = some ref → s.entries[ref]? = some entry →
        entry.untouched = false
  | _ => True

/-- What an `openHelper` has captured is still what the registry has, if it has anything. -/
def Captured (s : HelperStore) (id : JsString) (ref : Nat) : Prop :=
  (∃ helper, s.objects.get id = some helper) ∧ ∀ ref', s.registry.get id = some ref' → ref' = ref

def PhaseOk (s : HelperStore) (parentId : JsString) : OpenPhase → Prop
  | .inspecting inspection => Captured s inspection.helper inspection.entry
  | .inspected previous ref busy => Captured s previous ref ∧ (busy = false → .idle previous ∈ s.events)
  | .settling => s.helpers.get parentId = none
  | .done => True

/-- Every helper is accounted for, but for the one that is being let go of. -/
structure Kept (gone : Option JsString) (s : HelperStore) : Prop where
  owned : ∀ parentId id, s.helpers.get parentId = some id →
    ∃ helper, s.objects.get id = some helper ∧ helper.parentId = parentId
  spawned : ∀ id parentId command, .spawned id parentId command ∈ s.events →
    ∃ helper, s.objects.get id = some helper ∧ helper.parentId = parentId
  reachable : ∀ id helper, s.objects.get id = some helper →
    s.helpers.get helper.parentId = some id ∨ .promoted id ∈ s.events ∨ .disposed id ∈ s.events ∨
      gone = some id
  live : ∀ id helper, s.objects.get id = some helper →
    (∃ ref, s.registry.get id = some ref) ∨ .disposed id ∈ s.events
  refs : ∀ id ref, s.registry.get id = some ref → ref < s.entries.length
  marked : ∀ e ∈ s.events, Marked s e
  phases : ∀ parentId phase, s.pending.get parentId = some phase → PhaseOk s parentId phase
  justified : Preceded JustifiedHelper s.events

namespace Kept

theorem empty : Kept none empty where
  owned _ _ h := nomatch h
  spawned _ _ _ h := nomatch h
  reachable _ _ h := nomatch h
  live _ _ h := nomatch h
  refs _ _ h := nomatch h
  marked _ h := nomatch h
  phases _ _ h := nomatch h
  justified := Preceded.nil

end Kept

theorem Frame.captured (h : Frame s s') {ref : Nat} (hs : Captured s id ref) :
    Captured s' id ref :=
  ⟨hs.1.elim fun helper hhelper => h.kept id helper hhelper, by rw [h.registry]; exact hs.2⟩

theorem Frame.marked (h : Frame s s') {e : HelperEvent} (hs : Marked s e) : Marked s' e := by
  have hentry : ∀ {ref : Nat} {entry' : TerminalEntry},
      (∀ entry, s.entries[ref]? = some entry → entry.untouched = false) →
      s'.entries[ref]? = some entry' → entry'.untouched = false := fun {ref entry'} hall hentry' => by
    obtain ⟨entry, hentry, huntouched⟩ := h.entries ref entry' hentry'
    exact Bool.eq_false_iff.2 fun heq => Bool.eq_false_iff.1 (hall entry hentry) (huntouched heq)
  cases e with
  | autorun id command pane =>
    intro helper' hhelper' hwaiting
    obtain ⟨helper, hhelper, -, -, hstatus⟩ := h.objects id helper' hhelper'
    exact hs helper hhelper (hstatus hwaiting)
  | input id =>
    intro helper' ref entry' hhelper' href hentry'
    obtain ⟨helper, hhelper, -⟩ := h.objects id helper' hhelper'
    rw [h.registry] at href
    exact hentry (fun entry => hs helper ref entry hhelper href) hentry'
  | promotionBegan id =>
    intro helper' hhelper'
    obtain ⟨helper, hhelper, -, -, hstatus⟩ := h.objects id helper' hhelper'
    obtain ⟨hwaiting, hall⟩ := hs helper hhelper
    refine ⟨fun h => hwaiting (hstatus h), fun ref entry' href hentry' => ?_⟩
    rw [h.registry] at href
    exact hentry (fun entry => hall ref entry href) hentry'
  | _ => trivial

namespace Kept

/-- Steps of no account. -/
theorem frame (h : Kept gone s) (hf : Frame s s') : Kept gone s' where
  owned parentId id hid := by
    rw [hf.helpers] at hid
    obtain ⟨helper, hhelper, hparent⟩ := h.owned parentId id hid
    obtain ⟨helper', hhelper'⟩ := hf.kept id helper hhelper
    obtain ⟨helper₀, hhelper₀, hparent', -⟩ := hf.objects id helper' hhelper'
    rw [hhelper] at hhelper₀
    cases hhelper₀
    exact ⟨helper', hhelper', hparent'.trans hparent⟩
  spawned id parentId command hmem := by
    rw [hf.events] at hmem
    obtain ⟨helper, hhelper, hparent⟩ := h.spawned id parentId command hmem
    obtain ⟨helper', hhelper'⟩ := hf.kept id helper hhelper
    obtain ⟨helper₀, hhelper₀, hparent', -⟩ := hf.objects id helper' hhelper'
    rw [hhelper] at hhelper₀
    cases hhelper₀
    exact ⟨helper', hhelper', hparent'.trans hparent⟩
  reachable id helper' hhelper' := by
    obtain ⟨helper, hhelper, hparent, -⟩ := hf.objects id helper' hhelper'
    rw [hf.helpers, hf.events, hparent]
    exact h.reachable id helper hhelper
  live id helper' hhelper' := by
    obtain ⟨helper, hhelper, -⟩ := hf.objects id helper' hhelper'
    rw [hf.registry, hf.events]
    exact h.live id helper hhelper
  refs id ref href := by
    rw [hf.registry] at href
    rw [hf.length]
    exact h.refs id ref href
  marked e he := hf.marked (h.marked e (hf.events ▸ he))
  phases parentId phase hphase := by
    rw [hf.pending] at hphase
    have hok := h.phases parentId phase hphase
    cases phase with
    | inspecting inspection => exact hf.captured hok
    | inspected previous ref busy =>
      exact ⟨hf.captured hok.1, fun hbusy => hf.events.symm ▸ hok.2 hbusy⟩
    | settling => exact (congrArg (InsertionMap.get · parentId) hf.helpers).trans hok
    | done => exact trivial
  justified := hf.events.symm ▸ h.justified

/-- One more event, with what it leaves behind. -/
theorem emit (h : Kept gone s) (event : HelperEvent)
    (hspawned : ∀ id parentId command, event = .spawned id parentId command →
      ∃ helper, s.objects.get id = some helper ∧ helper.parentId = parentId)
    (hmarked : Marked s event) (hjustified : JustifiedHelper s.events event) :
    Kept gone (s.emit event) where
  owned := h.owned
  spawned id parentId command hmem := by
    rcases List.mem_append.1 hmem with hmem | hmem
    · exact h.spawned id parentId command hmem
    · exact hspawned id parentId command (List.mem_singleton.1 hmem).symm
  reachable id helper hhelper := (h.reachable id helper hhelper).imp_right fun h =>
    h.imp (List.mem_append_left _) fun h => h.imp_left (List.mem_append_left _)
  live id helper hhelper := (h.live id helper hhelper).imp_right (List.mem_append_left _)
  refs := h.refs
  marked e he := by
    have hsame : Marked s e → Marked (s.emit event) e := by
      cases e <;> exact fun h => h
    rcases List.mem_append.1 he with he | he
    · exact hsame (h.marked e he)
    · exact hsame (List.mem_singleton.1 he ▸ hmarked)
  phases parentId phase hphase := by
    have hok := h.phases parentId phase hphase
    cases phase with
    | inspected previous ref busy =>
      exact ⟨hok.1, fun hbusy => List.mem_append_left _ (hok.2 hbusy)⟩
    | _ => exact hok
  justified := h.justified.concat hjustified

/-- An `openHelper` goes on. -/
theorem setPhase (h : Kept gone s) {phase : OpenPhase} (hok : PhaseOk s parentId phase) :
    Kept gone (s.setPhase parentId phase) :=
  { h with
    marked e he := by
      have hmarked := h.marked e he
      cases e <;> exact hmarked
    phases parentId' phase' hphase := by
      have hsame : PhaseOk s parentId' phase' → PhaseOk (s.setPhase parentId phase) parentId' phase' := by
        cases phase' <;> exact fun h => h
      rcases InsertionMap.get_of_set hphase with ⟨heq, rfl⟩ | ⟨-, hphase⟩
      · exact hsame (heq ▸ hok)
      · exact hsame (h.phases parentId' phase' hphase) }

/-! ### Letting go -/

/-- The helper is spared from now on. -/
theorem forget (h : Kept none s) (hid : s.helpers.get parentId = some id) :
    Kept (some id) (s.forgetHelper parentId) := by
  have hframe := h.frame (Frame.clearTimer s id)
  have hhelpers := (Frame.clearTimer s id).helpers
  unfold HelperStore.forgetHelper
  rw [hid]
  show Kept (some id) (notifyHelpers _)
  refine Kept.frame ?_ (Frame.notifyHelpers _)
  constructor
  · intro parentId' id' hid'
    exact hframe.owned parentId' id' (hhelpers ▸ (InsertionMap.get_of_delete hid').2)
  · exact hframe.spawned
  · intro id' helper hhelper
    rcases hframe.reachable id' helper hhelper with howner | hrest
    · rw [hhelpers] at howner
      by_cases heq : parentId = helper.parentId
      · rw [← heq, hid] at howner
        exact .inr (.inr (.inr howner))
      · refine .inl ?_
        show ((s.clearTimer id).helpers.delete parentId).get helper.parentId = some id'
        rw [hhelpers, InsertionMap.get_delete, if_neg heq]
        exact howner
    · refine .inr (hrest.imp_right fun h => h.imp_right fun h => nomatch h)
  · exact hframe.live
  · exact hframe.refs
  · intro e he
    have hmarked := hframe.marked e he
    cases e <;> exact hmarked
  · intro parentId' phase hphase
    have hok := hframe.phases parentId' phase hphase
    cases phase with
    | settling =>
      show ((s.clearTimer id).helpers.delete parentId).get parentId' = none
      rw [InsertionMap.get_delete]
      split
      · rfl
      · exact hok
    | _ => exact hok
  · exact hframe.justified

/-- What becomes of the spared helper. -/
theorem discharge (h : Kept (some id) s) (hgone : .promoted id ∈ s.events ∨ .disposed id ∈ s.events) :
    Kept none s :=
  { h with
    reachable := fun id' helper hhelper => by
      rcases h.reachable id' helper hhelper with howner | hpromoted | hdisposed | hspared
      · exact .inl howner
      · exact .inr (.inl hpromoted)
      · exact .inr (.inr (.inl hdisposed))
      · cases hspared
        exact .inr (hgone.imp_right .inl) }

/-- A Session is disposed of. -/
theorem disposeSession (h : Kept gone s) (id : JsString) : Kept gone (s.disposeSession id) := by
  unfold HelperStore.disposeSession
  split
  · exact h
  have hget : ∀ {id' ref}, (s.registry.delete id).get id' = some ref →
      s.registry.get id' = some ref := fun {id' ref} href => by
    exact (InsertionMap.get_of_delete href).2
  constructor
  · exact h.owned
  · intro id' parentId command hmem
    rcases List.mem_append.1 hmem with hmem | hmem
    · exact h.spawned id' parentId command hmem
    · cases List.mem_singleton.1 hmem
  · exact fun id' helper hhelper => (h.reachable id' helper hhelper).imp_right fun h =>
      h.imp (List.mem_append_left _) fun h => h.imp_left (List.mem_append_left _)
  · intro id' helper hhelper
    by_cases heq : id = id'
    · exact .inr (heq ▸ List.mem_append_right _ (List.mem_singleton.2 rfl))
    · refine (h.live id' helper hhelper).imp (fun ⟨ref, href⟩ => ⟨ref, ?_⟩)
        (List.mem_append_left _)
      show (s.registry.delete id).get id' = some ref
      rw [InsertionMap.get_delete, if_neg heq]
      exact href
  · exact fun id' ref href => h.refs id' ref (hget href)
  · intro e he
    rcases List.mem_append.1 he with he | he
    · have hmarked := h.marked e he
      cases e with
      | input id' =>
        exact fun helper ref entry hhelper href => hmarked helper ref entry hhelper (hget href)
      | promotionBegan id' =>
        exact fun helper hhelper => ⟨(hmarked helper hhelper).1, fun ref entry href =>
          (hmarked helper hhelper).2 ref entry (hget href)⟩
      | _ => exact hmarked
    · rw [List.mem_singleton.1 he]
      exact trivial
  · intro parentId phase hphase
    have hok := h.phases parentId phase hphase
    cases phase with
    | inspecting inspection => exact ⟨hok.1, fun ref' href' => hok.2 ref' (hget href')⟩
    | inspected previous ref busy =>
      exact ⟨⟨hok.1.1, fun ref' href' => hok.1.2 ref' (hget href')⟩,
        fun hbusy => List.mem_append_left _ (hok.2 hbusy)⟩
    | _ => exact hok
  · exact h.justified.concat trivial

theorem forget_helpers : (s.forgetHelper parentId).helpers.get parentId = none := by
  unfold HelperStore.forgetHelper
  split
  · assumption
  · exact InsertionMap.get_delete_self _ _

theorem forget_registry : (s.forgetHelper parentId).registry = s.registry := by
  unfold HelperStore.forgetHelper
  split
  · rfl
  · exact (Frame.clearTimer s _).registry

theorem forget_pending : (s.forgetHelper parentId).pending = s.pending := by
  unfold HelperStore.forgetHelper
  split
  · rfl
  · exact (Frame.clearTimer s _).pending

theorem forget_events : (s.forgetHelper parentId).events = s.events := by
  unfold HelperStore.forgetHelper
  split
  · rfl
  · exact (Frame.clearTimer s _).events

/-- A helper whose Session is gone is forgotten. -/
theorem forgetGone (h : Kept none s) (hid : s.helpers.get parentId = some id)
    (hgone : s.registry.get id = none) : Kept none (s.forgetHelper parentId) := by
  obtain ⟨helper, hhelper, -⟩ := h.owned parentId id hid
  refine (h.forget hid).discharge (.inr ?_)
  rw [forget_events]
  rcases h.live id helper hhelper with ⟨ref, href⟩ | hdisposed
  · rw [hgone] at href
    cases href
  · exact hdisposed

/-- The parent has no helper any more, and its helper has been disposed of. -/
theorem disposeHelper (h : Kept none s) (hdispose : s.disposeHelper parentId = some s') :
    Kept none s' ∧ s'.helpers.get parentId = none ∧ s'.pending = s.pending := by
  unfold HelperStore.disposeHelper at hdispose
  split at hdispose
  · rename_i hnone
    cases hdispose
    exact ⟨h, hnone, rfl⟩
  rename_i id hid
  split at hdispose
  · cases hdispose
  cases hdispose
  cases hregistry : s.registry.get id with
  | none =>
    have hsame : (s.forgetHelper parentId).disposeSession id = s.forgetHelper parentId := by
      unfold HelperStore.disposeSession
      rw [forget_registry, hregistry]
    rw [hsame]
    exact ⟨h.forgetGone hid hregistry, forget_helpers, forget_pending⟩
  | some ref =>
    have hdisposed : .disposed id ∈
        ((s.forgetHelper parentId).disposeSession id).events := by
      unfold HelperStore.disposeSession
      rw [forget_registry, hregistry]
      exact List.mem_append_right _ (List.mem_singleton.2 rfl)
    refine ⟨((h.forget hid).disposeSession id).discharge (.inr hdisposed), ?_, ?_⟩
    · unfold HelperStore.disposeSession
      rw [forget_registry, hregistry]
      exact forget_helpers
    · unfold HelperStore.disposeSession
      rw [forget_registry, hregistry]
      exact forget_pending

theorem closeHelperParent (h : Kept none s) (parentId : JsString) :
    Kept none (s.closeHelperParent parentId) := by
  unfold HelperStore.closeHelperParent
  split
  · exact h
  · rename_i s₁ hdispose
    have hs₁ := (h.disposeHelper hdispose).1
    split
    · exact hs₁
    · exact hs₁.frame (Frame.of_eq rfl rfl rfl rfl rfl rfl)

/-! ### Touching -/

theorem modifyObject_self {f : HelperTerminal → HelperTerminal} {helper : HelperTerminal}
    (h : (s.modifyObject id f).objects.get id = some helper) : ∃ helper₀, helper = f helper₀ := by
  unfold HelperStore.modifyObject at h
  split at h
  · rename_i hnone
    rw [hnone] at h
    cases h
  · rw [InsertionMap.get_set_self] at h
    exact ⟨_, (Option.some.inj h).symm⟩

/-- Input marks the entry before it is told of. -/
theorem markSessionTouched (h : Kept gone s) (id : JsString) :
    Kept gone (s.markSessionTouched id) := by
  unfold HelperStore.markSessionTouched
  split
  · exact h
  rename_i ref href
  generalize hs₁ : s.modifyEntry ref (fun entry => { entry with
    inputVersion := entry.inputVersion + 1
    untouched := false
    helperBusy := if entry.helper then none else entry.helperBusy }) = s₁
  have hframe : Frame s s₁ := by
    subst hs₁
    exact Frame.modifyEntry s ref fun _ h => nomatch h
  refine (h.frame hframe).emit (.input id) (fun _ _ _ heq => nomatch heq) ?_ trivial
  intro helper ref' entry' _ href' hentry'
  rw [hframe.registry, href] at href'
  cases href'
  subst hs₁
  unfold HelperStore.modifyEntry at hentry'
  rw [List.getElem?_modify] at hentry'
  obtain ⟨entry, -, rfl⟩ := Option.map_eq_some_iff.1 hentry'
  rw [if_pos rfl]

/-- A helper that is being promoted is marked, and does not wait any more. -/
theorem beginPromotion (h : Kept gone s) (parentId : JsString) :
    Kept gone (s.beginPromotion parentId) := by
  unfold HelperStore.beginPromotion
  split
  · exact h
  rename_i id hid
  split
  · exact h
  dsimp only
  generalize hs₁ : (s.clearTimer id).modifyObject id (fun helper =>
    { helper with promoting := true, status := .preserved }) = s₁
  have hframe : Frame s s₁ := by
    subst hs₁
    refine (Frame.clearTimer s id).trans (Frame.modifyObject _ id ?_ ?_ ?_)
    · exact fun _ => rfl
    · exact fun _ => rfl
    · exact fun _ h => by cases h
  have hstatus : ∀ helper, s₁.objects.get id = some helper → helper.status ≠ .waiting := by
    intro helper hhelper
    subst hs₁
    obtain ⟨helper₀, rfl⟩ := modifyObject_self hhelper
    exact fun h => by cases h
  have hmarks : ∀ s₂, Frame s₁ s₂ → (∀ ref entry, s₂.registry.get id = some ref →
      s₂.entries[ref]? = some entry → entry.untouched = false) →
      Kept gone (HelperStore.emit { s₂ with promotions := s₂.promotions ++ [id] }
        (.promotionBegan id)) := by
    intro s₂ hs₂ huntouched
    have hset : Kept gone { s₂ with promotions := s₂.promotions ++ [id] } :=
      (h.frame (hframe.trans hs₂)).frame (Frame.of_eq rfl rfl rfl rfl rfl rfl)
    refine hset.emit (.promotionBegan id) (fun _ _ _ heq => by cases heq) ?_ trivial
    intro helper hhelper
    refine ⟨?_, huntouched⟩
    obtain ⟨helper₁, hhelper₁, -, -, hwaiting⟩ := hs₂.objects id helper hhelper
    exact fun h => hstatus helper₁ hhelper₁ (hwaiting h)
  split
  · rename_i hnone
    refine hmarks s₁ (Frame.refl s₁) fun ref entry href => ?_
    rw [hnone] at href
    cases href
  rename_i ref href
  refine hmarks _ (Frame.modifyEntry s₁ ref fun _ h => by cases h) ?_
  intro ref' entry' href' hentry'
  have hsame : ref = ref' := Option.some.inj (href.symm.trans href')
  subst hsame
  unfold HelperStore.modifyEntry at hentry'
  rw [List.getElem?_modify] at hentry'
  obtain ⟨entry, -, rfl⟩ := Option.map_eq_some_iff.1 hentry'
  rw [if_pos rfl]

theorem finishPromotion (h : Kept none s) (parentId : JsString) :
    Kept none (s.finishPromotion parentId) := by
  unfold HelperStore.finishPromotion
  split
  · exact h
  rename_i id hid
  have hfinish : ∀ s₁, Frame s s₁ → Kept none ((s₁.forgetHelper parentId).emit (.promoted id)) := by
    intro s₁ hs₁
    have hforgotten : Kept (some id) (s₁.forgetHelper parentId) :=
      (h.frame hs₁).forget (hs₁.helpers.symm ▸ hid)
    refine (hforgotten.emit (.promoted id) (fun _ _ _ heq => nomatch heq) trivial
      trivial).discharge (.inl ?_)
    exact List.mem_append_right _ (List.mem_singleton.2 rfl)
  split
  · exact hfinish s (Frame.refl s)
  · exact hfinish _ (Frame.modifyEntry s _ fun _ h => nomatch h)

/-! ### Opening -/

theorem askSettings (h : Kept gone s) (hnone : s.helpers.get parentId = none) :
    Kept gone (s.askSettings host parentId) := by
  unfold HelperStore.askSettings
  split
  · exact h.setPhase hnone
  · exact h.setPhase trivial

theorem entryOf_registry {entry : TerminalEntry} (h : s.entryOf id = some (ref, entry)) :
    s.registry.get id = some ref ∧ s.entries[ref]? = some entry := by
  obtain ⟨ref', href, h⟩ := Option.bind_eq_some_iff.1 h
  obtain ⟨entry', hentry, h⟩ := Option.bind_eq_some_iff.1 h
  cases h
  exact ⟨href, hentry⟩

/-- What an inspection captures, or that there is work. -/
theorem beginInspection_cases {entry : TerminalEntry} {helper : HelperTerminal}
    (hhelper : s.objects.get id = some helper) (hentry : s.entryOf id = some (ref, entry))
    (hexited : entry.exited = false) :
    (s.beginInspection id).1 = .inl true ∨
      ∃ version, (s.beginInspection id).1 = .inr ⟨id, ref, version⟩ := by
  unfold HelperStore.beginInspection
  rw [hhelper, hentry]
  dsimp only
  split
  · exact .inl rfl
  split
  · rename_i hcontra
    rw [hexited] at hcontra
    cases hcontra
  · split
    · exact .inl rfl
    · exact .inr ⟨entry.inputVersion, rfl⟩

theorem modifyObject_entries (f : HelperTerminal → HelperTerminal) :
    (s.modifyObject id f).entries = s.entries := by
  unfold HelperStore.modifyObject
  split <;> rfl

theorem reopen (h : Kept gone s) {helper : HelperTerminal}
    (hhelper : s.objects.get id = some helper) : Kept gone (s.reopen parentId id helper) := by
  unfold HelperStore.reopen
  dsimp only
  generalize hstatus : reopenStatus helper ((s.entryOf id).map Prod.snd) (s.panes id) = status
  generalize hs₁ : (if status = helper.status then s else
    (s.modifyObject id fun helper => { helper with status := status }).notifyHelpers) = s₁
  have hwaiting : status = .waiting → helper.status = .waiting := by
    intro heq
    rw [← hstatus] at heq
    unfold reopenStatus at heq
    split at heq
    · cases heq
    · split at heq
      · cases heq
      · split at heq
        · cases heq
        · exact heq
  have hframe : Frame s s₁ := by
    subst hs₁
    split
    · exact Frame.refl s
    · rename_i hne
      refine Frame.trans (Frame.setStatus s id fun heq => hne ?_) (Frame.notifyHelpers _)
      rw [heq, hwaiting heq]
  have hentries : s₁.entries = s.entries := by
    subst hs₁
    split
    · rfl
    · exact modifyObject_entries _
  have hs₁' := h.frame hframe
  obtain ⟨helper₁, hhelper₁⟩ := hframe.kept id helper hhelper
  rcases hentry : s.entryOf id with _ | found
  · exact hs₁'.setPhase trivial
  obtain ⟨ref, entry⟩ := found
  dsimp only
  split
  · exact hs₁'.setPhase trivial
  rename_i hgoes
  rw [Bool.or_eq_true, not_or] at hgoes
  -- An exited helper is no longer completed or off.
  have hexited : entry.exited = false := Bool.eq_false_iff.2 fun hexited => by
    have heq : status = .exited := by
      rw [← hstatus, hentry]
      unfold reopenStatus
      simp [hexited]
    exact hgoes.2 (by simp [heq])
  obtain ⟨href, -⟩ := entryOf_registry hentry
  have hcaptured : Captured s₁ id ref := by
    refine ⟨⟨helper₁, hhelper₁⟩, fun ref' href' => ?_⟩
    rw [hframe.registry, href] at href'
    exact (Option.some.inj href').symm
  have hentry₁ : s₁.entryOf id = some (ref, entry) := by
    rw [← hentry]
    unfold HelperStore.entryOf
    rw [hframe.registry, hentries]
  have hbegin := Frame.beginInspection s₁ id
  have hcases := beginInspection_cases hhelper₁ hentry₁ hexited
  split
  · rename_i busy s₂ heq
    rw [heq] at hbegin hcases
    rcases hcases with hbusy | ⟨version, hversion⟩
    · cases hbusy
      exact (hs₁'.frame hbegin).setPhase ⟨hbegin.captured hcaptured, nofun⟩
    · cases hversion
  rename_i inspection s₂ heq
  rw [heq] at hbegin hcases
  rcases hcases with hbusy | ⟨version, hversion⟩
  · cases hbusy
  · cases hversion
    exact (hs₁'.frame hbegin).setPhase (hbegin.captured hcaptured)

theorem openHelper (h : Kept none s) (parentId : JsString) :
    Kept none (s.openHelper host parentId) := by
  unfold HelperStore.openHelper
  split
  · exact h
  dsimp only
  generalize hs₁ : (if ((s.helpers.get parentId).any fun id => !s.registry.has id) = true then
    s.forgetHelper parentId else s) = s₁
  have hs₁' : Kept none s₁ := by
    subst hs₁
    split
    · rename_i hstale
      cases hid : s.helpers.get parentId with
      | none =>
        rw [hid] at hstale
        cases hstale
      | some id =>
        rw [hid] at hstale
        refine h.forgetGone hid ?_
        have hgone : s.registry.has id = false := by simpa using hstale
        unfold InsertionMap.has at hgone
        simpa using hgone
    · exact h
  split
  · rename_i hnone
    exact hs₁'.askSettings hnone
  · split
    · exact hs₁'
    · rename_i hhelper
      exact hs₁'.reopen hhelper

/-- The host has looked; what it found is told of when it is idle. -/
theorem openInspected (h : Kept gone s) (parentId : JsString) (answer : HostAnswer) :
    Kept gone (s.openInspected host parentId answer) := by
  unfold HelperStore.openInspected
  split
  · rename_i inspection hphase
    have hcaptured : Captured s inspection.helper inspection.entry := h.phases parentId _ hphase
    split
    · exact h.setPhase trivial
    have hframe : Frame s (s.finishInspection host inspection answer).2 :=
      Frame.finishInspection s inspection answer
    have hfinished := h.frame hframe
    have hcaptured' := hframe.captured hcaptured
    dsimp only
    split
    · rename_i hbusy
      exact hfinished.setPhase ⟨hcaptured', fun hidle => by rw [hbusy] at hidle; cases hidle⟩
    · refine (hfinished.emit (.idle inspection.helper) (fun _ _ _ heq => nomatch heq) trivial
        trivial).setPhase ⟨hcaptured', fun _ => ?_⟩
      exact List.mem_append_right _ (List.mem_singleton.2 rfl)
  · exact h

/-- An untouched entry is that of a helper that nobody has touched. -/
theorem untouched (h : Kept gone s) {helper : HelperTerminal} {entry : TerminalEntry}
    (hhelper : s.objects.get id = some helper) (href : s.registry.get id = some ref)
    (hentry : s.entries[ref]? = some entry) (huntouched : entry.untouched) :
    ∀ e ∈ s.events, ¬e.touches id := by
  intro e he htouches
  have hmarked := h.marked e he
  cases e with
  | input id' =>
    cases htouches
    rw [hmarked helper ref entry hhelper href hentry] at huntouched
    cases huntouched
  | promotionBegan id' =>
    cases htouches
    rw [(hmarked helper hhelper).2 ref entry href hentry] at huntouched
    cases huntouched
  | _ => exact htouches

theorem openContinue (h : Kept none s) (parentId : JsString) :
    Kept none (s.openContinue host parentId) := by
  unfold HelperStore.openContinue
  split
  · rename_i previous ref busy hphase
    obtain ⟨⟨⟨helper, hhelper⟩, hcaptured⟩, hidle⟩ : PhaseOk s parentId (.inspected previous ref busy) :=
      h.phases parentId _ hphase
    split
    · exact h.setPhase trivial
    rename_i hgoes
    rw [Bool.or_eq_true, Bool.or_eq_true, not_or, not_or] at hgoes
    have hbusy : busy = false := Bool.eq_false_iff.2 hgoes.1.1
    generalize hs₁ : (if s.registry.has previous = true then s.emit (.reopened previous) else s) = s₁
    have hs₁' : Kept none s₁ := by
      subst hs₁
      split
      · rename_i hhas
        refine h.emit (.reopened previous) (fun _ _ _ heq => by cases heq) trivial
          ⟨hidle hbusy, ?_⟩
        obtain ⟨ref', href'⟩ := Option.isSome_iff_exists.1 hhas
        have hsame := hcaptured ref' href'
        subst hsame
        cases hentry : s.entries[ref']? with
        | none =>
          rw [hentry] at hgoes
          exact absurd rfl hgoes.2
        | some entry =>
          rw [hentry] at hgoes
          exact h.untouched hhelper href' hentry (by simpa using hgoes.2)
      · exact h
    split
    · exact h.setPhase trivial
    · rename_i s₂ hdispose
      obtain ⟨hs₂, hnone, -⟩ := hs₁'.disposeHelper hdispose
      exact hs₂.askSettings hnone
  · exact h

/-! ### Creation -/

/-- A Session that is not a helper's. -/
theorem register (h : Kept gone s) {helper untouched : Bool}
    (hobject : s.objects.get id = none) : Kept gone (s.register id helper untouched) := by
  have hget : ∀ {id' other}, s.objects.get id' = some other →
      (s.registry.set id s.entries.length).get id' = s.registry.get id' := fun {id' other} hother => by
    refine InsertionMap.get_set_ne _ _ fun heq => ?_
    rw [← heq, hobject] at hother
    cases hother
  have hentry : ∀ {id' ref}, s.registry.get id' = some ref →
      (s.register id helper untouched).entries[ref]? = s.entries[ref]? := fun {id' ref} href =>
    List.getElem?_append_left (h.refs id' ref href)
  constructor
  · exact h.owned
  · exact h.spawned
  · exact h.reachable
  · exact fun id' other hother => (h.live id' other hother).imp_left fun ⟨ref, href⟩ =>
      ⟨ref, (hget hother).trans href⟩
  · intro id' ref href
    unfold HelperStore.register at href ⊢
    rw [List.length_append, List.length_singleton]
    rw [InsertionMap.get_set] at href
    split at href
    · cases href
      exact Nat.lt_succ_self _
    · exact Nat.lt_succ_of_lt (h.refs id' ref href)
  · intro e he
    have hmarked := h.marked e he
    cases e with
    | input id' =>
      intro other ref entry hother href hfound
      have href' : s.registry.get id' = some ref := (hget hother).symm.trans href
      exact hmarked other ref entry hother href' ((hentry href').symm.trans hfound)
    | promotionBegan id' =>
      intro other hother
      refine ⟨(hmarked other hother).1, fun ref entry href hfound => ?_⟩
      have href' : s.registry.get id' = some ref := (hget hother).symm.trans href
      exact (hmarked other hother).2 ref entry href' ((hentry href').symm.trans hfound)
    | _ => exact hmarked
  · intro parentId phase hphase
    have hok := h.phases parentId phase hphase
    have hcaptured : ∀ {id' ref}, Captured s id' ref →
        Captured (s.register id helper untouched) id' ref := fun {id' ref} hc => by
      obtain ⟨⟨other, hother⟩, href⟩ := hc
      exact ⟨⟨other, hother⟩, fun ref' href' => href ref' ((hget hother).symm.trans href')⟩
    cases phase with
    | inspecting inspection => exact hcaptured hok
    | inspected previous ref busy => exact ⟨hcaptured hok.1, hok.2⟩
    | _ => exact hok
  · exact h.justified

/-- A fresh Session becomes the helper of a parent that has none. -/
theorem adopt (h : Kept none s) (helper : HelperTerminal) (hnone : s.helpers.get parentId = none)
    (hparent : helper.parentId = parentId) (hphase : s.pending.get parentId = some .done)
    (hobject : s.objects.get id = none) (hsession : ∃ ref, s.registry.get id = some ref)
    (hevents : ∀ e ∈ s.events, e.session ≠ id) :
    Kept none (HelperStore.emit { s with
      objects := s.objects.set id helper
      helpers := s.helpers.set parentId id } (.spawned id parentId helper.command)) := by
  have hobjects : ∀ {id' other}, s.objects.get id' = some other →
      (s.objects.set id helper).get id' = some other := fun {id' other} hother => by
    rw [InsertionMap.get_set_ne _ _ fun heq => ?_]
    · exact hother
    · rw [← heq, hobject] at hother
      cases hother
  have hold : ∀ {id' other}, id' ≠ id → (s.objects.set id helper).get id' = some other →
      s.objects.get id' = some other := fun hne hother => by
    rwa [InsertionMap.get_set_ne _ _ (Ne.symm hne)] at hother
  constructor
  · intro parentId' id' hid'
    rw [show (HelperStore.emit _ _).helpers = s.helpers.set parentId id from rfl,
      InsertionMap.get_set] at hid'
    split at hid'
    · rename_i heq
      cases hid'
      exact ⟨helper, InsertionMap.get_set_self _ _ _, hparent.trans heq⟩
    · obtain ⟨other, hother, hother'⟩ := h.owned parentId' id' hid'
      exact ⟨other, hobjects hother, hother'⟩
  · intro id' parentId' command hmem
    rcases List.mem_append.1 hmem with hmem | hmem
    · obtain ⟨other, hother, hother'⟩ := h.spawned id' parentId' command hmem
      exact ⟨other, hobjects hother, hother'⟩
    · cases List.mem_singleton.1 hmem
      exact ⟨helper, InsertionMap.get_set_self _ _ _, hparent⟩
  · intro id' other hother
    show (s.helpers.set parentId id).get other.parentId = some id' ∨ _
    by_cases heq : id' = id
    · subst heq
      have hsame : helper = other :=
        Option.some.inj ((InsertionMap.get_set_self _ _ _).symm.trans hother)
      rw [← hsame, hparent]
      exact .inl (InsertionMap.get_set_self _ _ _)
    rcases h.reachable id' other (hold heq hother) with howner | hpromoted | hdisposed | hspared
    · refine .inl ?_
      rw [InsertionMap.get_set_ne _ _ fun heq => ?_]
      · exact howner
      · rw [← heq, hnone] at howner
        cases howner
    · exact .inr (.inl (List.mem_append_left _ hpromoted))
    · exact .inr (.inr (.inl (List.mem_append_left _ hdisposed)))
    · cases hspared
  · intro id' other hother
    by_cases heq : id' = id
    · exact .inl (heq ▸ hsession)
    · exact (h.live id' other (hold heq hother)).imp_right (List.mem_append_left _)
  · exact h.refs
  · intro e he
    rcases List.mem_append.1 he with he | he
    · have hmarked := h.marked e he
      have hne := hevents e he
      cases e with
      | autorun id' command pane => exact fun other hother => hmarked other (hold hne hother)
      | input id' =>
        exact fun other ref entry hother => hmarked other ref entry (hold hne hother)
      | promotionBegan id' => exact fun other hother => hmarked other (hold hne hother)
      | _ => exact trivial
    · rw [List.mem_singleton.1 he]
      exact trivial
  · intro parentId' phase hphase'
    have hok := h.phases parentId' phase hphase'
    cases phase with
    | inspecting inspection =>
      exact ⟨hok.1.elim fun other hother => ⟨other, hobjects hother⟩, hok.2⟩
    | inspected previous ref busy =>
      exact ⟨⟨hok.1.1.elim fun other hother => ⟨other, hobjects hother⟩, hok.1.2⟩,
        fun hbusy => List.mem_append_left _ (hok.2 hbusy)⟩
    | settling =>
      show (s.helpers.set parentId id).get parentId' = none
      rw [InsertionMap.get_set_ne _ _ fun heq => ?_]
      · exact hok
      · have hsettling : s.pending.get parentId' = some .settling := hphase'
        rw [← heq, hphase] at hsettling
        cases hsettling
    | done => exact trivial
  · exact h.justified.concat trivial

theorem createHelper (h : Kept none s) {command : JsString} {now : Ms}
    (hnone : s.helpers.get parentId = none) (hphase : s.pending.get parentId = some .done)
    (hfresh : Fresh s id) : Kept none (s.createHelper parentId id command now) := by
  have hregistered : Kept none (s.register id true true) :=
    h.register hfresh.object
  have hadopted := hregistered.adopt
    (⟨parentId, command, if command = [] then .off else .waiting, false, none⟩ : HelperTerminal)
    hnone rfl hphase hfresh.object ⟨_, InsertionMap.get_set_self _ _ _⟩ hfresh.events
  exact hadopted.frame ((Frame.notifyHelpers _).trans (Frame.watchHelper _ _ _ _))

theorem openSettled (h : Kept none s) {settings : Option (Option JsString)} {now : Ms}
    (hfresh : Fresh s id) : Kept none (s.openSettled parentId settings id now) := by
  unfold HelperStore.openSettled
  split
  · rename_i hphase
    have hnone : s.helpers.get parentId = none := h.phases parentId _ hphase
    have hdone : Kept none (s.setPhase parentId .done) := h.setPhase trivial
    split
    · exact hdone
    · dsimp only
      split
      · exact hdone.createHelper hnone (InsertionMap.get_set_self _ _ _)
          ⟨hfresh.object, hfresh.session, hfresh.events⟩
      · exact hdone
  · exact h

theorem openDone (h : Kept gone s) (parentId : JsString) : Kept gone (s.openDone parentId) := by
  unfold HelperStore.openDone
  split
  · refine ⟨h.owned, h.spawned, h.reachable, h.live, h.refs, fun e he => ?_,
      fun parentId' phase hphase => ?_, h.justified⟩
    · have hmarked := h.marked e he
      cases e <;> exact hmarked
    · obtain ⟨-, hphase⟩ := InsertionMap.get_of_delete hphase
      have hok := h.phases parentId' phase hphase
      cases phase <;> exact hok
  · exact h

/-! ### The autorun -/

theorem launches_spec {helper : HelperTerminal} {entry : TerminalEntry} {pane : HelperPane}
    {now started : Ms} (h : launches helper entry pane) :
    entry.untouched ∧ helper.status = .waiting ∧ pane.oscDriven ∧ atPrompt pane ∧
      pollStatus helper entry pane now started = .running := by
  unfold launches at h
  simp only [Bool.and_eq_true, Bool.not_eq_true', decide_eq_true_eq] at h
  obtain ⟨⟨⟨⟨hexited, huntouched⟩, hwaiting⟩, hosc⟩, hprompt⟩ := h
  refine ⟨huntouched, hwaiting, hosc, hprompt, ?_⟩
  unfold pollStatus
  simp [hexited, huntouched, hwaiting, hosc, hprompt]

theorem pollStatus_waiting {helper : HelperTerminal} {entry : TerminalEntry} {pane : HelperPane}
    {now started : Ms} (h : pollStatus helper entry pane now started = .waiting) :
    helper.status = .waiting := by
  unfold pollStatus at h
  split at h
  · cases h
  split at h
  · cases h
  · split at h
    · assumption
    · split at h
      · cases h
      · exact h

theorem emit_modifyObject (event : HelperEvent) (f : HelperTerminal → HelperTerminal) :
    (s.emit event).modifyObject id f = (s.modifyObject id f).emit event := by
  unfold HelperStore.modifyObject
  rw [show (s.emit event).objects = s.objects from rfl]
  cases s.objects.get id <;> rfl

theorem tick (h : Kept none s) (id : JsString) (now : Ms) (runId : JsString) :
    Kept none (s.tick host id now runId) := by
  unfold HelperStore.tick
  split
  · exact h
  rename_i helper hhelper
  split
  · exact h
  rename_i timer _
  split
  · exact h.frame (Frame.clearTimer _ _)
  rename_i ref entry hentry
  split
  · exact h.frame (Frame.clearTimer _ _)
  dsimp only
  generalize hstatus : pollStatus helper entry (s.panes id) now timer.started = status
  have hend : ∀ {s₁}, Kept none s₁ → Kept none (if status = .exited then s₁.clearTimer id
      else s₁.pollWork id ref timer status now) := by
    intro s₁ hs₁
    split
    · exact hs₁.frame (Frame.clearTimer _ _)
    · exact hs₁.frame (Frame.pollWork _ _ _ _ _ _)
  refine hend ?_
  by_cases hlaunches : launches helper entry (s.panes id) = true
  · -- The command is written, and the helper does not wait any more.
    obtain ⟨huntouched, hwaiting, hosc, hprompt, hrunning⟩ :=
      @launches_spec _ _ _ now timer.started hlaunches
    obtain ⟨href, hfound⟩ := entryOf_registry hentry
    have heq : status = .running := hstatus.symm.trans hrunning
    subst heq
    rw [if_pos hlaunches, if_neg (by rw [hwaiting]; exact (fun h => by cases h)), emit_modifyObject]
    have hframe : Frame s ((s.seedLaunchedCommand host now runId helper.command
        timer.launchCwd id).modifyObject id fun helper =>
          { helper with status := .running }) :=
      Frame.after (Frame.setStatus _ id (fun h => by cases h)) (Frame.of_eq rfl rfl rfl rfl rfl rfl)
    refine Kept.frame ((h.frame hframe).emit (.autorun id helper.command (s.panes id))
      (fun _ _ _ heq => by cases heq) ?_ ?_) (Frame.notifyHelpers _)
    · intro helper' hhelper'
      obtain ⟨helper₀, rfl⟩ := modifyObject_self hhelper'
      exact fun h => by cases h
    · rw [hframe.events]
      refine ⟨hosc, hprompt, fun e he => ⟨fun hruns => ?_,
        h.untouched hhelper href hfound huntouched e he⟩⟩
      have hmarked := h.marked e he
      cases e with
      | autorun id' command pane =>
        cases hruns
        exact hmarked helper hhelper hwaiting
      | _ => exact hruns
  · rw [if_neg hlaunches]
    split
    · exact h
    · rename_i hne
      refine h.frame (Frame.trans (Frame.setStatus s id fun heq => hne ?_)
        (Frame.notifyHelpers _))
      rw [heq]
      exact (pollStatus_waiting (hstatus.trans heq)).symm

end Kept

/-! ### Runs -/

/-- A parent's Session is not a helper's and has an id of its own, and a helper's id is fresh. -/
def Admits (s : HelperStore) : HelperOp → Prop
  | .register id _ => s.objects.get id = none ∧ s.registry.get id = none
  | .openSettled _ _ id _ => Fresh s id
  | _ => True

theorem Kept.step (h : Kept none s) {op : HelperOp} (hadmits : Admits s op) :
    Kept none (s.step host op) := by
  cases op with
  | register id untouched => exact h.register hadmits.1
  | disposeSession id => exact h.disposeSession id
  | shell id pane => exact h.frame (Frame.of_eq rfl rfl rfl rfl rfl rfl)
  | exit id =>
    unfold HelperStore.step
    dsimp only
    split
    · exact h
    · exact h.frame (Frame.modifyEntry s _ fun _ h => h)
  | input id => exact h.markSessionTouched id
  | setHelperVisible parentId visible now => exact h.frame (Frame.setHelperVisible _ _ _ _)
  | closeHelperParent parentId => exact h.closeHelperParent parentId
  | openHelper parentId => exact h.openHelper parentId
  | openInspected parentId answer => exact h.openInspected parentId answer
  | openContinue parentId => exact h.openContinue parentId
  | openSettled parentId settings id now => exact h.openSettled hadmits
  | openDone parentId => exact h.openDone parentId
  | tick id now runId => exact h.tick id now runId
  | pollInspected index answer => exact h.frame (Frame.pollInspected _ _ _)
  | beginPromotion parentId => exact h.beginPromotion parentId
  | promotionAnswered index failed now => exact h.frame (Frame.promotionAnswered _ _ _ _)
  | cancelPromotion parentId => exact h.frame (Frame.cancelPromotion _ _)
  | rollbackAnswered index now => exact h.frame (Frame.rollbackAnswered _ _ _)
  | finishPromotion parentId => exact h.finishPromotion parentId

/-- The runs of the helpers of a window. -/
def helperRuns (host : HelperHost) : System HelperStore HelperOp where
  init s := s = .empty
  step s op s' := Admits s op ∧ s' = s.step host op

/-- What there is to say of the helpers. -/
structure HelpersAccounted (s : HelperStore) : Prop where
  /-- A helper is its parent's, or has been promoted or disposed of. -/
  reachable : ∀ id parentId command, .spawned id parentId command ∈ s.events →
    s.helpers.get parentId = some id ∨ .promoted id ∈ s.events ∨ .disposed id ∈ s.events
  /-- A parent has one at most. -/
  one : ∀ id id' parentId command command', .spawned id parentId command ∈ s.events →
    .spawned id' parentId command' ∈ s.events →
      ¬(.promoted id ∈ s.events ∨ .disposed id ∈ s.events) →
      ¬(.promoted id' ∈ s.events ∨ .disposed id' ∈ s.events) → id = id'
  /-- An autorun and a reopening come to an untouched helper. -/
  justified : Preceded JustifiedHelper s.events

theorem Kept.accounted (h : Kept none s) : HelpersAccounted s := by
  have hreachable : ∀ id parentId command, .spawned id parentId command ∈ s.events →
      s.helpers.get parentId = some id ∨ .promoted id ∈ s.events ∨ .disposed id ∈ s.events := by
    intro id parentId command hmem
    obtain ⟨helper, hhelper, rfl⟩ := h.spawned id parentId command hmem
    rcases h.reachable id helper hhelper with howner | hpromoted | hdisposed | hspared
    · exact .inl howner
    · exact .inr (.inl hpromoted)
    · exact .inr (.inr hdisposed)
    · cases hspared
  refine ⟨hreachable, fun id id' parentId command command' hmem hmem' hlive hlive' => ?_,
    h.justified⟩
  have howner := (hreachable id parentId command hmem).resolve_right hlive
  have howner' := (hreachable id' parentId command' hmem').resolve_right hlive'
  exact Option.some.inj (howner.symm.trans howner')

/-- In every run, the helpers are accounted for at any time. -/
theorem helpers_accounted (hs : (helperRuns host).Reachable s) : HelpersAccounted s := by
  have hinductive : (helperRuns host).Inductive (Kept none) :=
    ⟨fun hinit => hinit ▸ Kept.empty, fun h ⟨hadmits, heq⟩ => heq ▸ h.step hadmits⟩
  exact (hinductive.reachable hs).accounted

/-- Every step of a run can happen. -/
def AdmitsAll (host : HelperHost) : HelperStore → List HelperOp → Prop
  | _, [] => True
  | s, op :: ops => Admits s op ∧ AdmitsAll host (s.step host op) ops

theorem reachable_run (ops : List HelperOp) (hs : (helperRuns host).Reachable s)
    (hops : AdmitsAll host s ops) : (helperRuns host).Reachable (ops.foldl (step host) s) := by
  induction ops generalizing s with
  | nil => exact hs
  | cons op ops ih => exact ih (hs.next ⟨hops.1, rfl⟩) hops.2

/-- A Session that is looked at, and its helper, which comes to a prompt. -/
def exampleHelperRun : List HelperOp :=
  [.register (js "parent") true, .setHelperVisible (js "parent") true 0, .openHelper (js "parent"),
    .openSettled (js "parent") (some none) (js "helper-1") 0, .openDone (js "parent"),
    .shell (js "helper-1") ⟨{ DEFAULT_TERMINAL_PANE_STATE with activity := .prompt }, true⟩,
    .tick (js "helper-1") 100 (js "run-1")]

def exampleHelperHost : HelperHost := ⟨true, fun _ _ => none⟩

/-- The command of the helper is written at its prompt. -/
theorem helpers_accounted_autorun :
    (exampleHelperRun.foldl (step exampleHelperHost) .empty).events =
        [.spawned (js "helper-1") (js "parent") (js "git status"),
          .autorun (js "helper-1") (js "git status")
            ⟨{ DEFAULT_TERMINAL_PANE_STATE with activity := .prompt }, true⟩] ∧
      HelpersAccounted (exampleHelperRun.foldl (step exampleHelperHost) .empty) := by
  have hadmits : AdmitsAll exampleHelperHost .empty exampleHelperRun :=
    ⟨⟨rfl, rfl⟩, trivial, trivial, ⟨rfl, rfl, fun _ he => nomatch he⟩, trivial, trivial, trivial,
      trivial⟩
  exact ⟨rfl, helpers_accounted (reachable_run exampleHelperRun (.start rfl) hadmits)⟩

end HelperStore

end Dormouse.Terminal
