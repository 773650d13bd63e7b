import Dormouse.Lib.Transition
import Dormouse.Pty.Core

/-!
# Dormouse.Pty.Helpers

**Who is whose helper** (`standalone/sidecar/pty-core.js`): the record that `spawn` and the
`promote` of `context` keep, over every order of spawns, kills, exits and promotions.

`validHelperOwner` looks at the prospective parent. It asks neither whether the new helper is a
parent itself, nor does `spawn` take the record back when the launch fails; apart from that no
helper has a helper.
-/

namespace Dormouse.Pty

/-- The helper option of a request, of which both members have to be strings. -/
inductive HelperOption
  | absent
  | malformed
  | given (helper : HelperIdentity)

namespace PtyCore

/-- Whether `spawn` goes on to launch a process. -/
def accepts (core : PtyCore) (id : JsString) : HelperOption → Bool
  | .absent => true
  | .malformed => false
  | .given helper => core.validHelperOwner id helper

/-- `spawn` with any helper option. -/
def spawnOption (core : PtyCore) (id : JsString) (helper : HelperOption) (p : Nat)
    (launched : Launch) : PtyCore × List Sent :=
  match helper with
  | .absent => core.spawn id none p launched
  | .malformed => (core, [.exit id 1])
  | .given helper => core.spawn id (some helper) p launched

/-- A spawn installs a process with an empty session, or leaves processes and sessions alone. -/
theorem spawnOption_cases (core : PtyCore) (id : JsString) (helper : HelperOption) (p : Nat)
    (launched : Launch) :
    (core.spawnOption id helper p launched).1.replay = core.replay ∧
      ((core.accepts id helper = true ∧ (∃ cwdWarning, launched = .started cwdWarning) ∧
          (core.spawnOption id helper p launched).1.ptys = core.ptys.set id p ∧
          (core.spawnOption id helper p launched).1.sessions = core.sessions.set id .empty) ∨
        (¬(core.accepts id helper = true ∧ ∃ cwdWarning, launched = .started cwdWarning) ∧
          (core.spawnOption id helper p launched).1.ptys = core.ptys ∧
          (core.spawnOption id helper p launched).1.sessions = core.sessions)) := by
  have hlaunch : ∀ core' : PtyCore, (core'.launch id p launched).1.replay = core'.replay ∧
      ((∃ cwdWarning, launched = .started cwdWarning) ∧
          (core'.launch id p launched).1.ptys = core'.ptys.set id p ∧
          (core'.launch id p launched).1.sessions = core'.sessions.set id .empty ∨
        (¬∃ cwdWarning, launched = .started cwdWarning) ∧
          (core'.launch id p launched).1.ptys = core'.ptys ∧
          (core'.launch id p launched).1.sessions = core'.sessions) := by
    intro core'
    cases launched with
    | threw message =>
      refine ⟨rfl, .inr ⟨?_, rfl, rfl⟩⟩
      rintro ⟨cwdWarning, hstarted⟩
      cases hstarted
    | started cwdWarning => exact ⟨rfl, .inl ⟨⟨cwdWarning, rfl⟩, rfl, rfl⟩⟩
  have hno : ∀ b : Bool, b = false → ¬(b = true ∧ ∃ cwdWarning, launched = .started cwdWarning) := by
    rintro b rfl ⟨htrue, -⟩
    cases htrue
  cases helper with
  | absent =>
    obtain ⟨hreplay, hstarted | ⟨hnot, hsame⟩⟩ :=
      hlaunch { core with helpers := core.helpers.delete id }
    · exact ⟨hreplay, .inl ⟨rfl, hstarted⟩⟩
    · exact ⟨hreplay, .inr ⟨fun hboth => hnot hboth.2, hsame⟩⟩
  | malformed => exact ⟨rfl, .inr ⟨hno _ rfl, rfl, rfl⟩⟩
  | given helper =>
    by_cases hvalid : core.validHelperOwner id helper = true
    · have hspawn : core.spawnOption id (.given helper) p launched =
          { core with helpers := core.helpers.set id helper }.launch id p launched := if_pos hvalid
      rw [hspawn]
      obtain ⟨hreplay, hstarted | ⟨hnot, hsame⟩⟩ :=
        hlaunch { core with helpers := core.helpers.set id helper }
      · exact ⟨hreplay, .inl ⟨hvalid, hstarted⟩⟩
      · exact ⟨hreplay, .inr ⟨fun hboth => hnot hboth.2, hsame⟩⟩
    · have hspawn : core.spawnOption id (.given helper) p launched = (core, [.exit id 1]) :=
        if_neg hvalid
      rw [hspawn]
      exact ⟨rfl, .inr ⟨fun hboth => hvalid hboth.1, rfl, rfl⟩⟩

/-- `context` with the operation `promote`. -/
def promote (core : PtyCore) (id : JsString) : HelperOption → Except JsString PtyCore
  | .absent => .ok { core with helpers := core.helpers.delete id }
  | .malformed => .error (js "Invalid helper owner")
  | .given helper =>
    if core.sessions.has id && core.validHelperOwner id helper then
      .ok { core with helpers := core.helpers.set id helper }
    else .error (js "Invalid helper owner")

def killAll (core : PtyCore) : PtyCore where
  replay := core.replay
  ptys := .empty
  helpers := .empty
  sessions := .empty

end PtyCore

/-! ### Runs -/

/-- The manager, with the ids that were launched and not killed since. -/
structure HelperHost where
  core : PtyCore
  spawns : Nat
  up : List JsString

inductive HelperEvent
  | spawn (id : JsString) (helper : HelperOption) (launched : Launch)
  | kill (id : JsString)
  | killAll
  /-- Any process that was started for `id` exits. -/
  | exit (id : JsString) (p : Nat)
  | promote (id : JsString) (restore : HelperOption)

namespace HelperHost

def create (replay : Bool) : HelperHost := ⟨.create replay, 0, []⟩

def step (s : HelperHost) : HelperEvent → HelperHost
  | .spawn id helper launched =>
    { core := (s.core.spawnOption id helper s.spawns launched).1
      spawns := s.spawns + 1
      up :=
        match s.core.accepts id helper, launched with
        | true, .started _ => id :: s.up
        | _, _ => s.up }
  | .kill id => { s with core := s.core.kill id, up := s.up.filter (· ≠ id) }
  | .killAll => { s with core := s.core.killAll, up := [] }
  | .exit id p => { s with core := s.core.onExit id p }
  | .promote id restore =>
    match s.core.promote id restore with
    | .ok core => { s with core }
    | .error _ => s

/-- The request is refused. -/
def Rejects (s : HelperHost) : HelperEvent → Prop
  | .spawn id helper _ => s.core.accepts id helper = false
  | .promote id restore => ∃ message, s.core.promote id restore = .error message
  | .kill _ | .killAll | .exit .. => False

/-- Helpers belong to parents. -/
structure Owned (helpers : InsertionMap JsString HelperIdentity) (up : List JsString) : Prop where
  flat : ∀ id helper, helpers.get id = some helper → helpers.get helper.parentId = none
  single : ∀ id id' helper helper', helpers.get id = some helper → helpers.get id' = some helper' →
    helper.parentId = helper'.parentId → id = id'
  notSelf : ∀ id helper, helpers.get id = some helper → helper.parentId ≠ id
  spawned : ∀ id helper, helpers.get id = some helper → id ∈ up

/-- What becomes a helper is nobody's parent, and is there although its launch may fail. -/
def Meets (s : HelperHost) : HelperEvent → Prop
  | .spawn id (.given helper) launched => s.core.validHelperOwner id helper = true →
      (∀ e ∈ s.core.helpers.entries, e.2.parentId ≠ id) ∧
        ((∃ message, launched = .threw message) → id ∈ s.up)
  | .promote id (.given helper) => id ∈ s.up → s.core.validHelperOwner id helper = true →
      ∀ e ∈ s.core.helpers.entries, e.2.parentId ≠ id
  | _ => True

def serving : System HelperHost HelperEvent where
  init s := ∃ replay, s = create replay
  step s e t := t = s.step e

/-- The runs whose steps all meet the condition. -/
def metServing : System HelperHost HelperEvent where
  init s := ∃ replay, s = create replay
  step s e t := s.Meets e ∧ t = s.step e

/-! ### The record -/

variable {helpers : InsertionMap JsString HelperIdentity} {up : List JsString} {id : JsString}
  {helper : HelperIdentity} {core : PtyCore} {s t : HelperHost}

/-- What `validHelperOwner` checks. -/
theorem validHelperOwner_spec (h : core.validHelperOwner id helper = true) :
    helper.parentId ≠ id ∧ core.helpers.get helper.parentId = none ∧
      ∀ id' other, core.helpers.get id' = some other → other.parentId = helper.parentId →
        id' = id := by
  simp only [PtyCore.validHelperOwner, Bool.and_eq_true, bne_iff_ne, ne_eq, Bool.not_eq_true'] at h
  obtain ⟨⟨⟨⟨-, hself⟩, -⟩, hnot⟩, hany⟩ := h
  refine ⟨hself, ?_, fun id' other hget hparent => ?_⟩
  · cases hget : core.helpers.get helper.parentId with
    | none => rfl
    | some other => simp [InsertionMap.has, hget] at hnot
  · by_contra hne
    have hmem : (id', other) ∈ core.helpers.entries := InsertionMap.get_eq_some.1 hget
    have hno := List.any_eq_false.1 hany _ hmem
    simp [hne, hparent] at hno

theorem Owned.empty : Owned .empty up where
  flat := nofun
  single := nofun
  notSelf := nofun
  spawned := nofun

theorem Owned.delete (h : Owned helpers up) : Owned (helpers.delete id) up where
  flat id' helper hget := by
    rw [InsertionMap.get_delete] at hget ⊢
    split at hget
    · cases hget
    · rw [h.flat id' helper hget, ite_self]
  single id' id'' helper helper' hget hget' := by
    rw [InsertionMap.get_delete] at hget hget'
    split at hget
    · cases hget
    · split at hget'
      · cases hget'
      · exact h.single id' id'' helper helper' hget hget'
  notSelf id' helper hget := by
    rw [InsertionMap.get_delete] at hget
    split at hget
    · cases hget
    · exact h.notSelf id' helper hget
  spawned id' helper hget := by
    rw [InsertionMap.get_delete] at hget
    split at hget
    · cases hget
    · exact h.spawned id' helper hget

/-- The ids that are up may change where nobody is a helper. -/
theorem Owned.of_up {up' : List JsString} (h : Owned helpers up)
    (hup : ∀ id helper, helpers.get id = some helper → id ∈ up → id ∈ up') : Owned helpers up' :=
  { h with
    spawned id helper hget := hup id helper hget (h.spawned id helper hget) }

/-- A new helper: what the check leaves open is whether it is a parent, and whether it is up. -/
theorem owned_set_iff (h : Owned core.helpers up) (hvalid : core.validHelperOwner id helper = true) :
    Owned (core.helpers.set id helper) up ↔
      (∀ e ∈ core.helpers.entries, e.2.parentId ≠ id) ∧ id ∈ up := by
  obtain ⟨hself, hflat, hsingle⟩ := validHelperOwner_spec hvalid
  constructor
  · intro howned
    refine ⟨fun e he hparent => ?_, howned.spawned id helper (InsertionMap.get_set_self ..)⟩
    have hget : core.helpers.get e.1 = some e.2 := InsertionMap.get_eq_some.2 he
    have hne : id ≠ e.1 := fun heq => h.notSelf e.1 e.2 hget (hparent.trans heq)
    have hnone := howned.flat e.1 e.2 ((InsertionMap.get_set_ne _ _ hne).trans hget)
    rw [hparent, InsertionMap.get_set_self] at hnone
    exact absurd hnone nofun
  · rintro ⟨hparent, hmem⟩
    have hcases : ∀ id' other, (core.helpers.set id helper).get id' = some other →
        id' = id ∧ other = helper ∨ id' ≠ id ∧ core.helpers.get id' = some other := by
      intro id' other hget
      rw [InsertionMap.get_set] at hget
      split at hget
      · rename_i heq
        exact .inl ⟨heq.symm, (Option.some.inj hget).symm⟩
      · rename_i hne
        exact .inr ⟨fun heq => hne heq.symm, hget⟩
    exact {
      flat := fun id' other hget => by
        rcases hcases id' other hget with ⟨-, rfl⟩ | ⟨-, hget⟩
        · rw [InsertionMap.get_set_ne _ _ hself.symm, hflat]
        · have hne : id ≠ other.parentId := fun heq =>
            hparent (id', other) (InsertionMap.get_eq_some.1 hget) heq.symm
          rw [InsertionMap.get_set_ne _ _ hne, h.flat id' other hget]
      single := fun id' id'' other other' hget hget' hsame => by
        rcases hcases id' other hget with ⟨hid, hother⟩ | ⟨-, hget⟩ <;>
          rcases hcases id'' other' hget' with ⟨hid', hother'⟩ | ⟨-, hget'⟩
        · exact hid.trans hid'.symm
        · exact hid.trans (hsingle id'' other' hget' (hother ▸ hsame.symm)).symm
        · exact (hsingle id' other hget (hother' ▸ hsame)).trans hid'.symm
        · exact h.single id' id'' other other' hget hget' hsame
      notSelf := fun id' other hget => by
        rcases hcases id' other hget with ⟨rfl, rfl⟩ | ⟨-, hget⟩
        · exact hself
        · exact h.notSelf id' other hget
      spawned := fun id' other hget => by
        rcases hcases id' other hget with ⟨rfl, -⟩ | ⟨-, hget⟩
        · exact hmem
        · exact h.spawned id' other hget }

/-! ### Each event -/

structure Sound (s : HelperHost) : Prop where
  owned : Owned s.core.helpers s.up
  /-- Every spawned, unkilled PTY has a session. -/
  sessions : ∀ id, s.core.sessions.has id = true ↔ id ∈ s.up

theorem sound_create (replay : Bool) : (create replay).Sound where
  owned := .empty
  sessions id := by simp [create, PtyCore.create, InsertionMap.has]

/-- The sessions are those of the ids that are up, whatever comes. -/
theorem sessions_step (h : ∀ id, s.core.sessions.has id = true ↔ id ∈ s.up) (e : HelperEvent)
    (id' : JsString) : (s.step e).core.sessions.has id' = true ↔ id' ∈ (s.step e).up := by
  cases e with
  | spawn id helper launched =>
    obtain ⟨-, ⟨haccepts, ⟨cwdWarning, rfl⟩, -, hsessions⟩ | ⟨hnot, -, hsessions⟩⟩ :=
      s.core.spawnOption_cases id helper s.spawns launched
    · simp only [step, hsessions, haccepts]
      rw [InsertionMap.has_set, List.mem_cons, h id', eq_comm]
    · simp only [step, hsessions]
      split
      · rename_i cwdWarning haccepts
        exact absurd ⟨haccepts, cwdWarning, rfl⟩ hnot
      · exact h id'
  | kill id =>
    show (s.core.sessions.delete id).has id' = true ↔ id' ∈ s.up.filter (· ≠ id)
    rw [InsertionMap.has_delete, List.mem_filter, h id', and_comm, decide_eq_true_iff, ne_comm]
  | killAll => simp [step, PtyCore.killAll, InsertionMap.has]
  | exit id p =>
    simp only [step, PtyCore.onExit]
    split <;> exact h id'
  | promote id restore =>
    cases restore with
    | absent => exact h id'
    | malformed => exact h id'
    | given helper =>
      simp only [step, PtyCore.promote]
      split
      · rename_i core hcore
        split at hcore
        · cases hcore
          exact h id'
        · cases hcore
      · exact h id'

/-- Exactly the events that meet the condition keep helpers with parents. -/
theorem Sound.owned_step_iff (h : s.Sound) (e : HelperEvent) :
    Owned (s.step e).core.helpers (s.step e).up ↔ s.Meets e := by
  cases e with
  | spawn id helper launched =>
    have hgrows : ∀ id' : JsString, id' ∈ s.up → id' ∈ id :: s.up := fun _ =>
      List.mem_cons_of_mem id
    cases helper with
    | absent =>
      refine iff_of_true ?_ trivial
      cases launched with
      | threw message => exact h.owned.delete
      | started cwdWarning => exact h.owned.delete.of_up fun id' _ _ => hgrows id'
    | malformed => exact iff_of_true h.owned trivial
    | given helper =>
      by_cases hvalid : s.core.validHelperOwner id helper = true
      · simp only [step, PtyCore.spawnOption, PtyCore.accepts, PtyCore.spawn, hvalid, if_true]
        cases launched with
        | threw message =>
          refine (owned_set_iff h.owned hvalid).trans ?_
          exact ⟨fun hset _ => ⟨hset.1, fun _ => hset.2⟩,
            fun hmeets => ⟨(hmeets hvalid).1, (hmeets hvalid).2 ⟨message, rfl⟩⟩⟩
        | started cwdWarning =>
          have howned := h.owned.of_up fun id' _ _ => hgrows id'
          refine (owned_set_iff howned hvalid).trans ?_
          exact ⟨fun hset _ => ⟨hset.1, fun hthrew => nomatch hthrew⟩,
            fun hmeets => ⟨(hmeets hvalid).1, List.mem_cons_self⟩⟩
      · simp only [step, PtyCore.spawnOption, PtyCore.accepts, PtyCore.spawn, hvalid]
        exact iff_of_true h.owned fun hvalid' => absurd hvalid' hvalid
  | kill id =>
    refine iff_of_true (h.owned.delete.of_up fun id' helper hget hmem => ?_) trivial
    have hne : id' ≠ id := fun heq => by
      rw [heq, InsertionMap.get_delete_self] at hget
      exact absurd hget nofun
    exact List.mem_filter.2 ⟨hmem, decide_eq_true hne⟩
  | killAll => exact iff_of_true .empty trivial
  | exit id p =>
    refine iff_of_true ?_ trivial
    simp only [step, PtyCore.onExit]
    split <;> exact h.owned
  | promote id restore =>
    cases restore with
    | absent => exact iff_of_true h.owned.delete trivial
    | malformed => exact iff_of_true h.owned trivial
    | given helper =>
      by_cases hboth : id ∈ s.up ∧ s.core.validHelperOwner id helper = true
      · have hok : (s.core.sessions.has id && s.core.validHelperOwner id helper) = true :=
          Bool.and_eq_true_iff.2 ⟨(h.sessions id).2 hboth.1, hboth.2⟩
        simp only [step, PtyCore.promote, hok, if_true]
        refine (owned_set_iff h.owned hboth.2).trans ?_
        exact ⟨fun hset _ _ => hset.1, fun hmeets => ⟨hmeets hboth.1 hboth.2, hboth.1⟩⟩
      · have hno : ¬(s.core.sessions.has id && s.core.validHelperOwner id helper) = true := by
          rw [Bool.and_eq_true, h.sessions id]
          exact hboth
        simp only [step, PtyCore.promote, if_neg hno]
        exact iff_of_true h.owned fun hmem hvalid => absurd ⟨hmem, hvalid⟩ hboth

/-- What is refused leaves the record as it was. -/
theorem helpers_of_rejects {e : HelperEvent} (h : s.Rejects e) :
    (s.step e).core.helpers = s.core.helpers := by
  cases e with
  | spawn id helper launched =>
    cases helper with
    | absent => exact absurd h Bool.noConfusion
    | malformed => rfl
    | given helper =>
      have h : s.core.validHelperOwner id helper = false := h
      simp only [step, PtyCore.spawnOption, PtyCore.spawn, h]
      rfl
  | promote id restore =>
    obtain ⟨message, h⟩ := h
    simp only [step, h]
  | kill id => exact h.elim
  | killAll => exact h.elim
  | exit id p => exact h.elim

theorem inductive_sound : metServing.Inductive Sound where
  init := by
    rintro _ ⟨replay, rfl⟩
    exact sound_create replay
  step := by
    rintro s _ e h ⟨hmeets, rfl⟩
    exact ⟨(h.owned_step_iff e).2 hmeets, sessions_step h.sessions e⟩

/-- In every run whose steps meet the condition helpers belong to parents, and the first step that
does not meet it is the one that breaks this. -/
theorem helpers_owned (h : metServing.Reachable s) : Owned s.core.helpers s.up ∧
    ∀ e, (Owned (s.step e).core.helpers (s.step e).up ↔ s.Meets e) ∧
      (s.Rejects e → (s.step e).core.helpers = s.core.helpers) :=
  have hsound := inductive_sound.reachable h
  ⟨hsound.owned, fun e => ⟨hsound.owned_step_iff e, helpers_of_rejects⟩⟩

/-- A helper of a parent. -/
theorem helpers_owned_helper : ∃ s, metServing.Reachable s ∧
    s.core.helpers.get (js "b") = some ⟨js "a", []⟩ ∧ Owned s.core.helpers s.up := by
  let s₁ := (create true).step (.spawn (js "a") .absent (.started none))
  let e := HelperEvent.spawn (js "b") (.given ⟨js "a", []⟩) (.started none)
  have h₁ : metServing.Reachable s₁ :=
    .next (a := .spawn (js "a") .absent (.started none)) (.start ⟨true, rfl⟩) ⟨trivial, rfl⟩
  have h₂ : metServing.Reachable (s₁.step e) := by
    refine .next (a := e) h₁ ⟨fun _ => ⟨fun _ hmem => absurd hmem List.not_mem_nil, ?_⟩, rfl⟩
    rintro ⟨message, hthrew⟩
    cases hthrew
  exact ⟨_, h₂, by decide, (helpers_owned h₂).1⟩

/-- A parent becomes a helper; and a helper is recorded whose launch failed. -/
theorem helper_has_helper : (∃ s, serving.Reachable s ∧
      s.core.helpers.get (js "b") = some ⟨js "a", []⟩ ∧
      s.core.helpers.get (js "a") = some ⟨js "c", []⟩ ∧ ¬Owned s.core.helpers s.up) ∧
    ∃ s, serving.Reachable s ∧ s.core.helpers.get (js "b") = some ⟨js "a", []⟩ ∧
      js "b" ∉ s.up ∧ ¬Owned s.core.helpers s.up := by
  let s₁ := (create true).step (.spawn (js "a") .absent (.started none))
  let s₂ := s₁.step (.spawn (js "c") .absent (.started none))
  let s₃ := s₂.step (.spawn (js "b") (.given ⟨js "a", []⟩) (.started none))
  let s₄ := s₃.step (.promote (js "a") (.given ⟨js "c", []⟩))
  let s₅ := s₁.step (.spawn (js "b") (.given ⟨js "a", []⟩) (.threw []))
  have h₁ : serving.Reachable s₁ :=
    .next (a := .spawn (js "a") .absent (.started none)) (.start ⟨true, rfl⟩) rfl
  have h₂ : serving.Reachable s₂ :=
    .next (a := .spawn (js "c") .absent (.started none)) h₁ rfl
  have h₃ : serving.Reachable s₃ :=
    .next (a := .spawn (js "b") (.given ⟨js "a", []⟩) (.started none)) h₂ rfl
  have h₄ : serving.Reachable s₄ := .next (a := .promote (js "a") (.given ⟨js "c", []⟩)) h₃ rfl
  have h₅ : serving.Reachable s₅ :=
    .next (a := .spawn (js "b") (.given ⟨js "a", []⟩) (.threw [])) h₁ rfl
  have hb : s₄.core.helpers.get (js "b") = some ⟨js "a", []⟩ := by decide
  have ha : s₄.core.helpers.get (js "a") = some ⟨js "c", []⟩ := by decide
  have hb' : s₅.core.helpers.get (js "b") = some ⟨js "a", []⟩ := by decide
  have hdown : js "b" ∉ s₅.up := by decide
  refine ⟨⟨s₄, h₄, hb, ha, fun howned => ?_⟩, s₅, h₅, hb', hdown, fun howned => ?_⟩
  · exact absurd (ha.symm.trans (howned.flat _ _ hb)) nofun
  · exact hdown (howned.spawned _ _ hb')

end HelperHost

end Dormouse.Pty
