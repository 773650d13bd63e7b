import Dormouse.Lib.Transition
import Dormouse.Pty.Helpers
import Mathlib.Data.Set.Insert

/-!
# Dormouse.Pty.Repaint

The **forced repaint** (`resize` of `standalone/sidecar/pty-core.js`): a size that is wrong by one
row is applied on purpose, and a timer applies the right one.

A process may die before its `onExit` callback comes; from then on node-pty throws when it is
resized. The timers of the event loop are kept beside the map of `pty-core`, so that what a
cancelled or superseded one would do is part of the model.
-/

namespace Dormouse.Pty

/-- The size of a terminal. Every caller has it from a terminal or has clamped it. -/
structure TerminalSize where
  cols : Nat
  rows : Nat
  cols_pos : 0 < cols
  rows_pos : 0 < rows
  deriving DecidableEq

/-- The size that is applied first, to make the process repaint. -/
def TerminalSize.bounce (size : TerminalSize) : TerminalSize where
  cols := size.cols
  rows := if size.rows > 1 then size.rows - 1 else size.rows + 1
  cols_pos := size.cols_pos
  rows_pos := by
    split
    · omega
    · omega

/-- What the callback of a timer has captured. -/
structure RepaintTimer where
  id : JsString
  process : Nat
  size : TerminalSize

structure RepaintHost where
  core : PtyCore
  /-- The ids of the processes, in the order of their launches. -/
  processes : List JsString
  /-- The processes that have died. -/
  died : List Nat
  repaintTimers : InsertionMap JsString Nat
  /-- The timers that the event loop has armed. -/
  timers : InsertionMap Nat RepaintTimer
  timersSet : Nat
  applied : Nat → Option TerminalSize
  requested : Nat → Option TerminalSize

inductive RepaintEvent
  | spawn (id : JsString) (helper : HelperOption) (launched : Launch)
  /-- By whichever display. -/
  | resize (id : JsString) (size : TerminalSize) (repaint : Bool)
  | kill (id : JsString)
  | killAll
  | die (p : Nat)
  /-- The callback that a process which died is owed. -/
  | exit (p : Nat)
  | fire (timer : Nat)

namespace RepaintHost

def create (replay : Bool) : RepaintHost where
  core := .create replay
  processes := []
  died := []
  repaintTimers := .empty
  timers := .empty
  timersSet := 0
  applied _ := none
  requested _ := none

def cancelRepaint (s : RepaintHost) (id : JsString) : RepaintHost :=
  match s.repaintTimers.get id with
  | none => s
  | some timer =>
    { s with timers := s.timers.delete timer, repaintTimers := s.repaintTimers.delete id }

def spawn (s : RepaintHost) (id : JsString) (helper : HelperOption) (launched : Launch) :
    RepaintHost :=
  let core := (s.core.spawnOption id helper s.processes.length launched).1
  match s.core.accepts id helper, launched with
  | true, .started _ => { s.cancelRepaint id with core, processes := s.processes ++ [id] }
  | _, _ => { s with core }

/-- `p.resize`, which throws once the process has died. -/
def applySize (s : RepaintHost) (p : Nat) (size : TerminalSize) : RepaintHost :=
  if p ∈ s.died then s else { s with applied := Function.update s.applied p (some size) }

/-- The size that was requested of the process. -/
def request (s : RepaintHost) (p : Nat) (size : TerminalSize) : RepaintHost :=
  { s with requested := Function.update s.requested p (some size) }

def setTimer (s : RepaintHost) (timer : RepaintTimer) : RepaintHost :=
  { s with
    timers := s.timers.set s.timersSet timer
    timersSet := s.timersSet + 1
    repaintTimers := s.repaintTimers.set timer.id s.timersSet }

def resize (s : RepaintHost) (id : JsString) (size : TerminalSize) (repaint : Bool) :
    RepaintHost :=
  let s := s.cancelRepaint id
  match s.core.ptys.get id with
  | none => s
  | some p =>
    let s := s.request p size
    if !repaint then s.applySize p size
    else if p ∈ s.died then s
    else (s.applySize p size.bounce).setTimer ⟨id, p, size⟩

def kill (s : RepaintHost) (id : JsString) : RepaintHost :=
  let s := s.cancelRepaint id
  { s with core := s.core.kill id }

def killAll (s : RepaintHost) : RepaintHost :=
  let s := s.repaintTimers.keys.foldl cancelRepaint s
  { s with core := s.core.killAll }

def exit (s : RepaintHost) (id : JsString) (p : Nat) : RepaintHost :=
  let s := if s.core.ptys.get id = some p then s.cancelRepaint id else s
  { s with core := s.core.onExit id p }

/-- The callback of a timer. -/
def fire (s : RepaintHost) (timer : Nat) (armed : RepaintTimer) : RepaintHost :=
  let s := { s with timers := s.timers.delete timer }
  if s.repaintTimers.get armed.id ≠ some timer then s
  else
    let s := { s with repaintTimers := s.repaintTimers.delete armed.id }
    if s.core.ptys.get armed.id ≠ some armed.process then s
    else s.applySize armed.process armed.size

def step (s : RepaintHost) : RepaintEvent → Option RepaintHost
  | .spawn id helper launched => some (s.spawn id helper launched)
  | .resize id size repaint => some (s.resize id size repaint)
  | .kill id => some (s.kill id)
  | .killAll => some s.killAll
  | .die p => some { s with died := p :: s.died }
  | .exit p => if p ∈ s.died then (s.processes[p]?).map fun id => s.exit id p else none
  | .fire timer => (s.timers.get timer).map fun armed => s.fire timer armed

def serving : System RepaintHost RepaintEvent where
  init s := ∃ replay, s = create replay
  step s e t := s.step e = some t

/-- A timer is armed for the id. -/
def Armed (s : RepaintHost) (id : JsString) : Prop :=
  ∃ timer armed, s.timers.get timer = some armed ∧ armed.id = id

/-- No wrong size is left. -/
structure Restores (s : RepaintHost) : Prop where
  one : ∀ timer timer' armed armed', s.timers.get timer = some armed →
    s.timers.get timer' = some armed' → armed.id = armed'.id → timer = timer'
  settled : ∀ id p size, s.core.ptys.get id = some p → p ∉ s.died → ¬s.Armed id →
    s.requested p = some size → s.applied p = some size

/-! ### The invariant -/

variable {s t : RepaintHost} {id id' : JsString} {timer p : Nat} {size : TerminalSize}
  {loose : Set JsString}

/-- Between two statements some ids may be `loose`: their size is about to be applied, or their
process to go. -/
structure Sound (s : RepaintHost) (loose : Set JsString) : Prop where
  /-- The event loop has the timers of the map and no others, each for the process of its id and
  with the size that was requested last. -/
  armed : ∀ timer armed, s.timers.get timer = some armed →
    s.repaintTimers.get armed.id = some timer ∧ s.core.ptys.get armed.id = some armed.process ∧
      s.requested armed.process = some armed.size
  held : ∀ id timer, s.repaintTimers.get id = some timer →
    ∃ armed, s.timers.get timer = some armed ∧ armed.id = id
  fresh : ∀ timer armed, s.timers.get timer = some armed → timer < s.timersSet
  processes : ∀ id p, s.core.ptys.get id = some p → s.processes[p]? = some id
  settled : ∀ id, id ∉ loose → ∀ p, s.core.ptys.get id = some p → p ∉ s.died →
    s.repaintTimers.get id = none → s.applied p = s.requested p
  /-- Nothing is known of processes that are not launched yet. -/
  unlaunched : ∀ p, s.processes.length ≤ p → s.applied p = none ∧ s.requested p = none

theorem sound_create (replay : Bool) : (create replay).Sound ∅ where
  armed := nofun
  held := nofun
  fresh := nofun
  processes := nofun
  settled := nofun
  unlaunched _ _ := ⟨rfl, rfl⟩

/-- No process has two ids. -/
theorem Sound.unique (h : s.Sound loose) (hp : s.core.ptys.get id = some p)
    (hp' : s.core.ptys.get id' = some p) : id = id' :=
  Option.some.inj ((h.processes id p hp).symm.trans (h.processes id' p hp'))

theorem Sound.tight (h : s.Sound loose)
    (hsettled : ∀ id ∈ loose, ∀ p, s.core.ptys.get id = some p → p ∉ s.died →
      s.repaintTimers.get id = none → s.applied p = s.requested p) : s.Sound ∅ :=
  { h with
    settled := fun id _ => by
      by_cases hid : id ∈ loose
      · exact hsettled id hid
      · exact h.settled id hid }

/-! ### What a cancel leaves -/

/-- Only the timers go. -/
theorem cancelRepaint_fields (s : RepaintHost) (id : JsString) :
    (s.cancelRepaint id).core = s.core ∧ (s.cancelRepaint id).processes = s.processes ∧
      (s.cancelRepaint id).died = s.died ∧ (s.cancelRepaint id).timersSet = s.timersSet ∧
      (s.cancelRepaint id).applied = s.applied ∧ (s.cancelRepaint id).requested = s.requested := by
  unfold cancelRepaint
  split <;> exact ⟨rfl, rfl, rfl, rfl, rfl, rfl⟩

theorem repaintTimers_cancelRepaint : (s.cancelRepaint id).repaintTimers.get id' =
    if id = id' then none else s.repaintTimers.get id' := by
  unfold cancelRepaint
  split
  · rename_i hnone
    split
    · rename_i heq
      exact heq ▸ hnone
    · rfl
  · exact InsertionMap.get_delete ..

theorem Sound.timers_cancelRepaint (h : s.Sound loose) {armed : RepaintTimer} :
    (s.cancelRepaint id).timers.get timer = some armed ↔
      s.timers.get timer = some armed ∧ armed.id ≠ id := by
  unfold cancelRepaint
  split
  · rename_i hnone
    refine ⟨fun hget => ⟨hget, fun heq => ?_⟩, And.left⟩
    have hheld := (h.armed timer armed hget).1
    rw [heq, hnone] at hheld
    cases hheld
  rename_i timer' hsome
  show (s.timers.delete timer').get timer = some armed ↔ _
  rw [InsertionMap.get_delete]
  by_cases heq : timer' = timer
  · subst heq
    obtain ⟨armed', hget', hid'⟩ := h.held id timer' hsome
    rw [if_pos rfl, hget']
    refine ⟨(fun h => by cases h), fun hboth => absurd ?_ hboth.2⟩
    rw [← Option.some.inj hboth.1, hid']
  · rw [if_neg heq]
    refine ⟨fun hget => ⟨hget, fun hid => heq ?_⟩, And.left⟩
    have hheld := (h.armed timer armed hget).1
    rw [hid, hsome] at hheld
    exact Option.some.inj hheld

theorem Sound.cancelRepaint (h : s.Sound loose) : (s.cancelRepaint id).Sound (insert id loose) := by
  obtain ⟨hcore, hprocesses, hdied, htimersSet, happlied, hrequested⟩ := cancelRepaint_fields s id
  exact {
    armed := fun timer armed hget => by
      obtain ⟨hget, hne⟩ := h.timers_cancelRepaint.1 hget
      rw [repaintTimers_cancelRepaint, if_neg hne.symm, hcore, hrequested]
      exact h.armed timer armed hget
    held := fun id' timer hget => by
      rw [repaintTimers_cancelRepaint] at hget
      split at hget
      · cases hget
      · rename_i hne
        obtain ⟨armed, harmed, hid⟩ := h.held id' timer hget
        exact ⟨armed, h.timers_cancelRepaint.2 ⟨harmed, fun heq => hne (heq.symm.trans hid)⟩, hid⟩
    fresh := fun timer armed hget => by
      rw [htimersSet]
      exact h.fresh timer armed (h.timers_cancelRepaint.1 hget).1
    processes := by
      rw [hcore, hprocesses]
      exact h.processes
    settled := fun id' hid' p hp hlive hnone => by
      rw [hcore] at hp
      rw [hdied] at hlive
      rw [happlied, hrequested]
      have hne : id ≠ id' := fun heq => hid' (heq ▸ Set.mem_insert id loose)
      rw [repaintTimers_cancelRepaint, if_neg hne] at hnone
      exact h.settled id' (fun hmem => hid' (Set.mem_insert_of_mem id hmem)) p hp hlive hnone
    unlaunched := by
      rw [hprocesses, happlied, hrequested]
      exact h.unlaunched }

theorem Sound.cancelled (h : s.Sound ∅) : (s.cancelRepaint id).Sound {id} := by
  rw [← insert_empty_eq id]
  exact h.cancelRepaint

/-- A record of the process of an id without a timer; the others stay settled. -/
theorem Sound.request (h : s.Sound loose) (hp : s.core.ptys.get id = some p)
    (hnone : s.repaintTimers.get id = none) :
    (s.request p size).Sound (insert id loose) := by
  have hother : ∀ id' p', s.core.ptys.get id' = some p' → id' ≠ id → p' ≠ p :=
    fun id' p' hp' hne heq => hne (h.unique (heq ▸ hp') hp)
  exact {
    armed := fun timer armed hget => by
      obtain ⟨hheld, hprocess, hrequested⟩ := h.armed timer armed hget
      refine ⟨hheld, hprocess, ?_⟩
      have hne : armed.id ≠ id := fun heq => by
        rw [heq, hnone] at hheld
        exact absurd hheld nofun
      show Function.update s.requested p (some size) armed.process = some armed.size
      rw [Function.update_of_ne (hother armed.id armed.process hprocess hne), hrequested]
    held := h.held
    fresh := h.fresh
    processes := h.processes
    settled := fun id' hid' p' hp' hlive hnone' => by
      have hne : id' ≠ id := fun heq => hid' (heq ▸ Set.mem_insert id loose)
      show s.applied p' = Function.update s.requested p (some size) p'
      rw [Function.update_of_ne (hother id' p' hp' hne)]
      exact h.settled id' (fun hmem => hid' (Set.mem_insert_of_mem id hmem)) p' hp' hlive hnone'
    unlaunched := fun p' hp' => by
      have hne : p' ≠ p := by
        rintro rfl
        exact absurd (List.getElem?_eq_some_iff.1 (h.processes id p' hp)).1 (not_lt.2 hp')
      show s.applied p' = none ∧ Function.update s.requested p (some size) p' = none
      rw [Function.update_of_ne hne]
      exact h.unlaunched p' hp' }

theorem Sound.applySize (h : s.Sound loose) (hp : s.core.ptys.get id = some p) :
    (s.applySize p size).Sound (insert id loose) := by
  have hmono : ∀ id', id' ∉ insert id loose → id' ∉ loose := fun id' hid' hmem =>
    hid' (Set.mem_insert_of_mem id hmem)
  unfold RepaintHost.applySize
  split
  · exact { h with settled := fun id' hid' => h.settled id' (hmono id' hid') }
  exact {
    armed := h.armed
    held := h.held
    fresh := h.fresh
    processes := h.processes
    settled := fun id' hid' p' hp' hlive hnone' => by
      have hne : p' ≠ p := fun heq =>
        hid' (h.unique (heq ▸ hp') hp ▸ Set.mem_insert id loose)
      show Function.update s.applied p (some size) p' = s.requested p'
      rw [Function.update_of_ne hne]
      exact h.settled id' (hmono id' hid') p' hp' hlive hnone'
    unlaunched := fun p' hp' => by
      have hne : p' ≠ p := by
        rintro rfl
        exact absurd (List.getElem?_eq_some_iff.1 (h.processes id p' hp)).1 (not_lt.2 hp')
      show Function.update s.applied p (some size) p' = none ∧ s.requested p' = none
      rw [Function.update_of_ne hne]
      exact h.unlaunched p' hp' }

/-- The timer of an id that has none; nothing is asked of its size any more. -/
theorem Sound.setTimer (h : s.Sound loose) (hp : s.core.ptys.get id = some p)
    (hnone : s.repaintTimers.get id = none) (hrequested : s.requested p = some size) :
    (s.setTimer ⟨id, p, size⟩).Sound (loose \ {id}) := by
  have hcases : ∀ timer armed, (s.timers.set s.timersSet ⟨id, p, size⟩).get timer = some armed →
      timer = s.timersSet ∧ armed = ⟨id, p, size⟩ ∨ armed.id ≠ id ∧ timer < s.timersSet ∧
        s.timers.get timer = some armed := by
    intro timer armed hget
    rw [InsertionMap.get_set] at hget
    split at hget
    · rename_i heq
      exact .inl ⟨heq.symm, (Option.some.inj hget).symm⟩
    · refine .inr ⟨fun heq => ?_, h.fresh timer armed hget, hget⟩
      have hheld := (h.armed timer armed hget).1
      rw [heq, hnone] at hheld
      cases hheld
  exact {
    armed := fun timer armed hget => by
      rcases hcases timer armed hget with ⟨rfl, rfl⟩ | ⟨hne, -, hget⟩
      · exact ⟨InsertionMap.get_set_self .., hp, hrequested⟩
      · obtain ⟨hheld, hrest⟩ := h.armed timer armed hget
        exact ⟨(InsertionMap.get_set_ne _ _ hne.symm).trans hheld, hrest⟩
    held := fun id' timer hget => by
      have hget : (s.repaintTimers.set id s.timersSet).get id' = some timer := hget
      rw [InsertionMap.get_set] at hget
      split at hget
      · rename_i heq
        rw [← Option.some.inj hget]
        exact ⟨⟨id, p, size⟩, InsertionMap.get_set_self .., heq⟩
      · obtain ⟨armed, harmed, hid⟩ := h.held id' timer hget
        have hne : s.timersSet ≠ timer := (h.fresh timer armed harmed).ne'
        exact ⟨armed, (InsertionMap.get_set_ne _ _ hne).trans harmed, hid⟩
    fresh := fun timer armed hget => by
      show timer < s.timersSet + 1
      rcases hcases timer armed hget with ⟨rfl, -⟩ | ⟨-, hlt, -⟩ <;> omega
    processes := h.processes
    settled := fun id' hid' p' hp' hlive hnone' => by
      have hnone' : (s.repaintTimers.set id s.timersSet).get id' = none := hnone'
      rw [InsertionMap.get_set] at hnone'
      split at hnone'
      · cases hnone'
      · rename_i hne
        exact h.settled id' (fun hmem => hid' ⟨hmem, fun heq => hne heq.symm⟩) p' hp' hlive hnone'
    unlaunched := h.unlaunched }

/-! ### Each event -/

theorem applySize_of_live (h : p ∉ s.died) : s.applySize p size =
    { s with applied := Function.update s.applied p (some size) } := if_neg h

theorem mem_insert_self {id' : JsString} (h : id' ∈ insert id (insert id ({id} : Set JsString))) :
    id' = id := by
  rcases h with heq | heq | heq <;> exact heq

/-- Nothing is owed to a process that has died. -/
theorem Sound.requestDied (h : s.Sound {id}) (hp : s.core.ptys.get id = some p)
    (hnone : s.repaintTimers.get id = none) (hdied : p ∈ s.died) : (s.request p size).Sound ∅ := by
  refine (h.request hp hnone).tight fun id' hid' p' hp' hlive _ => ?_
  obtain rfl := mem_insert_self (Set.mem_insert_of_mem id hid')
  rw [Option.some.inj (hp'.symm.trans hp)] at hlive
  exact absurd hdied hlive

theorem Sound.resizePlain (h : s.Sound {id}) (hp : s.core.ptys.get id = some p)
    (hnone : s.repaintTimers.get id = none) : ((s.request p size).applySize p size).Sound ∅ := by
  by_cases hdied : p ∈ s.died
  · have hthrows : (s.request p size).applySize p size = s.request p size := if_pos hdied
    rw [hthrows]
    exact h.requestDied hp hnone hdied
  have hrequested : (s.request p size).requested p = some size := Function.update_self ..
  have happlied : ((s.request p size).applySize p size).Sound {id, id, id} :=
    (h.request hp hnone).applySize hp
  rw [applySize_of_live (s := s.request p size) hdied] at happlied ⊢
  refine happlied.tight fun id' hid' p' hp' _ _ => ?_
  obtain rfl := mem_insert_self hid'
  obtain rfl := Option.some.inj (hp'.symm.trans hp)
  exact (Function.update_self ..).trans hrequested.symm

theorem Sound.resizeBounce (h : s.Sound {id}) (hp : s.core.ptys.get id = some p)
    (hnone : s.repaintTimers.get id = none) (hlive : p ∉ s.died) :
    (((s.request p size).applySize p size.bounce).setTimer ⟨id, p, size⟩).Sound ∅ := by
  have happlied : ((s.request p size).applySize p size.bounce).Sound {id, id, id} :=
    (h.request hp hnone).applySize hp
  rw [applySize_of_live (s := s.request p size) hlive] at happlied ⊢
  have hset := happlied.setTimer hp hnone (Function.update_self ..)
  exact hset.tight fun id' hid' => absurd (mem_insert_self hid'.1) hid'.2

theorem Sound.resize (h : s.Sound ∅) {repaint : Bool} : (s.resize id size repaint).Sound ∅ := by
  have hcancelled : (s.cancelRepaint id).Sound {id} := h.cancelled
  have hnone : (s.cancelRepaint id).repaintTimers.get id = none := by
    rw [repaintTimers_cancelRepaint, if_pos rfl]
  unfold RepaintHost.resize
  dsimp only
  cases hp : (s.cancelRepaint id).core.ptys.get id with
  | none =>
    refine hcancelled.tight fun id' hid' p hp' => ?_
    rw [Set.mem_singleton_iff.1 hid', hp] at hp'
    exact absurd hp' nofun
  | some p =>
    cases repaint with
    | false => exact hcancelled.resizePlain hp hnone
    | true =>
      dsimp only
      rw [Bool.not_true, if_neg Bool.false_ne_true]
      split
      · rename_i hdied
        exact hcancelled.requestDied hp hnone hdied
      · rename_i hlive
        exact hcancelled.resizeBounce hp hnone hlive

/-- The PTYs of other ids stay, and the one of the id goes or stays without a timer. -/
theorem Sound.withCore (h : s.Sound {id}) {core : PtyCore}
    (hother : ∀ id', id' ≠ id → core.ptys.get id' = s.core.ptys.get id')
    (hgone : core.ptys.get id = none) (hnone : s.repaintTimers.get id = none) :
    { s with core }.Sound ∅ where
  armed timer armed hget := by
    obtain ⟨hheld, hprocess, hrequested⟩ := h.armed timer armed hget
    have hne : armed.id ≠ id := fun heq => by
      rw [heq, hnone] at hheld
      exact absurd hheld nofun
    exact ⟨hheld, (hother armed.id hne).trans hprocess, hrequested⟩
  held := h.held
  fresh := h.fresh
  processes id' p hp := by
    by_cases heq : id' = id
    · rw [heq] at hp
      exact absurd (hgone.symm.trans hp) nofun
    · exact h.processes id' p ((hother id' heq).symm.trans hp)
  settled id' _ p hp hlive hnone' := by
    by_cases heq : id' = id
    · rw [heq] at hp
      exact absurd (hgone.symm.trans hp) nofun
    · exact h.settled id' heq p ((hother id' heq).symm.trans hp) hlive hnone'
  unlaunched := h.unlaunched

theorem Sound.kill (h : s.Sound ∅) : (s.kill id).Sound ∅ := by
  have hcancelled : (s.cancelRepaint id).Sound {id} := h.cancelled
  refine hcancelled.withCore (fun id' hne => ?_) (InsertionMap.get_delete_self ..) ?_
  · exact InsertionMap.get_delete_ne _ hne.symm
  · rw [repaintTimers_cancelRepaint, if_pos rfl]

theorem Sound.exit (h : s.Sound ∅) : (s.exit id p).Sound ∅ := by
  unfold RepaintHost.exit
  dsimp only
  split
  · rename_i hp
    have hcancelled : (s.cancelRepaint id).Sound {id} := h.cancelled
    have hcore : (s.cancelRepaint id).core.onExit id p =
        { s.core with ptys := s.core.ptys.delete id } := by
      rw [(cancelRepaint_fields s id).1]
      exact if_pos hp
    rw [hcore]
    refine hcancelled.withCore (fun id' hne => ?_) (InsertionMap.get_delete_self ..) ?_
    · rw [(cancelRepaint_fields s id).1]
      exact InsertionMap.get_delete_ne _ hne.symm
    · rw [repaintTimers_cancelRepaint, if_pos rfl]
  · rename_i hother
    have hcore : s.core.onExit id p = s.core := if_neg hother
    rw [hcore]
    exact h

/-- A launch: the process is new, and so is nothing of its sizes known. -/
theorem Sound.launch (h : s.Sound {id}) {core : PtyCore}
    (hptys : core.ptys = s.core.ptys.set id s.processes.length)
    (hnone : s.repaintTimers.get id = none) :
    { s with core, processes := s.processes ++ [id] }.Sound ∅ where
  armed timer armed hget := by
    obtain ⟨hheld, hprocess, hrequested⟩ := h.armed timer armed hget
    have hne : id ≠ armed.id := fun heq => by
      rw [← heq, hnone] at hheld
      exact absurd hheld nofun
    refine ⟨hheld, ?_, hrequested⟩
    show core.ptys.get armed.id = some armed.process
    rw [hptys, InsertionMap.get_set_ne _ _ hne, hprocess]
  held := h.held
  fresh := h.fresh
  processes id' p hp := by
    have hp : core.ptys.get id' = some p := hp
    rw [hptys, InsertionMap.get_set] at hp
    split at hp
    · rename_i heq
      rw [← Option.some.inj hp, ← heq]
      simp
    · have hget := h.processes id' p hp
      exact (List.getElem?_append_left (List.getElem?_eq_some_iff.1 hget).1).trans hget
  settled id' _ p hp hlive hnone' := by
    have hp : core.ptys.get id' = some p := hp
    rw [hptys, InsertionMap.get_set] at hp
    split at hp
    · obtain ⟨happlied, hrequested⟩ := h.unlaunched p (Option.some.inj hp).le
      exact happlied.trans hrequested.symm
    · rename_i hne
      exact h.settled id' (fun heq => hne heq.symm) p hp hlive hnone'
  unlaunched p hp := h.unlaunched p (le_trans (by simp) hp)

/-- What keeps the PTYs. -/
theorem Sound.sameCore (h : s.Sound ∅) {core : PtyCore} (hptys : core.ptys = s.core.ptys) :
    { s with core }.Sound ∅ :=
  { h with
    armed := hptys ▸ h.armed
    processes := hptys ▸ h.processes
    settled := hptys ▸ h.settled }

theorem Sound.spawn (h : s.Sound ∅) {helper : HelperOption} {launched : Launch} :
    (s.spawn id helper launched).Sound ∅ := by
  have hcancelled : (s.cancelRepaint id).Sound {id} := h.cancelled
  obtain ⟨hcore, hprocesses, -⟩ := cancelRepaint_fields s id
  have hnone : (s.cancelRepaint id).repaintTimers.get id = none := by
    rw [repaintTimers_cancelRepaint, if_pos rfl]
  unfold RepaintHost.spawn
  obtain ⟨-, ⟨haccepts, ⟨cwdWarning, rfl⟩, hptys, -⟩ | ⟨hnot, hptys, -⟩⟩ :=
    s.core.spawnOption_cases id helper s.processes.length launched
  · rw [haccepts]
    rw [← hprocesses]
    refine hcancelled.launch ?_ hnone
    rw [hprocesses, hcore]
    exact hptys
  · split
    · rename_i cwdWarning haccepts
      exact absurd ⟨haccepts, cwdWarning, rfl⟩ hnot
    · exact h.sameCore hptys

theorem Sound.cancelAll (h : s.Sound loose) (ids : List JsString) :
    (ids.foldl RepaintHost.cancelRepaint s).Sound Set.univ ∧
      ∀ id, (ids.foldl RepaintHost.cancelRepaint s).repaintTimers.get id =
        if id ∈ ids then none else s.repaintTimers.get id := by
  induction ids generalizing s loose with
  | nil =>
    refine ⟨{ h with settled := fun id hid => absurd (Set.mem_univ id) hid }, fun id => ?_⟩
    rw [if_neg List.not_mem_nil]
    rfl
  | cons id ids ih =>
    obtain ⟨hsound, htimers⟩ := ih (s := s.cancelRepaint id) h.cancelRepaint
    refine ⟨hsound, fun id' => ?_⟩
    rw [List.foldl_cons, htimers, repaintTimers_cancelRepaint]
    by_cases heq : id = id'
    · simp [heq]
    · simp [heq, Ne.symm heq]

theorem Sound.killAll (h : s.Sound ∅) : s.killAll.Sound ∅ := by
  obtain ⟨hsound, htimers⟩ := h.cancelAll s.repaintTimers.keys
  have hnone : ∀ id, (s.repaintTimers.keys.foldl RepaintHost.cancelRepaint s).repaintTimers.get id =
      none := by
    intro id
    rw [htimers]
    split
    · rfl
    · rename_i hid
      exact InsertionMap.get_eq_none.2 hid
  exact {
    armed := fun timer armed hget => by
      have hheld := (hsound.armed timer armed hget).1
      rw [hnone] at hheld
      cases hheld
    held := fun id timer hget => by cases (hnone id).symm.trans hget
    fresh := hsound.fresh
    processes := fun _ _ h => by cases h
    settled := fun _ _ _ h => by cases h
    unlaunched := hsound.unlaunched }

/-- A timer that fires is the one of its id. -/
theorem Sound.fire (h : s.Sound ∅) {armed : RepaintTimer} (hget : s.timers.get timer = some armed) :
    (s.fire timer armed).Sound ∅ := by
  obtain ⟨hheld, hp, hrequested⟩ := h.armed timer armed hget
  have hcancel : s.cancelRepaint armed.id = { s with
      timers := s.timers.delete timer
      repaintTimers := s.repaintTimers.delete armed.id } := by
    unfold RepaintHost.cancelRepaint
    rw [hheld]
  have hfire : s.fire timer armed =
      (s.cancelRepaint armed.id).applySize armed.process armed.size := by
    unfold RepaintHost.fire
    rw [hcancel]
    rw [if_neg (fun hne => hne hheld), if_neg (fun hne => hne hp)]
  have hcancelled : (s.cancelRepaint armed.id).Sound {armed.id} := h.cancelled
  rw [hfire]
  rw [hcancel] at hcancelled ⊢
  refine (hcancelled.applySize hp).tight fun id' hid' p' hp' hlive _ => ?_
  obtain rfl := mem_insert_self (Set.mem_insert_of_mem armed.id hid')
  unfold RepaintHost.applySize at hp' hlive ⊢
  split at hp'
  · rename_i hdied
    rw [if_pos hdied] at hlive ⊢
    rw [Option.some.inj (hp'.symm.trans hp)] at hlive
    exact absurd hdied hlive
  · rename_i hdied
    rw [if_neg hdied]
    obtain rfl := Option.some.inj (hp'.symm.trans hp)
    exact (Function.update_self ..).trans hrequested.symm

theorem Sound.die (h : s.Sound ∅) : { s with died := p :: s.died }.Sound ∅ :=
  { h with
    settled := fun id hid p' hp' hlive =>
      h.settled id hid p' hp' fun hmem => hlive (List.mem_cons_of_mem p hmem) }

/-! ### Every run -/

theorem Sound.step (h : s.Sound ∅) {e : RepaintEvent} (hstep : s.step e = some t) : t.Sound ∅ := by
  cases e with
  | spawn id helper launched =>
    cases hstep
    exact h.spawn
  | resize id size repaint =>
    cases hstep
    exact h.resize
  | kill id =>
    cases hstep
    exact h.kill
  | killAll =>
    cases hstep
    exact h.killAll
  | die p =>
    cases hstep
    exact h.die
  | exit p =>
    unfold RepaintHost.step at hstep
    dsimp only at hstep
    split at hstep
    · obtain ⟨id, -, rfl⟩ := Option.map_eq_some_iff.1 hstep
      exact h.exit
    · exact absurd hstep nofun
  | fire timer =>
    obtain ⟨armed, hget, rfl⟩ := Option.map_eq_some_iff.1 hstep
    exact h.fire hget

theorem inductive_sound : serving.Inductive (Sound · ∅) where
  init := by
    rintro _ ⟨replay, rfl⟩
    exact sound_create replay
  step h hstep := h.step hstep

theorem Sound.restores (h : s.Sound ∅) : s.Restores where
  one timer timer' armed armed' hget hget' hid := by
    have hheld := (h.armed timer armed hget).1
    rw [hid, (h.armed timer' armed' hget').1] at hheld
    exact (Option.some.inj hheld).symm
  settled id p size hp hlive hfree hrequested := by
    have hnone : s.repaintTimers.get id = none := by
      cases hget : s.repaintTimers.get id with
      | none => rfl
      | some timer =>
        obtain ⟨armed, harmed, hid⟩ := h.held id timer hget
        exact absurd ⟨timer, armed, harmed, hid⟩ hfree
    rw [h.settled id (Set.notMem_empty id) p hp hlive hnone, hrequested]

/-- A timer resizes no process but its own. -/
theorem applied_fire {armed : RepaintTimer} (hp : p ≠ armed.process) :
    (s.fire timer armed).applied p = s.applied p := by
  unfold RepaintHost.fire RepaintHost.applySize
  dsimp only
  split
  · rfl
  · split
    · rfl
    · split
      · rfl
      · exact Function.update_of_ne hp ..

/-- In every state that is reached no wrong size is left, and no timer resizes a process that it
was not armed for. -/
theorem repaint_restores (h : serving.Reachable s) : s.Restores ∧
    ∀ timer armed, s.timers.get timer = some armed →
      ∀ p, p ≠ armed.process → (s.fire timer armed).applied p = s.applied p :=
  ⟨(inductive_sound.reachable h).restores, fun _ _ _ _ hp => applied_fire hp⟩

/-- A repaint of a pane that has one row. -/
theorem repaint_restores_row : ∃ s, serving.Reachable s ∧ s.Restores ∧
    s.applied 0 = some ⟨80, 1, by decide, by decide⟩ := by
  let size : TerminalSize := ⟨80, 1, by decide, by decide⟩
  let s₁ := (create true).spawn (js "a") .absent (.started none)
  let s₂ := s₁.resize (js "a") size true
  have h₁ : serving.Reachable s₁ :=
    .next (a := .spawn (js "a") .absent (.started none)) (.start ⟨true, rfl⟩) rfl
  have h₂ : serving.Reachable s₂ := .next (a := .resize (js "a") size true) h₁ rfl
  have h₃ : serving.Reachable (s₂.fire 0 ⟨js "a", 0, size⟩) := .next (a := .fire 0) h₂ rfl
  exact ⟨_, h₃, (repaint_restores h₃).1, by decide⟩

end RepaintHost

end Dormouse.Pty
