import Dormouse.Lib.Transition
import Dormouse.Window.BurrowCommands

/-!
# Dormouse.Window.BurrowCommandsSound

**A result reaches the asker.** The window's deliveries are compared with those of a desk that hears
what is asked and answered and who goes away. They agree as long as no result of the service comes
in for a command whose route went with its window (`Meets`): such a result is taken for one of this
window's own.
-/

namespace Dormouse.Window

/-! ### Reading the log -/

namespace Entry

def deskEvent : Entry → Option (DeskEvent JsString Asker Outcome)
  | .desk event => some event
  | _ => none

/-- A command goes to a service: the one here, or the one behind the link. -/
def handed : Entry → Option JsString
  | .ran id => some id
  | .forwarded id => some id
  | _ => none

/-- A command is run, forwarded or refused. -/
def disposed : Entry → Option JsString
  | .ran id => some id
  | .forwarded id => some id
  | .refused id => some id
  | _ => none

def queuedId : Entry → Option JsString
  | .held id => some id
  | _ => none

/-- A result is put in front of someone. -/
def delivery : Entry → Option (Asker × JsString × Outcome)
  | .posted payload => some (.webviews, payload.burrowRequestId, payload.outcome)
  | .sent client payload => some (.window client, payload.burrowRequestId, payload.outcome)
  | _ => none

end Entry

namespace BurrowWindow

variable {s s' : BurrowWindow} {hand : List JsString} {id : JsString} {payload : BurrowCommand}

def deskEvents (s : BurrowWindow) : List (DeskEvent JsString Asker Outcome) :=
  s.log.filterMap Entry.deskEvent

/-- The desk that hears the same. -/
def desk (s : BurrowWindow) : Desk JsString Asker Outcome := Desk.run s.deskEvents

def handed (s : BurrowWindow) : List JsString := s.log.filterMap Entry.handed

def disposed (s : BurrowWindow) : List JsString := s.log.filterMap Entry.disposed

def entered (s : BurrowWindow) : List JsString := s.log.filterMap Entry.queuedId

def deliveries (s : BurrowWindow) : List (Asker × JsString × Outcome) :=
  s.log.filterMap Entry.delivery

def answered (s : BurrowWindow) : List JsString := Desk.answered s.deskEvents

def queuedIds (s : BurrowWindow) : List JsString := s.queued.map (·.payload.burrowRequestId)

def errandIds (s : BurrowWindow) : List JsString := s.errands.map Prod.fst

/-! ### The condition and the property -/

/-- A `burrowRequestId` is minted once: no command comes twice. -/
def Fresh (s : BurrowWindow) : BurrowEvent → Prop
  | .webviewCommand value =>
    ∀ payload, isBurrowCommand value = some payload →
      s.desk.askers payload.burrowRequestId = none
  | .forwardedCommand value _ =>
    ∀ payload, isBurrowCommand value = some payload →
      s.desk.askers payload.burrowRequestId = none
  | _ => True

/-- No result of the service comes in for a command whose window is gone and whose route with it. -/
def Meets (s : BurrowWindow) : BurrowEvent → Prop
  | .serviceAnswered id _ =>
    ∀ client, s.desk.askers id = some (.window client) → client ∈ s.gone →
      s.commandRoutes.has id
  | _ => True

/-- The window, with every step it can take. -/
def commands : System BurrowWindow BurrowEvent where
  init s := s = create
  step s e t := s.Fresh e ∧ s.step e = some t

/-- The window, as long as the condition is met. -/
def routedCommands : System BurrowWindow BurrowEvent where
  init s := s = create
  step s e t := (s.Fresh e ∧ s.Meets e) ∧ s.step e = some t

/-- What is owed to those who ask. -/
structure Accounted (s : BurrowWindow) : Prop where
  /-- A command goes to one service at most. -/
  handed : s.handed.Nodup
  /-- Results go where the desk hands them, and nowhere else. -/
  delivered : s.deliveries = s.desk.delivered
  /-- No result is delivered twice, or on two sides. -/
  once : (s.deliveries.map fun d => d.2.1).Nodup
  bounded : s.queued.length ≤ QUEUE_LIMIT
  /-- A command enters the queue once, and is still there or has been run, forwarded or refused. -/
  entered : s.entered.Nodup
  left : ∀ id ∈ s.entered, s.queuedIds.count id + s.disposed.count id = 1
  /-- What waits has a timer that will take it out. -/
  timed : ∀ entry ∈ s.queued, s.timers.get entry.timer = some entry.payload.burrowRequestId

/-! ### The invariant -/

/-- The ids of the commands that wait in the queue, or are being dealt with (`hand`). -/
def waiting (hand : List JsString) (s : BurrowWindow) : List JsString := hand ++ s.queuedIds

/-- A command waits or has been disposed of; what has been disposed of is an errand or answered. -/
structure Kept (hand : List JsString) (s : BurrowWindow) : Prop where
  apart : (waiting hand s ++ s.disposed).Nodup
  outstanding : (s.errandIds ++ s.answered).Nodup
  handedOut : ∀ id ∈ s.errandIds ++ s.answered, id ∈ s.disposed
  asked : ∀ id ∈ waiting hand s ++ s.disposed, s.desk.askers id ≠ none
  entered : s.entered.Nodup
  left : ∀ id ∈ s.entered, id ∈ waiting hand s ++ s.disposed
  ours : ∀ id ∈ s.queuedIds, s.desk.askers id = some .webviews
  errands : ∀ id errand, (id, errand) ∈ s.errands → errand ≠ .service →
    s.desk.askers id = some .webviews
  routes : ∀ id client, s.commandRoutes.get id = some client →
    s.desk.askers id = some (.window client) ∧ (id ∈ hand ∨ (id, .service) ∈ s.errands)
  routed : ∀ id client, (id, .service) ∈ s.errands → s.desk.askers id = some (.window client) →
    s.commandRoutes.get id = some client ∨ client ∈ s.gone
  gone : s.desk.gone = s.gone.map .window
  delivered : s.deliveries = s.desk.delivered
  bounded : s.queued.length ≤ QUEUE_LIMIT
  timed : ∀ entry ∈ s.queued, s.timers.get entry.timer = some entry.payload.burrowRequestId
  fresh : ∀ timer id, s.timers.get timer = some id → timer < s.nextTimer

/-! ### What an entry of the log changes -/

section emit

variable (s) {entry : Entry} {α : Type} {f : Entry → Option α} {a : α}

theorem filterMap_emit_none (h : f entry = none) :
    (s.emit entry).log.filterMap f = s.log.filterMap f := by
  simp [emit, h]

theorem filterMap_emit_some (h : f entry = some a) :
    (s.emit entry).log.filterMap f = s.log.filterMap f ++ [a] := by
  simp [emit, h]

theorem desk_emit_none (h : entry.deskEvent = none) : (s.emit entry).desk = s.desk :=
  congrArg Desk.run (filterMap_emit_none s h)

theorem answered_emit_none (h : entry.deskEvent = none) : (s.emit entry).answered = s.answered :=
  congrArg Desk.answered (filterMap_emit_none s h)

variable (event : DeskEvent JsString Asker Outcome)

theorem desk_emit_desk : (s.emit (.desk event)).desk = s.desk.step event := by
  have hevents : (s.emit (.desk event)).deskEvents = s.deskEvents ++ [event] :=
    filterMap_emit_some s rfl
  rw [desk, hevents, Desk.run_concat, desk]

theorem answered_emit_desk :
    (s.emit (.desk event)).answered = s.answered ++ Desk.answered [event] := by
  have hevents : (s.emit (.desk event)).deskEvents = s.deskEvents ++ [event] :=
    filterMap_emit_some s rfl
  rw [answered, hevents, Desk.answered, List.filterMap_append]
  rfl

end emit

namespace Kept

/-- The invariant reads only some of the fields. -/
theorem congr (h : Kept hand s) (hqueued : s'.queued = s.queued) (herrands : s'.errands = s.errands)
    (hroutes : s'.commandRoutes = s.commandRoutes) (htimers : s'.timers = s.timers)
    (hnext : s'.nextTimer = s.nextTimer) (hgone : s'.gone = s.gone) (hlog : s'.log = s.log) :
    Kept hand s' := by
  obtain ⟨context, service, contending, link, routes, queued, timers, next, errands, gone, log⟩ := s
  obtain ⟨context', service', contending', link', routes', queued', timers', next', errands', gone',
    log'⟩ := s'
  subst hqueued herrands hroutes htimers hnext hgone hlog
  exact ⟨h.apart, h.outstanding, h.handedOut, h.asked, h.entered, h.left, h.ours, h.errands, h.routes,
    h.routed, h.gone, h.delivered, h.bounded, h.timed, h.fresh⟩

theorem create : Kept [] create where
  apart := List.nodup_nil
  outstanding := List.nodup_nil
  handedOut _ h := nomatch h
  asked _ h := nomatch h
  entered := List.nodup_nil
  left _ h := nomatch h
  ours _ h := nomatch h
  errands _ _ h := nomatch h
  routes _ _ h := nomatch h
  routed _ _ h := nomatch h
  gone := rfl
  delivered := rfl
  bounded := Nat.zero_le _
  timed _ h := nomatch h
  fresh _ _ h := nomatch h

/-- A command comes in. -/
theorem ask (h : Kept [] s) (hfresh : s.desk.askers id = none) (asker : Asker) :
    Kept [id] (s.emit (.desk (.asked id asker))) ∧
      (s.emit (.desk (.asked id asker))).desk.askers id = some asker := by
  have hdesk := desk_emit_desk s (.asked id asker)
  have haskers : (s.emit (.desk (.asked id asker))).desk.askers =
      Function.update s.desk.askers id (some asker) := congrArg Desk.askers hdesk
  have hdisposed : (s.emit (.desk (.asked id asker))).disposed = s.disposed :=
    filterMap_emit_none s rfl
  have hentered : (s.emit (.desk (.asked id asker))).entered = s.entered :=
    filterMap_emit_none s rfl
  have hanswered : (s.emit (.desk (.asked id asker))).answered = s.answered :=
    (answered_emit_desk s _).trans (List.append_nil _)
  have hnew : id ∉ waiting [] s ++ s.disposed := fun hmem => h.asked id hmem hfresh
  -- Whatever had an asker has the same one.
  have hsame : ∀ id' asker', s.desk.askers id' = some asker' →
      (s.emit (.desk (.asked id asker))).desk.askers id' = some asker' := by
    intro id' asker' hasker
    rw [haskers, Function.update_of_ne, hasker]
    rintro rfl
    exact absurd (hasker.symm.trans hfresh) nofun
  have hself : (s.emit (.desk (.asked id asker))).desk.askers id = some asker := by
    rw [haskers, Function.update_self]
  refine ⟨⟨?_, ?_, ?_, ?_, ?_, ?_, ?_, ?_, ?_, ?_, ?_, ?_, h.bounded, h.timed, h.fresh⟩, hself⟩
  · rw [hdisposed]
    exact List.nodup_cons.2 ⟨hnew, h.apart⟩
  · rw [hanswered]
    exact h.outstanding
  · rw [hanswered, hdisposed]
    exact h.handedOut
  · intro id' hmem
    rw [hdisposed] at hmem
    rcases List.mem_cons.1 hmem with rfl | hmem
    · rw [hself]
      exact nofun
    · obtain ⟨asker', hasker⟩ := Option.ne_none_iff_exists'.1 (h.asked id' hmem)
      rw [hsame id' asker' hasker]
      exact nofun
  · rw [hentered]
    exact h.entered
  · intro id' hmem
    rw [hentered] at hmem
    rw [hdisposed]
    exact List.mem_cons_of_mem _ (h.left id' hmem)
  · exact fun id' hmem => hsame id' _ (h.ours id' hmem)
  · exact fun id' errand hmem hne => hsame id' _ (h.errands id' errand hmem hne)
  · intro id' client hroute
    obtain ⟨hasker, hplace⟩ := h.routes id' client hroute
    exact ⟨hsame id' _ hasker, .inr (hplace.resolve_left List.not_mem_nil)⟩
  · intro id' client hmem hasker
    have hold : s.desk.askers id' = some (.window client) := by
      rw [haskers, Function.update_of_ne] at hasker
      · exact hasker
      · rintro rfl
        have hdisposed := h.handedOut id' (List.mem_append_left _ (List.mem_map_of_mem hmem))
        exact hnew (List.mem_append_right _ hdisposed)
    exact h.routed id' client hmem hold
  · rw [hdesk]
    exact h.gone
  · rw [hdesk]
    exact (filterMap_emit_none s rfl).trans h.delivered

/-- A command is handed out, or its refusal looked up. -/
theorem handOut (h : Kept (id :: hand) s) {errand : Errand} {entry : Entry}
    (hdesk : entry.deskEvent = none) (hdisposed : entry.disposed = some id)
    (hqueued : entry.queuedId = none) (hdelivery : entry.delivery = none)
    (hours : errand ≠ .service → s.desk.askers id = some .webviews)
    (hrouted : errand = .service → ∀ client, s.desk.askers id = some (.window client) →
      s.commandRoutes.get id = some client) :
    Kept hand (emit { s with errands := s.errands ++ [(id, errand)] } entry) := by
  set s₁ : BurrowWindow := { s with errands := s.errands ++ [(id, errand)] } with hs₁
  have hdesk' : (s₁.emit entry).desk = s.desk := desk_emit_none s₁ hdesk
  have hanswered : (s₁.emit entry).answered = s.answered := answered_emit_none s₁ hdesk
  have hdisposed' : (s₁.emit entry).disposed = s.disposed ++ [id] :=
    filterMap_emit_some s₁ hdisposed
  have hentered : (s₁.emit entry).entered = s.entered := filterMap_emit_none s₁ hqueued
  have hids : (s₁.emit entry).errandIds = s.errandIds ++ [id] := List.map_append
  have hperm : List.Perm (waiting hand (s₁.emit entry) ++ (s₁.emit entry).disposed)
      (waiting (id :: hand) s ++ s.disposed) := by
    rw [hdisposed', ← List.append_assoc]
    exact List.perm_append_singleton _ _
  have hnew : id ∉ s.errandIds ++ s.answered := fun hmem =>
    (List.nodup_cons.1 h.apart).1 (List.mem_append_right _ (h.handedOut id hmem))
  have hperm' : List.Perm ((s₁.emit entry).errandIds ++ (s₁.emit entry).answered)
      (id :: (s.errandIds ++ s.answered)) := by
    rw [hids, hanswered, List.append_assoc]
    exact List.perm_middle
  refine ⟨hperm.nodup_iff.2 h.apart, hperm'.nodup_iff.2 (List.nodup_cons.2 ⟨hnew, h.outstanding⟩), ?_, ?_,
    ?_, ?_, ?_, ?_, ?_, ?_, ?_, ?_, h.bounded, h.timed, h.fresh⟩
  · intro id' hmem
    rw [hdisposed', List.mem_append]
    rcases List.mem_cons.1 (hperm'.mem_iff.1 hmem) with rfl | hmem
    · exact .inr (List.mem_singleton.2 rfl)
    · exact .inl (h.handedOut id' hmem)
  · intro id' hmem
    rw [hdesk']
    exact h.asked id' (hperm.mem_iff.1 hmem)
  · rw [hentered]
    exact h.entered
  · intro id' hmem
    exact hperm.mem_iff.2 (h.left id' (hentered ▸ hmem))
  · rw [hdesk']
    exact h.ours
  · intro id' errand' hmem hne
    rw [hdesk']
    rcases List.mem_append.1 hmem with hmem | hmem
    · exact h.errands id' errand' hmem hne
    · cases List.mem_singleton.1 hmem
      exact hours hne
  · intro id' client hroute
    rw [hdesk']
    obtain ⟨hasker, hplace⟩ := h.routes id' client hroute
    refine ⟨hasker, ?_⟩
    rcases hplace with hplace | hplace
    · rcases List.mem_cons.1 hplace with rfl | hplace
      · -- A route is of a window's command, and those go to the service only.
        have hservice : errand = .service := by
          by_contra hne
          exact absurd ((hours hne).symm.trans hasker) nofun
        exact .inr (List.mem_append_right _ (hservice ▸ List.mem_singleton.2 rfl))
      · exact .inl hplace
    · exact .inr (List.mem_append_left _ hplace)
  · intro id' client hmem hasker
    rw [hdesk'] at hasker
    rcases List.mem_append.1 hmem with hmem | hmem
    · exact h.routed id' client hmem hasker
    · cases List.mem_singleton.1 hmem
      exact .inl (hrouted rfl client hasker)
  · rw [hdesk']
    exact h.gone
  · rw [hdesk']
    exact (filterMap_emit_none s₁ hdelivery).trans h.delivered

/-- An errand is answered: it is done with, and so is the route of its command. -/
theorem close (h : Kept hand s) {errand : Errand} {outcome : Outcome}
    (hmem : (id, errand) ∈ s.errands) (herrands : s'.errands = s.errands.erase (id, errand))
    (hqueued : s'.queued = s.queued) (htimers : s'.timers = s.timers)
    (hnext : s'.nextTimer = s.nextTimer) (hgone : s'.gone = s.gone)
    (hdesk : s'.desk = s.desk.step (.answered id outcome)) (hanswered : s'.answered = s.answered ++ [id])
    (hdisposed : s'.disposed = s.disposed) (hentered : s'.entered = s.entered)
    (hdeliveries : s'.deliveries =
      s.deliveries ++ (s.desk.due id).toList.map fun asker => (asker, id, outcome))
    (hroutes : ∀ id', s'.commandRoutes.get id' =
      if id = id' then none else s.commandRoutes.get id') : Kept hand s' := by
  have haskers : s'.desk.askers = s.desk.askers := by
    rw [hdesk]
    rfl
  have hwaiting : waiting hand s' = waiting hand s := by
    rw [waiting, waiting, queuedIds, hqueued, queuedIds]
  have hperm : List.Perm (s'.errandIds ++ s'.answered) (s.errandIds ++ s.answered) := by
    have hids : List.Perm s.errandIds (id :: s'.errandIds) := by
      rw [errandIds, errandIds, herrands]
      exact (List.perm_cons_erase hmem).map Prod.fst
    rw [hanswered, ← List.append_assoc]
    exact (List.perm_append_singleton _ _).trans (hids.append_right _).symm
  -- An errand that is still out is another one.
  have hother : ∀ {id' errand'}, (id', errand') ∈ s'.errands →
      (id', errand') ∈ s.errands ∧ id ≠ id' := by
    intro id' errand' hmem'
    have hnodup : s.errands.Nodup := ((List.nodup_append.1 h.outstanding).1).of_map
    rw [herrands, hnodup.mem_erase_iff] at hmem'
    refine ⟨hmem'.2, ?_⟩
    rintro rfl
    exact hmem'.1 (List.inj_on_of_nodup_map (List.nodup_append.1 h.outstanding).1 hmem'.2 hmem rfl)
  constructor
  · rw [hwaiting, hdisposed]
    exact h.apart
  · exact hperm.nodup_iff.2 h.outstanding
  · intro id' hmem'
    rw [hdisposed]
    exact h.handedOut id' (hperm.mem_iff.1 hmem')
  · rw [hwaiting, hdisposed, haskers]
    exact h.asked
  · rw [hentered]
    exact h.entered
  · rw [hwaiting, hdisposed, hentered]
    exact h.left
  · rw [queuedIds, hqueued, haskers]
    exact h.ours
  · intro id' errand' hmem'
    rw [haskers]
    exact h.errands id' errand' (hother hmem').1
  · intro id' client hroute
    rw [hroutes] at hroute
    split at hroute
    · cases hroute
    · rename_i hne
      rw [haskers]
      refine (h.routes id' client hroute).imp_right (Or.imp_right fun hmem' => ?_)
      rw [herrands]
      exact (List.mem_erase_of_ne fun heq => hne (congrArg Prod.fst heq).symm).2 hmem'
  · intro id' client hmem'
    rw [haskers, hroutes, if_neg (hother hmem').2, hgone]
    exact h.routed id' client (hother hmem').1
  · rw [hdesk, hgone]
    exact h.gone
  · rw [hdeliveries, hdesk, h.delivered]
    rfl
  · rw [hqueued]
    exact h.bounded
  · rw [hqueued, htimers]
    exact h.timed
  · rw [htimers, hnext]
    exact h.fresh

/-- The answer of an errand goes to whom it is due. -/
theorem reply (h : Kept hand s) {errand : Errand} (outcome : Outcome)
    (hmem : (id, errand) ∈ s.errands)
    (hmeets : ∀ client, s.desk.askers id = some (.window client) → client ∈ s.gone →
      s.commandRoutes.has id) :
    Kept hand ((emit { s with errands := s.errands.erase (id, errand) }
      (.desk (.answered id outcome))).answer ⟨id, outcome⟩) := by
  set s₁ : BurrowWindow := emit { s with errands := s.errands.erase (id, errand) }
    (.desk (.answered id outcome))
  have hdesk : s₁.desk = s.desk.step (.answered id outcome) := desk_emit_desk _ _
  have hanswered : s₁.answered = s.answered ++ [id] := answered_emit_desk _ _
  have hdisposed : s₁.disposed = s.disposed := filterMap_emit_none _ rfl
  have hentered : s₁.entered = s.entered := filterMap_emit_none _ rfl
  have hdeliveries : s₁.deliveries = s.deliveries := filterMap_emit_none _ rfl
  unfold answer
  split
  · -- The route is that of the window that asked.
    rename_i client hroute
    have hroute : s.commandRoutes.get id = some client := hroute
    obtain ⟨hasker, -⟩ := h.routes id client hroute
    have hroutes : ∀ id', (s.commandRoutes.delete id).get id' =
        if id = id' then none else s.commandRoutes.get id' := s.commandRoutes.get_delete id
    have hgone : Asker.window client ∈ s.desk.gone ↔ client ∈ s.gone := by
      rw [h.gone, List.mem_map]
      constructor
      · rintro ⟨client', hmem', ⟨⟩⟩
        exact hmem'
      · exact fun hmem' => ⟨client, hmem', rfl⟩
    unfold sendCommandResult
    split
    · rename_i hmem'
      have hdue : s.desk.due id = none := by
        rw [Desk.due, hasker]
        simp [hgone.2 hmem']
      refine h.close hmem rfl rfl rfl rfl rfl hdesk hanswered hdisposed hentered ?_ hroutes
      rw [hdue]
      exact hdeliveries.trans (List.append_nil _).symm
    · rename_i hmem'
      have hdue : s.desk.due id = some (.window client) :=
        Desk.due_eq_some.2 ⟨hasker, fun hleft => hmem' (hgone.1 hleft)⟩
      refine h.close hmem rfl rfl rfl rfl rfl ((desk_emit_none _ rfl).trans hdesk)
        ((answered_emit_none _ rfl).trans hanswered) ((filterMap_emit_none _ rfl).trans hdisposed)
        ((filterMap_emit_none _ rfl).trans hentered) ?_ hroutes
      rw [hdue, ← hdeliveries]
      exact filterMap_emit_some _ rfl
  · -- Without a route the command is one of this window's own.
    rename_i hroute
    have hroute : s.commandRoutes.get id = none := hroute
    have hasker : s.desk.askers id = some .webviews := by
      have hdisposed' := h.handedOut id (List.mem_append_left _ (List.mem_map_of_mem hmem))
      obtain ⟨asker, hasker⟩ := Option.ne_none_iff_exists'.1
        (h.asked id (List.mem_append_right _ hdisposed'))
      rcases asker with _ | client
      · exact hasker
      by_cases hservice : errand = .service
      · rcases h.routed id client (hservice ▸ hmem) hasker with hroute' | hgone
        · cases hroute.symm.trans hroute'
        · have hhas := hmeets client hasker hgone
          rw [InsertionMap.has, hroute] at hhas
          cases hhas
      · exact h.errands id errand hmem hservice
    have hdue : s.desk.due id = some .webviews := by
      refine Desk.due_eq_some.2 ⟨hasker, ?_⟩
      rw [h.gone]
      simp
    refine h.close hmem rfl rfl rfl rfl rfl ((desk_emit_none _ rfl).trans hdesk)
      ((answered_emit_none _ rfl).trans hanswered) ((filterMap_emit_none _ rfl).trans hdisposed)
      ((filterMap_emit_none _ rfl).trans hentered) ?_ ?_
    · rw [hdue, ← hdeliveries]
      exact filterMap_emit_some _ rfl
    · intro id'
      split
      · rename_i heq
        exact heq ▸ hroute
      · rfl

/-- An answer to an errand for one of this window's own commands. -/
theorem replyHere (h : Kept hand s) {errand : Errand} (outcome : Outcome)
    (hmem : (id, errand) ∈ s.errands) (hasker : s.desk.askers id = some .webviews) :
    Kept hand ((emit { s with errands := s.errands.erase (id, errand) }
      (.desk (.answered id outcome))).broadcastResult ⟨id, outcome⟩) := by
  have hroute : s.commandRoutes.get id = none := by
    by_contra hsome
    obtain ⟨client, hroute⟩ := Option.ne_none_iff_exists'.1 hsome
    exact absurd (hasker.symm.trans (h.routes id client hroute).1) nofun
  have hreply := h.reply outcome hmem fun client hclient => absurd (hasker.symm.trans hclient) nofun
  unfold answer at hreply
  split at hreply
  · rename_i client hsome
    exact absurd (hroute.symm.trans hsome) nofun
  · exact hreply

/-! ### A command that is being dealt with -/

theorem runCommand (h : Kept (payload.burrowRequestId :: hand) s)
    (hrouted : ∀ client, s.desk.askers payload.burrowRequestId = some (.window client) →
      s.commandRoutes.get payload.burrowRequestId = some client) :
    Kept hand (s.runCommand payload) :=
  h.handOut rfl rfl rfl rfl (fun hne => absurd rfl hne) fun _ => hrouted

/-- A command that is being dealt with is no errand yet; an errand of it is the last one. -/
theorem erase_errand (h : Kept (id :: hand) s) (errand : Errand) :
    (s.errands ++ [(id, errand)]).erase (id, errand) = s.errands := by
  have hnew : (id, errand) ∉ s.errands := fun hmem =>
    (List.nodup_cons.1 h.apart).1 (List.mem_append_right _
      (h.handedOut id (List.mem_append_left _ (List.mem_map_of_mem hmem))))
  rw [List.erase_append_right _ hnew, List.erase_cons_head, List.append_nil]

/-- A refusal that needs no look at the disk: an errand answered as soon as it is out. -/
theorem refuseAtOnce (h : Kept (id :: hand) s) (hasker : s.desk.askers id = some .webviews)
    (outcome : Outcome) : Kept hand ((s.emit (.refused id)).answerHere ⟨id, outcome⟩) := by
  have hout : Kept hand (emit { s with errands := s.errands ++ [(id, .disk)] } (.refused id)) :=
    h.handOut rfl rfl rfl rfl (fun _ => hasker) nofun
  have hmem : (id, Errand.disk) ∈ s.errands ++ [(id, .disk)] :=
    List.mem_append_right _ (List.mem_singleton.2 rfl)
  have hasker' : (emit { s with errands := s.errands ++ [(id, .disk)] } (.refused id)).desk.askers id =
      some .webviews := by
    rw [desk_emit_none _ rfl]
    exact hasker
  exact (hout.replyHere outcome hmem hasker').congr rfl (h.erase_errand _).symm rfl rfl rfl rfl rfl

theorem refuseCommand (h : Kept (payload.burrowRequestId :: hand) s)
    (hasker : s.desk.askers payload.burrowRequestId = some .webviews) :
    Kept hand (s.refuseCommand payload) := by
  unfold BurrowWindow.refuseCommand
  split
  · exact h.handOut rfl rfl rfl rfl (fun _ => hasker) nofun
  · split
    · exact h.refuseAtOnce hasker _
    · exact h.refuseAtOnce hasker _

theorem forwardCommand (h : Kept (payload.burrowRequestId :: hand) s)
    (hasker : s.desk.askers payload.burrowRequestId = some .webviews)
    (hforward : s.forwardCommand payload = some s') : Kept hand s' := by
  unfold BurrowWindow.forwardCommand at hforward
  split at hforward
  · cases hforward
    exact h.handOut rfl rfl rfl rfl (fun _ => hasker) nofun
  · cases hforward

/-! ### The queue -/

/-- Commands leave the queue and are dealt with. -/
theorem take (h : Kept hand s) {taken : List JsString} {queued : List QueuedCommand}
    {timers : InsertionMap Nat JsString}
    (hperm : List.Perm s.queuedIds (taken ++ queued.map (·.payload.burrowRequestId)))
    (hsub : ∀ entry ∈ queued, entry ∈ s.queued)
    (hkeep : ∀ entry ∈ queued, timers.get entry.timer = s.timers.get entry.timer)
    (hfresh : ∀ timer id, timers.get timer = some id → s.timers.get timer = some id) :
    Kept (taken ++ hand) { s with queued := queued, timers := timers } := by
  have hwaiting : List.Perm (waiting (taken ++ hand) { s with queued := queued, timers := timers })
      (waiting hand s) := by
    have hleft : List.Perm (taken ++ hand ++ queued.map (·.payload.burrowRequestId))
        (hand ++ (taken ++ queued.map (·.payload.burrowRequestId))) := by
      rw [← List.append_assoc]
      exact List.perm_append_comm.append_right _
    exact hleft.trans (hperm.symm.append_left _)
  have hboth := hwaiting.append_right s.disposed
  have hlength : queued.length ≤ s.queued.length := by
    have := hperm.length_eq
    rw [queuedIds, List.length_append, List.length_map, List.length_map] at this
    omega
  constructor
  · exact hboth.nodup_iff.2 h.apart
  · exact h.outstanding
  · exact h.handedOut
  · exact fun id hmem => h.asked id (hboth.mem_iff.1 hmem)
  · exact h.entered
  · exact fun id hmem => hboth.mem_iff.2 (h.left id hmem)
  · exact fun id hmem => h.ours id (hperm.mem_iff.2 (List.mem_append_right _ hmem))
  · exact h.errands
  · intro id client hroute
    exact (h.routes id client hroute).imp_right (Or.imp_left (List.mem_append_right _))
  · exact h.routed
  · exact h.gone
  · exact h.delivered
  · exact hlength.trans h.bounded
  · exact fun entry hmem => (hkeep entry hmem).trans (h.timed entry (hsub entry hmem))
  · exact fun timer id hget => h.fresh timer id (hfresh timer id hget)

/-- A command is dropped from the queue, whatever is left of its timer. -/
theorem dropQueuedWith (h : Kept hand s) {timers : InsertionMap Nat JsString}
    (hkeep : ∀ timer id', s.timers.get timer = some id' → id' ≠ id → timers.get timer = some id')
    (hfresh : ∀ timer id', timers.get timer = some id' → s.timers.get timer = some id') :
    Kept hand ({ s with timers := timers }.dropQueued id) := by
  have hothers : ∀ entry ∈ s.queued, entry.payload.burrowRequestId ≠ id →
      timers.get entry.timer = s.timers.get entry.timer := by
    intro entry hmem hne
    rw [h.timed entry hmem]
    exact hkeep _ _ (h.timed entry hmem) hne
  unfold BurrowWindow.dropQueued
  split
  · rename_i hnone
    have hne : ∀ entry ∈ s.queued, entry.payload.burrowRequestId ≠ id := by
      intro entry hmem
      simpa using List.find?_eq_none.1 hnone entry hmem
    have htaken : Kept ([] ++ hand) { s with timers := timers } :=
      h.take (List.Perm.refl _) (fun _ hmem => hmem)
        (fun entry hmem => hothers entry hmem (hne entry hmem)) hfresh
    exact htaken
  · rename_i entry hsome
    have hmem : entry ∈ s.queued := List.mem_of_find?_eq_some hsome
    have hid : entry.payload.burrowRequestId = id := by simpa using List.find?_some hsome
    obtain ⟨first, before, after, -, hfirst, hqueued, herase⟩ :=
      List.exists_of_eraseP (p := fun e : QueuedCommand => decide (e.payload.burrowRequestId = id))
        hmem (decide_eq_true hid)
    have hfirst : first.payload.burrowRequestId = id := of_decide_eq_true hfirst
    have hsub : ∀ entry' ∈ before ++ after, entry' ∈ s.queued := by
      intro entry' hmem'
      rw [hqueued]
      simp only [List.mem_append, List.mem_cons] at hmem' ⊢
      exact hmem'.imp_right .inr
    have hperm : List.Perm s.queuedIds
        ([id] ++ (before ++ after).map (·.payload.burrowRequestId)) := by
      rw [queuedIds, hqueued, ← hfirst]
      exact List.perm_middle.map _
    -- The ids in the queue are distinct, so what stays is another command.
    have hne : ∀ entry' ∈ before ++ after, entry'.payload.burrowRequestId ≠ id := by
      have hnodup := (List.nodup_append.1 (List.nodup_append.1 h.apart).1).2.1
      have hnot := (List.nodup_cons.1 (hperm.nodup_iff.1 hnodup)).1
      rintro entry' hmem' rfl
      exact hnot (List.mem_map_of_mem hmem')
    have htaken : Kept ([id] ++ hand)
        { s with queued := before ++ after, timers := timers.delete entry.timer } := by
      refine h.take hperm hsub ?_ ?_
      · intro entry' hmem'
        have htimer : entry.timer ≠ entry'.timer := by
          intro heq
          have htimed := (h.timed entry hmem).symm.trans (heq ▸ h.timed entry' (hsub entry' hmem'))
          exact hne entry' hmem' ((Option.some.inj htimed).symm.trans hid)
        rw [InsertionMap.get_delete_ne _ htimer]
        exact hothers entry' (hsub entry' hmem') (hne entry' hmem')
      · intro timer id' hget
        exact hfresh timer id' (InsertionMap.get_of_delete hget).2
    have hasker : s.desk.askers id = some .webviews :=
      h.ours id (hid ▸ List.mem_map_of_mem hmem)
    refine (htaken.refuseAtOnce hasker (.error NO_BURROW)).congr ?_ rfl rfl rfl rfl rfl rfl
    exact herase

theorem dropQueued (h : Kept hand s) (id : JsString) : Kept hand (s.dropQueued id) :=
  h.dropQueuedWith (fun _ _ hget _ => hget) fun _ _ hget => hget

end Kept

/-! ### What leaves the askers and the queue as they are -/

/-- The askers and the queue are as they were. -/
structure Idle (s s' : BurrowWindow) : Prop where
  askers : s'.desk.askers = s.desk.askers
  queued : s'.queued = s.queued

namespace Idle

theorem emit (s : BurrowWindow) {entry : Entry} (h : ∀ id asker, entry ≠ .desk (.asked id asker)) :
    Idle s (s.emit entry) := by
  refine ⟨?_, rfl⟩
  cases entry with
  | desk event =>
    rw [desk_emit_desk]
    cases event with
    | asked id asker => exact absurd rfl (h id asker)
    | left asker => rfl
    | answered id outcome => rfl
  | _ => rw [desk_emit_none _ rfl]

theorem trans {s'' : BurrowWindow} (h : Idle s s') (h' : Idle s' s'') : Idle s s'' :=
  ⟨h'.askers.trans h.askers, h'.queued.trans h.queued⟩

theorem answerHere (s : BurrowWindow) (payload : BurrowResult) : Idle s (s.answerHere payload) := by
  have hanswered : Idle s
      (s.emit (.desk (.answered payload.burrowRequestId payload.outcome))) :=
    emit s fun _ _ h => nomatch h
  have hposted : Idle _ ((s.emit (.desk (.answered payload.burrowRequestId payload.outcome))).emit
      (.posted payload)) := emit _ fun _ _ h => nomatch h
  exact hanswered.trans hposted

theorem runCommand (s : BurrowWindow) (payload : BurrowCommand) : Idle s (s.runCommand payload) := by
  set s₁ : BurrowWindow := { s with errands := s.errands ++ [(payload.burrowRequestId, .service)] }
  have hran : Idle s₁ (s₁.emit (.ran payload.burrowRequestId)) := emit s₁ fun _ _ h => nomatch h
  exact ⟨hran.askers, hran.queued⟩

theorem forwardCommand (h : s.forwardCommand payload = some s') : Idle s s' := by
  unfold BurrowWindow.forwardCommand at h
  split at h
  · cases h
    set s₁ : BurrowWindow := { s with errands := s.errands ++ [(payload.burrowRequestId, .broker)] }
    have hforwarded : Idle s₁ (s₁.emit (.forwarded payload.burrowRequestId)) :=
      emit s₁ fun _ _ h => nomatch h
    exact ⟨hforwarded.askers, hforwarded.queued⟩
  · cases h

theorem refuseCommand (s : BurrowWindow) (payload : BurrowCommand) :
    Idle s (s.refuseCommand payload) := by
  unfold BurrowWindow.refuseCommand
  have hrefused : Idle s (s.emit (.refused payload.burrowRequestId)) :=
    emit s fun _ _ h => nomatch h
  split
  · exact ⟨hrefused.askers, rfl⟩
  · split
    · exact hrefused.trans (answerHere _ _)
    · exact hrefused.trans (answerHere _ _)

end Idle

theorem askers_dropQueued (s : BurrowWindow) (id : JsString) :
    (s.dropQueued id).desk.askers = s.desk.askers := by
  unfold dropQueued
  split
  · rfl
  rename_i entry _
  set s₁ : BurrowWindow := { s with
    timers := s.timers.delete entry.timer
    queued := s.queued.eraseP (·.payload.burrowRequestId = id) }
  have hrefused : Idle s₁ (s₁.emit (.refused id)) := Idle.emit s₁ fun _ _ h => nomatch h
  exact (hrefused.trans (Idle.answerHere _ _)).askers

theorem entered_dropQueued (s : BurrowWindow) (id : JsString) :
    (s.dropQueued id).entered = s.entered := by
  unfold dropQueued
  split
  · rfl
  · simp [entered, refuse, answerHere, broadcastResult, emit, Entry.queuedId]

theorem entered_makeRoom (s : BurrowWindow) : s.makeRoom.entered = s.entered := by
  unfold makeRoom
  split
  · rfl
  · split
    · exact entered_dropQueued _ _
    · rfl

/-- An errand that is out is answered. -/
theorem takeAnswer_eq_some {errand : Errand} {outcome : Outcome}
    (htake : s.takeAnswer id errand outcome = some s') :
    (id, errand) ∈ s.errands ∧ s' = emit { s with errands := s.errands.erase (id, errand) }
      (.desk (.answered id outcome)) := by
  unfold takeAnswer at htake
  split at htake
  · rename_i hmem
    exact ⟨hmem, (Option.some.inj htake).symm⟩
  · cases htake

/-- What goes to a service is run or forwarded, and so disposed of. -/
theorem handed_sublist (s : BurrowWindow) : s.handed.Sublist s.disposed := by
  unfold handed disposed
  induction s.log with
  | nil => exact List.Sublist.refl _
  | cons entry log ih =>
    cases entry with
    | ran id => exact ih.cons_cons id
    | forwarded id => exact ih.cons_cons id
    | refused id => exact ih.cons id
    | _ => exact ih

/-! ### Dealing with a command -/

namespace Kept

/-- One turn of the drain, when the queue has been taken over. -/
theorem drainCommand {entry : QueuedCommand}
    (h : Kept (entry.payload.burrowRequestId :: hand) s) (hqueued : s.queued = [])
    (hasker : s.desk.askers entry.payload.burrowRequestId = some .webviews) :
    Kept hand (s.drainCommand entry) ∧ Idle s (s.drainCommand entry) := by
  set s₁ : BurrowWindow := { s with timers := s.timers.delete entry.timer }
  have hcleared : Kept (entry.payload.burrowRequestId :: hand) s₁ := by
    have htaken : Kept ([] ++ entry.payload.burrowRequestId :: hand) s₁ := by
      refine h.take (List.Perm.refl _) (fun _ hmem => hmem) ?_ ?_
      · intro entry' hmem
        rw [hqueued] at hmem
        exact nomatch hmem
      · intro timer id hget
        exact (InsertionMap.get_of_delete hget).2
    exact htaken
  have hturn : s.drainCommand entry = if s₁.service then s₁.runCommand entry.payload
      else (s₁.forwardCommand entry.payload).getD (s₁.refuseCommand entry.payload) := rfl
  rw [hturn]
  split
  · have hidle := Idle.runCommand s₁ entry.payload
    refine ⟨hcleared.runCommand ?_, hidle.askers, hidle.queued⟩
    exact fun client hclient => absurd (hasker.symm.trans hclient) nofun
  cases hforward : s₁.forwardCommand entry.payload with
  | none =>
    have hidle := Idle.refuseCommand s₁ entry.payload
    exact ⟨hcleared.refuseCommand hasker, hidle.askers, hidle.queued⟩
  | some s' =>
    have hidle := Idle.forwardCommand hforward
    exact ⟨hcleared.forwardCommand hasker hforward, hidle.askers, hidle.queued⟩

theorem drain {queue : List QueuedCommand} (s : BurrowWindow)
    (h : Kept (queue.map (·.payload.burrowRequestId)) s) (hqueued : s.queued = [])
    (haskers : ∀ entry ∈ queue, s.desk.askers entry.payload.burrowRequestId = some .webviews) :
    Kept [] (queue.foldl BurrowWindow.drainCommand s) := by
  induction queue generalizing s with
  | nil => exact h
  | cons entry queue ih =>
    obtain ⟨hkept, hidle⟩ := h.drainCommand hqueued (haskers entry (List.mem_cons_self ..))
    refine ih _ hkept (hidle.queued.trans hqueued) fun entry' hmem => ?_
    rw [hidle.askers]
    exact haskers entry' (List.mem_cons_of_mem _ hmem)

theorem drainQueuedCommands (h : Kept [] s) : Kept [] s.drainQueuedCommands := by
  have htaken : Kept (s.queuedIds ++ []) { s with queued := [], timers := s.timers } := by
    refine h.take ?_ (fun _ hmem => nomatch hmem) (fun _ hmem => nomatch hmem) fun _ _ hget => hget
    exact List.Perm.of_eq (List.append_nil _).symm
  rw [List.append_nil] at htaken
  exact Kept.drain _ htaken rfl fun entry hmem => h.ours _ (List.mem_map_of_mem hmem)

theorem makeRoom (h : Kept hand s) : Kept hand s.makeRoom ∧ s.makeRoom.queued.length < QUEUE_LIMIT ∧
    s.makeRoom.desk.askers = s.desk.askers := by
  unfold BurrowWindow.makeRoom
  split
  · rename_i hnil
    refine ⟨h, ?_, rfl⟩
    rw [hnil]
    decide
  rename_i oldest rest hqueued
  split
  · refine ⟨h.dropQueued _, ?_, askers_dropQueued _ _⟩
    have hfind : s.queued.find? (·.payload.burrowRequestId = oldest.payload.burrowRequestId) =
        some oldest := by
      rw [hqueued]
      exact List.find?_cons_of_pos (decide_eq_true rfl)
    have herase : (s.dropQueued oldest.payload.burrowRequestId).queued = rest := by
      unfold BurrowWindow.dropQueued
      rw [hfind]
      show s.queued.eraseP _ = rest
      rw [hqueued]
      exact List.eraseP_cons_of_pos (decide_eq_true rfl)
    have hbounded := h.bounded
    rw [hqueued, List.length_cons] at hbounded
    rw [herase]
    exact hbounded
  · rename_i hroom
    exact ⟨h, Nat.lt_of_not_le hroom, rfl⟩

theorem enqueueCommand (h : Kept (payload.burrowRequestId :: hand) s)
    (hnew : payload.burrowRequestId ∉ s.entered)
    (hasker : s.desk.askers payload.burrowRequestId = some .webviews) :
    Kept hand (s.enqueueCommand payload) := by
  obtain ⟨hroom, hlength, haskers⟩ := h.makeRoom
  set s₁ := s.makeRoom
  have hentered₁ : s₁.entered = s.entered := entered_makeRoom s
  set s₂ : BurrowWindow := emit { s₁ with
    timers := s₁.timers.set s₁.nextTimer payload.burrowRequestId
    nextTimer := s₁.nextTimer + 1
    queued := s₁.queued ++ [⟨payload, s₁.nextTimer⟩] } (.held payload.burrowRequestId)
  have hdesk : s₂.desk = s₁.desk := desk_emit_none _ rfl
  have hanswered : s₂.answered = s₁.answered := answered_emit_none _ rfl
  have hdisposed : s₂.disposed = s₁.disposed := filterMap_emit_none _ rfl
  have hentered : s₂.entered = s₁.entered ++ [payload.burrowRequestId] := filterMap_emit_some _ rfl
  have hids : s₂.queuedIds = s₁.queuedIds ++ [payload.burrowRequestId] := List.map_append
  have hperm : List.Perm (waiting hand s₂) (waiting (payload.burrowRequestId :: hand) s₁) := by
    rw [waiting, hids, ← List.append_assoc]
    exact List.perm_append_singleton _ _
  have hboth := hperm.append_right s₁.disposed
  show Kept hand s₂
  constructor
  · rw [hdisposed]
    exact hboth.nodup_iff.2 hroom.apart
  · rw [hanswered]
    exact hroom.outstanding
  · rw [hanswered, hdisposed]
    exact hroom.handedOut
  · rw [hdisposed, hdesk]
    exact fun id hmem => hroom.asked id (hboth.mem_iff.1 hmem)
  · rw [hentered, hentered₁, List.nodup_append]
    refine ⟨h.entered, List.nodup_singleton _, ?_⟩
    rintro id hmem id' hmem' rfl
    rw [List.mem_singleton] at hmem'
    exact hnew (hmem' ▸ hmem)
  · intro id hmem
    rw [hdisposed]
    rw [hentered, List.mem_append, List.mem_singleton] at hmem
    rcases hmem with hmem | rfl
    · exact hboth.mem_iff.2 (hroom.left id hmem)
    · exact hboth.mem_iff.2 (List.mem_cons_self ..)
  · intro id hmem
    rw [hdesk]
    rw [hids, List.mem_append, List.mem_singleton] at hmem
    rcases hmem with hmem | rfl
    · exact hroom.ours id hmem
    · rw [haskers]
      exact hasker
  · rw [hdesk]
    exact hroom.errands
  · intro id client hroute
    rw [hdesk]
    obtain ⟨hclient, hplace⟩ := hroom.routes id client hroute
    refine ⟨hclient, hplace.imp_left fun hmem => ?_⟩
    -- The command at hand is one of this window's own, and has no route.
    rcases List.mem_cons.1 hmem with rfl | hmem
    · rw [haskers, hasker] at hclient
      cases hclient
    · exact hmem
  · rw [hdesk]
    exact hroom.routed
  · rw [hdesk]
    exact hroom.gone
  · rw [hdesk]
    exact (filterMap_emit_none _ rfl).trans hroom.delivered
  · show (s₁.queued ++ [_]).length ≤ QUEUE_LIMIT
    rw [List.length_append]
    exact hlength
  · intro entry hmem
    show (s₁.timers.set s₁.nextTimer payload.burrowRequestId).get entry.timer = _
    rw [InsertionMap.get_set]
    rcases List.mem_append.1 hmem with hmem | hmem
    · have htimed := hroom.timed entry hmem
      rw [if_neg (Nat.ne_of_gt (hroom.fresh _ _ htimed))]
      exact htimed
    · cases List.mem_singleton.1 hmem
      exact if_pos rfl
  · intro timer id hget
    have hget : (s₁.timers.set s₁.nextTimer payload.burrowRequestId).get timer = some id := hget
    rw [InsertionMap.get_set] at hget
    show timer < s₁.nextTimer + 1
    split at hget
    · rename_i heq
      omega
    · exact Nat.lt_succ_of_lt (hroom.fresh timer id hget)

theorem contendForBurrow (h : Kept hand s) : Kept hand s.contendForBurrow := by
  unfold BurrowWindow.contendForBurrow BurrowWindow.startService
  dsimp only
  split
  · split
    · exact h.congr rfl rfl rfl rfl rfl rfl rfl
    · exact h.congr rfl rfl rfl rfl rfl rfl rfl
  · exact h.congr rfl rfl rfl rfl rfl rfl rfl

theorem handleBurrowCommand (h : Kept [payload.burrowRequestId] s)
    (hnew : payload.burrowRequestId ∉ s.entered)
    (hasker : s.desk.askers payload.burrowRequestId = some .webviews) :
    Kept [] (s.handleBurrowCommand payload) := by
  unfold BurrowWindow.handleBurrowCommand
  split
  · exact h.runCommand fun client hclient => absurd (hasker.symm.trans hclient) nofun
  split
  · rename_i s' hforward
    exact h.forwardCommand hasker hforward
  · split
    · exact (h.enqueueCommand hnew hasker).contendForBurrow
    · split
      · exact h.enqueueCommand hnew hasker
      · exact h.refuseCommand hasker

/-- The route of a command that is being dealt with. -/
theorem setRoute {client : PeerLinkClient} (h : Kept (id :: hand) s)
    (hasker : s.desk.askers id = some (.window client)) :
    Kept (id :: hand) { s with commandRoutes := s.commandRoutes.set id client } := by
  refine ⟨h.apart, h.outstanding, h.handedOut, h.asked, h.entered, h.left, h.ours, h.errands, ?_, ?_,
    h.gone, h.delivered, h.bounded, h.timed, h.fresh⟩
  · intro id' client' hroute
    have hroute : (s.commandRoutes.set id client).get id' = some client' := hroute
    rcases InsertionMap.get_of_set hroute with ⟨heq, rfl⟩ | ⟨-, hroute⟩
    · subst heq
      exact ⟨hasker, .inl (List.mem_cons_self ..)⟩
    · exact h.routes id' client' hroute
  · intro id' client' hmem hasker'
    show (s.commandRoutes.set id client).get id' = some client' ∨ _
    rw [InsertionMap.get_set]
    split
    · rename_i heq
      subst heq
      cases hasker.symm.trans hasker'
      exact .inl rfl
    · exact h.routed id' client' hmem hasker'

theorem handleForwardedCommand {client : PeerLinkClient} (h : Kept [payload.burrowRequestId] s)
    (hasker : s.desk.askers payload.burrowRequestId = some (.window client)) :
    Kept [] (s.handleForwardedCommand payload client) := by
  have hset := h.setRoute hasker
  set s₁ : BurrowWindow :=
    { s with commandRoutes := s.commandRoutes.set payload.burrowRequestId client }
  have hroute : s₁.commandRoutes.get payload.burrowRequestId = some client := by
    show (s.commandRoutes.set payload.burrowRequestId client).get _ = _
    rw [InsertionMap.get_set, if_pos rfl]
  have hrouted : ∀ client', s₁.desk.askers payload.burrowRequestId = some (.window client') →
      s₁.commandRoutes.get payload.burrowRequestId = some client' := by
    intro client' hasker'
    cases hasker.symm.trans hasker'
    exact hroute
  show Kept [] (if s₁.service then _ else _)
  split
  · exact hset.runCommand hrouted
  have hout : Kept [] (emit { s₁ with
      errands := s₁.errands ++ [(payload.burrowRequestId, .service)] }
      (.refused payload.burrowRequestId)) :=
    hset.handOut rfl rfl rfl rfl (fun hne => absurd rfl hne) fun _ => hrouted
  have hreply := hout.reply (.error NO_BURROW)
    (List.mem_append_right _ (List.mem_singleton.2 rfl)) fun client' _ _ =>
      (congrArg Option.isSome hroute).trans rfl
  exact (congrArg (fun errands => Kept [] (answer (emit (emit { s₁ with errands := errands }
    (.refused payload.burrowRequestId))
      (.desk (.answered payload.burrowRequestId (.error NO_BURROW))))
        ⟨payload.burrowRequestId, .error NO_BURROW⟩)) (hset.erase_errand .service)).mp hreply

/-- A window goes away, and its routes go with it. -/
theorem windowGone (h : Kept [] s) (client : PeerLinkClient) :
    Kept [] (emit { s.dropForwardedCommands client with gone := s.gone ++ [client] }
      (.desk (.left (.window client)))) := by
  set s₁ : BurrowWindow := { s.dropForwardedCommands client with gone := s.gone ++ [client] }
  have hdesk : (s₁.emit (.desk (.left (.window client)))).desk =
      s.desk.step (.left (.window client)) := desk_emit_desk s₁ _
  have hanswered : (s₁.emit (.desk (.left (.window client)))).answered = s.answered :=
    (answered_emit_desk s₁ _).trans (List.append_nil _)
  have hdisposed : (s₁.emit (.desk (.left (.window client)))).disposed = s.disposed :=
    filterMap_emit_none s₁ rfl
  have hentered : (s₁.emit (.desk (.left (.window client)))).entered = s.entered :=
    filterMap_emit_none s₁ rfl
  have hroutes : ∀ id client', s.commandRoutes.get id = some client' →
      (s₁.commandRoutes.get id = some client' ↔ client' ≠ client) := by
    intro id client' hroute
    show (s.commandRoutes.filter fun _ owner => owner != client).get id = some client' ↔ _
    rw [InsertionMap.get_filter, hroute]
    simp
  have hsub : ∀ id client', s₁.commandRoutes.get id = some client' →
      s.commandRoutes.get id = some client' := by
    intro id client' hroute
    have hroute : (s.commandRoutes.filter fun _ owner => owner != client).get id = some client' :=
      hroute
    rw [InsertionMap.get_filter, Option.filter_eq_some_iff] at hroute
    exact hroute.1
  constructor
  · rw [hdisposed]
    exact h.apart
  · rw [hanswered]
    exact h.outstanding
  · rw [hanswered, hdisposed]
    exact h.handedOut
  · rw [hdisposed, hdesk]
    exact h.asked
  · rw [hentered]
    exact h.entered
  · rw [hdisposed, hentered]
    exact h.left
  · rw [hdesk]
    exact h.ours
  · rw [hdesk]
    exact h.errands
  · intro id client' hroute
    rw [hdesk]
    exact h.routes id client' (hsub id client' hroute)
  · intro id client' hmem hasker
    rw [hdesk] at hasker
    show _ ∨ client' ∈ s.gone ++ [client]
    by_cases heq : client' = client
    · exact .inr (List.mem_append_right _ (List.mem_singleton.2 heq))
    · rcases h.routed id client' hmem hasker with hroute | hgone
      · exact .inl ((hroutes id client' hroute).2 heq)
      · exact .inr (List.mem_append_left _ hgone)
  · rw [hdesk]
    show s.desk.gone ++ [Asker.window client] = (s.gone ++ [client]).map Asker.window
    rw [List.map_append, h.gone]
    rfl
  · rw [hdesk]
    exact (filterMap_emit_none s₁ rfl).trans h.delivered
  · exact h.bounded
  · exact h.timed
  · exact h.fresh

theorem step {event : BurrowEvent} (h : Kept [] s) (hfresh : s.Fresh event) (hmeets : s.Meets event)
    (hstep : s.step event = some s') : Kept [] s' := by
  cases event with
  | initBurrow =>
    cases hstep
    exact h.congr rfl rfl rfl rfl rfl rfl rfl
  | contendIfEnrolled =>
    cases hstep
    exact h.contendForBurrow
  | webviewCommand value =>
    unfold BurrowWindow.step at hstep
    dsimp only at hstep
    split at hstep
    · cases hstep
      exact h
    rename_i payload hvalue
    cases hstep
    have hnone := hfresh payload hvalue
    obtain ⟨hasked, hasker⟩ := h.ask hnone .webviews
    have hentered : (s.emit (.desk (.asked payload.burrowRequestId .webviews))).entered =
        s.entered := filterMap_emit_none s rfl
    refine hasked.handleBurrowCommand ?_ hasker
    rw [hentered]
    exact fun hmem => h.asked _ (h.left _ hmem) hnone
  | forwardedCommand value client =>
    unfold BurrowWindow.step at hstep
    dsimp only at hstep
    split at hstep
    · cases hstep
      exact h
    · rename_i payload hvalue
      cases hstep
      obtain ⟨hasked, hasker⟩ := h.ask (hfresh payload hvalue) (.window client)
      exact hasked.handleForwardedCommand hasker
  | serviceAnswered id outcome =>
    obtain ⟨s₁, htake, rfl⟩ := Option.map_eq_some_iff.1 hstep
    obtain ⟨hmem, rfl⟩ := takeAnswer_eq_some htake
    exact h.reply outcome hmem hmeets
  | brokerAnswered id outcome =>
    obtain ⟨s₁, htake, rfl⟩ := Option.map_eq_some_iff.1 hstep
    obtain ⟨hmem, rfl⟩ := takeAnswer_eq_some htake
    exact h.replyHere outcome hmem (h.errands id _ hmem nofun)
  | statusRead id status =>
    obtain ⟨s₁, htake, rfl⟩ := Option.map_eq_some_iff.1 hstep
    obtain ⟨hmem, rfl⟩ := takeAnswer_eq_some htake
    exact h.replyHere _ hmem (h.errands id _ hmem nofun)
  | queueTimeout timer =>
    unfold BurrowWindow.step at hstep
    dsimp only at hstep
    split at hstep
    · cases hstep
    rename_i id hget
    cases hstep
    refine h.dropQueuedWith ?_ ?_
    · intro timer' id' hget' hne
      rw [InsertionMap.get_delete_ne]
      · exact hget'
      · rintro rfl
        exact hne (Option.some.inj (hget'.symm.trans hget))
    · intro timer' id' hget'
      exact (InsertionMap.get_of_delete hget').2
  | settled role =>
    cases hstep
    have hrole : Kept [] { s with link := role } := h.congr rfl rfl rfl rfl rfl rfl rfl
    split
    · refine Kept.drainQueuedCommands ?_
      unfold BurrowWindow.startService
      split
      · exact hrole
      · exact hrole.congr rfl rfl rfl rfl rfl rfl rfl
    · exact hrole.drainQueuedCommands
  | unsettled =>
    cases hstep
    exact h.congr rfl rfl rfl rfl rfl rfl rfl
  | contentionEnded =>
    cases hstep
    exact h.drainQueuedCommands
  | windowGone client =>
    cases hstep
    exact h.windowGone client

/-- What the invariant says of the log. -/
theorem accounted (h : Kept [] s) : s.Accounted :=
  { h with
    handed := (List.nodup_append.1 h.apart).2.1.sublist s.handed_sublist
    once := by
      rw [h.delivered]
      exact (List.nodup_append.1 h.outstanding).2.1.sublist (Desk.delivered_sublist _)
    left id hmem := by
      rw [← List.count_append]
      exact List.count_eq_one_of_mem h.apart (h.left id hmem) }

end Kept

theorem inductive_kept : routedCommands.Inductive (Kept []) where
  init hinit := hinit ▸ Kept.create
  step h hstep := h.step hstep.1.1 hstep.1.2 hstep.2

/-- As long as no result comes in behind a route that went with its window, every result goes to
the asker. -/
theorem results_reach_asker {s : BurrowWindow} (h : routedCommands.Reachable s) : s.Accounted :=
  (inductive_kept.reachable h).accounted

/-- The condition is exact: a result that comes in otherwise goes to someone it is not for. -/
theorem delivered_iff_meets {outcome : Outcome} (h : Kept [] s)
    (hstep : s.step (.serviceAnswered id outcome) = some s') :
    s'.deliveries = s'.desk.delivered ↔ s.Meets (.serviceAnswered id outcome) := by
  constructor
  · intro hdelivered client hasker hgone
    obtain ⟨s₁, htake, rfl⟩ := Option.map_eq_some_iff.1 hstep
    obtain ⟨-, rfl⟩ := takeAnswer_eq_some htake
    by_contra hlost
    have hroute : s.commandRoutes.get id = none := by
      simpa [InsertionMap.has] using hlost
    have hdue : s.desk.due id = none := by
      rw [Desk.due, hasker, h.gone]
      simp [hgone]
    set s₁ : BurrowWindow := emit { s with errands := s.errands.erase (id, .service) }
      (.desk (.answered id outcome))
    have hposted : s₁.answer ⟨id, outcome⟩ = s₁.emit (.posted ⟨id, outcome⟩) := by
      unfold answer
      split
      · rename_i client' hsome
        cases hroute.symm.trans hsome
      · rfl
    have hdeliveries₁ : s₁.deliveries = s.deliveries := filterMap_emit_none _ rfl
    have hdeliveries : (s₁.emit (.posted ⟨id, outcome⟩)).deliveries =
        s₁.deliveries ++ [(.webviews, id, outcome)] := filterMap_emit_some s₁ rfl
    have hdesk : (s₁.emit (.posted ⟨id, outcome⟩)).desk = s.desk.step (.answered id outcome) :=
      (desk_emit_none _ rfl).trans (desk_emit_desk _ _)
    have hnothing : (s.desk.step (.answered id outcome)).delivered = s.desk.delivered := by
      rw [Desk.step, hdue]
      exact List.append_nil _
    rw [hposted, hdeliveries, hdeliveries₁, hdesk, hnothing, h.delivered] at hdelivered
    simpa using congrArg List.length hdelivered
  · intro hmeets
    have hfresh : s.Fresh (.serviceAnswered id outcome) := trivial
    exact (h.step hfresh hmeets hstep).delivered

/-! ### A run -/

theorem reachable_of_routed (h : routedCommands.Reachable s) : commands.Reachable s := by
  induction h with
  | start hinit => exact .start hinit
  | next _ hstep ih => exact .next ih ⟨hstep.1.1, hstep.2⟩

/-- A window that holds the Burrow. -/
def serving : BurrowWindow :=
  { create with context := true, service := true, contending := true, link := .broker }

theorem next_reachable (event : BurrowEvent) (h : routedCommands.Reachable s)
    (hfresh : s.Fresh event) (hmeets : s.Meets event) (hstep : s.step event = some s') :
    routedCommands.Reachable s' :=
  .next h ⟨⟨hfresh, hmeets⟩, hstep⟩

theorem serving_reachable : routedCommands.Reachable serving := by
  have hinit : routedCommands.Reachable { create with context := true } :=
    next_reachable .initBurrow (.start rfl) trivial trivial rfl
  have hcontending : routedCommands.Reachable { create with context := true, contending := true } :=
    next_reachable .contendIfEnrolled hinit trivial trivial rfl
  exact next_reachable (.settled .broker) hcontending trivial trivial rfl

/-- `{"burrowRequestId":"rh","cmd":"status"}`. -/
def statusCommand : Json :=
  .object [(js "burrowRequestId", .string (js "rh")), (js "cmd", .string (js "status"))]

theorem isBurrowCommand_statusCommand :
    isBurrowCommand (some statusCommand) = some ⟨js "rh", js "status", none⟩ := by
  simp [isBurrowCommand, statusCommand, Json.stringField, Json.field, Json.asString, js, codeUnits]

/-- The window after another one has forwarded a command. -/
def running : BurrowWindow :=
  { serving with
    commandRoutes := .set .empty (js "rh") 7
    errands := [(js "rh", .service)]
    log := [.desk (.asked (js "rh") (.window 7)), .ran (js "rh")] }

theorem running_reachable : routedCommands.Reachable running := by
  refine next_reachable (.forwardedCommand (some statusCommand) 7) serving_reachable
    (fun payload _ => rfl) trivial ?_
  unfold BurrowWindow.step
  dsimp only
  rw [isBurrowCommand_statusCommand]
  rfl

theorem results_reach_asker_running : ∃ s, routedCommands.Reachable s ∧ s.Accounted ∧
    s.deliveries = [(.window 7, js "rh", .result .null)] := by
  have hreach := next_reachable (.serviceAnswered (js "rh") (.result .null)) running_reachable trivial
    (fun _ _ hgone => nomatch hgone) rfl
  exact ⟨_, hreach, results_reach_asker hreach, rfl⟩

/-- The window that asked goes away while its command runs: the result is posted to the webviews of
the window that ran it. -/
theorem result_of_gone_window_posted :
    ∃ s, commands.Reachable s ∧ s.deliveries = [(.webviews, js "rh", .result .null)] ∧
      s.desk.delivered = [] ∧ ¬ s.Accounted := by
  have hrunning : commands.Reachable running := reachable_of_routed running_reachable
  have hgone := System.Reachable.next (a := BurrowEvent.windowGone 7) hrunning ⟨trivial, rfl⟩
  have hanswered := System.Reachable.next (a := BurrowEvent.serviceAnswered (js "rh") (.result .null))
    hgone ⟨trivial, rfl⟩
  refine ⟨_, hanswered, rfl, rfl, fun haccounted => ?_⟩
  exact absurd (congrArg List.length haccounted.delivered) Nat.one_ne_zero

end BurrowWindow

end Dormouse.Window
