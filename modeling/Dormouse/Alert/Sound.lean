import Dormouse.Alert.Operations

/-!
# Dormouse.Alert.Sound

**What holds in every run of the alert manager**: the fields of every entry cohere, and a
latched ring stays until somebody releases it, one report excepted: progress that ends
no cycle overwrites a latched protocol ring.
-/

namespace Dormouse.Alert

open Terminal

namespace AlertManager

open AlertEntry

/-! ### Releasing and overwriting -/

/-- The rings an operation is there to release: those of the Session it attends,
dismisses, marks, seeds or removes, those whose rule it drops, and the one that an await
resolves on. -/
def Operation.Releases (m : AlertManager) (now : Ms) (id' : Id) (track : Track) : Operation → Prop
  | .attend id | .dismissAlert id | .toggleTodo id | .markTodo id | .clearTodo id | .remove id =>
    id' = id
  | .seed id _ _ => id' = id
  | .dispose => True
  | .setWatchedCommands names => track = .watching ∧
      ∃ command, m.ringingCommand id' = some command ∧ command ∉ names
  | .setCommandWatched name watched => track = .watching ∧ watched = false ∧
      m.ringingCommand id' = some (JsString.trim name)
  | .awaitCompletion id awaitUntil timeoutMs => id' = id ∧
      (m.awaitCompletion id awaitUntil timeoutMs now).outcomes =
        m.outcomes ++ [(m.nextHandle, .resolved (consumedCause track) 0)]
  | _ => False

/-- A report of progress that ends no cycle, on a Session whose protocol track rings. -/
def Operation.Overwrites (m : AlertManager) (id' : Id) : Operation → Prop
  | .updateProtocolProgress id progress =>
    id' = id ∧ id ∉ m.helpers ∧ nonTerminal progress ∧ m.rings id .protocol = true
  | _ => False

/-- **The effect of every operation** on a coherent manager. -/
theorem perform_effect (now : Ms) {m : AlertManager} (hm : m.Coherent) (op : Operation) :
    Effect (fun id track => op.Releases m now id track ∨ track = .protocol ∧ op.Overwrites m id) m
      (m.perform now op) := by
  cases op with
  | applySettings timeoutMs deferUntilQuiet => exact applySettings_effect ..
  | setHelper id helper => exact Quiet.effect ⟨rfl, rfl, rfl⟩
  | onData id => exact onData_latches ..
  | onExit id exitCode => exact onExit_latches ..
  | onResize id => exact onResize_latches ..
  | setWatchedCommands names =>
    refine replaceWatchedCommands_effect names.toFinset m fun id command hring hgone => ?_
    exact .inl ⟨rfl, command, hring, fun hmem => hgone (List.mem_toFinset.2 hmem)⟩
  | setCommandWatched name watched =>
    exact setCommandWatched_effect name watched m
      (fun id hoff hring => .inl ⟨rfl, hoff, hring⟩) hm
  | registerCompletionClaimant id key answer => exact registerClaimant_rests ..
  | unregisterClaimant id key => exact unregisterClaimant_rests ..
  | awaitCompletion id awaitUntil timeoutMs =>
    exact (awaitCompletion_effect id awaitUntil timeoutMs now m).mono fun _ _ h => .inl h
  | cancelAwait id handle => exact cancelAwait_publishes ..
  | notifyFromProtocol id notification => exact notifyFromProtocol_latches ..
  | updateProtocolProgress id progress =>
    exact updateProtocolProgress_effect id progress now m fun hhelper hnt hring =>
      .inr ⟨rfl, rfl, hhelper, hnt, hring⟩
  | applyTerminalSemanticEvents id events => exact applyTerminalSemanticEvents_latches ..
  | attend id => exact attend_effect id now m fun _ => .inl rfl
  | clearAttention id => exact clearAttention_effect ..
  | dismissAlert id => exact dismissAlert_effect id m fun _ => .inl rfl
  | toggleTodo id => exact toggleTodo_effect id m fun _ => .inl rfl
  | markTodo id => exact markTodo_effect id m fun _ => .inl rfl
  | clearTodo id => exact clearTodo_effect id m fun _ => .inl rfl
  | remove id => exact remove_effect id now m fun _ => .inl rfl
  | seed id todo notification => exact seed_effect id todo notification m fun _ => .inl rfl
  | dispose => exact dispose_effect now m fun _ _ => .inl trivial
  | attentionExpires => exact attentionExpires_effect m
  | graceExpires id handle => exact graceExpires_publishes ..
  | awaitTimesOut id handle => exact awaitTimesOut_publishes ..
  | deferredNotificationDue id => exact deferredNotificationDue_effect id now m hm
  | detectorTimer id timer => exact detectorTimer_latches ..

/-! ### Coherence -/

/-- Perform a list of timed operations on a new manager. -/
def performAll (ops : List (Ms × Operation)) : AlertManager :=
  ops.foldl (fun m op => m.perform op.1 op.2) .fresh

theorem reachable_performAll (ops : List (Ms × Operation)) : alerts.Reachable (performAll ops) :=
  .foldl (fun _ _ => rfl) ops (.start rfl)

/-- **The entries cohere in every run**: of each entry, the attended one has no ring and
no deferral, an armed one has a command seen with attention and is not attended, a
deferral has its timer, the protocol track is busy exactly while progress is stored, and
a WATCHING ring's command is still a rule. -/
theorem entries_coherent (m : AlertManager) (h : alerts.Reachable m) : m.Coherent := by
  have hinductive : alerts.Inductive Coherent := by
    refine ⟨?_, ?_⟩
    · intro m hm id e he
      rw [show m = .fresh from hm] at he
      exact absurd he (by simp [fresh])
    · intro m m' label hm hstep
      rw [show m' = m.perform label.1 label.2 from hstep]
      exact (perform_effect label.1 hm label.2).coherent hm
  exact hinductive.reachable h

/-- Attention moves from a Session whose command runs to another one. -/
def attentionMoves : AlertManager :=
  performAll [(0, .attend (js "a")),
    (1, .applyTerminalSemanticEvents (js "a") [.commandLine (js "make"), .commandStart none none]),
    (2, .attend (js "b"))]

theorem entries_coherent_armed :
    (attentionMoves.entries.get (js "a")).any (·.commandExitStatus = .COMMAND_EXIT_ARMED) = true ∧
      attentionMoves.Coherent :=
  ⟨by decide +kernel, entries_coherent _ (reachable_performAll _)⟩

/-! ### Latching -/

/-- Whatever was ringing still is, or the operation was there to release it. -/
def Latches (now : Ms) (m : AlertManager) (op : Operation) : Prop :=
  ∀ id track, m.rings id track = true → ¬op.Releases m now id track →
    (m.perform now op).rings id track = true

/-- Progress that ends no cycle silences a ringing protocol track. -/
theorem rings_activeProgress {id : Id} (progress : ActiveProtocolProgress) {m : AlertManager}
    (hring : m.rings id .protocol = true) :
    (m.activeProgress id progress).rings id .protocol = false := by
  obtain ⟨e, he, hringing⟩ := (Option.any_eq_true _ _).1 hring
  have hstatus : e.protocolStatus = .ALERT_RINGING := of_decide_eq_true hringing
  have hnew : ¬(m.entries.get id).any (fun e =>
      decide (e.protocolStatus = .OSC_NOTIF_BUSY ∧ e.progress = some progress)) = true := by
    rw [he]
    simp [hstatus]
  rw [activeProgress, if_neg hnew, rings, (notify_quiet ..).entries, (modifyEntry_edits ..).get_self,
    he]
  rfl

theorem rings_updateProtocolProgress {id : Id} {progress : ProtocolProgressUpdate} (now : Ms)
    {m : AlertManager} (hhelper : id ∉ m.helpers) (hnt : nonTerminal progress)
    (hring : m.rings id .protocol = true) :
    (m.updateProtocolProgress id progress now).rings id .protocol = false := by
  have hring' := (rings_reportedEntry id m .protocol).trans hring
  obtain ⟨state, percent⟩ := progress
  rw [updateProtocolProgress, if_neg hhelper]
  rcases hnt with hstate | hstate | ⟨hstate, hpercent⟩
  · obtain rfl : state = .warning := hstate
    exact rings_activeProgress _ hring'
  · obtain rfl : state = .indeterminate := hstate
    exact rings_activeProgress _ hring'
  · obtain rfl : state = .normal := hstate
    simp only [if_neg hpercent]
    exact rings_activeProgress _ hring'

/-- The runs in which no progress overwrites a ring and nothing releases this one. -/
def undisturbed (id : Id) (track : Track) : System AlertManager (Ms × Operation) where
  init := alerts.init
  step m label m' := alerts.step m label m' ∧ (∀ id', ¬label.2.Overwrites m id') ∧
    ¬label.2.Releases m label.1 id track

/-- **A ring stays latched** through every run in which no progress report that ends no
cycle meets a ringing protocol track; and exactly those reports break the latch. -/
theorem rings_stay_latched (m : AlertManager) (h : alerts.Reachable m) :
    (∀ id track, m.rings id track = true → ∀ m', ((undisturbed id track).startingAt m).Reachable m' →
      m'.rings id track = true) ∧
    (∀ now op, Latches now m op ↔ ∀ id, ¬op.Overwrites m id) := by
  refine ⟨fun id track hring m' hrun => ?_, fun now op => ⟨fun hlatches id hover => ?_, ?_⟩⟩
  · have hinductive : ((undisturbed id track).startingAt m).Inductive fun m' =>
        alerts.Reachable m' ∧ m'.rings id track = true := by
      refine ⟨?_, ?_⟩
      · intro s hs
        rw [show s = m from hs]
        exact ⟨h, hring⟩
      · intro s t label hs hstep
        obtain ⟨halert, hover, hrelease⟩ := hstep
        refine ⟨hs.1.next halert, ?_⟩
        rw [show t = s.perform label.1 label.2 from halert]
        refine (perform_effect label.1 (entries_coherent s hs.1) label.2).latched id track ?_ hs.2
        rintro (hP | ⟨-, hP⟩)
        · exact hrelease hP
        · exact hover id hP
    exact (hinductive.reachable hrun).2
  · -- the report finds the track ringing and leaves it busy, and is there to release nothing
    cases op with
    | updateProtocolProgress id' progress =>
      obtain ⟨rfl, hhelper, hnt, hring⟩ := hover
      have hkept := hlatches id .protocol hring not_false
      have hlost := rings_updateProtocolProgress now hhelper hnt hring
      exact absurd (hlost.symm.trans hkept) (by decide)
    | _ => exact hover
  · intro hover id track hring hrelease
    refine (perform_effect now (entries_coherent m h) op).latched id track ?_ hring
    rintro (hP | ⟨-, hP⟩)
    · exact hrelease hP
    · exact hover id hP

/-- A Session whose program asked for input. -/
def asksForInput : AlertManager :=
  performAll [(0, .notifyFromProtocol (js "a") ⟨.OSC_9, none, some (js "Approve?")⟩)]

theorem rings_stay_latched_asking :
    asksForInput.rings (js "a") .protocol = true ∧
    (∀ id track, asksForInput.rings id track = true →
      ∀ m', ((undisturbed id track).startingAt asksForInput).Reachable m' →
        m'.rings id track = true) ∧
    (∀ now op, Latches now asksForInput op ↔ ∀ id, ¬op.Overwrites asksForInput id) :=
  ⟨by decide +kernel, rings_stay_latched _ (reachable_performAll _)⟩

/-- A progress report takes the request for input back. -/
theorem progress_silences_ring :
    ¬∀ m, alerts.Reachable m → ∀ now op, Latches now m op := by
  intro h
  have hkept := h asksForInput (reachable_performAll _) 1
    (.updateProtocolProgress (js "a") ⟨.normal, some 25⟩) (js "a") .protocol (by decide +kernel)
    not_false
  exact absurd hkept (by decide +kernel)

end AlertManager

end Dormouse.Alert
