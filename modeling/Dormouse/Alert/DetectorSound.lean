import Mathlib.Algebra.Order.Ring.Rat
import Dormouse.Alert.Detector
import Dormouse.Lib.Transition

/-!
# Dormouse.Alert.DetectorSound

**What holds in every run of the quiesce detector** whose timers fire when they are due:
each phase has its timer armed, and a settle comes once for a busy period, at the end of
the silence behind the last output that was accepted.
-/

namespace Dormouse.Alert

open Terminal (Ms)

namespace QuiesceDetector

/-! ### Runs -/

/-- What happens to a detector. Time moves on to `at` by `later`; the owner may reset the
detector while a settle is announced. -/
inductive DetectorEvent
  | output
  | reset
  | resize
  | fires (timer : DetectorTimer) (ownerResets : Bool)
  | later (instant : Ms)
  deriving DecidableEq

/-- A detector, the clock, and what was seen of them: when an output was last accepted, and
whether BUSY was reached since the last reset or settle. -/
structure Watched where
  detector : QuiesceDetector
  now : Ms
  acceptedAt : Option Ms
  busyReached : Bool

/-- A timer fires. -/
def timerFires (now : Ms) (timer : DetectorTimer) (ownerResets : Bool) (d : QuiesceDetector) :
    QuiesceDetector :=
  match timer with
  | .busyCandidate => d.busyCandidateFires now
  | .busyConfirm => d.busyConfirmFires now
  | .mightNeedAttention => d.mightNeedAttentionFires now
  | .resize => d.resizeFires
  | .settledConfirm =>
    if d.settles then (if ownerResets then d.settleStarts.reset else d.settleStarts).settleEnds
    else d.settleStarts

/-- Whether the event is a settle. -/
def isSettle (d : QuiesceDetector) : DetectorEvent → Bool
  | .fires .settledConfirm _ => d.settles
  | _ => false

/-- The detector after an event. -/
def after (now : Ms) (d : QuiesceDetector) : DetectorEvent → QuiesceDetector
  | .output => d.onData now
  | .reset => d.reset
  | .resize => d.onResize now
  | .fires timer ownerResets => d.timerFires now timer ownerResets
  | .later _ => d

/-- What is seen of an event. -/
def Watched.next (s : Watched) (event : DetectorEvent) : Watched where
  detector := s.detector.after s.now event
  now :=
    match event with
    | .later instant => instant
    | _ => s.now
  acceptedAt :=
    match event with
    | .output => if s.detector.resizeGrace then s.acceptedAt else some s.now
    | _ => s.acceptedAt
  busyReached :=
    if (s.detector.after s.now event).status = .BUSY then true
    else if event = .reset ∨ s.detector.isSettle event = true then false
    else s.busyReached

/-- A timer fires at the instant it is due, and time waits for it. -/
def Watched.Allows (s : Watched) : DetectorEvent → Prop
  | .fires timer _ => s.detector.due timer = some s.now
  | .later instant => s.now ≤ instant ∧ ∀ timer due, s.detector.due timer = some due → instant ≤ due
  | _ => True

/-- The runs of one detector. -/
def watching : System Watched DetectorEvent where
  init s := s.detector = .fresh ∧ s.acceptedAt = none ∧ s.busyReached = false
  step s event t := s.Allows event ∧ t = s.next event

/-! ### The timers of a phase -/

/-- Which timers a status arms, and when the two that lead to a settle are due. -/
def Phase (d : QuiesceDetector) : Prop :=
  match d.status with
  | .NOTHING_TO_SHOW =>
    d.busyConfirmTimer = none ∧ d.mightNeedAttentionTimer = none ∧ d.settledConfirmTimer = none
  | .MIGHT_BE_BUSY =>
    d.busyCandidateTimer = none ∧ d.busyConfirmTimer.isSome ∧ d.mightNeedAttentionTimer = none ∧
      d.settledConfirmTimer = none
  | .BUSY =>
    d.busyCandidateTimer = none ∧ d.busyConfirmTimer = none ∧ d.settledConfirmTimer = none ∧
      ∃ accepted, d.lastAcceptedOutputAt = some accepted ∧
        d.mightNeedAttentionTimer = some (accepted + T_MIGHT_NEED_ATTENTION)
  | .MIGHT_NEED_ATTENTION =>
    d.busyCandidateTimer = none ∧ d.busyConfirmTimer = none ∧ d.mightNeedAttentionTimer = none ∧
      ∃ accepted, d.lastAcceptedOutputAt = some accepted ∧
        d.settledConfirmTimer = some (accepted + QUIESCE_AFTER_OUTPUT_MS)

/-- The invariant of a watched detector. -/
structure Watched.Sound (s : Watched) : Prop where
  phase : s.detector.Phase
  live : s.detector.disposed = false
  resize : s.detector.resizeTimer.isSome = s.detector.resizeGrace
  accepted : s.detector.lastAcceptedOutputAt = s.acceptedAt
  busy : s.detector.isConfirmedBusy = true → s.busyReached = true
  notOverdue : ∀ timer due, s.detector.due timer = some due → s.now ≤ due

/-! ### What an event leaves alone -/

/-- What an event may do besides moving the phase: timers start at `now`. -/
structure Frame (now : Ms) (d d' : QuiesceDetector) : Prop where
  disposed : d'.disposed = d.disposed
  due : ∀ timer at', d'.due timer = some at' → d.due timer = some at' ∨ now ≤ at'

theorem Frame.refl (now : Ms) (d : QuiesceDetector) : Frame now d d := ⟨rfl, fun _ _ h => .inl h⟩

theorem Frame.trans {now : Ms} {a b c : QuiesceDetector} (hab : Frame now a b)
    (hbc : Frame now b c) : Frame now a c :=
  ⟨hbc.disposed.trans hab.disposed, fun timer at' h =>
    (hbc.due timer at' h).elim (hab.due timer at') .inr⟩

theorem clearActivityTimers_frame (now : Ms) (d : QuiesceDetector) :
    Frame now d d.clearActivityTimers := by
  refine ⟨rfl, fun timer at' h => ?_⟩
  cases timer with
  | resize => exact .inl h
  | _ => cases h

theorem enterMightBeBusy_frame (now : Ms) (d : QuiesceDetector) :
    Frame now d (d.enterMightBeBusy now) := by
  refine (clearActivityTimers_frame now d).trans ⟨rfl, fun timer at' h => ?_⟩
  cases timer with
  | busyConfirm =>
    obtain rfl := Option.some.inj h
    exact .inr (le_add_of_nonneg_right (by decide +kernel))
  | _ => exact .inl h

theorem startMightNeedAttentionTimer_frame (now : Ms) (d : QuiesceDetector) :
    Frame now d (d.startMightNeedAttentionTimer now) := by
  refine ⟨rfl, fun timer at' h => ?_⟩
  cases timer with
  | mightNeedAttention =>
    obtain rfl := Option.some.inj h
    exact .inr (le_add_of_nonneg_right (by decide +kernel))
  | _ => exact .inl h

theorem startBusyCandidateTimer_frame (now : Ms) (d : QuiesceDetector) :
    Frame now d (d.startBusyCandidateTimer now) := by
  rw [startBusyCandidateTimer]
  split
  · exact .refl now d
  refine ⟨rfl, fun timer at' h => ?_⟩
  cases timer with
  | busyCandidate =>
    obtain rfl := Option.some.inj h
    exact .inr (le_add_of_nonneg_right (by decide +kernel))
  | _ => exact .inl h

theorem startSettledConfirmTimer_frame (now : Ms) (d : QuiesceDetector) :
    Frame now d (d.startSettledConfirmTimer now) := by
  refine ⟨rfl, fun timer at' h => ?_⟩
  cases timer with
  | settledConfirm =>
    obtain rfl := Option.some.inj h
    exact .inr (le_add_of_nonneg_right (by decide +kernel))
  | _ => exact .inl h

/-- What changes neither timers nor disposal. -/
theorem Frame.of_due {now : Ms} {d d' : QuiesceDetector} (hdisposed : d'.disposed = d.disposed)
    (hdue : ∀ timer, d'.due timer = d.due timer ∨ d'.due timer = none) : Frame now d d' := by
  refine ⟨hdisposed, fun timer at' h => .inl ?_⟩
  rcases hdue timer with hsame | hnone
  · rw [← hsame, h]
  · rw [hnone] at h
    cases h

theorem enterBusy_frame (now : Ms) (d : QuiesceDetector) : Frame now d (d.enterBusy now) := by
  have hcleared : Frame now d (d.clearActivityTimers.resetOutputTracking.setStatus .BUSY) :=
    (clearActivityTimers_frame now d).trans (.of_due rfl fun timer => .inl (by cases timer <;> rfl))
  exact hcleared.trans (startMightNeedAttentionTimer_frame now _)

theorem onData_frame (now : Ms) (d : QuiesceDetector) : Frame now d (d.onData now) := by
  rw [onData]
  split
  · exact .refl now d
  have hseen : Frame now d
      { d with lastOutputAt := some now, lastAcceptedOutputAt := some now } :=
    .of_due rfl fun timer => .inl (by cases timer <;> rfl)
  refine hseen.trans ?_
  generalize { d with lastOutputAt := some now, lastAcceptedOutputAt := some now } = d₁
  dsimp only
  split
  · rw [handleNothingToShowOutput]
    split
    · have hfirst : Frame now d₁
          { d₁ with firstOutputAt := some now, outputCountSinceReset := 1 } :=
        .of_due rfl fun timer => .inl (by cases timer <;> rfl)
      exact hfirst.trans (startBusyCandidateTimer_frame now _)
    have hcounted : Frame now d₁
        { d₁ with outputCountSinceReset := d₁.outputCountSinceReset + 1 } :=
      .of_due rfl fun timer => .inl (by cases timer <;> rfl)
    split
    · exact hcounted.trans (enterMightBeBusy_frame now _)
    · exact hcounted
  · exact enterBusy_frame now d₁
  · exact startMightNeedAttentionTimer_frame now d₁
  · exact enterBusy_frame now d₁

theorem reset_frame (now : Ms) (d : QuiesceDetector) : Frame now d d.reset := by
  rw [reset]
  split
  · exact .refl now d
  · exact (clearActivityTimers_frame now d).trans
      (.of_due rfl fun timer => .inl (by cases timer <;> rfl))

theorem onResize_frame (now : Ms) (d : QuiesceDetector) : Frame now d (d.onResize now) := by
  rw [onResize]
  split
  · exact .refl now d
  refine ⟨rfl, fun timer at' h => ?_⟩
  cases timer with
  | resize =>
    obtain rfl := Option.some.inj h
    exact .inr (le_add_of_nonneg_right (by decide +kernel))
  | _ => exact .inl h

theorem timerFires_frame (now : Ms) (timer : DetectorTimer) (ownerResets : Bool)
    (d : QuiesceDetector) : Frame now d (d.timerFires now timer ownerResets) := by
  cases timer with
  | busyCandidate =>
    have hcleared : Frame now d { d with busyCandidateTimer := none } :=
      .of_due rfl fun timer => by cases timer <;> first | exact .inl rfl | exact .inr rfl
    show Frame now d (d.busyCandidateFires now)
    rw [busyCandidateFires]
    split
    · exact hcleared.trans (enterMightBeBusy_frame now _)
    · exact hcleared
  | busyConfirm =>
    have hcleared : Frame now d { d with busyConfirmTimer := none } :=
      .of_due rfl fun timer => by cases timer <;> first | exact .inl rfl | exact .inr rfl
    show Frame now d (d.busyConfirmFires now)
    rw [busyConfirmFires]
    split
    · exact hcleared
    refine hcleared.trans (.trans (b := seedFromLatestOutput now { d with busyConfirmTimer := none })
      ?_ (.of_due rfl fun timer => .inl (by cases timer <;> rfl)))
    rw [seedFromLatestOutput]
    split
    · exact .of_due rfl fun timer => .inl (by cases timer <;> rfl)
    rename_i last _
    have hseeded : Frame now { d with busyConfirmTimer := none }
        { { d with busyConfirmTimer := none } with
          firstOutputAt := some last
          outputCountSinceReset := 1 } :=
      .of_due rfl fun timer => .inl (by cases timer <;> rfl)
    exact hseeded.trans (startBusyCandidateTimer_frame now _)
  | mightNeedAttention =>
    have hcleared : Frame now d { d with mightNeedAttentionTimer := none } :=
      .of_due rfl fun timer => by cases timer <;> first | exact .inl rfl | exact .inr rfl
    show Frame now d (d.mightNeedAttentionFires now)
    rw [mightNeedAttentionFires]
    split
    · exact hcleared
    · exact hcleared.trans (.trans
        (b := setStatus .MIGHT_NEED_ATTENTION { d with mightNeedAttentionTimer := none })
        (.of_due rfl fun timer => .inl (by cases timer <;> rfl))
        (startSettledConfirmTimer_frame now _))
  | resize =>
    exact .of_due rfl fun timer => by cases timer <;> first | exact .inl rfl | exact .inr rfl
  | settledConfirm =>
    have hstarts : Frame now d d.settleStarts := by
      rw [settleStarts]
      split <;>
        exact .of_due rfl fun timer => by cases timer <;> first | exact .inl rfl | exact .inr rfl
    rw [timerFires]
    split
    · have hends : ∀ d₁ : QuiesceDetector, Frame now d₁ d₁.settleEnds := fun d₁ =>
        .of_due rfl fun timer => .inl (by cases timer <;> rfl)
      split
      · exact hstarts.trans ((reset_frame now _).trans (hends _))
      · exact hstarts.trans (hends _)
    · exact hstarts

theorem after_frame (now : Ms) (d : QuiesceDetector) (event : DetectorEvent) :
    Frame now d (d.after now event) := by
  cases event with
  | output => exact onData_frame now d
  | reset => exact reset_frame now d
  | resize => exact onResize_frame now d
  | fires timer ownerResets => exact timerFires_frame now timer ownerResets d
  | later instant => exact .refl now d

/-! ### Every event keeps the phase -/

theorem enterBusy_phase (now : Ms) {d : QuiesceDetector}
    (hnow : d.lastAcceptedOutputAt = some now) : (d.enterBusy now).Phase :=
  ⟨rfl, rfl, rfl, now, hnow, rfl⟩

theorem enterMightBeBusy_phase (now : Ms) (d : QuiesceDetector) :
    (d.enterMightBeBusy now).Phase :=
  ⟨rfl, rfl, rfl, rfl⟩

theorem startBusyCandidateTimer_phase (now : Ms) {d : QuiesceDetector} (h : d.Phase)
    (hstatus : d.status = .NOTHING_TO_SHOW) : (d.startBusyCandidateTimer now).Phase := by
  rw [startBusyCandidateTimer]
  split
  · exact h
  · rw [Phase, hstatus] at h
    rw [Phase]
    rw [hstatus]
    exact h

theorem onData_phase (now : Ms) {d : QuiesceDetector} (h : d.Phase) : (d.onData now).Phase := by
  rw [onData]
  split
  · exact h
  cases hstatus : d.status with
  | NOTHING_TO_SHOW =>
    rw [Phase, hstatus] at h
    dsimp only
    rw [handleNothingToShowOutput]
    split
    · exact startBusyCandidateTimer_phase now h rfl
    · dsimp only
      split
      · exact enterMightBeBusy_phase now _
      · exact h
  | MIGHT_BE_BUSY =>
    exact enterBusy_phase now rfl
  | BUSY =>
    rw [Phase, hstatus] at h
    exact ⟨h.1, h.2.1, h.2.2.1, now, rfl, rfl⟩
  | MIGHT_NEED_ATTENTION =>
    exact enterBusy_phase now rfl

theorem reset_phase {d : QuiesceDetector} (h : d.Phase) : d.reset.Phase := by
  rw [reset]
  split
  · exact h
  · exact ⟨rfl, rfl, rfl⟩

theorem busyCandidateFires_phase (now : Ms) {d : QuiesceDetector} (h : d.Phase) :
    (d.busyCandidateFires now).Phase := by
  rw [busyCandidateFires]
  split
  · exact enterMightBeBusy_phase now _
  rw [Phase] at h ⊢
  cases hstatus : d.status with
  | NOTHING_TO_SHOW => rwa [hstatus] at h
  | MIGHT_BE_BUSY =>
    rw [hstatus] at h
    exact ⟨rfl, h.2⟩
  | BUSY =>
    rw [hstatus] at h
    exact ⟨rfl, h.2⟩
  | MIGHT_NEED_ATTENTION =>
    rw [hstatus] at h
    exact ⟨rfl, h.2⟩

theorem busyConfirmFires_phase (now : Ms) {d : QuiesceDetector} (h : d.Phase)
    (hdue : d.busyConfirmTimer.isSome = true) : (d.busyConfirmFires now).Phase := by
  rw [Phase] at h
  -- only MIGHT_BE_BUSY arms the timer
  have hstatus : d.status = .MIGHT_BE_BUSY := by
    cases hstatus : d.status with
    | MIGHT_BE_BUSY => rfl
    | NOTHING_TO_SHOW =>
      rw [hstatus] at h
      rw [h.1] at hdue
      cases hdue
    | BUSY =>
      rw [hstatus] at h
      rw [h.2.1] at hdue
      cases hdue
    | MIGHT_NEED_ATTENTION =>
      rw [hstatus] at h
      rw [h.2.1] at hdue
      cases hdue
  rw [hstatus] at h
  rw [busyConfirmFires]
  rw [if_neg (not_not.2 hstatus), seedFromLatestOutput]
  split
  · exact ⟨rfl, h.2.2.1, h.2.2.2⟩
  have harmed : ∀ d' : QuiesceDetector, d'.busyConfirmTimer = none →
      d'.mightNeedAttentionTimer = none → d'.settledConfirmTimer = none →
      ((d'.startBusyCandidateTimer now).setStatus .NOTHING_TO_SHOW).Phase := by
    intro d' h₁ h₂ h₃
    rw [startBusyCandidateTimer]
    split <;> exact ⟨h₁, h₂, h₃⟩
  exact harmed _ rfl h.2.2.1 h.2.2.2

theorem mightNeedAttentionFires_phase {now : Ms} {d : QuiesceDetector} (h : d.Phase)
    (hdue : d.mightNeedAttentionTimer = some now) : (d.mightNeedAttentionFires now).Phase := by
  rw [Phase] at h
  have hstatus : d.status = .BUSY := by
    cases hstatus : d.status with
    | BUSY => rfl
    | NOTHING_TO_SHOW =>
      rw [hstatus] at h
      cases h.2.1.symm.trans hdue
    | MIGHT_BE_BUSY =>
      rw [hstatus] at h
      cases h.2.2.1.symm.trans hdue
    | MIGHT_NEED_ATTENTION =>
      rw [hstatus] at h
      cases h.2.2.1.symm.trans hdue
  rw [hstatus] at h
  obtain ⟨h₁, h₂, h₃, accepted, haccepted, hat⟩ := h
  obtain rfl := Option.some.inj (hat.symm.trans hdue)
  rw [mightNeedAttentionFires]
  rw [if_neg (not_not.2 hstatus)]
  refine ⟨h₁, h₂, rfl, accepted, haccepted, ?_⟩
  show some (accepted + T_MIGHT_NEED_ATTENTION + T_SETTLED_CONFIRM) = _
  rw [QUIESCE_AFTER_OUTPUT_MS, add_assoc]

/-- Only MIGHT_NEED_ATTENTION arms the settle timer. -/
theorem Phase.settle {now : Ms} {d : QuiesceDetector} (h : d.Phase)
    (hdue : d.settledConfirmTimer = some now) : d.status = .MIGHT_NEED_ATTENTION := by
  rw [Phase] at h
  cases hstatus : d.status with
  | MIGHT_NEED_ATTENTION => rfl
  | NOTHING_TO_SHOW =>
    rw [hstatus] at h
    cases h.2.2.symm.trans hdue
  | MIGHT_BE_BUSY =>
    rw [hstatus] at h
    cases h.2.2.2.symm.trans hdue
  | BUSY =>
    rw [hstatus] at h
    cases h.2.2.1.symm.trans hdue

theorem settle_phase {now : Ms} {d : QuiesceDetector} (h : d.Phase)
    (hdue : d.settledConfirmTimer = some now) (ownerResets : Bool) :
    (d.timerFires now .settledConfirm ownerResets).Phase := by
  have hstatus := h.settle hdue
  rw [Phase, hstatus] at h
  have hstarts : d.settleStarts = ({ d with settledConfirmTimer := none }).resetOutputTracking := by
    rw [settleStarts]
    rw [if_neg (not_not.2 hstatus)]
  have hsettles : d.settles = true := decide_eq_true hstatus
  rw [timerFires, if_pos hsettles, hstarts]
  split
  · rw [reset]
    split
    · exact ⟨h.2.1, h.2.2.1, rfl⟩
    · exact ⟨rfl, rfl, rfl⟩
  · exact ⟨h.2.1, h.2.2.1, rfl⟩

/-! ### Outputs that count -/

theorem onData_rest (now : Ms) (d : QuiesceDetector) :
    (d.onData now).resizeTimer = d.resizeTimer ∧ (d.onData now).resizeGrace = d.resizeGrace ∧
      (d.onData now).lastAcceptedOutputAt =
        if d.disposed ∨ d.resizeGrace then d.lastAcceptedOutputAt else some now := by
  rw [onData]
  split
  · exact ⟨rfl, rfl, rfl⟩
  dsimp only
  split
  · rw [handleNothingToShowOutput]
    split
    · rw [startBusyCandidateTimer]
      split <;> exact ⟨rfl, rfl, rfl⟩
    · dsimp only
      split <;> exact ⟨rfl, rfl, rfl⟩
  · exact ⟨rfl, rfl, rfl⟩
  · exact ⟨rfl, rfl, rfl⟩
  · exact ⟨rfl, rfl, rfl⟩

theorem reset_rest (d : QuiesceDetector) :
    d.reset.resizeTimer = d.resizeTimer ∧ d.reset.resizeGrace = d.resizeGrace ∧
      d.reset.lastAcceptedOutputAt = d.lastAcceptedOutputAt := by
  rw [reset]
  split <;> exact ⟨rfl, rfl, rfl⟩

theorem settleStarts_rest (d : QuiesceDetector) :
    d.settleStarts.resizeTimer = d.resizeTimer ∧ d.settleStarts.resizeGrace = d.resizeGrace ∧
      d.settleStarts.lastAcceptedOutputAt = d.lastAcceptedOutputAt := by
  rw [settleStarts]
  split <;> exact ⟨rfl, rfl, rfl⟩

theorem timerFires_rest (now : Ms) {timer : DetectorTimer} (htimer : timer ≠ .resize)
    (ownerResets : Bool) (d : QuiesceDetector) :
    (d.timerFires now timer ownerResets).resizeTimer = d.resizeTimer ∧
      (d.timerFires now timer ownerResets).resizeGrace = d.resizeGrace ∧
      (d.timerFires now timer ownerResets).lastAcceptedOutputAt = d.lastAcceptedOutputAt := by
  cases timer with
  | resize => exact absurd rfl htimer
  | busyCandidate =>
    rw [timerFires, busyCandidateFires]
    split <;> exact ⟨rfl, rfl, rfl⟩
  | busyConfirm =>
    rw [timerFires, busyConfirmFires]
    split
    · exact ⟨rfl, rfl, rfl⟩
    · rw [seedFromLatestOutput]
      split
      · exact ⟨rfl, rfl, rfl⟩
      · rw [startBusyCandidateTimer]
        split <;> exact ⟨rfl, rfl, rfl⟩
  | mightNeedAttention =>
    rw [timerFires, mightNeedAttentionFires]
    split <;> exact ⟨rfl, rfl, rfl⟩
  | settledConfirm =>
    have hstarts := settleStarts_rest d
    rw [timerFires]
    split
    · split
      · obtain ⟨h₁, h₂, h₃⟩ := reset_rest d.settleStarts
        exact ⟨h₁.trans hstarts.1, h₂.trans hstarts.2.1, h₃.trans hstarts.2.2⟩
      · exact hstarts
    · exact hstarts

/-! ### BUSY comes before a settle -/

theorem onData_status (now : Ms) {d : QuiesceDetector}
    (h : (d.onData now).status = .MIGHT_NEED_ATTENTION) : d.status = .MIGHT_NEED_ATTENTION := by
  rw [onData] at h
  split at h
  · exact h
  dsimp only at h
  split at h
  · rename_i hstatus
    rw [handleNothingToShowOutput] at h
    split at h
    · rw [startBusyCandidateTimer] at h
      split at h <;> exact absurd (hstatus.symm.trans h) (by decide)
    · dsimp only at h
      split at h
      · cases h
      · exact absurd (hstatus.symm.trans h) (by decide)
  · cases h
  · rename_i hstatus
    exact absurd (hstatus.symm.trans h) (by decide)
  · assumption

/-- MIGHT_NEED_ATTENTION comes out of BUSY, and out of no reset and no settle. -/
theorem after_mightNeedAttention {now : Ms} {d : QuiesceDetector} {event : DetectorEvent}
    (hlive : d.disposed = false)
    (h : (d.after now event).status = .MIGHT_NEED_ATTENTION) :
    event ≠ .reset ∧ d.isSettle event = false ∧ d.isConfirmedBusy = true := by
  have hbusy : ∀ status, d.status = status → status = .BUSY ∨ status = .MIGHT_NEED_ATTENTION →
      d.isConfirmedBusy = true := by
    rintro status rfl hstatus
    exact decide_eq_true hstatus
  cases event with
  | output =>
    exact ⟨by simp, rfl, hbusy _ (onData_status now h) (.inr rfl)⟩
  | reset =>
    have hreset : d.reset.status = .NOTHING_TO_SHOW := by
      rw [reset, hlive]
      rfl
    exact absurd (hreset.symm.trans h) (by decide)
  | resize =>
    have hresize : (d.onResize now).status = d.status := by
      rw [onResize]
      split <;> rfl
    exact ⟨by simp, rfl, hbusy _ (hresize.symm.trans h) (.inr rfl)⟩
  | later instant => exact ⟨by simp, rfl, hbusy _ h (.inr rfl)⟩
  | fires timer ownerResets =>
    refine ⟨by simp, ?_⟩
    cases timer with
    | resize => exact ⟨rfl, hbusy _ h (.inr rfl)⟩
    | busyCandidate =>
      refine ⟨rfl, hbusy .MIGHT_NEED_ATTENTION ?_ (.inr rfl)⟩
      have hfires : (d.busyCandidateFires now).status = .MIGHT_NEED_ATTENTION := h
      rw [busyCandidateFires] at hfires
      split at hfires
      · cases hfires
      · exact hfires
    | busyConfirm =>
      refine ⟨rfl, hbusy .MIGHT_NEED_ATTENTION ?_ (.inr rfl)⟩
      have hfires : (d.busyConfirmFires now).status = .MIGHT_NEED_ATTENTION := h
      rw [busyConfirmFires] at hfires
      split at hfires
      · exact hfires
      · cases hfires
    | mightNeedAttention =>
      refine ⟨rfl, ?_⟩
      have hfires : (d.mightNeedAttentionFires now).status = .MIGHT_NEED_ATTENTION := h
      rw [mightNeedAttentionFires] at hfires
      split at hfires
      · exact hbusy _ hfires (.inr rfl)
      · rename_i hstatus
        exact hbusy _ (not_not.1 hstatus) (.inl rfl)
    | settledConfirm =>
      have hends : (d.timerFires now .settledConfirm ownerResets).status =
          .MIGHT_NEED_ATTENTION := h
      rw [timerFires] at hends
      split at hends
      · cases hends
      rename_i hsettles
      have hstarts : d.settleStarts.status = d.status := by
        rw [settleStarts]
        split <;> rfl
      exact absurd (decide_eq_true (hstarts.symm.trans hends)) hsettles

/-! ### Every run -/

theorem Watched.Sound.next {s : Watched} (h : s.Sound) {event : DetectorEvent}
    (hallows : s.Allows event) : (s.next event).Sound := by
  have hframe := after_frame s.now s.detector event
  refine ⟨?_, hframe.disposed.trans h.live, ?_, ?_, ?_, ?_⟩
  · show (s.detector.after s.now event).Phase
    cases event with
    | output => exact onData_phase s.now h.phase
    | reset => exact reset_phase h.phase
    | resize =>
      rw [after, onResize]
      split <;> exact h.phase
    | later instant => exact h.phase
    | fires timer ownerResets =>
      have hdue : s.detector.due timer = some s.now := hallows
      cases timer with
      | busyCandidate => exact busyCandidateFires_phase s.now h.phase
      | busyConfirm =>
        exact busyConfirmFires_phase s.now h.phase (Option.isSome_iff_exists.2 ⟨s.now, hdue⟩)
      | mightNeedAttention => exact mightNeedAttentionFires_phase h.phase hdue
      | resize => exact h.phase
      | settledConfirm => exact settle_phase h.phase hdue ownerResets
  · show (s.detector.after s.now event).resizeTimer.isSome =
      (s.detector.after s.now event).resizeGrace
    cases event with
    | output =>
      obtain ⟨h₁, h₂, -⟩ := onData_rest s.now s.detector
      rw [after, h₁, h₂, h.resize]
    | reset =>
      obtain ⟨h₁, h₂, -⟩ := reset_rest s.detector
      rw [after, h₁, h₂, h.resize]
    | resize =>
      rw [after, onResize, h.live]
      rfl
    | later instant => exact h.resize
    | fires timer ownerResets =>
      by_cases htimer : timer = .resize
      · rw [htimer]
        rfl
      · obtain ⟨h₁, h₂, -⟩ := timerFires_rest s.now htimer ownerResets s.detector
        rw [after, h₁, h₂, h.resize]
  · show (s.detector.after s.now event).lastAcceptedOutputAt = (s.next event).acceptedAt
    cases event with
    | output =>
      rw [after, (onData_rest s.now s.detector).2.2, h.live, h.accepted]
      show (if false = true ∨ _ then _ else _) = if _ then _ else _
      simp only [Bool.false_eq_true, false_or]
    | reset => exact (reset_rest s.detector).2.2.trans h.accepted
    | resize =>
      rw [after, onResize]
      split <;> exact h.accepted
    | later instant => exact h.accepted
    | fires timer ownerResets =>
      by_cases htimer : timer = .resize
      · rw [htimer]
        exact h.accepted
      · exact (timerFires_rest s.now htimer ownerResets s.detector).2.2.trans h.accepted
  · intro hbusy
    show (if (s.detector.after s.now event).status = .BUSY then true else _) = true
    split
    · rfl
    rename_i hnot
    have hstatus : (s.detector.after s.now event).status = .MIGHT_NEED_ATTENTION :=
      (of_decide_eq_true hbusy).resolve_left hnot
    obtain ⟨hreset, hsettle, hold⟩ := after_mightNeedAttention h.live hstatus
    rw [if_neg (by rw [hsettle]; simp [hreset])]
    exact h.busy hold
  · intro timer due hdue
    cases event with
    | later instant => exact hallows.2 timer due hdue
    | _ => exact (hframe.due timer due hdue).elim (h.notOverdue timer due) fun hlater => hlater

theorem sound_inductive : watching.Inductive Watched.Sound := by
  refine ⟨?_, ?_⟩
  · intro s hs
    obtain ⟨hfresh, haccepted, -⟩ := hs
    refine ⟨?_, ?_, ?_, ?_, ?_, ?_⟩
    · rw [hfresh]
      exact ⟨rfl, rfl, rfl⟩
    · rw [hfresh]
      rfl
    · rw [hfresh]
      rfl
    · rw [hfresh, haccepted]
      rfl
    · rw [hfresh]
      intro hbusy
      cases hbusy
    · rw [hfresh]
      intro timer due hdue
      cases timer <;> cases hdue
  · intro s t event hs hstep
    obtain ⟨hallows, rfl⟩ := hstep
    exact hs.next hallows

theorem quiesce_after_output : QUIESCE_AFTER_OUTPUT_MS = 5000 := by decide +kernel

/-- **The phases of a detector.** In BUSY the timer to MIGHT_NEED_ATTENTION is armed and of
the others at most the debounce of a resize; MIGHT_NEED_ATTENTION and MIGHT_BE_BUSY have
theirs armed, and no timer is ever overdue. A settle comes only after BUSY was reached since
the last reset or settle, at the end of the silence behind the last output that was accepted,
and that is `quietAt`. -/
theorem quiesce_detector_sound (s : Watched) (h : watching.Reachable s) :
    (s.detector.status = .BUSY →
      s.detector.mightNeedAttentionTimer.isSome = true ∧
        ∀ timer, s.detector.due timer ≠ none → timer = .mightNeedAttention ∨
          (timer = .resize ∧ s.detector.resizeGrace = true)) ∧
      (s.detector.status = .MIGHT_NEED_ATTENTION → s.detector.settledConfirmTimer.isSome = true) ∧
      (s.detector.status = .MIGHT_BE_BUSY → s.detector.busyConfirmTimer.isSome = true) ∧
      (∀ timer due, s.detector.due timer = some due → s.now ≤ due) ∧
      ∀ event, s.Allows event → s.detector.isSettle event = true →
        s.busyReached = true ∧ (s.next event).busyReached = false ∧
          s.detector.quietAt s.now = s.now ∧
          ∃ accepted, s.acceptedAt = some accepted ∧ s.now = accepted + 5000 := by
  have hsound := sound_inductive.reachable h
  have hphase := hsound.phase
  rw [Phase] at hphase
  refine ⟨fun hstatus => ?_, fun hstatus => ?_, fun hstatus => ?_, hsound.notOverdue,
    fun event hallows hsettle => ?_⟩
  · rw [hstatus] at hphase
    obtain ⟨h₁, h₂, h₃, accepted, -, harmed⟩ := hphase
    refine ⟨by rw [harmed]; rfl, fun timer htimer => ?_⟩
    cases timer with
    | mightNeedAttention => exact .inl rfl
    | resize =>
      refine .inr ⟨rfl, ?_⟩
      rw [← hsound.resize]
      exact Option.isSome_iff_ne_none.2 htimer
    | busyCandidate => exact absurd h₁ htimer
    | busyConfirm => exact absurd h₂ htimer
    | settledConfirm => exact absurd h₃ htimer
  · rw [hstatus] at hphase
    obtain ⟨-, -, -, accepted, -, harmed⟩ := hphase
    rw [harmed]
    rfl
  · rw [hstatus] at hphase
    exact hphase.2.1
  · cases event with
    | fires timer ownerResets =>
      cases timer with
      | settledConfirm =>
        have hdue : s.detector.settledConfirmTimer = some s.now := hallows
        have hstatus := hsound.phase.settle hdue
        rw [hstatus] at hphase
        obtain ⟨-, -, -, accepted, haccepted, harmed⟩ := hphase
        have hnow : accepted + QUIESCE_AFTER_OUTPUT_MS = s.now :=
          Option.some.inj (harmed.symm.trans hdue)
        have hends : (s.detector.timerFires s.now .settledConfirm ownerResets).status =
            .NOTHING_TO_SHOW := by
          have hsettles : s.detector.settles = true := hsettle
          rw [timerFires, if_pos hsettles]
          rfl
        refine ⟨hsound.busy (decide_eq_true (.inr hstatus)), ?_, ?_, accepted, ?_, ?_⟩
        · show (if (s.detector.timerFires s.now .settledConfirm ownerResets).status = .BUSY
            then true else _) = false
          rw [hends, if_neg (by decide), if_pos (.inr hsettle)]
        · rw [quietAt, haccepted]
          exact hnow
        · rw [← hsound.accepted, haccepted]
        · rw [← hnow, quiesce_after_output]
      | _ => cases hsettle
    | _ => cases hsettle

/-! ### A busy period -/

def allTimers : List DetectorTimer :=
  [.busyCandidate, .busyConfirm, .mightNeedAttention, .settledConfirm, .resize]

theorem mem_allTimers (timer : DetectorTimer) : timer ∈ allTimers := by
  cases timer <;> decide

instance (s : Watched) : DecidablePred s.Allows
  | .output | .reset | .resize => .isTrue trivial
  | .fires timer _ => decEq (s.detector.due timer) (some s.now)
  | .later instant =>
    decidable_of_iff
      (s.now ≤ instant ∧ ∀ timer ∈ allTimers, ∀ due ∈ s.detector.due timer, instant ≤ due)
      ⟨fun h => ⟨h.1, fun timer => h.2 timer (mem_allTimers timer)⟩,
        fun h => ⟨h.1, fun timer _ => h.2 timer⟩⟩

/-- The state a detector comes to, from a clock at zero. -/
def watchAll (events : List DetectorEvent) : Watched :=
  events.foldl Watched.next ⟨.fresh, 0, none, false⟩

/-- Every event is allowed when its turn comes. -/
def AllAllowed : Watched → List DetectorEvent → Prop
  | _, [] => True
  | s, event :: events => s.Allows event ∧ AllAllowed (s.next event) events

instance : (s : Watched) → (events : List DetectorEvent) → Decidable (AllAllowed s events)
  | _, [] => .isTrue trivial
  | s, event :: events =>
    have : Decidable (AllAllowed (s.next event) events) := instDecidableAllAllowed _ events
    inferInstanceAs (Decidable (s.Allows event ∧ AllAllowed (s.next event) events))

theorem reachable_watchAll {events : List DetectorEvent}
    (h : AllAllowed ⟨.fresh, 0, none, false⟩ events) : watching.Reachable (watchAll events) := by
  have hfold : ∀ s, watching.Reachable s → AllAllowed s events →
      watching.Reachable (events.foldl Watched.next s) := by
    clear h
    induction events with
    | nil => exact fun _ hs _ => hs
    | cons event events ih => exact fun s hs h => ih _ (hs.next ⟨h.1, rfl⟩) h.2
  exact hfold _ (.start ⟨rfl, rfl, rfl⟩) h

/-- Output goes on for two seconds and stops. -/
def burst : List DetectorEvent :=
  [.output, .later 1000, .output, .later 1500, .fires .busyCandidate false, .later 1800, .output,
    .later 3800, .fires .mightNeedAttention false, .later 6800]

theorem quiesce_detector_sound_burst :
    (watchAll burst).busyReached = true ∧
      ((watchAll burst).next (.fires .settledConfirm true)).busyReached = false ∧
      (watchAll burst).detector.quietAt (watchAll burst).now = (watchAll burst).now ∧
      ∃ accepted, (watchAll burst).acceptedAt = some accepted ∧
        (watchAll burst).now = accepted + 5000 :=
  (quiesce_detector_sound (watchAll burst) (reachable_watchAll (by decide +kernel))).2.2.2.2
    (.fires .settledConfirm true) (by decide +kernel) (by decide +kernel)

end QuiesceDetector

end Dormouse.Alert
