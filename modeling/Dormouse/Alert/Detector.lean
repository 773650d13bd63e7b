import Dormouse.Terminal.CommandLine

/-!
# Dormouse.Alert.Detector

The **quiesce detector** (`quiesce-detector.ts`): output and silence of one Session.

A timer is the instant it is due. An operation changes the status at most once, and
last but for arming a timer, so the owner calls `onChange` by comparing the status
before and after. A settle calls `onSettled` half way: `settleStarts` and
`settleEnds` are its two halves.
-/

namespace Dormouse.Alert

open Terminal (Ms)

inductive QuiesceStatus
  | NOTHING_TO_SHOW
  | MIGHT_BE_BUSY
  | BUSY
  | MIGHT_NEED_ATTENTION
  deriving DecidableEq, Repr

def T_BUSY_CANDIDATE_GAP : Ms := 1500

def T_BUSY_CONFIRM_GAP : Ms := 500

def T_MIGHT_NEED_ATTENTION : Ms := 2000

def T_SETTLED_CONFIRM : Ms := 3000

def T_RESIZE_DEBOUNCE : Ms := 500

/-- Silence from the last accepted output through a confirmed settle. -/
def QUIESCE_AFTER_OUTPUT_MS : Ms := T_MIGHT_NEED_ATTENTION + T_SETTLED_CONFIRM

structure QuiesceDetector where
  status : QuiesceStatus
  resizeGrace : Bool
  busyCandidateTimer : Option Ms
  busyConfirmTimer : Option Ms
  mightNeedAttentionTimer : Option Ms
  settledConfirmTimer : Option Ms
  resizeTimer : Option Ms
  disposed : Bool
  firstOutputAt : Option Ms
  lastOutputAt : Option Ms
  lastAcceptedOutputAt : Option Ms
  outputCountSinceReset : Nat

namespace QuiesceDetector

def fresh : QuiesceDetector where
  status := .NOTHING_TO_SHOW
  resizeGrace := false
  busyCandidateTimer := none
  busyConfirmTimer := none
  mightNeedAttentionTimer := none
  settledConfirmTimer := none
  resizeTimer := none
  disposed := false
  firstOutputAt := none
  lastOutputAt := none
  lastAcceptedOutputAt := none
  outputCountSinceReset := 0

def isConfirmedBusy (d : QuiesceDetector) : Bool :=
  d.status = .BUSY ∨ d.status = .MIGHT_NEED_ATTENTION

/-- When the pane counts as quiet if nothing more arrives. -/
def quietAt (d : QuiesceDetector) (now : Ms) : Ms :=
  d.lastAcceptedOutputAt.getD now + QUIESCE_AFTER_OUTPUT_MS

def clearActivityTimers (d : QuiesceDetector) : QuiesceDetector :=
  { d with
    busyCandidateTimer := none
    busyConfirmTimer := none
    mightNeedAttentionTimer := none
    settledConfirmTimer := none }

def resetOutputTracking (d : QuiesceDetector) : QuiesceDetector :=
  { d with firstOutputAt := none, lastOutputAt := none, outputCountSinceReset := 0 }

def setStatus (status : QuiesceStatus) (d : QuiesceDetector) : QuiesceDetector :=
  { d with status := status }

def reset (d : QuiesceDetector) : QuiesceDetector :=
  if d.disposed then d else d.clearActivityTimers.resetOutputTracking.setStatus .NOTHING_TO_SHOW

def startBusyCandidateTimer (now : Ms) (d : QuiesceDetector) : QuiesceDetector :=
  if d.busyCandidateTimer ≠ none then d
  else { d with busyCandidateTimer := some (now + T_BUSY_CANDIDATE_GAP) }

def startMightNeedAttentionTimer (now : Ms) (d : QuiesceDetector) : QuiesceDetector :=
  { d with mightNeedAttentionTimer := some (now + T_MIGHT_NEED_ATTENTION) }

def startSettledConfirmTimer (now : Ms) (d : QuiesceDetector) : QuiesceDetector :=
  { d with settledConfirmTimer := some (now + T_SETTLED_CONFIRM) }

def enterMightBeBusy (now : Ms) (d : QuiesceDetector) : QuiesceDetector :=
  { d.clearActivityTimers.setStatus .MIGHT_BE_BUSY with
    busyConfirmTimer := some (now + T_BUSY_CONFIRM_GAP) }

def enterBusy (now : Ms) (d : QuiesceDetector) : QuiesceDetector :=
  (d.clearActivityTimers.resetOutputTracking.setStatus .BUSY).startMightNeedAttentionTimer now

def handleNothingToShowOutput (now : Ms) (d : QuiesceDetector) : QuiesceDetector :=
  match d.firstOutputAt with
  | none => { d with firstOutputAt := some now, outputCountSinceReset := 1 }.startBusyCandidateTimer now
  | some first =>
    let d := { d with outputCountSinceReset := d.outputCountSinceReset + 1 }
    if now - first ≥ T_BUSY_CANDIDATE_GAP then d.enterMightBeBusy now else d

def onData (now : Ms) (d : QuiesceDetector) : QuiesceDetector :=
  if d.disposed ∨ d.resizeGrace then d
  else
    let d := { d with lastOutputAt := some now, lastAcceptedOutputAt := some now }
    match d.status with
    | .NOTHING_TO_SHOW => d.handleNothingToShowOutput now
    | .MIGHT_BE_BUSY => d.enterBusy now
    | .BUSY => d.startMightNeedAttentionTimer now
    | .MIGHT_NEED_ATTENTION => d.enterBusy now

def onResize (now : Ms) (d : QuiesceDetector) : QuiesceDetector :=
  if d.disposed then d
  else { d with resizeGrace := true, resizeTimer := some (now + T_RESIZE_DEBOUNCE) }

def dispose (d : QuiesceDetector) : QuiesceDetector :=
  { d.clearActivityTimers with disposed := true, resizeTimer := none }

def seedFromLatestOutput (now : Ms) (d : QuiesceDetector) : QuiesceDetector :=
  match d.lastOutputAt with
  | none => d.resetOutputTracking
  | some last =>
    { d with firstOutputAt := some last, outputCountSinceReset := 1 }.startBusyCandidateTimer now

/-! ### Timers that fire -/

inductive DetectorTimer
  | busyCandidate
  | busyConfirm
  | mightNeedAttention
  | settledConfirm
  | resize
  deriving DecidableEq, Repr

/-- When a timer is due, if it is armed. -/
def due (d : QuiesceDetector) : DetectorTimer → Option Ms
  | .busyCandidate => d.busyCandidateTimer
  | .busyConfirm => d.busyConfirmTimer
  | .mightNeedAttention => d.mightNeedAttentionTimer
  | .settledConfirm => d.settledConfirmTimer
  | .resize => d.resizeTimer

def busyCandidateFires (now : Ms) (d : QuiesceDetector) : QuiesceDetector :=
  let d := { d with busyCandidateTimer := none }
  if d.status = .NOTHING_TO_SHOW ∧ 2 ≤ d.outputCountSinceReset then d.enterMightBeBusy now else d

def busyConfirmFires (now : Ms) (d : QuiesceDetector) : QuiesceDetector :=
  let d := { d with busyConfirmTimer := none }
  if d.status ≠ .MIGHT_BE_BUSY then d
  else (d.seedFromLatestOutput now).setStatus .NOTHING_TO_SHOW

def mightNeedAttentionFires (now : Ms) (d : QuiesceDetector) : QuiesceDetector :=
  let d := { d with mightNeedAttentionTimer := none }
  if d.status ≠ .BUSY then d
  else (d.setStatus .MIGHT_NEED_ATTENTION).startSettledConfirmTimer now

def resizeFires (d : QuiesceDetector) : QuiesceDetector :=
  { d with resizeGrace := false, resizeTimer := none }

/-- The settle timer fires, up to where `onSettled` is called; `settles` says whether it is. -/
def settleStarts (d : QuiesceDetector) : QuiesceDetector :=
  let d := { d with settledConfirmTimer := none }
  if d.status ≠ .MIGHT_NEED_ATTENTION then d else d.resetOutputTracking

def settles (d : QuiesceDetector) : Bool := d.status = .MIGHT_NEED_ATTENTION

def settleEnds (d : QuiesceDetector) : QuiesceDetector := d.setStatus .NOTHING_TO_SHOW

end QuiesceDetector

end Dormouse.Alert
