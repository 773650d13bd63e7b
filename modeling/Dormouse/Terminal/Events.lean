import Mathlib.Data.Rat.Defs
import Dormouse.Lib.JsString

/-!
# Dormouse.Terminal.Events

What the terminal protocol parser reports, and what the terminal state and the alert
manager consume: semantic events, notifications and progress.
-/

namespace Dormouse.Terminal

/-- A time or a duration in milliseconds. -/
abbrev Ms := ℚ

/-! ### Working directories and titles -/

inductive CwdSource
  | osc7
  | osc9_9
  | osc633
  | osc1337
  | process
  | manual
  deriving DecidableEq

inductive PathKind
  | posix
  | windows
  | unknown
  deriving DecidableEq

/-- `fileScheme` is the source's `scheme?: 'file'`. -/
structure CwdState where
  uri : Option JsString
  path : JsString
  host : Option JsString
  fileScheme : Bool
  pathKind : PathKind
  isRemote : Bool
  source : CwdSource
  updatedAt : Ms
  deriving DecidableEq

inductive TerminalTitleSource
  | osc0
  | osc2
  | osc9
  | osc99
  | osc777
  | user
  deriving DecidableEq

structure TerminalTitle where
  title : JsString
  source : TerminalTitleSource
  updatedAt : Ms
  deriving DecidableEq

/-! ### Semantic events -/

inductive CommandRunSource
  | osc633_E
  | osc633_boundaries
  | osc133_boundaries
  | user_input
  deriving DecidableEq

inductive TerminalSemanticEvent
  | cwd (cwd : CwdState)
  | promptStart
  | promptEnd
  | commandLine (commandLine : JsString)
  | commandStart (source : Option CommandRunSource) (startedAt : Option Ms)
  | commandFinish (exitCode : Option Int) (finishedAt : Option Ms)
  | title (title : TerminalTitle)
  deriving DecidableEq

/-! ### Notifications and progress -/

inductive ActivityNotificationSource
  | OSC_9
  | OSC_9_4
  | OSC_99
  | OSC_777
  | BEL
  | COMMAND_EXIT
  deriving DecidableEq

structure ActivityNotification where
  source : ActivityNotificationSource
  title : Option JsString
  body : Option JsString
  deriving DecidableEq

inductive ProtocolProgressState
  | clear
  | normal
  | warning
  | indeterminate
  | error
  deriving DecidableEq

structure ProtocolProgressUpdate where
  state : ProtocolProgressState
  percent : Option ℚ
  deriving DecidableEq

end Dormouse.Terminal
