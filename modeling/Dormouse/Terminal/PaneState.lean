import Dormouse.Lib.InsertionMap
import Dormouse.Terminal.CommandLine

/-!
# Dormouse.Terminal.PaneState

The **terminal state of a pane** (`lib/src/lib/terminal-state.ts`): the reducer over semantic
events that the header, the bell and the alert dialog read.
-/

namespace Dormouse.Terminal

inductive ShellActivity
  | unknown
  | prompt
  | editing
  | running
  | finished (exitCode : Option Int)
  deriving DecidableEq

structure CommandRun where
  id : JsString
  rawCommandLine : Option JsString
  displayCommand : JsString
  cwdAtStart : Option CwdState
  startedAt : Ms
  finishedAt : Option Ms
  exitCode : Option Int
  source : CommandRunSource
  finalTerminalTitle : Option TerminalTitle

structure TerminalPaneState where
  cwd : Option CwdState
  activity : ShellActivity
  pendingCommandLine : Option JsString
  currentCommand : Option CommandRun
  lastCommand : Option CommandRun
  title : Option TerminalTitle
  titleCandidates : InsertionMap TerminalTitleSource TerminalTitle

def DEFAULT_TERMINAL_PANE_STATE : TerminalPaneState where
  cwd := none
  activity := .unknown
  pendingCommandLine := none
  currentCommand := none
  lastCommand := none
  title := none
  titleCandidates := .empty

/-! ### Working directories -/

def pathKindText : PathKind → JsString
  | .posix => js "posix"
  | .windows => js "windows"
  | .unknown => js "unknown"

def cwdIdentity (cwd : CwdState) : JsString :=
  (if cwd.fileScheme then js "file" else js "path") ++ js "|" ++ cwd.host.getD [] ++ js "|" ++
    pathKindText cwd.pathKind ++ js "|" ++ cwd.path

def sameCwd (a b : CwdState) : Bool := cwdIdentity a = cwdIdentity b ∧ a.source = b.source

/-! ### Titles -/

/-- The titles that a program sends. -/
def HEADER_APP_TITLE_SOURCES : List TerminalTitleSource := [.osc0, .osc2, .osc9]

/-- The newest title, of equally new ones the first. -/
def newestTitle (titles : List TerminalTitle) : Option TerminalTitle :=
  titles.foldl (fun best candidate =>
    match best with
    | none => some candidate
    | some title => if title.updatedAt < candidate.updatedAt then some candidate else best) none

def latestTerminalTitleCandidate (state : TerminalPaneState) : Option TerminalTitle :=
  newestTitle (state.titleCandidates.values.filter (·.source ∈ HEADER_APP_TITLE_SOURCES))

def deriveFallbackCommandTitle (state : TerminalPaneState) : JsString :=
  match latestTerminalTitleCandidate state with
  | some title =>
    if JsString.trim title.title = [] then DEFAULT_COMMAND_TITLE else JsString.trim title.title
  | none => DEFAULT_COMMAND_TITLE

/-- The newest title that a program sent while the command ran. -/
def snapshotInRunTerminalTitle (state : TerminalPaneState) (command : CommandRun)
    (finishedAt : Ms) : Option TerminalTitle :=
  newestTitle ((HEADER_APP_TITLE_SOURCES.filterMap state.titleCandidates.get).filter fun title =>
    command.startedAt ≤ title.updatedAt ∧ title.updatedAt ≤ finishedAt)

/-! ### The reducer -/

/-- `reduceTerminalState` at a time, with the id a command that it starts gets. -/
def reduceTerminalState (now : Ms) (createId : JsString) (state : TerminalPaneState) :
    TerminalSemanticEvent → TerminalPaneState
  | .cwd cwd =>
    if state.cwd.any fun current => sameCwd current cwd then state
    else { state with cwd := some cwd }
  | .promptStart =>
    { state with activity := .prompt, currentCommand := none, pendingCommandLine := none }
  | .promptEnd =>
    { state with activity := .editing, currentCommand := none, pendingCommandLine := none }
  | .commandLine commandLine => { state with pendingCommandLine := some commandLine }
  | .commandStart source startedAt =>
    let resolved := resolveCommandStart state.pendingCommandLine source startedAt now
      (deriveFallbackCommandTitle state)
    { state with
      currentCommand := some
        { id := createId
          rawCommandLine := resolved.rawCommandLine
          displayCommand := resolved.displayCommand
          cwdAtStart := state.cwd
          startedAt := resolved.startedAt
          finishedAt := none
          exitCode := none
          source := resolved.source
          finalTerminalTitle := none }
      activity := .running
      pendingCommandLine := none }
  | .commandFinish exitCode finishedAt =>
    match state.currentCommand with
    | none => { state with activity := .finished exitCode }
    | some command =>
      let finishedAt := finishedAt.getD now
      { state with
        currentCommand := none
        lastCommand := some { command with
          finishedAt := some finishedAt
          exitCode := exitCode
          finalTerminalTitle := snapshotInRunTerminalTitle state command finishedAt }
        activity := .finished exitCode }
  | .title title =>
    { state with
      title := some title
      titleCandidates := state.titleCandidates.set title.source title }

/-- The name of the foreground command: the key of the rule that the bell edits. -/
def getRunningCommandArgv0 (state : TerminalPaneState) : Option JsString :=
  match state.currentCommand.bind (·.rawCommandLine) with
  | some raw => if raw = [] then none else commandArgv0 raw
  | none => none

/-- The parser's time for an event that carries one. -/
def timestampSemanticEvent (timestamp : Ms) : TerminalSemanticEvent → TerminalSemanticEvent
  | .cwd cwd => .cwd { cwd with updatedAt := timestamp }
  | .commandStart source _ => .commandStart source (some timestamp)
  | .commandFinish exitCode _ => .commandFinish exitCode (some timestamp)
  | .title title => .title { title with updatedAt := timestamp }
  | event => event

end Dormouse.Terminal
