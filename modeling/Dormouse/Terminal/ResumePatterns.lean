import Dormouse.Terminal.Controls

/-!
# Dormouse.Terminal.ResumePatterns

The **resume commands** that agents print (`resume-patterns.ts`): how one is found in the
scrollback of a pane, and how a stored one is checked before it is run.
-/

namespace Dormouse.Terminal

open JsString

/-! ### Patterns -/

/-- `[A-Za-z0-9]`. -/
def isAlphanumeric (c : UInt16) : Bool := isUpper c || isLower c || isDigit c

/-- `[A-Za-z0-9_-]`. -/
def isResumeIdChar (c : UInt16) : Bool := isAlphanumeric c || c == unit '_' || c == unit '-'

/-- `\w`. -/
def isWordChar (c : UInt16) : Bool := isAlphanumeric c || c == unit '_'

/-- An invocation without its volatile session argument, and whether it takes one. -/
structure ResumePattern where
  label : JsString
  takesId : Bool
  deriving DecidableEq

namespace ResumePattern

def codexResume : ResumePattern := ⟨js "codex resume", true⟩

def claudeResume : ResumePattern := ⟨js "claude --resume", true⟩

def claudeContinue : ResumePattern := ⟨js "claude --continue", false⟩

/-- What stands in front of the identifier. -/
def opening (pattern : ResumePattern) : JsString :=
  if pattern.takesId then pattern.label ++ js " " else pattern.label

/-- The regular expression of the pattern, behind the character `last`: what it captures and how
much it matches. The identifier is greedy, so that the lookahead never cuts it short. -/
def matchAt (pattern : ResumePattern) (last : Option UInt16) (text : JsString) :
    Option (Option JsString × Nat) :=
  if last.any isWordChar ∨ ¬pattern.opening.isPrefixOf text then none
  else
    let rest := text.drop pattern.opening.length
    if pattern.takesId then
      if rest.head?.any isAlphanumeric then
        some (some (rest.takeWhile isResumeIdChar),
          pattern.opening.length + (rest.takeWhile isResumeIdChar).length)
      else none
    else if rest.head?.any isResumeIdChar then none
    else some (none, pattern.opening.length)

/-- The command is rebuilt, never sliced out of the text. -/
def command (pattern : ResumePattern) (id : Option JsString) : JsString :=
  match id with
  | some id => pattern.label ++ js " " ++ id
  | none => pattern.label

end ResumePattern

def BUILTIN_PATTERNS : List ResumePattern := [.codexResume, .claudeResume, .claudeContinue]

/-! ### Detection -/

def SCAN_LINES : Nat := 50

/-- The later of two matches; of two at one place, the one that was found last. -/
def keepLatest (latest : Option (Nat × JsString)) (found : Nat × JsString) : Option (Nat × JsString) :=
  match latest with
  | some kept => if kept.1 > found.1 then some kept else some found
  | none => some found

/-- The rightmost resume command of a text that is stripped already. -/
def resumeCommandInVisible (visible : JsString) : Option JsString :=
  (BUILTIN_PATTERNS.foldl (fun latest pattern =>
    (matchAll pattern.matchAt visible).foldl (fun latest found =>
      keepLatest latest (found.1, pattern.command found.2)) latest) none).map Prod.snd

/-- The canonical form of a resume command, if it is nothing else. -/
def normalizeResumeCommand (command : JsString) : Option JsString :=
  let visible := trim (stripTerminalControls command false)
  let detected := resumeCommandInVisible visible
  if detected = some visible then detected else none

/-- `scrollback.lastIndexOf('\n', cursor - 1) + 1`, for a cursor behind the start. -/
def lineStart (scrollback : JsString) (cursor : Nat) : Nat :=
  cursor - ((scrollback.take cursor).reverse.takeWhile (· ≠ unit '\n')).length

/-- The loop over the last lines. The cursor of a line that starts at 0 would be -1, which ends the
loop as 0 does. -/
def windowStartFrom (scrollback : JsString) : Nat → Nat → Nat → Nat
  | 0, _, windowStart => windowStart
  | lines + 1, cursor, windowStart =>
    if 0 < cursor then
      let windowStart := lineStart scrollback cursor
      windowStartFrom scrollback lines (windowStart - 1) windowStart
    else windowStart

/-- The rightmost resume command of the last lines. -/
def detectResumeCommand (scrollback : JsString) : Option JsString :=
  let windowStart := windowStartFrom scrollback SCAN_LINES scrollback.length 0
  resumeCommandInVisible (stripTerminalControls (scrollback.drop windowStart) true)

end Dormouse.Terminal
