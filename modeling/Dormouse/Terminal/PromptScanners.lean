import Dormouse.Lib.JsString

/-!
# Dormouse.Terminal.PromptScanners

The **scanners of the keystroke fallback**: `PromptAltScreenFilter` of `terminal-state-store.ts`, which
takes alternate-screen output out of a prompt's text, and `detectPromptSubmit` of
`terminal-command-input.ts`, which tells an Enter from a pasted line break.
-/

namespace Dormouse.Terminal

/-! ### The alternate screen -/

inductive AltScanState
  | ground
  | escape
  | csiStart
  | parameters
  | ignore
  deriving DecidableEq

structure PromptAltScreenFilter where
  inAlt : Bool
  state : AltScanState
  parameter : Nat
  hasAltParameter : Bool

/-- `new PromptAltScreenFilter()`. -/
def PromptAltScreenFilter.initial : PromptAltScreenFilter := ⟨false, .ground, 0, false⟩

/-- The modes that show the alternate screen. -/
def isAltMode (parameter : Nat) : Bool := parameter = 47 || parameter = 1047 || parameter = 1049

/-- `ALT_GROUND_SCAN`: what begins a control. -/
def isIntroducer (code : UInt16) : Bool := code = 0x1b || code = 0x9b

namespace PromptAltScreenFilter

/-- One unit outside the ground jump: the filter behind it, and whether a screen switch ends here. -/
def read (f : PromptAltScreenFilter) (code : UInt16) : PromptAltScreenFilter × Bool :=
  if code = 0x1b then ({ f with state := .escape }, false)
  else if code = 0x9b ∨ (f.state = .escape ∧ code = 0x5b) then
    ({ f with state := .csiStart, parameter := 0, hasAltParameter := false }, false)
  else if f.state = .csiStart ∧ code = 0x3f then ({ f with state := .parameters }, false)
  else if f.state = .parameters ∧ 0x30 ≤ code ∧ code ≤ 0x39 then
    ({ f with parameter := min 1050 (f.parameter * 10 + (code.toNat - 0x30)) }, false)
  else if f.state = .parameters ∧ (code = 0x3b ∨ code = 0x68 ∨ code = 0x6c) then
    let hasAltParameter := f.hasAltParameter || isAltMode f.parameter
    if code ≠ 0x3b then
      ({ inAlt := if hasAltParameter then code = 0x68 else f.inAlt, state := .ground, parameter := 0,
         hasAltParameter := hasAltParameter }, hasAltParameter)
    else ({ f with hasAltParameter := hasAltParameter, parameter := 0 }, false)
  else if f.state = .escape ∧ code = 0x63 then ({ f with inAlt := false, state := .ground }, true)
  else if f.state = .escape ∨ (0x40 ≤ code ∧ code ≤ 0x7e) ∨ code = 0x18 ∨ code = 0x1a then
    ({ f with state := .ground }, false)
  else ({ f with state := .ignore }, false)

/-- `input.slice(runStart, cursor)` of a run that was begun. -/
def runText (input : JsString) (runStart : Option Nat) (cursor : Nat) : JsString :=
  match runStart with
  | none => []
  | some start => (input.drop start).take (cursor - start)

/-- The loop. A round takes one unit at least, so the units that are left bound it. -/
def loop (input : JsString) : Nat → PromptAltScreenFilter → Nat → Option Nat → JsString →
    PromptAltScreenFilter × JsString
  | 0, f, _, runStart, output => (f, output ++ runText input runStart input.length)
  | rounds + 1, f, start, begun, output =>
    if start < input.length then
      let ground := f.state = .ground
      let runStart := if ground ∧ !f.inAlt ∧ begun = none then some start else begun
      let cursor := if ground then
          start + ((input.drop start).takeWhile fun c => !isIntroducer c).length
        else start
      if ground ∧ cursor = input.length then (f, output ++ runText input runStart input.length)
      else
        let code := input.getD cursor 0
        let output := if f.inAlt then output ++ runText input runStart cursor else output
        let runStart := if f.inAlt then none else some (runStart.getD cursor)
        let next := f.read code
        if next.2 then
          loop input rounds next.1 (cursor + 1) none
            (output ++ runText input runStart (cursor + 1) ++ js "\n")
        else loop input rounds next.1 (cursor + 1) runStart output
    else (f, output ++ runText input begun input.length)

def process (f : PromptAltScreenFilter) (input : JsString) : PromptAltScreenFilter × JsString :=
  loop input input.length f 0 none []

/-- A stream in chunks, and all that is put out for it. -/
def processChunks (f : PromptAltScreenFilter) : List JsString → PromptAltScreenFilter × JsString
  | [] => (f, [])
  | chunk :: chunks =>
    let first := f.process chunk
    let later := processChunks first.1 chunks
    (later.1, first.2 ++ later.2)

end PromptAltScreenFilter

/-! ### Submits -/

structure PromptSubmitState where
  inPaste : Bool
  pendingMarker : Option JsString

structure PromptSubmitResult where
  state : PromptSubmitState
  submitted : Bool

def BRACKETED_PASTE_START : JsString := js "\x1b[200~"

def BRACKETED_PASTE_END : JsString := js "\x1b[201~"

def createPromptSubmitState : PromptSubmitState := ⟨false, none⟩

/-- `'\r'` and `'\n'`. -/
def isLineBreak (c : UInt16) : Bool := c = 0x0d || c = 0x0a

/-- The loop, at a position that is `skip` units away from the next one it looks at. -/
def detectFrom : Nat → JsString → Bool → Bool → PromptSubmitResult
  | _, [], inPaste, submitted => ⟨⟨inPaste, none⟩, submitted⟩
  | skip + 1, _ :: rest, inPaste, submitted => detectFrom skip rest inPaste submitted
  | 0, c :: rest, inPaste, submitted =>
    if BRACKETED_PASTE_START.isPrefixOf (c :: rest) then
      detectFrom (BRACKETED_PASTE_START.length - 1) rest true submitted
    else if BRACKETED_PASTE_END.isPrefixOf (c :: rest) then
      detectFrom (BRACKETED_PASTE_END.length - 1) rest false submitted
    else if (c :: rest).isPrefixOf BRACKETED_PASTE_START ∨
        (c :: rest).isPrefixOf BRACKETED_PASTE_END then
      ⟨⟨inPaste, some (c :: rest)⟩, submitted⟩
    else detectFrom 0 rest inPaste (submitted || (!inPaste && isLineBreak c))

def detectPromptSubmit (current : PromptSubmitState) (input : JsString) : PromptSubmitResult :=
  detectFrom 0 (current.pendingMarker.getD [] ++ input) current.inPaste false

/-- A stream in chunks: the state behind it, and whether some chunk was a submit. -/
def detectChunks (current : PromptSubmitState) : List JsString → PromptSubmitResult
  | [] => ⟨current, false⟩
  | chunk :: chunks =>
    let first := detectPromptSubmit current chunk
    let later := detectChunks first.state chunks
    ⟨later.state, first.submitted || later.submitted⟩

end Dormouse.Terminal
