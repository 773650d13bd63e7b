import Dormouse.Lib.JsString
import Dormouse.Lib.Transducer

/-!
# Dormouse.Terminal.StringControl

**The string-control grammar** both scanners of PTY output share: what opens an OSC,
DCS, SOS, PM or APC string and what ends it. `TerminalControlStreamFilter` is the
scanner that only drops payload.

A scan with `lastIndex` splits the text it is given: what lies before the match, the
match, what lies behind it.
-/

namespace Dormouse.Terminal

def BEL : UInt16 := 0x07

def CAN : UInt16 := 0x18

def SUB : UInt16 := 0x1a

def ESC : UInt16 := 0x1b

/-- The C1 control sequence introducer. -/
def CSI : UInt16 := 0x9b

/-- The C1 string terminator. -/
def ST : UInt16 := 0x9c

/-! ### Introducers -/

/-- Only OSC carries anything the parser models; the rest are the renderer's. -/
inductive StringControlKind
  | osc
  | other
  deriving DecidableEq

/-- The second byte of a two-byte introducer. -/
def opensString (c : UInt16) : Bool := (js "]PX^_").contains c

/-- The one-byte introducers: DCS, SOS, OSC, PM, APC. -/
def isC1Introducer (c : UInt16) : Bool := [0x90, 0x98, 0x9d, 0x9e, 0x9f].contains c

/-- A match of the introducer pattern in a text. -/
structure IntroducerMatch where
  before : JsString
  introducer : JsString
  after : JsString

def IntroducerMatch.cons (c : UInt16) (m : IntroducerMatch) : IntroducerMatch :=
  { m with before := c :: m.before }

/-- `STRING_CONTROL_INTRODUCER_SCAN`: the first introducer of the text. -/
def stringControlIntroducerScan : JsString → Option IntroducerMatch
  | [] => none
  | c :: rest =>
    if isC1Introducer c then some ⟨[], [c], rest⟩
    else
      match rest with
      | [] => none
      | d :: after =>
        if c == ESC && opensString d then some ⟨[], [c, d], after⟩
        else (stringControlIntroducerScan (d :: after)).map (·.cons c)

/-- The kind a matched introducer opened. -/
def stringControlKind (introducer : JsString) : StringControlKind :=
  match introducer.getLast? with
  | some opener => if opener == unit ']' || opener == 0x9d then .osc else .other
  | none => .other

/-! ### Ends -/

/-- `stringControlEndScan` as a set of bytes: BEL ends an OSC but is payload in the others. -/
def endsString : StringControlKind → UInt16 → Bool
  | .osc, c => c == BEL || c == CAN || c == SUB || c == ESC || c == ST
  | .other, c => c == CAN || c == SUB || c == ESC || c == ST

/-- The first byte of the text that can end the string, and what lies behind it. -/
def stringControlEndScan (kind : StringControlKind) : JsString → Option (UInt16 × JsString)
  | [] => none
  | c :: rest => if endsString kind c then some (c, rest) else stringControlEndScan kind rest

/-! ### The text filter -/

inductive TerminalControlStreamState
  | ground
  | escape
  | osc
  | string
  | stringEscape
  deriving DecidableEq, Repr

open TerminalControlStreamState

/-- One turn of the filter's loop over a remaining input `c :: rest`: the next state, what
is added to the output and what is left to read. -/
def filterTurn (state : TerminalControlStreamState) (c : UInt16) (rest : JsString) :
    TerminalControlStreamState × JsString × JsString :=
  match state with
  | ground =>
    match stringControlIntroducerScan (c :: rest) with
    | none =>
      if (c :: rest).getLast? = some ESC then (escape, (c :: rest).dropLast, [])
      else (ground, c :: rest, [])
    | some m =>
      (if stringControlKind m.introducer = .osc then osc else string, m.before, m.after)
  | escape =>
    if c == unit ']' then (osc, [], rest)
    else if c == unit 'P' || c == unit 'X' || c == unit '^' || c == unit '_' then
      (string, [], rest)
    else (ground, [ESC], c :: rest)
  | osc =>
    match stringControlEndScan .osc (c :: rest) with
    | none => (osc, [], [])
    | some (ender, after) => (if ender == ESC then stringEscape else ground, [], after)
  | string =>
    match stringControlEndScan .other (c :: rest) with
    | none => (string, [], [])
    | some (ender, after) => (if ender == ESC then stringEscape else ground, [], after)
  | stringEscape =>
    if c == unit '\\' then (ground, [], rest) else (escape, [], c :: rest)

/-- The filter's loop: the state it ends in and the output. -/
def filterLoop : Nat → TerminalControlStreamState → JsString →
    TerminalControlStreamState × JsString
  | 0, state, _ => (state, [])
  | _ + 1, state, [] => (state, [])
  | fuel + 1, state, c :: rest =>
    let turn := filterTurn state c rest
    let later := filterLoop fuel turn.1 turn.2.2
    (later.1, turn.2.1 ++ later.2)

/-- At most three turns read one byte. -/
def filterFuel (input : JsString) : Nat := 3 * input.length + 3

/-- `TerminalControlStreamFilter`: the state is the object's only field. -/
def TerminalControlStreamFilter.process (state : TerminalControlStreamState) (input : JsString) :
    TerminalControlStreamState × JsString :=
  if state = ground ∧ input.getLast? ≠ some ESC ∧ stringControlIntroducerScan input = none then
    (ground, input)
  else filterLoop (filterFuel input) state input

end Dormouse.Terminal
