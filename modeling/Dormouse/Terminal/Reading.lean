import Dormouse.Terminal.Protocol

/-!
# Dormouse.Terminal.Reading

**The reading of a stream**: what the protocol parser is for, one byte at a time and with
no chunks. A byte of ground text is held while it may still become a device attribute
query or an introducer, an OSC while it may still be consumed, and everything else is put
out at once.

A BEL in ground text is dropped and comes between an ESC and the byte behind it, which
then opens nothing.
-/

namespace Dormouse.Terminal

/-! ### What a reading puts out -/

inductive Emission
  | ground (c : UInt16)
  | control (c : UInt16)
  | event (e : TerminalProtocolEvent)

def Emission.visible? : Emission → Option UInt16
  | .ground c | .control c => some c
  | .event _ => none

def Emission.text? : Emission → Option UInt16
  | .ground c => some c
  | .control _ | .event _ => none

def Emission.event? : Emission → Option TerminalProtocolEvent
  | .event e => some e
  | .ground _ | .control _ => none

def visibleOf (out : List Emission) : JsString := out.filterMap Emission.visible?

def textOf (out : List Emission) : JsString := out.filterMap Emission.text?

/-- The events but the bells, which are filtered chunk by chunk. -/
def nonBells (events : List TerminalProtocolEvent) : List TerminalProtocolEvent :=
  events.filter fun event => !isBell event

def eventsOf (out : List Emission) : List TerminalProtocolEvent :=
  nonBells (out.filterMap Emission.event?)

def groundRun (text : JsString) : List Emission := text.map .ground

def controlRun (text : JsString) : List Emission := text.map .control

def eventRun (events : List TerminalProtocolEvent) : List Emission := events.map .event

/-! ### Held ground text -/

/-- A proper start of a device attribute query. -/
inductive Held
  | none
  | esc
  | escBracket
  | escBracketGt
  | csi
  | csiGt
  deriving DecidableEq, Repr

def Held.text : Held → JsString
  | .none => []
  | .esc => [ESC]
  | .escBracket => [ESC, unit '[']
  | .escBracketGt => [ESC, unit '[', unit '>']
  | .csi => [CSI]
  | .csiGt => [CSI, unit '>']

/-- A byte with nothing held before it. -/
def freshByte (c : UInt16) : Held × List Emission :=
  if c = ESC then (.esc, []) else if c = CSI then (.csi, []) else (.none, [.ground c])

/-- The held start as the byte continues it; `none` where it does not. -/
def Held.continue? : Held → UInt16 → Option (Held × List Emission)
  | .esc, c => if c = unit '[' then some (.escBracket, []) else Option.none
  | .escBracket, c => if c = unit '>' then some (.escBracketGt, []) else Option.none
  | .csi, c => if c = unit '>' then some (.csiGt, []) else Option.none
  | .escBracketGt, c | .csiGt, c =>
    if c = unit 'q' then some (.none, [.event (.response ITERM2_DEVICE_ATTRIBUTES_RESPONSE)])
    else Option.none
  | .none, _ => Option.none

/-- Ground text apart from bells and introducers. -/
def heldMachine : Transducer Held UInt16 Emission where
  step held c :=
    match held.continue? c with
    | some continued => continued
    | Option.none => ((freshByte c).1, groundRun held.text ++ (freshByte c).2)

/-! ### The machine -/

/-- `bells`: a BEL was dropped behind the held text. `osc` is an OSC that may still be
consumed, `forward` a string the renderer gets. -/
inductive ReadMode
  | ground (held : Held) (bells : Bool)
  | osc (introducer content : JsString) (heldEsc : Bool)
  | forward (kind : StringControlKind) (heldEsc : Bool)
  | threw

structure ReadState where
  mode : ReadMode
  osc99Pending : Osc99Pending

/-- The introducer the byte completes, and the held text that is not part of it. -/
def introducerOf (held : Held) (bells : Bool) (c : UInt16) : Option (JsString × JsString) :=
  if isC1Introducer c then some (held.text, [c])
  else if held = .esc ∧ bells = false ∧ opensString c = true then some ([], [ESC, c])
  else none

/-- The mode behind an introducer, and what of it is put out. -/
def openString (introducer : JsString) : ReadMode × List Emission :=
  match stringControlKind introducer with
  | .osc => (.osc introducer [] false, [])
  | .other => (.forward .other false, controlRun introducer)

def groundStep (osc99Pending : Osc99Pending) (held : Held) (bells : Bool) (c : UInt16) :
    ReadState × List Emission :=
  if c = BEL then (⟨.ground held true, osc99Pending⟩, [])
  else
    match introducerOf held bells c with
    | some (flushed, introducer) =>
      (⟨(openString introducer).1, osc99Pending⟩,
        groundRun flushed ++ (openString introducer).2)
    | none =>
      let next := heldMachine.step held c
      (⟨.ground next.1 false, osc99Pending⟩, next.2)

def forwardStep (osc99Pending : Osc99Pending) (kind : StringControlKind) (heldEsc : Bool)
    (c : UInt16) : ReadState × List Emission :=
  if heldEsc then
    if c = unit '\\' then (⟨.ground .none false, osc99Pending⟩, controlRun [ESC, c])
    else groundStep osc99Pending .esc false c
  else if c = ESC then (⟨.forward kind true, osc99Pending⟩, [])
  else if endsString kind c then (⟨.ground .none false, osc99Pending⟩, controlRun [c])
  else (⟨.forward kind false, osc99Pending⟩, controlRun [c])

/-- An aborted OSC goes to the renderer only if its id is the renderer's; `content` reaches
to the byte that aborts it. -/
def abortOsc (content : JsString) (sequence : JsString) : List Emission :=
  if oscDispositionAt content = some .forward then controlRun sequence else []

section Host

variable (host : ParserHost)

def finishOsc (osc99Pending : Osc99Pending) (introducer content ender : JsString) :
    ReadState × List Emission :=
  match parseOsc host osc99Pending content with
  | .null => (⟨.ground .none false, osc99Pending⟩, controlRun (introducer ++ content ++ ender))
  | .events events osc99Pending => (⟨.ground .none false, osc99Pending⟩, eventRun events)
  | .throws => (⟨.threw, osc99Pending⟩, [])

def oscStep (osc99Pending : Osc99Pending) (introducer content : JsString) (heldEsc : Bool)
    (c : UInt16) : ReadState × List Emission :=
  if heldEsc then
    if c = unit '\\' then finishOsc host osc99Pending introducer content [ESC, c]
    else
      let next := groundStep osc99Pending .esc false c
      (next.1, abortOsc (content ++ [ESC]) (introducer ++ content) ++ next.2)
  else if c = ESC then (⟨.osc introducer content true, osc99Pending⟩, [])
  else if c = CAN ∨ c = SUB then
    (⟨.ground .none false, osc99Pending⟩,
      abortOsc (content ++ [c]) (introducer ++ content ++ [c]))
  else if endsString .osc c then finishOsc host osc99Pending introducer content [c]
  else if oscDispositionAt (content ++ [c]) = some .forward then
    (⟨.forward .osc false, osc99Pending⟩, controlRun (introducer ++ (content ++ [c])))
  else (⟨.osc introducer (content ++ [c]) false, osc99Pending⟩, [])

def readMachine : Transducer ReadState UInt16 Emission where
  step s c :=
    match s.mode with
    | .ground held bells => groundStep s.osc99Pending held bells c
    | .osc introducer content heldEsc => oscStep host s.osc99Pending introducer content heldEsc c
    | .forward kind heldEsc => forwardStep s.osc99Pending kind heldEsc c
    | .threw => (s, [])

end Host

/-- Nothing read yet. -/
def ReadState.start (osc99Pending : Osc99Pending) : ReadState := ⟨.ground .none false, osc99Pending⟩

/-! ### The end of a chunk -/

/-- Where the parser stands when a chunk ends in the mode. -/
def ReadMode.parserMode : ReadMode → ParserMode
  | .ground held _ => .ground held.text
  | .osc introducer content heldEsc =>
    if oscDispositionAt (content ++ escIf heldEsc) = some .forward then .forwarding .osc heldEsc
    else if (introducer ++ (content ++ escIf heldEsc)).length ≤ OSC_INCOMPLETE_LIMIT then
      .ground (introducer ++ (content ++ escIf heldEsc))
    else .discarding heldEsc
  | .forward kind heldEsc => .forwarding kind heldEsc
  | .threw => .ground []

/-- What the end of a chunk puts out ahead of the reading: a bare id before an ESC counts
as the renderer's. -/
def ReadMode.early : ReadMode → JsString
  | .osc introducer content true =>
    if oscDispositionAt (content ++ [ESC]) = some .forward then introducer ++ content else []
  | _ => []

/-! ### Projections -/

@[simp] theorem visibleOf_append (a b : List Emission) :
    visibleOf (a ++ b) = visibleOf a ++ visibleOf b := List.filterMap_append

@[simp] theorem textOf_append (a b : List Emission) : textOf (a ++ b) = textOf a ++ textOf b :=
  List.filterMap_append

@[simp] theorem nonBells_append (a b : List TerminalProtocolEvent) :
    nonBells (a ++ b) = nonBells a ++ nonBells b := List.filter_append a b

@[simp] theorem eventsOf_append (a b : List Emission) :
    eventsOf (a ++ b) = eventsOf a ++ eventsOf b := by
  simp [eventsOf, List.filterMap_append]

@[simp] theorem visibleOf_nil : visibleOf [] = [] := rfl

@[simp] theorem textOf_nil : textOf [] = [] := rfl

@[simp] theorem eventsOf_nil : eventsOf [] = [] := rfl

@[simp] theorem visibleOf_groundRun (text : JsString) : visibleOf (groundRun text) = text := by
  simp [visibleOf, groundRun, List.filterMap_map, Function.comp_def, Emission.visible?]

@[simp] theorem textOf_groundRun (text : JsString) : textOf (groundRun text) = text := by
  simp [textOf, groundRun, List.filterMap_map, Function.comp_def, Emission.text?]

@[simp] theorem eventsOf_groundRun (text : JsString) : eventsOf (groundRun text) = [] := by
  simp [eventsOf, groundRun, List.filterMap_map, Function.comp_def, Emission.event?, nonBells]

@[simp] theorem visibleOf_controlRun (text : JsString) : visibleOf (controlRun text) = text := by
  simp [visibleOf, controlRun, List.filterMap_map, Function.comp_def, Emission.visible?]

@[simp] theorem textOf_controlRun (text : JsString) : textOf (controlRun text) = [] := by
  simp [textOf, controlRun, List.filterMap_map, Function.comp_def, Emission.text?]

@[simp] theorem eventsOf_controlRun (text : JsString) : eventsOf (controlRun text) = [] := by
  simp [eventsOf, controlRun, List.filterMap_map, Function.comp_def, Emission.event?, nonBells]

@[simp] theorem visibleOf_eventRun (events : List TerminalProtocolEvent) :
    visibleOf (eventRun events) = [] := by
  simp [visibleOf, eventRun, List.filterMap_map, Function.comp_def, Emission.visible?]

@[simp] theorem textOf_eventRun (events : List TerminalProtocolEvent) :
    textOf (eventRun events) = [] := by
  simp [textOf, eventRun, List.filterMap_map, Function.comp_def, Emission.text?]

@[simp] theorem eventsOf_eventRun (events : List TerminalProtocolEvent) :
    eventsOf (eventRun events) = nonBells events := by
  simp [eventsOf, eventRun, List.filterMap_map, Function.comp_def, Emission.event?]

theorem controlRun_append (a b : JsString) : controlRun (a ++ b) = controlRun a ++ controlRun b :=
  List.map_append

end Dormouse.Terminal
