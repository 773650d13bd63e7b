import Dormouse.Terminal.OscContent
import Dormouse.Terminal.StringControl

/-!
# Dormouse.Terminal.Protocol

**The terminal protocol parser**: it reads PTY output in chunks, consumes the sequences
the program owns and hands everything else to the renderer.

A call either returns or throws; a parser that threw keeps nothing pending.
-/

namespace Dormouse.Terminal

/-- What the parser carries from one chunk to the next, besides the kitty notifications.
The source has three fields of which one is set at most: `pending`, text to read again;
`forwarding`, inside a string that streams to the renderer; `discarding`, inside an
oversized OSC. -/
inductive ParserMode
  | ground (pending : JsString)
  | forwarding (kind : StringControlKind) (heldEsc : Bool)
  | discarding (heldEsc : Bool)

structure TerminalProtocolParser where
  mode : ParserMode
  osc99Pending : Osc99Pending

def TerminalProtocolParser.new : TerminalProtocolParser := ⟨.ground [], InsertionMap.empty⟩

structure TerminalProtocolParseResult where
  visibleData : JsString
  textData : JsString
  events : List TerminalProtocolEvent
  resumedStringEnd : Option Nat

def OSC_INCOMPLETE_LIMIT : Nat := 16384

def TerminalProtocolParser.isForwardingString (parser : TerminalProtocolParser) : Bool :=
  match parser.mode with
  | .forwarding _ _ => true
  | _ => false

/-! ### String controls -/

/-- Where a string control ends in a text that starts behind its introducer. -/
structure StringControlEnd where
  payload : JsString
  /-- The bytes that end it, none where an ESC that is not part of them cancels it. -/
  ender : JsString
  rest : JsString
  cancelled : Bool

def StringControlEnd.cons (c : UInt16) (e : StringControlEnd) : StringControlEnd :=
  { e with payload := c :: e.payload }

/-- `none` means the answer is not in these bytes yet. -/
def findStringControlEnd (kind : StringControlKind) : JsString → Option StringControlEnd
  | [] => none
  | c :: rest =>
    if c = ESC then
      match rest with
      | [] => none
      | d :: after =>
        if d = unit '\\' then some ⟨[], [ESC, d], after, false⟩
        else some ⟨[], [], ESC :: d :: after, true⟩
    else if endsString kind c then some ⟨[], [c], rest, c == CAN || c == SUB⟩
    else (findStringControlEnd kind rest).map (·.cons c)

def endsWithEsc (text : JsString) : Bool := text.getLast? == some ESC

/-- The text without an ESC at its end. -/
def dropHeldEsc (text : JsString) : JsString := if endsWithEsc text then text.dropLast else text

def escIf (heldEsc : Bool) : JsString := if heldEsc then [ESC] else []

/-! ### Ground text -/

def TERMINAL_BELL_NOTIFICATION : ActivityNotification := ⟨.BEL, some (js "Terminal bell"), none⟩

def ITERM2_DEVICE_ATTRIBUTES_RESPONSE : JsString := js "\x1bP>|iTerm2 3.5.0\x1b\\"

def stripStandaloneBells (segment : JsString) : JsString × List TerminalProtocolEvent :=
  if BEL ∈ segment then
    (segment.filter (· != BEL), [.notification TERMINAL_BELL_NOTIFICATION])
  else (segment, [])

def DEVICE_ATTRIBUTE_PENDING_SUFFIXES : List JsString :=
  [[ESC, unit '[', unit '>'], [ESC, unit '['], [ESC], [CSI, unit '>'], [CSI]]

def takeDeviceAttributePendingSuffix (visibleData : JsString) : JsString :=
  (DEVICE_ATTRIBUTE_PENDING_SUFFIXES.find? fun suffix => suffix.isSuffixOf visibleData).getD []

/-- The length of the device attribute query at the head of the text. -/
def deviceAttributeQueryAt (text : JsString) : Option Nat :=
  if [ESC, unit '[', unit '>', unit 'q'].isPrefixOf text then some 4
  else if [CSI, unit '>', unit 'q'].isPrefixOf text then some 3
  else none

/-- `DEVICE_ATTRIBUTE_QUERY` replaced by nothing, `skip` bytes of a match still to go, and
an answer for each match. -/
def replaceDeviceAttributeQueries : Nat → JsString → JsString × List TerminalProtocolEvent
  | _, [] => ([], [])
  | skip + 1, _ :: rest => replaceDeviceAttributeQueries skip rest
  | 0, c :: rest =>
    match deviceAttributeQueryAt (c :: rest) with
    | some length =>
      let later := replaceDeviceAttributeQueries (length - 1) rest
      (later.1, .response ITERM2_DEVICE_ATTRIBUTES_RESPONSE :: later.2)
    | none =>
      let later := replaceDeviceAttributeQueries 0 rest
      (c :: later.1, later.2)

def answerDeviceAttributeQueries (ground : JsString) : JsString × List TerminalProtocolEvent :=
  replaceDeviceAttributeQueries 0 ground

/-! ### Events -/

def isBell (event : TerminalProtocolEvent) : Bool :=
  match event with
  | .notification notification => notification.source = .BEL
  | _ => false

/-- A notification or a progress report that a bell would only repeat. -/
def isRicher (event : TerminalProtocolEvent) : Bool :=
  match event with
  | .notification notification => notification.source ≠ .BEL
  | .progress _ | .strayProgress => true
  | _ => false

/-- The events without the bells behind the first one. -/
def keepFirstBell (keptBell : Bool) : List TerminalProtocolEvent → List TerminalProtocolEvent
  | [] => []
  | event :: events =>
    if isBell event then
      if keptBell then keepFirstBell true events else event :: keepFirstBell true events
    else event :: keepFirstBell keptBell events

/-- One bell at most, none beside anything richer. -/
def filterTerminalBellEvents (events : List TerminalProtocolEvent) : List TerminalProtocolEvent :=
  let bellCount := events.countP isBell
  let hasRicher := events.any isRicher
  if bellCount = 0 then events
  else if !hasRicher && bellCount = 1 then events
  else if hasRicher then events.filter fun event => !isBell event
  else keepFirstBell false events

/-! ### One chunk -/

/-- What a scan of a text has put out, and where it leaves the parser. -/
structure Scanned where
  visibleData : JsString
  textData : JsString
  events : List TerminalProtocolEvent
  mode : ParserMode
  osc99Pending : Osc99Pending

/-- A run of ground text before an introducer, of which nothing is ever held. -/
def scanGap (gap : JsString) : JsString × List TerminalProtocolEvent :=
  let stripped := stripStandaloneBells gap
  let answered := answerDeviceAttributeQueries stripped.1
  (answered.1, stripped.2 ++ answered.2)

/-- The ground text a chunk ends in. -/
def scanTail (osc99Pending : Osc99Pending) (text : JsString) : Scanned :=
  let stripped := stripStandaloneBells text
  let pending := takeDeviceAttributePendingSuffix stripped.1
  let ground := answerDeviceAttributeQueries
    (stripped.1.take (stripped.1.length - pending.length))
  ⟨ground.1, ground.1, stripped.2 ++ ground.2, .ground pending, osc99Pending⟩

/-- The string control a chunk ends in. -/
def scanIncomplete (osc99Pending : Osc99Pending) (kind : StringControlKind)
    (introducer content : JsString) : Scanned :=
  let incomplete := introducer ++ content
  let disposition := match kind with
    | .osc => oscDispositionAt content
    | .other => some .forward
  if disposition = some .forward then
    ⟨dropHeldEsc incomplete, [], [], .forwarding kind (endsWithEsc incomplete), osc99Pending⟩
  else if incomplete.length ≤ OSC_INCOMPLETE_LIMIT then
    ⟨[], [], [], .ground incomplete, osc99Pending⟩
  else ⟨[], [], [], .discarding (endsWithEsc incomplete), osc99Pending⟩

/-- What a string control that ended comes to: handed to the renderer or consumed. -/
inductive ControlParse
  | forward
  | consume (events : List TerminalProtocolEvent) (osc99Pending : Osc99Pending)
  | throws

section Host

variable (host : ParserHost)

def parseControl (osc99Pending : Osc99Pending) (kind : StringControlKind) (content : JsString)
    (controlEnd : StringControlEnd) : ControlParse :=
  match kind with
  | .other => .forward
  | .osc =>
    if controlEnd.cancelled then
      -- An aborted OSC yields no event; its id alone routes it.
      if oscDispositionAt content = some .forward then .forward else .consume [] osc99Pending
    else
      match parseOsc host osc99Pending controlEnd.payload with
      | .null => .forward
      | .events events osc99Pending => .consume events osc99Pending
      | .throws => .throws

/-- The scan loop. An exception leaves the kitty notifications as they were then. -/
def scanLoop : Nat → Osc99Pending → JsString → Except Osc99Pending Scanned
  | 0, osc99Pending, _ => .ok ⟨[], [], [], .ground [], osc99Pending⟩
  | fuel + 1, osc99Pending, text =>
    match stringControlIntroducerScan text with
    | none => .ok (scanTail osc99Pending text)
    | some control =>
      let gap := scanGap control.before
      let kind := stringControlKind control.introducer
      match findStringControlEnd kind control.after with
      | none =>
        let last := scanIncomplete osc99Pending kind control.introducer control.after
        .ok { last with
          visibleData := gap.1 ++ last.visibleData
          textData := gap.1 ++ last.textData
          events := gap.2 ++ last.events }
      | some controlEnd =>
        let sequence := control.introducer ++ controlEnd.payload ++ controlEnd.ender
        match parseControl host osc99Pending kind control.after controlEnd with
        | .throws => .error osc99Pending
        | .forward =>
          (scanLoop fuel osc99Pending controlEnd.rest).map fun later =>
            { later with
              visibleData := gap.1 ++ sequence ++ later.visibleData
              textData := gap.1 ++ later.textData
              events := gap.2 ++ later.events }
        | .consume events osc99Pending =>
          (scanLoop fuel osc99Pending controlEnd.rest).map fun later =>
            { later with
              visibleData := gap.1 ++ later.visibleData
              textData := gap.1 ++ later.textData
              events := gap.2 ++ events ++ later.events }

/-- Every turn of the loop reads a byte at least. -/
def scanText (osc99Pending : Osc99Pending) (text : JsString) : Except Osc99Pending Scanned :=
  scanLoop host (text.length + 1) osc99Pending text

/-- `NEEDS_PARSE_RE`. -/
def needsParse (data : JsString) : Bool :=
  data.any (fun c => c == BEL || c == ESC || c == CSI) || (stringControlIntroducerScan data).isSome

def processGround (osc99Pending : Osc99Pending) (pending data : JsString) :
    TerminalProtocolParser × Option TerminalProtocolParseResult :=
  if pending = [] ∧ needsParse data = false then
    (⟨.ground [], osc99Pending⟩, some ⟨data, data, [], some 0⟩)
  else
    match scanText host osc99Pending (pending ++ data) with
    | .error osc99Pending => (⟨.ground [], osc99Pending⟩, none)
    | .ok scanned =>
      (⟨scanned.mode, scanned.osc99Pending⟩,
        some ⟨scanned.visibleData, scanned.textData, filterTerminalBellEvents scanned.events,
          some 0⟩)

def processForwarded (osc99Pending : Osc99Pending) (kind : StringControlKind) (heldEsc : Bool)
    (data : JsString) : TerminalProtocolParser × Option TerminalProtocolParseResult :=
  let text := escIf heldEsc ++ data
  match findStringControlEnd kind text with
  | none =>
    (⟨.forwarding kind (endsWithEsc text), osc99Pending⟩, some ⟨dropHeldEsc text, [], [], none⟩)
  | some controlEnd =>
    let ended := controlEnd.payload ++ controlEnd.ender
    let parsedRest := processGround host osc99Pending [] controlEnd.rest
    (parsedRest.1, parsedRest.2.map fun result =>
      { result with
        visibleData := ended ++ result.visibleData
        resumedStringEnd := some ended.length })

/-- `none` for a call that throws. -/
def TerminalProtocolParser.process (parser : TerminalProtocolParser) (data : JsString) :
    TerminalProtocolParser × Option TerminalProtocolParseResult :=
  match parser.mode with
  | .discarding heldEsc =>
    let text := escIf heldEsc ++ data
    match findStringControlEnd .osc text with
    | none =>
      (⟨.discarding (endsWithEsc text), parser.osc99Pending⟩, some ⟨[], [], [], some 0⟩)
    | some controlEnd => processGround host parser.osc99Pending [] controlEnd.rest
  | .forwarding kind heldEsc => processForwarded host parser.osc99Pending kind heldEsc data
  | .ground pending => processGround host parser.osc99Pending pending data

end Host

end Dormouse.Terminal
