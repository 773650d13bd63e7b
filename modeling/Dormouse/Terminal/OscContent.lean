import Mathlib.Data.Rat.Floor
import Mathlib.Data.List.SplitOn
import Dormouse.Lib.InsertionMap
import Dormouse.Terminal.Events

/-!
# Dormouse.Terminal.OscContent

What the protocol parser reads from the content of a terminated OSC: the events it
stands for, or that the sequence is the renderer's.

Functions of the language that are not modelled here (`URL`, `Number`, `atob`, …), the
theme and the clock are the fields of `ParserHost`.
-/

namespace Dormouse.Terminal

inductive TerminalColorTarget
  | foreground
  | background
  | cursor
  deriving DecidableEq

/-- The parts of a parsed `URL` an OSC 7 reads. -/
structure Url where
  protocol : JsString
  pathname : JsString
  hostname : JsString

structure Rgb where
  r : ℚ
  g : ℚ
  b : ℚ

/-- `number` is `Number(raw)` where that is finite. -/
structure ParserHost where
  now : Ms
  url : JsString → Option Url
  decodeURIComponent : JsString → Option JsString
  toLowerCase : JsString → JsString
  number : JsString → Option ℚ
  atob : JsString → Option JsString
  textDecoder : JsString → JsString
  colorProvider : Option (TerminalColorTarget → Option JsString)
  parseColor : JsString → Option Rgb

/-- `strayProgress` is a progress event whose payload is no progress record. -/
inductive TerminalProtocolEvent
  | notification (notification : ActivityNotification)
  | progress (progress : ProtocolProgressUpdate)
  | strayProgress
  | response (data : JsString)
  | semantic (event : TerminalSemanticEvent)
  deriving DecidableEq

/-! ### Text -/

def TITLE_LIMIT : Nat := 256
def BODY_LIMIT : Nat := 4096
def COMMAND_LINE_LIMIT : Nat := 2048
def MAX_CWD_LENGTH : Nat := 4096

/-- `[\x00-\x1f\x7f-\x9f]`. -/
def isControl (c : UInt16) : Bool := c ≤ 0x1f || (0x7f ≤ c && c ≤ 0x9f)

/-- Every run of units of the class becomes one space. -/
def collapseRuns (class_ : UInt16 → Bool) (inRun : Bool) : JsString → JsString
  | [] => []
  | c :: rest =>
    if class_ c then
      if inRun then collapseRuns class_ true rest else unit ' ' :: collapseRuns class_ true rest
    else c :: collapseRuns class_ false rest

def truncateText (input : JsString) (limit : Nat) : JsString :=
  if input.length ≤ limit then input else ((JsString.codePoints input).take limit).flatten

def sanitizeText (input : JsString) (limit : Nat) : Option JsString :=
  let collapsed := JsString.trim
    (collapseRuns JsString.isWhitespace false (collapseRuns isControl false input))
  if collapsed = [] then none else some (truncateText collapsed limit)

def appendLimited (existing next : JsString) (limit : Nat) : JsString :=
  truncateText (existing ++ next) limit

def startsWith (content : JsString) (lead : String) : Bool := (js lead).isPrefixOf content

/-- The text before the first `;` and the text behind it, empty where there is none. -/
def cutAtSemicolon (s : JsString) : JsString × JsString :=
  (s.takeWhile (· != unit ';'), (s.dropWhile (· != unit ';')).drop 1)

def hexValue (c : UInt16) : Option Nat :=
  if JsString.isDigit c then some (c.toNat - 0x30)
  else if 0x61 ≤ c && c ≤ 0x66 then some (c.toNat - 0x61 + 10)
  else if 0x41 ≤ c && c ≤ 0x46 then some (c.toNat - 0x41 + 10)
  else none

def decodeOsc633Value : JsString → JsString
  | [] => []
  | c :: rest =>
    if c == unit '\\' then
      match rest with
      | x :: h :: l :: more =>
        if x == unit '\\' then c :: decodeOsc633Value (h :: l :: more)
        else
          match x == unit 'x', hexValue h, hexValue l with
          | true, some hi, some lo => (hi * 16 + lo).toUInt16 :: decodeOsc633Value more
          | _, _, _ => c :: decodeOsc633Value (x :: h :: l :: more)
      | x :: more =>
        if x == unit '\\' then c :: decodeOsc633Value more else c :: decodeOsc633Value (x :: more)
      | [] => [c]
    else c :: decodeOsc633Value rest

/-! ### Working directories -/

def boundedCwdValue (value : JsString) : JsString :=
  let stripped := value.filter fun c => !isControl c
  if stripped.length ≤ MAX_CWD_LENGTH then stripped
  else ((JsString.codePoints stripped).take MAX_CWD_LENGTH).flatten

def isLetter (c : UInt16) : Bool := JsString.isUpper c || JsString.isLower c

def isUncPath (path : JsString) : Bool := startsWith path "\\\\" || startsWith path "//"

def isWindowsPath (path : JsString) : Bool :=
  (match path with
    | [drive, colon] => isLetter drive && colon == unit ':'
    | drive :: colon :: slash :: _ =>
      isLetter drive && colon == unit ':' && (slash == unit '\\' || slash == unit '/')
    | _ => false) || isUncPath path

def inferPathKind (path : JsString) : PathKind :=
  if isWindowsPath path then .windows
  else if startsWith path "/" || startsWith path "~/" then .posix
  else .unknown

def cwdFromDecodedPath (rawPath : JsString) (source : CwdSource) (now : Ms) : Option CwdState :=
  let path := boundedCwdValue rawPath
  if path = [] then none
  else some ⟨none, path, none, false, inferPathKind path, isUncPath path, source, now⟩

def cwdFromOsc633 (rawPath : JsString) (now : Ms) : Option CwdState :=
  cwdFromDecodedPath rawPath .osc633 now

def cwdFromOsc1337 (rawPath : JsString) (now : Ms) : Option CwdState :=
  cwdFromDecodedPath rawPath .osc1337 now

def cwdFromOsc9_9 (rawPath : JsString) (now : Ms) : Option CwdState :=
  let path := boundedCwdValue rawPath
  if path = [] then none
  else
    let pathKind := if isWindowsPath path then PathKind.windows else .unknown
    some ⟨none, path, none, false, pathKind, isUncPath path, .osc9_9, now⟩

def normalizeFileUriPath (pathname : JsString) : JsString :=
  match pathname with
  | slash :: drive :: colon :: next :: _ =>
    if slash == unit '/' && isLetter drive && colon == unit ':' && next == unit '/' then
      pathname.drop 1
    else pathname
  | _ => pathname

section Host

variable (host : ParserHost)

def safeDecodeURIComponent (value : JsString) : JsString :=
  (host.decodeURIComponent value).getD value

/-- The authority of a `file://` URI as it was written, if it is not empty. -/
def extractFileUriHost (uri : JsString) : Option JsString :=
  if JsString.asciiLower (uri.take 7) = js "file://" then
    let authority := (uri.drop 7).takeWhile fun c => !(js "/?#").contains c
    if authority = [] then none else some (safeDecodeURIComponent host authority)
  else none

def fileUriHost (uri parsedHostname : JsString) : JsString :=
  match extractFileUriHost host uri with
  | none => parsedHostname
  | some sliced =>
    if sliced = [] then parsedHostname
    else if host.toLowerCase sliced = parsedHostname then sliced
    else if parsedHostname = [] && host.toLowerCase sliced = js "localhost" then sliced
    else parsedHostname

def isRemoteFileHost (fileHost : JsString) : Bool :=
  fileHost != [] && host.toLowerCase fileHost != js "localhost"

def cwdFromOsc7 (rawUriInput : JsString) : Option CwdState :=
  let rawUri := boundedCwdValue rawUriInput
  match host.url rawUri with
  | none => none
  | some parsed =>
    if parsed.protocol ≠ js "file:" then none
    else
      let decodedPath := boundedCwdValue
        (normalizeFileUriPath (safeDecodeURIComponent host parsed.pathname))
      let fileHost := boundedCwdValue (fileUriHost host rawUri parsed.hostname)
      some
        { uri := some rawUri, path := decodedPath,
          host := if fileHost = [] then none else some fileHost, fileScheme := true,
          pathKind := inferPathKind decodedPath, isRemote := isRemoteFileHost host fileHost,
          source := .osc7, updatedAt := host.now }

def cwdEvents (cwd : Option CwdState) : List TerminalProtocolEvent :=
  match cwd with
  | some cwd => [.semantic (.cwd cwd)]
  | none => []

/-! ### Semantic sequences -/

def parseOsc7 (content : JsString) : List TerminalProtocolEvent :=
  if startsWith content "7;" then cwdEvents (cwdFromOsc7 host (content.drop 2)) else []

/-- An integer exit code; anything else is absent. -/
def parseExitCode (raw : Option JsString) : Option Int :=
  match raw with
  | none => none
  | some raw =>
    if raw = [] then none
    else (host.number raw).bind fun value => if value.isInt then some value.num else none

def parsePromptBoundary (fields : List JsString) (commandStartSource : CommandRunSource) :
    List TerminalProtocolEvent :=
  match fields[1]? with
  | none => []
  | some field =>
    if field = js "A" then [.semantic .promptStart]
    else if field = js "B" then [.semantic .promptEnd]
    else if field = js "C" then [.semantic (.commandStart (some commandStartSource) none)]
    else if field = js "D" then
      [.semantic (.commandFinish (parseExitCode host fields[2]?) none)]
    else []

def parseOsc133 (content : JsString) : List TerminalProtocolEvent :=
  let fields := content.splitOn (unit ';')
  if fields[0]? ≠ some (js "133") then []
  else parsePromptBoundary host fields .osc133_boundaries

def parseOsc633Property (rawProperties : JsString) : List TerminalProtocolEvent :=
  if startsWith rawProperties "Cwd=" then cwdEvents (cwdFromOsc633 (rawProperties.drop 4) host.now)
  else []

def parseOsc633 (content : JsString) : List TerminalProtocolEvent :=
  let fields := content.splitOn (unit ';')
  if fields[0]? ≠ some (js "633") then []
  else if fields[1]? = some (js "E") then
    if startsWith content "633;E;" then
      let rawCommand := (cutAtSemicolon (content.drop 6)).1
      match sanitizeText (decodeOsc633Value (truncateText rawCommand (COMMAND_LINE_LIMIT * 4)))
          COMMAND_LINE_LIMIT with
      | none => []
      | some commandLine => [.semantic (.commandLine commandLine)]
    else []
  else if fields[1]? = some (js "P") then parseOsc633Property host (content.drop 6)
  else parsePromptBoundary host fields .osc633_boundaries

/-- `parseOscTitle`; `lead` is `0;` or `2;`. -/
def parseOscTitle (content : JsString) (lead : String) (source : TerminalTitleSource) :
    List TerminalProtocolEvent :=
  if startsWith content lead then
    match sanitizeText (content.drop 2) TITLE_LIMIT with
    | none => []
    | some title => [.semantic (.title ⟨title, source, 0⟩)]
  else []

/-! ### Notifications and progress -/

/-- What the code does with a progress report. -/
inductive ProgressParse
  | event (event : TerminalProtocolEvent)
  | dropped
  | throws

def parsePercent (raw : Option JsString) : Option ℚ :=
  match raw with
  | none => none
  | some raw =>
    if raw = [] then none
    else (host.number raw).bind fun value => if value < 0 ∨ 100 < value then none else some value

/-- The members an object literal inherits that fail when they are called without an
object to work on, or are no functions at all. -/
def throwingMembers : List JsString :=
  [js "hasOwnProperty", js "propertyIsEnumerable", js "valueOf", js "toLocaleString",
    js "__defineGetter__", js "__defineSetter__", js "__lookupGetter__", js "__lookupSetter__",
    js "__proto__"]

def progressOf (state : ProtocolProgressState) (percent : Option ℚ) : ProgressParse :=
  .event (.progress ⟨state, percent⟩)

/-- `OSC94_STATE_TABLE[state]` applied to the raw percent. The table is an object literal,
so a state code can also name a member of `Object.prototype`. -/
def OSC94_STATE_TABLE (state : JsString) (raw : Option JsString) : ProgressParse :=
  let required (shape : ProtocolProgressState) : ProgressParse :=
    match parsePercent host raw with
    | none => .dropped
    | some percent => progressOf shape (some percent)
  if state = [] ∨ state = js "0" then progressOf .clear none
  else if state = js "1" then required .normal
  else if state = js "2" then progressOf .error (parsePercent host raw)
  else if state = js "3" then progressOf .indeterminate none
  else if state = js "4" then required .warning
  -- `Object(raw)` and `[object Undefined]` are truthy, `isPrototypeOf` answers false.
  else if state = js "constructor" ∨ state = js "toString" then .event .strayProgress
  else if state ∈ throwingMembers then .throws
  else .dropped

def parseOsc94 (content : JsString) : ProgressParse :=
  let fields := content.splitOn (unit ';')
  OSC94_STATE_TABLE host (fields[2]?.getD []) fields[3]?

def notificationEvents (source : ActivityNotificationSource) (title body : Option JsString) :
    List TerminalProtocolEvent :=
  if title.isNone && body.isNone then [] else [.notification ⟨source, title, body⟩]

def parseOsc777 (content : JsString) : List TerminalProtocolEvent :=
  if startsWith content "777;notify;" then
    let (rawTitle, rawBody) := cutAtSemicolon (content.drop 11)
    notificationEvents .OSC_777 (sanitizeText rawTitle TITLE_LIMIT) (sanitizeText rawBody BODY_LIMIT)
  else []

/-! ### Kitty notifications -/

def OSC99_PENDING_TTL_MS : Ms := 60000
def OSC99_MAX_PENDING_IDS : Nat := 64
def OSC99_PENDING_TITLE_LIMIT : Nat := 2048
def OSC99_PENDING_BODY_LIMIT : Nat := 16384

structure Osc99PendingNotification where
  title : JsString
  body : JsString
  updatedAt : Ms

abbrev Osc99Pending := InsertionMap JsString Osc99PendingNotification

def parseOsc99Metadata (rawMetadata : JsString) : InsertionMap JsString JsString :=
  (rawMetadata.splitOn (unit ':')).foldl (fun result part =>
    match part with
    | key :: eq :: value =>
      if isLetter key && eq == unit '=' then result.set [key] value else result
    | _ => result) InsertionMap.empty

/-- `normalizeOsc99ResponseId`: no white space, separator or control. -/
def normalizeOsc99ResponseId (id : Option JsString) : Option JsString :=
  match id with
  | none => none
  | some id =>
    if id = [] ∨ TITLE_LIMIT < id.length then none
    else if id.all fun c =>
        !(JsString.isWhitespace c || c == unit ':' || c == unit ';' || isControl c) then some id
    else none

def formatOsc99SupportResponse (rawId : Option JsString) : JsString :=
  let metadata := match normalizeOsc99ResponseId rawId with
    | some id => js "i=" ++ id ++ js ":p=?"
    | none => js "p=?"
  js "\x1b]99;" ++ metadata ++ js ";o=always:p=title,body\x1b\\"

def isBase64Unit (c : UInt16) : Bool :=
  isLetter c || JsString.isDigit c || c == unit '+' || c == unit '/'

/-- `/^[A-Za-z0-9+/]*={0,2}$/` and a length `atob` takes. -/
def isBase64 (s : JsString) : Bool :=
  let padding := s.dropWhile isBase64Unit
  padding.all (· == unit '=') && padding.length ≤ 2 && s.length % 4 != 1

def decodeBase64 (input : JsString) : Option JsString :=
  let normalized := JsString.trim input
  if isBase64 normalized then (host.atob normalized).map host.textDecoder else none

def expireOsc99Pending (pending : Osc99Pending) : Osc99Pending :=
  (pending.entries.filter fun e => e.2.updatedAt < host.now - OSC99_PENDING_TTL_MS).foldl
    (fun m e => m.delete e.1) pending

/-- The oldest entries go until the cap is met. -/
def enforceOsc99PendingCap (pending : Osc99Pending) : Osc99Pending :=
  (pending.keys.take (pending.size - OSC99_MAX_PENDING_IDS)).foldl (·.delete ·) pending

/-- The payload, decoded as the metadata say. -/
def decodeOsc99Payload (metadata : InsertionMap JsString JsString) (rawPayload : JsString) :
    Option JsString :=
  let encoding := (metadata.get (js "e")).getD (js "0")
  if encoding = js "1" then decodeBase64 host rawPayload
  else if encoding = js "0" then some rawPayload
  else none

/-- One part of a notification: the entry with the part appended, `none` for a part of an
unknown type. -/
def Osc99PendingNotification.append (target : Osc99PendingNotification)
    (payloadType payload : JsString) : Option Osc99PendingNotification :=
  if payloadType = js "title" then
    some { target with title := appendLimited target.title payload OSC99_PENDING_TITLE_LIMIT }
  else if payloadType = js "body" then
    some { target with body := appendLimited target.body payload OSC99_PENDING_BODY_LIMIT }
  else none

def parseOsc99 (osc99Pending : Osc99Pending) (content : JsString) :
    List TerminalProtocolEvent × Osc99Pending :=
  let osc99Pending := expireOsc99Pending host osc99Pending
  if !startsWith content "99;" then ([], osc99Pending)
  else
    let (rawMetadata, rawPayload) := cutAtSemicolon (content.drop 3)
    let metadata := parseOsc99Metadata rawMetadata
    let payloadType := (metadata.get (js "p")).getD (js "title")
    if payloadType = js "?" then
      ([.response (formatOsc99SupportResponse (metadata.get (js "i")))], osc99Pending)
    else if payloadType = js "close" ∨ payloadType = js "alive" then ([], osc99Pending)
    else
      let id := (metadata.get (js "i")).bind fun id => sanitizeText id TITLE_LIMIT
      let done : Bool := metadata.get (js "d") != some (js "0")
      match decodeOsc99Payload host metadata rawPayload with
      | none => ([], osc99Pending)
      | some decodedPayload =>
        let fresh : Osc99PendingNotification := ⟨[], [], host.now⟩
        let pending := id.bind osc99Pending.get
        let osc99Pending := match id, pending with
          | some id, none => enforceOsc99PendingCap (osc99Pending.set id fresh)
          | _, _ => osc99Pending
        let target := pending.getD fresh
        let store (m : Osc99Pending) (entry : Osc99PendingNotification) : Osc99Pending :=
          match id with
          | some id => m.set id entry
          | none => m
        match target.append payloadType decodedPayload, done with
        | none, false => ([], store osc99Pending { target with updatedAt := host.now })
        | appended, _ =>
          let target := { appended.getD target with updatedAt := host.now }
          if done then
            let osc99Pending := match id with
              | some id => osc99Pending.delete id
              | none => osc99Pending
            (notificationEvents .OSC_99 (sanitizeText target.title TITLE_LIMIT)
              (sanitizeText target.body BODY_LIMIT), osc99Pending)
          else ([], store osc99Pending target)

/-! ### Colors -/

def hexDigit (n : Nat) : UInt16 := if n < 10 then (0x30 + n).toUInt16 else (0x61 + (n - 10)).toUInt16

/-- One channel, rounded into a byte and doubled to 16 bits. -/
def colorChannel (v : ℚ) : JsString :=
  let byte := (max 0 (min 255 ⌊v + 1 / 2⌋)).toNat
  let hex := [hexDigit (byte / 16), hexDigit (byte % 16)]
  hex ++ hex

def formatOscColorResponse (code : JsString) (color : Option JsString) : Option JsString :=
  match color with
  | none => none
  | some color =>
    if color = [] then none
    else
      (host.parseColor color).map fun rgb =>
        js "\x1b]" ++ code ++ js ";rgb:" ++ colorChannel rgb.r ++ js "/" ++ colorChannel rgb.g ++
          js "/" ++ colorChannel rgb.b ++ js "\x1b\\"

/-- The `?` report form of OSC 10, 11 and 12; anything else, and an unresolved color, is the
renderer's. -/
def parseColorQuery (content : JsString) : Option (List TerminalProtocolEvent) :=
  let query : Option (JsString × TerminalColorTarget) :=
    if content = js "10;?" then some (js "10", .foreground)
    else if content = js "11;?" then some (js "11", .background)
    else if content = js "12;?" then some (js "12", .cursor)
    else none
  match query, host.colorProvider with
  | some (code, target), some colorProvider =>
    (formatOscColorResponse host code (colorProvider target)).map fun data => [.response data]
  | _, _ => none

end Host

/-! ### Disposition -/

inductive OscDisposition
  | consume
  | forward
  deriving DecidableEq

/-- Every OSC id `parseOsc` claims. -/
def OSC_CONSUMED_IDS : List JsString :=
  [js "0", js "2", js "7", js "9", js "10", js "11", js "12", js "50", js "52", js "99", js "133",
    js "633", js "777"]

/-- The OSC 1337 subcommands the image addon owns. -/
def OSC1337_FORWARDED : List JsString :=
  [js "File=", js "MultipartFile=", js "FilePart=", js "FileEnd", js "ReportCellSize"]

/-- `none` means the answer could still change as bytes arrive. -/
def osc1337DispositionAt (subcommand : JsString) : Option OscDisposition :=
  if OSC1337_FORWARDED.any fun command => command.isPrefixOf subcommand then some .forward
  else if OSC1337_FORWARDED.any fun command =>
      subcommand.length < command.length && subcommand.isPrefixOf command then none
  else some .consume

/-- Whether the parser consumes the OSC or hands it to the renderer, from its id alone. -/
def oscDispositionAt (text : JsString) : Option OscDisposition :=
  let id := text.takeWhile JsString.isDigit
  match text.dropWhile JsString.isDigit with
  | [] => none
  | c :: rest =>
    if id = [] ∨ c ≠ unit ';' then some .forward
    else if id = js "1337" then osc1337DispositionAt rest
    else if id ∈ OSC_CONSUMED_IDS then some .consume
    else some .forward

/-! ### Dispatch -/

/-- What the content of a terminated OSC comes to: nothing of the parser's, an exception, or
events and the state of the kitty notifications. -/
inductive OscParse
  | null
  | throws
  | events (events : List TerminalProtocolEvent) (osc99Pending : Osc99Pending)

/-- `content === id || content.startsWith(id + ';')`. -/
def isOsc (content : JsString) (id : String) : Bool :=
  content == js id || startsWith content (id ++ ";")

section Host

variable (host : ParserHost) (osc99Pending : Osc99Pending)

def parseOsc9 (content : JsString) : OscParse :=
  if !startsWith content "9;" then .events [] osc99Pending
  else if startsWith content "9;9;" then
    .events (cwdEvents (cwdFromOsc9_9 (content.drop 4) host.now)) osc99Pending
  else if content = js "9;4" ∨ startsWith content "9;4;" then
    match parseOsc94 host content with
    | .event event => .events [event] osc99Pending
    | .dropped => .events [] osc99Pending
    | .throws => .throws
  else
    match sanitizeText (content.drop 2) BODY_LIMIT with
    | some body => .events [.notification ⟨.OSC_9, none, some body⟩] osc99Pending
    | none => .events [] osc99Pending

def parseOsc1337 (content : JsString) : OscParse :=
  if oscDispositionAt content = some .forward then .null
  else if startsWith content "1337;CurrentDir=" then
    .events (cwdEvents (cwdFromOsc1337 (content.drop 16) host.now)) osc99Pending
  else .events [] osc99Pending

def isKnownUnsupportedIterm2Osc (content : JsString) : Bool := isOsc content "50" || isOsc content "52"

def parseOsc (content : JsString) : OscParse :=
  if isOsc content "7" then .events (parseOsc7 host content) osc99Pending
  else if isOsc content "9" then parseOsc9 host osc99Pending content
  else if isOsc content "133" then .events (parseOsc133 host content) osc99Pending
  else if isOsc content "633" then .events (parseOsc633 host content) osc99Pending
  else if isOsc content "1337" then parseOsc1337 host osc99Pending content
  else if isOsc content "0" then .events (parseOscTitle content "0;" .osc0) osc99Pending
  else if isOsc content "2" then .events (parseOscTitle content "2;" .osc2) osc99Pending
  else if isOsc content "99" then
    let (events, osc99Pending) := parseOsc99 host osc99Pending content
    .events events osc99Pending
  else if isOsc content "777" then .events (parseOsc777 content) osc99Pending
  else
    match parseColorQuery host content with
    | some response => .events response osc99Pending
    | none => if isKnownUnsupportedIterm2Osc content then .events [] osc99Pending else .null

end Host

end Dormouse.Terminal
