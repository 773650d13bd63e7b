import Dormouse.Terminal.Events

/-!
# Dormouse.Terminal.CommandLine

**Command lines** as `terminal-state.ts` reads them: the dialect-free tokenizer, the
program name WATCHING rules are keyed on, the display summary, and what a
`commandStart` event resolves to.
-/

namespace Dormouse.Terminal

open JsString

/-! ### Tokens -/

/-- The `POSIX_ESCAPABLE` set. -/
def posixEscapable (c : UInt16) : Bool := (js " \t!\"#$&'()*;<>?[\\]\u0060\x7b|\x7d~").contains c

/-- Where the tokenizer stands: the word so far, the open quote, and whether the
next character is escaped or already read. -/
structure TokenScan where
  current : JsString
  quote : Option UInt16
  escaping : Bool
  skip : Bool

def TokenScan.push (s : TokenScan) : List JsString := if s.current = [] then [] else [s.current]

def TokenScan.add (s : TokenScan) (c : UInt16) : TokenScan := { s with current := s.current ++ [c] }

def TokenScan.clear (s : TokenScan) : TokenScan := { s with current := [] }

/-- The loop over the characters of the line. -/
def scanTokens (s : TokenScan) : JsString → List JsString
  | [] => s.push
  | char :: rest =>
    if s.skip then scanTokens { s with skip := false } rest
    else if s.escaping then scanTokens { s.add char with escaping := false } rest
    else if char = unit '\\' ∧ s.quote ≠ some (unit '\'') then
      if rest.head?.any posixEscapable then scanTokens { s with escaping := true } rest
      else scanTokens (s.add char) rest
    else
      match s.quote with
      | some quote =>
        if char = quote then scanTokens { s with quote := none } rest
        else scanTokens (s.add char) rest
      | none =>
        if char = unit '"' ∨ char = unit '\'' then scanTokens { s with quote := some char } rest
        else if isWhitespace char then s.push ++ scanTokens s.clear rest
        else if char = unit '&' ∧ rest.head? = some (unit '&') then
          s.push ++ js "&&" :: scanTokens { s.clear with skip := true } rest
        else if char = unit '|' ∧ rest.head? = some (unit '|') then
          s.push ++ js "||" :: scanTokens { s.clear with skip := true } rest
        else if char = unit '|' ∨ char = unit ';' ∨ char = unit '&' then
          s.push ++ [char] :: scanTokens s.clear rest
        else scanTokens (s.add char) rest

def tokenizeCommand (input : JsString) : List JsString := scanTokens ⟨[], none, false, false⟩ input

/-! ### The program a command runs -/

def isBoundary (token : JsString) : Bool :=
  token == js "|" || token == js "&&" || token == js "||" || token == js ";" || token == js "&"

/-- `^[A-Za-z_][A-Za-z0-9_]*=` -/
def isEnvAssignment : JsString → Bool
  | [] => false
  | c :: rest =>
    (isUpper c || isLower c || c == unit '_') &&
      (rest.dropWhile fun c => isUpper c || isLower c || isDigit c || c == unit '_').head? ==
        some (unit '=')

def takePrimaryCommandTokens (tokens : List JsString) : List JsString :=
  let words := if tokens.head? = some (js "&") then tokens.tail else tokens
  let command := (words.takeWhile (!isBoundary ·)).filter (· ≠ [])
  match command.dropWhile isEnvAssignment with
  | [] => []
  | word :: rest => if word = js "env" then rest.dropWhile isEnvAssignment else word :: rest

def isSlash (c : UInt16) : Bool := c == unit '\\' || c == unit '/'

/-- `command.replace(/^.*[\\/]/, '')`: the dot stops at a line terminator. -/
def commandBasename (command : JsString) : JsString :=
  let line := command.takeWhile (!isLineTerminator ·)
  command.drop (line.length - (line.reverse.takeWhile (!isSlash ·)).length)

def windowsExecutableSuffixes : List JsString :=
  [js ".exe", js ".cmd", js ".bat", js ".com", js ".ps1"]

/-- Drop a launcher suffix, whatever its case. -/
def dropExecutableSuffix (command : JsString) : JsString :=
  if windowsExecutableSuffixes.contains (asciiLower (command.drop (command.length - 4))) then
    command.take (command.length - 4)
  else command

def commandProgramName (command : JsString) : JsString :=
  dropExecutableSuffix (commandBasename command)

/-- The key WATCHING rules are stored under. -/
def commandArgv0 (raw : JsString) : Option JsString :=
  match takePrimaryCommandTokens (tokenizeCommand (trim raw)) with
  | [] => none
  | command :: _ => if commandProgramName command = [] then none else some (commandProgramName command)

/-! ### The display summary -/

def DEFAULT_COMMAND_TITLE : JsString := js "shell"

def COMMAND_TITLE_LIMIT : Nat := 48

def commandTitleTokens : List JsString → List JsString
  | [] => []
  | command :: rest =>
    let program := commandProgramName command
    if program = js "npm" ∧ rest.head? = some (js "run") then program :: rest.take 2
    else if program = js "pnpm" ∨ program = js "yarn" ∨ program = js "bun" then
      program :: rest.take 2
    else if program = js "docker" ∧ rest.head? = some (js "compose") then program :: rest.take 2
    else if program = js "cargo" ∧ rest.head? = some (js "watch") then program :: rest.take 3
    else if program = js "ssh" then program :: rest.take 1
    else if program = js "vim" ∨ program = js "nvim" ∨ program = js "vi" ∨
        program = js "pytest" then [program]
    else program :: rest.take 2

def truncateCommandTitle (title : JsString) : JsString :=
  if title.length ≤ COMMAND_TITLE_LIMIT then title
  else trimEnd ((codePoints title).take (COMMAND_TITLE_LIMIT - 3)).flatten ++ js "..."

def summarizeCommandLine (raw : JsString) : JsString :=
  let tokens := tokenizeCommand (trim raw)
  match takePrimaryCommandTokens tokens with
  | [] => DEFAULT_COMMAND_TITLE
  | commandTokens =>
    let suffix :=
      if tokens.contains (js "|") then js " | ..."
      else if tokens.any fun token => token == js "&&" || token == js "||" || token == js ";" then
        js " ..."
      else []
    truncateCommandTitle (join (js " ") (commandTitleTokens commandTokens) ++ suffix)

/-! ### Command starts -/

structure ResolvedCommandStart where
  rawCommandLine : Option JsString
  displayCommand : JsString
  source : CommandRunSource
  startedAt : Ms

/-- A `commandStart` event together with the staged command line. -/
def resolveCommandStart (pendingCommandLine : Option JsString) (source : Option CommandRunSource)
    (startedAt : Option Ms) (now : Ms) (fallbackTitle : JsString) : ResolvedCommandStart :=
  let reported : Bool := pendingCommandLine.any (· ≠ [])
  { rawCommandLine := pendingCommandLine
    displayCommand :=
      if reported then summarizeCommandLine (pendingCommandLine.getD []) else fallbackTitle
    source :=
      if source = some .osc633_boundaries ∧ reported then .osc633_E
      else source.getD (if reported then .osc633_E else .osc133_boundaries)
    startedAt := startedAt.getD now }

end Dormouse.Terminal
