import Mathlib.Data.List.Dedup
import Dormouse.Lib.InsertionMap
import Dormouse.Terminal.OscContent
import Dormouse.Terminal.PaneState

/-!
# Dormouse.Terminal.DirectoryLabels

The **shortest unique labels** of working directories (`shortestUniqueCwdLabels` of
`terminal-state.ts`): ever more trailing segments until no two labels are the same, and the host
where that never happens.
-/

namespace Dormouse.Terminal

open JsString

/-- `includeHost` of `DirectoryDisplayOptions`. -/
inductive HostMode
  | auto
  | always
  | never
  deriving DecidableEq

/-- `cwd.host ?? ''`. -/
def CwdState.hostName (cwd : CwdState) : JsString := cwd.host.getD []

/-! ### Paths -/

structure PathParts where
  root : JsString
  segments : List JsString
  separator : JsString

/-- `path.split(separator).filter(Boolean)`. -/
def pathSegments (separator : UInt16) (path : JsString) : List JsString :=
  (path.splitOn separator).filter (· ≠ [])

/-- `(.*)$`, behind an optional backslash. -/
def restOfLine (text : JsString) : Option JsString :=
  let rest := if text.head? = some (unit '\\') then text.tail else text
  if rest.any isLineTerminator then none else some rest

/-- `/^\\\\([^\\]+)\\([^\\]+)\\?(.*)$/`: server, share and rest. -/
def matchUnc (normalized : JsString) : Option (JsString × JsString × JsString) :=
  match normalized with
  | first :: second :: rest =>
    let server := rest.takeWhile (· ≠ unit '\\')
    let behind := (rest.drop server.length).tail
    let share := behind.takeWhile (· ≠ unit '\\')
    if first = unit '\\' ∧ second = unit '\\' ∧ server ≠ [] ∧ share ≠ [] then
      (restOfLine (behind.drop share.length)).map fun tail => (server, share, tail)
    else none
  | _ => none

/-- `/^([A-Za-z]:)\\?(.*)$/`: drive and rest. -/
def matchDrive (normalized : JsString) : Option (JsString × JsString) :=
  match normalized with
  | drive :: colon :: rest =>
    if isLetter drive ∧ colon = unit ':' then
      (restOfLine rest).map fun tail => ([drive, colon], tail)
    else none
  | _ => none

def windowsPathParts (path : JsString) : PathParts :=
  let normalized := path.map fun c => if c = unit '/' then unit '\\' else c
  match matchUnc normalized with
  | some (server, share, rest) =>
    ⟨js "\\\\" ++ server ++ js "\\" ++ share ++ js "\\", pathSegments (unit '\\') rest, js "\\"⟩
  | none =>
    match matchDrive normalized with
    | some (drive, rest) => ⟨drive ++ js "\\", pathSegments (unit '\\') rest, js "\\"⟩
    | none => ⟨[], pathSegments (unit '\\') normalized, js "\\"⟩

def pathParts (path : JsString) (kind : PathKind) : PathParts :=
  match kind with
  | .windows => windowsPathParts path
  | _ =>
    ⟨if path.head? = some (unit '/') then js "/" else [], pathSegments (unit '/') path, js "/"⟩

def DEFAULT_DIRECTORY_LABEL : JsString := js "Unknown directory"

def formatTrailingPath (path : JsString) (kind : PathKind) (depth : Nat) : JsString :=
  let parts := pathParts path kind
  if parts.segments = [] then
    if parts.root ≠ [] then parts.root else if path ≠ [] then path else DEFAULT_DIRECTORY_LABEL
  else
    let tail := join parts.separator (parts.segments.drop (parts.segments.length - max 1 depth))
    if kind = .windows ∧ parts.root ≠ [] ∧ parts.segments.length ≤ depth then parts.root ++ tail
    else tail

/-! ### Labels -/

/-- Labels by identity. -/
abbrev CwdLabels := InsertionMap JsString JsString

/-- The first of each identity. -/
def uniqueByIdentity (cwds : List CwdState) : List CwdState :=
  (cwds.foldl (fun result cwd =>
    if result.has (cwdIdentity cwd) then result else result.set (cwdIdentity cwd) cwd)
    (InsertionMap.empty : InsertionMap JsString CwdState)).values

/-- The label of an identity, if there is one and it is not empty. -/
def labelOf (labels : CwdLabels) (cwd : CwdState) : Option JsString :=
  (labels.get (cwdIdentity cwd)).filter (· ≠ [])

def findLabelCollisions (cwds : List CwdState) (labels : CwdLabels) : List JsString :=
  let counts := cwds.foldl (fun counts cwd =>
    match labelOf labels cwd with
    | none => counts
    | some label => counts.set label ((counts.get label).getD 0 + 1))
    (InsertionMap.empty : InsertionMap JsString Nat)
  (counts.entries.filter fun e => 1 < e.2).map Prod.fst

/-- The CWDs of each label, in order. -/
def labelGroups (cwds : List CwdState) (baseLabels : CwdLabels) :
    InsertionMap JsString (List CwdState) :=
  cwds.foldl (fun groups cwd =>
    match labelOf baseLabels cwd with
    | none => groups
    | some label => groups.set label ((groups.get label).getD [] ++ [cwd])) .empty

/-- More than one, with one path on several hosts. -/
def needsHosts (group : List CwdState) : Bool :=
  1 < group.length && (group.map CwdState.path).dedup.length < group.length &&
    1 < (group.map CwdState.hostName).dedup.length

def shouldIncludeHost (mode : HostMode) (group : List CwdState) (cwd : CwdState) : Bool :=
  mode = .always || mode = .auto && cwd.hostName ≠ [] && (cwd.isRemote || needsHosts group)

/-- ``${cwd.host}:${label}``. -/
def hostLabel (cwd : CwdState) (label : JsString) : JsString := cwd.hostName ++ js ":" ++ label

def withRequiredHostPrefixes (cwds : List CwdState) (baseLabels : CwdLabels) (mode : HostMode) :
    CwdLabels :=
  (labelGroups cwds baseLabels).entries.foldl (fun result group =>
    group.2.foldl (fun result cwd =>
      if shouldIncludeHost mode group.2 cwd ∧ cwd.hostName ≠ [] then
        result.set (cwdIdentity cwd) (hostLabel cwd group.1)
      else result) result) baseLabels

/-- The labels of one depth. -/
def labelsAtDepth (cwds : List CwdState) (mode : HostMode) (depth : Nat) : CwdLabels :=
  withRequiredHostPrefixes cwds
    (cwds.foldl (fun labels cwd =>
      labels.set (cwdIdentity cwd) (formatTrailingPath cwd.path cwd.pathKind depth)) .empty) mode

/-- The loop over the depths: the labels it ends with, and whether it returns them. -/
def searchDepths (cwds : List CwdState) (mode : HostMode) : List Nat → CwdLabels → CwdLabels × Bool
  | [], labels => (labels, false)
  | depth :: depths, _ =>
    let labels := labelsAtDepth cwds mode depth
    if findLabelCollisions cwds labels = [] then (labels, true)
    else searchDepths cwds mode depths labels

/-- The last resort: the host in front of what still collides. Every identity has a label by then. -/
def prefixHosts (cwds : List CwdState) (mode : HostMode) (labels : CwdLabels) : CwdLabels :=
  let remainingCollisions := findLabelCollisions cwds labels
  cwds.foldl (fun labels cwd =>
    let label := (labels.get (cwdIdentity cwd)).getD []
    let needsHost := mode = .always || mode = .auto && (cwd.isRemote || label ∈ remainingCollisions)
    labels.set (cwdIdentity cwd)
      (if needsHost ∧ cwd.hostName ≠ [] then hostLabel cwd label else label)) labels

def maxDepth (cwds : List CwdState) : Nat :=
  (cwds.map fun cwd => (pathParts cwd.path cwd.pathKind).segments.length).foldr max 1

def shortestUniqueCwdLabels (cwds : List CwdState) (mode : HostMode) : CwdLabels :=
  let uniqueCwds := uniqueByIdentity cwds
  if uniqueCwds = [] then .empty
  else
    match searchDepths uniqueCwds mode (List.range' 1 (maxDepth uniqueCwds)) .empty with
    | (labels, true) => labels
    | (labels, false) => prefixHosts uniqueCwds mode labels

end Dormouse.Terminal
