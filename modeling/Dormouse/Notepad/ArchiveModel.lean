import Dormouse.Lib.Json
import Dormouse.Terminal.Events

/-!
# Dormouse.Notepad.ArchiveModel

The **notepad archive** (`lib/src/lib/notepad/types.ts` and `archive-model.ts`): what a host
stores of closed Surfaces' notes, the validation of what it hands back, and the mutation.
-/

namespace Dormouse.Notepad

open Terminal (Ms CwdState CwdSource PathKind)

/-! ### Notes and batches -/

/-- One styled span of captured terminal text. -/
structure RichTextRun where
  text : JsString
  bold : Bool
  italic : Bool
  foreground : Option JsString
  background : Option JsString
  deriving DecidableEq

inductive NoteContent
  | plain (text : JsString)
  | terminal (runs : List RichTextRun)
  deriving DecidableEq

structure ArchivedNote where
  id : JsString
  createdAt : Ms
  content : NoteContent
  deriving DecidableEq

inductive SurfaceKind
  | terminal
  | browser
  deriving DecidableEq

/-- The notes of one closed Surface. -/
structure ArchiveBatch where
  id : JsString
  closedAt : Ms
  surfaceTitle : JsString
  surfaceKind : SurfaceKind
  cwd : Option CwdState
  notes : List ArchivedNote
  deriving DecidableEq

/-- `NotepadArchiveV1`. -/
structure NotepadArchive where
  batches : List ArchiveBatch

def emptyArchive : NotepadArchive := ⟨[]⟩

structure NoteRef where
  batchId : JsString
  noteId : JsString
  deriving DecidableEq

structure ArchiveMutation where
  append : List ArchiveBatch
  deleteBatchIds : List JsString
  deleteNotes : List NoteRef
  deriving DecidableEq

/-! ### Validation -/

/-- A record with no key that its reader does not know. -/
def hasOnlyKeys (allowed : List JsString) : Json → Bool
  | .object fields => fields.all fun f => f.1 ∈ allowed
  | _ => false

/-- `/^#[0-9a-f]{6}$/`. -/
def isHexColor (color : JsString) : Bool :=
  decide (color.length = 7) && color.head? == some (unit '#') &&
    color.tail.all fun c => JsString.isDigit c || (0x61 ≤ c && c ≤ 0x66)

/-- A field that is either absent or `true`. -/
def readFlag (value : Json) (key : JsString) : Option Bool :=
  match value.field key with
  | none => some false
  | some (.bool true) => some true
  | _ => none

/-- A field that is either absent or a string that `accepts`. -/
def readOptional (accepts : JsString → Bool) (value : Json) (key : JsString) :
    Option (Option JsString) :=
  match value.field key with
  | none => some none
  | some (.string text) => if accepts text then some (some text) else none
  | _ => none

def readRun (value : Json) : Option RichTextRun :=
  if hasOnlyKeys [js "text", js "bold", js "italic", js "foreground", js "background"] value then do
    return {
      text := ← value.stringField (js "text")
      bold := ← readFlag value (js "bold")
      italic := ← readFlag value (js "italic")
      foreground := ← readOptional isHexColor value (js "foreground")
      background := ← readOptional isHexColor value (js "background") }
  else none

def readContent (value : Json) : Option NoteContent :=
  if value.stringField (js "kind") = some (js "plain") then
    if hasOnlyKeys [js "kind", js "text"] value then
      (value.stringField (js "text")).map .plain
    else none
  else if value.stringField (js "kind") = some (js "terminal") then
    if hasOnlyKeys [js "kind", js "runs"] value then
      match value.field (js "runs") with
      | some (.array runs) => (runs.mapM readRun).map .terminal
      | _ => none
    else none
  else none

/-- One archived note, or `none` for anything that is not exactly one. -/
def readArchivedNote (value : Json) : Option ArchivedNote :=
  if hasOnlyKeys [js "id", js "createdAt", js "content"] value then do
    return {
      id := ← (value.stringField (js "id")).filter (· ≠ [])
      createdAt := ← value.numberField (js "createdAt")
      content := ← (value.field (js "content")).bind readContent }
  else none

def readPathKind (text : JsString) : Option PathKind :=
  if text = js "posix" then some .posix
  else if text = js "windows" then some .windows
  else if text = js "unknown" then some .unknown
  else none

def readCwdSource (text : JsString) : Option CwdSource :=
  if text = js "osc7" then some .osc7
  else if text = js "osc9_9" then some .osc9_9
  else if text = js "osc633" then some .osc633
  else if text = js "osc1337" then some .osc1337
  else if text = js "process" then some .process
  else if text = js "manual" then some .manual
  else none

def readCwdState (value : Json) : Option CwdState :=
  if hasOnlyKeys [js "uri", js "path", js "host", js "scheme", js "pathKind", js "isRemote",
      js "source", js "updatedAt"] value then do
    return {
      path := ← value.stringField (js "path")
      pathKind := ← (value.stringField (js "pathKind")).bind readPathKind
      isRemote := ← match value.field (js "isRemote") with
        | some (.bool isRemote) => some isRemote
        | _ => none
      source := ← (value.stringField (js "source")).bind readCwdSource
      updatedAt := ← value.numberField (js "updatedAt")
      uri := ← readOptional (fun _ => true) value (js "uri")
      host := ← readOptional (fun _ => true) value (js "host")
      fileScheme := ← (readOptional (· = js "file") value (js "scheme")).map Option.isSome }
  else none

def readSurfaceKind (text : JsString) : Option SurfaceKind :=
  if text = js "terminal" then some .terminal
  else if text = js "browser" then some .browser
  else none

def readBatch (value : Json) : Option ArchiveBatch :=
  if hasOnlyKeys [js "id", js "closedAt", js "surfaceTitle", js "surfaceKind", js "cwd",
      js "notes"] value then do
    return {
      id := ← (value.stringField (js "id")).filter (· ≠ [])
      closedAt := ← value.numberField (js "closedAt")
      surfaceTitle := ← value.stringField (js "surfaceTitle")
      surfaceKind := ← (value.stringField (js "surfaceKind")).bind readSurfaceKind
      cwd := ← match value.field (js "cwd") with
        | some .null => some none
        | some cwd => (readCwdState cwd).map some
        | none => none
      notes := ← match value.field (js "notes") with
        | some (.array notes) => notes.mapM readArchivedNote
        | _ => none }
  else none

/-- A stored archive, validated; `none` for anything that is not exactly a v1 archive. -/
def readNotepadArchive (value : Json) : Option NotepadArchive :=
  if hasOnlyKeys [js "version", js "batches"] value then
    match value.numberField (js "version"), value.field (js "batches") with
    | some version, some (.array batches) =>
      if version = 1 then
        ((batches.mapM readBatch).filter fun batches =>
          decide (batches.map ArchiveBatch.id).Nodup).map NotepadArchive.mk
      else none
    | _, _ => none
  else none

/-! ### What is stored -/

/-- A field that is left out when it is absent. -/
def optionalField (key : JsString) : Option Json → List (JsString × Json)
  | some value => [(key, value)]
  | none => []

def RichTextRun.toJson (run : RichTextRun) : Json :=
  .object ([(js "text", .string run.text)] ++
    optionalField (js "bold") (if run.bold then some (.bool true) else none) ++
    optionalField (js "italic") (if run.italic then some (.bool true) else none) ++
    optionalField (js "foreground") (run.foreground.map .string) ++
    optionalField (js "background") (run.background.map .string))

def NoteContent.toJson : NoteContent → Json
  | .plain text => .object [(js "kind", .string (js "plain")), (js "text", .string text)]
  | .terminal runs =>
    .object [(js "kind", .string (js "terminal")),
      (js "runs", .array (runs.map RichTextRun.toJson))]

def ArchivedNote.toJson (note : ArchivedNote) : Json :=
  .object [(js "id", .string note.id), (js "createdAt", .number note.createdAt),
    (js "content", note.content.toJson)]

def pathKindName : PathKind → JsString
  | .posix => js "posix"
  | .windows => js "windows"
  | .unknown => js "unknown"

def cwdSourceName : CwdSource → JsString
  | .osc7 => js "osc7"
  | .osc9_9 => js "osc9_9"
  | .osc633 => js "osc633"
  | .osc1337 => js "osc1337"
  | .process => js "process"
  | .manual => js "manual"

def cwdToJson (cwd : CwdState) : Json :=
  .object ([(js "path", .string cwd.path), (js "pathKind", .string (pathKindName cwd.pathKind)),
      (js "isRemote", .bool cwd.isRemote), (js "source", .string (cwdSourceName cwd.source)),
      (js "updatedAt", .number cwd.updatedAt)] ++
    optionalField (js "uri") (cwd.uri.map .string) ++
    optionalField (js "host") (cwd.host.map .string) ++
    optionalField (js "scheme") (if cwd.fileScheme then some (.string (js "file")) else none))

def surfaceKindName : SurfaceKind → JsString
  | .terminal => js "terminal"
  | .browser => js "browser"

def ArchiveBatch.toJson (batch : ArchiveBatch) : Json :=
  .object [(js "id", .string batch.id), (js "closedAt", .number batch.closedAt),
    (js "surfaceTitle", .string batch.surfaceTitle),
    (js "surfaceKind", .string (surfaceKindName batch.surfaceKind)),
    (js "cwd", (batch.cwd.map cwdToJson).getD .null),
    (js "notes", .array (batch.notes.map ArchivedNote.toJson))]

def NotepadArchive.toJson (archive : NotepadArchive) : Json :=
  .object [(js "version", .number 1), (js "batches", .array (archive.batches.map ArchiveBatch.toJson))]

/-! ### The mutation -/

def noteIds (batches : List ArchiveBatch) : List JsString :=
  batches.flatMap fun batch => batch.notes.map ArchivedNote.id

/-- Note deletions; a batch that they empty is dropped. -/
def deleteNotes (gone : List NoteRef) (batches : List ArchiveBatch) : List ArchiveBatch :=
  batches.flatMap fun batch =>
    if gone.any (·.batchId = batch.id) then
      let notes := batch.notes.filter fun note => (⟨batch.id, note.id⟩ : NoteRef) ∉ gone
      if notes = [] then [] else [{ batch with notes := notes }]
    else [batch]

/-- A batch is appended unless its id is there, without the notes that are there. -/
def appendBatch (batches : List ArchiveBatch) (batch : ArchiveBatch) : List ArchiveBatch :=
  if batch.id ∈ batches.map ArchiveBatch.id then batches
  else
    let notes := batch.notes.filter fun note => note.id ∉ noteIds batches
    if notes = [] then batches else batches ++ [{ batch with notes := notes }]

/-- Batch deletes, then note deletes, then appends, idempotent by batch and note id. -/
def applyArchiveMutation (archive : NotepadArchive) (mutation : ArchiveMutation) :
    NotepadArchive where
  batches := mutation.append.foldl appendBatch
    (deleteNotes mutation.deleteNotes
      (archive.batches.filter fun batch => batch.id ∉ mutation.deleteBatchIds))

def isEmptyMutation (mutation : ArchiveMutation) : Bool :=
  mutation.append.isEmpty && mutation.deleteBatchIds.isEmpty && mutation.deleteNotes.isEmpty

end Dormouse.Notepad
