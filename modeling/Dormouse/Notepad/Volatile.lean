import Dormouse.Lib.InsertionMap
import Dormouse.Notepad.ArchiveModel

/-!
# Dormouse.Notepad.Volatile

The **volatile notepad mirror** of the extension host (`notepad-volatile.ts`): the live notes of
every Surface, the router that reported each last, and the archive deletions that are staged.

A run is the list of the calls made; every snapshot in it is whatever a webview sent.
-/

namespace Dormouse.Notepad

open Terminal (CwdState)

/-! ### What is mirrored -/

/-- What a webview mirrors of one live Surface. -/
structure VolatileSurfaceNotes where
  surfaceId : JsString
  surfaceTitle : JsString
  surfaceKind : SurfaceKind
  cwd : Option CwdState
  terminalId : Option JsString
  pendingBatchId : Option JsString
  notes : List ArchivedNote

/-- Archive deletions of an open Archive view. -/
structure StagedDeletions where
  deleteBatchIds : List JsString
  deleteNotes : List NoteRef

def emptyStaged : StagedDeletions := ⟨[], []⟩

structure VolatileNotepadSnapshot where
  surfaces : List VolatileSurfaceNotes
  stagedDeletions : StagedDeletions

/-! ### What is let in -/

/-- A field that is there and not `null`. -/
def definedField (value : Json) (key : JsString) : Option Json :=
  match value.field key with
  | some .null => none
  | other => other

/-- A field that is a non-empty string, as `readMirrorTerminalId` reads one. -/
def readMirrorId (value : Json) (key : JsString) : Option JsString :=
  (value.stringField key).filter (· ≠ [])

/-- The archive that these notes would make up alone. -/
def probeArchive (surface : Json) : Json :=
  .object [(js "version", .number 1), (js "batches", .array [.object
    ([(js "id", .string (js "probe")), (js "closedAt", .number 0)] ++
      optionalField (js "surfaceTitle") (surface.field (js "surfaceTitle")) ++
      optionalField (js "surfaceKind") (surface.field (js "surfaceKind")) ++
      [(js "cwd", (definedField surface (js "cwd")).getD .null),
        (js "notes", (definedField surface (js "notes")).getD (.array []))])])]

/-- Keep only what the archive validator will read back. -/
def sanitizeSurface (value : Json) : Option VolatileSurfaceNotes :=
  if value.isRecord then do
    let surfaceId ← (value.stringField (js "surfaceId")).filter (· ≠ [])
    let archive ← readNotepadArchive (probeArchive value)
    let batch ← archive.batches.head?
    return {
      surfaceId := surfaceId
      surfaceTitle := batch.surfaceTitle
      surfaceKind := batch.surfaceKind
      cwd := batch.cwd
      terminalId := readMirrorId value (js "terminalId")
      pendingBatchId := readMirrorId value (js "pendingBatchId")
      notes := batch.notes }
  else none

/-- The elements of a field that is an array. -/
def arrayField (value : Json) (key : JsString) : List Json :=
  match value.field key with
  | some (.array items) => items
  | _ => []

def sanitizeStaged (value : Option Json) : StagedDeletions :=
  match value with
  | none => emptyStaged
  | some staged =>
    { deleteBatchIds :=
        ((arrayField staged (js "deleteBatchIds")).filterMap Json.asString).filter (· ≠ [])
      deleteNotes := (arrayField staged (js "deleteNotes")).filterMap fun entry => do
        return {
          batchId := ← entry.stringField (js "batchId")
          noteId := ← entry.stringField (js "noteId") } }

/-- The Surfaces of a snapshot that are let in. -/
def acceptedSurfaces (snapshot : Json) : List VolatileSurfaceNotes :=
  (arrayField snapshot (js "surfaces")).filterMap sanitizeSurface

/-! ### The mirror -/

structure VolatileMirror where
  mirroredSurfaces : InsertionMap JsString VolatileSurfaceNotes
  surfaceOwner : InsertionMap JsString JsString
  stagedByRouter : InsertionMap JsString StagedDeletions

namespace VolatileMirror

def fresh : VolatileMirror := ⟨.empty, .empty, .empty⟩

/-- Drop a Surface. -/
def forget (mirror : VolatileMirror) (id : JsString) : VolatileMirror :=
  { mirror with
    mirroredSurfaces := mirror.mirroredSurfaces.delete id
    surfaceOwner := mirror.surfaceOwner.delete id }

/-- Store what a router reported of a Surface. -/
def keep (routerId : JsString) (mirror : VolatileMirror) (surface : VolatileSurfaceNotes) :
    VolatileMirror :=
  { mirror with
    mirroredSurfaces := mirror.mirroredSurfaces.set surface.surfaceId surface
    surfaceOwner := mirror.surfaceOwner.set surface.surfaceId routerId }

/-- Every Surface this router currently owns. -/
def surfaceIdsForRouter (mirror : VolatileMirror) (routerId : JsString) : List JsString :=
  (mirror.surfaceOwner.entries.filter fun e => e.2 = routerId).map Prod.fst

/-- Replace one router's whole contribution: what it owns and no longer reports is retired. -/
def setVolatileForRouter (mirror : VolatileMirror) (routerId : JsString) (snapshot : Json) :
    VolatileMirror :=
  let surfaces := acceptedSurfaces snapshot
  let next := surfaces.map VolatileSurfaceNotes.surfaceId
  let retired := ((mirror.surfaceIdsForRouter routerId).filter fun id => id ∉ next).foldl forget mirror
  let kept := surfaces.foldl (keep routerId) retired
  { kept with
    stagedByRouter := kept.stagedByRouter.set routerId
      (sanitizeStaged (snapshot.field (js "stagedDeletions"))) }

/-- Remove and return the mirrored notes of these Surfaces. -/
def takeVolatileForSurfaces (mirror : VolatileMirror) :
    List JsString → VolatileMirror × List VolatileSurfaceNotes
  | [] => (mirror, [])
  | id :: ids =>
    match mirror.mirroredSurfaces.get id with
    | none => mirror.takeVolatileForSurfaces ids
    | some surface =>
      let rest := (mirror.forget id).takeVolatileForSurfaces ids
      (rest.1, surface :: rest.2)

/-- Take one router's staged archive deletions. -/
def takeStagedForRouter (mirror : VolatileMirror) (routerId : JsString) :
    VolatileMirror × StagedDeletions :=
  ({ mirror with stagedByRouter := mirror.stagedByRouter.delete routerId },
    (mirror.stagedByRouter.get routerId).getD emptyStaged)

/-- Drain one router's mirror: what its disposal has to archive. -/
def takeVolatileForRouter (mirror : VolatileMirror) (routerId : JsString) :
    VolatileMirror × VolatileNotepadSnapshot :=
  let taken := mirror.takeVolatileForSurfaces (mirror.surfaceIdsForRouter routerId)
  let staged := taken.1.takeStagedForRouter routerId
  (staged.1, ⟨taken.2, staged.2⟩)

/-- The staged deletions of all routers as one. -/
def mergeStaged (staged : List StagedDeletions) : StagedDeletions where
  deleteBatchIds :=
    ((staged.flatMap StagedDeletions.deleteBatchIds).foldl (fun ids id => ids.set id ())
      (InsertionMap.empty : InsertionMap JsString Unit)).keys
  deleteNotes :=
    ((staged.flatMap StagedDeletions.deleteNotes).foldl
      (fun refs r => refs.set (r.batchId ++ js " " ++ r.noteId) r)
      (InsertionMap.empty : InsertionMap JsString NoteRef)).values

/-- Drain everything. -/
def takeAllVolatile (mirror : VolatileMirror) : VolatileMirror × VolatileNotepadSnapshot :=
  (fresh, ⟨mirror.mirroredSurfaces.values, mergeStaged mirror.stagedByRouter.values⟩)

/-- What a resuming webview boots with; nothing is taken. -/
def snapshotForLiveResume (mirror : VolatileMirror) (liveSurfaceIds : List JsString) :
    Option VolatileNotepadSnapshot :=
  let surfaces := liveSurfaceIds.filterMap mirror.mirroredSurfaces.get
  if surfaces = [] then none else some ⟨surfaces, emptyStaged⟩

end VolatileMirror

/-! ### Runs -/

/-- A call of one of the exported functions. -/
inductive MirrorCall
  | setVolatileForRouter (routerId : JsString) (snapshot : Json)
  | takeVolatileForSurfaces (ids : List JsString)
  | takeVolatileForRouter (routerId : JsString)
  | takeStagedForRouter (routerId : JsString)
  | takeAllVolatile
  | snapshotForLiveResume (liveSurfaceIds : List JsString)

/-- What a call makes of the mirror, and the Surfaces that it takes out. -/
def VolatileMirror.answer (mirror : VolatileMirror) :
    MirrorCall → VolatileMirror × List VolatileSurfaceNotes
  | .setVolatileForRouter routerId snapshot => (mirror.setVolatileForRouter routerId snapshot, [])
  | .takeVolatileForSurfaces ids => mirror.takeVolatileForSurfaces ids
  | .takeVolatileForRouter routerId =>
    ((mirror.takeVolatileForRouter routerId).1, (mirror.takeVolatileForRouter routerId).2.surfaces)
  | .takeStagedForRouter routerId => ((mirror.takeStagedForRouter routerId).1, [])
  | .takeAllVolatile => (mirror.takeAllVolatile.1, mirror.takeAllVolatile.2.surfaces)
  | .snapshotForLiveResume _ => (mirror, [])

/-- The mirror after these calls. -/
def mirrorAfter (calls : List MirrorCall) : VolatileMirror :=
  calls.foldl (fun mirror call => (mirror.answer call).1) .fresh

/-- The Surfaces that a call takes out after the earlier ones. -/
def takenBy (calls : List MirrorCall) (call : MirrorCall) : List VolatileSurfaceNotes :=
  ((mirrorAfter calls).answer call).2

end Dormouse.Notepad
