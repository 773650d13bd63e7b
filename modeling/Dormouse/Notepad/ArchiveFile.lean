import Dormouse.Lib.Directories
import Dormouse.Lib.Transition
import Dormouse.Notepad.ArchiveModel

/-!
# Dormouse.Notepad.ArchiveFile

The **archive file and its lock** (`vscode-ext/src/notepad-archive-file.ts` and
`notepad-archive-store.ts`): calls of `withArchiveFile` in any number of processes, one
file-system call at a time.

Any file-system call may fail. A process may crash between two of them; its calls are gone
then, what they left is not, and its pid is reported dead until another process has it. What
`writeFile` makes under a name of its own, nobody else sees: the rename that publishes it is
one step with it.
-/

namespace Dormouse.Notepad

/-! ### The envelope -/

/-- What the archive file needs of its platform. -/
structure ArchivePlatform where
  parseJson : JsString → Option Json
  stringify : Json → JsString
  sha256Hex : JsString → JsString

namespace ArchivePlatform

variable (platform : ArchivePlatform)

/-- `encode`, with the random revision that it draws. -/
def encode (revision : JsString) (raw : Option JsString) : JsString :=
  platform.stringify (.object [(js "revision", .string revision),
    (js "raw", (raw.map Json.string).getD .null)])

/-- What the file stores; a file that is no envelope is exposed as it is. -/
def rawOf (bytes : JsString) : Option JsString :=
  match platform.parseJson bytes with
  | some envelope =>
    if envelope.keyCount = 2 ∧ (envelope.stringField (js "revision")).isSome then
      match envelope.field (js "raw") with
      | some (.string raw) => some raw
      | some .null => none
      | _ => some bytes
    else some bytes
  | none => some bytes

/-- The token that names the stored version. -/
def revisionOf (bytes : JsString) : Option JsString :=
  (platform.rawOf bytes).map fun _ => platform.sha256Hex bytes

def readArchive (raw : JsString) : Option NotepadArchive :=
  (platform.parseJson raw).bind readNotepadArchive

/-- What a mutation makes of what is stored; `none` when that is unreadable. -/
def mutateRaw (mutation : ArchiveMutation) (raw : Option JsString) : Option JsString :=
  (match raw with
    | none => some emptyArchive
    | some raw => platform.readArchive raw).map fun archive =>
      platform.stringify (applyArchiveMutation archive mutation).toJson

end ArchivePlatform

/-! ### Calls -/

/-- The name of a call's file in the lock: its process, and a random part of its own. -/
structure LockOwner where
  pid : Nat
  uuid : JsString
  deriving DecidableEq

inductive LockPath
  | lock
  | candidate (owner : LockOwner)
  deriving DecidableEq

inductive ArchiveOperation
  | load
  | save (json : JsString) (baseRevision : Option JsString)
  | mutate (mutation : ArchiveMutation)
  | resetUnreadable
  deriving DecidableEq

inductive ArchiveAnswer
  | loaded (raw : Option JsString) (revision : Option JsString)
  | ok
  | conflict
  /-- A mutation or a recovery resolves. -/
  | resolved
  | rejected
  deriving DecidableEq

/-- What a call does next. -/
inductive ArchiveStage
  /-- `mkdir(candidate)`. -/
  | makeCandidate
  /-- `writeFile(candidate/owner)`. -/
  | writeOwner
  /-- `rename(candidate, lock)`. -/
  | take
  /-- `readdir(lock)`. -/
  | list
  /-- `process.kill(pid, 0)`, for the first. -/
  | probe (names : List LockOwner)
  /-- `unlink(lock/name)`. -/
  | reap (name : LockOwner) (names : List LockOwner)
  /-- `rmdir(lock)`. -/
  | sweep
  /-- `unlink(candidate/owner)`, on the way out. -/
  | abandonFile
  /-- `rmdir(candidate)`. -/
  | abandon
  /-- The same two, once the lock is taken. -/
  | settle
  /-- `readFile` of the archive. -/
  | read
  /-- The legacy archive, to be written to the file that is not there. -/
  | importing
  /-- What the operation does with what it has read. -/
  | operate (bytes : JsString)
  /-- The rename of `reset`'s copy. -/
  | quarantine (bytes : JsString)
  /-- The rename that writes the file. -/
  | publish (bytes next : JsString) (answer : ArchiveAnswer)
  /-- What `atomicWrite` still does after it. -/
  | published (answer : ArchiveAnswer)
  /-- `unlink(lock/owner)`. -/
  | release (answer : ArchiveAnswer)
  /-- `rmdir(lock)`. -/
  | releaseDir (answer : ArchiveAnswer)

namespace ArchiveStage

/-- Between the rename that takes the lock and the unlink that gives it back. -/
def holds : ArchiveStage → Bool
  | settle | read | importing | operate _ | quarantine _ | publish .. | published _
  | release _ => true
  | _ => false

/-- Within the operation, and the reads and writes around it. -/
def inside : ArchiveStage → Bool
  | read | importing | operate _ | quarantine _ | publish .. | published _ => true
  | _ => false

end ArchiveStage

structure ArchiveCall where
  operation : ArchiveOperation
  stage : ArchiveStage

/-- A rename onto the archive file: what was there, and what is. -/
structure ArchiveWrite where
  owner : LockOwner
  operation : ArchiveOperation
  /-- Whether it imports the legacy archive. -/
  imports : Bool
  found : Option JsString
  next : JsString

structure ArchiveWorld where
  dirs : Directories LockPath LockOwner
  /-- The bytes of the archive file. -/
  stored : Option JsString
  /-- The pids of the processes that run. -/
  alive : List Nat
  /-- The calls in flight, by their names. -/
  calls : InsertionMap LockOwner ArchiveCall
  /-- Every name ever drawn. -/
  drawn : List LockOwner
  writes : List ArchiveWrite
  answers : List (LockOwner × ArchiveOperation × ArchiveAnswer)

namespace ArchiveWorld

def fresh (stored : Option JsString) : ArchiveWorld := ⟨⟨.empty⟩, stored, [], .empty, [], [], []⟩

/-- A process starts. -/
def boot (w : ArchiveWorld) (pid : Nat) : ArchiveWorld := { w with alive := pid :: w.alive }

def crash (w : ArchiveWorld) (pid : Nat) : ArchiveWorld :=
  { w with
    alive := w.alive.filter (· ≠ pid)
    calls := w.calls.filter fun owner _ => owner.pid ≠ pid }

def start (w : ArchiveWorld) (owner : LockOwner) (operation : ArchiveOperation) : ArchiveWorld :=
  { w with
    calls := w.calls.set owner ⟨operation, .makeCandidate⟩
    drawn := owner :: w.drawn }

def goOn (w : ArchiveWorld) (owner : LockOwner) (call : ArchiveCall) (stage : ArchiveStage) :
    ArchiveWorld :=
  { w with calls := w.calls.set owner { call with stage := stage } }

def finish (w : ArchiveWorld) (owner : LockOwner) (call : ArchiveCall) (answer : ArchiveAnswer) :
    ArchiveWorld :=
  { w with
    calls := w.calls.delete owner
    answers := w.answers ++ [(owner, call.operation, answer)] }

/-- Bytes are renamed onto the archive file. -/
def store (w : ArchiveWorld) (owner : LockOwner) (call : ArchiveCall) (imports : Bool)
    (next : JsString) : ArchiveWorld :=
  { w with
    stored := some next
    writes := w.writes ++ [⟨owner, call.operation, imports, w.stored, next⟩] }

end ArchiveWorld

/-- What a step gets from outside: whether the deadline has passed, what `globalState` has,
and a random revision. -/
structure ArchiveInput where
  renames : Bool
  expired : Bool
  legacy : Option JsString
  revision : JsString

namespace ArchiveWorld

variable (platform : ArchivePlatform)

/-- The operation: what it answers, or writes and then answers. -/
def operate (w : ArchiveWorld) (owner : LockOwner) (call : ArchiveCall)
    (bytes revision : JsString) : ArchiveWorld :=
  let raw := platform.rawOf bytes
  match call.operation with
  | .load => w.goOn owner call (.release (.loaded raw (platform.revisionOf bytes)))
  | .save json baseRevision =>
    if baseRevision ≠ platform.revisionOf bytes then w.goOn owner call (.release .conflict)
    else w.goOn owner call (.publish bytes (platform.encode revision (some json)) .ok)
  | .mutate mutation =>
    match platform.mutateRaw mutation raw with
    | none => w.goOn owner call (.release .rejected)
    | some next => w.goOn owner call (.publish bytes (platform.encode revision (some next)) .resolved)
  | .resetUnreadable =>
    -- A recovery button can outlive another webview's successful recovery.
    if raw.all fun raw => (platform.readArchive raw).isSome then
      w.goOn owner call (.release .resolved)
    else w.goOn owner call (.quarantine bytes)

/-- A call goes on by one file-system call. -/
def step (w : ArchiveWorld) (owner : LockOwner) (input : ArchiveInput) : ArchiveWorld :=
  match w.calls.get owner with
  | none => w
  | some call =>
    let candidate := LockPath.candidate owner
    match call.stage with
    | .makeCandidate => { w with dirs := w.dirs.mkdir candidate }.goOn owner call .writeOwner
    | .writeOwner => { w with dirs := w.dirs.create candidate owner }.goOn owner call .take
    | .take =>
      match if input.renames then w.dirs.rename candidate .lock else none with
      | some dirs => { w with dirs := dirs }.goOn owner call .settle
      | none => w.goOn owner call .list
    | .list => w.goOn owner call (.probe ((w.dirs.readdir .lock).getD []))
    | .probe [] => w.goOn owner call .sweep
    | .probe (name :: names) =>
      if name.pid ∈ w.alive then w.goOn owner call (.probe names)
      else w.goOn owner call (.reap name names)
    | .reap name names =>
      { w with dirs := w.dirs.unlink .lock name }.goOn owner call (.probe names)
    | .sweep =>
      { w with dirs := w.dirs.rmdir .lock }.goOn owner call
        (if input.expired then .abandonFile else .take)
    | .abandonFile =>
      { w with dirs := w.dirs.unlink candidate owner }.goOn owner call .abandon
    | .abandon => { w with dirs := w.dirs.rmdir candidate }.finish owner call .rejected
    | .settle => w.goOn owner call .read
    | .read =>
      match w.stored with
      | some bytes => w.goOn owner call (.operate bytes)
      | none => w.goOn owner call .importing
    | .importing =>
      let bytes := platform.encode input.revision input.legacy
      (w.store owner call true bytes).goOn owner call (.operate bytes)
    | .operate bytes => w.operate platform owner call bytes input.revision
    | .quarantine bytes =>
      w.goOn owner call (.publish bytes (platform.encode input.revision none) .resolved)
    | .publish _ next answer => (w.store owner call false next).goOn owner call (.published answer)
    | .published answer => w.goOn owner call (.release answer)
    | .release answer =>
      { w with dirs := w.dirs.unlink .lock owner }.goOn owner call (.releaseDir answer)
    | .releaseDir answer => { w with dirs := w.dirs.rmdir .lock }.finish owner call answer

/-- Its file-system call fails instead. -/
def fail (w : ArchiveWorld) (owner : LockOwner) : ArchiveWorld :=
  match w.calls.get owner with
  | none => w
  | some call =>
    match call.stage with
    | .take | .list | .probe _ | .reap .. | .sweep => w.goOn owner call .abandonFile
    | .read | .importing | .operate _ | .quarantine _ | .publish .. | .published _ =>
      w.goOn owner call (.release .rejected)
    -- Out of `acquire`, or of the release: nobody unlinks the owner's file then.
    | _ => w.finish owner call .rejected

end ArchiveWorld

/-! ### Runs -/

inductive ArchiveAct
  | boot (pid : Nat)
  | crash (pid : Nat)
  | start (owner : LockOwner) (operation : ArchiveOperation)
  | step (owner : LockOwner) (input : ArchiveInput)
  | fail (owner : LockOwner)

namespace ArchiveWorld

variable (platform : ArchivePlatform)

def perform (w : ArchiveWorld) : ArchiveAct → ArchiveWorld
  | .boot pid => w.boot pid
  | .crash pid => w.crash pid
  | .start owner operation => w.start owner operation
  | .step owner input => w.step platform owner input
  | .fail owner => w.fail owner

/-- A call starts in a process that runs, and draws a name of its own. -/
def Possible (w : ArchiveWorld) : ArchiveAct → Prop
  | .start owner _ => owner.pid ∈ w.alive ∧ owner ∉ w.drawn
  | _ => True

/-- All runs over one archive. -/
def archiveRuns : System ArchiveWorld ArchiveAct where
  init w := ∃ stored, w = fresh stored
  step w act w' := w.Possible act ∧ w' = w.perform platform act

end ArchiveWorld

end Dormouse.Notepad
