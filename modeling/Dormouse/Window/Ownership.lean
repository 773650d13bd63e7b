import Dormouse.Lib.InsertionMap
import Dormouse.Lib.JsString
import Dormouse.Pty.Core

/-!
# Dormouse.Window.Ownership

**PTY ownership** across the webviews of a window (`vscode-ext/src/message-router.ts`, with the
tables of `pty-manager.ts` it reads): each router tracks the PTYs of its webview, a global set keeps
a resuming router from those of the others, and a disposal that kills its PTYs does so later, when
the archive has been written.
-/

namespace Dormouse.Window

open Pty (HelperIdentity)

/-- `Set.add`. -/
def addId (id : JsString) (ids : List JsString) : List JsString :=
  if id ∈ ids then ids else ids ++ [id]

/-- `Set.delete`. -/
def deleteId (id : JsString) (ids : List JsString) : List JsString := ids.filter (· ≠ id)

@[simp] theorem mem_addId {id id' : JsString} {ids : List JsString} :
    id' ∈ addId id ids ↔ id' ∈ ids ∨ id' = id := by
  unfold addId
  split
  · rename_i hmem
    exact ⟨.inl, fun h => h.elim (fun h => h) fun heq => heq ▸ hmem⟩
  · simp

@[simp] theorem mem_deleteId {id id' : JsString} {ids : List JsString} :
    id' ∈ deleteId id ids ↔ id' ∈ ids ∧ id' ≠ id := by
  simp [deleteId]

/-- What cold-start restore reads of a saved pane. -/
structure SavedPane where
  id : JsString
  browser : Bool

/-- A buffered PTY; `spawned` is the time of its spawn. -/
structure BufferedPty where
  alive : Bool
  exitCode : Option Int
  shell : Option JsString
  spawned : Nat

structure Router where
  killOnDispose : Bool
  reconnect : Bool
  savedSession : Option (List SavedPane)
  ownedPtyIds : List JsString
  disposed : Bool

/-- The kills a disposal owes, and the time of the disposal. -/
structure Disposal where
  toKill : List JsString
  since : Nat

/-- An entry of a `pty:list`. -/
structure ListedPty where
  id : JsString
  alive : Bool
  exitCode : Option Int
  shell : Option JsString
  helper : Option HelperIdentity

inductive RouterPost
  | ptyExit (router : Nat) (id : JsString) (exitCode : Int)
  | ptyList (router : Nat) (ptys : List ListedPty)

structure RouterHost where
  /-- A router is known by its place; it keeps it when it is disposed of. -/
  routers : List Router
  globalOwnedPtyIds : List JsString
  ptyBuffers : InsertionMap JsString BufferedPty
  helperPtys : InsertionMap JsString HelperIdentity
  /-- Disposals whose archive write has not settled, by their router. -/
  disposals : InsertionMap Nat Disposal
  /-- Counts spawns and disposals. -/
  clock : Nat
  posts : List RouterPost

namespace RouterHost

def create : RouterHost where
  routers := []
  globalOwnedPtyIds := []
  ptyBuffers := .empty
  helperPtys := .empty
  disposals := .empty
  clock := 0
  posts := []

def emit (s : RouterHost) (post : RouterPost) : RouterHost := { s with posts := s.posts ++ [post] }

def modifyOwned (s : RouterHost) (router : Nat) (f : List JsString → List JsString) : RouterHost :=
  { s with routers := s.routers.modify router fun r => { r with ownedPtyIds := f r.ownedPtyIds } }

def claim (s : RouterHost) (router : Nat) (id : JsString) : RouterHost :=
  let s := s.modifyOwned router (addId id)
  { s with globalOwnedPtyIds := addId id s.globalOwnedPtyIds }

def release (s : RouterHost) (router : Nat) (id : JsString) : RouterHost :=
  let s := s.modifyOwned router (deleteId id)
  { s with globalOwnedPtyIds := deleteId id s.globalOwnedPtyIds }

/-! ### The PTY manager -/

/-- `ptyManager.spawn`. -/
def spawnPty (s : RouterHost) (id : JsString) (helper : Option HelperIdentity)
    (shell : Option JsString) : RouterHost :=
  { s with
    helperPtys := match helper with
      | some identity => s.helperPtys.set id identity
      | none => s.helperPtys.delete id
    ptyBuffers := s.ptyBuffers.set id ⟨true, none, shell, s.clock⟩
    clock := s.clock + 1 }

/-- `ptyManager.kill`. -/
def killPty (s : RouterHost) (id : JsString) : RouterHost :=
  { s with helperPtys := s.helperPtys.delete id, ptyBuffers := s.ptyBuffers.delete id }

/-! ### Messages of a webview -/

/-- A helper wants a parent that this router owns and that is no helper. -/
def refusesHelper (s : RouterHost) (owned : List JsString) (helper : Option HelperIdentity) : Bool :=
  match helper with
  | none => false
  | some identity => identity.parentId ∉ owned || s.helperPtys.has identity.parentId

/-- `pty:spawn`. -/
def spawn (s : RouterHost) (router : Nat) (owned : List JsString) (id : JsString)
    (helper : Option HelperIdentity) (shell : Option JsString) : RouterHost :=
  if s.refusesHelper owned helper then s.emit (.ptyExit router id 1)
  else (s.claim router id).spawnPty id helper shell

/-- `pty:kill`. -/
def kill (s : RouterHost) (router : Nat) (id : JsString) : RouterHost :=
  (s.release router id).killPty id

def listed (s : RouterHost) (id : JsString) (info : BufferedPty) : ListedPty :=
  ⟨id, info.alive, info.exitCode, info.shell, s.helperPtys.get id⟩

/-- One turn of the loop that claims unowned PTYs. -/
def claimUnowned (router : Nat) (found : RouterHost × List ListedPty) (pty : JsString × BufferedPty) :
    RouterHost × List ListedPty :=
  if pty.1 ∈ found.1.globalOwnedPtyIds then found
  else (found.1.claim router pty.1, found.2 ++ [found.1.listed pty.1 pty.2])

/-- One turn of the loop over a saved session's panes. -/
def claimSaved (router : Nat) (s : RouterHost) (pane : SavedPane) : RouterHost :=
  if pane.browser then s
  else if pane.id ∈ s.globalOwnedPtyIds then s
  else s.claim router pane.id

/-- `dormouse:init`. -/
def init (s : RouterHost) (router : Nat) (r : Router) : RouterHost :=
  if !r.reconnect then s.emit (.ptyList router [])
  else
    let own := r.ownedPtyIds.filterMap fun id => (s.ptyBuffers.get id).map (s.listed id)
    let (claimed, reconnectable) := s.ptyBuffers.entries.foldl (claimUnowned router) (s, own)
    let restored :=
      match reconnectable, r.savedSession with
      | [], some panes => panes.foldl (claimSaved router) claimed
      | _, _ => claimed
    restored.emit (.ptyList router reconnectable)

/-! ### Disposal -/

/-- `dispose`, up to the archive write. -/
def dispose (s : RouterHost) (router : Nat) (r : Router) : RouterHost :=
  { s with
    routers := s.routers.modify router fun r => { r with ownedPtyIds := [], disposed := true }
    globalOwnedPtyIds :=
      if r.killOnDispose then s.globalOwnedPtyIds
      else s.globalOwnedPtyIds.filter fun id => id ∉ r.ownedPtyIds
    disposals := s.disposals.set router ⟨if r.killOnDispose then r.ownedPtyIds else [], s.clock⟩
    clock := s.clock + 1 }

/-- One turn of the loop that settles what a disposal owes. -/
def killOwed (s : RouterHost) (id : JsString) : RouterHost :=
  let s := s.killPty id
  { s with globalOwnedPtyIds := deleteId id s.globalOwnedPtyIds }

/-- The archive write has settled. -/
def settle (s : RouterHost) (router : Nat) (d : Disposal) : RouterHost :=
  d.toKill.foldl killOwed { s with disposals := s.disposals.delete router }

/-! ### Steps -/

inductive RouterEvent
  | attach (killOnDispose reconnect : Bool) (savedSession : Option (List SavedPane))
  | spawn (router : Nat) (id : JsString) (helper : Option HelperIdentity) (shell : Option JsString)
  | kill (router : Nat) (id : JsString)
  | init (router : Nat)
  | dispose (router : Nat)
  /-- A disposal's archive write settles, and its kills are made. -/
  | settled (router : Nat)
  /-- A PTY exits by itself. -/
  | exited (id : JsString) (exitCode : Int)

/-- The router of a webview that is still there: a disposed one hears no messages. -/
def live (s : RouterHost) (router : Nat) : Option Router :=
  s.routers[router]?.filter fun r => !r.disposed

def step (s : RouterHost) : RouterEvent → Option RouterHost
  | .attach killOnDispose reconnect savedSession =>
    some { s with routers := s.routers ++ [⟨killOnDispose, reconnect, savedSession, [], false⟩] }
  | .spawn router id helper shell =>
    (s.live router).map fun r => s.spawn router r.ownedPtyIds id helper shell
  | .kill router id => (s.live router).map fun _ => s.kill router id
  | .init router => (s.live router).map fun r => s.init router r
  | .dispose router => (s.live router).map fun r => s.dispose router r
  | .settled router => (s.disposals.get router).map fun d => s.settle router d
  | .exited id exitCode =>
    (s.ptyBuffers.get id).map fun info =>
      { s with ptyBuffers := s.ptyBuffers.set id { info with alive := false, exitCode := some exitCode } }

end RouterHost

end Dormouse.Window
