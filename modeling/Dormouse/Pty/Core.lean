import Dormouse.Lib.ChunkBuffer
import Dormouse.Lib.InsertionMap
import Dormouse.Lib.JsString

/-!
# Dormouse.Pty.Core

The **shared PTY manager** (`standalone/sidecar/pty-core.js`): which process is the one of an
id, the sessions it keeps for replay, and the events it sends.

A process is known by the number of the spawn that made it. Its handlers outlive its place in
the table: a killed or displaced process goes on sending its data and its exit.
-/

namespace Dormouse.Pty

/-- What makes a PTY a helper of another one. -/
structure HelperIdentity where
  parentId : JsString
  command : JsString
  deriving DecidableEq

/-- The global autorun command: one line, at most 4096 characters. -/
def validCommand (value : JsString) : Bool :=
  decide (value.length ≤ 4096) && value.all fun c => c != 0x0D && c != 0x0A && c != 0

/-- What `send` is called with. -/
inductive Sent
  | data (id data : JsString)
  | exit (id : JsString) (exitCode : Int)
  | error (id message : JsString)

/-- How launching a shell ends: node-pty throws, or a process starts, with a warning when the
directory it asked for is gone. -/
inductive Launch
  | threw (message : JsString)
  | started (cwdWarning : Option JsString)

def REPLAY_CHARS : Nat := 200000

structure PtyCore where
  /-- Only the standalone host asks for replay. -/
  replay : Bool
  ptys : InsertionMap JsString Nat
  helpers : InsertionMap JsString HelperIdentity
  sessions : InsertionMap JsString (ChunkBuffer UInt16)

namespace PtyCore

/-- `create`. -/
def create (replay : Bool) : PtyCore := ⟨replay, .empty, .empty, .empty⟩

/-- A helper belongs to a session that is no helper and has no other helper. -/
def validHelperOwner (core : PtyCore) (id : JsString) (helper : HelperIdentity) : Bool :=
  validCommand helper.command && helper.parentId != id && core.sessions.has helper.parentId &&
    !core.helpers.has helper.parentId &&
    !core.helpers.entries.any fun e => e.1 != id && e.2.parentId == helper.parentId

/-- What `spawn` does once the helper is settled. -/
def launch (core : PtyCore) (id : JsString) (p : Nat) : Launch → PtyCore × List Sent
  | .threw message => (core, [.error id message, .exit id 1])
  | .started cwdWarning =>
    ({ core with ptys := core.ptys.set id p, sessions := core.sessions.set id .empty },
      match cwdWarning with
      | none => []
      | some warning => [.data id (js "\r\n" ++ warning ++ js "\r\n")])

def spawn (core : PtyCore) (id : JsString) (helper : Option HelperIdentity) (p : Nat)
    (launched : Launch) : PtyCore × List Sent :=
  match helper with
  | some helper =>
    if core.validHelperOwner id helper then
      { core with helpers := core.helpers.set id helper }.launch id p launched
    else (core, [.exit id 1])
  | none => { core with helpers := core.helpers.delete id }.launch id p launched

/-- Drop whole chunks off the front, then trim the head. -/
def trimSession (session : ChunkBuffer UInt16) : ChunkBuffer UInt16 :=
  let session := session.evict fun chars first => decide (REPLAY_CHARS ≤ chars - first.length)
  if REPLAY_CHARS < session.chars then session.dropHead (session.chars - REPLAY_CHARS) else session

/-- What `onData` of process `p` of `id` keeps before it sends the event: only the process that
holds the id is kept for replay. -/
def onData (core : PtyCore) (id : JsString) (p : Nat) (data : JsString) : PtyCore :=
  if core.replay && core.ptys.get id == some p then
    match core.sessions.get id with
    | some session => { core with sessions := core.sessions.set id (trimSession (session.push data)) }
    | none => core
  else core

/-- `onExit` of process `p` of `id`, after the event has been sent. -/
def onExit (core : PtyCore) (id : JsString) (p : Nat) : PtyCore :=
  if core.ptys.get id = some p then { core with ptys := core.ptys.delete id } else core

def hasPty (core : PtyCore) (id : JsString) : Bool := core.ptys.has id

def kill (core : PtyCore) (id : JsString) : PtyCore where
  replay := core.replay
  ptys := core.ptys.delete id
  helpers := core.helpers.delete id
  sessions := core.sessions.delete id

/-- What `list` sends for replay. -/
def replays (core : PtyCore) : List (JsString × JsString) :=
  core.ptys.keys.filterMap fun id => (core.sessions.get id).map fun session => (id, session.joined)

theorem trimSession_suffix (session : ChunkBuffer UInt16) :
    (trimSession session).joined <:+ session.joined := by
  unfold trimSession
  dsimp only
  split
  · exact (ChunkBuffer.dropHead_suffix _ _).trans (ChunkBuffer.evict_suffix _ _)
  · exact ChunkBuffer.evict_suffix _ _

/-- What is kept for replay is the last of what was printed, as long as the bound allows. -/
theorem joined_trimSession (session : ChunkBuffer UInt16) :
    (trimSession session).joined = session.joined.rtake REPLAY_CHARS := by
  refine ChunkBuffer.eq_rtake_of_suffix (trimSession_suffix session) ?_
  rw [ChunkBuffer.length_joined, ChunkBuffer.length_joined]
  have hle := ChunkBuffer.chars_evict_le
    (fun chars first => decide (REPLAY_CHARS ≤ chars - first.length)) session
  have hspared : min REPLAY_CHARS session.chars ≤ (session.evict fun chars first =>
      decide (REPLAY_CHARS ≤ chars - first.length)).chars :=
    ChunkBuffer.le_chars_evict (fun _ _ hfull => of_decide_eq_true hfull) session
  have hdone := ChunkBuffer.evict_done
    (fun chars first => decide (REPLAY_CHARS ≤ chars - first.length)) session
  unfold trimSession
  dsimp only
  generalize (session.evict fun chars first => decide (REPLAY_CHARS ≤ chars - first.length)) = b
    at hle hspared hdone ⊢
  split
  · rcases hdone with hsingle | ⟨c, cs, hchunks, hfull⟩
    · rw [ChunkBuffer.chars_dropHead_of_single _ hsingle]
      omega
    · have hfull := of_decide_eq_false hfull
      rw [ChunkBuffer.chars_dropHead _ hchunks]
      omega
  · omega

end PtyCore

end Dormouse.Pty
