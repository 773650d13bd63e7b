import Dormouse.Lib.ChunkBuffer
import Dormouse.Lib.InsertionMap
import Dormouse.Lib.JsString

/-!
# Dormouse.Pty.Manager

The **extension host's record of its PTYs** (`vscode-ext/src/pty-manager.ts`): whether each is
alive, and the two bounded buffers of what it has printed.

Everything is filed under the bare id. `killedPtyIds` keeps what a killed PTY still prints out
of the buffers, until the id is spawned again.
-/

namespace Dormouse.Pty

def MAX_BUFFER_CHARS : Nat := 1000000

/-- `trimChunks`: whole chunks go until one is left, and of that one its end stays. -/
def trimChunks (b : ChunkBuffer UInt16) : ChunkBuffer UInt16 :=
  let b := b.evict fun chars _ => decide (MAX_BUFFER_CHARS < chars)
  if MAX_BUFFER_CHARS < b.chars then b.dropHead (b.chars - MAX_BUFFER_CHARS) else b

theorem trimChunks_suffix (b : ChunkBuffer UInt16) : (trimChunks b).joined <:+ b.joined := by
  unfold trimChunks
  dsimp only
  split
  · exact (ChunkBuffer.dropHead_suffix _ _).trans (ChunkBuffer.evict_suffix _ _)
  · exact ChunkBuffer.evict_suffix _ _

/-- The cap holds of every trimmed buffer. -/
theorem chars_trimChunks_le (b : ChunkBuffer UInt16) : (trimChunks b).chars ≤ MAX_BUFFER_CHARS := by
  unfold trimChunks
  by_cases hover : MAX_BUFFER_CHARS < (b.evict fun chars _ => decide (MAX_BUFFER_CHARS < chars)).chars
  · rw [if_pos hover]
    rcases ChunkBuffer.evict_done (fun chars _ => decide (MAX_BUFFER_CHARS < chars)) b with
      hone | ⟨c, cs, -, hdone⟩
    · rw [ChunkBuffer.chars_dropHead_of_single _ hone]
      omega
    · exact absurd hover (of_decide_eq_false hdone)
  · rw [if_neg hover]
    omega

structure PtyBufferEntry where
  replay : ChunkBuffer UInt16
  scrollback : ChunkBuffer UInt16
  /-- Every char ever buffered for this pane, never decremented by a trim. -/
  receivedChars : Nat
  alive : Bool
  exitCode : Option Int
  shell : Option JsString

structure PtyStatus where
  alive : Bool
  exitCode : Option Int
  deriving DecidableEq

def createBufferEntry (alive : Bool) (exitCode : Option Int) (shell : Option JsString) :
    PtyBufferEntry where
  replay := .empty
  scrollback := .empty
  receivedChars := 0
  alive := alive
  exitCode := exitCode
  shell := shell

namespace PtyBufferEntry

def buffer (entry : PtyBufferEntry) (data : JsString) : PtyBufferEntry where
  replay := trimChunks (entry.replay.push data)
  scrollback := trimChunks (entry.scrollback.push data)
  receivedChars := entry.receivedChars + data.length
  alive := entry.alive
  exitCode := entry.exitCode
  shell := entry.shell

/-- Both buffers end what was received under the entry, of which the count is exact. -/
structure Holds (entry : PtyBufferEntry) (received : JsString) : Prop where
  replay : entry.replay.joined <:+ received
  scrollback : entry.scrollback.joined <:+ received
  receivedChars : entry.receivedChars = received.length

theorem holds_create (alive : Bool) (exitCode : Option Int) (shell : Option JsString) :
    (createBufferEntry alive exitCode shell).Holds [] :=
  ⟨List.suffix_refl _, List.suffix_refl _, rfl⟩

/-- What trimming leaves of a longer buffer ends the longer text. -/
theorem suffix_push {b : ChunkBuffer UInt16} {received : JsString} (h : b.joined <:+ received)
    (data : JsString) : (trimChunks (b.push data)).joined <:+ received ++ data := by
  obtain ⟨front, rfl⟩ := h
  refine (trimChunks_suffix _).trans ⟨front, ?_⟩
  rw [ChunkBuffer.joined_push, List.append_assoc]

theorem Holds.buffer {entry : PtyBufferEntry} {received : JsString} (h : entry.Holds received)
    (data : JsString) : (entry.buffer data).Holds (received ++ data) where
  replay := suffix_push h.replay data
  scrollback := suffix_push h.scrollback data
  receivedChars := by
    rw [PtyBufferEntry.buffer, h.receivedChars, List.length_append]

/-- The output received after a mark, as far back as the bounded buffer goes. -/
def since (entry : PtyBufferEntry) (mark : Nat) : JsString :=
  let oldestHeld := entry.receivedChars - entry.scrollback.chars
  let wanted := entry.receivedChars - max mark oldestHeld
  if wanted = 0 then [] else entry.scrollback.lastItems wanted

/-- It is the part after the mark that is still held. -/
theorem Holds.since_eq {entry : PtyBufferEntry} {received : JsString}
    (h : entry.Holds received) (mark : Nat) :
    entry.since mark = received.drop (max mark (received.length - entry.scrollback.chars)) := by
  have hlength := h.scrollback.length_le
  rw [ChunkBuffer.length_joined] at hlength
  unfold since
  dsimp only
  rw [h.receivedChars]
  split
  · rename_i hwanted
    rw [List.drop_eq_nil_of_le (by omega)]
  · rename_i hwanted
    rw [ChunkBuffer.lastItems_eq _ (by omega), ← ChunkBuffer.length_joined,
      ChunkBuffer.drop_of_suffix h.scrollback (by rw [ChunkBuffer.length_joined]; omega),
      ChunkBuffer.length_joined, Nat.sub_sub_self (by omega)]

/-- It holds nothing from before the mark. -/
theorem Holds.since_suffix {entry : PtyBufferEntry} {received : JsString}
    (h : entry.Holds received) (mark : Nat) : entry.since mark <:+ received.drop mark := by
  have hmax : max mark (received.length - entry.scrollback.chars) =
      mark + (max mark (received.length - entry.scrollback.chars) - mark) := by omega
  rw [h.since_eq, hmax, ← List.drop_drop]
  exact List.drop_suffix _ _

end PtyBufferEntry

structure PtyManager where
  ptyBuffers : InsertionMap JsString PtyBufferEntry
  killedPtyIds : List JsString

namespace PtyManager

def create : PtyManager := ⟨.empty, []⟩

def bufferData (m : PtyManager) (id data : JsString) : PtyManager :=
  if id ∈ m.killedPtyIds then m
  else
    let entry := (m.ptyBuffers.get id).getD (createBufferEntry true none none)
    { m with ptyBuffers := m.ptyBuffers.set id (entry.buffer data) }

def bufferExit (m : PtyManager) (id : JsString) (exitCode : Int) : PtyManager :=
  if id ∈ m.killedPtyIds then m
  else
    match m.ptyBuffers.get id with
    | none => { m with ptyBuffers := m.ptyBuffers.set id (createBufferEntry false exitCode none) }
    | some entry =>
      { m with ptyBuffers := m.ptyBuffers.set id { entry with alive := false, exitCode := exitCode } }

/-- The current lifetime record for one PTY. -/
def getPtyStatus (m : PtyManager) (id : JsString) : Option PtyStatus :=
  (m.ptyBuffers.get id).map fun entry => ⟨entry.alive, entry.exitCode⟩

/-- What is buffered for replay, which is handed out once. -/
def getReplayData (m : PtyManager) (id : JsString) : Option JsString × PtyManager :=
  match m.ptyBuffers.get id with
  | none => (none, m)
  | some entry =>
    if entry.replay.chunks.isEmpty then (none, m)
    else
      (some entry.replay.joined,
        { m with ptyBuffers := m.ptyBuffers.set id { entry with replay := .empty } })

def getScrollback (m : PtyManager) (id : JsString) : Option JsString :=
  match m.ptyBuffers.get id with
  | none => none
  | some entry => if entry.scrollback.chunks.isEmpty then none else some entry.scrollback.joined

/-- A mark in the pane's output stream. -/
def getScrollbackReceived (m : PtyManager) (id : JsString) : Nat :=
  match m.ptyBuffers.get id with
  | none => 0
  | some entry => entry.receivedChars

def getScrollbackSince (m : PtyManager) (id : JsString) (mark : Nat) : JsString :=
  match m.ptyBuffers.get id with
  | none => []
  | some entry => entry.since mark

/-- What `spawn` does before it sends the command to the child. -/
def spawn (m : PtyManager) (id : JsString) (shell : Option JsString) : PtyManager where
  ptyBuffers := m.ptyBuffers.set id (createBufferEntry true none shell)
  killedPtyIds := m.killedPtyIds.filter (· ≠ id)

/-- What `kill` does before it sends the command to the child. -/
def kill (m : PtyManager) (id : JsString) : PtyManager where
  ptyBuffers := m.ptyBuffers.delete id
  killedPtyIds := id :: m.killedPtyIds

end PtyManager

end Dormouse.Pty
