import Dormouse.Lib.Framing

/-!
# Dormouse.Noise.Stream

The **application byte stream** of a transport session
(`remote-lib-common/src/security/noise-transport.ts`, byte helpers from
`bytes.ts`): messages are chunked into stream bodies behind a 4-byte length, and
`StreamReassembler` puts them together again in one growable buffer.

A `Uint8Array` is a list of bytes. A typed-array `set` that would run past the end
of its target throws a `RangeError` in the source and answers `none` here; such a
throw leaves `push` through `PushError.range`.
-/

namespace Dormouse.Noise

abbrev Bytes := List UInt8

/-! ### Byte helpers -/

/-- A big-endian `u32`, the form of every length prefix. -/
def writeUint32BE (value : Nat) : Bytes :=
  [UInt8.ofNat (value / 2 ^ 24), UInt8.ofNat (value / 2 ^ 16), UInt8.ofNat (value / 2 ^ 8),
    UInt8.ofNat value]

/-- Read the big-endian `u32` at `offset`. -/
def readUint32BE (bytes : Bytes) (offset : Nat) : Nat :=
  (bytes.getD offset 0).toNat * 2 ^ 24 + (bytes.getD (offset + 1) 0).toNat * 2 ^ 16 +
    (bytes.getD (offset + 2) 0).toNat * 2 ^ 8 + (bytes.getD (offset + 3) 0).toNat

/-- `target.set(src, offset)`. -/
def setBytes (target src : Bytes) (offset : Nat) : Option Bytes :=
  if offset + src.length ≤ target.length then
    some (target.take offset ++ src ++ target.drop (offset + src.length))
  else none

/-- `bytes.subarray(start, end)`. -/
def subarray (bytes : Bytes) (start end_ : Nat) : Bytes := (bytes.drop start).take (end_ - start)

/-! ### Sizes -/

def noiseMaxMessageLength : Nat := 65535

def noiseTagLength : Nat := 16

def appLengthPrefixSize : Nat := 4

def maxAppMessageLength : Nat := 1024 * 1024

def maxStreamBodyLength : Nat := noiseMaxMessageLength - noiseTagLength - 1

def retainedBufferCapacity : Nat := maxStreamBodyLength + appLengthPrefixSize

def maxBufferCapacity : Nat := appLengthPrefixSize + maxAppMessageLength + maxStreamBodyLength

def initialBufferCapacity : Nat := 1024

/-! ### Chunking -/

/-- A message behind its length prefix. -/
def framed (message : Bytes) : Bytes := writeUint32BE message.length ++ message

/-- The bodies from the front of `bytes` on, one per pass of the chunker's loop. -/
def chunks : Nat → Bytes → List Bytes
  | 0, _ => []
  | fuel + 1, bytes =>
    if bytes.length = 0 then []
    else bytes.take maxStreamBodyLength :: chunks fuel (bytes.drop maxStreamBodyLength)

/-- Split one application message into stream bodies; `none` over the cap. -/
def chunkAppMessage (message : Bytes) : Option (List Bytes) :=
  if maxAppMessageLength < message.length then none
  else some (chunks (framed message).length (framed message))

/-! ### Reassembly -/

structure StreamReassembler where
  buffer : Bytes
  start : Nat
  end_ : Nat
  failed : Bool

inductive PushError
  | transport (why : String)
  | range

namespace StreamReassembler

def fresh : StreamReassembler := ⟨[], 0, 0, false⟩

def capacity (r : StreamReassembler) : Nat := r.buffer.length

/-- Undrained bytes. -/
def queued (r : StreamReassembler) : Nat := r.end_ - r.start

/-- The live window: the bytes not yet consumed. -/
def window (r : StreamReassembler) : Bytes := subarray r.buffer r.start r.end_

/-- Move the live window to the front, or to a larger buffer, when `n` more bytes do
not fit behind it. -/
def makeRoom (r : StreamReassembler) (n : Nat) : Option StreamReassembler :=
  if r.buffer.length < r.end_ + n then
    let live := r.queued
    let needed := live + n
    if needed ≤ r.buffer.length then
      (setBytes r.buffer r.window 0).map fun buffer => ⟨buffer, 0, live, r.failed⟩
    else
      let grown : Bytes := List.replicate
        (min maxBufferCapacity (max needed (max (r.buffer.length * 2) initialBufferCapacity))) 0
      (setBytes grown r.window 0).map fun buffer => ⟨buffer, 0, live, r.failed⟩
  else some r

/-- Copy one body in behind the live window. -/
def append (r : StreamReassembler) (body : Bytes) : Option StreamReassembler :=
  match r.makeRoom body.length with
  | none => none
  | some r =>
    (setBytes r.buffer body r.end_).map fun buffer =>
      { r with buffer := buffer, end_ := r.end_ + body.length }

/-- Latch the failure and release the buffer. -/
def fail (_ : StreamReassembler) : StreamReassembler := ⟨[], 0, 0, true⟩

/-- Nothing is queued: rewind, and release a buffer one big message grew. -/
def drain (r : StreamReassembler) : StreamReassembler :=
  if retainedBufferCapacity < r.buffer.length then ⟨[], 0, 0, r.failed⟩
  else ⟨r.buffer, 0, 0, r.failed⟩

/-- The message loop of `push`: the messages completed and the new start of the
window; `none` for a declared length over the cap. -/
def takeMessages (buffer : Bytes) (end_ : Nat) : Nat → Nat → Option (List Bytes × Nat)
  | 0, start => some ([], start)
  | fuel + 1, start =>
    if end_ - start < appLengthPrefixSize then some ([], start)
    else
      let length := readUint32BE buffer start
      if maxAppMessageLength < length then none
      else if end_ - start < appLengthPrefixSize + length then some ([], start)
      else
        let from_ := start + appLengthPrefixSize
        (takeMessages buffer end_ fuel (from_ + length)).map fun r =>
          (subarray buffer from_ (from_ + length) :: r.1, r.2)

/-- Accept one stream body; answers the messages it completed, in order. Every pass
of the loop but the last consumes a prefix, so `queued + 1` passes are enough. -/
def push (r : StreamReassembler) (body : Bytes) :
    StreamReassembler × Except PushError (List Bytes) :=
  if r.failed then (r, .error (.transport "reassembly already failed"))
  else if maxStreamBodyLength < body.length then
    (r.fail, .error (.transport "stream body exceeds one Noise message"))
  else
    match (if body.length > 0 then r.append body else some r) with
    | none => (r, .error .range)
    | some r =>
      match takeMessages r.buffer r.end_ (r.queued + 1) r.start with
      | none => (r.fail, .error (.transport "application message exceeds the 1 MiB cap"))
      | some (messages, start) =>
        let r := { r with start := start }
        (if r.start = r.end_ then r.drain else r, .ok messages)

/-- Push bodies one after another; answers each push. -/
def pushAll (r : StreamReassembler) :
    List Bytes → StreamReassembler × List (Except PushError (List Bytes))
  | [] => (r, [])
  | body :: bodies =>
    let next := (r.push body).1.pushAll bodies
    (next.1, (r.push body).2 :: next.2)

end StreamReassembler

end Dormouse.Noise
