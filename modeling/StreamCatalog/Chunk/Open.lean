import StreamCatalog.Chunk.Basic
import StreamCatalog.Chunk.Condition

/-!
# The chunk that is being written

An open chunk takes the datagrams of its stream and the telemetry found in them,
until it is complete. Its progress is what the condition for closing it looks at.
-/

namespace StreamCatalog

/-- A point in time, on the calendar and on the clock of the program. -/
structure Moment where
  /-- The time of day. -/
  wall : Instant
  /-- Nanoseconds on a clock that is never set. -/
  nanos : Nat

/-- A chunk that is being written. -/
structure OpenChunk where
  /-- The name of its file. -/
  fileName : String
  /-- The number of the chunk in its stream. -/
  sequence : Nat
  /-- When it was opened. -/
  opened : Moment
  /-- When it was last written, in nanoseconds on that clock. -/
  lastWrite : Nat
  /-- How many bytes it has. -/
  byteLength : Nat
  /-- What was written, the latest first. -/
  pieces : List Bytes
  /-- Its telemetry. -/
  samples : List Telemetry.Sample

namespace OpenChunk

/-- A chunk of a stream without bytes. -/
def start (title : String) (sequence : Nat) (now : Moment) : OpenChunk where
  fileName := Chunk.fileName title sequence now.wall
  sequence := sequence
  opened := now
  lastWrite := now.nanos
  byteLength := 0
  pieces := []
  samples := []

/-- All bytes, in the order in which they were written. -/
def content (c : OpenChunk) : Bytes := c.pieces.reverse.flatten

/-- The chunk with a datagram written to it. -/
def write (c : OpenChunk) (datagram : Bytes) (now : Moment) : OpenChunk :=
  { c with
    pieces := datagram :: c.pieces
    byteLength := c.byteLength + datagram.length
    lastWrite := now.nanos }

/-- The chunk with more telemetry. -/
def addSamples (c : OpenChunk) (samples : List Telemetry.Sample) : OpenChunk :=
  { c with samples := c.samples ++ samples }

/-- How far the chunk has come. Times that went back count as none. -/
def progress (c : OpenChunk) (now : Moment) : Progress :=
  ⟨c.byteLength, now.nanos - c.opened.nanos, now.nanos - c.lastWrite⟩

/-- The chunk as it is when it is closed. -/
def complete (c : OpenChunk) (now : Moment) : Chunk :=
  ⟨c.sequence, c.opened.wall, now.wall, c.byteLength, c.samples⟩

@[simp] theorem content_start (title : String) (sequence : Nat) (now : Moment) :
    (start title sequence now).content = [] := rfl

@[simp] theorem content_write (c : OpenChunk) (datagram : Bytes) (now : Moment) :
    (c.write datagram now).content = c.content ++ datagram := by
  simp [content, write]

end OpenChunk

end StreamCatalog
