import StreamCatalog.Telemetry.Sample
import StreamCatalog.Time.Rfc3339

/-!
# Chunks and their files

A chunk is a piece of a stream in a file of its own. The name of the file is
made of the title of the stream, the number of the chunk and the time at which
it started.
-/

namespace StreamCatalog

/-- A chunk that is complete. -/
structure Chunk where
  /-- The number of the chunk in its stream, from one. -/
  sequence : Nat
  /-- When its first bytes were received. -/
  startedAt : Instant
  /-- When its last bytes were received. -/
  endedAt : Instant
  /-- How many bytes it has. -/
  byteLength : Nat
  /-- Its telemetry. -/
  samples : List Telemetry.Sample

namespace Chunk

/-- Whether a character may stand in a file name. -/
def isFileChar (c : Char) : Bool :=
  c.isAlphanum || c = '-' || c = '_'

/-- A title with an underscore for each character that may not stand in a file name. -/
def fileTitle (title : String) : String :=
  title.map fun c => if isFileChar c then c else '_'

/-- A time to the millisecond, without separators. -/
def fileTime (t : Instant) : String :=
  let d := t.date
  let s := t.secondOfDay
  yearText d.year ++ padded 2 d.month ++ padded 2 d.day ++ "T" ++ padded 2 (s / 3600) ++
    padded 2 (s / 60 % 60) ++ padded 2 (s % 60 + t.nanos / nanosPerSecond) ++
    padded 3 (t.nanos % nanosPerSecond / 1000000) ++ "Z"

/-- The name of the file of a chunk. -/
def fileName (title : String) (sequence : Nat) (startedAt : Instant) : String :=
  fileTitle title ++ "-" ++ padded 5 sequence ++ "-" ++ fileTime startedAt ++ ".ts"

end Chunk

end StreamCatalog
