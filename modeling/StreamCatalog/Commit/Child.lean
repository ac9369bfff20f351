import StreamCatalog.Chunk.Basic
import StreamCatalog.Commit.Settings
import StreamCatalog.Geometry.Footprint
import StreamCatalog.Record.Basic

/-!
# The records of a stream

The parent record that stands for a stream, and the child record that stands
for one of its chunks.
-/

namespace StreamCatalog

/-- The format of streams. -/
def streamFormat : String := "MPEG-TS"

/-- The reference system of locations. -/
def referenceSystem : String := "Geodetic WGS84"

/-- The least instant of a list. -/
def earliest? : List Instant → Option Instant
  | [] => none
  | t :: ts => some (ts.foldl (fun a b => if b < a then b else a) t)

/-- The greatest instant of a list. -/
def latest? : List Instant → Option Instant
  | [] => none
  | t :: ts => some (ts.foldl (fun a b => if a < b then b else a) t)

/-- The record of a stream, made at `now`. -/
def CommitSettings.parentRecord (s : CommitSettings) (now : Instant) : Record :=
  (Record.new .parent)
    |>.set AttributeName.title (.text (s.parentTitle.getD s.title))
    |>.set AttributeName.resourceUri (.text s.streamUri)
    |>.set AttributeName.created (.date now)
    |>.set AttributeName.mediaFormat (.text streamFormat)

namespace Chunk

/-- The times of the samples. -/
def times (chunk : Chunk) : List Instant := chunk.samples.filterMap (·.timestamp)

/-- When the imagery starts: at the earliest sample, or when the chunk was started. -/
def start (chunk : Chunk) : Instant := (earliest? chunk.times).getD chunk.startedAt

/-- When the imagery ends: at the latest sample, or when the chunk was ended. -/
def finish (chunk : Chunk) : Instant := (latest? chunk.times).getD chunk.endedAt

variable [GeometryKernel]

/-- The record of a chunk of the stream with a parent, made at `now`. -/
def record (chunk : Chunk) (s : CommitSettings) (parentId : String) (now : Instant) : Record :=
  let summary := Telemetry.summarize .location s.tolerances chunk.samples
  let firstText (field : Telemetry.Sample → Option String) : Option Attribute :=
    (chunk.samples.findSome? field).map .text
  (Record.new .child)
    |>.set AttributeName.title (.text (s.title ++ " chunk " ++ toString chunk.sequence))
    |>.set AttributeName.created (.date now)
    |>.set AttributeName.temporalStart (.date chunk.start)
    |>.set AttributeName.temporalEnd (.date chunk.finish)
    |>.set AttributeName.mediaFormat (.text streamFormat)
    |>.set AttributeName.crsName (.text referenceSystem)
    |>.set AttributeName.derived (.list [parentId])
    |>.set? AttributeName.location (summary.location.map .geometry)
    |>.set? AttributeName.frameCenter (summary.frameCenter.map fun c => .geometry (.point c))
    |>.set? AttributeName.altitude (summary.meanAltitude.map .double)
    |>.set? AttributeName.sensorId (firstText (·.sensorId))
    |>.set? AttributeName.platformId (firstText (·.platformDesignation))
    |>.set? AttributeName.missionId (firstText (·.missionId))

end Chunk

end StreamCatalog
