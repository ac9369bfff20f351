import StreamCatalog.Database
import StreamCatalog.Monitor.Basic

/-!
# Streams and records as JSON

How the web interface shows monitored streams, records and stored contents.
-/

namespace StreamCatalog

/-- The counts of a stream as an object. -/
def StreamCounts.toJson (c : StreamCounts) : Json :=
  .object [
    ("datagrams", .int c.datagrams),
    ("bytes_received", .int c.bytesReceived),
    ("datagrams_dropped", .int c.datagramsDropped),
    ("continuity_errors", .int c.continuityErrors),
    ("samples", .int c.samples),
    ("chunks_started", .int c.chunksStarted),
    ("chunks_committed", .int c.chunksCommitted),
    ("chunks_lost", .int c.chunksLost)]

/-- The status of a monitored stream as an object. -/
def Monitor.toJson (m : Monitor) : Json :=
  .object [
    ("title", .text m.config.title),
    ("monitored_address", .text m.config.monitoredAddress),
    ("local_address", .ofText? (m.localAddress.map (·.text))),
    ("state", .text m.state.name),
    ("rollover", .text m.config.condition.describe),
    ("parent_id", .ofText? (m.parent.map (·.id))),
    ("stats", m.report.counts.toJson),
    ("last_error", .ofText? m.report.lastError),
    ("config", m.config.toProperties.toJson)]

/-- A record as an object. -/
def Record.toJson (r : Record) : Json :=
  .object [("id", .text r.id), ("kind", .text r.kind.name), ("attributes", r.attributes.toJson)]

/-- The content of a record as an object. -/
def ContentRow.toJson (id : String) (row : ContentRow) : Json :=
  .object [("record_id", .text id), ("path", .text row.path), ("byte_length", .int row.byteLength),
    ("mime_type", .text row.mimeType)]

/-- A row of a listing as an object. -/
def RecordSummary.toJson (r : RecordSummary) : Json :=
  .object [("id", .text r.id), ("kind", .text r.kind), ("title", .ofText? r.title),
    ("resource_uri", .ofText? r.resourceUri)]

end StreamCatalog
