import StreamCatalog.Ber
import StreamCatalog.Bytes
import StreamCatalog.Catalog.Basic
import StreamCatalog.Catalog.Memory
import StreamCatalog.Catalog.Stored
import StreamCatalog.Chunk.Basic
import StreamCatalog.Chunk.Condition
import StreamCatalog.Chunk.Directory
import StreamCatalog.Chunk.Open
import StreamCatalog.Chunk.ParentUpdate
import StreamCatalog.Commit.Basic
import StreamCatalog.Commit.Child
import StreamCatalog.Commit.Retry
import StreamCatalog.Commit.Settings
import StreamCatalog.Database
import StreamCatalog.Files.Fault
import StreamCatalog.Geometry.Basic
import StreamCatalog.Geometry.BoxUnion
import StreamCatalog.Geometry.Canonical
import StreamCatalog.Geometry.Envelope
import StreamCatalog.Geometry.Footprint
import StreamCatalog.Geometry.Hull
import StreamCatalog.Geometry.Normalize
import StreamCatalog.Geometry.Operator
import StreamCatalog.Geometry.Region
import StreamCatalog.Geometry.Simplify
import StreamCatalog.Geometry.Turn
import StreamCatalog.Geometry.Validity
import StreamCatalog.Json.Basic
import StreamCatalog.Json.Numeral
import StreamCatalog.Json.Parser
import StreamCatalog.Json.Printer
import StreamCatalog.Klv.Error
import StreamCatalog.Klv.LocalSet
import StreamCatalog.Klv.Scan
import StreamCatalog.List.Neighbours
import StreamCatalog.List.Separate
import StreamCatalog.Monitor.Basic
import StreamCatalog.Monitor.Registry
import StreamCatalog.Monitor.Shared
import StreamCatalog.Network.Address
import StreamCatalog.Network.AddressReader
import StreamCatalog.Network.Binding
import StreamCatalog.Number.Decimal
import StreamCatalog.Number.Hexadecimal
import StreamCatalog.Number.Hypotenuse
import StreamCatalog.Number.Literal
import StreamCatalog.Number.Scaled
import StreamCatalog.Number.Shortest
import StreamCatalog.Pes
import StreamCatalog.Record.Basic
import StreamCatalog.Record.Stored
import StreamCatalog.Session.Basic
import StreamCatalog.Session.Commits
import StreamCatalog.Session.Report
import StreamCatalog.Session.State
import StreamCatalog.Stream.Config
import StreamCatalog.Stream.Property
import StreamCatalog.Telemetry.Encoding
import StreamCatalog.Telemetry.Extractor
import StreamCatalog.Telemetry.Sample
import StreamCatalog.Text.Blank
import StreamCatalog.Text.HexBytes
import StreamCatalog.Text.Quoted
import StreamCatalog.Text.Shown
import StreamCatalog.Text.Utf8
import StreamCatalog.Time.Civil
import StreamCatalog.Time.Instant
import StreamCatalog.Time.Rfc3339
import StreamCatalog.Transport.Aligner
import StreamCatalog.Transport.Carriage
import StreamCatalog.Transport.Packet
import StreamCatalog.Transport.Quality
import StreamCatalog.Web.Api
import StreamCatalog.Web.PercentCoding
import StreamCatalog.Web.PropertyBody
import StreamCatalog.Web.Response
import StreamCatalog.Web.Route
import StreamCatalog.Web.Status
import StreamCatalog.Proofs.Ber
import StreamCatalog.Proofs.Klv.RoundTrip
import StreamCatalog.Proofs.Klv.Tags
import StreamCatalog.Proofs.Catalog.Keeper
import StreamCatalog.Proofs.Chunk.Rules
import StreamCatalog.Proofs.Commit.Attempts
import StreamCatalog.Proofs.Commit.Consistency
import StreamCatalog.Proofs.Commit.Interleaving
import StreamCatalog.Proofs.Pes.Assembly
import StreamCatalog.Proofs.Session.Conservation
import StreamCatalog.Proofs.Telemetry.EndToEnd
import StreamCatalog.Proofs.Klv.Framing
import StreamCatalog.Proofs.Monitor.Configuration
import StreamCatalog.Proofs.Monitor.Moves
import StreamCatalog.Proofs.Monitor.Sharing
import StreamCatalog.Proofs.Monitor.Filing
import StreamCatalog.Proofs.Monitor.Interleaving
import StreamCatalog.Proofs.Klv.Completeness
import StreamCatalog.Proofs.Transport.Conservation
import StreamCatalog.Proofs.Telemetry.Damage
import StreamCatalog.Proofs.Telemetry.Readings
import StreamCatalog.Proofs.Pes.Repetition
import StreamCatalog.Proofs.Telemetry.Repetition
import StreamCatalog.Proofs.Session.Ending
import StreamCatalog.Proofs.Session.Thresholds
import StreamCatalog.Proofs.Chunk.FileNames
import StreamCatalog.Proofs.Session.Moves
import StreamCatalog.Proofs.Monitor.Numbering
import StreamCatalog.Proofs.Session.Balance
import StreamCatalog.Proofs.Session.Receiver
import StreamCatalog.Proofs.Geometry.Validity
import StreamCatalog.Proofs.Commit.Locations
import StreamCatalog.Proofs.Commit.Parent
import StreamCatalog.Proofs.Monitor.Lifecycle
import StreamCatalog.Proofs.Monitor.Failures
import StreamCatalog.Proofs.Web.Failures
import StreamCatalog.Proofs.Faults.Basic
import StreamCatalog.Proofs.Faults.Packets
import StreamCatalog.Proofs.Faults.Sequences
import StreamCatalog.Proofs.Faults.Units
import StreamCatalog.Proofs.Faults.LocalSets
import StreamCatalog.Proofs.Faults.Scanning
import StreamCatalog.Proofs.Faults.Samples
import StreamCatalog.Proofs.Faults.Decoder
import StreamCatalog.Proofs.Faults.Reception
import StreamCatalog.Proofs.Text.Digits
import StreamCatalog.Proofs.Json.Text
import StreamCatalog.Proofs.Json.Numbers
import StreamCatalog.Proofs.Json.RoundTrip
import StreamCatalog.Proofs.Json.Doubles
import StreamCatalog.Proofs.Time.Calendar
import StreamCatalog.Proofs.Time.Rfc3339
import StreamCatalog.Proofs.Record.Geometries
import StreamCatalog.Proofs.Record.Stored
import StreamCatalog.Proofs.Database.Statements
import StreamCatalog.Proofs.Database.Tables
import StreamCatalog.Proofs.Database.Retrieval
import StreamCatalog.Proofs.Catalog.Contents
import StreamCatalog.Proofs.Session.State
import StreamCatalog.Proofs.Pes.Pushes
import StreamCatalog.Proofs.Pes.Separation
import StreamCatalog.Proofs.Pes.RoundTrip
import StreamCatalog.Proofs.Pes.Trails
import StreamCatalog.Proofs.Pes.Ledger
import StreamCatalog.Proofs.Pes.Provenance
import StreamCatalog.Proofs.Catalog.Requests
import StreamCatalog.Proofs.Catalog.Identifiers
import StreamCatalog.Proofs.Catalog.Pairs
import StreamCatalog.Proofs.Catalog.Agreement
import StreamCatalog.Proofs.Klv.Grammar
import StreamCatalog.Proofs.Klv.Checksum
import StreamCatalog.Proofs.Telemetry.LastItems
import StreamCatalog.Proofs.Pes.Declared
import StreamCatalog.Proofs.Transport.Scattered
import StreamCatalog.Proofs.Transport.Continuity
import StreamCatalog.Proofs.Commit.Retries
import StreamCatalog.Proofs.Commit.Recording
import StreamCatalog.Proofs.Geometry.Joining
import StreamCatalog.Proofs.Chunk.Repetition
import StreamCatalog.Proofs.Chunk.Independence
import StreamCatalog.Proofs.Geometry.Fallback
import StreamCatalog.Proofs.Geometry.Rings
import StreamCatalog.Proofs.Geometry.Winding
import StreamCatalog.Proofs.Number.Doubles
import StreamCatalog.Proofs.Geometry.Ground
import StreamCatalog.Proofs.Geometry.Corners
import StreamCatalog.Proofs.Geometry.Grid
import StreamCatalog.Proofs.Geometry.Clusters
import StreamCatalog.Proofs.Geometry.BoxUnion
import StreamCatalog.Proofs.Geometry.Envelopes
import StreamCatalog.Proofs.Geometry.Reapplication
import StreamCatalog.Proofs.Chunk.Tracks
import StreamCatalog.Proofs.Stream.Merging
import StreamCatalog.Proofs.Monitor.Openings
import StreamCatalog.Proofs.Record.Equality
import StreamCatalog.Proofs.Commit.Differences
