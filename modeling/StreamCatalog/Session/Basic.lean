import StreamCatalog.Chunk.Directory
import StreamCatalog.Chunk.Open
import StreamCatalog.Commit.Basic
import StreamCatalog.Session.Report
import StreamCatalog.Stream.Config
import StreamCatalog.Telemetry.Extractor
import StreamCatalog.Transport.Aligner
import StreamCatalog.Transport.Quality

/-!
# The reception of a stream

A session takes the datagrams of one stream. Each datagram that is accepted is
written unchanged to the open chunk, while its packets are read for telemetry.
The chunk is closed when the condition of the configuration holds, after a
datagram or between two, and its commit is left to run beside the reception.
A chunk that cannot be opened, written or closed is lost, and the next datagram
opens another one.
-/

namespace StreamCatalog

/-- The commit of a chunk whose file is closed. -/
structure ChunkCommit where
  /-- How the chunk is committed. -/
  action : CommitAction
  /-- The chunk. -/
  chunk : Chunk
  /-- The name of its file. -/
  fileName : String
  /-- What was written to the file. -/
  content : Bytes

/-- The reception of a stream. -/
structure Session where
  /-- The configuration of the stream. -/
  config : StreamConfig
  /-- The number of the last chunk that was opened. -/
  sequence : Nat
  /-- Cuts datagrams into packets. -/
  aligner : Transport.Aligner
  /-- Counts what is wrong with packets. -/
  analyzer : Transport.Analyzer
  /-- Finds telemetry in packets. -/
  extractor : Telemetry.Extractor
  /-- The chunk that is being written. -/
  chunk : Option OpenChunk
  /-- The commits that run, in the order in which their chunks were closed. -/
  running : List ChunkCommit
  /-- The results of commits that have ended and are not yet counted. -/
  ended : List (Except CommitError Record)
  /-- The report on the stream. -/
  report : StreamReport

/-- How the chunks of a stream are committed. -/
def StreamConfig.commitAction (c : StreamConfig) : CommitAction :=
  .standard c.commitSettings

/-- What the packets of a datagram tell. -/
structure PacketFindings where
  /-- How many gaps there are in continuity counters. -/
  gaps : Nat
  /-- The telemetry that is complete. -/
  samples : List Telemetry.Sample

/-- What two groups of packets tell. -/
def PacketFindings.append (a b : PacketFindings) : PacketFindings :=
  ⟨a.gaps + b.gaps, a.samples ++ b.samples⟩

namespace Session

/-- A session that has received nothing. -/
def start (config : StreamConfig) (report : StreamReport) : Session where
  config := config
  sequence := 0
  aligner := .initial
  analyzer := .initial
  extractor := .initial
  chunk := none
  running := []
  ended := []
  report := report

/-- How many bytes the open chunk has. -/
def chunkBytes (s : Session) : Nat := (s.chunk.map (·.byteLength)).getD 0

/-! ## Packets -/

/-- Read one packet. A packet that is none is passed over. -/
def readPacket (s : Session) (packet : Bytes) : PacketFindings × Session :=
  match Transport.Packet.parse packet with
  | .error _ => (⟨0, []⟩, s)
  | .ok p =>
    let (gap, analyzer) := s.analyzer.observe p
    let (samples, extractor) := s.extractor.push p
    (⟨if gap then 1 else 0, samples⟩, { s with analyzer := analyzer, extractor := extractor })

/-- Read packets one after the other. -/
def readPackets (s : Session) : List Bytes → PacketFindings × Session
  | [] => (⟨0, []⟩, s)
  | packet :: packets =>
    let (found, s) := s.readPacket packet
    let (more, s) := readPackets s packets
    (found.append more, s)

/-! ## Chunks -/

/-- Start the commit of a chunk whose file is closed, or lose the chunk if it cannot be closed. -/
def closeFile (chunk : OpenChunk) (now : Moment) (s : Session) (d : ChunkDirectory) :
    Session × ChunkDirectory :=
  match d.refusals.closing with
  | some fault =>
    let message := "chunk #" ++ toString chunk.sequence ++ " lost: " ++ fault.message
    ({ s with report := s.report.loseChunk message }, d.remove chunk.fileName)
  | none =>
    let commit := ⟨s.config.commitAction, chunk.complete now, chunk.fileName, chunk.content⟩
    ({ s with running := s.running ++ [commit] }, d)

/-- Close the open chunk, if there is one. The state is marked meanwhile. -/
def rollover (now : Moment) (s : Session) (d : ChunkDirectory) : Session × ChunkDirectory :=
  match s.chunk with
  | none => (s, d)
  | some chunk =>
    let (phase, marked) := RolloverPhase.mark s.report.state
    let s := { s with chunk := none, report := s.report.withState marked }
    let (s, d) := s.closeFile chunk now d
    let (_, restored) := phase.step s.report.state
    ({ s with report := s.report.withState restored }, d)

/-- Whether the open chunk is to be closed. -/
def isDue (s : Session) (now : Moment) : Bool :=
  s.chunk.any fun chunk => s.config.condition.isSatisfied (chunk.progress now)

/-- Close the open chunk if it is to be closed, and say whether it was. -/
def tick (now : Moment) (s : Session) (d : ChunkDirectory) : Bool × Session × ChunkDirectory :=
  if s.isDue now then (true, s.rollover now d) else (false, s, d)

/-- The open chunk, or a new one with the next number. -/
def ensureChunk (now : Moment) (s : Session) (d : ChunkDirectory) :
    Except FileFault (OpenChunk × Session × ChunkDirectory) :=
  match s.chunk with
  | some chunk => .ok (chunk, s, d)
  | none =>
    let chunk := OpenChunk.start s.config.title (s.sequence + 1) now
    (d.create chunk.fileName).map fun d =>
      let report := s.report.startChunk
      (chunk, { s with sequence := s.sequence + 1, chunk := some chunk, report := report }, d)

/-- Give up a chunk that cannot be written. -/
def abandon (chunk : OpenChunk) (fault : FileFault) (s : Session) (d : ChunkDirectory) :
    Session × ChunkDirectory :=
  let message := "chunk #" ++ toString chunk.sequence ++ " abandoned: " ++ fault.message
  ({ s with chunk := none, report := s.report.loseChunk message }, d.remove chunk.fileName)

/-- Give up a chunk that cannot be opened. Its number is used again. -/
def giveUp (fault : FileFault) (s : Session) : Session :=
  let message :=
    "could not open chunk #" ++ toString (s.sequence + 1) ++ ": " ++ fault.message
  { s with report := s.report.loseChunk message }

/-- Write a datagram with its telemetry, and say whether that closes the chunk. -/
def write (datagram : Bytes) (samples : List Telemetry.Sample) (now : Moment) (s : Session)
    (d : ChunkDirectory) : Bool × Session × ChunkDirectory :=
  match s.ensureChunk now d with
  | .error fault => (false, s.giveUp fault, d)
  | .ok (chunk, s, d) =>
    match d.refusals.writing with
    | some fault => (false, s.abandon chunk fault d)
    | none =>
      let chunk := (chunk.write datagram now).addSamples samples
      let report := s.report.addSamples samples.length
      { s with chunk := some chunk, report := report }.tick now d

/-- Take a datagram, and say whether it closes a chunk. A datagram that is refused leaves nothing
behind but its count. -/
def receive (datagram : Bytes) (now : Moment) (s : Session) (d : ChunkDirectory) :
    Bool × Session × ChunkDirectory :=
  match s.aligner.push datagram with
  | (.error _, aligner) =>
    (false, { s with aligner := aligner, report := s.report.dropDatagram }, d)
  | (.ok packets, aligner) =>
    let (found, s) := { s with aligner := aligner }.readPackets packets
    let report := s.report.acceptDatagram datagram.length found.gaps
    { s with report := report }.write datagram found.samples now d

/-- Go on under another configuration. The open chunk is closed under the old one. -/
def reconfigure (config : StreamConfig) (now : Moment) (s : Session) (d : ChunkDirectory) :
    Session × ChunkDirectory :=
  let (s, d) := s.rollover now d
  ({ s with config := config }, d)

/-- The telemetry that is not yet complete goes into the open chunk, if there is one. -/
def flush (s : Session) : Session :=
  match s.chunk with
  | none => s
  | some chunk =>
    let (samples, extractor) := s.extractor.finish
    { s with
      extractor := extractor
      chunk := some (chunk.addSamples samples)
      report := s.report.addSamples samples.length }

/-- End the reception. Commits go on. -/
def shutdown (now : Moment) (s : Session) (d : ChunkDirectory) : Session × ChunkDirectory :=
  let (s, d) := s.flush.rollover now d
  ({ s with aligner := .initial, analyzer := .initial }, d)

end Session

/-! ## Events -/

/-- What may happen to a session. -/
inductive SessionEvent where
  /-- A datagram arrives. -/
  | datagram (bytes : Bytes)
  /-- Time has passed. -/
  | tick
  /-- The open chunk is to be closed. -/
  | rollover
  /-- The configuration changes. -/
  | configure (config : StreamConfig)
  /-- The reception ends. -/
  | shutdown

/-- The session after an event, and whether the event itself closed a chunk. -/
def Session.step (e : SessionEvent) (now : Moment) (s : Session) (d : ChunkDirectory) :
    Bool × Session × ChunkDirectory :=
  match e with
  | .datagram bytes => s.receive bytes now d
  | .tick => s.tick now d
  | .rollover => (false, s.rollover now d)
  | .configure config => (false, s.reconfigure config now d)
  | .shutdown => (false, s.shutdown now d)

end StreamCatalog
