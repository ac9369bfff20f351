import StreamCatalog.Session.State

/-!
# The report on a stream

What is known of a stream from outside: its state, what was counted since the
stream was added, and the last error.
-/

namespace StreamCatalog

/-- What is counted of a stream. -/
structure StreamCounts where
  /-- Datagrams that were accepted. -/
  datagrams : Nat
  /-- Bytes of the datagrams that were accepted. -/
  bytesReceived : Nat
  /-- Datagrams that were refused. -/
  datagramsDropped : Nat
  /-- Gaps in continuity counters. -/
  continuityErrors : Nat
  /-- Samples of telemetry that went into chunks. -/
  samples : Nat
  /-- Chunks that were opened. -/
  chunksStarted : Nat
  /-- Chunks that were committed. -/
  chunksCommitted : Nat
  /-- Chunks that could not be opened, written, closed or committed. -/
  chunksLost : Nat
deriving DecidableEq, Repr

/-- The report on a stream. -/
structure StreamReport where
  /-- The state. -/
  state : StreamState
  /-- The counts. -/
  counts : StreamCounts
  /-- What was said about the last error. -/
  lastError : Option String
deriving DecidableEq, Repr

namespace StreamReport

/-- The report on a new stream. -/
def initial : StreamReport := ⟨.stopped, ⟨0, 0, 0, 0, 0, 0, 0, 0⟩, none⟩

/-- The report with another state. -/
def withState (r : StreamReport) (state : StreamState) : StreamReport := { r with state := state }

/-- A datagram was refused. -/
def dropDatagram (r : StreamReport) : StreamReport :=
  { r with counts := { r.counts with datagramsDropped := r.counts.datagramsDropped + 1 } }

/-- A datagram of some bytes and with some gaps was accepted. -/
def acceptDatagram (r : StreamReport) (byteLength gaps : Nat) : StreamReport :=
  { r with counts := { r.counts with
      datagrams := r.counts.datagrams + 1
      bytesReceived := r.counts.bytesReceived + byteLength
      continuityErrors := r.counts.continuityErrors + gaps } }

/-- Some samples went into a chunk. -/
def addSamples (r : StreamReport) (count : Nat) : StreamReport :=
  { r with counts := { r.counts with samples := r.counts.samples + count } }

/-- A chunk was opened. -/
def startChunk (r : StreamReport) : StreamReport :=
  { r with counts := { r.counts with chunksStarted := r.counts.chunksStarted + 1 } }

/-- A chunk was committed. -/
def commitChunk (r : StreamReport) : StreamReport :=
  { r with counts := { r.counts with chunksCommitted := r.counts.chunksCommitted + 1 } }

/-- An error occurred. -/
def fail (r : StreamReport) (message : String) : StreamReport :=
  { r with lastError := some message }

/-- A chunk was lost through an error. -/
def loseChunk (r : StreamReport) (message : String) : StreamReport :=
  { r with
    counts := { r.counts with chunksLost := r.counts.chunksLost + 1 }
    lastError := some message }

end StreamReport

end StreamCatalog
