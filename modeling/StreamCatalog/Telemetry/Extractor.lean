import StreamCatalog.Klv.Scan
import StreamCatalog.Pes
import StreamCatalog.Telemetry.Sample

/-!
# Samples of a packet stream

An `Extractor` feeds packets to the unit assembler and decodes every KLV unit
in each completed unit once. KLV units that cannot be read are skipped and
counted. `readings` does this for a whole buffer.
-/

namespace StreamCatalog.Telemetry

open Transport (Packet)

/-- What an extractor has seen. -/
structure Stats where
  /-- Packets fed. -/
  packets : Nat
  /-- Completed elementary stream units. -/
  pesUnits : Nat
  /-- KLV units decoded. -/
  decoded : Nat
  /-- KLV units that could not be read. -/
  skipped : Nat
deriving DecidableEq, Repr

/-- The unit assembler and the counts. -/
structure Extractor where
  /-- The units being collected. -/
  assembler : Pes.Assembler
  /-- The counts so far. -/
  stats : Stats

/-- What each KLV unit of an elementary stream unit decodes to. -/
def decodeUnit (u : Pes.Unit) : List (Except Klv.Error Sample) :=
  (Klv.scan u.payload).map (·.bind Sample.ofUnit)

/-- The samples among the results of decoding. -/
def samplesOf (results : List (Except Klv.Error Sample)) : List Sample :=
  results.filterMap Except.toOption

/-- The counts after a completed unit with the given results. -/
def Stats.countUnit (s : Stats) (results : List (Except Klv.Error Sample)) : Stats :=
  let decoded := (samplesOf results).length
  { s with
    pesUnits := s.pesUnits + 1
    decoded := s.decoded + decoded
    skipped := s.skipped + (results.length - decoded) }

namespace Extractor

/-- The state before the first packet. -/
def initial : Extractor := ⟨.initial, ⟨0, 0, 0, 0⟩⟩

/-- Decode completed units. -/
def decodeAll (s : Stats) (units : List Pes.Unit) : List Sample × Stats :=
  let results := units.map decodeUnit
  (results.flatMap samplesOf, results.foldl Stats.countUnit s)

/-- Feed a packet; the answer holds the samples it completes. -/
def push (e : Extractor) (p : Packet) : List Sample × Extractor :=
  let (units, assembler) := e.assembler.push p
  let (samples, stats) := decodeAll { e.stats with packets := e.stats.packets + 1 } units
  (samples, ⟨assembler, stats⟩)

/-- Feed the bytes of a packet. Bytes that are no packet change nothing. -/
def pushBytes (e : Extractor) (bs : Bytes) : List Sample × Extractor :=
  match Packet.parse bs with
  | .ok p => e.push p
  | .error _ => ([], e)

/-- Decode the units that are still being collected. -/
def finish (e : Extractor) : List Sample × Extractor :=
  let (units, assembler) := e.assembler.flush
  let (samples, stats) := decodeAll e.stats units
  (samples, ⟨assembler, stats⟩)

end Extractor

/-- The samples of a packet sequence with the counts after each, and the counts at the end. -/
def readingsFrom (e : Extractor) : List Packet → List (Sample × Stats) × Stats
  | [] =>
    let (samples, e) := e.finish
    (samples.map (·, e.stats), e.stats)
  | p :: rest =>
    let (samples, e) := e.push p
    let (later, stats) := readingsFrom e rest
    (samples.map (·, e.stats) ++ later, stats)

/-- The samples of a buffer of packets with the counts after each, and the counts at the end. -/
def readings (bs : Bytes) : List (Sample × Stats) × Stats :=
  readingsFrom .initial (Packet.sequence bs)

end StreamCatalog.Telemetry
