import StreamCatalog.Transport.Packet
import Std.Data.ExtTreeMap

/-!
# Packetised elementary stream units

Metadata travels in units that start in a packet with the unit start flag and
go on in later packets of the same identifier. An `Assembler` collects the
units of the two metadata streams; other streams are looked at once per start
and skipped. A unit with a declared length ends when it is complete, one
without at the next start or at the end. A continuity gap inside a unit drops it.
-/

namespace StreamCatalog.Pes

open Transport (Packet nullPid)

/-- A complete unit. -/
structure Unit where
  /-- The packet identifier that carried it. -/
  pid : Nat
  /-- The stream identifier in its header. -/
  streamId : UInt8
  /-- Its content, without the header. -/
  payload : Bytes
deriving DecidableEq, Repr

/-- A unit that is being collected. -/
structure Partial where
  /-- The stream identifier in its header. -/
  streamId : UInt8
  /-- The content so far. -/
  data : Bytes
  /-- The declared length of the content, if any. -/
  expected : Option Nat
  /-- The continuity counter of the last packet used. -/
  lastCounter : Nat
deriving DecidableEq, Repr

/-- Whether the declared length has been reached. -/
def Partial.isComplete (u : Partial) : Bool :=
  u.expected.any (· ≤ u.data.length)

/-- The unit, cut to its declared length. -/
def Partial.toUnit (u : Partial) (pid : Nat) : Unit :=
  { pid
    streamId := u.streamId
    payload := match u.expected with
      | some n => u.data.take n
      | none => u.data }

/-- The stream identifiers whose units are collected: private stream 1 and the metadata stream. -/
def metadataStreams : List UInt8 := [0xBD, 0xFC]

/-- Read the header of a unit at the front of a payload. The declared length counts
everything after the length field, and zero leaves it open. -/
def startUnit (payload : Bytes) (counter : Nat) : Option Partial :=
  match payload with
  | 0x00 :: 0x00 :: 0x01 :: streamId :: high :: low :: _ :: _ :: headerSize :: content =>
    if metadataStreams.contains streamId then
      match Bytes.splitAt? headerSize.toNat content with
      | none => none
      | some (_, data) =>
        let declared := high.toNat * 256 + low.toNat
        some
          { streamId
            data
            expected := if declared = 0 then none else some (declared - (3 + headerSize.toNat))
            lastCounter := counter }
    else
      none
  | _ => none

/-- The units being collected, by packet identifier. -/
structure Assembler where
  /-- The units being collected. -/
  partials : Std.ExtTreeMap Nat Partial
  /-- How many units were dropped at a continuity gap. -/
  discarded : Nat

namespace Assembler

/-- The state before the first packet. -/
def initial : Assembler := ⟨∅, 0⟩

/-- Whether a packet carries nothing to collect. -/
def ignores (p : Packet) : Bool :=
  p.transportError || p.isScrambled || p.pid = nullPid || p.payload.isEmpty

/-- The unit that stops being collected at a new start or at the end, unless it has no content. -/
def closing (pid : Nat) (u : Partial) : Option Unit :=
  if u.data.isEmpty then none else some (u.toUnit pid)

/-- Feed a packet with the unit start flag. -/
def start (a : Assembler) (p : Packet) : List Unit × Assembler :=
  let ended := (a.partials[p.pid]?.bind (closing p.pid)).toList
  let others := a.partials.erase p.pid
  match startUnit p.payload p.continuity with
  | none => (ended, { a with partials := others })
  | some u =>
    if u.isComplete then
      (ended ++ [u.toUnit p.pid], { a with partials := others })
    else
      (ended, { a with partials := others.insert p.pid u })

/-- Feed a packet that goes on with the unit `u`. A packet with the counter of the
last one is a duplicate; any other counter but the next one is a gap. -/
def extend (a : Assembler) (p : Packet) (u : Partial) : List Unit × Assembler :=
  if p.continuity = u.lastCounter then
    ([], a)
  else if p.continuity ≠ (u.lastCounter + 1) % 16 ∧ p.discontinuity = false then
    ([], ⟨a.partials.erase p.pid, a.discarded + 1⟩)
  else
    let u := { u with lastCounter := p.continuity, data := u.data ++ p.payload }
    if u.isComplete then
      ([u.toUnit p.pid], { a with partials := a.partials.erase p.pid })
    else
      ([], { a with partials := a.partials.insert p.pid u })

/-- Feed a packet; the answer holds the units it completes. -/
def push (a : Assembler) (p : Packet) : List Unit × Assembler :=
  if ignores p then
    ([], a)
  else if p.unitStart then
    a.start p
  else
    match a.partials[p.pid]? with
    | none => ([], a)
    | some u => a.extend p u

/-- End every unit being collected, in the order of packet identifiers. -/
def flush (a : Assembler) : List Unit × Assembler :=
  (a.partials.toList.filterMap (fun (pid, u) => closing pid u), { a with partials := ∅ })

end Assembler

end StreamCatalog.Pes
