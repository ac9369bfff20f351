import StreamCatalog.Bytes

/-!
# Transport packets

A transport packet is 188 bytes that start with the sync byte: a four-byte
header, an optional adaptation field, and a payload. `Packet.parse` reads the
packet at the front of a buffer; `Packet.sequence` reads all packets of a
buffer, skipping to the next sync byte where none can be read.
-/

namespace StreamCatalog.Transport

/-- The number of bytes of a packet. -/
def packetSize : Nat := 188

/-- The first byte of every packet. -/
def syncByte : UInt8 := 0x47

/-- The packet identifier of filler packets. -/
def nullPid : Nat := 0x1FFF

/-- A parsed packet. -/
structure Packet where
  /-- The packet has an uncorrected bit error. -/
  transportError : Bool
  /-- A unit of the carried stream starts in this packet. -/
  unitStart : Bool
  /-- The packet identifier, of 13 bits. -/
  pid : Nat
  /-- The scrambling control, of two bits; zero is clear. -/
  scrambling : Nat
  /-- Which of adaptation field (2) and payload (1) are present. -/
  adaptationControl : Nat
  /-- The continuity counter, of four bits. -/
  continuity : Nat
  /-- The adaptation field announces a discontinuity. -/
  discontinuity : Bool
  /-- The carried bytes. -/
  payload : Bytes
deriving DecidableEq, Repr

/-- Why no packet can be read. -/
inductive PacketFault where
  /-- Fewer than 188 bytes. -/
  | tooShort
  /-- The first byte is not the sync byte. -/
  | missingSync
  /-- The adaptation field runs past the packet. -/
  | adaptationOverflow
deriving DecidableEq, Repr

/-- The wording of a fault. -/
def PacketFault.message : PacketFault → String
  | .tooShort => "Invalid TS packet: Packet too short"
  | .missingSync => "Invalid TS packet: Invalid sync byte"
  | .adaptationOverflow => "Invalid TS packet: Adaptation field overflows packet"

namespace Packet

/-- Whether the packet has an adaptation field. -/
def hasAdaptationField (p : Packet) : Bool := 2 ≤ p.adaptationControl

/-- Whether the packet is marked as carrying a payload. -/
def hasPayload (p : Packet) : Bool := p.adaptationControl % 2 = 1

/-- Whether the payload is scrambled. -/
def isScrambled (p : Packet) : Bool := p.scrambling ≠ 0

/-- Split what follows the header into discontinuity indicator and payload,
when its first byte is the length of an adaptation field. -/
def splitAdaptation : Bytes → Except PacketFault (Bool × Bytes)
  | [] => .ok (false, [])
  | size :: content =>
    if content.length < size.toNat then
      .error .adaptationOverflow
    else
      let flags := content.take size.toNat
      .ok (flags.head?.any (fun b => 0x80 ≤ b.toNat), content.drop size.toNat)

/-- The packet in the first 188 bytes of `bs`. -/
def parse (bs : Bytes) : Except PacketFault Packet :=
  match Bytes.splitAt? packetSize bs with
  | some (sync :: flags :: pidLow :: control :: body, _) =>
    if sync ≠ syncByte then
      .error .missingSync
    else
      let adaptationControl := control.toNat / 16 % 4
      let split := if 2 ≤ adaptationControl then splitAdaptation body else .ok (false, body)
      split.map fun (discontinuity, rest) =>
        { transportError := 128 ≤ flags.toNat
          unitStart := 64 ≤ flags.toNat % 128
          pid := flags.toNat % 32 * 256 + pidLow.toNat
          scrambling := control.toNat / 64
          adaptationControl
          continuity := control.toNat % 16
          discontinuity
          payload := if adaptationControl % 2 = 1 then rest else [] }
  | _ => .error .tooShort

/-- Every packet of a buffer, in order. Where none can be read, reading goes on
one byte later. -/
def sequence : Bytes → List Packet
  | [] => []
  | b :: rest =>
    match parse (b :: rest) with
    | .ok p => p :: sequence (rest.drop (packetSize - 1))
    | .error _ => sequence rest
termination_by bs => bs.length
decreasing_by
  all_goals simp only [List.length_drop, List.length_cons]
  all_goals omega

end Packet

end StreamCatalog.Transport
