import StreamCatalog.Transport.Packet

/-!
# Carrying KLV bytes in transport packets

`carry` wraps bytes in one packetised unit of the private stream and spreads it
over packets of one identifier with consecutive continuity counters. A part
that does not fill its packet is preceded by adaptation field stuffing.
-/

namespace StreamCatalog.Transport

/-- The number of bytes that follow the four header bytes of a packet. -/
def bodySize : Nat := 184

/-- The stream identifier of the private stream that carries asynchronous KLV. -/
def privateStream : UInt8 := 0xBD

/-- The unit that carries `content`: start code, stream identifier, length, flags. -/
def privateUnit (content : Bytes) : Bytes :=
  [0x00, 0x00, 0x01, privateStream] ++ Bytes.ofNat 2 (content.length + 3) ++
    [0x80, 0x00, 0x00] ++ content

/-- An adaptation field of `n` bytes that holds nothing. -/
def stuffing : Nat → Bytes
  | 0 => []
  | 1 => [0x00]
  | n + 2 => UInt8.ofNat (n + 1) :: 0x00 :: List.replicate n 0xFF

/-- The packet that holds `part`, which is at most 184 bytes long. -/
def packetOf (pid counter : Nat) (unitStart : Bool) (part : Bytes) : Bytes :=
  let filler := stuffing (bodySize - part.length)
  let control := if filler.isEmpty then 0x10 else 0x30
  [syncByte, UInt8.ofNat (pid / 256 % 32 + if unitStart then 0x40 else 0), UInt8.ofNat pid,
    UInt8.ofNat (control + counter % 16)] ++ filler ++ part

/-- Spread `bs` over packets, the first of which has the given counter. -/
def packetsFrom (pid counter : Nat) (unitStart : Bool) (bs : Bytes) : Bytes :=
  if bs.isEmpty then []
  else
    packetOf pid counter unitStart (bs.take bodySize) ++
      packetsFrom pid (counter + 1) false (bs.drop bodySize)
termination_by bs.length
decreasing_by
  cases bs with
  | nil => contradiction
  | cons => simp only [List.length_drop, List.length_cons, bodySize]; omega

/-- The packets that carry `content` as one unit of `pid`, with counters from `counter` on. -/
def carry (pid : Nat) (content : Bytes) (counter : Nat) : Bytes :=
  packetsFrom pid counter true (privateUnit content)

/-- A filler packet. -/
def nullPacket : Bytes :=
  [syncByte, 0x1F, 0xFF, 0x10] ++ List.replicate bodySize 0xFF

end StreamCatalog.Transport
