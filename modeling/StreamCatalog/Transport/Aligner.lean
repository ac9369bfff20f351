import StreamCatalog.Number.Hexadecimal
import StreamCatalog.Transport.Packet

/-!
# Packet alignment across datagrams

Datagrams split a transport stream anywhere. An `Aligner` keeps the incomplete
packet at the end of one datagram and completes it with the next. Once it is
synchronised, a datagram has to go on exactly at the packet boundary; one that
does not is refused, and the aligner looks for the next sync byte again.
-/

namespace StreamCatalog.Transport

/-- The state between two datagrams. -/
structure Aligner where
  /-- The bytes of an incomplete packet. -/
  pending : Bytes
  /-- Whether the position of the next packet boundary is known. -/
  synced : Bool
deriving DecidableEq, Repr

/-- Why a datagram is refused. -/
inductive DatagramFault where
  /-- The datagram has no bytes. -/
  | empty
  /-- The byte `found` stands at `offset` where a packet has to start. -/
  | misaligned (offset : Nat) (found : UInt8)
deriving DecidableEq, Repr

/-- The wording of a fault. -/
def DatagramFault.message : DatagramFault → String
  | .empty => "Empty datagram"
  | .misaligned offset found =>
    "Datagram misaligned: expected sync byte at offset " ++ toString offset ++
      ", found 0x" ++ hexUpper 2 found.toNat

/-- The bytes from the first sync byte on. -/
def seekSync (bs : Bytes) : Bytes :=
  bs.dropWhile (· ≠ syncByte)

theorem length_seekSync_le (bs : Bytes) : (seekSync bs).length ≤ bs.length :=
  (List.dropWhile_suffix _).length_le

/-- Cut `bs` into packets of 188 bytes that start with the sync byte, skipping what
stands before a sync byte, and an incomplete packet at the end. -/
def cutPackets (bs : Bytes) : List Bytes × Bytes :=
  match _cut : Bytes.splitAt? packetSize (seekSync bs) with
  | none => ([], seekSync bs)
  | some (packet, rest) =>
    let (packets, pending) := cutPackets rest
    (packet :: packets, pending)
termination_by bs.length
decreasing_by
  obtain ⟨hsize, happ⟩ := Bytes.splitAt?_eq_some_iff.1 _cut
  have hle := length_seekSync_le bs
  have hlen := congrArg List.length happ
  simp only [List.length_append, hsize, packetSize] at hlen
  omega

namespace Aligner

/-- The state before the first datagram. -/
def initial : Aligner := ⟨[], false⟩

/-- Where in the next datagram a packet has to start. -/
def boundary (a : Aligner) : Nat :=
  (packetSize - a.pending.length) % packetSize

/-- What is wrong with a datagram in this state, if anything. -/
def refusal? (a : Aligner) (datagram : Bytes) : Option DatagramFault :=
  if datagram.isEmpty then
    some .empty
  else if a.synced then
    match datagram[a.boundary]? with
    | some found => if found = syncByte then none else some (.misaligned a.boundary found)
    | none => none
  else
    none

/-- Accept a datagram and give the packets it completes, or refuse it. A refused
datagram leaves nothing behind, except that a misaligned one ends the synchronisation. -/
def push (a : Aligner) (datagram : Bytes) : Except DatagramFault (List Bytes) × Aligner :=
  match a.refusal? datagram with
  | some .empty => (.error .empty, a)
  | some fault => (.error fault, initial)
  | none =>
    let (packets, pending) := cutPackets (a.pending ++ datagram)
    (.ok packets, { pending, synced := !packets.isEmpty || !pending.isEmpty })

end Aligner

end StreamCatalog.Transport
