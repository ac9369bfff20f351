import StreamCatalog.Proofs.Transport.Conservation

/-!
# Packets scattered among noise

Noise is bytes without a sync byte. Where noise of any length stands before, between and
behind packets that can be read, both ways of reading a buffer find exactly these packets
(`ScatteredPackets.read_exactly`), however many sync bytes the packets hold themselves: no
packet is looked for within one that was read.
-/

namespace StreamCatalog.Transport

/-- Where every packet that is cut can be read, none is hidden within one that cannot. -/
theorem nothingHidden_of_cutPackets {bs : Bytes}
    (h : ∀ packet ∈ (cutPackets bs).1, ∃ p, Packet.parse packet = .ok p) : NothingHidden bs := by
  intro front packet rest hcut hunreadable
  have hmem : packet ∈ (cutPackets bs).1 := by
    rw [hcut.cutPackets_eq]
    exact List.mem_append_right _ List.mem_cons_self
  obtain ⟨p, hp⟩ := h packet hmem
  exact absurd hp (hunreadable p)

/-- Bytes among which there is no sync byte. -/
structure Noise where
  /-- The bytes. -/
  bytes : Bytes
  /-- None of them is the sync byte. -/
  not_mem : syncByte ∉ bytes

/-- The bytes of one packet, and what is read from them. -/
structure ReadablePacket where
  /-- The bytes. -/
  bytes : Bytes
  /-- What is read. -/
  packet : Packet
  /-- The bytes are as many as those of a packet. -/
  length_eq : bytes.length = packetSize
  /-- They can be read. -/
  parse_eq : Packet.parse bytes = .ok packet

/-- A packet that can be read starts with the sync byte. -/
theorem ReadablePacket.isFramed (p : ReadablePacket) : IsFramed p.bytes := by
  obtain ⟨-, rest, hbytes⟩ := Packet.of_parse_eq_ok p.parse_eq
  exact ⟨p.length_eq, by rw [hbytes]; rfl⟩

/-- A packet may have a sync byte everywhere. -/
example : ReadablePacket where
  bytes := List.replicate packetSize syncByte
  packet := ⟨false, true, 0x747, 1, 0, 7, false, []⟩
  length_eq := List.length_replicate
  parse_eq := by decide +kernel

/-- Packets that can be read, with noise before, between and behind them. -/
structure ScatteredPackets where
  /-- The packets in order, each with the noise before it. -/
  placed : List (Noise × ReadablePacket)
  /-- The noise behind the last packet. -/
  tail : Noise

namespace ScatteredPackets

/-- The buffer that holds noise and packets. -/
def bytes (s : ScatteredPackets) : Bytes :=
  (s.placed.flatMap fun (noise, p) => noise.bytes ++ p.bytes) ++ s.tail.bytes

/-- The packets as they are written. -/
def written (s : ScatteredPackets) : List Bytes :=
  s.placed.map (·.2.bytes)

/-- The packets as they are read. -/
def packets (s : ScatteredPackets) : List Packet :=
  s.placed.map (·.2.packet)

theorem interspersed_bytes (s : ScatteredPackets) : Interspersed s.bytes s.written [] := by
  obtain ⟨placed, tail⟩ := s
  induction placed with
  | nil =>
    have hlast := Interspersed.last tail.not_mem isIncomplete_nil
    rw [List.append_nil] at hlast
    exact hlast
  | cons first placed ih =>
    have hpacket := Interspersed.packet first.1.not_mem first.2.isFramed ih
    simpa only [bytes, written, List.flatMap_cons, List.map_cons, List.append_assoc] using hpacket

theorem cutPackets_bytes (s : ScatteredPackets) : cutPackets s.bytes = (s.written, []) :=
  s.interspersed_bytes.cutPackets_eq

theorem map_parse_written (s : ScatteredPackets) :
    s.written.map Packet.parse = s.packets.map .ok := by
  simp only [written, packets, List.map_map]
  exact List.map_congr_left fun placed _ => placed.2.parse_eq

/-- Reading in sequence finds the packets, and nothing else. -/
theorem sequence_bytes (s : ScatteredPackets) : Packet.sequence s.bytes = s.packets := by
  have hreadable : ∀ packet ∈ (cutPackets s.bytes).1, ∃ p, Packet.parse packet = .ok p := by
    rw [s.cutPackets_bytes]
    intro packet hpacket
    obtain ⟨placed, -, rfl⟩ := List.mem_map.1 hpacket
    exact ⟨_, placed.2.parse_eq⟩
  have hread : (fun placed : Noise × ReadablePacket => (Packet.parse placed.2.bytes).toOption) =
      fun placed => some placed.2.packet := by
    funext placed
    rw [placed.2.parse_eq]
    rfl
  rw [sequence_eq_of_nothingHidden (nothingHidden_of_cutPackets hreadable), s.cutPackets_bytes,
    written, List.filterMap_map, Function.comp_def, hread, List.filterMap_eq_map']
  rfl

/-- A buffer that a new aligner gets as one datagram is refused only when there is nothing in it. -/
theorem refusal?_bytes (s : ScatteredPackets) :
    Aligner.initial.refusal? s.bytes = if s.bytes = [] then some .empty else none := by
  simp only [Aligner.refusal?, List.isEmpty_iff]
  rfl

/-- Reading a buffer of packets scattered among noise in sequence gives exactly the packets in
order. A new aligner that gets the buffer as one datagram gives exactly the bytes of the same
packets, keeps nothing, and is aligned if there was a packet; a buffer without a byte, which holds no
packet, is refused as an empty datagram. -/
theorem read_exactly (s : ScatteredPackets) :
    Packet.sequence s.bytes = s.packets ∧
      s.written.map Packet.parse = s.packets.map .ok ∧
      Aligner.initial.push s.bytes =
        if s.bytes = [] then (.error .empty, .initial)
        else (.ok s.written, ⟨[], !s.written.isEmpty⟩) := by
  refine ⟨s.sequence_bytes, s.map_parse_written, ?_⟩
  by_cases hempty : s.bytes = []
  · rw [if_pos hempty, Aligner.push, s.refusal?_bytes, if_pos hempty]
  · have haccepted : Aligner.initial.refusal? s.bytes = none := by
      rw [s.refusal?_bytes, if_neg hempty]
    rw [if_neg hempty, Aligner.push_of_refusal?_eq_none haccepted, Aligner.initial, List.nil_append,
      s.cutPackets_bytes, List.isEmpty_nil, Bool.not_true, Bool.or_false]

end ScatteredPackets

end StreamCatalog.Transport
