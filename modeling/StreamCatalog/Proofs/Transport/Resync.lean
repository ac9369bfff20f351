import StreamCatalog.Proofs.Transport.Alignment

/-!
# Reading packets of a whole buffer

Two ways lead from a buffer to its packets. The aligner cuts every 188 bytes
from a sync byte on, and some of what it cuts may not be readable; reading the
buffer in sequence looks for the next packet right behind the first byte of one
that is not readable. Both give the same packets unless a packet can be read
from within an unreadable one (`sequence_eq_of_nothingHidden`).
-/

namespace StreamCatalog.Transport

namespace Packet

/-- A packet is read from its own bytes alone. -/
theorem parse_append {packet : Bytes} (hsize : packet.length = packetSize) (rest : Bytes) :
    parse (packet ++ rest) = parse packet := by
  have hsplit : Bytes.splitAt? packetSize (packet ++ rest) = some (packet, rest) :=
    Bytes.splitAt?_eq_some_iff.2 ⟨hsize, rfl⟩
  have hwhole : Bytes.splitAt? packetSize packet = some (packet, []) :=
    Bytes.splitAt?_eq_some_iff.2 ⟨hsize, (List.append_nil packet).symm⟩
  rw [parse, parse, hsplit, hwhole]
  match packet with
  | [] => rfl
  | [_] => rfl
  | [_, _] => rfl
  | [_, _, _] => rfl
  | _ :: _ :: _ :: _ :: _ => rfl

/-- A packet that is read starts with the sync byte and is there as a whole. -/
theorem of_parse_eq_ok {bs : Bytes} {p : Packet} (h : parse bs = .ok p) :
    packetSize ≤ bs.length ∧ ∃ rest, bs = syncByte :: rest := by
  unfold parse at h
  split at h
  · next sync flags pidLow control body rest hsplit =>
    obtain ⟨hsize, hbs⟩ := Bytes.splitAt?_eq_some_iff.1 hsplit
    split at h
    · cases h
    · next hsync =>
      rw [hbs]
      refine ⟨by rw [List.length_append, hsize]; exact Nat.le_add_right .., ?_⟩
      exact ⟨_, by rw [Decidable.not_not.1 hsync, List.cons_append]⟩
  · cases h

theorem sequence_nil : sequence [] = [] := by
  rw [sequence]

/-- Reading goes on one byte later where no packet can be read. -/
theorem sequence_cons_of_error {b : UInt8} {rest : Bytes} (h : ∀ p, parse (b :: rest) ≠ .ok p) :
    sequence (b :: rest) = sequence rest := by
  rw [sequence]
  split
  · next p hp => exact absurd hp (h p)
  · rfl

/-- Reading goes on behind a packet that can be read. -/
theorem sequence_append_of_ok {packet rest : Bytes} {p : Packet}
    (hsize : packet.length = packetSize) (h : parse packet = .ok p) :
    sequence (packet ++ rest) = p :: sequence rest := by
  have hparse : parse (packet ++ rest) = .ok p := by rw [parse_append hsize, h]
  cases packet with
  | nil => cases hsize
  | cons b packet =>
    have hdrop : (packet ++ rest).drop (packetSize - 1) = rest :=
      List.drop_left' (by rw [← hsize, List.length_cons, Nat.add_sub_cancel])
    rw [List.cons_append] at hparse ⊢
    rw [sequence]
    simp only [hparse, hdrop]

/-- Positions at which no packet can be read are passed. -/
theorem sequence_drop (n : Nat) {bs : Bytes} (h : ∀ i < n, ∀ p, parse (bs.drop i) ≠ .ok p) :
    sequence (bs.drop n) = sequence bs := by
  induction n generalizing bs with
  | zero => rfl
  | succ n ih =>
    cases bs with
    | nil => rfl
    | cons b bs =>
      have hlater : ∀ i < n, ∀ p, parse (bs.drop i) ≠ .ok p := fun i hi => h (i + 1) (by omega)
      rw [List.drop_succ_cons, ih hlater, sequence_cons_of_error (h 0 (by omega))]

/-- Bytes short of a packet hold none. -/
theorem sequence_of_short {bs : Bytes} (h : bs.length < packetSize) : sequence bs = [] := by
  rw [← sequence_drop bs.length, List.drop_length, sequence_nil]
  intro i _ p hp
  have hsize := (of_parse_eq_ok hp).1
  rw [List.length_drop] at hsize
  omega

/-- What stands before the first sync byte is passed. -/
theorem sequence_seekSync (bs : Bytes) : sequence (seekSync bs) = sequence bs := by
  induction bs with
  | nil => rfl
  | cons b bs ih =>
    by_cases hb : b = syncByte
    · rw [hb, seekSync_cons_sync]
    · have hnone : ∀ p, parse (b :: bs) ≠ .ok p := by
        intro p hp
        obtain ⟨-, rest, hrest⟩ := of_parse_eq_ok hp
        exact hb (List.cons.inj hrest).1
      rw [sequence_cons_of_error hnone, ← ih, seekSync, seekSync,
        List.dropWhile_cons_of_pos (by simpa using hb)]

end Packet

/-! ## Packets within packets -/

/-- A packet at the front is cut off. -/
theorem cutPackets_packet_append {packet : Bytes} (hsize : packet.length = packetSize)
    (hsync : packet.head? = some syncByte) (rest : Bytes) :
    cutPackets (packet ++ rest) = (packet :: (cutPackets rest).1, (cutPackets rest).2) := by
  obtain ⟨body, rfl⟩ := List.head?_eq_some_iff.1 hsync
  exact cutPackets_of_packet hsize (seekSync_cons_sync (body ++ rest))

/-- The aligner cuts `packet` from `bs`, behind `front` and before `rest`. -/
structure CutAt (bs front packet rest : Bytes) : Prop where
  /-- The three parts are all there is. -/
  eq_append : bs = front ++ (packet ++ rest)
  /-- What stands in front is used up. -/
  boundary : (cutPackets front).2 = []
  /-- The packet has its size. -/
  size : packet.length = packetSize
  /-- The packet starts with the sync byte. -/
  sync : packet.head? = some syncByte

/-- What is cut is among the packets of the buffer, at its place. -/
theorem CutAt.cutPackets_eq {bs front packet rest : Bytes} (h : CutAt bs front packet rest) :
    cutPackets bs =
      ((cutPackets front).1 ++ packet :: (cutPackets rest).1, (cutPackets rest).2) := by
  rw [h.eq_append, cutPackets_append, h.boundary, List.nil_append,
    cutPackets_packet_append h.size h.sync]

/-- A place behind bytes that are used up is a place of the whole buffer. -/
theorem CutAt.append_left {bs front packet rest : Bytes} (h : CutAt bs front packet rest)
    {used : Bytes} (hused : (cutPackets used).2 = []) :
    CutAt (used ++ bs) (used ++ front) packet rest where
  eq_append := by rw [h.eq_append, List.append_assoc]
  boundary := by rw [cutPackets_append, hused, List.nil_append, h.boundary]
  size := h.size
  sync := h.sync

/-- Whether no packet can be read that starts within an unreadable packet that the aligner cuts,
behind its first byte. -/
def NothingHidden (bs : Bytes) : Prop :=
  ∀ front packet rest, CutAt bs front packet rest → (∀ p, Packet.parse packet ≠ .ok p) →
    ∀ i, 0 < i → i < packetSize → ∀ p, Packet.parse ((packet ++ rest).drop i) ≠ .ok p

theorem NothingHidden.of_append {used bs : Bytes} (h : NothingHidden (used ++ bs))
    (hused : (cutPackets used).2 = []) : NothingHidden bs :=
  fun front packet rest hcut => h (used ++ front) packet rest (hcut.append_left hused)

/-- Nothing is hidden where all that starts with a sync byte is a packet that can be read, or has no
other sync byte within the size of a packet. -/
theorem nothingHidden_of_forall {bs : Bytes}
    (h : ∀ k, k + packetSize ≤ bs.length → (bs.drop k).head? = some syncByte →
      (Packet.parse ((bs.drop k).take packetSize)).isOk = true ∨
        syncByte ∉ ((bs.drop k).take packetSize).tail) : NothingHidden bs := by
  intro front packet rest hcut hpacket i hpos hi p hp
  have hsize := hcut.size
  have hdrop : bs.drop front.length = packet ++ rest := by rw [hcut.eq_append, List.drop_left]
  have hhead : (bs.drop front.length).head? = some syncByte := by
    rw [hdrop, List.head?_append, hcut.sync]
    rfl
  have hroom : front.length + packetSize ≤ bs.length := by
    rw [hcut.eq_append, List.length_append, List.length_append]
    omega
  rcases h front.length hroom hhead with hok | hsync
  · rw [hdrop, List.take_left' hsize] at hok
    cases hparse : Packet.parse packet with
    | ok q => exact absurd hparse (hpacket q)
    | error fault =>
      rw [hparse] at hok
      cases hok
  · rw [hdrop, List.take_left' hsize] at hsync
    obtain ⟨-, later, hlater⟩ := Packet.of_parse_eq_ok hp
    rw [List.drop_append_of_le_length (by omega), List.drop_eq_getElem_cons (by omega)] at hlater
    obtain ⟨i, rfl⟩ : ∃ j, i = j + 1 := ⟨i - 1, by omega⟩
    have hmem : packet[i + 1] ∈ packet.tail := by
      rw [← List.getElem_tail (by rw [List.length_tail]; omega)]
      exact List.getElem_mem _
    rw [(List.cons.inj hlater).1] at hmem
    exact hsync hmem

/-- What is left after the search starts with a packet that starts with the sync byte. -/
theorem head?_of_seekSync_eq {bs packet rest : Bytes} (hsize : packet.length = packetSize)
    (h : seekSync bs = packet ++ rest) : packet.head? = some syncByte := by
  cases packet with
  | nil => cases hsize
  | cons b packet =>
    rcases seekSync_eq_nil_or bs with hnil | ⟨body, hbody⟩
    · cases hnil.symm.trans h
    · exact congrArg List.head? (h.symm.trans hbody)

/-- Bytes before the first sync byte, and from it on. -/
theorem exists_eq_append_seekSync (bs : Bytes) :
    ∃ noise, syncByte ∉ noise ∧ bs = noise ++ seekSync bs := by
  refine ⟨bs.takeWhile (· ≠ syncByte), ?_, List.takeWhile_append_dropWhile.symm⟩
  intro hmem
  have := List.mem_takeWhile_imp hmem
  simp at this

/-- Where nothing is hidden, reading in sequence gives what can be read of the packets that are
cut. -/
theorem sequence_eq_of_nothingHidden {bs : Bytes} (h : NothingHidden bs) :
    Packet.sequence bs =
      (cutPackets bs).1.filterMap fun packet => (Packet.parse packet).toOption := by
  induction bs using packet_induction with
  | short bs hshort =>
    rw [← Packet.sequence_seekSync, cutPackets_of_short hshort, Packet.sequence_of_short hshort]
    rfl
  | packet bs packet rest hsize hbs ih =>
    obtain ⟨noise, hnoise, hall⟩ := exists_eq_append_seekSync bs
    rw [hbs] at hall
    have hsync := head?_of_seekSync_eq hsize hbs
    have hcut : CutAt bs noise packet rest :=
      ⟨hall, by rw [cutPackets_of_not_mem hnoise], hsize, hsync⟩
    have hrest : NothingHidden rest := by
      rw [hall, ← List.append_assoc] at h
      refine h.of_append ?_
      rw [cutPackets_append_of_not_mem hnoise, ← List.append_nil packet,
        cutPackets_packet_append hsize hsync, cutPackets_nil]
    rw [← Packet.sequence_seekSync, hbs, cutPackets_of_packet hsize hbs, List.filterMap_cons,
      ← ih hrest]
    cases hparse : Packet.parse packet with
    | ok p =>
      rw [Packet.sequence_append_of_ok hsize hparse]
      rfl
    | error fault =>
      have hunreadable : ∀ p, Packet.parse packet ≠ .ok p := by
        intro p hp
        rw [hparse] at hp
        cases hp
      have hnone : ∀ i < packetSize, ∀ p, Packet.parse ((packet ++ rest).drop i) ≠ .ok p := by
        intro i hi
        by_cases hpos : 0 < i
        · exact h noise packet rest hcut hunreadable i hpos hi
        · obtain rfl : i = 0 := by omega
          rw [List.drop_zero, Packet.parse_append hsize]
          exact hunreadable
      rw [← Packet.sequence_drop packetSize hnone, List.drop_left' hsize]
      rfl

end StreamCatalog.Transport
