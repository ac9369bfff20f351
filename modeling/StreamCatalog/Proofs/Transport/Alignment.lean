import StreamCatalog.Transport.Aligner
import Mathlib.Data.List.TakeWhile

/-!
# Cutting a stream that arrives in pieces

Cutting packets goes on after any piece of a stream as if the stream had come as
a whole (`cutPackets_append`). A stream that has a sync byte at every packet
boundary is therefore accepted however it is split into datagrams, and its
packets come out in order (`Aligner.pushAll_split`).
-/

namespace StreamCatalog.Transport

/-! ## Looking for the sync byte -/

theorem seekSync_cons_sync (bs : Bytes) : seekSync (syncByte :: bs) = syncByte :: bs := by
  rw [seekSync, List.dropWhile_cons_of_neg (by simp)]

/-- What is left after the search is empty or starts with the sync byte. -/
theorem seekSync_eq_nil_or (bs : Bytes) :
    seekSync bs = [] ∨ ∃ rest, seekSync bs = syncByte :: rest := by
  induction bs with
  | nil => exact Or.inl rfl
  | cons b bs ih =>
    by_cases hb : b = syncByte
    · subst hb
      exact Or.inr ⟨bs, seekSync_cons_sync bs⟩
    · rw [seekSync, List.dropWhile_cons_of_pos (by simpa using hb)]
      exact ih

@[simp] theorem seekSync_seekSync (bs : Bytes) : seekSync (seekSync bs) = seekSync bs := by
  rcases seekSync_eq_nil_or bs with h | ⟨rest, h⟩
  · rw [h]
    rfl
  · rw [h, seekSync_cons_sync]

/-- A search that has found a sync byte is not changed by what follows. -/
theorem seekSync_append_of_ne_nil {bs : Bytes} (h : seekSync bs ≠ []) (more : Bytes) :
    seekSync (bs ++ more) = seekSync bs ++ more := by
  rw [seekSync, List.dropWhile_append, if_neg (by simpa [seekSync] using h)]
  rfl

/-- A search that has found none goes on in what follows. -/
theorem seekSync_append_of_eq_nil {bs : Bytes} (h : seekSync bs = []) (more : Bytes) :
    seekSync (bs ++ more) = seekSync more := by
  rw [seekSync, List.dropWhile_append, if_pos (by simpa [seekSync] using h)]
  rfl

/-- Bytes without a sync byte are passed over. -/
theorem seekSync_eq_nil {bs : Bytes} (h : syncByte ∉ bs) : seekSync bs = [] := by
  rw [seekSync, List.dropWhile_eq_nil_iff]
  intro b hb
  have hne : b ≠ syncByte := by
    rintro rfl
    exact h hb
  simpa using hne

/-- What precedes the first sync byte may be forgotten before more arrives. -/
theorem seekSync_seekSync_append (bs more : Bytes) :
    seekSync (seekSync bs ++ more) = seekSync (bs ++ more) := by
  by_cases h : seekSync bs = []
  · rw [h, List.nil_append, seekSync_append_of_eq_nil h]
  · rw [seekSync_append_of_ne_nil h, seekSync_append_of_ne_nil (by simpa using h),
      seekSync_seekSync]

/-! ## Cutting -/

theorem cutPackets_of_short {bs : Bytes} (h : (seekSync bs).length < packetSize) :
    cutPackets bs = ([], seekSync bs) := by
  have hsplit := Bytes.splitAt?_eq_none_iff.2 h
  rw [cutPackets]
  split
  · rfl
  · next hcut => simp [hsplit] at hcut

theorem cutPackets_of_packet {bs packet rest : Bytes} (hsize : packet.length = packetSize)
    (hbs : seekSync bs = packet ++ rest) :
    cutPackets bs = (packet :: (cutPackets rest).1, (cutPackets rest).2) := by
  have hsplit := Bytes.splitAt?_eq_some_iff.2 ⟨hsize, hbs⟩
  rw [cutPackets]
  split
  · next hcut => simp [hsplit] at hcut
  · next hcut =>
    rw [hsplit] at hcut
    cases hcut
    rfl

/-- Bytes that are short of a packet after the search, or a packet and the rest. -/
theorem seekSync_cases (bs : Bytes) :
    (seekSync bs).length < packetSize ∨
      ∃ packet rest, packet.length = packetSize ∧ seekSync bs = packet ++ rest ∧
        rest.length < bs.length := by
  by_cases h : (seekSync bs).length < packetSize
  · exact Or.inl h
  · have hsize : ((seekSync bs).take packetSize).length = packetSize := by
      rw [List.length_take]
      omega
    have hpos : 0 < packetSize := by decide
    have hle := length_seekSync_le bs
    refine Or.inr ⟨(seekSync bs).take packetSize, (seekSync bs).drop packetSize, hsize,
      (List.take_append_drop ..).symm, ?_⟩
    rw [List.length_drop]
    omega

/-- Induction along the packets of a stream: over bytes that are short of a packet after the
search, and over a packet in front of a stream. -/
@[elab_as_elim]
theorem packet_induction {motive : Bytes → Prop}
    (short : ∀ bs, (seekSync bs).length < packetSize → motive bs)
    (packet : ∀ bs packet rest, packet.length = packetSize → seekSync bs = packet ++ rest →
      motive rest → motive bs) (bs : Bytes) : motive bs := by
  induction hn : bs.length using Nat.strongRecOn generalizing bs with
  | ind n ih =>
    subst hn
    rcases seekSync_cases bs with hshort | ⟨front, rest, hsize, hbs, hless⟩
    · exact short bs hshort
    · exact packet bs front rest hsize hbs (ih rest.length hless rest rfl)

/-- Cutting depends only on what is left after the search for a sync byte. -/
theorem cutPackets_congr {bs cs : Bytes} (h : seekSync bs = seekSync cs) :
    cutPackets bs = cutPackets cs := by
  rcases seekSync_cases bs with hshort | ⟨packet, rest, hsize, hbs, -⟩
  · rw [cutPackets_of_short hshort, cutPackets_of_short (h ▸ hshort), h]
  · rw [cutPackets_of_packet hsize hbs, cutPackets_of_packet hsize (h.symm.trans hbs)]

/-- Bytes without a sync byte in front of a stream are passed over. -/
theorem cutPackets_append_of_not_mem {noise : Bytes} (h : syncByte ∉ noise) (bs : Bytes) :
    cutPackets (noise ++ bs) = cutPackets bs :=
  cutPackets_congr (seekSync_append_of_eq_nil (seekSync_eq_nil h) bs)

@[simp] theorem cutPackets_nil : cutPackets [] = ([], []) :=
  cutPackets_of_short (by decide)

/-- Bytes without a sync byte leave nothing. -/
theorem cutPackets_of_not_mem {noise : Bytes} (h : syncByte ∉ noise) :
    cutPackets noise = ([], []) := by
  rw [← List.append_nil noise, cutPackets_append_of_not_mem h, cutPackets_nil]

/-- Cutting a stream that arrives in two pieces: the incomplete packet of the first piece is
completed with the second. -/
theorem cutPackets_append (bs more : Bytes) :
    cutPackets (bs ++ more) =
      ((cutPackets bs).1 ++ (cutPackets ((cutPackets bs).2 ++ more)).1,
        (cutPackets ((cutPackets bs).2 ++ more)).2) := by
  induction bs using packet_induction with
  | short bs hshort =>
    rw [cutPackets_of_short hshort, cutPackets_congr (seekSync_seekSync_append bs more).symm]
    rfl
  | packet bs packet rest hsize hbs ih =>
    have hne : seekSync bs ≠ [] := by
      rw [hbs]
      intro hnil
      rw [(List.append_eq_nil_iff.1 hnil).1] at hsize
      cases hsize
    have hmore : seekSync (bs ++ more) = packet ++ (rest ++ more) := by
      rw [seekSync_append_of_ne_nil hne, hbs, List.append_assoc]
    rw [cutPackets_of_packet hsize hbs, cutPackets_of_packet hsize hmore, ih]
    rfl

/-- The incomplete packet at the end is shorter than a packet. -/
theorem length_pending_lt (bs : Bytes) : (cutPackets bs).2.length < packetSize := by
  induction bs using packet_induction with
  | short bs hshort =>
    rw [cutPackets_of_short hshort]
    exact hshort
  | packet bs packet rest hsize hbs ih =>
    rw [cutPackets_of_packet hsize hbs]
    exact ih

/-! ## Streams that start at a packet boundary -/

/-- Whether a sync byte stands at every packet boundary, the first byte being at one. -/
def IsAligned (bs : Bytes) : Prop :=
  ∀ i b, bs[packetSize * i]? = some b → b = syncByte

theorem IsAligned.of_append {bs more : Bytes} (h : IsAligned (bs ++ more)) : IsAligned bs := by
  intro i b hb
  obtain ⟨hi, -⟩ := List.getElem?_eq_some_iff.1 hb
  exact h i b (by rw [List.getElem?_append_left hi, hb])

theorem IsAligned.tail {packet rest : Bytes} (hsize : packet.length = packetSize)
    (h : IsAligned (packet ++ rest)) : IsAligned rest := by
  intro i b hb
  refine h (i + 1) b ?_
  rw [List.getElem?_append_right (by rw [hsize, Nat.mul_succ]; omega), hsize, Nat.mul_succ,
    Nat.add_sub_cancel]
  exact hb

/-- A packet that starts with the sync byte may be put in front. -/
theorem IsAligned.append {packet rest : Bytes} (hsize : packet.length = packetSize)
    (hsync : packet.head? = some syncByte) (h : IsAligned rest) : IsAligned (packet ++ rest) := by
  intro i b hb
  cases i with
  | zero =>
    rw [Nat.mul_zero, ← List.head?_eq_getElem?, List.head?_append, hsync] at hb
    exact (Option.some.inj hb).symm
  | succ i =>
    rw [List.getElem?_append_right (by rw [hsize, Nat.mul_succ]; omega), hsize, Nat.mul_succ,
      Nat.add_sub_cancel] at hb
    exact h i b hb

theorem isAligned_nil : IsAligned [] := by
  intro i b hb
  simp at hb

theorem IsAligned.seekSync_eq {bs : Bytes} (h : IsAligned bs) : seekSync bs = bs := by
  cases bs with
  | nil => rfl
  | cons b bs =>
    rw [h 0 b rfl, seekSync_cons_sync]

/-- Packets that start with the sync byte are cut as they are. -/
theorem cutPackets_flatten {packets : List Bytes} (hsize : ∀ p ∈ packets, p.length = packetSize)
    (h : IsAligned packets.flatten) : cutPackets packets.flatten = (packets, []) := by
  induction packets with
  | nil => exact cutPackets_nil
  | cons packet packets ih =>
    have hfirst := hsize packet List.mem_cons_self
    rw [cutPackets_of_packet hfirst h.seekSync_eq]
    rw [ih (fun p hp => hsize p (List.mem_cons_of_mem _ hp)) (h.tail hfirst)]

/-- The incomplete packet at the end has the bytes after the last boundary. -/
theorem IsAligned.length_pending {bs : Bytes} (h : IsAligned bs) :
    (cutPackets bs).2.length = bs.length % packetSize := by
  induction bs using packet_induction with
  | short bs hshort =>
    have hseek := h.seekSync_eq
    rw [cutPackets_of_short hshort, hseek, Nat.mod_eq_of_lt (hseek ▸ hshort)]
  | packet bs packet rest hsize hbs ih =>
    rw [cutPackets_of_packet hsize hbs]
    rw [h.seekSync_eq] at hbs
    rw [ih (IsAligned.tail hsize (hbs ▸ h)), hbs, List.length_append, hsize, Nat.add_mod_left]

/-! ## Datagrams -/

namespace Aligner

/-- Push datagrams one after the other. -/
def pushAll (a : Aligner) : List Bytes → List (Except DatagramFault (List Bytes)) × Aligner
  | [] => ([], a)
  | datagram :: datagrams =>
    let (result, a) := a.push datagram
    let (results, a) := pushAll a datagrams
    (result :: results, a)

/-- An accepted datagram completes the incomplete packet. -/
theorem push_of_refusal?_eq_none {a : Aligner} {datagram : Bytes}
    (h : a.refusal? datagram = none) :
    a.push datagram =
      (.ok (cutPackets (a.pending ++ datagram)).1,
        { pending := (cutPackets (a.pending ++ datagram)).2
          synced := !(cutPackets (a.pending ++ datagram)).1.isEmpty ||
            !(cutPackets (a.pending ++ datagram)).2.isEmpty }) := by
  rw [push, h]

/-- What is known of an aligner that has taken `received` from a stream that follows `noise`. -/
structure Follows (a : Aligner) (noise received : Bytes) : Prop where
  /-- The incomplete packet is that of the bytes received. -/
  pending_eq : a.pending = (cutPackets received).2
  /-- The boundary is known only once the stream has begun. -/
  synced : a.synced = true → ∃ begun, received = noise ++ begun

theorem follows_initial (noise : Bytes) : initial.Follows noise [] where
  pending_eq := by rw [cutPackets_nil]; rfl
  synced h := by cases h

/-- The next datagram of the stream is not refused. -/
theorem Follows.refusal?_eq_none {a : Aligner} {noise received datagram later stream : Bytes}
    (ha : a.Follows noise received) (hnoise : syncByte ∉ noise) (hstream : IsAligned stream)
    (hne : datagram ≠ []) (hall : received ++ (datagram ++ later) = noise ++ stream) :
    a.refusal? datagram = none := by
  have hempty : datagram.isEmpty = false := by simpa using hne
  simp only [refusal?, hempty, Bool.false_eq_true, if_false]
  by_cases hsynced : a.synced = true
  · obtain ⟨begun, rfl⟩ := ha.synced hsynced
    rw [List.append_assoc, List.append_cancel_left_eq] at hall
    have hbegun : IsAligned begun := IsAligned.of_append (hall ▸ hstream)
    have hpending : a.pending.length = begun.length % packetSize := by
      rw [ha.pending_eq, cutPackets_append_of_not_mem hnoise, hbegun.length_pending]
    rw [if_pos hsynced]
    cases hfound : datagram[a.boundary]? with
    | none => rfl
    | some found =>
      have hboundary : begun.length + a.boundary =
          packetSize * ((begun.length + a.boundary) / packetSize) := by
        simp only [boundary, hpending, packetSize]
        omega
      have hat : stream[packetSize * ((begun.length + a.boundary) / packetSize)]? =
          some found := by
        obtain ⟨hlt, -⟩ := List.getElem?_eq_some_iff.1 hfound
        rw [← hboundary, ← hall, List.getElem?_append_right (Nat.le_add_right ..),
          Nat.add_sub_cancel_left, List.getElem?_append_left hlt, hfound]
      simp only [hstream _ _ hat, if_true]
  · rw [if_neg hsynced]

/-- Taking the next datagram of the stream. -/
theorem Follows.push {a : Aligner} {noise received datagram later stream : Bytes}
    (ha : a.Follows noise received) (hnoise : syncByte ∉ noise) (hstream : IsAligned stream)
    (hne : datagram ≠ []) (hall : received ++ (datagram ++ later) = noise ++ stream) :
    (a.push datagram).1 = .ok (cutPackets ((cutPackets received).2 ++ datagram)).1 ∧
      (a.push datagram).2.Follows noise (received ++ datagram) := by
  rw [push_of_refusal?_eq_none (ha.refusal?_eq_none hnoise hstream hne hall), ha.pending_eq]
  refine ⟨rfl, ?_, ?_⟩
  · rw [cutPackets_append received]
  · intro hsynced
    -- As long as only noise was received nothing is cut, so the aligner is not synchronised.
    rw [← List.append_assoc] at hall
    rcases List.append_eq_append_iff.1 hall with ⟨unread, hunread, -⟩ | ⟨begun, hbegun, -⟩
    · have hfree : syncByte ∉ received ++ datagram := by
        intro hmem
        exact hnoise (hunread ▸ List.mem_append_left _ hmem)
      have hnothing := cutPackets_of_not_mem hfree
      rw [cutPackets_append, Prod.mk.injEq] at hnothing
      rw [(List.append_eq_nil_iff.1 hnothing.1).2, hnothing.2] at hsynced
      cases hsynced
    · exact ⟨begun, hbegun⟩

/-- Datagrams that continue the stream are all accepted, and cut as one string. -/
theorem Follows.pushAll {a : Aligner} {noise received stream : Bytes} {datagrams : List Bytes}
    (ha : a.Follows noise received) (hnoise : syncByte ∉ noise) (hstream : IsAligned stream)
    (hne : ∀ d ∈ datagrams, d ≠ [])
    (hall : received ++ datagrams.flatten = noise ++ stream) :
    ∃ batches : List (List Bytes), (a.pushAll datagrams).1 = batches.map .ok ∧
      (cutPackets received).1 ++ batches.flatten = (cutPackets stream).1 ∧
      (a.pushAll datagrams).2.pending = (cutPackets stream).2 := by
  induction datagrams generalizing a received with
  | nil =>
    rw [List.flatten_nil, List.append_nil] at hall
    subst hall
    refine ⟨[], rfl, ?_, ?_⟩
    · rw [cutPackets_append_of_not_mem hnoise, List.flatten_nil, List.append_nil]
    · rw [Aligner.pushAll, ha.pending_eq, cutPackets_append_of_not_mem hnoise]
  | cons datagram datagrams ih =>
    rw [List.flatten_cons] at hall
    obtain ⟨hresult, hnext⟩ :=
      ha.push hnoise hstream (hne datagram List.mem_cons_self) hall
    obtain ⟨batches, hbatches, hpackets, hpending⟩ :=
      ih hnext (fun d hd => hne d (List.mem_cons_of_mem _ hd)) (by rw [List.append_assoc, hall])
    refine ⟨(cutPackets ((cutPackets received).2 ++ datagram)).1 :: batches, ?_, ?_, hpending⟩
    · simp only [Aligner.pushAll, hresult, hbatches, List.map_cons]
    · rw [← hpackets, cutPackets_append received datagram, List.flatten_cons, List.append_assoc]

/-- However a stream after some noise is split into datagrams, none is refused, and its packets
are given in order. -/
theorem pushAll_split {noise stream : Bytes} {datagrams : List Bytes}
    (hnoise : syncByte ∉ noise) (hstream : IsAligned stream) (hne : ∀ d ∈ datagrams, d ≠ [])
    (hall : datagrams.flatten = noise ++ stream) :
    ∃ batches : List (List Bytes), (initial.pushAll datagrams).1 = batches.map .ok ∧
      batches.flatten = (cutPackets stream).1 ∧
      (initial.pushAll datagrams).2.pending = (cutPackets stream).2 := by
  obtain ⟨batches, hresults, hpackets, hpending⟩ :=
    (follows_initial noise).pushAll hnoise hstream hne hall
  rw [cutPackets_nil] at hpackets
  exact ⟨batches, hresults, hpackets, hpending⟩

end Aligner

end StreamCatalog.Transport
