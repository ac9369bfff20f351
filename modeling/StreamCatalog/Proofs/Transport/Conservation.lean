import StreamCatalog.Proofs.Transport.Resync

/-!
# What becomes of the bytes of datagrams

Cutting a stream loses nothing but noise: the packets that are cut and the
incomplete packet at the end stand in the stream in order, with no sync byte
between them (`cutPackets_eq_iff`). So whatever an aligner is called for, the
bytes it accepted since its alignment was last lost are the packets it gave and
the bytes it keeps, noise apart (`AlignerLog.run_conserves`); and packets behind
noise come out as they are, however the stream is split into datagrams
(`Aligner.packets_of_split`).
-/

namespace StreamCatalog.Transport

/-! ## Packets among noise -/

/-- Whether the bytes are as many as those of a packet and start as a packet does. -/
structure IsFramed (packet : Bytes) : Prop where
  /-- There are 188 bytes. -/
  length_eq : packet.length = packetSize
  /-- The first one is the sync byte. -/
  head_eq : packet.head? = some syncByte

/-- Whether the bytes are the beginning of a packet, which may be none of it. -/
structure IsIncomplete (pending : Bytes) : Prop where
  /-- There are fewer bytes than those of a packet. -/
  length_lt : pending.length < packetSize
  /-- If there is a first one, it is the sync byte. -/
  head_eq : pending = [] ∨ pending.head? = some syncByte

instance (packet : Bytes) : Decidable (IsFramed packet) :=
  decidable_of_iff (packet.length = packetSize ∧ packet.head? = some syncByte)
    ⟨fun h => ⟨h.1, h.2⟩, fun h => ⟨h.1, h.2⟩⟩

instance (pending : Bytes) : Decidable (IsIncomplete pending) :=
  decidable_of_iff
    (pending.length < packetSize ∧ (pending = [] ∨ pending.head? = some syncByte))
    ⟨fun h => ⟨h.1, h.2⟩, fun h => ⟨h.1, h.2⟩⟩

/-- Packets in order and an incomplete one behind them, with bytes before, between and behind them
among which there is no sync byte. -/
inductive Interspersed : Bytes → List Bytes → Bytes → Prop where
  /-- No packet is left. -/
  | last {noise pending : Bytes} (hnoise : syncByte ∉ noise) (hpending : IsIncomplete pending) :
    Interspersed (noise ++ pending) [] pending
  /-- A packet comes next. -/
  | packet {noise packet rest pending : Bytes} {packets : List Bytes} (hnoise : syncByte ∉ noise)
    (hpacket : IsFramed packet) (h : Interspersed rest packets pending) :
    Interspersed (noise ++ (packet ++ rest)) (packet :: packets) pending

theorem isIncomplete_nil : IsIncomplete [] :=
  ⟨by decide, .inl rfl⟩

/-- Nothing stands before the sync byte at which the bytes start. -/
theorem seekSync_eq_self {bs : Bytes} (h : bs = [] ∨ bs.head? = some syncByte) :
    seekSync bs = bs := by
  cases bs with
  | nil => rfl
  | cons b bs =>
    have hb : b = syncByte := by simpa using h
    rw [hb, seekSync_cons_sync]

/-- What is left after the search is empty or starts with the sync byte. -/
theorem head?_seekSync (bs : Bytes) :
    seekSync bs = [] ∨ (seekSync bs).head? = some syncByte := by
  rcases seekSync_eq_nil_or bs with h | ⟨rest, h⟩
  · exact .inl h
  · rw [h]
    exact .inr rfl

/-- The beginning of a packet alone. -/
theorem interspersed_self {pending : Bytes} (h : IsIncomplete pending) :
    Interspersed pending [] pending :=
  Interspersed.last (List.not_mem_nil (a := syncByte)) h

namespace Interspersed

variable {bs more pending later : Bytes} {packets others : List Bytes}

/-- More noise may stand in front. -/
theorem prepend (h : Interspersed bs packets pending) {noise : Bytes} (hnoise : syncByte ∉ noise) :
    Interspersed (noise ++ bs) packets pending := by
  cases h with
  | last hfirst hpending =>
    rw [← List.append_assoc]
    refine .last ?_ hpending
    simp [hnoise, hfirst]
  | packet hfirst hpacket h =>
    rw [← List.append_assoc]
    refine .packet ?_ hpacket h
    simp [hnoise, hfirst]

/-- The incomplete packet at the end goes on in what follows. -/
theorem append (h : Interspersed bs packets pending)
    (hmore : Interspersed (pending ++ more) others later) :
    Interspersed (bs ++ more) (packets ++ others) later := by
  induction h with
  | last hnoise hpending =>
    rw [List.append_assoc, List.nil_append]
    exact hmore.prepend hnoise
  | packet hnoise hpacket _ ih =>
    rw [List.append_assoc, List.append_assoc]
    exact .packet hnoise hpacket (ih hmore)

/-- A packet may stand in front. -/
theorem prepend_packet {packet : Bytes} (hpacket : IsFramed packet)
    (h : Interspersed bs packets pending) :
    Interspersed (packet ++ bs) (packet :: packets) pending :=
  Interspersed.packet (List.not_mem_nil (a := syncByte)) hpacket h

theorem isFramed (h : Interspersed bs packets pending) : ∀ p ∈ packets, IsFramed p := by
  induction h with
  | last => simp
  | packet hnoise hpacket _ ih => exact List.forall_mem_cons.2 ⟨hpacket, ih⟩

theorem isIncomplete (h : Interspersed bs packets pending) : IsIncomplete pending := by
  induction h with
  | last _ hpending => exact hpending
  | packet _ _ _ ih => exact ih

end Interspersed

/-- Packets behind one another, and the beginning of one behind them. -/
theorem interspersed_flatten {packets : List Bytes} {pending : Bytes}
    (hpackets : ∀ p ∈ packets, IsFramed p) (hpending : IsIncomplete pending) :
    Interspersed (packets.flatten ++ pending) packets pending := by
  induction packets with
  | nil => exact interspersed_self hpending
  | cons packet packets ih =>
    obtain ⟨hpacket, hlater⟩ := List.forall_mem_cons.1 hpackets
    rw [List.flatten_cons, List.append_assoc]
    exact Interspersed.prepend_packet hpacket (ih hlater)

/-- Cutting finds packets in order, and skips only noise. -/
theorem interspersed_cutPackets (bs : Bytes) :
    Interspersed bs (cutPackets bs).1 (cutPackets bs).2 := by
  induction bs using packet_induction with
  | short bs hshort =>
    obtain ⟨noise, hnoise, hbs⟩ := exists_eq_append_seekSync bs
    have hlast := Interspersed.last hnoise ⟨hshort, head?_seekSync bs⟩
    rw [← hbs] at hlast
    rw [cutPackets_of_short hshort]
    exact hlast
  | packet bs packet rest hsize hbs ih =>
    obtain ⟨noise, hnoise, hsplit⟩ := exists_eq_append_seekSync bs
    have hpacket : IsFramed packet := ⟨hsize, head?_of_seekSync_eq hsize hbs⟩
    rw [cutPackets_of_packet hsize hbs, hsplit, hbs]
    exact .packet hnoise hpacket ih

/-- What stands among noise is what is cut. -/
theorem Interspersed.cutPackets_eq {bs pending : Bytes} {packets : List Bytes}
    (h : Interspersed bs packets pending) : cutPackets bs = (packets, pending) := by
  induction h with
  | last hnoise hpending =>
    have hseek := seekSync_eq_self hpending.head_eq
    rw [cutPackets_append_of_not_mem hnoise, cutPackets_of_short (hseek.symm ▸ hpending.length_lt),
      hseek]
  | @packet noise packet rest pending packets hnoise hpacket h ih =>
    have hhead : (packet ++ rest).head? = some syncByte := by
      rw [List.head?_append, hpacket.head_eq]
      rfl
    rw [cutPackets_append_of_not_mem hnoise,
      cutPackets_of_packet hpacket.length_eq (seekSync_eq_self (.inr hhead)), ih]

/-- Cutting gives the packets that stand among noise, and nothing else. -/
theorem cutPackets_eq_iff {bs pending : Bytes} {packets : List Bytes} :
    cutPackets bs = (packets, pending) ↔ Interspersed bs packets pending := by
  refine ⟨?_, Interspersed.cutPackets_eq⟩
  intro h
  have hcut := interspersed_cutPackets bs
  rwa [h] at hcut

/-! ## What an aligner answers -/

namespace Aligner

/-- What is kept between two calls. -/
structure IsSound (a : Aligner) : Prop where
  /-- No more is kept than the beginning of a packet. -/
  pending : IsIncomplete a.pending
  /-- Nothing is kept without alignment. -/
  unsynced : a.synced = false → a.pending = []

theorem isSound_initial : initial.IsSound :=
  ⟨isIncomplete_nil, fun _ => rfl⟩

/-- The answers to a datagram. An answer is either packets or a fault, so that a datagram that is
refused gives no packet. -/
inductive Answers (a : Aligner) (datagram : Bytes) :
    Except DatagramFault (List Bytes) × Aligner → Prop where
  /-- A datagram without bytes changes nothing. -/
  | empty (hempty : datagram = []) : Answers a datagram (.error .empty, a)
  /-- A datagram with another byte where a packet has to start ends the alignment. -/
  | misaligned (hne : datagram ≠ []) (hsynced : a.synced = true) {found : UInt8}
    (hfound : datagram[a.boundary]? = some found) (hother : found ≠ syncByte) :
    Answers a datagram (.error (.misaligned a.boundary found), initial)
  /-- Any other datagram goes on where the last one ended. -/
  | accepted (hne : datagram ≠ [])
    (haligned : a.synced = true → ∀ found, datagram[a.boundary]? = some found → found = syncByte)
    {packets : List Bytes} {next : Aligner} (hsound : next.IsSound)
    (hpackets : Interspersed (a.pending ++ datagram) packets next.pending) :
    Answers a datagram (.ok packets, next)

/-- A datagram that is not refused is cut behind what was kept. -/
theorem answers_accepted {a : Aligner} {datagram : Bytes} (h : a.refusal? datagram = none)
    (hne : datagram ≠ [])
    (haligned : a.synced = true → ∀ found, datagram[a.boundary]? = some found → found = syncByte) :
    a.Answers datagram (a.push datagram) := by
  have hcut := interspersed_cutPackets (a.pending ++ datagram)
  rw [push_of_refusal?_eq_none h]
  refine .accepted hne haligned ⟨hcut.isIncomplete, ?_⟩ hcut
  intro hsynced
  simpa using (Bool.or_eq_false_iff.1 hsynced).2

theorem push_answers (a : Aligner) (datagram : Bytes) : a.Answers datagram (a.push datagram) := by
  by_cases hempty : datagram = []
  · subst hempty
    exact .empty rfl
  have hne : datagram.isEmpty = false := by simpa using hempty
  cases hsynced : a.synced with
  | false =>
    refine answers_accepted ?_ hempty (by simp [hsynced])
    simp [refusal?, hne, hsynced]
  | true =>
    cases hfound : datagram[a.boundary]? with
    | none =>
      refine answers_accepted ?_ hempty (by simp [hfound])
      simp [refusal?, hne, hfound]
    | some found =>
      by_cases hsync : found = syncByte
      · refine answers_accepted ?_ hempty (by simp [hfound, hsync])
        simp [refusal?, hne, hfound, hsync]
      · have hrefusal : a.refusal? datagram = some (.misaligned a.boundary found) := by
          simp [refusal?, hne, hsynced, hfound, hsync]
        rw [push, hrefusal]
        exact .misaligned hempty hsynced hfound hsync

end Aligner

/-! ## Calls in any order -/

/-- What an aligner may be called for. -/
inductive AlignerCall where
  /-- To take a datagram. -/
  | push (datagram : Bytes)
  /-- To forget the alignment. -/
  | reset

/-- An aligner, and what went in and out since the alignment was last lost. -/
structure AlignerLog where
  /-- The aligner. -/
  aligner : Aligner
  /-- The bytes of the datagrams that were accepted. -/
  accepted : Bytes
  /-- The packets that were given. -/
  emitted : List Bytes

namespace AlignerLog

/-- A new aligner. -/
def start : AlignerLog := ⟨.initial, [], []⟩

/-- The next call. -/
def step (log : AlignerLog) : AlignerCall → AlignerLog
  | .push datagram =>
    match log.aligner.push datagram with
    | (.ok packets, aligner) => ⟨aligner, log.accepted ++ datagram, log.emitted ++ packets⟩
    | (.error .empty, aligner) => { log with aligner := aligner }
    | (.error (.misaligned _ _), aligner) => ⟨aligner, [], []⟩
  | .reset => start

/-- Calls one after the other. -/
def run (log : AlignerLog) (calls : List AlignerCall) : AlignerLog :=
  calls.foldl step log

/-- What calls keep true: nothing was lost since the alignment was. -/
structure Conserves (log : AlignerLog) : Prop where
  /-- The aligner keeps the beginning of a packet, and nothing without alignment. -/
  sound : log.aligner.IsSound
  /-- What was accepted are the packets given and the bytes kept, noise apart. -/
  interspersed : Interspersed log.accepted log.emitted log.aligner.pending

theorem conserves_start : start.Conserves where
  sound := Aligner.isSound_initial
  interspersed := interspersed_self isIncomplete_nil

theorem Conserves.step {log : AlignerLog} (h : log.Conserves) (call : AlignerCall) :
    (log.step call).Conserves := by
  cases call with
  | reset => exact conserves_start
  | push datagram =>
    have hanswer := log.aligner.push_answers datagram
    rw [AlignerLog.step]
    generalize log.aligner.push datagram = answer at hanswer
    cases hanswer with
    | empty => exact h
    | misaligned => exact conserves_start
    | accepted _ _ hsound hpackets => exact ⟨hsound, h.interspersed.append hpackets⟩

theorem Conserves.run {log : AlignerLog} (h : log.Conserves) (calls : List AlignerCall) :
    (log.run calls).Conserves := by
  induction calls generalizing log with
  | nil => exact h
  | cons call calls ih => exact ih (h.step call)

/-- After any calls of a new aligner it keeps less than a packet, which starts with the sync byte,
and nothing without alignment; since the alignment was last lost, the bytes accepted are the packets
given, each of 188 bytes from a sync byte on, and the bytes kept, with only noise between them; and
the next datagram is refused without a trace if it is empty, refused with the loss of alignment if
it is misaligned, and accepted else. -/
theorem run_conserves (calls : List AlignerCall) :
    (start.run calls).Conserves ∧
      (∀ packet ∈ (start.run calls).emitted, IsFramed packet) ∧
      ∀ datagram, (start.run calls).aligner.Answers datagram
        ((start.run calls).aligner.push datagram) := by
  have h := conserves_start.run calls
  exact ⟨h, h.interspersed.isFramed, (start.run calls).aligner.push_answers⟩

end AlignerLog

/-! ## Splits into datagrams -/

/-- Packets behind one another have a sync byte at each boundary. -/
theorem isAligned_flatten {packets : List Bytes} {pending : Bytes}
    (hpackets : ∀ p ∈ packets, IsFramed p) (hpending : IsIncomplete pending) :
    IsAligned (packets.flatten ++ pending) := by
  induction packets with
  | nil =>
    intro i b hb
    obtain ⟨hlt, -⟩ := List.getElem?_eq_some_iff.1 hb
    have hi : i = 0 := by
      have := hpending.length_lt
      simp only [List.flatten_nil, List.nil_append, packetSize] at hlt this
      omega
    subst hi
    rcases hpending.head_eq with hnil | hhead
    · subst hnil
      cases hb
    · rw [List.flatten_nil, List.nil_append, Nat.mul_zero, ← List.head?_eq_getElem?, hhead] at hb
      exact (Option.some.inj hb).symm
  | cons packet packets ih =>
    obtain ⟨hpacket, hlater⟩ := List.forall_mem_cons.1 hpackets
    rw [List.flatten_cons, List.append_assoc]
    exact IsAligned.append hpacket.length_eq hpacket.head_eq (ih hlater)

namespace Aligner

/-- However noise, packets and the beginning of one are split into datagrams, a new aligner refuses
none, gives exactly the packets in order and keeps exactly the beginning. -/
theorem packets_of_split {noise pending : Bytes} {packets datagrams : List Bytes}
    (hnoise : syncByte ∉ noise) (hpackets : ∀ p ∈ packets, IsFramed p)
    (hpending : IsIncomplete pending) (hne : ∀ d ∈ datagrams, d ≠ [])
    (hsplit : datagrams.flatten = noise ++ (packets.flatten ++ pending)) :
    ∃ batches : List (List Bytes), (initial.pushAll datagrams).1 = batches.map .ok ∧
      batches.flatten = packets ∧ (initial.pushAll datagrams).2.pending = pending := by
  have hcut := (interspersed_flatten hpackets hpending).cutPackets_eq
  have haligned := isAligned_flatten hpackets hpending
  obtain ⟨batches, hresults, hbatches, hkept⟩ := pushAll_split hnoise haligned hne hsplit
  rw [hcut] at hbatches hkept
  exact ⟨batches, hresults, hbatches, hkept⟩

/-- Noise, a packet of nothing but sync bytes and two bytes of another one, cut within the noise,
behind the first byte of the packet, before its last byte and within what follows. -/
theorem packets_of_split_within :
    let packet := List.replicate packetSize syncByte
    let datagrams : List Bytes :=
      [[0x12], [0x34, syncByte], packet.take 186, [syncByte, syncByte], [0x00]]
    ∃ batches : List (List Bytes), (initial.pushAll datagrams).1 = batches.map .ok ∧
      batches.flatten = [packet] ∧
      (initial.pushAll datagrams).2.pending = [syncByte, 0x00] :=
  have hnoise : syncByte ∉ [0x12, 0x34] := by decide
  packets_of_split hnoise (by decide +kernel) (by decide) (by decide) (by decide +kernel)

end Aligner

end StreamCatalog.Transport
