import StreamCatalog.Proofs.Telemetry.EndToEnd
import StreamCatalog.Proofs.Transport.Resync

/-!
# Telemetry of a whole buffer

The samples and counts of a run of packets are those of the units in it
(`readingsFrom_eq`). A buffer can be read in sequence, or taken as one datagram
by an aligner in front of an extractor (`Intake.takeWhole`); both give the same
samples and counts unless a packet can be read from within an unreadable one.
-/

namespace StreamCatalog.Telemetry

open Transport (Packet Fragment Aligner NothingHidden packetSize syncByte cutPackets)

/-! ## Runs of packets -/

/-- Decoding the units that are open at the end. -/
theorem Extractor.finish_eq (e : Extractor) :
    e.finish =
      ((e.assembler.flush.1.map decodeUnit).flatMap samplesOf,
        ⟨e.assembler.flush.2,
          (e.assembler.flush.1.map decodeUnit).foldl Stats.countUnit e.stats⟩) :=
  rfl

/-- What is read of packets is determined by the units of their run. -/
theorem readingsFrom_eq (e : Extractor) (ps : List Packet) :
    (readingsFrom e ps).1.map Prod.fst =
        ((e.assembler.run ps).map decodeUnit).flatMap samplesOf ∧
      (readingsFrom e ps).2 =
        ((e.assembler.run ps).map decodeUnit).foldl Stats.countUnit
          (e.stats.addPackets ps.length) := by
  have hsamples (samples : List Sample) (stats : Stats) :
      (samples.map (·, stats)).map Prod.fst = samples := by
    rw [List.map_map]
    exact List.map_id _
  induction ps generalizing e with
  | nil =>
    rw [readingsFrom, e.finish_eq]
    exact ⟨hsamples .., rfl⟩
  | cons p ps ih =>
    obtain ⟨hlater, hstats⟩ := ih (e.push p).2
    have hpackets : (e.stats.addPackets 1).addPackets ps.length =
        e.stats.addPackets (ps.length + 1) := by
      simp only [Stats.addPackets, Nat.add_assoc, Nat.add_comm 1]
    rw [Pes.Assembler.run_cons, List.map_append, List.flatMap_append, List.foldl_append]
    constructor
    · simp only [readingsFrom, List.map_append, hsamples, hlater]
      rfl
    · simp only [readingsFrom, hstats, List.length_cons]
      rw [Extractor.push_eq, ← Extractor.foldl_countUnit_addPackets, hpackets]

/-- Packets that are fed one after the other and then finished give what is read of those among
them that can be read. -/
theorem Extractor.pushAll_finish (e : Extractor) (packets : List Bytes) :
    (e.pushAll packets).1 ++ (e.pushAll packets).2.finish.1 =
        (readingsFrom e (readable packets)).1.map Prod.fst ∧
      (e.pushAll packets).2.finish.2.stats = (readingsFrom e (readable packets)).2 := by
  obtain ⟨hsamples, hstats⟩ := readingsFrom_eq e (readable packets)
  rw [hsamples, hstats, pushAll_eq, finish_eq, Pes.Assembler.run, List.map_append,
    List.flatMap_append, List.foldl_append]
  exact ⟨rfl, rfl⟩

/-- Reading what fragments were written to gives their packets, whatever follows. -/
theorem sequence_fragments {fragments : List Fragment} (h : ∀ f ∈ fragments, f.Fits)
    (rest : Bytes) :
    Packet.sequence ((fragments.map Fragment.bytes).flatten ++ rest) =
      fragments.map Fragment.packet ++ Packet.sequence rest := by
  induction fragments with
  | nil => rfl
  | cons f fragments ih =>
    have hfits := h f List.mem_cons_self
    have hparse := Fragment.parse_bytes hfits []
    rw [List.append_nil] at hparse
    rw [List.map_cons, List.flatten_cons, List.append_assoc,
      Packet.sequence_append_of_ok (Fragment.length_bytes hfits) hparse,
      ih fun g hg => h g (List.mem_cons_of_mem _ hg)]
    rfl

/-- Reading transmissions behind one another gives the samples of their items. -/
theorem samples_readings {ts : List Transmission} (h : ∀ t ∈ ts, t.IsSendable) :
    (readings (ts.flatMap Transmission.bytes)).1.map Prod.fst =
      ts.map fun t => Sample.ofItems t.items := by
  have hsequence := sequence_fragments (fits_of_isSendable h) []
  have hunits := pushAll_fragments h (a := Pes.Assembler.initial) fun _ =>
    Std.ExtTreeMap.getElem?_empty
  have hrun : Pes.Assembler.initial.run ((ts.flatMap Transmission.fragments).map Fragment.packet) =
      ts.map Transmission.unit := by
    rw [Pes.Assembler.run, hunits]
    exact List.append_nil _
  rw [List.append_nil, Packet.sequence_nil, List.append_nil, ← flatMap_bytes_eq] at hsequence
  rw [readings, hsequence, (readingsFrom_eq ..).1,
    show Extractor.initial.assembler = Pes.Assembler.initial from rfl, hrun, flatMap_decodeUnit h]

/-! ## One datagram -/

/-- The samples and the counts of a buffer that is taken as one datagram and is all there is. -/
def Intake.takeWhole (bs : Bytes) : List Sample × Stats :=
  let (result, r) := initial.push bs
  let (last, extractor) := r.extractor.finish
  (result.toOption.getD [] ++ last, extractor.stats)

/-- What a buffer gives as one datagram is what is fed and finished of the packets cut from it. -/
theorem Intake.takeWhole_eq (bs : Bytes) :
    takeWhole bs =
      let fed := Extractor.initial.pushAll (cutPackets bs).1
      (fed.1 ++ fed.2.finish.1, fed.2.finish.2.stats) := by
  cases bs with
  | nil =>
    rw [Transport.cutPackets_nil]
    rfl
  | cons b bs =>
    have haccepted : Aligner.initial.refusal? (b :: bs) = none := rfl
    have hpush := Aligner.push_of_refusal?_eq_none haccepted
    rw [takeWhole, push, show initial.aligner = Aligner.initial from rfl, hpush]
    rfl

/-- Reading a buffer in sequence gives the samples and counts that the buffer gives as one
datagram, unless a packet can be read that starts within an unreadable one. -/
theorem readings_eq_takeWhole {bs : Bytes} (h : NothingHidden bs) :
    ((readings bs).1.map Prod.fst, (readings bs).2) = Intake.takeWhole bs := by
  have hsequence : Packet.sequence bs = Extractor.readable (cutPackets bs).1 :=
    Transport.sequence_eq_of_nothingHidden h
  obtain ⟨hsamples, hstats⟩ := Extractor.initial.pushAll_finish (cutPackets bs).1
  rw [Intake.takeWhole_eq, readings, hsequence, ← hsamples, ← hstats]

/-- An unreadable packet and a transmission behind it. -/
theorem readings_eq_takeWhole_behind_unreadable :
    let t : Transmission := ⟨[⟨3, [0x41]⟩], 0x100, 0⟩
    let unreadable : Bytes := [syncByte, 0x01, 0x00, 0x20] ++ List.replicate 184 0xFF
    ((readings (unreadable ++ t.bytes)).1.map Prod.fst, (readings (unreadable ++ t.bytes)).2) =
      Intake.takeWhole (unreadable ++ t.bytes) := by
  intro t unreadable
  apply readings_eq_takeWhole
  apply Transport.nothingHidden_of_forall
  have hlength : (unreadable ++ t.bytes).length = 376 := by decide +kernel
  have hall : ∀ k < 189, ((unreadable ++ t.bytes).drop k).head? = some syncByte →
      (Packet.parse (((unreadable ++ t.bytes).drop k).take packetSize)).isOk = true ∨
        syncByte ∉ (((unreadable ++ t.bytes).drop k).take packetSize).tail := by
    decide +kernel
  intro k hroom
  exact hall k (by simp only [packetSize] at hroom; omega)

/-- A transmission that starts within an unreadable packet is read in sequence; the aligner cuts
it in two. -/
theorem readings_ne_takeWhole_within_unreadable :
    let t : Transmission := ⟨[⟨3, [0x41]⟩], 0x100, 0⟩
    let buffer := [syncByte, 0x01, 0x00, 0x20, 0xFF] ++ t.bytes
    (readings buffer).1.map Prod.fst = [Sample.ofItems t.items] ∧
      (Intake.takeWhole buffer).1 = [] := by
  intro t buffer
  have hsendable : t.IsSendable := ⟨by decide, by decide, by decide +kernel⟩
  have hunreadable : ∀ i < 5, (Packet.parse (buffer.drop i)).isOk = false := by decide +kernel
  have hfault (bs : Bytes) (h : (Packet.parse bs).isOk = false) : ∀ p, Packet.parse bs ≠ .ok p := by
    intro p hp
    rw [hp] at h
    cases h
  constructor
  · have hsequence : Packet.sequence t.bytes = Packet.sequence buffer :=
      Packet.sequence_drop 5 fun i hi => hfault _ (hunreadable i hi)
    have hread := samples_readings (List.forall_mem_singleton.2 hsendable)
    rw [List.flatMap_singleton, readings, hsequence] at hread
    exact hread
  · have hcut := Transport.cutPackets_packet_append
      (show (buffer.take packetSize).length = packetSize by decide +kernel)
      (show (buffer.take packetSize).head? = some syncByte by decide +kernel)
      (buffer.drop packetSize)
    rw [List.take_append_drop, Transport.cutPackets_of_not_mem
      (show syncByte ∉ buffer.drop packetSize by decide +kernel)] at hcut
    have hparse : Packet.parse (buffer.take packetSize) = .error .adaptationOverflow := by
      decide +kernel
    have hfed := (Extractor.initial.pushAll_finish [buffer.take packetSize]).1
    rw [Extractor.readable_cons_error hparse] at hfed
    rw [Intake.takeWhole_eq, hcut]
    exact hfed

end StreamCatalog.Telemetry
