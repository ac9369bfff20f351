import StreamCatalog.Proofs.Telemetry.Intake

/-!
# From local sets to datagrams and back

Local sets that are written as units, carried in packets, padded with null and
unreadable packets and split into datagrams come back as one sample each, in order.
-/

namespace StreamCatalog.Telemetry

open Klv (Item encodeUnit unitValue)
open Transport (Packet Fragment Aligner IsAligned packetSize syncByte nullPid carriedFragments
  carry)

/-- A local set with the identifier and the first counter of the packets that carry it. -/
structure Transmission where
  /-- The items of the local set. -/
  items : List Item
  /-- The packet identifier. -/
  pid : Nat
  /-- The continuity counter of the first packet. -/
  counter : Nat

namespace Transmission

/-- The packets of a transmission. -/
def bytes (t : Transmission) : Bytes :=
  carry t.pid (encodeUnit t.items) t.counter

/-- Whether tags, packet identifier and length are within the limits of the formats. -/
structure IsSendable (t : Transmission) : Prop where
  /-- Tags have at most four groups. -/
  tag_lt : ∀ i ∈ t.items, i.tag < 2 ^ 28
  /-- The identifier has 13 bits, and is not that of filler packets. -/
  pid_lt : t.pid < nullPid
  /-- The unit fits into one elementary stream unit. -/
  length_le : (encodeUnit t.items).length ≤ 65532

/-- The fragments of a transmission. -/
def fragments (t : Transmission) : List Fragment :=
  carriedFragments t.pid (encodeUnit t.items) t.counter

/-- What the assembler gives for a transmission. -/
def unit (t : Transmission) : Pes.Unit :=
  ⟨t.pid, Transport.privateStream, encodeUnit t.items⟩

theorem bytes_eq (t : Transmission) : t.bytes = (t.fragments.map Fragment.bytes).flatten :=
  Transport.carry_eq ..

theorem IsSendable.fits {t : Transmission} (h : t.IsSendable) {f : Fragment}
    (hf : f ∈ t.fragments) : f.Fits := by
  have hpid := h.pid_lt
  exact Fragment.fits_of_mem_ofBytes (by simp only [nullPid] at hpid; omega) hf

/-- Nothing of a unit is longer than the unit. -/
theorem IsSendable.length_value_le {t : Transmission} (h : t.IsSendable) :
    (unitValue t.items).length ≤ 65532 := by
  have hle := h.length_le
  rw [Klv.encodeUnit_eq_append, List.length_append, List.length_append] at hle
  omega

theorem IsSendable.isReadable {t : Transmission} (h : t.IsSendable) :
    ∀ i ∈ t.items, i.IsReadable := by
  have hlength := h.length_value_le
  exact Klv.isReadable_of_length_lt h.tag_lt (by omega)

/-- A transmission is decoded to the sample of its items. -/
theorem IsSendable.decodeUnit_unit {t : Transmission} (h : t.IsSendable) :
    decodeUnit t.unit = [.ok (Sample.ofItems t.items)] := by
  have := h.length_value_le
  exact decodeUnit_encodeUnit h.isReadable (by omega) rfl

end Transmission

/-! ## Padding -/

/-- Whether a packet says nothing: it starts with the sync byte, and is read as a null packet if it
is read as one at all. -/
structure IsPadding (packet : Bytes) : Prop where
  /-- It has the size of a packet. -/
  length_eq : packet.length = packetSize
  /-- It starts with the sync byte. -/
  head?_eq : packet.head? = some syncByte
  /-- What is read of it is a null packet, whatever else it says. -/
  pid_eq : ∀ p, Packet.parse packet = .ok p → p.pid = nullPid

/-- A packet stream with padding put between its packets. -/
inductive Padded : Bytes → Bytes → Prop where
  /-- Nothing. -/
  | nil : Padded [] []
  /-- A packet of the stream. -/
  | packet {p carried stream : Bytes} (size : p.length = packetSize)
      (rest : Padded carried stream) : Padded (p ++ carried) (p ++ stream)
  /-- A packet that says nothing. -/
  | padding {p carried stream : Bytes} (padding : IsPadding p)
      (rest : Padded carried stream) : Padded carried (p ++ stream)

/-- Padding holds nothing that an assembler collects. -/
theorem IsPadding.readable_cons {bs : Bytes} (h : IsPadding bs) (packets : List Bytes) :
    (Extractor.readable (bs :: packets)).filter (fun p => !Pes.Assembler.ignores p) =
      (Extractor.readable packets).filter fun p => !Pes.Assembler.ignores p := by
  cases hparse : Packet.parse bs with
  | ok p =>
    have hignored : Pes.Assembler.ignores p = true := by
      simp [Pes.Assembler.ignores, h.pid_eq p hparse]
    rw [Extractor.readable_cons_ok hparse, List.filter_cons_of_neg (by simp [hignored])]
  | error fault => rw [Extractor.readable_cons_error hparse]

/-- A padded stream of fragments is a stream of packets, of which the assembler collects the
fragments. -/
theorem Padded.exists_packets {fragments : List Fragment} {stream : Bytes}
    (h : Padded (fragments.map Fragment.bytes).flatten stream)
    (hfits : ∀ f ∈ fragments, f.Fits) :
    ∃ packets : List Bytes, packets.flatten = stream ∧ (∀ p ∈ packets, p.length = packetSize) ∧
      IsAligned stream ∧
      (Extractor.readable packets).filter (fun p => !Pes.Assembler.ignores p) =
        (fragments.map Fragment.packet).filter fun p => !Pes.Assembler.ignores p := by
  generalize hcarried : (fragments.map Fragment.bytes).flatten = carried at h
  induction h generalizing fragments with
  | nil =>
    cases fragments with
    | nil => exact ⟨[], rfl, by simp, Transport.isAligned_nil, rfl⟩
    | cons f fragments =>
      have hsize := Fragment.length_bytes (hfits f List.mem_cons_self)
      rw [List.map_cons, List.flatten_cons, List.append_eq_nil_iff] at hcarried
      rw [hcarried.1] at hsize
      cases hsize
  | @packet p carried stream size rest ih =>
    cases fragments with
    | nil =>
      rw [(List.append_eq_nil_iff.1 hcarried.symm).1] at size
      cases size
    | cons f fragments =>
      have hf := hfits f List.mem_cons_self
      have hsize := Fragment.length_bytes hf
      rw [List.map_cons, List.flatten_cons] at hcarried
      obtain ⟨rfl, hlater⟩ := List.append_inj hcarried (hsize.trans size.symm)
      obtain ⟨packets, hstream, hsizes, haligned, hread⟩ :=
        ih (fun g hg => hfits g (List.mem_cons_of_mem _ hg)) hlater
      have hparse := Fragment.parse_bytes hf []
      rw [List.append_nil] at hparse
      refine ⟨f.bytes :: packets, by rw [List.flatten_cons, hstream], ?_,
        haligned.append hsize f.head?_bytes, ?_⟩
      · simpa [hsize] using hsizes
      · rw [Extractor.readable_cons_ok hparse, List.map_cons, List.filter_cons, List.filter_cons,
          hread]
  | @padding p carried stream hpadding rest ih =>
    obtain ⟨packets, hstream, hsizes, haligned, hread⟩ := ih hfits hcarried
    refine ⟨p :: packets, by rw [List.flatten_cons, hstream], ?_,
      haligned.append hpadding.length_eq hpadding.head?_eq, ?_⟩
    · simpa [hpadding.length_eq] using hsizes
    · rw [hpadding.readable_cons, hread]

/-! ## Transmissions -/

/-- Transmissions are the bytes of their fragments. -/
theorem flatMap_bytes_eq (ts : List Transmission) :
    ts.flatMap Transmission.bytes =
      ((ts.flatMap Transmission.fragments).map Fragment.bytes).flatten := by
  rw [← List.flatMap_def, List.flatMap_assoc]
  congr 1
  funext t
  rw [t.bytes_eq, List.flatMap_def]

theorem fits_of_isSendable {ts : List Transmission} (h : ∀ t ∈ ts, t.IsSendable) :
    ∀ f ∈ ts.flatMap Transmission.fragments, f.Fits := by
  intro f hf
  obtain ⟨t, ht, hf⟩ := List.mem_flatMap.1 hf
  exact (h t ht).fits hf

/-- Where nothing is collected, transmissions give their units and leave nothing. -/
theorem pushAll_fragments {ts : List Transmission} (h : ∀ t ∈ ts, t.IsSendable)
    {a : Pes.Assembler} (ha : ∀ pid : Nat, a.partials[pid]? = none) :
    a.pushAll ((ts.flatMap Transmission.fragments).map Fragment.packet) =
      (ts.map Transmission.unit, a) := by
  induction ts with
  | nil => rfl
  | cons t ts ih =>
    have ht := h t List.mem_cons_self
    have hpid := ht.pid_lt
    rw [List.flatMap_cons, List.map_append, Pes.Assembler.pushAll_append, Transmission.fragments,
      Pes.Assembler.pushAll_carriedFragments t.counter (by omega) ht.length_le (ha t.pid),
      ih fun t ht => h t (List.mem_cons_of_mem _ ht)]
    rfl

/-- Decoding transmissions gives the samples of their items. -/
theorem flatMap_decodeUnit {ts : List Transmission} (h : ∀ t ∈ ts, t.IsSendable) :
    ((ts.map Transmission.unit).map decodeUnit).flatMap samplesOf =
      ts.map fun t => Sample.ofItems t.items := by
  induction ts with
  | nil => rfl
  | cons t ts ih =>
    rw [List.map_cons, List.map_cons, List.flatMap_cons, (h t List.mem_cons_self).decodeUnit_unit,
      ih fun t ht => h t (List.mem_cons_of_mem _ ht)]
    rfl

/-- Decoding transmissions skips nothing. -/
theorem skipped_foldl_countUnit {ts : List Transmission} (h : ∀ t ∈ ts, t.IsSendable) (s : Stats) :
    (((ts.map Transmission.unit).map decodeUnit).foldl Stats.countUnit s).skipped =
      s.skipped := by
  induction ts generalizing s with
  | nil => rfl
  | cons t ts ih =>
    rw [List.map_cons, List.map_cons, List.foldl_cons, (h t List.mem_cons_self).decodeUnit_unit,
      ih fun t ht => h t (List.mem_cons_of_mem _ ht)]
    rfl

/-- Transmissions that are padded with null and unreadable packets and split into datagrams in any
way: no datagram is refused, each transmission gives one sample, in order, and nothing is
skipped. -/
theorem Intake.samples_of_transmissions {ts : List Transmission} (h : ∀ t ∈ ts, t.IsSendable)
    {stream : Bytes} (hstream : Padded (ts.flatMap Transmission.bytes) stream)
    {datagrams : List Bytes} (hne : ∀ d ∈ datagrams, d ≠ []) (hall : datagrams.flatten = stream) :
    ∃ samples : List (List Sample), (Intake.initial.pushAll datagrams).1 = samples.map .ok ∧
      samples.flatten = ts.map (fun t => Sample.ofItems t.items) ∧
      (Intake.initial.pushAll datagrams).2.extractor.stats.skipped = 0 := by
  have hfits := fits_of_isSendable h
  rw [flatMap_bytes_eq] at hstream
  obtain ⟨packets, hpackets, hsizes, haligned, hread⟩ := hstream.exists_packets hfits
  have hcut : Transport.cutPackets stream = (packets, []) := by
    rw [← hpackets] at haligned ⊢
    exact Transport.cutPackets_flatten hsizes haligned
  obtain ⟨batches, hbatches, hflatten, -⟩ :=
    Aligner.pushAll_split List.not_mem_nil haligned hne hall
  rw [hcut] at hflatten
  obtain ⟨samples, hresults, hsamples, hafter⟩ :=
    Intake.pushAll_of_accepted (r := Intake.initial) hbatches
  have hunits : Intake.initial.extractor.assembler.pushAll (Extractor.readable packets) =
      (ts.map Transmission.unit, .initial) := by
    rw [← Pes.Assembler.pushAll_filter, hread, Pes.Assembler.pushAll_filter]
    exact pushAll_fragments h fun _ => Std.ExtTreeMap.getElem?_empty
  rw [hflatten, Extractor.pushAll_eq] at hsamples hafter
  simp only [Extractor.unitsOf, hunits] at hsamples hafter
  refine ⟨samples, hresults, hsamples.trans (flatMap_decodeUnit h), ?_⟩
  rw [hafter]
  exact skipped_foldl_countUnit h _

/-- Two local sets of different missions, cut within the first packet. Within the unit of the first,
which takes two packets, is a null packet with zeros for a payload; after it is a packet whose
adaptation field is too long. -/
theorem Intake.samples_of_transmissions_cut :
    let long : Transmission := ⟨[⟨3, [0x41]⟩, ⟨10, List.replicate 180 0x50⟩], 0x100, 15⟩
    let short : Transmission := ⟨[⟨3, [0x42]⟩, ⟨5, [0x40, 0x00]⟩], 0x101, 0⟩
    let null := [syncByte, 0x1F, 0xFF, 0x11] ++ List.replicate 184 0x00
    let unread := [syncByte, 0x01, 0x00, 0x30] ++ List.replicate 184 0xFF
    let stream := long.bytes.take packetSize ++ (null ++ (long.bytes.drop packetSize ++ (unread ++
      (short.bytes ++ []))))
    (Packet.parse null).map (·.pid) = .ok nullPid ∧
      Packet.parse unread = .error .adaptationOverflow ∧
      ∃ samples : List (List Sample),
        (Intake.initial.pushAll [stream.take 100, stream.drop 100]).1 = samples.map .ok ∧
        samples.flatten = [Sample.ofItems long.items, Sample.ofItems short.items] ∧
        samples.flatten.map (·.missionId) = [some "A", some "B"] ∧
        (Intake.initial.pushAll [stream.take 100, stream.drop 100]).2.extractor.stats.skipped =
          0 := by
  intro long short null unread stream
  have hnull : (Packet.parse null).map (·.pid) = .ok nullPid := by decide +kernel
  have hunread : Packet.parse unread = .error .adaptationOverflow := by decide +kernel
  have hsendable : ∀ t ∈ [long, short], t.IsSendable := by
    simp only [List.mem_cons, List.not_mem_nil, or_false]
    rintro t (rfl | rfl)
    · exact ⟨by decide, by decide, by decide +kernel⟩
    · exact ⟨by decide, by decide, by decide +kernel⟩
  have hnullPadding : IsPadding null := by
    refine ⟨by decide +kernel, rfl, fun p hparse => ?_⟩
    rw [hparse] at hnull
    exact Except.ok.inj hnull
  have hunreadPadding : IsPadding unread := by
    refine ⟨by decide +kernel, rfl, fun p hparse => ?_⟩
    cases hunread.symm.trans hparse
  have hpadded : Padded ([long, short].flatMap Transmission.bytes) stream := by
    have hcarried : [long, short].flatMap Transmission.bytes =
        long.bytes.take packetSize ++ (long.bytes.drop packetSize ++ (short.bytes ++ [])) := by
      rw [← List.append_assoc, List.take_append_drop]
      rfl
    rw [hcarried]
    exact .packet (by decide +kernel) <| .padding hnullPadding <| .packet (by decide +kernel) <|
      .padding hunreadPadding <| .packet (by decide +kernel) .nil
  have hlength : stream.length = 940 := by decide +kernel
  have hne : ∀ d ∈ [stream.take 100, stream.drop 100], d ≠ [] := by
    simp only [List.mem_cons, List.not_mem_nil, or_false]
    rintro d (rfl | rfl)
    · exact List.ne_nil_of_length_pos (by rw [List.length_take, hlength]; decide)
    · exact List.ne_nil_of_length_pos (by rw [List.length_drop, hlength]; decide)
  have hall : [stream.take 100, stream.drop 100].flatten = stream := by
    simp only [List.flatten_cons, List.flatten_nil, List.append_nil, List.take_append_drop]
  obtain ⟨samples, hresults, hsamples, hskipped⟩ :=
    Intake.samples_of_transmissions hsendable hpadded hne hall
  have hmissions : (Sample.ofItems long.items).missionId = some "A" ∧
      (Sample.ofItems short.items).missionId = some "B" := by
    constructor <;> decide +kernel
  refine ⟨hnull, hunread, samples, hresults, hsamples, ?_, hskipped⟩
  rw [hsamples]
  exact congrArg₂ (fun a b => [a, b]) hmissions.1 hmissions.2

end StreamCatalog.Telemetry
