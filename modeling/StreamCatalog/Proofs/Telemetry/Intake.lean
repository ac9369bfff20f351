import StreamCatalog.Proofs.Klv.RoundTrip
import StreamCatalog.Proofs.Pes.Assembly
import StreamCatalog.Telemetry.Extractor

/-!
# Telemetry from packets and from datagrams

What an extractor gives for a run of packets is determined by the units that
their assembler completes (`Extractor.pushAll_eq`). An `Intake` is an
aligner in front of an extractor; when the aligner refuses nothing, it gives what
the extractor gives for all packets (`Intake.pushAll_of_accepted`).
-/

namespace StreamCatalog.Telemetry

open Klv (Item checksumTag checksumItem checkedItems encodeUnit unitOf unitValue)
open Transport (Packet Aligner DatagramFault)

/-! ## Samples of written units -/

/-- The tags that a sample is made of. -/
def knownTags : List Nat :=
  [2, 3, 5, 6, 7, 10, 11] ++ List.range' 13 5 ++ List.range' 23 11 ++ List.range' 82 8

theorem position?_congr {items others : List Item} {tag : Nat}
    (hlat : lastValue? items tag = lastValue? others tag)
    (hlon : lastValue? items (tag + 1) = lastValue? others (tag + 1))
    (latitude longitude : Bytes → Option Float) :
    position? items latitude longitude tag = position? others latitude longitude tag := by
  rw [position?, position?, hlat, hlon]

theorem corners?_congr {items others : List Item} {tag : Nat}
    (h : ∀ k < 8, lastValue? items (tag + k) = lastValue? others (tag + k))
    (latitude longitude : Bytes → Option Float) :
    corners? items latitude longitude tag = corners? others latitude longitude tag := by
  have hpair (k : Nat) (hk : k + 1 < 8) :
      position? items latitude longitude (tag + k) =
        position? others latitude longitude (tag + k) :=
    position?_congr (h k (by omega)) (h (k + 1) hk) latitude longitude
  have hfirst := hpair 0 (by decide)
  rw [Nat.add_zero] at hfirst
  rw [corners?, corners?, hfirst, hpair 2 (by decide), hpair 4 (by decide), hpair 6 (by decide)]

/-- A sample depends on the last values of the known tags alone. -/
theorem ofItems_congr {items others : List Item}
    (h : ∀ tag ∈ knownTags, lastValue? items tag = lastValue? others tag) :
    Sample.ofItems items = Sample.ofItems others := by
  have hposition (tag : Nat) (hlat : tag ∈ knownTags) (hlon : tag + 1 ∈ knownTags) :
      position? items decodeLatitude decodeLongitude tag =
        position? others decodeLatitude decodeLongitude tag :=
    position?_congr (h tag hlat) (h (tag + 1) hlon) _ _
  have hoffsets : corners? items decodeCornerOffset decodeCornerOffset 26 =
      corners? others decodeCornerOffset decodeCornerOffset 26 := by
    apply corners?_congr
    intro k hk
    exact h _ (by simp only [knownTags, List.mem_append, List.mem_range'_1]; omega)
  have hcorners : corners? items decodeLatitude decodeLongitude 82 =
      corners? others decodeLatitude decodeLongitude 82 := by
    apply corners?_congr
    intro k hk
    exact h _ (by simp only [knownTags, List.mem_append, List.mem_range'_1]; omega)
  simp only [Sample.ofItems, hposition 13 (by decide) (by decide),
    hposition 23 (by decide) (by decide), hoffsets, hcorners, h 2 (by decide), h 3 (by decide),
    h 5 (by decide), h 6 (by decide), h 7 (by decide), h 10 (by decide), h 11 (by decide),
    h 15 (by decide), h 16 (by decide), h 17 (by decide), h 25 (by decide)]

/-- The checksum item hides no other item. -/
theorem lastValue?_checkedItems (items : List Item) {tag : Nat} (h : tag ≠ checksumTag) :
    lastValue? (checkedItems items) tag = lastValue? items tag := by
  have hother : ¬(checksumItem items).tag = tag := Ne.symm h
  simp only [lastValue?, checkedItems, List.reverse_append, List.reverse_singleton,
    List.singleton_append]
  rw [List.find?_cons_of_neg (by simpa using hother)]

/-- The checksum item tells nothing. -/
theorem ofItems_checkedItems (items : List Item) :
    Sample.ofItems (checkedItems items) = Sample.ofItems items := by
  apply ofItems_congr
  intro tag htag
  apply lastValue?_checkedItems
  rintro rfl
  exact absurd htag (by decide)

/-- A written unit gives the sample of its items. -/
theorem ofUnit_unitOf {items : List Item} (h : ∀ i ∈ items, i.IsReadable) :
    Sample.ofUnit (unitOf items) = .ok (Sample.ofItems items) := by
  rw [Sample.ofUnit, Klv.localSet_unitOf h, ← ofItems_checkedItems]
  rfl

/-- A unit that holds one written local set gives the sample of its items. -/
theorem decodeUnit_encodeUnit {items : List Item} (hitems : ∀ i ∈ items, i.IsReadable)
    (hsize : (unitValue items).length < 2 ^ 32) {u : Pes.Unit}
    (hu : u.payload = encodeUnit items) :
    decodeUnit u = [.ok (Sample.ofItems items)] := by
  rw [decodeUnit, hu, Klv.scan_encodeUnit hsize, List.map_singleton]
  exact congrArg (fun r => [r]) (ofUnit_unitOf hitems)

/-! ## Runs of packets -/

/-- The counts after some more packets. -/
def Stats.addPackets (s : Stats) (n : Nat) : Stats :=
  { s with packets := s.packets + n }

namespace Extractor

/-- Feed the bytes of packets one after the other. -/
def pushAll (e : Extractor) : List Bytes → List Sample × Extractor
  | [] => ([], e)
  | packet :: packets =>
    let (samples, e) := e.pushBytes packet
    let (later, e) := pushAll e packets
    (samples ++ later, e)

theorem pushAll_cons (e : Extractor) (packet : Bytes) (packets : List Bytes) :
    e.pushAll (packet :: packets) =
      ((e.pushBytes packet).1 ++ ((e.pushBytes packet).2.pushAll packets).1,
        ((e.pushBytes packet).2.pushAll packets).2) := rfl

theorem pushAll_append (e : Extractor) (ps qs : List Bytes) :
    e.pushAll (ps ++ qs) =
      ((e.pushAll ps).1 ++ ((e.pushAll ps).2.pushAll qs).1, ((e.pushAll ps).2.pushAll qs).2) := by
  induction ps generalizing e with
  | nil => rfl
  | cons p ps ih =>
    rw [List.cons_append, pushAll_cons, pushAll_cons, ih, List.append_assoc]

/-- The packets that can be read. -/
def readable (packets : List Bytes) : List Packet :=
  packets.filterMap fun bs => (Packet.parse bs).toOption

theorem readable_cons_ok {bs : Bytes} {p : Packet} (h : Packet.parse bs = .ok p)
    (packets : List Bytes) : readable (bs :: packets) = p :: readable packets := by
  rw [readable, List.filterMap_cons, h]
  rfl

theorem readable_cons_error {bs : Bytes} {fault : Transport.PacketFault}
    (h : Packet.parse bs = .error fault) (packets : List Bytes) :
    readable (bs :: packets) = readable packets := by
  rw [readable, List.filterMap_cons, h]
  rfl

/-- The units that the packets complete. -/
def unitsOf (e : Extractor) (packets : List Bytes) : List Pes.Unit :=
  (e.assembler.pushAll (readable packets)).1

/-- What is counted of units does not depend on the number of packets. -/
theorem foldl_countUnit_addPackets (results : List (List (Except Klv.Error Sample))) (s : Stats)
    (n : Nat) :
    results.foldl Stats.countUnit (s.addPackets n) =
      (results.foldl Stats.countUnit s).addPackets n := by
  induction results generalizing s with
  | nil => rfl
  | cons r results ih => exact ih (s.countUnit r)

/-- A packet gives the samples of the units that it completes. -/
theorem push_eq (e : Extractor) (p : Packet) :
    e.push p =
      (((e.assembler.push p).1.map decodeUnit).flatMap samplesOf,
        ⟨(e.assembler.push p).2,
          ((e.assembler.push p).1.map decodeUnit).foldl Stats.countUnit (e.stats.addPackets 1)⟩) :=
  rfl

/-- What a run of packets gives is determined by the units that the assembler completes. -/
theorem pushAll_eq (e : Extractor) (packets : List Bytes) :
    e.pushAll packets =
      (((e.unitsOf packets).map decodeUnit).flatMap samplesOf,
        ⟨(e.assembler.pushAll (readable packets)).2,
          ((e.unitsOf packets).map decodeUnit).foldl Stats.countUnit
            (e.stats.addPackets (readable packets).length)⟩) := by
  induction packets generalizing e with
  | nil => rfl
  | cons bs packets ih =>
    rw [pushAll_cons, ih]
    cases hparse : Packet.parse bs with
    | error fault =>
      have hpush : e.pushBytes bs = ([], e) := by rw [pushBytes, hparse]
      rw [hpush]
      simp only [unitsOf, readable_cons_error hparse, List.nil_append]
    | ok p =>
      have hpush : e.pushBytes bs = e.push p := by rw [pushBytes, hparse]
      have hpackets : (e.stats.addPackets 1).addPackets (readable packets).length =
          e.stats.addPackets ((readable packets).length + 1) := by
        simp only [Stats.addPackets, Nat.add_assoc, Nat.add_comm 1]
      rw [hpush, push_eq]
      simp only [unitsOf, readable_cons_ok hparse, Pes.Assembler.pushAll_cons, List.map_append,
        List.flatMap_append, List.foldl_append, List.length_cons]
      rw [← foldl_countUnit_addPackets, hpackets]

end Extractor

/-! ## Runs of datagrams -/

/-- An aligner whose packets are fed to an extractor. -/
structure Intake where
  /-- Cuts datagrams into packets. -/
  aligner : Aligner
  /-- Finds samples in packets. -/
  extractor : Extractor

namespace Intake

/-- The state before the first datagram. -/
def initial : Intake := ⟨.initial, .initial⟩

/-- Take a datagram, and give the samples that it completes. A refused one does not reach the
extractor. -/
def push (r : Intake) (datagram : Bytes) : Except DatagramFault (List Sample) × Intake :=
  match r.aligner.push datagram with
  | (.error fault, aligner) => (.error fault, ⟨aligner, r.extractor⟩)
  | (.ok packets, aligner) =>
    let (samples, extractor) := r.extractor.pushAll packets
    (.ok samples, ⟨aligner, extractor⟩)

/-- Take datagrams one after the other. -/
def pushAll (r : Intake) : List Bytes → List (Except DatagramFault (List Sample)) × Intake
  | [] => ([], r)
  | datagram :: datagrams =>
    let (result, r) := r.push datagram
    let (results, r) := pushAll r datagrams
    (result :: results, r)

/-- When the aligner accepts all datagrams, the samples are those of all packets. -/
theorem pushAll_of_accepted {r : Intake} {datagrams : List Bytes} {batches : List (List Bytes)}
    (h : (r.aligner.pushAll datagrams).1 = batches.map .ok) :
    ∃ samples : List (List Sample), (r.pushAll datagrams).1 = samples.map .ok ∧
      samples.flatten = (r.extractor.pushAll batches.flatten).1 ∧
      (r.pushAll datagrams).2 =
        ⟨(r.aligner.pushAll datagrams).2, (r.extractor.pushAll batches.flatten).2⟩ := by
  induction datagrams generalizing r batches with
  | nil =>
    cases batches with
    | nil => exact ⟨[], rfl, rfl, rfl⟩
    | cons packets batches => cases h
  | cons datagram datagrams ih =>
    cases batches with
    | nil => cases h
    | cons packets batches =>
      obtain ⟨hfirst, hlater⟩ := List.cons.inj h
      let next : Intake :=
        ⟨(r.aligner.push datagram).2, (r.extractor.pushAll packets).2⟩
      have hpush : r.push datagram = (.ok (r.extractor.pushAll packets).1, next) := by
        rw [push, show r.aligner.push datagram = (.ok packets, (r.aligner.push datagram).2) from
          Prod.ext hfirst rfl]
      obtain ⟨samples, hresults, hsamples, hafter⟩ := ih (r := next) hlater
      refine ⟨(r.extractor.pushAll packets).1 :: samples, ?_, ?_, ?_⟩
      · simp only [pushAll, hpush, hresults, List.map_cons]
      · rw [List.flatten_cons, List.flatten_cons, Extractor.pushAll_append, hsamples]
      · simp only [pushAll, hpush, hafter, Aligner.pushAll, List.flatten_cons,
          Extractor.pushAll_append, next]

end Intake

end StreamCatalog.Telemetry
