import StreamCatalog.Proofs.Pes.Repetition
import StreamCatalog.Proofs.Telemetry.Readings

/-!
# Telemetry of repeated packets

A packet that comes twice in a row changes the units of a run exactly when it
starts a unit and holds something of it, and changes the samples exactly when a
sample can be read from what it holds. A transmission in a single packet is
therefore decoded twice when the packet is repeated.
-/

namespace StreamCatalog.Telemetry

open Pes (echo StartsContent)
open Transport (Packet packetSize)

/-- A packet that comes twice in a row leaves the units of a run as they are exactly when it does
not start a unit of which it holds something; and it leaves the samples as they are exactly when
no sample can be read from what it holds of such a unit. -/
theorem repeated_packet_iff (ps qs : List Packet) (p : Packet) :
    (Pes.Assembler.initial.run (ps ++ p :: p :: qs) = Pes.Assembler.initial.run (ps ++ p :: qs) ↔
        ¬StartsContent p) ∧
      ((readingsFrom .initial (ps ++ p :: p :: qs)).1.map Prod.fst =
          (readingsFrom .initial (ps ++ p :: qs)).1.map Prod.fst ↔
        ∀ u ∈ echo p, samplesOf (decodeUnit u) = []) := by
  obtain ⟨units, later, honce, htwice⟩ := Pes.Assembler.initial.run_repeat ps qs p
  constructor
  · rw [honce, htwice, ← Pes.echo_eq_none_iff]
    simp
  · rw [(readingsFrom_eq ..).1, (readingsFrom_eq ..).1,
      show Extractor.initial.assembler = Pes.Assembler.initial from rfl, honce, htwice]
    simp

/-- A transmission in one packet: one sample, and two when the packet comes twice. -/
theorem repeated_transmission_decoded_twice :
    let t : Transmission := ⟨[⟨3, [0x41]⟩], 0x100, 0⟩
    t.bytes.length = packetSize ∧
      (readings t.bytes).1.map Prod.fst = [Sample.ofItems t.items] ∧
      (readings (t.bytes ++ t.bytes)).1.map Prod.fst =
        [Sample.ofItems t.items, Sample.ofItems t.items] := by
  intro t
  have hsendable : t.IsSendable := ⟨by decide, by decide, by decide +kernel⟩
  have hsendableOnce := List.forall_mem_singleton.2 hsendable
  have honce := samples_readings hsendableOnce
  have htwice := samples_readings (List.forall_mem_cons.2 ⟨hsendable, hsendableOnce⟩)
  rw [List.flatMap_singleton] at honce
  rw [List.flatMap_cons, List.flatMap_singleton] at htwice
  exact ⟨by decide +kernel, honce, htwice⟩

end StreamCatalog.Telemetry
