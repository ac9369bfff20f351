import StreamCatalog.Proofs.Session.Conservation

/-!
# The telemetry of a session that ends

Units stay open while chunks are closed, so that their samples come into a later
chunk. When the reception ends, what is still open is decoded into the open chunk.
The chunks then hold all samples of the packets if there is such a chunk, or
nothing is left to be decoded, and not otherwise (`SessionRun.telemetry_at_end`).
-/

namespace StreamCatalog

open Telemetry (Extractor Sample)

namespace SessionRun

/-- The end of a reception, when no file is refused, hands over the open chunk with the samples of
the units that are still open. -/
theorem handed_shutdown {r : SessionRun} {now : Moment} {d : ChunkDirectory}
    (h : (r.session.step .shutdown now d).2.1.lost = r.session.lost) :
    (r.step (.event .shutdown now d)).handed.flatMap (·.commit.chunk.samples) =
      r.handed.flatMap (·.commit.chunk.samples) ++
        r.session.chunk.toList.flatMap (·.samples ++ r.session.extractor.finish.1) := by
  have hafter : (r.session.step .shutdown now d).2.1 = r.session.after .shutdown now :=
    (r.session.step_cases .shutdown now d).resolve_right fun hlost =>
      Nat.succ_ne_self _ (hlost.symm.trans h)
  have hrunning : (r.session.after .shutdown now).running = (r.session.flush.closed now).running :=
    rfl
  rw [step, hafter, hrunning, Session.running_closed, Session.flush]
  cases hchunk : r.session.chunk with
  | none => simp [hchunk]
  | some chunk =>
    simp only [Option.toList_some, List.map_singleton, List.drop_left, List.flatMap_append,
      List.flatMap_singleton]
    rfl

/-- As long as no file is refused, the chunks of a session that ends hold the samples of the packets
of all accepted datagrams, followed by those of the units that are open at the end, if a chunk is
open then. So they hold what one extractor gives that is fed the packets and finished, exactly if
a chunk is open at the end or no open unit has a sample. -/
theorem telemetry_at_end (config : StreamConfig) (report : StreamReport) (is : List SessionInput)
    (his : (start config report).AdmitsAll is) (now : Moment) (d : ChunkDirectory)
    (hd : (((start config report).stepAll is).session.step .shutdown now d).2.1.lost =
      ((start config report).stepAll is).session.lost) :
    let r := (start config report).stepAll is
    let packets := ((Session.start config report).listener.accepted is).flatMap (·.packets)
    let fed := Extractor.initial.pushAll packets
    let samples := (r.step (.event .shutdown now d)).handed.flatMap (·.commit.chunk.samples)
    samples = fed.1 ++ (if r.session.chunk.isSome then fed.2.finish.1 else []) ∧
      (samples = fed.1 ++ fed.2.finish.1 ↔ r.session.chunk.isSome ∨ fed.2.finish.1 = []) := by
  intro r packets fed samples
  have h : Accounted report.counts ((Session.start config report).listener.accepted is) r :=
    (Accounted.initial config report).stepAll his
  have hheld : r.handed.flatMap (·.commit.chunk.samples) ++
      r.session.chunk.toList.flatMap (·.samples) = fed.1 := by
    rw [← h.samples_eq]
    exact h.flatMap_eq (·.samples) (·.commit.chunk.samples) (·.samples)
      (fun _ _ hholds => hholds.samples_eq) fun _ _ _ hholds => hholds.samples_eq
  have hextractor : r.session.extractor = fed.2 := h.extractor_eq
  have hend : samples = r.handed.flatMap (·.commit.chunk.samples) ++
      r.session.chunk.toList.flatMap (·.samples ++ r.session.extractor.finish.1) :=
    handed_shutdown hd
  clear_value r fed samples
  rw [hextractor] at hend
  cases hchunk : r.session.chunk with
  | none =>
    rw [hchunk, Option.toList_none, List.flatMap_nil, List.append_nil] at hheld hend
    rw [hend, hheld]
    simp
  | some chunk =>
    rw [hchunk, Option.toList_some, List.flatMap_singleton] at hheld hend
    rw [hend, ← List.append_assoc, hheld]
    simp

/-- A packet with the start of a unit of open length, and a local set that names a mission. -/
def openUnitPacket : Bytes :=
  [0x47, 0x41, 0x00, 0x30, 0x96, 0x00] ++ List.replicate 149 0xFF ++
    [0x00, 0x00, 0x01, 0xBD, 0x00, 0x00, 0x80, 0x00, 0x00] ++ Klv.encodeUnit [⟨3, [0x41]⟩]

/-- The unit is open while a chunk is closed, and its sample comes into the last chunk. -/
theorem telemetry_at_end_of_second_chunk :
    let is := [sampleInput (.datagram openUnitPacket) 0, sampleInput .rollover 1,
      sampleInput (.datagram Transport.nullPacket) 2]
    let r := (start (sampleConfig "old" 1000) .initial).stepAll is
    let packets := [openUnitPacket, Transport.nullPacket]
    let fed := Extractor.initial.pushAll packets
    (fed.2.finish.1.map (·.missionId) = [some "A"]) ∧
      (r.step (sampleInput .shutdown 3)).handed.flatMap (·.commit.chunk.samples) =
        fed.1 ++ fed.2.finish.1 := by
  intro is r packets fed
  have hadmits : (start (sampleConfig "old" 1000) .initial).AdmitsAll is := by
    refine ⟨⟨nofun, ?_⟩, ⟨nofun, ?_⟩, ⟨nofun, ?_⟩, trivial⟩ <;> decide +kernel
  have hpackets : ((Session.start (sampleConfig "old" 1000) .initial).listener.accepted is).flatMap
      (·.packets) = packets := by
    decide +kernel
  have hopen : r.session.chunk.isSome := by decide +kernel
  have h := telemetry_at_end (sampleConfig "old" 1000) .initial is hadmits ⟨⟨0, 0⟩, 3⟩ .empty
    (by decide +kernel)
  dsimp only at h
  rw [hpackets] at h
  exact ⟨by decide +kernel, h.2.2 (.inl hopen)⟩

/-- The only chunk is full before the unit is complete: at the end there is no chunk for the sample. -/
theorem telemetry_lost_without_chunk :
    let r := (start (sampleConfig "old" 188) .initial).stepAll
      [sampleInput (.datagram openUnitPacket) 0]
    let fed := Extractor.initial.pushAll [openUnitPacket]
    (fed.1 ++ fed.2.finish.1).map (·.missionId) = [some "A"] ∧
      (r.step (sampleInput .shutdown 1)).handed.map (·.commit.chunk.samples.length) = [0] := by
  decide +kernel

end SessionRun

end StreamCatalog
