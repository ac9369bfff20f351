import StreamCatalog.Proofs.Faults.Samples
import StreamCatalog.Proofs.Faults.Units
import StreamCatalog.Session.Basic

/-!
# Decoding without faults

A `Decoder` is what a session reads its datagrams with: an aligner, an analyzer and
an extractor. Whatever datagrams it is given, in whatever pieces, and whenever it is
flushed or reset, it does what its parts say, and none of the operations of
`Checked` faults on the way (`Decoder.run_faultless`). What holds of its state then is
`Decoder.IsBounded`. The reception of a stream does nothing else with the parts
(`Session.decoder_step`).
-/

namespace StreamCatalog

open Checked
open Transport (Packet Aligner Analyzer DatagramFault packetSize)

namespace Telemetry

/-! ## Units -/

/-- What something that was found decodes to. -/
def decodeFoundChecked : Except Klv.Error Klv.Unit → Checked (Except Klv.Error Sample)
  | .error e => return .error e
  | .ok unit => do
    match ← unit.localSetChecked with
    | .error e => return .error e
    | .ok items => return .ok (← Sample.ofItemsChecked items)

/-- What each KLV unit of an elementary stream unit decodes to. -/
def decodeUnitChecked (u : Pes.Unit) : Checked (List (Except Klv.Error Sample)) := do
  (← Klv.scanChecked u.payload).mapM decodeFoundChecked

/-- Decoding a unit faults nowhere in a buffer. -/
theorem decodeUnitChecked_eq {u : Pes.Unit} (h : u.payload.length < capacity) :
    decodeUnitChecked u = .ok (decodeUnit u) := by
  have hfound : ∀ found ∈ Klv.scan u.payload,
      decodeFoundChecked found = .ok (found.bind Sample.ofUnit) := by
    intro found hmem
    cases found with
    | error e => rfl
    | ok unit =>
      have hle := Klv.length_bytes_le_of_mem_scanFrom hmem
      rw [decodeFoundChecked, Klv.Unit.localSetChecked_eq (by omega), ok_bind, Except.bind,
        Sample.ofUnit]
      cases unit.localSet with
      | error e => rfl
      | ok items =>
        dsimp only
        rw [Sample.ofItemsChecked_eq]
        rfl
  rw [decodeUnitChecked, Klv.scanChecked_eq h, ok_bind, decodeUnit]
  exact mapM_eq_ok hfound

theorem length_decodeUnit_le (u : Pes.Unit) : (decodeUnit u).length ≤ u.payload.length := by
  rw [decodeUnit, List.length_map]
  exact Klv.length_scanFrom_le 0 u.payload

/-! ## Counts -/

/-- Count what was found. -/
def Stats.countChecked (s : Stats) : List (Except Klv.Error Sample) → Checked Stats
  | [] => return s
  | .ok _ :: results => do countChecked { s with decoded := ← next s.decoded } results
  | .error _ :: results => do countChecked { s with skipped := ← next s.skipped } results

/-- The counts after a completed unit with the given results. -/
def Stats.countUnitChecked (s : Stats) (results : List (Except Klv.Error Sample)) :
    Checked Stats := do
  countChecked { s with pesUnits := ← next s.pesUnits } results

theorem length_samplesOf_le (results : List (Except Klv.Error Sample)) :
    (samplesOf results).length ≤ results.length :=
  List.length_filterMap_le ..

theorem Stats.gives_countChecked {received : Nat} {s : Stats}
    {results : List (Except Klv.Error Sample)}
    (h : s.decoded + s.skipped + results.length ≤ received) :
    Gives received (s.countChecked results)
      { s with
        decoded := s.decoded + (samplesOf results).length
        skipped := s.skipped + (results.length - (samplesOf results).length) } True := by
  induction results generalizing s with
  | nil => exact .ok _ trivial
  | cons result results ih =>
    rw [List.length_cons] at h
    have hle := length_samplesOf_le results
    cases result with
    | ok sample =>
      refine (gives_next (by omega)).bind fun _ => ?_
      have hlater := ih (s := { s with decoded := s.decoded + 1 }) (by dsimp only; omega)
      rw [show samplesOf (.ok sample :: results) = sample :: samplesOf results from rfl,
        List.length_cons, List.length_cons, Nat.add_sub_add_right, ← Nat.add_assoc,
        Nat.add_right_comm]
      exact hlater
    | error e =>
      refine (gives_next (by omega)).bind fun _ => ?_
      have hlater := ih (s := { s with skipped := s.skipped + 1 }) (by dsimp only; omega)
      rw [show samplesOf (.error e :: results) = samplesOf results from rfl, List.length_cons,
        show s.skipped + (results.length + 1 - (samplesOf results).length) =
          s.skipped + 1 + (results.length - (samplesOf results).length) by omega]
      exact hlater

/-- Counting a unit faults nowhere, unless a count is at its end. -/
theorem Stats.gives_countUnitChecked {received : Nat} {s : Stats}
    {results : List (Except Klv.Error Sample)} (hunits : s.pesUnits < received)
    (hfound : s.decoded + s.skipped + results.length ≤ received) :
    Gives received (s.countUnitChecked results) (s.countUnit results) True :=
  (gives_next hunits).bind fun _ => gives_countChecked hfound

theorem Stats.decoded_add_skipped_countUnit (s : Stats)
    (results : List (Except Klv.Error Sample)) :
    (s.countUnit results).decoded + (s.countUnit results).skipped =
      s.decoded + s.skipped + results.length := by
  have hle := length_samplesOf_le results
  simp only [countUnit]
  omega

namespace Extractor

/-- Decode completed units. -/
def decodeAllChecked (s : Stats) : List Pes.Unit → Checked (List Sample × Stats)
  | [] => return ([], s)
  | u :: units => do
    let results ← decodeUnitChecked u
    let (later, s) ← decodeAllChecked (← s.countUnitChecked results) units
    return (samplesOf results ++ later, s)

/-- Feed a packet; the answer holds the samples it completes. -/
def pushChecked (e : Extractor) (p : Packet) : Checked (List Sample × Extractor) := do
  let packets ← next e.stats.packets
  let (units, assembler) ← e.assembler.pushChecked p
  let (samples, stats) ← decodeAllChecked { e.stats with packets := packets } units
  return (samples, ⟨assembler, stats⟩)

/-- Decode the units that are still being collected. -/
def finishChecked (e : Extractor) : Checked (List Sample × Extractor) := do
  let (units, assembler) := e.assembler.flush
  let (samples, stats) ← decodeAllChecked e.stats units
  return (samples, ⟨assembler, stats⟩)

theorem decodeAll_cons (s : Stats) (u : Pes.Unit) (units : List Pes.Unit) :
    decodeAll s (u :: units) =
      (samplesOf (decodeUnit u) ++ (decodeAll (s.countUnit (decodeUnit u)) units).1,
        (decodeAll (s.countUnit (decodeUnit u)) units).2) := rfl

/-- What the counts come to. -/
theorem counts_decodeAll (s : Stats) (units : List Pes.Unit) :
    (decodeAll s units).2.packets = s.packets ∧
      (decodeAll s units).2.pesUnits = s.pesUnits + (units.map fun _ => 1).sum ∧
        (decodeAll s units).2.decoded + (decodeAll s units).2.skipped ≤
          s.decoded + s.skipped + (units.map (·.payload.length)).sum := by
  induction units generalizing s with
  | nil => exact ⟨rfl, rfl, le_rfl⟩
  | cons u units ih =>
    obtain ⟨hpackets, hunits, hfound⟩ := ih (s.countUnit (decodeUnit u))
    have hcount := s.decoded_add_skipped_countUnit (decodeUnit u)
    have hresults := length_decodeUnit_le u
    have hunit : (s.countUnit (decodeUnit u)).pesUnits = s.pesUnits + 1 := rfl
    simp only [decodeAll_cons, List.map_cons, List.sum_cons]
    exact ⟨hpackets, by omega, by omega⟩

/-- Decoding units faults nowhere, unless a count is at its end. -/
theorem gives_decodeAllChecked {received : Nat} {s : Stats} {units : List Pes.Unit}
    (hpayload : ∀ u ∈ units, u.payload.length < capacity)
    (hunits : s.pesUnits + (units.map fun _ => 1).sum ≤ received)
    (hfound : s.decoded + s.skipped + (units.map (·.payload.length)).sum ≤ received) :
    Gives received (decodeAllChecked s units) (decodeAll s units) True := by
  induction units generalizing s with
  | nil => exact .ok _ trivial
  | cons u units ih =>
    obtain ⟨hfirst, hlater⟩ := List.forall_mem_cons.1 hpayload
    simp only [List.map_cons, List.sum_cons] at hunits hfound
    have hcount := s.decoded_add_skipped_countUnit (decodeUnit u)
    have hresults := length_decodeUnit_le u
    have hunit : (s.countUnit (decodeUnit u)).pesUnits = s.pesUnits + 1 := rfl
    rw [decodeAllChecked, decodeUnitChecked_eq hfirst, ok_bind, decodeAll_cons]
    refine (Stats.gives_countUnitChecked (by omega) (by omega)).bind fun _ => ?_
    exact (ih hlater (by omega) (by omega)).bind fun _ => .ok _ trivial

/-- What is known of an extractor. All counts are bounded by that of packets. -/
structure IsBounded (e : Extractor) : Prop where
  /-- The units being collected are within their bounds. -/
  assembler : e.assembler.IsBounded
  /-- A packet drops one unit at most. -/
  discarded_le : e.assembler.discarded ≤ e.stats.packets
  /-- A packet starts one unit at most. -/
  units_le : e.stats.pesUnits + Pes.totalWeight (fun _ => 1) e.assembler.partials ≤
    e.stats.packets
  /-- A packet brings no more bytes than it has. -/
  found_le : e.stats.decoded + e.stats.skipped +
    Pes.totalWeight (·.data.length) e.assembler.partials ≤ packetSize * e.stats.packets

theorem isBounded_initial : initial.IsBounded where
  assembler := by
    intro pid u hu
    simp [initial, Pes.Assembler.initial] at hu
  discarded_le := le_rfl
  units_le := le_rfl
  found_le := Nat.zero_le _

section

variable {e : Extractor} {p : Packet} {received : Nat}

/-- The bytes of a packet are collected at most once. -/
theorem sum_payload_push_le (a : Pes.Assembler) (hp : p.IsBounded) :
    ((a.push p).1.map (·.payload.length)).sum +
        Pes.totalWeight (·.data.length) (a.push p).2.partials ≤
      Pes.totalWeight (·.data.length) a.partials + packetSize := by
  refine Pes.Assembler.sum_push_le _ _ Pes.Partial.length_toUnit_le ?_ ?_
  · intro u hu
    exact (Pes.startUnit_bounds hu).2.trans hp.payload_lt.le
  · intro u
    rw [List.length_append]
    exact Nat.add_le_add_left hp.payload_lt.le _

/-- A packet starts one unit at most. -/
theorem sum_one_push_le (a : Pes.Assembler) (p : Packet) :
    ((a.push p).1.map fun _ => 1).sum + Pes.totalWeight (fun _ => 1) (a.push p).2.partials ≤
      Pes.totalWeight (fun _ => 1) a.partials + 1 :=
  Pes.Assembler.sum_push_le _ _ (fun _ _ => le_rfl) (fun _ _ => le_rfl)
    (fun _ => Nat.le_succ _)

/-- Feeding a packet faults nowhere, unless a buffer or a count is full. -/
theorem IsBounded.gives_pushChecked (h : e.IsBounded) (hp : p.IsBounded)
    (hreceived : packetSize * (e.stats.packets + 1) ≤ received) :
    Gives received (e.pushChecked p) (e.push p)
      ((e.push p).2.IsBounded ∧ (e.push p).2.stats.packets = e.stats.packets + 1) := by
  have hdiscarded := h.discarded_le
  have hdiscardedPush := e.assembler.discarded_push_le p
  have hunits := h.units_le
  have hunitsPush := sum_one_push_le e.assembler p
  have hfound := h.found_le
  have hfoundPush := sum_payload_push_le e.assembler hp
  have hpayload := hp.payload_lt
  have hcounts := counts_decodeAll { e.stats with packets := e.stats.packets + 1 }
    (e.assembler.push p).1
  rw [packetSize] at hreceived hfound hfoundPush hpayload
  dsimp only at hcounts
  obtain ⟨hpackets, hpesUnits, hdecoded⟩ := hcounts
  rw [pushChecked]
  refine (gives_next (by omega)).bind fun _ => ?_
  refine (Pes.Assembler.gives_pushChecked h.assembler hp (by omega) (by omega)).bind
    fun hfed => ?_
  obtain ⟨hassembler, hunitsFit⟩ := hfed
  refine (gives_decodeAllChecked hunitsFit (by dsimp only; omega) (by dsimp only; omega)).bind
    fun _ => .ok _ ⟨⟨hassembler, ?_, ?_, ?_⟩, hpackets⟩
  all_goals simp only [push, hpackets, hpesUnits, packetSize]
  all_goals omega

/-- Finishing faults nowhere, unless a count is at its end. -/
theorem IsBounded.gives_finishChecked (h : e.IsBounded)
    (hreceived : packetSize * e.stats.packets ≤ received) :
    Gives received e.finishChecked e.finish
      (e.finish.2.IsBounded ∧ e.finish.2.stats.packets = e.stats.packets) := by
  have hdiscarded := h.discarded_le
  have hunits := h.units_le
  have hunitsFlush : (e.assembler.flush.1.map fun _ => 1).sum ≤ _ :=
    Pes.Assembler.sum_flush_le (fun _ => 1) (fun _ => 1) fun _ _ => le_rfl
  have hfound := h.found_le
  have hfoundFlush : (e.assembler.flush.1.map (·.payload.length)).sum ≤ _ :=
    Pes.Assembler.sum_flush_le _ _ Pes.Partial.length_toUnit_le
  obtain ⟨hpackets, hpesUnits, hdecoded⟩ := counts_decodeAll e.stats e.assembler.flush.1
  rw [packetSize] at hreceived hfound
  rw [finishChecked]
  refine (gives_decodeAllChecked h.assembler.flush (by omega) (by omega)).bind
    fun _ => .ok _ ⟨⟨?_, hdiscarded.trans_eq hpackets.symm, ?_, ?_⟩, hpackets⟩
  · intro pid u hu
    change (∅ : Std.ExtTreeMap Nat Pes.Partial)[pid]? = some u at hu
    simp at hu
  · change (decodeAll e.stats e.assembler.flush.1).2.pesUnits + 0 ≤
      (decodeAll e.stats e.assembler.flush.1).2.packets
    omega
  · change (decodeAll e.stats e.assembler.flush.1).2.decoded +
      (decodeAll e.stats e.assembler.flush.1).2.skipped + 0 ≤
        188 * (decodeAll e.stats e.assembler.flush.1).2.packets
    omega

end

end Extractor

end Telemetry

/-! ## Decoders -/

/-- What a session reads its datagrams with. -/
structure Decoder where
  /-- Cuts datagrams into packets. -/
  aligner : Aligner
  /-- Counts what is wrong with packets. -/
  analyzer : Analyzer
  /-- Finds telemetry in packets. -/
  extractor : Telemetry.Extractor

/-- What a decoder may be called for. -/
inductive DecoderCall where
  /-- A datagram is taken. -/
  | datagram (bytes : Bytes)
  /-- What is still being collected is decoded. -/
  | flush
  /-- The reception ends. -/
  | reset

/-- How many bytes a call brings. -/
def DecoderCall.size : DecoderCall → Nat
  | .datagram bytes => bytes.length
  | .flush | .reset => 0

namespace Decoder

/-- The state before the first call. -/
def initial : Decoder := ⟨.initial, .initial, .initial⟩

/-- Read packets one after the other. Those that are none are passed over. -/
def readPackets (d : Decoder) : List Bytes → PacketFindings × Decoder
  | [] => (⟨0, []⟩, d)
  | packet :: packets =>
    match Packet.parse packet with
    | .error _ => d.readPackets packets
    | .ok p =>
      let (gap, analyzer) := d.analyzer.observe p
      let (samples, extractor) := d.extractor.push p
      let (more, d) :=
        { d with analyzer := analyzer, extractor := extractor }.readPackets packets
      (⟨more.gaps + if gap then 1 else 0, samples ++ more.samples⟩, d)

/-- What a call gives, and the decoder after it. -/
def call (d : Decoder) : DecoderCall → Except DatagramFault PacketFindings × Decoder
  | .datagram bytes =>
    match d.aligner.push bytes with
    | (.error fault, aligner) => (.error fault, { d with aligner := aligner })
    | (.ok packets, aligner) =>
      let (found, d) := { d with aligner := aligner }.readPackets packets
      (.ok found, d)
  | .flush =>
    let (samples, extractor) := d.extractor.finish
    (.ok ⟨0, samples⟩, { d with extractor := extractor })
  | .reset => (.ok ⟨0, []⟩, { d with aligner := .initial, analyzer := .initial })

/-- What calls one after the other give, and the decoder after them. -/
def run (d : Decoder) : List DecoderCall → List (Except DatagramFault PacketFindings) × Decoder
  | [] => ([], d)
  | c :: calls =>
    let (answer, d) := d.call c
    let (answers, d) := d.run calls
    (answer :: answers, d)

/-! ### The same, operation by operation -/

/-- Read packets one after the other. -/
def readPacketsChecked (d : Decoder) : List Bytes → Checked (PacketFindings × Decoder)
  | [] => return (⟨0, []⟩, d)
  | packet :: packets => do
    match ← Packet.parseChecked packet with
    | .error _ => d.readPacketsChecked packets
    | .ok p =>
      let (gap, analyzer) ← d.analyzer.observeChecked p
      let (samples, extractor) ← d.extractor.pushChecked p
      let (more, d) ←
        { d with analyzer := analyzer, extractor := extractor }.readPacketsChecked packets
      return (⟨← Analyzer.nextIf gap more.gaps, samples ++ more.samples⟩, d)

/-- What a call gives, and the decoder after it. -/
def callChecked (d : Decoder) :
    DecoderCall → Checked (Except DatagramFault PacketFindings × Decoder)
  | .datagram bytes => do
    match ← d.aligner.pushChecked bytes with
    | (.error fault, aligner) => return (.error fault, { d with aligner := aligner })
    | (.ok packets, aligner) =>
      let (found, d) ← { d with aligner := aligner }.readPacketsChecked packets
      return (.ok found, d)
  | .flush => do
    let (samples, extractor) ← d.extractor.finishChecked
    return (.ok ⟨0, samples⟩, { d with extractor := extractor })
  | .reset => return (.ok ⟨0, []⟩, { d with aligner := .initial, analyzer := .initial })

/-- What calls one after the other give, and the decoder after them. -/
def runChecked (d : Decoder) :
    List DecoderCall → Checked (List (Except DatagramFault PacketFindings) × Decoder)
  | [] => return ([], d)
  | c :: calls => do
    let (answer, d) ← d.callChecked c
    let (answers, d) ← d.runChecked calls
    return (answer :: answers, d)

/-! ### No fault -/

/-- What is known of a decoder that has received some bytes, while some packets are yet to be
read. -/
structure IsBounded (received unread : Nat) (d : Decoder) : Prop where
  /-- Less than a packet is pending. -/
  pending_lt : d.aligner.pending.length < packetSize
  /-- Packets are read once, and what is pending is yet to be read. -/
  packets_le : packetSize * (d.extractor.stats.packets + unread) + d.aligner.pending.length ≤
    received
  /-- The analyzer has counted no more packets than the extractor. -/
  analyzer : d.analyzer.IsBounded d.extractor.stats.packets
  /-- The extractor is within its bounds. -/
  extractor : d.extractor.IsBounded

theorem isBounded_initial : initial.IsBounded 0 0 where
  pending_lt := by decide
  packets_le := le_rfl
  analyzer := Analyzer.isBounded_initial 0
  extractor := Telemetry.Extractor.isBounded_initial

section

variable {d : Decoder} {received total : Nat}

/-- A packet that is none is passed over. -/
theorem IsBounded.skip {unread : Nat} (h : d.IsBounded received (unread + 1)) :
    d.IsBounded received unread where
  pending_lt := h.pending_lt
  packets_le := by
    have hle := h.packets_le
    rw [packetSize] at hle ⊢
    omega
  analyzer := h.analyzer
  extractor := h.extractor

theorem gaps_readPackets_le (d : Decoder) (packets : List Bytes) :
    (d.readPackets packets).1.gaps ≤ packets.length := by
  induction packets generalizing d with
  | nil => exact le_rfl
  | cons packet packets ih =>
    rw [readPackets]
    cases Packet.parse packet with
    | error fault => exact (ih d).trans (Nat.le_succ _)
    | ok p =>
      have hmore := ih
        { d with analyzer := (d.analyzer.observe p).2, extractor := (d.extractor.push p).2 }
      dsimp only
      rw [List.length_cons]
      split <;> omega

/-- Reading packets faults nowhere, unless a buffer or a count is full. -/
theorem IsBounded.gives_readPacketsChecked {packets : List Bytes}
    (h : d.IsBounded received packets.length) (htotal : received ≤ total) :
    Gives total (d.readPacketsChecked packets) (d.readPackets packets)
      ((d.readPackets packets).2.IsBounded received 0) := by
  induction packets generalizing d with
  | nil => exact .ok _ h
  | cons packet packets ih =>
    rw [readPacketsChecked, Packet.parseChecked_eq, ok_bind, readPackets]
    cases hparse : Packet.parse packet with
    | error fault => exact ih h.skip
    | ok p =>
      have hp := Packet.isBounded_of_parse hparse
      have hle := h.packets_le
      rw [List.length_cons, packetSize] at hle
      refine (Analyzer.gives_observeChecked h.analyzer (by omega) p).bind fun _ => ?_
      refine (h.extractor.gives_pushChecked hp (by rw [packetSize]; omega)).bind
        fun hpushed => ?_
      obtain ⟨hextractor, hpackets⟩ := hpushed
      have hnext : IsBounded received packets.length
          { d with analyzer := (d.analyzer.observe p).2, extractor := (d.extractor.push p).2 } := by
        refine ⟨h.pending_lt, ?_, ?_, hextractor⟩
        · dsimp only
          rw [hpackets, packetSize]
          omega
        · dsimp only
          rw [hpackets]
          exact h.analyzer.observe hp
      refine (ih hnext).bind fun hread => ?_
      have hgaps := gaps_readPackets_le
        { d with analyzer := (d.analyzer.observe p).2, extractor := (d.extractor.push p).2 } packets
      exact (Analyzer.gives_nextIf _ (by omega)).bind fun _ => .ok _ hread

/-- A call faults nowhere, unless a buffer or a count is full. -/
theorem IsBounded.gives_callChecked (h : d.IsBounded received 0) (c : DecoderCall)
    (htotal : received + c.size ≤ total) :
    Gives total (d.callChecked c) (d.call c) ((d.call c).2.IsBounded (received + c.size) 0) := by
  have hle := h.packets_le
  cases c with
  | datagram bytes =>
    obtain ⟨hpending, haccepted, hrefused⟩ := Aligner.push_sizes h.pending_lt bytes
    rw [DecoderCall.size] at htotal ⊢
    rw [callChecked, call]
    refine (Aligner.gives_pushChecked h.pending_lt (by omega)).bind fun _ => ?_
    generalize d.aligner.push bytes = pushed at *
    obtain ⟨result, aligner⟩ := pushed
    cases result with
    | error fault =>
      have hfault := hrefused fault rfl
      exact .ok _ ⟨hpending, by dsimp only at *; omega, h.analyzer, h.extractor⟩
    | ok packets =>
      have hpackets := haccepted packets rfl
      have hread : IsBounded (received + bytes.length) packets.length
          { d with aligner := aligner } := by
        refine ⟨hpending, ?_, h.analyzer, h.extractor⟩
        rw [packetSize] at *
        dsimp only at *
        omega
      exact (hread.gives_readPacketsChecked htotal).bind fun hdone => .ok _ hdone
  | flush =>
    rw [callChecked, call]
    rw [Nat.add_zero] at hle
    refine (h.extractor.gives_finishChecked (by omega)).bind fun hfinished => ?_
    obtain ⟨hextractor, hpackets⟩ := hfinished
    refine .ok _ ⟨h.pending_lt, ?_, ?_, hextractor⟩
    · dsimp only
      rwa [hpackets]
    · dsimp only
      rw [hpackets]
      exact h.analyzer
  | reset =>
    have hpackets : packetSize * (d.extractor.stats.packets + 0) + 0 ≤ received := by omega
    exact .ok _ ⟨(by decide : 0 < packetSize), hpackets, Analyzer.isBounded_initial _, h.extractor⟩

/-- No call faults, unless a buffer or a count is full. -/
theorem IsBounded.gives_runChecked (h : d.IsBounded received 0) (calls : List DecoderCall)
    (htotal : received + (calls.map DecoderCall.size).sum ≤ total) :
    Gives total (d.runChecked calls) (d.run calls) True := by
  induction calls generalizing d received with
  | nil => exact .ok _ trivial
  | cons c calls ih =>
    rw [List.map_cons, List.sum_cons] at htotal
    refine (h.gives_callChecked c (by omega)).bind fun hcall => ?_
    exact (ih hcall (by omega)).bind fun _ => .ok _ trivial

end

/-- Whatever a decoder is called for, none of its operations faults and all of its loops end,
unless buffers or counters are full, which takes `capacity` bytes in all. -/
theorem run_faultless (calls : List DecoderCall) :
    initial.runChecked calls = .ok (initial.run calls) ∨
      initial.runChecked calls = .error .full ∧
        capacity ≤ (calls.map DecoderCall.size).sum := by
  have hgives := isBounded_initial.gives_runChecked calls (Nat.zero_add _).le
  exact hgives.imp_left And.left

end Decoder

end StreamCatalog
