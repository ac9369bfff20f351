import StreamCatalog.Proofs.Telemetry.Intake
import StreamCatalog.Session.Basic

/-!
# Sessions whose files are not refused

A step of a session loses a chunk when the file system refuses to open, write
or close its file, and counts it. A step that loses none does what it does
without a file system (`Session.step_cases`).
-/

namespace StreamCatalog

namespace Transport.Analyzer

/-- Count packets one after the other; the answer says how many gaps they show. -/
def observeAll (a : Analyzer) : List Packet → Nat × Analyzer
  | [] => (0, a)
  | p :: ps =>
    let (gap, a) := a.observe p
    let (more, a) := observeAll a ps
    ((if gap then 1 else 0) + more, a)

theorem observeAll_append (a : Analyzer) (ps qs : List Packet) :
    (a.observeAll (ps ++ qs)).2 = ((a.observeAll ps).2.observeAll qs).2 := by
  induction ps generalizing a with
  | nil => rfl
  | cons p ps ih => exact ih (a.observe p).2

end Transport.Analyzer

namespace Session

open Telemetry (Extractor Sample)

/-- How many chunks were lost. -/
def lost (s : Session) : Nat := s.report.counts.chunksLost

/-- The commit of a chunk that is closed. -/
def commitOf (chunk : OpenChunk) (now : Moment) (s : Session) : ChunkCommit :=
  ⟨s.config.commitAction, chunk.complete now, chunk.fileName, chunk.content⟩

/-- The session with its chunk closed and handed over. -/
def closed (now : Moment) (s : Session) : Session :=
  match s.chunk with
  | none => s
  | some chunk => { s with chunk := none, running := s.running ++ [s.commitOf chunk now] }

/-- The session with its chunk closed if that is due. -/
def closedIfDue (now : Moment) (s : Session) : Session :=
  if s.isDue now then s.closed now else s

section closed

variable (now : Moment) (s : Session)

@[simp] theorem config_closed : (s.closed now).config = s.config := by
  rw [closed]
  split <;> rfl

@[simp] theorem aligner_closed : (s.closed now).aligner = s.aligner := by
  rw [closed]
  split <;> rfl

@[simp] theorem extractor_closed : (s.closed now).extractor = s.extractor := by
  rw [closed]
  split <;> rfl

@[simp] theorem analyzer_closed : (s.closed now).analyzer = s.analyzer := by
  rw [closed]
  split <;> rfl

@[simp] theorem sequence_closed : (s.closed now).sequence = s.sequence := by
  rw [closed]
  split <;> rfl

@[simp] theorem report_closed : (s.closed now).report = s.report := by
  rw [closed]
  split <;> rfl

@[simp] theorem chunk_closed : (s.closed now).chunk = none := by
  rw [closed]
  split
  · assumption
  · rfl

theorem running_closed :
    (s.closed now).running = s.running ++ s.chunk.toList.map (s.commitOf · now) := by
  rw [closed]
  cases s.chunk with
  | none => exact (List.append_nil _).symm
  | some chunk => rfl

end closed

/-- The session with an open chunk. -/
def opened (now : Moment) (s : Session) : Session :=
  match s.chunk with
  | some _ => s
  | none =>
    { s with
      sequence := s.sequence + 1
      chunk := some (.start s.config.title (s.sequence + 1) now)
      report := s.report.startChunk }

/-- The session with a datagram and its telemetry written. -/
def written (datagram : Bytes) (samples : List Sample) (now : Moment) (s : Session) : Session :=
  let s := s.opened now
  { s with
    chunk := s.chunk.map fun chunk => (chunk.write datagram now).addSamples samples
    report := s.report.addSamples samples.length }

/-- The session after reading the packets of a datagram. -/
def hasRead (datagram : Bytes) (packets : List Bytes) (aligner : Transport.Aligner) (s : Session) :
    Session :=
  let (gaps, analyzer) := s.analyzer.observeAll (Extractor.readable packets)
  { s with
    aligner := aligner
    analyzer := analyzer
    extractor := (s.extractor.pushAll packets).2
    report := s.report.acceptDatagram datagram.length gaps }

/-- The session after a datagram, when no file is refused. -/
def received (datagram : Bytes) (now : Moment) (s : Session) : Session :=
  match s.aligner.push datagram with
  | (.error _, aligner) => { s with aligner := aligner, report := s.report.dropDatagram }
  | (.ok packets, aligner) =>
    ((s.hasRead datagram packets aligner).written datagram (s.extractor.pushAll packets).1
      now).closedIfDue now

/-- The session after an event, when no file is refused. -/
def after (e : SessionEvent) (now : Moment) (s : Session) : Session :=
  match e with
  | .datagram bytes => s.received bytes now
  | .tick => s.closedIfDue now
  | .rollover => s.closed now
  | .configure config => { s.closed now with config := config }
  | .shutdown => { s.flush.closed now with aligner := .initial, analyzer := .initial }

/-- Opening a chunk changes number, chunk and report only. -/
theorem opened_eq (now : Moment) (s : Session) :
    s.opened now =
      { s with
        sequence := (s.opened now).sequence
        chunk := (s.opened now).chunk
        report := (s.opened now).report } := by
  rw [opened]
  cases s.chunk <;> rfl

/-- Opening a chunk counts the chunk only. -/
theorem counts_opened (now : Moment) (s : Session) :
    (s.opened now).report.counts =
      { s.report.counts with
        chunksStarted := (s.opened now).report.counts.chunksStarted } := by
  rw [opened]
  cases s.chunk <;> rfl

/-- Reading packets does not matter for the chunk that is opened. -/
theorem opened_hasRead (datagram : Bytes) (packets : List Bytes) (aligner : Transport.Aligner)
    (now : Moment) (s : Session) :
    (s.hasRead datagram packets aligner).opened now =
      (s.opened now).hasRead datagram packets aligner := by
  have hchunk : (s.hasRead datagram packets aligner).chunk = s.chunk := rfl
  rw [opened, opened, hchunk]
  cases s.chunk <;> rfl

section written

variable (datagram : Bytes) (packets : List Bytes) (aligner : Transport.Aligner)
  (samples : List Sample) (now : Moment) (s : Session)

theorem chunk_written {chunk : OpenChunk} (h : (s.opened now).chunk = some chunk) :
    ((s.hasRead datagram packets aligner).written datagram samples now).chunk =
      some ((chunk.write datagram now).addSamples samples) := by
  rw [written, opened_hasRead]
  exact congrArg (Option.map _) h

theorem sequence_written :
    ((s.hasRead datagram packets aligner).written datagram samples now).sequence =
      (s.opened now).sequence := by
  rw [written, opened_hasRead]
  rfl

theorem running_written :
    ((s.hasRead datagram packets aligner).written datagram samples now).running = s.running := by
  rw [written, opened_eq]
  rfl

theorem analyzer_written :
    ((s.hasRead datagram packets aligner).written datagram samples now).analyzer =
      (s.analyzer.observeAll (Extractor.readable packets)).2 := by
  rw [written, opened_eq]
  rfl

theorem counts_written :
    ((s.hasRead datagram packets aligner).written datagram samples now).report.counts =
      (((s.opened now).report.acceptDatagram datagram.length
        (s.analyzer.observeAll (Extractor.readable packets)).1).addSamples
          samples.length).counts := by
  rw [written, opened_hasRead, opened_eq]
  rfl

theorem config_written :
    ((s.hasRead datagram packets aligner).written datagram samples now).config = s.config := by
  rw [written, opened_eq]
  rfl

end written

/-- Reading packets changes analyzer and extractor only. -/
theorem readPackets_eq (s : Session) (packets : List Bytes) :
    s.readPackets packets =
      (⟨(s.analyzer.observeAll (Extractor.readable packets)).1, (s.extractor.pushAll packets).1⟩,
        { s with
          analyzer := (s.analyzer.observeAll (Extractor.readable packets)).2
          extractor := (s.extractor.pushAll packets).2 }) := by
  induction packets generalizing s with
  | nil => rfl
  | cons packet packets ih =>
    rw [readPackets, readPacket, Extractor.pushAll_cons, Extractor.pushBytes]
    cases hparse : Transport.Packet.parse packet with
    | error fault =>
      rw [Extractor.readable_cons_error hparse]
      dsimp only
      rw [ih]
      simp only [PacketFindings.append, Nat.zero_add, List.nil_append]
    | ok p =>
      rw [Extractor.readable_cons_ok hparse]
      dsimp only
      rw [ih]
      rfl

/-- Closing the chunk hands it over or loses it. -/
theorem rollover_cases (now : Moment) (s : Session) (d : ChunkDirectory) :
    (s.rollover now d).1 = s.closed now ∨ (s.rollover now d).1.lost = s.lost + 1 := by
  rw [rollover, closed]
  cases hchunk : s.chunk with
  | none => exact .inl rfl
  | some chunk =>
    cases hclosing : d.refusals.closing with
    | some fault =>
      right
      simp only [closeFile, hclosing]
      rfl
    | none =>
      left
      have hrestored := RolloverPhase.step_mark s.report.state
      simp only [closeFile, hclosing, StreamReport.withState, hrestored]
      rfl

theorem tick_cases (now : Moment) (s : Session) (d : ChunkDirectory) :
    (s.tick now d).2.1 = s.closedIfDue now ∨ (s.tick now d).2.1.lost = s.lost + 1 := by
  rw [tick, closedIfDue]
  split
  · exact s.rollover_cases now d
  · exact .inl rfl

/-- Opening a chunk succeeds or is refused. -/
theorem ensureChunk_cases (now : Moment) (s : Session) (d : ChunkDirectory) :
    (∃ fault, s.ensureChunk now d = .error fault) ∨
      ∃ chunk d', (s.opened now).chunk = some chunk ∧
        s.ensureChunk now d = .ok (chunk, s.opened now, d') := by
  rw [ensureChunk, opened]
  cases hchunk : s.chunk with
  | some chunk => exact .inr ⟨chunk, d, hchunk, rfl⟩
  | none =>
    dsimp only
    cases hcreate : d.create (OpenChunk.start s.config.title (s.sequence + 1) now).fileName with
    | error fault => exact .inl ⟨fault, rfl⟩
    | ok d' => exact .inr ⟨_, d', rfl, rfl⟩

theorem lost_opened (now : Moment) (s : Session) : (s.opened now).lost = s.lost := by
  rw [opened]
  split <;> rfl

theorem lost_written (datagram : Bytes) (samples : List Sample) (now : Moment) (s : Session) :
    (s.written datagram samples now).lost = s.lost :=
  s.lost_opened now

/-- A datagram is written to an open chunk, or a chunk is lost. The condition is looked at after
that. -/
theorem write_eq_tick (datagram : Bytes) (samples : List Sample) (now : Moment) (s : Session)
    (d : ChunkDirectory) :
    (∃ d', s.write datagram samples now d = (s.written datagram samples now).tick now d') ∨
      (s.write datagram samples now d).2.1.lost = s.lost + 1 := by
  rw [write]
  rcases s.ensureChunk_cases now d with ⟨fault, hopen⟩ | ⟨chunk, d', hchunk, hopen⟩
  · right
    rw [hopen]
    rfl
  · rw [hopen]
    dsimp only
    cases hwriting : d'.refusals.writing with
    | some fault =>
      right
      exact congrArg (· + 1) (s.lost_opened now)
    | none =>
      left
      have hwritten : s.written datagram samples now =
          { s.opened now with
            chunk := some ((chunk.write datagram now).addSamples samples)
            report := (s.opened now).report.addSamples samples.length } := by
        simp only [written, hchunk, Option.map_some]
      rw [hwritten]
      exact ⟨d', rfl⟩

/-- Writing a datagram writes it to an open chunk or loses the chunk. -/
theorem write_cases (datagram : Bytes) (samples : List Sample) (now : Moment) (s : Session)
    (d : ChunkDirectory) :
    (s.write datagram samples now d).2.1 = (s.written datagram samples now).closedIfDue now ∨
      (s.write datagram samples now d).2.1.lost = s.lost + 1 := by
  rcases s.write_eq_tick datagram samples now d with ⟨d', hwrite⟩ | hlost
  · rw [hwrite, ← s.lost_written datagram samples now]
    exact tick_cases now _ d'
  · exact .inr hlost

/-- A datagram that is accepted is read and written. -/
theorem receive_eq_write {s : Session} {datagram : Bytes} {packets : List Bytes}
    {aligner : Transport.Aligner} (h : s.aligner.push datagram = (.ok packets, aligner))
    (now : Moment) (d : ChunkDirectory) :
    s.receive datagram now d =
      (s.hasRead datagram packets aligner).write datagram (s.extractor.pushAll packets).1 now d := by
  rw [receive, h]
  dsimp only
  rw [readPackets_eq]
  rfl

theorem receive_cases (datagram : Bytes) (now : Moment) (s : Session) (d : ChunkDirectory) :
    (s.receive datagram now d).2.1 = s.received datagram now ∨
      (s.receive datagram now d).2.1.lost = s.lost + 1 := by
  rcases hpush : s.aligner.push datagram with ⟨fault | packets, aligner⟩
  · left
    rw [receive, received, hpush]
  · rw [receive_eq_write hpush, received, hpush]
    exact write_cases datagram _ now (s.hasRead datagram packets aligner) d

theorem lost_flush (s : Session) : s.flush.lost = s.lost := by
  rw [flush]
  split <;> rfl

/-- A step does what it does without a file system, or loses a chunk. -/
theorem step_cases (e : SessionEvent) (now : Moment) (s : Session) (d : ChunkDirectory) :
    (s.step e now d).2.1 = s.after e now ∨ (s.step e now d).2.1.lost = s.lost + 1 := by
  cases e with
  | datagram bytes => exact s.receive_cases bytes now d
  | tick => exact s.tick_cases now d
  | rollover => exact s.rollover_cases now d
  | configure config =>
    rcases s.rollover_cases now d with h | h
    · exact .inl (congrArg (fun s : Session => { s with config := config }) h)
    · exact .inr h
  | shutdown =>
    rcases s.flush.rollover_cases now d with h | h
    · exact .inl (congrArg
        (fun s : Session => { s with aligner := .initial, analyzer := .initial }) h)
    · exact .inr (h.trans (congrArg (· + 1) s.lost_flush))

end Session

end StreamCatalog
