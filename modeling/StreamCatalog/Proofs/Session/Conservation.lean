import Mathlib.Data.List.Forall2
import StreamCatalog.Proofs.Session.Faultless
import StreamCatalog.Session.Commits

/-!
# Nothing is lost between datagrams and chunks

Events come at arbitrary moments, commits end whenever they like, and the
directory of chunk files is whatever it is at each event. As long as no file is
refused, the chunks that are handed over, and the open one, hold exactly the
accepted datagrams and their telemetry (`SessionRun.Accounted`).
-/

namespace StreamCatalog

open Telemetry (Extractor Sample)

/-- What happens to a session and its commits. -/
inductive SessionInput where
  /-- An event, at a moment and with the directory as it is then. -/
  | event (e : SessionEvent) (now : Moment) (directory : ChunkDirectory)
  /-- A commit ends. -/
  | ended (i : Nat) (result : Except CommitError Record) (directory : ChunkDirectory)
  /-- The results of commits are counted. -/
  | counted

/-- A chunk that was handed over, and the configuration under which it was closed. -/
structure Handover where
  /-- The configuration of the session when the chunk was closed. -/
  config : StreamConfig
  /-- The commit that was begun. -/
  commit : ChunkCommit

/-- A session with all chunks that it has handed over. -/
structure SessionRun where
  /-- The session. -/
  session : Session
  /-- The chunks, in the order in which they were handed over. -/
  handed : List Handover

namespace SessionRun

/-- A session that has received nothing. -/
def start (config : StreamConfig) (report : StreamReport) : SessionRun :=
  ⟨.start config report, []⟩

/-- The run after one more input. What a step appends to the running commits is handed over. -/
def step (r : SessionRun) : SessionInput → SessionRun
  | .event e now directory =>
    let session := (r.session.step e now directory).2.1
    let begun := session.running.drop r.session.running.length
    ⟨session, r.handed ++ begun.map fun commit => ⟨r.session.config, commit⟩⟩
  | .ended i result directory => { r with session := (r.session.endCommit i result directory).1 }
  | .counted => { r with session := r.session.countEnded }

/-- The run after several more inputs. -/
def stepAll (r : SessionRun) (is : List SessionInput) : SessionRun :=
  is.foldl step r

/-- Whether an input is part of the reception, and no file is refused in it: a file that is refused
counts as a lost chunk. -/
def Admits (r : SessionRun) : SessionInput → Prop
  | .event e now directory =>
    e ≠ .shutdown ∧ (r.session.step e now directory).2.1.lost = r.session.lost
  | .ended _ _ _ | .counted => True

/-- Whether all inputs are part of the reception, and no file is refused in them. -/
def AdmitsAll (r : SessionRun) : List SessionInput → Prop
  | [] => True
  | i :: is => r.Admits i ∧ (r.step i).AdmitsAll is

end SessionRun

/-! ## What is accepted -/

/-- A datagram that is accepted. -/
structure Accepted where
  /-- The configuration at that time. -/
  config : StreamConfig
  /-- The datagram. -/
  datagram : Bytes
  /-- The packets that it completes. -/
  packets : List Bytes
  /-- The samples that it completes. -/
  samples : List Sample

/-- What decides which datagrams are accepted and what is found in them. Neither chunks nor files nor
commits play a part. -/
structure Listener where
  /-- The configuration. -/
  config : StreamConfig
  /-- Cuts datagrams into packets. -/
  aligner : Transport.Aligner
  /-- Finds samples in packets. -/
  extractor : Extractor

namespace Listener

/-- What an input accepts, and the listener after it. -/
def step (l : Listener) : SessionInput → List Accepted × Listener
  | .event (.datagram bytes) _ _ =>
    match l.aligner.push bytes with
    | (.error _, aligner) => ([], { l with aligner := aligner })
    | (.ok packets, aligner) =>
      let (samples, extractor) := l.extractor.pushAll packets
      ([⟨l.config, bytes, packets, samples⟩],
        { l with aligner := aligner, extractor := extractor })
  | .event (.configure config) _ _ => ([], { l with config := config })
  | _ => ([], l)

/-- What several inputs accept. -/
def accepted (l : Listener) : List SessionInput → List Accepted
  | [] => []
  | i :: is => (l.step i).1 ++ (l.step i).2.accepted is

end Listener

/-- What listens in a session. -/
def Session.listener (s : Session) : Listener := ⟨s.config, s.aligner, s.extractor⟩

namespace Session

theorem listener_closed (now : Moment) (s : Session) : (s.closed now).listener = s.listener := by
  rw [listener, config_closed, aligner_closed, extractor_closed]
  rfl

theorem listener_closedIfDue (now : Moment) (s : Session) :
    (s.closedIfDue now).listener = s.listener := by
  rw [closedIfDue]
  split
  · exact s.listener_closed now
  · rfl

theorem listener_written (datagram : Bytes) (packets : List Bytes) (aligner : Transport.Aligner)
    (samples : List Sample) (now : Moment) (s : Session) :
    ((s.hasRead datagram packets aligner).written datagram samples now).listener =
      ⟨s.config, aligner, (s.extractor.pushAll packets).2⟩ := by
  rw [listener, written, opened_eq]
  rfl

end Session

/-- Whether an open chunk holds some datagrams that were accepted under a configuration. -/
structure OpenChunk.Holds (group : List Accepted) (config : StreamConfig) (chunk : OpenChunk) :
    Prop where
  /-- The datagrams are its content. -/
  content_eq : chunk.content = group.flatMap (·.datagram)
  /-- The length is that of the content. -/
  byteLength_eq : chunk.byteLength = chunk.content.length
  /-- The telemetry is that of the datagrams. -/
  samples_eq : chunk.samples = group.flatMap (·.samples)
  /-- All datagrams were accepted under the configuration. -/
  config_eq : ∀ a ∈ group, a.config = config
  /-- The file has the title of the configuration. -/
  fileName_eq : chunk.fileName = Chunk.fileName config.title chunk.sequence chunk.opened.wall

theorem OpenChunk.Holds.start (config : StreamConfig) (sequence : Nat) (now : Moment) :
    (OpenChunk.start config.title sequence now).Holds [] config where
  content_eq := rfl
  byteLength_eq := rfl
  samples_eq := rfl
  config_eq := nofun
  fileName_eq := rfl

/-- A chunk to which a datagram is written holds one more. -/
theorem OpenChunk.Holds.write {group : List Accepted} {a : Accepted} {chunk : OpenChunk}
    (h : chunk.Holds group a.config) (now : Moment) :
    ((chunk.write a.datagram now).addSamples a.samples).Holds (group ++ [a]) a.config where
  content_eq := by
    rw [List.flatMap_append, List.flatMap_singleton, ← h.content_eq]
    exact content_write chunk a.datagram now
  byteLength_eq := by
    change chunk.byteLength + a.datagram.length = (chunk.write a.datagram now).content.length
    rw [content_write, List.length_append, h.byteLength_eq]
  samples_eq := by
    rw [List.flatMap_append, List.flatMap_singleton, ← h.samples_eq]
    rfl
  config_eq b hb := by
    rcases List.mem_append.1 hb with hb | hb
    · exact h.config_eq b hb
    · rw [List.mem_singleton.1 hb]
  fileName_eq := h.fileName_eq

/-- Whether a chunk that was handed over holds some datagrams, and was opened, closed and committed
under the configuration under which they were accepted. -/
structure Handover.Holds (group : List Accepted) (h : Handover) : Prop where
  /-- There is something in the chunk. -/
  content_ne_nil : h.commit.content ≠ []
  /-- The datagrams are its content. -/
  content_eq : h.commit.content = group.flatMap (·.datagram)
  /-- The length is that of the content. -/
  byteLength_eq : h.commit.chunk.byteLength = h.commit.content.length
  /-- The telemetry is that of the datagrams. -/
  samples_eq : h.commit.chunk.samples = group.flatMap (·.samples)
  /-- All datagrams were accepted under the configuration. -/
  config_eq : ∀ a ∈ group, a.config = h.config
  /-- The file has the title of the configuration. -/
  fileName_eq : h.commit.fileName =
    Chunk.fileName h.config.title h.commit.chunk.sequence h.commit.chunk.startedAt
  /-- The chunk is committed as the configuration says. -/
  action_eq : h.commit.action = h.config.commitAction

/-- What an open chunk holds is what is handed over when it is closed. -/
theorem OpenChunk.Holds.handover {group : List Accepted} {chunk : OpenChunk} {s : Session}
    (h : chunk.Holds group s.config) (hne : chunk.content ≠ []) (now : Moment) :
    Handover.Holds group ⟨s.config, s.commitOf chunk now⟩ where
  content_ne_nil := hne
  content_eq := h.content_eq
  byteLength_eq := h.byteLength_eq
  samples_eq := h.samples_eq
  config_eq := h.config_eq
  fileName_eq := h.fileName_eq
  action_eq := rfl

namespace SessionRun

/-- What the chunks of a run have to do with the datagrams that were accepted. -/
structure Accounted (start : StreamCounts) (log : List Accepted) (r : SessionRun) : Prop where
  /-- The datagrams go into the chunks in their order. -/
  groups : ∃ (groups : List (List Accepted)) (rest : List Accepted),
    log = groups.flatten ++ rest ∧ List.Forall₂ Handover.Holds groups r.handed ∧
      (r.session.chunk = none → rest = []) ∧
      ∀ chunk, r.session.chunk = some chunk → chunk.Holds rest r.session.config
  /-- The chunks are numbered from one. -/
  numbers : r.handed.map (·.commit.chunk.sequence) = List.range' 1 r.handed.length
  /-- The open chunk, if there is one, is the next. -/
  sequence_eq : r.session.sequence = r.handed.length + r.session.chunk.toList.length
  /-- There is something in the open chunk. -/
  content_ne_nil : ∀ chunk, r.session.chunk = some chunk → chunk.content ≠ []
  /-- The open chunk has the last number. -/
  chunk_sequence : ∀ chunk, r.session.chunk = some chunk → chunk.sequence = r.session.sequence
  /-- The samples are those of all packets of accepted datagrams. -/
  samples_eq : log.flatMap (·.samples) = (Extractor.initial.pushAll (log.flatMap (·.packets))).1
  /-- The extractor has read the packets of accepted datagrams, and no others. -/
  extractor_eq :
    r.session.extractor = (Extractor.initial.pushAll (log.flatMap (·.packets))).2
  /-- The packets of accepted datagrams are counted, and no others. -/
  analyzer_eq : r.session.analyzer =
    (Transport.Analyzer.initial.observeAll (Extractor.readable (log.flatMap (·.packets)))).2
  /-- Accepted datagrams are counted. -/
  datagrams_eq : r.session.report.counts.datagrams = start.datagrams + log.length
  /-- Their bytes are counted. -/
  bytes_eq : r.session.report.counts.bytesReceived =
    start.bytesReceived + (log.flatMap (·.datagram)).length
  /-- Their samples are counted. -/
  sampleCount_eq : r.session.report.counts.samples =
    start.samples + (log.flatMap (·.samples)).length

namespace Accounted

variable {start : StreamCounts} {log : List Accepted} {s : Session} {handed : List Handover}

/-- What the chunks hold does not depend on the rest of the session. -/
theorem of_eq (h : Accounted start log ⟨s, handed⟩) {t : Session} (hchunk : t.chunk = s.chunk)
    (hconfig : s.chunk ≠ none → t.config = s.config) (hsequence : t.sequence = s.sequence)
    (hextractor : t.extractor = s.extractor) (hanalyzer : t.analyzer = s.analyzer)
    (hdatagrams : t.report.counts.datagrams = s.report.counts.datagrams)
    (hbytes : t.report.counts.bytesReceived = s.report.counts.bytesReceived)
    (hsamples : t.report.counts.samples = s.report.counts.samples) :
    Accounted start log ⟨t, handed⟩ := by
  obtain ⟨groups, rest, hlog, hgroups, hnone, hsome⟩ := h.groups
  constructor
  case groups =>
    refine ⟨groups, rest, hlog, hgroups, fun ht => hnone (hchunk ▸ ht), fun chunk ht => ?_⟩
    have hs : s.chunk = some chunk := hchunk ▸ ht
    rw [hconfig (by rw [hs]; exact Option.some_ne_none _)]
    exact hsome chunk hs
  case numbers => exact h.numbers
  case sequence_eq =>
    rw [hsequence, hchunk]
    exact h.sequence_eq
  case content_ne_nil => exact fun chunk ht => h.content_ne_nil chunk (hchunk ▸ ht)
  case chunk_sequence =>
    intro chunk ht
    rw [hsequence]
    exact h.chunk_sequence chunk (hchunk ▸ ht)
  case samples_eq => exact h.samples_eq
  case extractor_eq => exact hextractor.trans h.extractor_eq
  case analyzer_eq => exact hanalyzer.trans h.analyzer_eq
  case datagrams_eq => exact hdatagrams.trans h.datagrams_eq
  case bytes_eq => exact hbytes.trans h.bytes_eq
  case sampleCount_eq => exact hsamples.trans h.sampleCount_eq

/-- Closing the chunk hands over what it holds. -/
theorem closed (h : Accounted start log ⟨s, handed⟩) (now : Moment) :
    Accounted start log ⟨s.closed now,
      handed ++ s.chunk.toList.map fun chunk => ⟨s.config, s.commitOf chunk now⟩⟩ := by
  obtain ⟨groups, rest, hlog, hgroups, hnone, hsome⟩ := h.groups
  have hsequence : s.sequence = handed.length + s.chunk.toList.length := h.sequence_eq
  cases hchunk : s.chunk with
  | none =>
    rw [Option.toList_none, List.map_nil, List.append_nil]
    exact h.of_eq (by simp [hchunk]) (by simp) (by simp) (by simp) (by simp) (by simp) (by simp)
      (by simp)
  | some chunk =>
    have hholds := hsome chunk hchunk
    have hnumber : chunk.sequence = s.sequence := h.chunk_sequence chunk hchunk
    rw [hchunk, Option.toList_some, List.length_singleton] at hsequence
    constructor
    case groups =>
      refine ⟨groups ++ [rest], [], ?_, ?_, fun _ => rfl, fun chunk hc => ?_⟩
      · rw [hlog, List.flatten_append, List.flatten_singleton, List.append_nil]
      · exact List.rel_append hgroups
          (.cons (hholds.handover (h.content_ne_nil chunk hchunk) now) .nil)
      · rw [Session.chunk_closed] at hc
        cases hc
    case numbers =>
      have hlast : chunk.sequence = 1 + handed.length := by omega
      rw [List.map_append, h.numbers, List.length_append, Option.toList_some, List.map_singleton,
        List.map_singleton, List.length_singleton, List.range'_1_concat, ← hlast]
      rfl
    case sequence_eq =>
      rw [Session.sequence_closed, Session.chunk_closed, hsequence, List.length_append,
        Option.toList_some, List.map_singleton, List.length_singleton]
      rfl
    case content_ne_nil | chunk_sequence =>
      intro chunk hc
      rw [Session.chunk_closed] at hc
      cases hc
    case samples_eq => exact h.samples_eq
    case extractor_eq => simpa using h.extractor_eq
    case analyzer_eq => simpa using h.analyzer_eq
    case datagrams_eq => simpa using h.datagrams_eq
    case bytes_eq => simpa using h.bytes_eq
    case sampleCount_eq => simpa using h.sampleCount_eq

/-- There is an open chunk to write to, for the datagrams since the last one was closed. -/
theorem opened (h : Accounted start log ⟨s, handed⟩) (now : Moment) :
    ∃ (groups : List (List Accepted)) (rest : List Accepted) (chunk : OpenChunk),
      log = groups.flatten ++ rest ∧ List.Forall₂ Handover.Holds groups handed ∧
        (s.opened now).chunk = some chunk ∧ chunk.Holds rest s.config ∧
        chunk.sequence = (s.opened now).sequence ∧
        (s.opened now).sequence = handed.length + 1 := by
  obtain ⟨groups, rest, hlog, hgroups, hnone, hsome⟩ := h.groups
  have hsequence : s.sequence = handed.length + s.chunk.toList.length := h.sequence_eq
  rw [Session.opened]
  cases hchunk : s.chunk with
  | none =>
    obtain rfl := hnone hchunk
    rw [hchunk] at hsequence
    exact ⟨groups, [], _, hlog, hgroups, rfl, .start _ _ _, rfl, congrArg (· + 1) hsequence⟩
  | some chunk =>
    rw [hchunk] at hsequence
    exact ⟨groups, rest, chunk, hlog, hgroups, hchunk, hsome chunk hchunk,
      h.chunk_sequence chunk hchunk, hsequence⟩

/-- A datagram that is accepted goes into the open chunk. -/
theorem written (h : Accounted start log ⟨s, handed⟩) {datagram : Bytes} (hne : datagram ≠ [])
    (packets : List Bytes) (aligner : Transport.Aligner) (now : Moment) :
    Accounted start
      (log ++ [⟨s.config, datagram, packets, (s.extractor.pushAll packets).1⟩])
      ⟨(s.hasRead datagram packets aligner).written datagram (s.extractor.pushAll packets).1 now,
        handed⟩ := by
  let a : Accepted := ⟨s.config, datagram, packets, (s.extractor.pushAll packets).1⟩
  obtain ⟨groups, rest, chunk, hlog, hgroups, hchunk, hholds, hnumber, hsequence⟩ := h.opened now
  have hwritten := s.chunk_written datagram packets aligner a.samples now hchunk
  have hcounts := s.counts_written datagram packets aligner a.samples now
  have hpackets : (log ++ [a]).flatMap (·.packets) = log.flatMap (·.packets) ++ packets := by
    rw [List.flatMap_append, List.flatMap_singleton]
  have hextractor : s.extractor = (Extractor.initial.pushAll (log.flatMap (·.packets))).2 :=
    h.extractor_eq
  constructor
  case groups =>
    refine ⟨groups, rest ++ [a], ?_, hgroups, fun hc => ?_, fun c hc => ?_⟩
    · rw [hlog, List.append_assoc]
    · cases hwritten.symm.trans hc
    · obtain rfl := Option.some.inj (hwritten.symm.trans hc)
      rw [Session.config_written]
      exact hholds.write (a := a) now
  case numbers => exact h.numbers
  case sequence_eq =>
    rw [Session.sequence_written, hwritten]
    exact hsequence
  case content_ne_nil =>
    intro c hc
    obtain rfl := Option.some.inj (hwritten.symm.trans hc)
    change (chunk.write datagram now).content ≠ []
    rw [OpenChunk.content_write]
    exact List.append_ne_nil_of_right_ne_nil _ hne
  case chunk_sequence =>
    intro c hc
    obtain rfl := Option.some.inj (hwritten.symm.trans hc)
    rw [Session.sequence_written]
    exact hnumber
  case samples_eq =>
    rw [hpackets, Extractor.pushAll_append, ← hextractor, ← h.samples_eq, List.flatMap_append,
      List.flatMap_singleton]
  case extractor_eq =>
    rw [hpackets, Extractor.pushAll_append, ← hextractor]
    exact congrArg Listener.extractor (s.listener_written datagram packets aligner a.samples now)
  case analyzer_eq =>
    have hanalyzer : s.analyzer = (Transport.Analyzer.initial.observeAll
      (Extractor.readable (log.flatMap (·.packets)))).2 := h.analyzer_eq
    rw [hpackets, Extractor.readable, List.filterMap_append, ← Extractor.readable,
      ← Extractor.readable, Transport.Analyzer.observeAll_append, ← hanalyzer]
    exact s.analyzer_written datagram packets aligner a.samples now
  case datagrams_eq =>
    have hcount : s.report.counts.datagrams = start.datagrams + log.length := h.datagrams_eq
    rw [hcounts, List.length_append, ← Nat.add_assoc, ← hcount]
    exact congrArg (·.datagrams + 1) (s.counts_opened now)
  case bytes_eq =>
    have hcount : s.report.counts.bytesReceived =
      start.bytesReceived + (log.flatMap (·.datagram)).length := h.bytes_eq
    rw [hcounts, List.flatMap_append, List.flatMap_singleton, List.length_append,
      ← Nat.add_assoc, ← hcount]
    exact congrArg (·.bytesReceived + datagram.length) (s.counts_opened now)
  case sampleCount_eq =>
    have hcount : s.report.counts.samples =
      start.samples + (log.flatMap (·.samples)).length := h.sampleCount_eq
    rw [hcounts, List.flatMap_append, List.flatMap_singleton, List.length_append,
      ← Nat.add_assoc, ← hcount]
    exact congrArg (·.samples + a.samples.length) (s.counts_opened now)

end Accounted

/-- Before the first input. -/
theorem Accounted.initial (config : StreamConfig) (report : StreamReport) :
    Accounted report.counts [] (start config report) where
  groups := ⟨[], [], rfl, .nil, fun _ => rfl, nofun⟩
  numbers := rfl
  sequence_eq := rfl
  content_ne_nil := nofun
  chunk_sequence := nofun
  samples_eq := rfl
  extractor_eq := rfl
  analyzer_eq := rfl
  datagrams_eq := rfl
  bytes_eq := rfl
  sampleCount_eq := rfl

/-- The run after an event whose files are not refused. -/
theorem step_event_eq {r : SessionRun} {e : SessionEvent} {now : Moment}
    {d : ChunkDirectory} (h : r.Admits (.event e now d)) :
    r.step (.event e now d) =
      ⟨r.session.after e now, r.handed ++
        ((r.session.after e now).running.drop r.session.running.length).map fun commit =>
          ⟨r.session.config, commit⟩⟩ := by
  have hstep : (r.session.step e now d).2.1 = r.session.after e now := by
    rcases r.session.step_cases e now d with hafter | hlost
    · exact hafter
    · cases Nat.succ_ne_self _ (hlost.symm.trans h.2)
  rw [step, hstep]

/-- What a run hands over when a chunk is closed. -/
theorem handed_closed (s : Session) (now : Moment) (config : StreamConfig) :
    ((s.closed now).running.drop s.running.length).map (Handover.mk config) =
      s.chunk.toList.map fun chunk => ⟨config, s.commitOf chunk now⟩ := by
  rw [Session.running_closed, List.drop_left, List.map_map]
  rfl

/-- A chunk that is closed if that is due is handed over then. -/
private theorem Accounted.closedIfDue {start : StreamCounts} {log : List Accepted} {s : Session}
    {handed : List Handover} (h : Accounted start log ⟨s, handed⟩) (now : Moment) :
    Accounted start log ⟨s.closedIfDue now,
      handed ++ ((s.closedIfDue now).running.drop s.running.length).map (Handover.mk s.config)⟩ := by
  rw [Session.closedIfDue]
  split
  · rw [handed_closed]
    exact h.closed now
  · rw [List.drop_length, List.map_nil, List.append_nil]
    exact h

/-- Every input keeps the chunks accounted for. -/
theorem Accounted.step {start : StreamCounts} {log : List Accepted} {r : SessionRun}
    (h : Accounted start log r) {i : SessionInput} (hi : r.Admits i) :
    Accounted start (log ++ (r.session.listener.step i).1) (r.step i) ∧
      (r.step i).session.listener = (r.session.listener.step i).2 := by
  obtain ⟨s, handed⟩ := r
  cases i with
  | ended i result d =>
    simp only [Listener.step, List.append_nil, SessionRun.step]
    rw [Session.endCommit]
    split
    · exact ⟨h, rfl⟩
    · exact ⟨h.of_eq rfl (fun _ => rfl) rfl rfl rfl rfl rfl rfl, rfl⟩
  | counted =>
    simp only [Listener.step, List.append_nil]
    obtain ⟨committed, lost, -, hcounts⟩ :=
      StreamReport.exists_counts_foldl_countResult s.ended s.report
    exact ⟨h.of_eq rfl (fun _ => rfl) rfl rfl rfl (congrArg (·.datagrams) hcounts)
      (congrArg (·.bytesReceived) hcounts) (congrArg (·.samples) hcounts), rfl⟩
  | event e now d =>
    rw [step_event_eq hi]
    cases e with
    | shutdown => exact absurd rfl hi.1
    | tick =>
      simp only [Listener.step, List.append_nil]
      exact ⟨h.closedIfDue now, s.listener_closedIfDue now⟩
    | rollover =>
      simp only [Listener.step, List.append_nil]
      refine ⟨?_, s.listener_closed now⟩
      rw [Session.after, handed_closed]
      exact h.closed now
    | configure config =>
      simp only [Listener.step, List.append_nil]
      constructor
      · rw [Session.after, handed_closed]
        refine (h.closed now).of_eq rfl (fun hchunk => ?_) rfl rfl rfl rfl rfl rfl
        exact absurd (s.chunk_closed now) hchunk
      · exact congrArg (fun l : Listener => { l with config := config })
          (s.listener_closed now)
    | datagram bytes =>
      simp only [Session.after, Session.received, Listener.step, Session.listener]
      cases hpush : s.aligner.push bytes with
      | mk result aligner =>
        cases result with
        | error fault =>
          dsimp only
          rw [List.append_nil, List.drop_length, List.map_nil, List.append_nil]
          exact ⟨h.of_eq rfl (fun _ => rfl) rfl rfl rfl rfl rfl rfl, rfl⟩
        | ok packets =>
          have hne : bytes ≠ [] := by
            rintro rfl
            cases hpush
          dsimp only
          have hwritten := (h.written hne packets aligner now).closedIfDue now
          rw [Session.running_written, Session.config_written] at hwritten
          refine ⟨hwritten, ?_⟩
          exact (Session.listener_closedIfDue now _).trans
            (s.listener_written bytes packets aligner _ now)

/-- Any number of inputs keep the chunks accounted for. -/
theorem Accounted.stepAll {start : StreamCounts} {log : List Accepted} {r : SessionRun}
    (h : Accounted start log r) {is : List SessionInput} (his : r.AdmitsAll is) :
    Accounted start (log ++ r.session.listener.accepted is) (r.stepAll is) := by
  induction is generalizing log r with
  | nil =>
    rw [Listener.accepted, List.append_nil]
    exact h
  | cons i is ih =>
    obtain ⟨hstep, hlistener⟩ := h.step his.1
    rw [Listener.accepted, ← hlistener, ← List.append_assoc]
    exact ih hstep his.2

/-- If groups of datagrams and the chunks that hold them agree on a part, so do all datagrams and all
chunks. -/
theorem Accounted.flatMap_eq {start : StreamCounts} {log : List Accepted} {r : SessionRun}
    (h : Accounted start log r) {α : Type} (part : Accepted → List α)
    (closedPart : Handover → List α) (openPart : OpenChunk → List α)
    (hclosed : ∀ group handover, Handover.Holds group handover →
      closedPart handover = group.flatMap part)
    (hopen : ∀ group config chunk, OpenChunk.Holds group config chunk →
      openPart chunk = group.flatMap part) :
    r.handed.flatMap closedPart ++ r.session.chunk.toList.flatMap openPart = log.flatMap part := by
  obtain ⟨groups, rest, hlog, hgroups, hnone, hsome⟩ := h.groups
  have hhanded : r.handed.flatMap closedPart = groups.flatten.flatMap part := by
    have hparts : List.Forall₂ Eq (groups.flatMap (·.flatMap part)) (r.handed.flatMap closedPart) :=
      List.rel_flatMap hgroups fun group handover hholds =>
        List.forall₂_eq_eq_eq ▸ (hclosed group handover hholds).symm
    rw [List.forall₂_eq_eq_eq] at hparts
    rw [← hparts, ← List.flatMap_id', List.flatMap_assoc]
  have hrest : r.session.chunk.toList.flatMap openPart = rest.flatMap part := by
    cases hchunk : r.session.chunk with
    | none =>
      rw [hnone hchunk]
      rfl
    | some chunk =>
      rw [Option.toList_some, List.flatMap_singleton]
      exact hopen rest _ chunk (hsome chunk hchunk)
  rw [hlog, List.flatMap_append, hhanded, hrest]

/-- The chunks of a session hold the datagrams that were accepted, each chunk under one
configuration, with their telemetry. -/
theorem accounted (config : StreamConfig) (report : StreamReport) (is : List SessionInput)
    (his : (start config report).AdmitsAll is) :
    let log := (Session.start config report).listener.accepted is
    let r := (start config report).stepAll is
    Accounted report.counts log r ∧
      r.handed.flatMap (·.commit.content) ++ r.session.chunk.toList.flatMap (·.content) =
        log.flatMap (·.datagram) ∧
      r.handed.flatMap (·.commit.chunk.samples) ++ r.session.chunk.toList.flatMap (·.samples) =
        log.flatMap (·.samples) := by
  intro log r
  have h : Accounted report.counts log r := (Accounted.initial config report).stepAll his
  refine ⟨h, ?_, ?_⟩
  · exact h.flatMap_eq (·.datagram) (·.commit.content) (·.content)
      (fun _ _ hholds => hholds.content_eq) fun _ _ _ hholds => hholds.content_eq
  · exact h.flatMap_eq (·.samples) (·.commit.chunk.samples) (·.samples)
      (fun _ _ hholds => hholds.samples_eq) fun _ _ _ hholds => hholds.samples_eq

/-- A stream whose chunks are closed at a number of bytes. -/
def sampleConfig (title : String) (byteCount : Nat) : StreamConfig where
  title := title
  monitoredAddress := "udp://127.0.0.1:5000"
  address := ⟨.v4 ⟨127, 0, 0, 1⟩, 5000⟩
  byteCount := byteCount
  elapsedTime := 1000
  idleTimeout := 1000
  initialDelay := 0
  startImmediately := false
  distanceTolerance := 0
  parentTitle := none

/-- An event in a directory without files. -/
def sampleInput (e : SessionEvent) (nanos : Nat) : SessionInput :=
  .event e ⟨⟨0, 0⟩, nanos⟩ .empty

/-- A chunk is full, and a configuration comes while the next one is open. The empty datagram between
them is refused. -/
private def sampleInputs : List SessionInput :=
  [sampleInput (.datagram [1, 2, 3]) 0, sampleInput (.datagram []) 1,
    sampleInput (.datagram [4, 5]) 2, sampleInput (.datagram [6]) 3, .counted,
    sampleInput (.configure (sampleConfig "new" 9)) 4, sampleInput (.datagram [7]) 5,
    sampleInput .tick 6]

/-- The chunks before and after a configuration hold what was accepted. -/
theorem accounted_across_configurations :
    let r := (start (sampleConfig "old" 4) .initial).stepAll sampleInputs
    r.handed.map (fun h => (h.config.title, h.commit.content)) =
        [("old", [1, 2, 3, 4, 5]), ("old", [6])] ∧
      r.handed.flatMap (·.commit.content) ++ r.session.chunk.toList.flatMap (·.content) =
        ((Session.start (sampleConfig "old" 4) .initial).listener.accepted sampleInputs).flatMap
          (·.datagram) := by
  have hadmits : (start (sampleConfig "old" 4) .initial).AdmitsAll sampleInputs := by
    refine ⟨⟨nofun, ?_⟩, ⟨nofun, ?_⟩, ⟨nofun, ?_⟩, ⟨nofun, ?_⟩, trivial, ⟨nofun, ?_⟩, ⟨nofun, ?_⟩,
      ⟨nofun, ?_⟩, trivial⟩ <;> decide +kernel
  exact ⟨by decide +kernel, (accounted _ _ _ hadmits).2.1⟩

end SessionRun

end StreamCatalog
