import StreamCatalog.Proofs.Chunk.FileNames
import StreamCatalog.Proofs.Monitor.Lifecycle
import StreamCatalog.Proofs.Monitor.Sharing

/-!
# The files that monitors open

All monitors write their chunks to one directory, and a file that is there already is
written anew. The session of a monitor that receives has the configuration of the
monitor (`Monitor.InStep`), so the files that the monitor opens show its title.
Monitors open the same file only if their titles are shown alike, for chunks with
the same number, in the same millisecond (`chunk_files_told_apart`).
-/

namespace StreamCatalog

/-! ## Sessions -/

namespace Session

/-- Whether a session opens a file of a name when it has something to write. -/
structure Opens (s : Session) (now : Moment) (d : ChunkDirectory) (name : String) : Prop where
  /-- No chunk is open. -/
  isClosed : s.chunk = none
  /-- The file of the next chunk can be opened. -/
  exists_chunk : ∃ chunk t d', s.ensureChunk now d = .ok (chunk, t, d') ∧ chunk.fileName = name

/-- A file shows the title under which the session works, the next number and the time. -/
theorem opens_iff {s : Session} {now : Moment} {d : ChunkDirectory} {name : String} :
    s.Opens now d name ↔ s.chunk = none ∧ (d.create name).isOk = true ∧
      name = Chunk.fileName s.config.title (s.sequence + 1) now.wall := by
  have hstart : Chunk.fileName s.config.title (s.sequence + 1) now.wall =
      (OpenChunk.start s.config.title (s.sequence + 1) now).fileName := rfl
  rw [hstart]
  constructor
  · rintro ⟨hclosed, chunk, t, d', hensure, rfl⟩
    rw [ensureChunk, hclosed] at hensure
    dsimp only at hensure
    cases hcreate : d.create (OpenChunk.start s.config.title (s.sequence + 1) now).fileName with
    | error fault =>
      rw [hcreate] at hensure
      cases hensure
    | ok d' =>
      rw [hcreate] at hensure
      cases hensure
      exact ⟨hclosed, by rw [hcreate]; rfl, rfl⟩
  · rintro ⟨hclosed, hok, rfl⟩
    refine ⟨hclosed, ?_⟩
    rw [ensureChunk, hclosed]
    dsimp only
    cases hcreate : d.create (OpenChunk.start s.config.title (s.sequence + 1) now).fileName with
    | error fault =>
      rw [hcreate] at hok
      cases hok
    | ok d' => exact ⟨_, _, _, rfl, rfl⟩

section config

variable (now : Moment) (s : Session) (d : ChunkDirectory)

theorem config_rollover : (s.rollover now d).1.config = s.config := by
  rw [rollover]
  cases s.chunk with
  | none => rfl
  | some chunk =>
    cases hclosing : d.refusals.closing <;> simp only [closeFile, hclosing]

theorem config_tick : (s.tick now d).2.1.config = s.config := by
  rw [tick]
  split
  · exact config_rollover now s d
  · rfl

theorem config_readPackets (packets : List Bytes) :
    (s.readPackets packets).2.config = s.config := by
  rw [readPackets_eq]

theorem config_write (datagram : Bytes) (samples : List Telemetry.Sample) :
    (s.write datagram samples now d).2.1.config = s.config := by
  have hopened : (s.opened now).config = s.config := by rw [opened_eq]
  rw [write]
  rcases s.ensureChunk_cases now d with ⟨fault, hensure⟩ | ⟨chunk, d', -, hensure⟩
  · rw [hensure]
    rfl
  · rw [hensure]
    dsimp only
    cases d'.refusals.writing with
    | some fault => exact hopened
    | none => exact (config_tick now _ d').trans hopened

theorem config_receive (datagram : Bytes) : (s.receive datagram now d).2.1.config = s.config := by
  rw [receive]
  split
  · rfl
  · exact (config_write now _ d datagram _).trans (config_readPackets _ _)

theorem config_endCommit (i : Nat) (result : Except CommitError Record) :
    (s.endCommit i result d).1.config = s.config := by
  rw [endCommit]
  split <;> rfl

theorem config_breakCommit (i : Nat) (message : String) :
    (s.breakCommit i message).config = s.config := by
  rw [breakCommit]
  split <;> rfl

end config

end Session

/-! ## Monitors -/

/-- Whether the session of a monitor that receives has the configuration of the monitor. -/
def Monitor.InStep (m : Monitor) : Prop :=
  m.receiving = true → m.session.config = m.config

theorem Monitor.inStep_of_idle {m : Monitor} (h : m.receiving = false) : m.InStep :=
  fun hreceiving => absurd (h.symm.trans hreceiving) Bool.false_ne_true

namespace MonitorSite

variable {σ : Type} {w : MonitorSite σ}

theorem inStep_start (h : w.monitor.InStep) (E : Environment σ) (bound : List SocketAddress) :
    (w.start E bound).2.monitor.InStep := by
  cases hreceiving : w.monitor.receiving with
  | true => rwa [w.start_of_receiving E bound hreceiving]
  | false =>
    rcases w.start_cases E bound hreceiving with
      ⟨e, directory, -, hstart⟩ | ⟨address, directory, -, hstart⟩
    · rw [hstart]
      exact Monitor.inStep_of_idle hreceiving
    · rw [hstart]
      exact fun _ => rfl

theorem inStep_stop (h : w.monitor.InStep) (E : Environment σ) : (w.stop E).2.monitor.InStep := by
  cases hreceiving : w.monitor.receiving with
  | false => rwa [w.stop_of_idle E hreceiving]
  | true =>
    obtain ⟨-, -, hafter, -⟩ := w.stop_of_receiving E hreceiving
    exact Monitor.inStep_of_idle hafter

/-- What the session does keeps it in step as long as it keeps its configuration. -/
theorem inStep_happen (h : w.monitor.InStep) {e : SessionEvent} {now : Moment}
    (hconfig : (w.monitor.session.step e now w.directory).2.1.config = w.monitor.session.config) :
    (w.happen e now).monitor.InStep := by
  cases hreceiving : w.monitor.receiving with
  | false => rwa [w.happen_of_idle hreceiving]
  | true =>
    rw [w.happen_of_receiving hreceiving]
    exact fun _ => hconfig.trans (h hreceiving)

/-- Properties are changed for the monitor and its session at once. -/
theorem inStep_update (h : w.monitor.InStep) (E : Environment σ) (bound : List SocketAddress)
    (changes : Properties) : (w.update E bound changes).2.monitor.InStep := by
  rcases w.update_cases changes with
    ⟨e, hmerged⟩ | ⟨config, hmerged, ⟨hreceiving, hchanged⟩ | hkept⟩
  · rwa [w.update_of_error E bound hmerged]
  · rw [w.update_of_moved E bound hmerged hreceiving hchanged]
    obtain ⟨-, -, hafter, -⟩ := w.stop_of_receiving E hreceiving
    have hidle : ((w.stop E).2.withConfig config).monitor.InStep := Monitor.inStep_of_idle hafter
    exact inStep_start hidle E bound
  · rw [w.update_of_kept E bound hmerged hkept]
    cases hreceiving : (w.withConfig config).monitor.receiving with
    | false =>
      rw [happen_of_idle _ hreceiving]
      exact Monitor.inStep_of_idle hreceiving
    | true =>
      rw [happen_of_receiving _ hreceiving]
      exact fun _ => rfl

/-- Whatever is done with a monitor keeps its session in step. -/
theorem inStep_after (h : w.monitor.InStep) (i : MonitorInput σ) : (w.after i).monitor.InStep := by
  cases i with
  | start E bound => exact inStep_start h E bound
  | stop E => exact inStep_stop h E
  | update E bound changes => exact inStep_update h E bound changes
  | datagram bytes now =>
    exact inStep_happen h (w.monitor.session.config_receive now w.directory bytes)
  | tick now => exact inStep_happen h (w.monitor.session.config_tick now w.directory)
  | ended i result parent catalog =>
    exact fun hreceiving =>
      (w.monitor.session.config_endCommit w.directory i result).trans (h hreceiving)
  | broken i message =>
    exact fun hreceiving => (w.monitor.session.config_breakCommit i message).trans (h hreceiving)
  | counted => exact h
  | directory d => exact h

/-- The monitor of a configuration after all that was done with it. -/
def IsReached (w : MonitorSite σ) : Prop :=
  ∃ config directory catalog, ∃ is : List (MonitorInput σ),
    w = is.foldl after ⟨.new config, directory, catalog⟩

theorem IsReached.inStep (h : w.IsReached) : w.monitor.InStep := by
  obtain ⟨config, directory, catalog, is, rfl⟩ := h
  have hrun (w : MonitorSite σ) (hw : w.monitor.InStep) : (is.foldl after w).monitor.InStep := by
    induction is generalizing w with
    | nil => exact hw
    | cons i is ih => exact ih (w.after i) (inStep_after hw i)
  exact hrun _ nofun

/-- Whether a monitor opens a file of a name for its next datagram. -/
structure Opens (w : MonitorSite σ) (now : Moment) (name : String) : Prop where
  /-- The stream is received. -/
  receiving : w.monitor.receiving = true
  /-- The session opens the file. -/
  session : w.monitor.session.Opens now w.directory name

/-- A file shows the title of the monitor that opens it. -/
theorem Opens.name_eq {now : Moment} {name : String} (h : w.Opens now name) (hw : w.IsReached) :
    name = Chunk.fileName w.monitor.config.title (w.monitor.session.sequence + 1) now.wall := by
  rw [← hw.inStep h.receiving]
  exact (Session.opens_iff.1 h.session).2.2

end MonitorSite

/-- The name of a file stays in its directory, and shows the title but for the characters that it
replaces, the number and the millisecond. So two monitors open the same file only if their titles are
shown alike, for chunks with the same number, in the same millisecond. -/
theorem chunk_files_told_apart :
    (∀ (title : String) (n : Nat) (t : Instant), t.date.year ≤ 9999 →
      ∃ stem, (Chunk.fileName title n t).toList = stem ++ ['.', 't', 's'] ∧
        ∀ c ∈ stem, Chunk.isFileChar c = true) ∧
      (∀ (title title' : String) (n n' : Nat) (t t' : Instant), t.nanos < 2 * nanosPerSecond →
        t'.nanos < 2 * nanosPerSecond →
        (Chunk.fileName title n t = Chunk.fileName title' n' t' ↔
          Chunk.fileTitle title = Chunk.fileTitle title' ∧ n = n' ∧ t.SameMillisecond t')) ∧
      ∀ (σ : Type) (w w' : MonitorSite σ) (now now' : Moment) (name : String),
        now.wall.nanos < 2 * nanosPerSecond → now'.wall.nanos < 2 * nanosPerSecond →
        w.IsReached → w'.IsReached → w.Opens now name → w'.Opens now' name →
        Chunk.fileTitle w.monitor.config.title = Chunk.fileTitle w'.monitor.config.title ∧
          w.monitor.session.sequence = w'.monitor.session.sequence ∧
          now.wall.SameMillisecond now'.wall := by
  refine ⟨fun title n t => Chunk.exists_fileName_eq title n,
    fun title title' n n' t t' => Chunk.fileName_eq_iff,
    fun σ w w' now now' name hnow hnow' hw hw' h h' => ?_⟩
  have hname := (h.name_eq hw).symm.trans (h'.name_eq hw')
  obtain ⟨htitle, hnumber, htime⟩ := (Chunk.fileName_eq_iff hnow hnow').1 hname
  exact ⟨htitle, Nat.succ.inj hnumber, htime⟩

/-- A stream on a port of this host. -/
private def streamAt (title uri : String) (port : UInt16) : StreamConfig :=
  { SessionRun.sampleConfig title 1000 with
    monitoredAddress := uri
    address := ⟨.v4 ⟨127, 0, 0, 1⟩, port⟩ }

/-- The host on which the streams are received. -/
private def receivingHost : Environment MemoryCatalog where
  catalog := MemoryCatalog.catalog
  network := .isolated
  now := ⟨⟨0, 0⟩, 0⟩

/-- A stream that was started, with the directory as it is then. -/
private def startedAt (title uri : String) (port : UInt16) : MonitorSite MemoryCatalog :=
  MonitorSite.after ⟨.new (streamAt title uri port), .missing, .empty⟩ (.start receivingHost [])

/-- A file in its directory, two files of which the names look alike, and two streams that open the
same file. -/
theorem chunk_files_of_two_streams :
    let w := startedAt "UDP Stream" "udp://127.0.0.1:5000" 5000
    let w' := startedAt "UDP_Stream" "udp://127.0.0.1:5001" 5001
    (∃ stem, (Chunk.fileName "UDP Stream/Test" 7 ⟨1709296205, 0⟩).toList = stem ++ ['.', 't', 's'] ∧
        ∀ c ∈ stem, Chunk.isFileChar c = true) ∧
      Chunk.fileName "a-00001" 2 ⟨0, 0⟩ ≠ Chunk.fileName "a" 1 ⟨0, 0⟩ ∧
      w.Opens receivingHost.now "UDP_Stream-00001-19700101T000000000Z.ts" ∧
      w'.Opens receivingHost.now "UDP_Stream-00001-19700101T000000000Z.ts" ∧
      Chunk.fileTitle w.monitor.config.title = Chunk.fileTitle w'.monitor.config.title := by
  intro w w'
  obtain ⟨hplaced, hapart, hmonitors⟩ := chunk_files_told_apart
  have hopens : w.Opens receivingHost.now "UDP_Stream-00001-19700101T000000000Z.ts" :=
    ⟨rfl, Session.opens_iff.2 (by decide +kernel)⟩
  have hopens' : w'.Opens receivingHost.now "UDP_Stream-00001-19700101T000000000Z.ts" :=
    ⟨rfl, Session.opens_iff.2 (by decide +kernel)⟩
  refine ⟨hplaced _ 7 ⟨1709296205, 0⟩ (by decide), fun h => ?_, hopens, hopens', ?_⟩
  · exact absurd ((hapart _ _ _ _ _ _ (by decide) (by decide)).1 h).2.1 (by decide)
  · exact (hmonitors _ _ _ _ _ _ (by decide) (by decide) ⟨_, _, _, [_], rfl⟩ ⟨_, _, _, [_], rfl⟩
      hopens hopens').1

/-- Two streams whose titles differ in a character that is replaced. -/
private def streamsShownAlike : List (Environment MemoryCatalog × RegistryOperation) :=
  [.add (streamAt "UDP Stream" "udp://127.0.0.1:5000" 5000),
    .add (streamAt "UDP_Stream" "udp://127.0.0.1:5001" 5001), .start "UDP Stream",
    .start "UDP_Stream"].map (receivingHost, ·)

/-- Both are registered and received, and open the same file for datagrams of the same time. -/
theorem one_file_for_two_titles :
    let r := RegistryOperation.runAll streamsShownAlike (.empty .empty)
    "UDP Stream" ≠ "UDP_Stream" ∧
      ["UDP Stream", "UDP_Stream"].map (fun title => (r.get? title).map fun m =>
        (m.receiving, m.session.chunk.isNone,
          (m.session.ensureChunk receivingHost.now r.directory).toOption.map (·.1.fileName))) =
        List.replicate 2 (some (true, true, some "UDP_Stream-00001-19700101T000000000Z.ts")) := by
  decide +kernel

end StreamCatalog
