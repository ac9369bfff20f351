import Mathlib.Data.List.Perm.Basic
import StreamCatalog.Proofs.Chunk.FileNames
import StreamCatalog.Proofs.Session.Conservation
import StreamCatalog.Proofs.Session.Moves
import StreamCatalog.Proofs.Session.Receiver

/-!
# What a session counts, and the files it keeps

The file system refuses what it likes, chunks are given up, and commits end well
or badly, or break off. Every chunk that was to be opened is then counted once, or
still open or being committed, and every datagram is counted once
(`SessionLedger.accounts_balanced`). Each file is that of the open chunk or of a commit that
runs, unless a commit broke off.
-/

namespace StreamCatalog

/-! ## Files -/

/-- Whether the files of a directory are those of some names, each of a chunk of its own, whose
numbers are not greater than `sequence`. -/
structure KeepsFiles (sequence : Nat) (files : Std.ExtTreeSet String) (names : List String) : Prop
    where
  /-- The names are those of the files. -/
  mem_files_iff : ∀ name, name ∈ files ↔ name ∈ names
  /-- No name stands twice. -/
  nodup : names.Nodup
  /-- The names show the numbers. -/
  numbered : ∀ name ∈ names, ∃ title n t, n ≤ sequence ∧ name = Chunk.fileName title n t

namespace KeepsFiles

variable {sequence : Nat} {files : Std.ExtTreeSet String} {names names' : List String}

theorem perm (h : KeepsFiles sequence files names) (hperm : names'.Perm names) :
    KeepsFiles sequence files names' where
  mem_files_iff name := (h.mem_files_iff name).trans hperm.mem_iff.symm
  nodup := hperm.nodup_iff.2 h.nodup
  numbered name hname := h.numbered name (hperm.mem_iff.1 hname)

/-- The file of a chunk with the next number is a new one. -/
theorem insert (h : KeepsFiles sequence files names) (title : String) (t : Instant) :
    KeepsFiles (sequence + 1) (files.insert (Chunk.fileName title (sequence + 1) t))
      (Chunk.fileName title (sequence + 1) t :: names) where
  mem_files_iff name := by
    rw [Std.ExtTreeSet.mem_insert, Std.LawfulEqCmp.compare_eq_iff_eq, h.mem_files_iff,
      List.mem_cons, eq_comm]
  nodup := by
    refine List.nodup_cons.2 ⟨fun hmem => ?_, h.nodup⟩
    obtain ⟨title', n, t', hn, hname⟩ := h.numbered _ hmem
    have hnumber := Chunk.sequence_eq_of_fileName_eq hname
    omega
  numbered name hname := by
    rcases List.mem_cons.1 hname with rfl | hname
    · exact ⟨title, sequence + 1, t, Nat.le_refl _, rfl⟩
    · obtain ⟨title', n, t', hn, rfl⟩ := h.numbered name hname
      exact ⟨title', n, t', Nat.le_succ_of_le hn, rfl⟩

theorem erase {name : String} (h : KeepsFiles sequence files (name :: names)) :
    KeepsFiles sequence (files.erase name) names where
  mem_files_iff other := by
    have hnew : name ∉ names := (List.nodup_cons.1 h.nodup).1
    rw [Std.ExtTreeSet.mem_erase, ne_eq, Std.LawfulEqCmp.compare_eq_iff_eq, h.mem_files_iff,
      List.mem_cons]
    constructor
    · rintro ⟨hne, rfl | hmem⟩
      · exact absurd rfl hne
      · exact hmem
    · intro hmem
      refine ⟨?_, .inr hmem⟩
      rintro rfl
      exact hnew hmem
  nodup := (List.nodup_cons.1 h.nodup).2
  numbered other hother := h.numbered other (List.mem_cons_of_mem _ hother)

end KeepsFiles

/-! ## Chunks -/

namespace ChunkBooks

/-- The names of the files that there ought to be. -/
def names (b : ChunkBooks) : List String :=
  b.chunk.toList.map (·.fileName) ++ (b.running.map (·.fileName) ++ b.left)

/-- Whether all chunks are accounted for, those of an earlier time aside. -/
structure Balanced (start : StreamCounts) (b : ChunkBooks) : Prop where
  /-- Every chunk is counted once. -/
  balance : b.started + b.failed + (start.chunksCommitted + start.chunksLost) =
    b.committed + b.lost + (b.running.length + b.ended.length) + b.chunk.toList.length +
      start.chunksStarted
  /-- The files are those of the open chunk and of commits. -/
  files : KeepsFiles b.sequence b.files b.names

end ChunkBooks

/-- A commit that is taken out of a list, and the rest of the list. -/
theorem perm_cons_eraseIdx {running : List ChunkCommit} {i : Nat} {commit : ChunkCommit}
    (h : running[i]? = some commit) : (commit :: running.eraseIdx i).Perm running := by
  obtain ⟨hi, rfl⟩ := List.getElem?_eq_some_iff.1 h
  exact List.getElem_cons_eraseIdx_perm hi

/-- Nothing that becomes of a chunk leaves it out of account. -/
theorem ChunkBooks.Balanced.of_move {start : StreamCounts} {b b' : ChunkBooks}
    (hb : b.Balanced start) (h : ChunkMove b b') : b'.Balanced start := by
  have hbalance := hb.balance
  have hfiles := hb.files
  cases h with
  | grows chunk grown isOpen fileName_eq =>
    rw [isOpen] at hbalance
    refine ⟨hbalance, ?_⟩
    have hnames : { b with chunk := some grown }.names = b.names := by
      simp [ChunkBooks.names, isOpen, fileName_eq]
    exact hnames ▸ hfiles
  | opens title now files isClosed files_eq =>
    rw [isClosed] at hbalance
    constructor
    case balance =>
      simp only [Option.toList_none, Option.toList_some, List.length_nil, List.length_singleton]
        at hbalance ⊢
      omega
    case files =>
      subst files_eq
      have hinsert := hfiles.insert title now.wall
      rw [ChunkBooks.names, isClosed] at hinsert
      exact hinsert
  | fails isClosed =>
    refine ⟨?_, hfiles⟩
    simp only
    omega
  | hands chunk commit isOpen fileName_eq =>
    rw [isOpen] at hbalance
    constructor
    case balance =>
      simp only [Option.toList_none, Option.toList_some, List.length_nil, List.length_singleton,
        List.length_append] at hbalance ⊢
      omega
    case files =>
      refine hfiles.perm ?_
      simp only [ChunkBooks.names, isOpen, Option.toList_none, Option.toList_some, List.map_nil,
        List.map_append, List.map_singleton, List.nil_append, List.append_assoc, fileName_eq]
      exact (List.perm_append_comm_assoc _ _ _).symm
  | loses chunk files isOpen files_eq =>
    rw [isOpen] at hbalance
    constructor
    case balance =>
      simp only [Option.toList_none, Option.toList_some, List.length_nil, List.length_singleton]
        at hbalance ⊢
      omega
    case files =>
      subst files_eq
      rw [ChunkBooks.names, isOpen] at hfiles
      exact hfiles.erase
  | ends i commit result files found files_eq =>
    have hperm := perm_cons_eraseIdx found
    have hlength := hperm.length_eq
    constructor
    case balance =>
      simp only [List.length_cons, List.length_append, List.length_nil] at hlength ⊢
      omega
    case files =>
      subst files_eq
      refine KeepsFiles.erase (hfiles.perm ?_)
      exact List.perm_middle.symm.trans
        (.append_left _ (.append_right b.left (hperm.map ChunkCommit.fileName)))
  | breaks i commit found =>
    have hperm := perm_cons_eraseIdx found
    have hlength := hperm.length_eq
    constructor
    case balance =>
      simp only [List.length_cons] at hlength ⊢
      omega
    case files =>
      refine hfiles.perm (.append_left _ ?_)
      rw [← List.append_assoc]
      exact List.perm_append_comm.trans (.append_right b.left (hperm.map ChunkCommit.fileName))
  | counts committed lost sum_eq =>
    refine ⟨?_, hfiles⟩
    simp only [List.length_nil]
    omega

theorem ChunkBooks.Balanced.of_moves {start : StreamCounts} {b b' : ChunkBooks}
    (hb : b.Balanced start) (h : ChunkMoves b b') : b'.Balanced start := by
  induction h with
  | refl => exact hb
  | tail _ hmove ih => exact ih.of_move hmove

/-! ## Datagrams -/

/-- What a session has taken in. -/
structure Intake where
  /-- Cuts datagrams into packets. -/
  aligner : Transport.Aligner
  /-- Datagrams that were accepted. -/
  datagrams : Nat
  /-- Their bytes. -/
  bytesReceived : Nat
  /-- Datagrams that were refused. -/
  datagramsDropped : Nat

/-- The intake with an event. -/
def Intake.after (n : Intake) : SessionEvent → Intake
  | .datagram bytes =>
    match n.aligner.push bytes with
    | (.error _, aligner) =>
      { n with aligner := aligner, datagramsDropped := n.datagramsDropped + 1 }
    | (.ok _, aligner) =>
      { n with
        aligner := aligner
        datagrams := n.datagrams + 1
        bytesReceived := n.bytesReceived + bytes.length }
  | .shutdown => { n with aligner := .initial }
  | .tick | .rollover | .configure _ => n

/-- Whether an event is a datagram. -/
def SessionEvent.isDatagram : SessionEvent → Bool
  | .datagram _ => true
  | .tick | .rollover | .configure _ | .shutdown => false

/-- The datagrams among events that an aligner accepts. At the end of a reception it forgets what it
has kept. -/
def Transport.Aligner.accepted (a : Aligner) : List SessionEvent → List Bytes
  | [] => []
  | .datagram bytes :: es =>
    match a.push bytes with
    | (.error _, a) => accepted a es
    | (.ok _, a) => bytes :: accepted a es
  | .shutdown :: es => accepted .initial es
  | .tick :: es | .rollover :: es | .configure _ :: es => accepted a es

/-- Events take in what is accepted of their datagrams, and drop the rest. -/
theorem Intake.foldl_after (n : Intake) (es : List SessionEvent) :
    (es.foldl after n).bytesReceived =
        n.bytesReceived + (n.aligner.accepted es).flatten.length ∧
      (es.foldl after n).datagrams = n.datagrams + (n.aligner.accepted es).length ∧
      (es.foldl after n).datagrams + (es.foldl after n).datagramsDropped =
        n.datagrams + n.datagramsDropped + es.countP SessionEvent.isDatagram := by
  induction es generalizing n with
  | nil => exact ⟨rfl, rfl, rfl⟩
  | cons e es ih =>
    obtain ⟨hbytes, hdatagrams, hcalls⟩ := ih (n.after e)
    rw [List.foldl_cons, hbytes, hcalls, hdatagrams, List.countP_cons]
    cases e with
    | tick | rollover | configure | shutdown => exact ⟨rfl, rfl, rfl⟩
    | datagram bytes =>
      rw [after, Transport.Aligner.accepted]
      rcases n.aligner.push bytes with ⟨fault | packets, aligner⟩
      · refine ⟨rfl, rfl, ?_⟩
        simp only [SessionEvent.isDatagram, if_true]
        omega
      · simp only [SessionEvent.isDatagram, if_true, List.flatten_cons, List.length_append,
          List.length_cons]
        omega

namespace Session

/-- What a session has taken in. -/
def intake (s : Session) : Intake where
  aligner := s.aligner
  datagrams := s.report.counts.datagrams
  bytesReceived := s.report.counts.bytesReceived
  datagramsDropped := s.report.counts.datagramsDropped

theorem chunk_rollover (now : Moment) (s : Session) (d : ChunkDirectory) :
    (s.rollover now d).1.chunk = none := by
  rw [rollover]
  cases hchunk : s.chunk with
  | none => exact hchunk
  | some chunk =>
    cases hclosing : d.refusals.closing <;> simp only [closeFile, hclosing]

theorem intake_of_receiver_eq {s t : Session} (h : s.receiver = t.receiver) :
    s.intake = t.intake :=
  congrArg (fun r : Receiver =>
    (⟨r.aligner, r.datagrams, r.bytesReceived, r.datagramsDropped⟩ : Intake)) h

theorem intake_flush (s : Session) : s.flush.intake = s.intake := by
  rw [flush]
  cases s.chunk <;> rfl

/-- An event takes in what it takes in without a file system. -/
theorem intake_step (e : SessionEvent) (now : Moment) (s : Session) (d : ChunkDirectory) :
    (s.step e now d).2.1.intake = s.intake.after e := by
  cases e with
  | tick => exact intake_of_receiver_eq (s.receiver_tick now d)
  | rollover | configure => exact intake_of_receiver_eq (s.receiver_rollover now d)
  | shutdown =>
    have hclosed := (intake_of_receiver_eq (s.flush.receiver_rollover now d)).trans s.intake_flush
    exact congrArg (fun n : Intake => { n with aligner := .initial }) hclosed
  | datagram bytes =>
    have haligner : s.intake.aligner = s.aligner := rfl
    change (s.receive bytes now d).2.1.intake = _
    rw [Intake.after, haligner]
    rcases hpush : s.aligner.push bytes with ⟨fault | packets, aligner⟩
    · rw [receive, hpush]
      rfl
    · rw [receive_eq_write hpush, intake_of_receiver_eq (receiver_write ..)]
      rfl

end Session

/-! ## Runs -/

/-- What happens to a session, its commits and its files. -/
inductive LedgerInput where
  /-- An event. -/
  | event (e : SessionEvent) (now : Moment)
  /-- The file system refuses other things from now on. -/
  | refuse (refusals : FileRefusals)
  /-- The directory of the files is to be made, if it is missing. -/
  | make
  /-- A commit ends. -/
  | ended (i : Nat) (result : Except CommitError Record)
  /-- A commit breaks off. -/
  | broken (i : Nat) (message : String)
  /-- The results of commits are counted. -/
  | counted

namespace LedgerInput

/-- The event that an input is. -/
def event? : LedgerInput → Option SessionEvent
  | .event e _ => some e
  | .refuse _ | .make | .ended _ _ | .broken _ _ | .counted => none

/-- Whether a commit breaks off. -/
def isBreak : LedgerInput → Bool
  | .broken _ _ => true
  | .event _ _ | .refuse _ | .make | .ended _ _ | .counted => false

/-- Whether an input concerns commits only. -/
def isEnd : LedgerInput → Bool
  | .ended _ _ | .broken _ _ | .counted => true
  | .event _ _ | .refuse _ | .make => false

end LedgerInput

/-- A session and its files, with what it does not count itself. -/
structure SessionLedger where
  /-- The session. -/
  session : Session
  /-- The directory of its files. -/
  directory : ChunkDirectory
  /-- Chunks that could not be opened. -/
  failed : Nat
  /-- The files that commits left behind when they broke off. -/
  left : List String

namespace SessionLedger

/-- A session that has received nothing. -/
def start (config : StreamConfig) (report : StreamReport) (directory : ChunkDirectory) :
    SessionLedger :=
  ⟨.start config report, directory, 0, []⟩

/-- The ledger after one more input. -/
def step (r : SessionLedger) : LedgerInput → SessionLedger
  | .event e now =>
    let (_, session, directory) := r.session.step e now r.directory
    let failed := if r.session.failsIn e now r.directory then 1 else 0
    ⟨session, directory, r.failed + failed, r.left⟩
  | .refuse refusals => { r with directory := { r.directory with refusals := refusals } }
  | .make => { r with directory := r.directory.make.toOption.getD r.directory }
  | .ended i result =>
    let (session, directory) := r.session.endCommit i result r.directory
    { r with session := session, directory := directory }
  | .broken i message =>
    { r with
      session := r.session.breakCommit i message
      left := r.left ++ r.session.leftBehind i }
  | .counted => { r with session := r.session.countEnded }

/-- The ledger after several more inputs. -/
def stepAll (r : SessionLedger) (is : List LedgerInput) : SessionLedger :=
  is.foldl step r

/-- To make the directory, or to fail to, leaves the files as they are. -/
theorem files_step_make (r : SessionLedger) : (r.step .make).directory.files = r.directory.files := by
  rw [step]
  dsimp only
  cases hmake : r.directory.make with
  | error fault => rfl
  | ok made => exact ChunkDirectory.files_make hmake

/-- What counts for the chunks. -/
def books (r : SessionLedger) : ChunkBooks := r.session.books r.directory r.failed r.left

theorem books_step (r : SessionLedger) (i : LedgerInput) : ChunkMoves r.books (r.step i).books := by
  cases i with
  | event e now => exact r.session.step_moves now r.directory r.failed r.left e
  | refuse => exact .refl
  | make =>
    have hbooks : (r.step .make).books = r.books := by
      rw [books, books, Session.books, Session.books, r.files_step_make]
      rfl
    rw [hbooks]
  | ended i result => exact r.session.endCommit_moves r.directory r.failed r.left i result
  | broken i message => exact r.session.breakCommit_moves r.directory r.failed r.left i message
  | counted => exact r.session.countEnded_moves r.directory r.failed r.left

theorem intake_step (r : SessionLedger) (i : LedgerInput) :
    (r.step i).session.intake = i.event?.toList.foldl Intake.after r.session.intake := by
  cases i with
  | event e now => exact r.session.intake_step e now r.directory
  | refuse | make => rfl
  | ended i result =>
    exact Session.intake_of_receiver_eq (r.session.receiver_endCommit i result r.directory)
  | broken i message => exact Session.intake_of_receiver_eq (r.session.receiver_breakCommit i message)
  | counted => exact Session.intake_of_receiver_eq r.session.receiver_countEnded

section run

variable (r : SessionLedger) (is : List LedgerInput)

theorem books_stepAll : ChunkMoves r.books (r.stepAll is).books := by
  induction is generalizing r with
  | nil => exact .refl
  | cons i is ih => exact (r.books_step i).trans (ih (r.step i))

theorem intake_stepAll :
    (r.stepAll is).session.intake =
      (is.filterMap LedgerInput.event?).foldl Intake.after r.session.intake := by
  induction is generalizing r with
  | nil => rfl
  | cons i is ih =>
    have hstep := ih (r.step i)
    rw [intake_step, ← List.foldl_append] at hstep
    refine hstep.trans (congrArg (List.foldl Intake.after _) ?_)
    cases hevent : i.event? <;> simp [hevent]

/-- Nothing is left behind where no commit breaks off. -/
theorem left_stepAll (h : ∀ i ∈ is, i.isBreak = false) : (r.stepAll is).left = r.left := by
  induction is generalizing r with
  | nil => rfl
  | cons i is ih =>
    refine (ih (r.step i) fun j hj => h j (List.mem_cons_of_mem _ hj)).trans ?_
    have hi := h i List.mem_cons_self
    cases i with
    | broken => cases hi
    | event | refuse | make | ended | counted => rfl

/-- Ends of commits open no chunk. -/
theorem chunk_stepAll (h : ∀ i ∈ is, i.isEnd = true) :
    (r.stepAll is).session.chunk = r.session.chunk := by
  induction is generalizing r with
  | nil => rfl
  | cons i is ih =>
    refine (ih (r.step i) fun j hj => h j (List.mem_cons_of_mem _ hj)).trans ?_
    have hi := h i List.mem_cons_self
    cases i with
    | event | refuse | make => cases hi
    | counted => rfl
    | ended i result =>
      simp only [step, Session.endCommit]
      split <;> rfl
    | broken i message =>
      simp only [step, Session.breakCommit]
      split <;> rfl

end run

/-- After the end of a reception no chunk is open. -/
theorem chunk_shutdown (r : SessionLedger) (now : Moment) :
    (r.step (.event .shutdown now)).session.chunk = none :=
  r.session.flush.chunk_rollover now r.directory

theorem balanced_start (config : StreamConfig) (report : StreamReport) {d : ChunkDirectory}
    (hd : d.files = ∅) : (start config report d).books.Balanced report.counts where
  balance := by
    simp only [books, start, Session.books, Session.start, List.length_nil, Option.toList_none]
    omega
  files := by
    have hnames : (start config report d).books.names = [] := rfl
    have hfiles : (start config report d).books.files = ∅ := hd
    rw [hnames, hfiles]
    refine ⟨fun name => ?_, .nil, fun name hname => absurd hname List.not_mem_nil⟩
    exact iff_of_false Std.ExtTreeSet.not_mem_empty List.not_mem_nil

theorem balanced_stepAll {start : StreamCounts} {r : SessionLedger} (h : r.books.Balanced start)
    (is : List LedgerInput) : (r.stepAll is).books.Balanced start :=
  h.of_moves (r.books_stepAll is)

/-- The files of a balanced ledger. -/
theorem contains_iff {start : StreamCounts} {r : SessionLedger} (h : r.books.Balanced start)
    (name : String) :
    r.directory.contains name = true ↔
      (∃ chunk ∈ r.session.chunk, chunk.fileName = name) ∨
        (∃ commit ∈ r.session.running, commit.fileName = name) ∨ name ∈ r.left := by
  have hfiles : name ∈ r.directory.files ↔ name ∈ r.books.names := h.files.mem_files_iff name
  rw [ChunkDirectory.contains, ← Std.ExtTreeSet.mem_iff_contains, hfiles]
  simp [ChunkBooks.names, books, Session.books]

/-- Whatever becomes of files and commits, each chunk that was to be opened is open, being committed,
committed or lost; each datagram is accepted with its bytes or dropped; and the files are those of
the open chunk and of the commits that run, but for what commits leave behind that break off. So no
file is there after the reception when all commits have come to their ends. -/
theorem accounts_balanced (config : StreamConfig) (report : StreamReport) {d : ChunkDirectory}
    (hd : d.files = ∅) (is : List LedgerInput) :
    let r := (start config report d).stepAll is
    let events := is.filterMap LedgerInput.event?
    let counts := r.session.report.counts
    (counts.chunksStarted + r.failed + (report.counts.chunksCommitted + report.counts.chunksLost) =
        counts.chunksCommitted + counts.chunksLost +
          (r.session.running.length + r.session.ended.length) + r.session.chunk.toList.length +
          report.counts.chunksStarted) ∧
      (counts.datagrams + counts.datagramsDropped =
        report.counts.datagrams + report.counts.datagramsDropped +
          events.countP SessionEvent.isDatagram) ∧
      (counts.bytesReceived = report.counts.bytesReceived +
        (Transport.Aligner.initial.accepted events).flatten.length) ∧
      (∀ name, r.directory.contains name = true ↔
        (∃ chunk ∈ r.session.chunk, chunk.fileName = name) ∨
          (∃ commit ∈ r.session.running, commit.fileName = name) ∨ name ∈ r.left) ∧
      ((∀ i ∈ is, i.isBreak = false) → r.left = []) ∧
      ∀ now ends, (∀ i ∈ ends, i.isEnd = true) →
        let r' := (r.step (.event .shutdown now)).stepAll ends
        r'.session.running = [] → ∀ name, r'.directory.contains name = true ↔ name ∈ r'.left := by
  intro r events counts
  have hr : r.books.Balanced report.counts := balanced_stepAll (balanced_start config report hd) is
  have hintake : r.session.intake = events.foldl Intake.after (Session.start config report).intake :=
    intake_stepAll (start config report d) is
  obtain ⟨hbytes, -, hcalls⟩ := Intake.foldl_after (Session.start config report).intake events
  rw [← hintake] at hbytes hcalls
  refine ⟨hr.balance, hcalls, hbytes, contains_iff hr, ?_, ?_⟩
  · exact left_stepAll (start config report d) is
  · intro now ends hends r' hrunning name
    have hr' : r'.books.Balanced report.counts :=
      balanced_stepAll (balanced_stepAll hr [.event .shutdown now]) ends
    have hchunk : r'.session.chunk = none :=
      (chunk_stepAll _ ends hends).trans (r.chunk_shutdown now)
    rw [contains_iff hr', hchunk, hrunning]
    simp

/-- A child whose location has no line to simplify. -/
private def dotted : Record :=
  (Record.new .child).set AttributeName.location (.geometry (.polygon ⟨[⟨1, 1⟩], []⟩))

/-- The parent takes the location of such a child, and has no result when the next one comes, so
the commit of that one breaks off. Its chunk is counted as lost, and its file is there after the end
of the reception, when no chunk is open and no commit runs. -/
theorem file_left_by_broken_commit :
    let rules := ParentUpdate.standard .standard
    let r := (start (SessionRun.sampleConfig "old" 4) .initial .empty).stepAll
      [.event (.datagram [1, 2, 3, 4]) ⟨⟨0, 0⟩, 0⟩, .broken 0 "task 9 panicked", .counted,
        .event .shutdown ⟨⟨0, 0⟩, 1⟩]
    (ParentUpdate.updateAll? rules (Record.new .parent) dotted).any (fun parent =>
        (ParentUpdate.updateAll? rules parent dotted).isNone) = true ∧
      r.session.chunk.isNone = true ∧ r.session.running.length = 0 ∧ r.session.ended.length = 0 ∧
      r.session.report.counts.chunksLost = 1 ∧
      r.directory.contains "old-00001-19700101T000000000Z.ts" = true := by
  decide +kernel

/-- One chunk cannot be opened and one cannot be written. The commit of a third one fails, and that of a
fourth one breaks off. -/
def troubledInputs : List LedgerInput :=
  let moment (nanos : Nat) : Moment := ⟨⟨0, 0⟩, nanos⟩
  [.event (.datagram [1]) (moment 0), .make, .event (.datagram [2]) (moment 1),
    .refuse ⟨none, none, some .noSpace, none⟩, .event (.datagram [3]) (moment 2), .refuse .none,
    .event (.datagram [4, 5, 6, 7]) (moment 3), .event (.datagram []) (moment 4),
    .event (.datagram [8, 9, 10, 11]) (moment 5), .event (.datagram [12]) (moment 6),
    .ended 0 (.error .parentMissing), .broken 0 "task 9 panicked", .counted]

/-- All four chunks are lost, and the file of the last of them is there beside that of the open
chunk. -/
theorem accounts_balanced_with_losses :
    let r := (start (SessionRun.sampleConfig "old" 4) .initial .missing).stepAll troubledInputs
    let counts := r.session.report.counts
    (counts.chunksStarted = 4 ∧ r.failed = 1 ∧ counts.chunksLost = 4 ∧ r.left.length = 1) ∧
      (counts.chunksStarted + r.failed = counts.chunksCommitted + counts.chunksLost + 0 + 1) ∧
      counts.bytesReceived = 12 ∧
      ∀ name, r.directory.contains name = true ↔
        (∃ chunk ∈ r.session.chunk, chunk.fileName = name) ∨ name ∈ r.left := by
  intro r counts
  obtain ⟨hbalance, -, hbytes, hfiles, -⟩ :=
    accounts_balanced (SessionRun.sampleConfig "old" 4) .initial (d := .missing) rfl troubledInputs
  have hrunning : r.session.running = [] := by
    apply List.eq_nil_of_length_eq_zero
    decide +kernel
  refine ⟨by decide +kernel, ?_, hbytes.trans (by decide +kernel), fun name => ?_⟩
  · have hended : r.session.ended.length = 0 := by decide +kernel
    have hopen : r.session.chunk.toList.length = 1 := by decide +kernel
    rw [hrunning, hended, hopen] at hbalance
    exact hbalance
  · have hname : r.directory.contains name = true ↔
        (∃ chunk ∈ r.session.chunk, chunk.fileName = name) ∨
          (∃ commit ∈ r.session.running, commit.fileName = name) ∨ name ∈ r.left := hfiles name
    simpa [hrunning] using hname

end SessionLedger

end StreamCatalog
