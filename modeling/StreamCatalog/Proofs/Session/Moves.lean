import Mathlib.Logic.Relation
import StreamCatalog.Proofs.Session.Faultless
import StreamCatalog.Session.Commits

/-!
# What becomes of chunks

Whatever the file system refuses, and however commits end, a session does eight
things with its chunks. `ChunkMove` lists them on what counts for the chunks
(`ChunkBooks`), and `Session.step_moves` says that an event does nothing else. An
event begins one commit at most, that of the chunk that was opened last
(`Session.step_begins`).
-/

namespace StreamCatalog

/-- What counts for the chunks of a session. -/
structure ChunkBooks where
  /-- The number of the last chunk that was opened. -/
  sequence : Nat
  /-- The open chunk. -/
  chunk : Option OpenChunk
  /-- The commits that run. -/
  running : List ChunkCommit
  /-- The results of commits that have ended and are not yet counted. -/
  ended : List (Except CommitError Record)
  /-- The names of the chunk files. -/
  files : Std.ExtTreeSet String
  /-- Chunks that were opened. -/
  started : Nat
  /-- Chunks that were committed. -/
  committed : Nat
  /-- Chunks that were lost. -/
  lost : Nat
  /-- Chunks that could not be opened. -/
  failed : Nat
  /-- The files that commits left behind when they broke off. -/
  left : List String

/-- What may become of the chunks of a session. -/
inductive ChunkMove : ChunkBooks → ChunkBooks → Prop where
  /-- The open chunk is written to. -/
  | grows (b : ChunkBooks) (chunk grown : OpenChunk) (isOpen : b.chunk = some chunk)
      (fileName_eq : grown.fileName = chunk.fileName)
      (sequence_eq : grown.sequence = chunk.sequence) :
    ChunkMove b { b with chunk := some grown }
  /-- A chunk is opened. -/
  | opens (b : ChunkBooks) (title : String) (now : Moment) (files : Std.ExtTreeSet String)
      (isClosed : b.chunk = none)
      (files_eq : files = b.files.insert (Chunk.fileName title (b.sequence + 1) now.wall)) :
    ChunkMove b { b with
      sequence := b.sequence + 1
      chunk := some (.start title (b.sequence + 1) now)
      files := files
      started := b.started + 1 }
  /-- A chunk cannot be opened. -/
  | fails (b : ChunkBooks) (isClosed : b.chunk = none) :
    ChunkMove b { b with lost := b.lost + 1, failed := b.failed + 1 }
  /-- The open chunk is closed, and its commit begins. -/
  | hands (b : ChunkBooks) (chunk : OpenChunk) (commit : ChunkCommit)
      (isOpen : b.chunk = some chunk) (fileName_eq : commit.fileName = chunk.fileName)
      (sequence_eq : commit.chunk.sequence = chunk.sequence) :
    ChunkMove b { b with chunk := none, running := b.running ++ [commit] }
  /-- The open chunk is lost. -/
  | loses (b : ChunkBooks) (chunk : OpenChunk) (files : Std.ExtTreeSet String)
      (isOpen : b.chunk = some chunk) (files_eq : files = b.files.erase chunk.fileName) :
    ChunkMove b { b with chunk := none, files := files, lost := b.lost + 1 }
  /-- A commit ends. -/
  | ends (b : ChunkBooks) (i : Nat) (commit : ChunkCommit) (result : Except CommitError Record)
      (files : Std.ExtTreeSet String) (found : b.running[i]? = some commit)
      (files_eq : files = b.files.erase commit.fileName) :
    ChunkMove b { b with
      running := b.running.eraseIdx i
      ended := b.ended ++ [result]
      files := files }
  /-- A commit breaks off. -/
  | breaks (b : ChunkBooks) (i : Nat) (commit : ChunkCommit)
      (found : b.running[i]? = some commit) :
    ChunkMove b { b with
      running := b.running.eraseIdx i
      lost := b.lost + 1
      left := b.left ++ [commit.fileName] }
  /-- The results of commits are counted. -/
  | counts (b : ChunkBooks) (committed lost : Nat) (sum_eq : committed + lost = b.ended.length) :
    ChunkMove b { b with
      ended := []
      committed := b.committed + committed
      lost := b.lost + lost }

/-- What may become of the chunks in the end. -/
abbrev ChunkMoves : ChunkBooks → ChunkBooks → Prop := Relation.ReflTransGen ChunkMove

namespace Session

/-- What counts for the chunks of a session. -/
def books (s : Session) (d : ChunkDirectory) (failed : Nat) (left : List String) : ChunkBooks where
  sequence := s.sequence
  chunk := s.chunk
  running := s.running
  ended := s.ended
  files := d.files
  started := s.report.counts.chunksStarted
  committed := s.report.counts.chunksCommitted
  lost := s.report.counts.chunksLost
  failed := failed
  left := left

/-- Whether the next chunk is to be opened and cannot be. -/
def opensInVain (now : Moment) (s : Session) (d : ChunkDirectory) : Bool :=
  s.chunk.isNone && !(d.create (Chunk.fileName s.config.title (s.sequence + 1) now.wall)).isOk

/-- Whether an event is a datagram that is accepted, and no chunk can be opened for it. -/
def failsIn (e : SessionEvent) (now : Moment) (s : Session) (d : ChunkDirectory) : Bool :=
  match e with
  | .datagram bytes => (s.aligner.push bytes).1.isOk && s.opensInVain now d
  | .tick | .rollover | .configure _ | .shutdown => false

section moves

variable (now : Moment) (s : Session) (d : ChunkDirectory) (failed : Nat) (left : List String)

theorem rollover_moves :
    ChunkMoves (s.books d failed left)
      ((s.rollover now d).1.books (s.rollover now d).2 failed left) := by
  rw [rollover]
  cases hchunk : s.chunk with
  | none => exact .refl
  | some chunk =>
    cases hclosing : d.refusals.closing with
    | none =>
      simp only [closeFile, hclosing]
      exact .single (.hands _ chunk (s.commitOf chunk now) hchunk rfl rfl)
    | some fault =>
      simp only [closeFile, hclosing]
      exact .single (.loses _ chunk _ hchunk (d.files_remove chunk.fileName))

theorem tick_moves :
    ChunkMoves (s.books d failed left)
      ((s.tick now d).2.1.books (s.tick now d).2.2 failed left) := by
  rw [tick]
  split
  · exact s.rollover_moves now d failed left
  · exact .refl

/-- A chunk is there or is opened, unless its file is refused. -/
theorem ensureChunk_moves :
    (s.opensInVain now d = true ∧ s.chunk = none ∧
        ∃ fault, s.ensureChunk now d = .error fault) ∨
      (s.opensInVain now d = false ∧ ∃ chunk d', s.ensureChunk now d = .ok (chunk, s.opened now, d') ∧
        (s.opened now).chunk = some chunk ∧
        ChunkMoves (s.books d failed left) ((s.opened now).books d' failed left)) := by
  rw [ensureChunk, opened, opensInVain]
  cases hchunk : s.chunk with
  | some chunk => exact .inr ⟨rfl, chunk, d, rfl, hchunk, .refl⟩
  | none =>
    dsimp only [OpenChunk.start]
    cases hcreate : d.create (Chunk.fileName s.config.title (s.sequence + 1) now.wall) with
    | error fault => exact .inl ⟨rfl, rfl, fault, rfl⟩
    | ok d' =>
      refine .inr ⟨rfl, _, d', rfl, rfl, ?_⟩
      exact .single (.opens _ s.config.title now _ hchunk (ChunkDirectory.files_create hcreate))

/-- A datagram is written to a chunk, which is opened before and closed or given up after that as the
case may be. -/
theorem write_moves (datagram : Bytes) (samples : List Telemetry.Sample) :
    ChunkMoves (s.books d failed left)
      ((s.write datagram samples now d).2.1.books (s.write datagram samples now d).2.2
        (failed + if s.opensInVain now d then 1 else 0) left) := by
  rw [write]
  rcases s.ensureChunk_moves now d failed left with
    ⟨hvain, hchunk, fault, hensure⟩ | ⟨hvain, chunk, d', hensure, hchunk, hopens⟩
  · rw [hensure, hvain]
    exact .single (.fails _ hchunk)
  · rw [hensure, hvain]
    dsimp only
    cases hwriting : d'.refusals.writing with
    | some fault => exact hopens.tail (.loses _ chunk _ hchunk (d'.files_remove chunk.fileName))
    | none =>
      let grown := (chunk.write datagram now).addSamples samples
      have hgrows : ChunkMove ((s.opened now).books d' failed left) _ :=
        .grows _ chunk grown hchunk rfl rfl
      let t : Session := { s.opened now with
        chunk := some grown
        report := (s.opened now).report.addSamples samples.length }
      exact (hopens.tail hgrows).trans (t.tick_moves now d' failed left)

theorem receive_moves (bytes : Bytes) :
    ChunkMoves (s.books d failed left)
      ((s.receive bytes now d).2.1.books (s.receive bytes now d).2.2
        (failed + if s.failsIn (.datagram bytes) now d then 1 else 0) left) := by
  rcases hpush : s.aligner.push bytes with ⟨fault | packets, aligner⟩
  · rw [receive, failsIn, hpush]
    exact .refl
  · rw [receive_eq_write hpush, failsIn, hpush]
    exact write_moves now (s.hasRead bytes packets aligner) d failed left bytes _

theorem flush_moves : ChunkMoves (s.books d failed left) (s.flush.books d failed left) := by
  rw [flush]
  cases hchunk : s.chunk with
  | none => exact .refl
  | some chunk => exact .single (.grows _ chunk _ hchunk rfl rfl)

/-- All that an event does to the chunks of a session, whatever the file system refuses. -/
theorem step_moves (e : SessionEvent) :
    ChunkMoves (s.books d failed left)
      ((s.step e now d).2.1.books (s.step e now d).2.2
        (failed + if s.failsIn e now d then 1 else 0) left) := by
  cases e with
  | datagram bytes => exact s.receive_moves now d failed left bytes
  | tick => exact s.tick_moves now d failed left
  | rollover | configure => exact s.rollover_moves now d failed left
  | shutdown => exact (s.flush_moves d failed left).trans (s.flush.rollover_moves now d failed left)

theorem endCommit_moves (i : Nat) (result : Except CommitError Record) :
    ChunkMoves (s.books d failed left)
      ((s.endCommit i result d).1.books (s.endCommit i result d).2 failed left) := by
  rw [endCommit]
  cases hfound : s.running[i]? with
  | none => exact .refl
  | some commit => exact .single (.ends _ i commit result _ hfound (d.files_remove commit.fileName))

/-- The files that a commit leaves behind when it breaks off. -/
def leftBehind (i : Nat) (s : Session) : List String :=
  (s.running[i]?.map (·.fileName)).toList

theorem breakCommit_moves (i : Nat) (message : String) :
    ChunkMoves (s.books d failed left)
      ((s.breakCommit i message).books d failed (left ++ s.leftBehind i)) := by
  rw [breakCommit, leftBehind]
  cases hfound : s.running[i]? with
  | none =>
    rw [Option.map_none, Option.toList_none, List.append_nil]
  | some commit => exact .single (.breaks _ i commit hfound)

end moves

theorem countEnded_moves (s : Session) (d : ChunkDirectory) (failed : Nat) (left : List String) :
    ChunkMoves (s.books d failed left) (s.countEnded.books d failed left) := by
  obtain ⟨committed, lost, hsum, hcounts⟩ :=
    StreamReport.exists_counts_foldl_countResult s.ended s.report
  have hbooks : s.countEnded.books d failed left =
      { s.books d failed left with
        ended := []
        committed := (s.books d failed left).committed + committed
        lost := (s.books d failed left).lost + lost } := by
    simp only [countEnded, books, hcounts]
  rw [hbooks]
  exact .single (.counts _ committed lost hsum)

/-! ## Commits that begin -/

/-- Whether at most one commit began between two states, that of the chunk opened last. A chunk that
was open before is not counted again. -/
def Begins (s t : Session) : Prop :=
  t.running = s.running ∨
    ∃ commit, t.running = s.running ++ [commit] ∧ commit.chunk.sequence = t.sequence ∧
      t.chunk = none ∧ s.sequence + 1 ≤ t.sequence + s.chunk.toList.length

/-- Whether the open chunk is the one that was opened last. -/
def OpensLast (s : Session) : Prop := ∀ chunk, s.chunk = some chunk → chunk.sequence = s.sequence

theorem OpensLast.opened {s : Session} (hs : s.OpensLast) (now : Moment) :
    (s.opened now).OpensLast := by
  intro chunk hchunk
  rw [Session.opened] at *
  split at *
  · exact hs chunk hchunk
  · cases hchunk
    rfl

theorem sequence_opened (now : Moment) (s : Session) :
    (s.opened now).sequence + s.chunk.toList.length = s.sequence + 1 := by
  rw [opened]
  cases hchunk : s.chunk <;> rfl

section begins

variable {s : Session} (hs : s.OpensLast) (now : Moment) (d : ChunkDirectory)

include hs

theorem OpensLast.rollover_begins : s.Begins (s.rollover now d).1 := by
  rw [rollover]
  cases hchunk : s.chunk with
  | none => exact .inl rfl
  | some chunk =>
    cases hclosing : d.refusals.closing with
    | some fault =>
      simp only [closeFile, hclosing]
      exact .inl rfl
    | none =>
      simp only [closeFile, hclosing]
      refine .inr ⟨s.commitOf chunk now, rfl, hs chunk hchunk, rfl, ?_⟩
      rw [hchunk]
      exact Nat.le_refl _

theorem OpensLast.tick_begins : s.Begins (s.tick now d).2.1 := by
  rw [tick]
  split
  · exact hs.rollover_begins now d
  · exact .inl rfl

theorem OpensLast.write_begins (datagram : Bytes) (samples : List Telemetry.Sample) :
    s.Begins (s.write datagram samples now d).2.1 := by
  have hrunning : (s.opened now).running = s.running := by
    rw [opened_eq]
  rw [write]
  rcases s.ensureChunk_cases now d with ⟨fault, hensure⟩ | ⟨chunk, d', hchunk, hensure⟩
  · rw [hensure]
    exact .inl rfl
  · rw [hensure]
    dsimp only
    cases d'.refusals.writing with
    | some fault => exact .inl hrunning
    | none =>
      let t : Session := { s.opened now with
        chunk := some ((chunk.write datagram now).addSamples samples)
        report := (s.opened now).report.addSamples samples.length }
      have ht : t.OpensLast := by
        rintro grown ⟨⟩
        exact hs.opened now chunk hchunk
      have hopened : t.sequence + s.chunk.toList.length = s.sequence + 1 := s.sequence_opened now
      rcases ht.tick_begins now d' with hsame | ⟨commit, hbegun, hsequence, hclosed, hnew⟩
      · exact .inl (hsame.trans hrunning)
      · refine .inr ⟨commit, hbegun.trans (congrArg (· ++ [commit]) hrunning), hsequence, hclosed, ?_⟩
        have hnew' : t.sequence + 1 ≤ (t.tick now d').2.1.sequence + 1 := hnew
        exact hopened.symm.le.trans (Nat.add_le_add_right (Nat.le_of_succ_le_succ hnew') _)

/-- An event begins one commit at most. -/
theorem OpensLast.step_begins (e : SessionEvent) : s.Begins (s.step e now d).2.1 := by
  cases e with
  | tick => exact hs.tick_begins now d
  | rollover | configure => exact hs.rollover_begins now d
  | datagram bytes =>
    change s.Begins (s.receive bytes now d).2.1
    rcases hpush : s.aligner.push bytes with ⟨fault | packets, aligner⟩
    · rw [receive, hpush]
      exact .inl rfl
    · rw [receive_eq_write hpush]
      have hread : (s.hasRead bytes packets aligner).OpensLast := hs
      exact hread.write_begins now d bytes _
  | shutdown =>
    change s.Begins (s.flush.rollover now d).1
    rw [flush]
    cases hchunk : s.chunk with
    | none => exact hs.rollover_begins now d
    | some chunk =>
      dsimp only
      let t : Session := { s with
        extractor := s.extractor.finish.2
        chunk := some (chunk.addSamples s.extractor.finish.1)
        report := s.report.addSamples s.extractor.finish.1.length }
      have ht : t.OpensLast := by
        rintro flushed ⟨⟩
        exact hs chunk hchunk
      have hbegins : t.Begins (t.rollover now d).1 := ht.rollover_begins now d
      rw [Begins, hchunk]
      exact hbegins

end begins

end Session

end StreamCatalog
