import StreamCatalog.Proofs.Session.Faultless
import StreamCatalog.Session.Commits

/-!
# What chunks and commits leave alone

However chunks are opened, written and closed, and whatever becomes of their commits,
datagrams go on to be read and counted as before, and the state in the report is the
same (`Session.receiver`). What a session reads with, what it has taken in and its
state are parts of this.
-/

namespace StreamCatalog

/-- What reads and counts the datagrams of a session, and the state in its report. -/
structure Receiver where
  /-- Cuts datagrams into packets. -/
  aligner : Transport.Aligner
  /-- Counts what is wrong with packets. -/
  analyzer : Transport.Analyzer
  /-- Finds telemetry in packets. -/
  extractor : Telemetry.Extractor
  /-- The state. -/
  state : StreamState
  /-- Datagrams that were accepted. -/
  datagrams : Nat
  /-- Their bytes. -/
  bytesReceived : Nat
  /-- Datagrams that were refused. -/
  datagramsDropped : Nat
  /-- Gaps in continuity counters. -/
  continuityErrors : Nat

namespace Session

/-- What reads and counts the datagrams of a session. -/
def receiver (s : Session) : Receiver where
  aligner := s.aligner
  analyzer := s.analyzer
  extractor := s.extractor
  state := s.report.state
  datagrams := s.report.counts.datagrams
  bytesReceived := s.report.counts.bytesReceived
  datagramsDropped := s.report.counts.datagramsDropped
  continuityErrors := s.report.counts.continuityErrors

/-! ## Chunks -/

/-- The state is marked while a chunk is closed, and restored then. -/
theorem receiver_rollover (now : Moment) (s : Session) (d : ChunkDirectory) :
    (s.rollover now d).1.receiver = s.receiver := by
  rw [rollover]
  cases s.chunk with
  | none => rfl
  | some chunk =>
    have hrestored := congrArg Prod.snd (RolloverPhase.step_mark s.report.state)
    have hstate := congrArg (fun state => { s.receiver with state := state }) hrestored
    cases hclosing : d.refusals.closing with
    | none =>
      simp only [closeFile, hclosing]
      exact hstate
    | some fault =>
      simp only [closeFile, hclosing]
      exact hstate

theorem receiver_tick (now : Moment) (s : Session) (d : ChunkDirectory) :
    (s.tick now d).2.1.receiver = s.receiver := by
  rw [tick]
  split
  · exact receiver_rollover now s d
  · rfl

theorem receiver_opened (now : Moment) (s : Session) : (s.opened now).receiver = s.receiver := by
  rw [opened]
  cases s.chunk <;> rfl

theorem receiver_write (datagram : Bytes) (samples : List Telemetry.Sample) (now : Moment)
    (s : Session) (d : ChunkDirectory) :
    (s.write datagram samples now d).2.1.receiver = s.receiver := by
  rw [write]
  rcases s.ensureChunk_cases now d with ⟨fault, hensure⟩ | ⟨chunk, d', -, hensure⟩
  · rw [hensure]
    rfl
  · rw [hensure]
    dsimp only
    cases d'.refusals.writing with
    | some fault => exact s.receiver_opened now
    | none => exact (receiver_tick now _ d').trans (s.receiver_opened now)

/-! ## Commits -/

theorem receiver_endCommit (i : Nat) (result : Except CommitError Record) (s : Session)
    (d : ChunkDirectory) : (s.endCommit i result d).1.receiver = s.receiver := by
  rw [endCommit]
  split <;> rfl

theorem receiver_breakCommit (i : Nat) (message : String) (s : Session) :
    (s.breakCommit i message).receiver = s.receiver := by
  rw [breakCommit]
  split <;> rfl

theorem receiver_countEnded (s : Session) : s.countEnded.receiver = s.receiver := by
  have hcount (results : List (Except CommitError Record)) (report : StreamReport) :
      receiver { s with ended := [], report := results.foldl StreamReport.countResult report } =
        receiver { s with report := report } := by
    induction results generalizing report with
    | nil => rfl
    | cons result results ih =>
      refine (ih _).trans ?_
      cases result <;> rfl
  exact hcount s.ended s.report

end Session

end StreamCatalog
