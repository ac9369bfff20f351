import StreamCatalog.Session.Basic

/-!
# The commits of a session

The commits of closed chunks run beside the reception and end in any order
(`Session.endCommit`); their results are counted afterwards
(`Session.countEnded`). A commit that breaks off has no result, and does not get to
removing its file (`Session.breakCommit`). `SessionSite.runCommits` runs the commits
to their ends one after the other.
-/

namespace StreamCatalog

/-- The result of a commit is counted. -/
def StreamReport.countResult (r : StreamReport) : Except CommitError Record → StreamReport
  | .ok _ => r.commitChunk
  | .error e => r.loseChunk e.message

/-- Each result counts as a chunk that was committed or lost. -/
theorem StreamReport.exists_counts_foldl_countResult (results : List (Except CommitError Record))
    (r : StreamReport) :
    ∃ committed lost, committed + lost = results.length ∧
      (results.foldl StreamReport.countResult r).counts =
        { r.counts with
          chunksCommitted := r.counts.chunksCommitted + committed
          chunksLost := r.counts.chunksLost + lost } := by
  induction results generalizing r with
  | nil => exact ⟨0, 0, rfl, rfl⟩
  | cons result results ih =>
    obtain ⟨committed, lost, hsum, hcounts⟩ := ih (r.countResult result)
    rw [List.foldl_cons, hcounts]
    cases result with
    | ok record =>
      refine ⟨committed + 1, lost, by rw [List.length_cons]; omega, ?_⟩
      rw [Nat.add_comm committed, ← Nat.add_assoc]
      rfl
    | error e =>
      refine ⟨committed, lost + 1, by rw [List.length_cons]; omega, ?_⟩
      rw [Nat.add_comm lost, ← Nat.add_assoc]
      rfl

namespace Session

/-- A commit has ended: the file of its chunk is removed. -/
def endCommit (i : Nat) (result : Except CommitError Record) (s : Session) (d : ChunkDirectory) :
    Session × ChunkDirectory :=
  match s.running[i]? with
  | none => (s, d)
  | some commit =>
    ({ s with running := s.running.eraseIdx i, ended := s.ended ++ [result] },
      d.remove commit.fileName)

/-- A commit has broken off, for the reason in the message. Its chunk counts as lost. -/
def breakCommit (i : Nat) (message : String) (s : Session) : Session :=
  match s.running[i]? with
  | none => s
  | some _ => { s with running := s.running.eraseIdx i, report := s.report.loseChunk message }

/-- Count the results of the commits that have ended. -/
def countEnded (s : Session) : Session :=
  { s with ended := [], report := s.ended.foldl StreamReport.countResult s.report }

end Session

/-- The commit of a chunk that starts now. Its file may be gone. -/
def ChunkCommit.task (c : ChunkCommit) (d : ChunkDirectory) (now : Instant) : CommitTask :=
  let bytes? := if d.contains c.fileName then some c.content else none
  ⟨c.action, c.chunk, ⟨c.fileName, bytes?⟩, now⟩

/-- A session with the directory and the catalog that it works on. -/
structure SessionSite (σ : Type) where
  /-- The session. -/
  session : Session
  /-- The directory of its chunks. -/
  directory : ChunkDirectory
  /-- What its commits share. -/
  commits : CommitState σ

namespace SessionSite

variable {σ : Type}

/-- Run one commit to its end. -/
def runCommit (C : Catalog σ) (now : Instant) (w : SessionSite σ) (commit : ChunkCommit) :
    SessionSite σ :=
  let (result, commits) := (commit.task w.directory now).run C w.commits
  let (session, directory) := w.session.endCommit 0 result w.directory
  ⟨session.countEnded, directory, commits⟩

/-- Run all commits to their ends, in the order in which their chunks were closed. -/
def runCommits (C : Catalog σ) (now : Instant) (w : SessionSite σ) : SessionSite σ :=
  w.session.running.foldl (runCommit C now) w

end SessionSite

end StreamCatalog
