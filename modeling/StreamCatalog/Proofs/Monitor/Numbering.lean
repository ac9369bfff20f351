import StreamCatalog.Catalog.Memory
import StreamCatalog.Proofs.Monitor.Configuration
import StreamCatalog.Proofs.Session.Conservation
import StreamCatalog.Proofs.Session.Moves

/-!
# The numbers of chunks over the life of a monitor

A monitor keeps its parent and its counts when it is stopped and started again, but
each start begins a new session, which numbers its chunks from one. So the number of
a chunk is its place among the chunks of its reception (`MonitorRun.numbered_within_receptions`), and
chunks of one parent may have the same number.
-/

namespace StreamCatalog

/-! ## Numbers within a session -/

/-- Whether chunks are numbered in the order in which they were opened, `earlier` of them having been
opened before the first. -/
structure ChunkBooks.Numbered (earlier : Nat) (b : ChunkBooks) : Prop where
  /-- The last number counts the chunks. -/
  started_eq : b.started = earlier + b.sequence
  /-- The open chunk has the last number. -/
  opensLast : ∀ chunk, b.chunk = some chunk → chunk.sequence = b.sequence
  /-- An open chunk is counted. -/
  length_le : b.chunk.toList.length ≤ b.sequence

/-- Nothing that becomes of a chunk changes the order of numbers. -/
theorem ChunkBooks.Numbered.of_move {earlier : Nat} {b b' : ChunkBooks} (hb : b.Numbered earlier)
    (h : ChunkMove b b') : b'.Numbered earlier := by
  obtain ⟨hstarted, hlast, hlength⟩ := hb
  cases h with
  | grows chunk grown isOpen fileName_eq sequence_eq =>
    rw [isOpen] at hlength
    refine ⟨hstarted, ?_, hlength⟩
    rintro _ ⟨⟩
    exact sequence_eq.trans (hlast chunk isOpen)
  | opens title now files isClosed files_eq =>
    refine ⟨congrArg (· + 1) hstarted, ?_, Nat.le_add_left _ _⟩
    rintro _ ⟨⟩
    rfl
  | hands | loses => exact ⟨hstarted, nofun, Nat.zero_le _⟩
  | fails | ends | breaks | counts => exact ⟨hstarted, hlast, hlength⟩

/-- No chunk that is closed is opened again. -/
theorem ChunkMove.sequence_add_le {b b' : ChunkBooks} (h : ChunkMove b b') :
    b.sequence + b'.chunk.toList.length ≤ b'.sequence + b.chunk.toList.length := by
  cases h with
  | grows chunk grown isOpen => rw [isOpen]; rfl
  | opens title now files isClosed => rw [isClosed]; rfl
  | hands | loses => exact Nat.add_le_add_left (Nat.zero_le _) _
  | fails | ends | breaks | counts => exact Nat.le_refl _

namespace ChunkBooks.Numbered

variable {earlier : Nat} {b b' : ChunkBooks}

theorem of_moves (hb : b.Numbered earlier) (h : ChunkMoves b b') :
    b'.Numbered earlier ∧
      b.sequence + b'.chunk.toList.length ≤ b'.sequence + b.chunk.toList.length := by
  induction h with
  | refl => exact ⟨hb, Nat.le_refl _⟩
  | tail _ hmove ih =>
    have hle := hmove.sequence_add_le
    refine ⟨ih.1.of_move hmove, ?_⟩
    omega

end ChunkBooks.Numbered

/-- The commits that a session runs to their ends end and are counted. -/
theorem SessionSite.runCommits_moves {σ : Type} (C : Catalog σ) (now : Instant) (w : SessionSite σ) :
    ChunkMoves (w.session.books w.directory 0 [])
      ((w.runCommits C now).session.books (w.runCommits C now).directory 0 []) := by
  rw [runCommits]
  generalize w.session.running = commits
  induction commits generalizing w with
  | nil => exact .refl
  | cons commit commits ih =>
    rw [List.foldl_cons]
    refine .trans ?_ (ih (w.runCommit C now commit))
    exact (w.session.endCommit_moves w.directory 0 [] 0 _).trans
      (Session.countEnded_moves _ _ 0 [])

/-! ## Runs of a monitor -/

/-- What happens to a monitor, its commits and its files. -/
inductive MonitorInput (σ : Type) where
  /-- The monitor is started, when `bound` are the addresses of the other sockets. -/
  | start (E : Environment σ) (bound : List SocketAddress)
  /-- The monitor is stopped. -/
  | stop (E : Environment σ)
  /-- Properties are changed. -/
  | update (E : Environment σ) (bound : List SocketAddress) (changes : Properties)
  /-- A datagram arrives. -/
  | datagram (bytes : Bytes) (now : Moment)
  /-- Time has passed. -/
  | tick (now : Moment)
  /-- A commit ends, and leaves a parent and the catalog. -/
  | ended (i : Nat) (result : Except CommitError Record) (parent : Option Record) (catalog : σ)
  /-- A commit breaks off. -/
  | broken (i : Nat) (message : String)
  /-- The results of commits are counted. -/
  | counted
  /-- The directory of the files is another one. -/
  | directory (d : ChunkDirectory)

namespace MonitorSite

variable {σ : Type}

/-- The monitor with its session after something. -/
def withSession (w : MonitorSite σ) (session : Session) : MonitorSite σ :=
  { w with monitor := { w.monitor with session := session } }

/-- The monitor after an input. -/
def after (w : MonitorSite σ) : MonitorInput σ → MonitorSite σ
  | .start E bound => (w.start E bound).2
  | .stop E => (w.stop E).2
  | .update E bound changes => (w.update E bound changes).2
  | .datagram bytes now => w.happen (.datagram bytes) now
  | .tick now => w.happen .tick now
  | .ended i result parent catalog =>
    let (session, directory) := w.monitor.session.endCommit i result w.directory
    ⟨{ w.monitor with session := session, parent := parent }, directory, catalog⟩
  | .broken i message => w.withSession (w.monitor.session.breakCommit i message)
  | .counted => w.withSession w.monitor.session.countEnded
  | .directory d => { w with directory := d }

/-- How many chunks the monitor has opened. -/
def opened (w : MonitorSite σ) : Nat := w.monitor.report.counts.chunksStarted

end MonitorSite

/-- A chunk whose commit has begun. -/
structure PlacedChunk where
  /-- The commit. -/
  commit : ChunkCommit
  /-- How many chunks the monitor had opened then, this one included. -/
  place : Nat
  /-- How many chunks the monitor had opened in earlier receptions. -/
  earlier : Nat

/-- The number of a chunk. -/
def PlacedChunk.number (p : PlacedChunk) : Nat := p.commit.chunk.sequence

/-- A monitor with all chunks whose commits have begun. -/
structure MonitorRun (σ : Type) where
  /-- The monitor. -/
  site : MonitorSite σ
  /-- How many chunks it had opened before its last start. -/
  earlier : Nat
  /-- The chunks, in the order in which their commits began. -/
  handed : List PlacedChunk

namespace MonitorRun

variable {σ : Type}

/-- A monitor that was never started. -/
def new (config : StreamConfig) (directory : ChunkDirectory) (catalog : σ) : MonitorRun σ :=
  ⟨⟨.new config, directory, catalog⟩, 0, []⟩

/-- Let something happen to the session. The commits that it begins are noted. -/
def happen (e : SessionEvent) (now : Moment) (r : MonitorRun σ) : MonitorRun σ :=
  let site := r.site.happen e now
  let begun := site.monitor.session.running.drop r.site.monitor.session.running.length
  ⟨site, r.earlier, r.handed ++ begun.map fun commit => ⟨commit, site.opened, r.earlier⟩⟩

/-- Start the monitor. If it does start, its chunks are earlier ones from now on. -/
def start (E : Environment σ) (bound : List SocketAddress) (r : MonitorRun σ) : MonitorRun σ :=
  match r.site.start E bound with
  | (.error _, site) => { r with site := site }
  | (.ok _, site) => ⟨site, r.site.opened, r.handed⟩

/-- Stop the monitor. The commit of its last chunk begins while it stops. -/
def stop (E : Environment σ) (r : MonitorRun σ) : MonitorRun σ :=
  let report := r.site.monitor.report.withState .stopping
  let stopping := { r with
    site := { r.site with monitor := r.site.monitor.withReport report } }
  { stopping.happen .shutdown E.now with site := (r.site.stop E).2 }

/-- The monitor with another configuration, which its session does not know of. -/
def withConfig (r : MonitorRun σ) (config : StreamConfig) : MonitorRun σ :=
  { r with site := r.site.withConfig config }

/-- Change properties. A monitor that moves to another address is stopped and started. -/
def update (E : Environment σ) (bound : List SocketAddress) (changes : Properties)
    (r : MonitorRun σ) : MonitorRun σ :=
  match r.site.monitor.config.merged changes with
  | .error _ => r
  | .ok config =>
    if r.site.monitor.receiving && r.site.monitor.config.addressChanged config then
      ((r.stop E).withConfig config).start E bound
    else (r.withConfig config).happen (.configure config) E.now

/-- The run after an input. -/
def step (r : MonitorRun σ) : MonitorInput σ → MonitorRun σ
  | .start E bound => r.start E bound
  | .stop E => r.stop E
  | .update E bound changes => r.update E bound changes
  | .datagram bytes now => r.happen (.datagram bytes) now
  | .tick now => r.happen .tick now
  | i => { r with site := r.site.after i }

/-- The run after several inputs. -/
def stepAll (r : MonitorRun σ) (is : List (MonitorInput σ)) : MonitorRun σ :=
  is.foldl step r

theorem site_start (E : Environment σ) (bound : List SocketAddress) (r : MonitorRun σ) :
    (r.start E bound).site = (r.site.start E bound).2 := by
  rw [start]
  split
  · next h => rw [h]
  · next h => rw [h]

theorem site_update (E : Environment σ) (bound : List SocketAddress) (changes : Properties)
    (r : MonitorRun σ) :
    (r.update E bound changes).site = (r.site.update E bound changes).2 := by
  cases hmerged : r.site.monitor.config.merged changes with
  | error e => rw [update, MonitorSite.update, hmerged]
  | ok config =>
    rw [update, MonitorSite.update_eq hmerged, hmerged]
    dsimp only
    split
    case isTrue h =>
      have hstop : (r.site.stop E).1 = .ok () := by
        rw [MonitorSite.stop, if_pos (Bool.and_eq_true_iff.1 h).1]
      rw [site_start]
      rcases hsite : r.site.stop E with ⟨result, site⟩
      rw [hsite] at hstop
      obtain rfl : result = .ok () := hstop
      simp only [withConfig, stop, hsite]
    case isFalse h => rfl

theorem site_step (r : MonitorRun σ) (i : MonitorInput σ) :
    (r.step i).site = r.site.after i := by
  cases i with
  | start E bound => exact site_start E bound r
  | update E bound changes => exact site_update E bound changes r
  | stop | datagram | tick | ended | broken | counted | directory => rfl

theorem site_stepAll (r : MonitorRun σ) (is : List (MonitorInput σ)) :
    (r.stepAll is).site = is.foldl MonitorSite.after r.site := by
  induction is generalizing r with
  | nil => rfl
  | cons i is ih =>
    rw [List.foldl_cons, ← site_step]
    exact ih (r.step i)

/-! ## Numbers over the life of a monitor -/

/-- What counts for the chunks. -/
def books (r : MonitorRun σ) : ChunkBooks := r.site.monitor.session.books r.site.directory 0 []

/-- Whether chunks are numbered within their receptions. -/
structure Numbered (r : MonitorRun σ) : Prop where
  /-- The session numbers its chunks. -/
  session : r.books.Numbered r.earlier
  /-- The place of a chunk is its number behind all chunks of earlier receptions. -/
  place_eq : ∀ p ∈ r.handed, p.place = p.earlier + p.number
  /-- The numbers are positive. -/
  number_pos : ∀ p ∈ r.handed, 0 < p.number
  /-- The places are those of chunks that are closed. -/
  place_le : ∀ p ∈ r.handed, p.place + r.books.chunk.toList.length ≤ r.site.opened
  /-- A chunk is of the last reception, or was closed before it. -/
  apart : ∀ p ∈ r.handed, p.earlier = r.earlier ∨ p.place ≤ r.earlier
  /-- Chunks have places in the order of their commits, and receptions do not meet. -/
  ordered : r.handed.Pairwise fun p q =>
    p.place < q.place ∧ (p.earlier = q.earlier ∨ p.place ≤ q.earlier)

namespace Numbered

variable {r : MonitorRun σ}

theorem new (config : StreamConfig) (directory : ChunkDirectory) (catalog : σ) :
    (MonitorRun.new config directory catalog).Numbered where
  session := ⟨rfl, nofun, Nat.le_refl _⟩
  place_eq := nofun
  number_pos := nofun
  place_le := nofun
  apart := nofun
  ordered := .nil

/-- What becomes of chunks, no commit being begun, leaves the numbers as they are. -/
theorem of_moves (h : r.Numbered) {site : MonitorSite σ} {failed : Nat} {left : List String}
    (hmoves : ChunkMoves r.books (site.monitor.session.books site.directory failed left)) :
    Numbered { r with site := site } where
  session := by
    obtain ⟨hstarted, hlast, hlength⟩ := (h.session.of_moves hmoves).1
    exact ⟨hstarted, hlast, hlength⟩
  place_eq := h.place_eq
  number_pos := h.number_pos
  place_le p hp := by
    obtain ⟨hsession, hle⟩ := h.session.of_moves hmoves
    have hplace : p.place + r.books.chunk.toList.length ≤ r.books.started := h.place_le p hp
    rw [h.session.started_eq] at hplace
    change p.place + (site.monitor.session.books site.directory failed left).chunk.toList.length ≤
      (site.monitor.session.books site.directory failed left).started
    rw [hsession.started_eq]
    omega
  apart := h.apart
  ordered := h.ordered

/-- The chunk that is closed last has the last place. -/
theorem hand (h : r.Numbered) {commit : ChunkCommit}
    (hnumber : commit.chunk.sequence = r.site.monitor.session.sequence)
    (hclosed : r.site.monitor.session.chunk = none)
    (hpos : 0 < r.site.monitor.session.sequence) (hnew : ∀ p ∈ r.handed, p.place < r.site.opened) :
    Numbered { r with handed := r.handed ++ [⟨commit, r.site.opened, r.earlier⟩] } := by
  have hopened : r.site.opened = r.earlier + commit.chunk.sequence := by
    rw [hnumber]
    exact h.session.started_eq
  have hlast {P : PlacedChunk → Prop} (hP : ∀ p ∈ r.handed, P p)
      (hplaced : P ⟨commit, r.site.opened, r.earlier⟩) :
      ∀ p ∈ r.handed ++ [⟨commit, r.site.opened, r.earlier⟩], P p := by
    intro p hp
    rcases List.mem_append.1 hp with hp | hp
    · exact hP p hp
    · rw [List.mem_singleton.1 hp]
      exact hplaced
  constructor
  case session => exact h.session
  case place_eq => exact hlast h.place_eq hopened
  case number_pos => exact hlast h.number_pos (hpos.trans_eq hnumber.symm)
  case place_le =>
    refine hlast h.place_le ?_
    change r.site.opened + r.site.monitor.session.chunk.toList.length ≤ _
    rw [hclosed]
    exact Nat.le_refl _
  case apart => exact hlast h.apart (.inl rfl)
  case ordered =>
    refine List.pairwise_append.2 ⟨h.ordered, List.pairwise_singleton _ _, fun p hp q hq => ?_⟩
    rw [List.mem_singleton.1 hq]
    exact ⟨hnew p hp, h.apart p hp⟩

/-- An event gives the chunk whose commit it begins the last place. -/
theorem happen (h : r.Numbered) (e : SessionEvent) (now : Moment) : (r.happen e now).Numbered := by
  by_cases hreceiving : r.site.monitor.receiving
  case neg =>
    have hsame : r.happen e now = r := by
      rw [MonitorRun.happen, MonitorSite.happen, if_neg hreceiving]
      simp
    rw [hsame]
    exact h
  let s := r.site.monitor.session
  let t := (s.step e now r.site.directory).2.1
  have hsite : r.site.happen e now = ⟨{ r.site.monitor with session := t },
      (s.step e now r.site.directory).2.2, r.site.catalog⟩ := by
    rw [MonitorSite.happen, if_pos hreceiving]
  have hnext : Numbered { r with site := r.site.happen e now } := by
    rw [hsite]
    exact h.of_moves (s.step_moves now r.site.directory 0 [] e)
  have hsession : (r.site.happen e now).monitor.session = t := by
    rw [hsite]
  have hlast : s.OpensLast := h.session.opensLast
  rcases hlast.step_begins now r.site.directory e with
    hsame | ⟨commit, hbegun, hnumber, hclosed, hnew⟩
  · have hdrop : (r.site.happen e now).monitor.session.running.drop
        r.site.monitor.session.running.length = [] := by
      rw [hsession, hsame, List.drop_length]
    simp only [MonitorRun.happen, hdrop, List.map_nil, List.append_nil]
    exact hnext
  · have hdrop : (r.site.happen e now).monitor.session.running.drop
        r.site.monitor.session.running.length = [commit] := by
      rw [hsession, hbegun, List.drop_left]
    have hlength : s.chunk.toList.length ≤ s.sequence := h.session.length_le
    have hnew : s.sequence + 1 ≤ t.sequence + s.chunk.toList.length := hnew
    have hopened : (r.site.happen e now).opened = r.earlier + t.sequence := by
      rw [← hsession]
      exact hnext.session.started_eq
    simp only [MonitorRun.happen, hdrop, List.map_singleton]
    refine hnext.hand (hnumber.trans (congrArg (·.sequence) hsession.symm))
      ((congrArg (·.chunk) hsession).trans hclosed) ?_ fun p hp => ?_
    · rw [hsession]
      omega
    · have hplace : p.place + s.chunk.toList.length ≤ r.books.started := h.place_le p hp
      have hbefore : r.books.started = r.earlier + s.sequence := h.session.started_eq
      change p.place < (r.site.happen e now).opened
      omega

/-- The directory of the files does not count. -/
theorem withDirectory (h : r.Numbered) (directory : ChunkDirectory) :
    Numbered { r with site := { r.site with directory := directory } } :=
  ⟨⟨h.session.started_eq, h.session.opensLast, h.session.length_le⟩, h.place_eq, h.number_pos,
    h.place_le, h.apart, h.ordered⟩

/-- A start that succeeds makes all chunks earlier ones. -/
theorem start (h : r.Numbered) (E : Environment σ) (bound : List SocketAddress) :
    (r.start E bound).Numbered := by
  cases hreceiving : r.site.monitor.receiving with
  | true =>
    simp only [MonitorRun.start, MonitorSite.start, hreceiving, if_true]
    exact h
  | false =>
    rw [MonitorRun.start]
    rcases r.site.start_cases E bound hreceiving with
      ⟨e, directory, -, hstart⟩ | ⟨address, directory, -, hstart⟩
    · rw [hstart]
      let report := (r.site.monitor.report.fail e.message).withState .stopped
      let stopped : MonitorRun σ :=
        { r with site := { r.site with monitor := r.site.monitor.withReport report } }
      have hstopped : stopped.Numbered := h.of_moves .refl
      exact hstopped.withDirectory directory
    · have hplace (p : PlacedChunk) (hp : p ∈ r.handed) : p.place ≤ r.site.opened :=
        (Nat.le_add_right _ _).trans (h.place_le p hp)
      rw [hstart]
      exact ⟨⟨rfl, fun c hc => absurd hc (Option.not_mem_none c), Nat.le_refl _⟩, h.place_eq,
        h.number_pos, hplace, fun p hp => .inr (hplace p hp), h.ordered⟩

theorem stop (h : r.Numbered) (E : Environment σ) : (r.stop E).Numbered := by
  let report := r.site.monitor.report.withState .stopping
  let stopping : MonitorRun σ :=
    { r with site := { r.site with monitor := r.site.monitor.withReport report } }
  have hstopping : stopping.Numbered := h.of_moves .refl
  have hshutdown := hstopping.happen .shutdown E.now
  have hmoves : ChunkMoves (stopping.happen .shutdown E.now).books
      ((r.site.stop E).2.monitor.session.books (r.site.stop E).2.directory 0 []) := by
    cases hreceiving : r.site.monitor.receiving with
    | true =>
      simp only [MonitorSite.stop, hreceiving, if_true]
      exact SessionSite.runCommits_moves E.catalog E.now.wall
        (stopping.site.happen .shutdown E.now).sessionSite
    | false =>
      have hidle : ¬ stopping.site.monitor.receiving = true := by
        rw [← Bool.not_eq_true] at hreceiving
        exact hreceiving
      simp only [MonitorSite.stop, hreceiving, Bool.false_eq_true, if_false, books,
        MonitorRun.happen, MonitorSite.happen, if_neg hidle]
      exact .refl
  exact hshutdown.of_moves hmoves

theorem update (h : r.Numbered) (E : Environment σ) (bound : List SocketAddress)
    (changes : Properties) : (r.update E bound changes).Numbered := by
  rw [MonitorRun.update]
  split
  · exact h
  · next config _ =>
    split
    · have hstopped := h.stop E
      have hrenewed : ((r.stop E).withConfig config).Numbered := hstopped.of_moves .refl
      exact hrenewed.start E bound
    · have hrenewed : (r.withConfig config).Numbered := h.of_moves .refl
      exact hrenewed.happen _ _

theorem step (h : r.Numbered) (i : MonitorInput σ) : (r.step i).Numbered := by
  cases i with
  | start E bound => exact h.start E bound
  | stop E => exact h.stop E
  | update E bound changes => exact h.update E bound changes
  | datagram bytes now => exact h.happen _ now
  | tick now => exact h.happen _ now
  | ended i result parent catalog => exact h.of_moves (Session.endCommit_moves _ _ 0 [] i result)
  | broken i message => exact h.of_moves (Session.breakCommit_moves _ _ 0 [] i message)
  | counted => exact h.of_moves (Session.countEnded_moves _ _ 0 [])
  | directory d => exact h.withDirectory d

theorem stepAll (h : r.Numbered) (is : List (MonitorInput σ)) : (r.stepAll is).Numbered := by
  induction is generalizing r with
  | nil => exact h
  | cons i is ih => exact ih (h.step i)

end Numbered

/-- Whatever is done with a monitor, a chunk has the number that is its place in its reception, behind
all chunks of earlier receptions. So numbers grow within a reception, and the number of a chunk is its
place in the life of the monitor only if no chunk was opened in an earlier reception. -/
theorem numbered_within_receptions (config : StreamConfig) (directory : ChunkDirectory) (catalog : σ)
    (is : List (MonitorInput σ)) :
    let r := (new config directory catalog).stepAll is
    r.site = is.foldl MonitorSite.after ⟨.new config, directory, catalog⟩ ∧
      (∀ p ∈ r.handed, 0 < p.number ∧ p.place = p.earlier + p.number ∧
        (p.number = p.place ↔ p.earlier = 0)) ∧
      (r.handed.Pairwise fun p q =>
        p.place < q.place ∧ (p.earlier = q.earlier ∧ p.number < q.number ∨ p.place ≤ q.earlier)) ∧
      ((∀ p ∈ r.handed, p.earlier = 0) → (r.handed.map (·.number)).Nodup) := by
  intro r
  have hr : r.Numbered := (Numbered.new config directory catalog).stepAll is
  have hplace := hr.place_eq
  refine ⟨site_stepAll _ is, fun p hp => ⟨hr.number_pos p hp, hplace p hp, ?_⟩, ?_, fun hfirst => ?_⟩
  · have hpplace := hplace p hp
    omega
  · refine hr.ordered.imp_of_mem fun {p q} hp hq hpq => ⟨hpq.1, ?_⟩
    have hpplace := hplace p hp
    have hqplace := hplace q hq
    omega
  · refine List.pairwise_map.2 (hr.ordered.imp_of_mem fun {p q} hp hq hpq => ?_)
    have hpplace := hplace p hp
    have hqplace := hplace q hq
    have hpfirst := hfirst p hp
    have hqfirst := hfirst q hq
    omega

/-- Two chunks of one monitor, with the same number and the same parent. -/
theorem number_repeated_after_restart :
    let E (nanos : Nat) : Environment MemoryCatalog :=
      ⟨MemoryCatalog.catalog, .isolated, ⟨⟨0, 0⟩, nanos⟩⟩
    let datagram (nanos : Nat) : MonitorInput MemoryCatalog :=
      .datagram Transport.nullPacket (E nanos).now
    let r := (new (SessionRun.sampleConfig "alpha" 1000) .missing .empty).stepAll
      [.start (E 0) [], datagram 1, .stop (E 2), .start (E 3) [], datagram 4, .stop (E 5)]
    r.handed.map (fun p => (p.place, p.number)) = [(1, 1), (2, 1)] ∧
      (r.site.catalog.records.toList.filter (·.2.kind = .child)).map (fun child =>
          (child.2.text? AttributeName.title, child.2.list? AttributeName.derived)) =
        [(some "alpha chunk 1", some ["parent-1"]), (some "alpha chunk 1", some ["parent-1"])] := by
  decide +kernel

end MonitorRun

end StreamCatalog
