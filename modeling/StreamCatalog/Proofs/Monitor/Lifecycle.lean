import Mathlib.Logic.Relation
import StreamCatalog.Proofs.Commit.Parent
import StreamCatalog.Proofs.Monitor.Numbering
import StreamCatalog.Proofs.Session.Receiver

/-!
# The life of a monitor

A monitor receives its stream exactly while its socket is bound, and exactly while
its state is not `stopped`. Reception, address and state are set at different places of
a start, a stop and a change of properties, which may fail in between; after each
of these calls they agree (`MonitorSite.Lifecycle`), whatever the network and the file
system answer and whatever the session and the commits have done since the call before.
-/

namespace StreamCatalog

/-- Whether an error is a refusal of the system: there is no directory of chunks, or no socket. -/
def MonitorError.isRefusal : MonitorError → Bool
  | bind _ _ | io _ => true
  | invalidState _ _ | config _ | notFound _ | alreadyExists _ => false

/-- What keeps a socket from being bound is a refusal. -/
theorem MonitorSite.isRefusal_of_bind {network : Network} {bound : List SocketAddress}
    {address : SocketAddress} {d : ChunkDirectory} {e : MonitorError}
    (h : (bind network bound address d).1 = .error e) : e.isRefusal = true := by
  rw [bind] at h
  split at h
  next =>
    cases h
    rfl
  next =>
    split at h
    next =>
      cases h
      rfl
    next =>
      cases h
      rfl
    next => cases h

/-! ## What a session does to the state -/

namespace Session

theorem state_of_receiver_eq {s t : Session} (h : s.receiver = t.receiver) :
    s.report.state = t.report.state :=
  congrArg Receiver.state h

/-- No event leaves another state behind. -/
theorem state_step (e : SessionEvent) (now : Moment) (s : Session) (d : ChunkDirectory) :
    (s.step e now d).2.1.report.state = s.report.state := by
  cases e with
  | tick => exact state_of_receiver_eq (s.receiver_tick now d)
  | rollover | configure => exact state_of_receiver_eq (s.receiver_rollover now d)
  | shutdown =>
    have hflush : s.flush.report.state = s.report.state := by
      rw [flush]
      cases s.chunk <;> rfl
    exact (state_of_receiver_eq (s.flush.receiver_rollover now d)).trans hflush
  | datagram bytes =>
    change (s.receive bytes now d).2.1.report.state = _
    rcases hpush : s.aligner.push bytes with ⟨fault | packets, aligner⟩
    · rw [receive, hpush]
      rfl
    · rw [receive_eq_write hpush, state_of_receiver_eq (receiver_write ..)]
      rfl

end Session

/-! ## What the file system refuses -/

namespace Session

theorem makingFault?_rollover (now : Moment) (s : Session) (d : ChunkDirectory) :
    (s.rollover now d).2.makingFault? = d.makingFault? := by
  rw [rollover]
  cases s.chunk with
  | none => rfl
  | some chunk =>
    cases hclosing : d.refusals.closing with
    | none => simp only [closeFile, hclosing]
    | some fault => simp only [closeFile, hclosing, ChunkDirectory.makingFault?_remove]

theorem makingFault?_endCommit (i : Nat) (result : Except CommitError Record) (s : Session)
    (d : ChunkDirectory) : (s.endCommit i result d).2.makingFault? = d.makingFault? := by
  rw [endCommit]
  cases s.running[i]? with
  | none => rfl
  | some commit => exact d.makingFault?_remove commit.fileName

end Session

theorem SessionSite.makingFault?_runCommits {σ : Type} (C : Catalog σ) (now : Instant)
    (w : SessionSite σ) :
    (w.runCommits C now).directory.makingFault? = w.directory.makingFault? := by
  rw [runCommits]
  generalize w.session.running = commits
  induction commits generalizing w with
  | nil => rfl
  | cons commit commits ih =>
    rw [List.foldl_cons, ih]
    exact w.session.makingFault?_endCommit 0 _ w.directory

/-! ## Coherence -/

namespace Monitor

/-- Whether reception, address and state of a monitor agree. -/
structure IsCoherent (m : Monitor) : Prop where
  /-- The socket is bound while the stream is received. -/
  bound_eq : m.localAddress.isSome = m.receiving
  /-- The state is not `stopped` while the stream is received. -/
  state_iff : m.state ≠ .stopped ↔ m.receiving = true

theorem isCoherent_new (config : StreamConfig) : (new config).IsCoherent where
  bound_eq := rfl
  state_iff := iff_of_false (not_not_intro rfl) Bool.false_ne_true

/-- What keeps reception and address, and neither stops nor starts the stream, keeps a monitor
coherent. -/
theorem IsCoherent.of_eq {m n : Monitor} (h : m.IsCoherent)
    (haddress : n.localAddress = m.localAddress) (hreceiving : n.receiving = m.receiving)
    (hstate : n.state = .stopped ↔ m.state = .stopped) : n.IsCoherent where
  bound_eq := by rw [haddress, hreceiving, h.bound_eq]
  state_iff := by rw [hreceiving, ← h.state_iff, ne_eq, hstate]

end Monitor

/-- A call on a monitor. -/
inductive MonitorCall where
  /-- To receive the stream. -/
  | start
  /-- To end the reception. -/
  | stop
  /-- To change properties. -/
  | update (changes : Properties)

namespace MonitorSite

variable {σ : Type} {C : Catalog σ} {K : C.Keeper}

/-- The answer to a call, and the monitor after it. -/
def call (E : Environment σ) (bound : List SocketAddress) (w : MonitorSite σ) :
    MonitorCall → Except MonitorError Unit × MonitorSite σ
  | .start => w.start E bound
  | .stop => w.stop E
  | .update changes => w.update E bound changes

/-- What the commits of the monitor share. -/
def commits (w : MonitorSite σ) : CommitState σ := ⟨w.monitor.parent, w.catalog⟩

/-- The monitor after something that concerns its commits. -/
def withCommits (w : MonitorSite σ) (s : CommitState σ) : MonitorSite σ :=
  { w with monitor := { w.monitor with parent := s.parent }, catalog := s.catalog }

/-! ## Single calls -/

section calls

variable (E : Environment σ) (bound : List SocketAddress) (w : MonitorSite σ)

theorem start_of_receiving (h : w.monitor.receiving = true) :
    w.start E bound = (.error (.invalidState .start w.monitor.state), w) := by
  rw [start, if_pos h]

theorem stop_of_idle (h : w.monitor.receiving = false) :
    w.stop E = (.error (.invalidState .stop w.monitor.state), w) := by
  rw [stop, if_neg (by rw [h]; exact Bool.false_ne_true)]

/-- A start that is allowed receives the stream, or leaves it stopped. -/
theorem start_of_idle (h : w.monitor.receiving = false) :
    (∃ e, (bind E.network bound w.monitor.config.address w.directory).1 = .error e ∧
        (w.start E bound).1 = .error e ∧
        (w.start E bound).2.monitor.localAddress = w.monitor.localAddress ∧
        (w.start E bound).2.monitor.receiving = false ∧
        (w.start E bound).2.monitor.state = .stopped) ∨
      ∃ address, (bind E.network bound w.monitor.config.address w.directory).1 = .ok address ∧
        (w.start E bound).1 = .ok () ∧
        (w.start E bound).2.monitor.localAddress = some address ∧
        (w.start E bound).2.monitor.receiving = true ∧
        (w.start E bound).2.monitor.state = .monitoring := by
  rcases w.start_cases E bound h with
    ⟨e, directory, hbind, hstart⟩ | ⟨address, directory, hbind, hstart⟩
  · rw [hbind, hstart]
    exact .inl ⟨e, rfl, rfl, rfl, h, rfl⟩
  · rw [hbind, hstart]
    exact .inr ⟨address, rfl, rfl, rfl, rfl, rfl⟩

/-- A stop that is allowed leaves the stream stopped. -/
theorem stop_of_receiving (h : w.monitor.receiving = true) :
    (w.stop E).1 = .ok () ∧ (w.stop E).2.monitor.localAddress = none ∧
      (w.stop E).2.monitor.receiving = false ∧ (w.stop E).2.monitor.state = .stopped := by
  rw [stop, if_pos h]
  exact ⟨rfl, rfl, rfl, rfl⟩

/-- A stop leaves the directory as hard to make as it was. -/
theorem makingFault?_stop : (w.stop E).2.directory.makingFault? = w.directory.makingFault? := by
  cases hreceiving : w.monitor.receiving with
  | false => rw [w.stop_of_idle E hreceiving]
  | true =>
    rw [stop, if_pos hreceiving]
    refine (SessionSite.makingFault?_runCommits ..).trans ?_
    rw [happen]
    split
    · exact Session.makingFault?_rollover ..
    · rfl

/-- A stream that is received and gets another address is stopped, and started there. -/
theorem update_of_moved {changes : Properties} {config : StreamConfig}
    (hmerged : w.monitor.config.merged changes = .ok config) (h : w.monitor.receiving = true)
    (hchanged : w.monitor.config.addressChanged config = true) :
    w.update E bound changes = ((w.stop E).2.withConfig config).start E bound := by
  have hstop := (w.stop_of_receiving E h).1
  rw [update_eq hmerged, h, hchanged]
  rcases hstopped : w.stop E with ⟨_ | _, stopped⟩
  · rw [hstopped] at hstop
    cases hstop
  · rfl

/-- Any other stream goes on. -/
theorem update_of_kept {changes : Properties} {config : StreamConfig}
    (hmerged : w.monitor.config.merged changes = .ok config)
    (h : w.monitor.receiving = true → w.monitor.config.addressChanged config = false) :
    w.update E bound changes =
      (.ok (), (w.withConfig config).happen (.configure config) E.now) := by
  rw [update_eq hmerged]
  refine if_neg fun hmoved => ?_
  obtain ⟨hreceiving, hchanged⟩ := Bool.and_eq_true_iff.1 hmoved
  exact Bool.false_ne_true ((h hreceiving).symm.trans hchanged)

/-- Properties that make no configuration change nothing. -/
theorem update_of_error {changes : Properties} {e : ConfigError}
    (hmerged : w.monitor.config.merged changes = .error e) :
    w.update E bound changes = (.error (.config e), w) := by
  rw [update, hmerged]

/-- The ways in which a change of properties can go. -/
theorem update_cases (changes : Properties) :
    (∃ e, w.monitor.config.merged changes = .error e) ∨
      ∃ config, w.monitor.config.merged changes = .ok config ∧
        ((w.monitor.receiving = true ∧ w.monitor.config.addressChanged config = true) ∨
          (w.monitor.receiving = true → w.monitor.config.addressChanged config = false)) := by
  cases w.monitor.config.merged changes with
  | error e => exact .inl ⟨e, rfl⟩
  | ok config =>
    refine .inr ⟨config, rfl, ?_⟩
    cases w.monitor.config.addressChanged config with
    | false => exact .inr fun _ => rfl
    | true =>
      cases w.monitor.receiving with
      | false => exact .inr nofun
      | true => exact .inl ⟨rfl, rfl⟩

theorem happen_of_receiving (h : w.monitor.receiving = true) (e : SessionEvent) (now : Moment) :
    w.happen e now =
      { w.withSession (w.monitor.session.step e now w.directory).2.1 with
        directory := (w.monitor.session.step e now w.directory).2.2 } := by
  rw [happen, if_pos h]
  rfl

theorem happen_of_idle (h : w.monitor.receiving = false) (e : SessionEvent) (now : Moment) :
    w.happen e now = w := by
  rw [happen, if_neg (by rw [h]; exact Bool.false_ne_true)]

@[simp] theorem commits_happen (e : SessionEvent) (now : Moment) :
    (w.happen e now).commits = w.commits := by
  rw [happen]
  split <;> rfl

@[simp] theorem commits_start : (w.start E bound).2.commits = w.commits := by
  rw [start]
  dsimp only
  split
  · rfl
  · split <;> rfl

end calls

/-! ## Calls keep monitors coherent -/

section coherent

variable {w : MonitorSite σ}

theorem isCoherent_happen (h : w.monitor.IsCoherent) (e : SessionEvent) (now : Moment) :
    (w.happen e now).monitor.IsCoherent := by
  cases hreceiving : w.monitor.receiving with
  | false => rwa [w.happen_of_idle hreceiving]
  | true =>
    rw [w.happen_of_receiving hreceiving]
    have hstate := w.monitor.session.state_step e now w.directory
    exact h.of_eq rfl rfl (iff_of_eq (congrArg (· = StreamState.stopped) hstate))

theorem isCoherent_start (h : w.monitor.IsCoherent) (E : Environment σ)
    (bound : List SocketAddress) : (w.start E bound).2.monitor.IsCoherent := by
  cases hreceiving : w.monitor.receiving with
  | true => rwa [w.start_of_receiving E bound hreceiving]
  | false =>
    rcases w.start_of_idle E bound hreceiving with
      ⟨fault, -, -, haddress, hafter, hstate⟩ | ⟨address, -, -, haddress, hafter, hstate⟩
    · refine ⟨by rw [haddress, hafter, h.bound_eq, hreceiving], ?_⟩
      rw [hstate, hafter]
      exact iff_of_false (not_not_intro rfl) Bool.false_ne_true
    · refine ⟨by rw [haddress, hafter]; rfl, ?_⟩
      rw [hstate, hafter]
      exact iff_of_true nofun rfl

theorem isCoherent_stop (h : w.monitor.IsCoherent) (E : Environment σ) :
    (w.stop E).2.monitor.IsCoherent := by
  cases hreceiving : w.monitor.receiving with
  | false => rwa [w.stop_of_idle E hreceiving]
  | true =>
    obtain ⟨-, haddress, hafter, hstate⟩ := w.stop_of_receiving E hreceiving
    refine ⟨by rw [haddress, hafter]; rfl, ?_⟩
    rw [hstate, hafter]
    exact iff_of_false (not_not_intro rfl) Bool.false_ne_true

theorem isCoherent_withConfig (h : w.monitor.IsCoherent) (config : StreamConfig) :
    (w.withConfig config).monitor.IsCoherent :=
  h.of_eq rfl rfl Iff.rfl

theorem isCoherent_update (h : w.monitor.IsCoherent) (E : Environment σ)
    (bound : List SocketAddress) (changes : Properties) :
    (w.update E bound changes).2.monitor.IsCoherent := by
  rcases w.update_cases changes with
    ⟨e, hmerged⟩ | ⟨config, hmerged, ⟨hreceiving, hchanged⟩ | hkept⟩
  · rwa [w.update_of_error E bound hmerged]
  · rw [w.update_of_moved E bound hmerged hreceiving hchanged]
    exact isCoherent_start (isCoherent_withConfig (isCoherent_stop h E) config) E bound
  · rw [w.update_of_kept E bound hmerged hkept]
    exact isCoherent_happen (isCoherent_withConfig h config) _ _

/-- A monitor that was coherent before a call is so after it. -/
theorem isCoherent_call (h : w.monitor.IsCoherent) (E : Environment σ)
    (bound : List SocketAddress) (c : MonitorCall) : (w.call E bound c).2.monitor.IsCoherent := by
  cases c with
  | start => exact isCoherent_start h E bound
  | stop => exact isCoherent_stop h E
  | update changes => exact isCoherent_update h E bound changes

end coherent

/-! ## Calls that fail -/

/-- A start that fails is refused, or finds the stream received. -/
theorem start_error {E : Environment σ} {bound : List SocketAddress} {w : MonitorSite σ}
    {e : MonitorError} (h : (w.start E bound).1 = .error e) :
    (w.monitor.receiving = false ∧
        (bind E.network bound w.monitor.config.address w.directory).1 = .error e ∧
        (w.start E bound).2.monitor.receiving = false ∧
        (w.start E bound).2.monitor.state = .stopped) ∨
      (w.monitor.receiving = true ∧ e = .invalidState .start w.monitor.state ∧
        (w.start E bound).2 = w) := by
  cases hreceiving : w.monitor.receiving with
  | true =>
    rw [w.start_of_receiving E bound hreceiving] at h ⊢
    cases h
    exact .inr ⟨rfl, rfl, rfl⟩
  | false =>
    rcases w.start_of_idle E bound hreceiving with
      ⟨fault, hbind, hresult, -, hafter, hstate⟩ | ⟨address, -, hresult, -⟩
    · cases hresult.symm.trans h
      exact .inl ⟨rfl, hbind, hafter, hstate⟩
    · cases hresult.symm.trans h

/-- A change of properties that fails is one that was to move a stream that was received, and is
refused: the stream is not received any more. Or it changes nothing. -/
theorem update_error {E : Environment σ} {bound : List SocketAddress} {w : MonitorSite σ}
    {changes : Properties} {e : MonitorError} (h : (w.update E bound changes).1 = .error e) :
    (∃ config, w.monitor.receiving = true ∧ w.monitor.config.merged changes = .ok config ∧
        w.monitor.config.addressChanged config = true ∧
        (bind E.network bound config.address w.directory).1 = .error e ∧
        (w.update E bound changes).2.monitor.config = config ∧
        (w.update E bound changes).2.monitor.receiving = false ∧
        (w.update E bound changes).2.monitor.state = .stopped) ∨
      ∃ fault, e = .config fault ∧ (w.update E bound changes).2 = w := by
  rcases w.update_cases changes with
    ⟨fault, hmerged⟩ | ⟨config, hmerged, ⟨hreceiving, hchanged⟩ | hkept⟩
  · rw [w.update_of_error E bound hmerged] at h ⊢
    cases h
    exact .inr ⟨fault, rfl, rfl⟩
  · rw [w.update_of_moved E bound hmerged hreceiving hchanged] at h ⊢
    have hidle := (w.stop_of_receiving E hreceiving).2.2.1
    rcases start_error h with ⟨-, hbind, hafter, hstate⟩ | ⟨hrunning, -⟩
    · have hrefused := (bind_congr E.network bound config.address (w.makingFault?_stop E)).symm
      exact .inl ⟨config, hreceiving, hmerged, hchanged, hrefused.trans hbind, config_start ..,
        hafter, hstate⟩
    · cases hidle.symm.trans hrunning
  · rw [w.update_of_kept E bound hmerged hkept] at h
    cases h

/-- A call that fails is refused and leaves the stream stopped, or changes nothing. -/
theorem call_error {E : Environment σ} {bound : List SocketAddress} {w : MonitorSite σ}
    {c : MonitorCall} {e : MonitorError} (h : (w.call E bound c).1 = .error e) :
    (e.isRefusal = true ∧ (w.call E bound c).2.monitor.receiving = false ∧
        (w.call E bound c).2.monitor.state = .stopped) ∨
      (e.isRefusal = false ∧ (w.call E bound c).2 = w) := by
  cases c with
  | start =>
    rcases start_error h with ⟨-, hbind, hafter⟩ | ⟨-, rfl, hsame⟩
    · exact .inl ⟨isRefusal_of_bind hbind, hafter⟩
    · exact .inr ⟨rfl, hsame⟩
  | stop =>
    cases hreceiving : w.monitor.receiving with
    | true => cases (w.stop_of_receiving E hreceiving).1.symm.trans h
    | false =>
      rw [call, w.stop_of_idle E hreceiving] at h ⊢
      cases h
      exact .inr ⟨rfl, rfl⟩
  | update changes =>
    rcases update_error h with ⟨config, -, -, -, hbind, -, hafter⟩ | ⟨fault, rfl, hsame⟩
    · exact .inl ⟨isRefusal_of_bind hbind, hafter⟩
    · exact .inr ⟨rfl, hsame⟩

/-! ## Calls keep the parent -/

section parent

open Catalog.Keeper

variable {w : MonitorSite σ} (E : Environment σ) {K : E.catalog.Keeper}

theorem keepsParent_runCommits (h : K.NamesParent w.commits) :
    K.KeepsParent w.commits (w.runCommits E).commits := by
  have hrun : ∀ (commits : List ChunkCommit) (s : SessionSite σ), K.NamesParent s.commits →
      K.KeepsParent s.commits
        (commits.foldl (SessionSite.runCommit E.catalog E.now.wall) s).commits := by
    intro commits
    induction commits with
    | nil => exact fun s hs => hs.keepsParent
    | cons commit commits ih =>
      intro s hs
      have hfirst := keepsParent_run (commit.task s.directory E.now.wall) hs
      exact hfirst.trans (ih (s.runCommit E.catalog E.now.wall commit) hfirst.namesParent)
  exact hrun _ w.sessionSite h

theorem keepsParent_stop (h : K.NamesParent w.commits) :
    K.KeepsParent w.commits (w.stop E).2.commits := by
  cases hreceiving : w.monitor.receiving with
  | false =>
    rw [w.stop_of_idle E hreceiving]
    exact h.keepsParent
  | true =>
    let stopping : MonitorSite σ :=
      { w with monitor := w.monitor.withReport (w.monitor.report.withState .stopping) }
    have hshutdown : (stopping.happen .shutdown E.now).commits = w.commits := commits_happen ..
    rw [stop, if_pos hreceiving]
    have hcommits := keepsParent_runCommits (w := stopping.happen .shutdown E.now) E (hshutdown ▸ h)
    rwa [hshutdown] at hcommits

theorem keepsParent_call (h : K.NamesParent w.commits) (bound : List SocketAddress)
    (c : MonitorCall) : K.KeepsParent w.commits (w.call E bound c).2.commits := by
  cases c with
  | start =>
    rw [call, commits_start]
    exact h.keepsParent
  | stop => exact keepsParent_stop E h
  | update changes =>
    rw [call]
    rcases w.update_cases changes with
      ⟨e, hmerged⟩ | ⟨config, hmerged, ⟨hreceiving, hchanged⟩ | hkept⟩
    · rw [w.update_of_error E bound hmerged]
      exact h.keepsParent
    · rw [w.update_of_moved E bound hmerged hreceiving hchanged, commits_start]
      exact keepsParent_stop E h
    · rw [w.update_of_kept E bound hmerged hkept, commits_happen]
      exact h.keepsParent

end parent

/-! ## The life of a monitor -/

/-- What can happen next: a call, whatever the network answers; something that the session does, or
that its commits do; and something that other streams or the world do to the files and the
catalog. -/
inductive Step (K : C.Keeper) : MonitorSite σ → MonitorSite σ → Prop where
  /-- The monitor is called. -/
  | call (w : MonitorSite σ) (network : Network) (now : Moment) (bound : List SocketAddress)
      (c : MonitorCall) : Step K w (w.call ⟨C, network, now⟩ bound c).2
  /-- A datagram arrives. -/
  | datagram (w : MonitorSite σ) (bytes : Bytes) (now : Moment) :
    Step K w (w.happen (.datagram bytes) now)
  /-- Time has passed. -/
  | tick (w : MonitorSite σ) (now : Moment) : Step K w (w.happen .tick now)
  /-- The reception marks or restores the state, while it closes a chunk. -/
  | phase (w : MonitorSite σ) (p : RolloverPhase) (receiving : w.monitor.receiving = true) :
    Step K w { w with monitor :=
      w.monitor.withReport (w.monitor.report.withState (p.step w.monitor.state).2) }
  /-- A commit of the monitor takes a step. -/
  | commit (w : MonitorSite σ) (task : CommitTask) (stage : CommitStage) :
    Step K w (w.withCommits (task.step C stage w.commits).2)
  /-- A commit ends. -/
  | ended (w : MonitorSite σ) (i : Nat) (result : Except CommitError Record) :
    Step K w { w.withSession (w.monitor.session.endCommit i result w.directory).1 with
      directory := (w.monitor.session.endCommit i result w.directory).2 }
  /-- A commit breaks off. -/
  | broken (w : MonitorSite σ) (i : Nat) (message : String) :
    Step K w (w.withSession (w.monitor.session.breakCommit i message))
  /-- The results of commits are counted. -/
  | counted (w : MonitorSite σ) : Step K w (w.withSession w.monitor.session.countEnded)
  /-- A commit of another stream takes a step. -/
  | other (w : MonitorSite σ) (task : CommitTask) (stage : CommitStage) (parent : Option Record) :
    Step K w { w with catalog := (task.step C stage ⟨parent, w.catalog⟩).2.catalog }
  /-- The directory changes, and the catalog in something other than its records. -/
  | elsewhere (w : MonitorSite σ) (directory : ChunkDirectory) (catalog : σ)
      (sound : K.Sound catalog) (same : K.records catalog = K.records w.catalog) :
    Step K w { w with directory := directory, catalog := catalog }

/-- The monitors that such steps lead to. -/
abbrev Reaches (K : C.Keeper) : MonitorSite σ → MonitorSite σ → Prop :=
  Relation.ReflTransGen (Step K)

/-- A monitor that was never started. -/
def initial (config : StreamConfig) (directory : ChunkDirectory) (catalog : σ) : MonitorSite σ :=
  ⟨.new config, directory, catalog⟩

section life

open Catalog.Keeper

variable {w v : MonitorSite σ}

/-- A step keeps a monitor coherent. -/
theorem Step.isCoherent (hstep : Step K w v) (h : w.monitor.IsCoherent) :
    v.monitor.IsCoherent := by
  have hsession : ∀ session : Session, session.report.state = w.monitor.session.report.state →
      (w.withSession session).monitor.IsCoherent := fun session hstate =>
    h.of_eq rfl rfl (iff_of_eq (congrArg (· = StreamState.stopped) hstate))
  cases hstep with
  | call network now bound c => exact isCoherent_call h _ bound c
  | datagram bytes now => exact isCoherent_happen h _ now
  | tick now => exact isCoherent_happen h _ now
  | phase p receiving =>
    refine h.of_eq rfl rfl (iff_of_false ?_ (h.state_iff.2 receiving))
    have hstate := h.state_iff.2 receiving
    change (p.step w.monitor.state).2 ≠ .stopped
    cases p with
    | start | done => exact hstate
    | seen monitored | closing monitored =>
      cases monitored with
      | false => exact hstate
      | true => exact nofun
  | commit task stage => exact h.of_eq rfl rfl Iff.rfl
  | ended i result =>
    exact hsession _ (Session.state_of_receiver_eq
      (w.monitor.session.receiver_endCommit i result w.directory))
  | broken i message =>
    exact hsession _ (Session.state_of_receiver_eq (w.monitor.session.receiver_breakCommit i message))
  | counted => exact hsession _ (Session.state_of_receiver_eq w.monitor.session.receiver_countEnded)
  | other task stage parent => exact h
  | elsewhere => exact h

/-- A step keeps the parent. -/
theorem Step.keepsParent (hstep : Step K w v) (h : K.NamesParent w.commits) :
    K.KeepsParent w.commits v.commits := by
  cases hstep with
  | call network now bound c => exact keepsParent_call ⟨C, network, now⟩ h bound c
  | datagram bytes now =>
    rw [commits_happen]
    exact h.keepsParent
  | tick now =>
    rw [commits_happen]
    exact h.keepsParent
  | phase | ended | broken | counted => exact h.keepsParent
  | commit task stage => exact keepsParent_step task stage h
  | other task stage parent => exact h.step_of_other task stage parent
  | elsewhere directory catalog sound same =>
    have hnames : (K.view ⟨w.monitor.parent, catalog⟩).Names := by
      rw [view, same]
      exact h.names
    exact ⟨⟨sound, hnames⟩, fun _ hid => hid⟩

/-- Any number of steps keeps a monitor coherent. -/
theorem Reaches.isCoherent (hreaches : Reaches K w v) (h : w.monitor.IsCoherent) :
    v.monitor.IsCoherent := by
  induction hreaches with
  | refl => exact h
  | tail _ hstep ih => exact hstep.isCoherent ih

/-- Any number of steps keeps the parent. -/
theorem Reaches.keepsParent (hreaches : Reaches K w v) (h : K.NamesParent w.commits) :
    K.KeepsParent w.commits v.commits := by
  induction hreaches with
  | refl => exact h.keepsParent
  | tail _ hstep ih => exact ih.trans (hstep.keepsParent ih.namesParent)

end life

/-- What holds of calls on a monitor. -/
structure Lifecycle (K : C.Keeper) (w : MonitorSite σ) : Prop where
  /-- After a call, the stream is received if and only if the socket is bound. -/
  bound_iff : ∀ network now bound c,
    (w.call ⟨C, network, now⟩ bound c).2.monitor.receiving = true ↔
      (w.call ⟨C, network, now⟩ bound c).2.monitor.localAddress.isSome
  /-- After a call, the stream is received if and only if the state is not `stopped`. -/
  stopped_iff : ∀ network now bound c,
    (w.call ⟨C, network, now⟩ bound c).2.monitor.receiving = true ↔
      (w.call ⟨C, network, now⟩ bound c).2.monitor.state ≠ .stopped
  /-- A call that is refused, because there is no directory of chunks or no socket, leaves the stream
  stopped. -/
  refused : ∀ network now bound c e, (w.call ⟨C, network, now⟩ bound c).1 = .error e →
    e.isRefusal = true → (w.call ⟨C, network, now⟩ bound c).2.monitor.state = .stopped
  /-- No other call that fails changes anything. -/
  fails : ∀ network now bound c e, (w.call ⟨C, network, now⟩ bound c).1 = .error e →
    e.isRefusal = false → (w.call ⟨C, network, now⟩ bound c).2 = w
  /-- A stream that is received is not started again. -/
  start_fails : w.monitor.receiving = true → ∀ network now bound,
    w.call ⟨C, network, now⟩ bound .start = (.error (.invalidState .start w.monitor.state), w)
  /-- A stream that is not received is not stopped. -/
  stop_fails : w.monitor.receiving = false → ∀ network now bound,
    w.call ⟨C, network, now⟩ bound .stop = (.error (.invalidState .stop w.monitor.state), w)
  /-- While the socket address stays, a change of properties keeps the socket, and the session goes
  on under the new configuration. -/
  update_keeps : ∀ changes config, w.monitor.config.merged changes = .ok config →
    w.monitor.config.address = config.address → ∀ network now bound,
      let (result, after) := w.call ⟨C, network, now⟩ bound (.update changes)
      result = .ok () ∧ after.monitor.config = config ∧
        after.monitor.localAddress = w.monitor.localAddress ∧
        after.monitor.receiving = w.monitor.receiving ∧
        after.monitor.session = if w.monitor.receiving then
          (w.monitor.session.step (.configure config) now w.directory).2.1 else w.monitor.session
  /-- The parent keeps its identifier, whatever happens. -/
  parent_kept : ∀ v, Reaches K w v → ∀ p, w.monitor.parent = some p →
    ∃ q, v.monitor.parent = some q ∧ q.id = p.id

/-- Reception, address and state of a monitor agree after every call, in whatever order calls,
datagrams and the steps of commits come, and the parent keeps its identifier. -/
theorem lifecycle {config : StreamConfig} {directory : ChunkDirectory} {catalog : σ}
    (hsound : K.Sound catalog) {w : MonitorSite σ}
    (hreaches : Reaches K (initial config directory catalog) w) : Lifecycle K w := by
  have hcoherent := hreaches.isCoherent (Monitor.isCoherent_new config)
  have hparent := (hreaches.keepsParent ⟨hsound, nofun⟩).namesParent
  constructor
  case bound_iff =>
    intro network now bound c
    rw [(isCoherent_call hcoherent ⟨C, network, now⟩ bound c).bound_eq]
  case stopped_iff =>
    intro network now bound c
    exact (isCoherent_call hcoherent ⟨C, network, now⟩ bound c).state_iff.symm
  case refused =>
    intro network now bound c e h he
    rcases call_error h with ⟨-, -, hstate⟩ | ⟨hne, -⟩
    · exact hstate
    · cases hne.symm.trans he
  case fails =>
    intro network now bound c e h hne
    rcases call_error h with ⟨he, -⟩ | ⟨-, hsame⟩
    · cases hne.symm.trans he
    · exact hsame
  case start_fails => exact fun h network now bound => w.start_of_receiving _ bound h
  case stop_fails => exact fun h network now bound => w.stop_of_idle _ h
  case update_keeps =>
    intro changes config hmerged hsame network now bound
    have hkept : w.monitor.config.addressChanged config = false := by
      rw [StreamConfig.addressChanged, hsame]
      exact decide_eq_false fun hne => hne rfl
    rw [call, w.update_of_kept _ bound hmerged fun _ => hkept]
    cases hreceiving : w.monitor.receiving with
    | false =>
      rw [(w.withConfig config).happen_of_idle hreceiving]
      exact ⟨rfl, rfl, rfl, hreceiving, rfl⟩
    | true =>
      rw [(w.withConfig config).happen_of_receiving hreceiving]
      exact ⟨rfl, rfl, rfl, hreceiving, rfl⟩
  case parent_kept =>
    intro v hv p hp
    have hid := (hv.keepsParent hparent).id_eq p.id (Option.map_eq_some_iff.2 ⟨p, hp, rfl⟩)
    exact Option.map_eq_some_iff.1 hid

/-- A stream on a port of this host. -/
private def onPort (port : UInt16) : StreamConfig where
  title := "Stream"
  monitoredAddress := "udp://127.0.0.1:5000"
  address := ⟨.v4 ⟨127, 0, 0, 1⟩, port⟩
  byteCount := 1000
  elapsedTime := 1000
  idleTimeout := 1000
  initialDelay := 0
  startImmediately := false
  distanceTolerance := 0
  parentTitle := none

/-- A monitor that was started, whose first commit has created the parent, and that was moved in vain
to a port that is taken. -/
private def movedInVain : MonitorSite MemoryCatalog :=
  let E : Environment MemoryCatalog := ⟨MemoryCatalog.catalog, .isolated, ⟨⟨0, 0⟩, 0⟩⟩
  let started := ((initial (onPort 5000) .missing MemoryCatalog.empty).call E [] .start).2
  let task : CommitTask :=
    ⟨(onPort 5000).commitAction, ⟨1, ⟨10, 0⟩, ⟨20, 0⟩, 1, []⟩, ⟨"chunk.ts", none⟩, ⟨30, 0⟩⟩
  let known := started.withCommits (task.step E.catalog .start started.commits).2
  let changes : Properties :=
    .ofList [(PropertyName.monitoredAddress, PropertyValue.text "udp://127.0.0.1:5001")]
  (known.call E [(onPort 5001).address] (.update changes)).2

/-- It is stopped and keeps its parent. -/
theorem lifecycle_moved_in_vain :
    (movedInVain.monitor.receiving = false ∧ movedInVain.monitor.state = .stopped ∧
      movedInVain.monitor.parent.map (·.id) = some "parent-1") ∧
      Lifecycle MemoryCatalog.keeper movedInVain := by
  have hsound : MemoryCatalog.empty.IsSound :=
    ⟨fun _ _ _ => Std.ExtTreeMap.getElem?_empty, nofun⟩
  have hreaches : Reaches MemoryCatalog.keeper
      (initial (onPort 5000) .missing MemoryCatalog.empty) movedInVain :=
    ((Relation.ReflTransGen.single (.call _ _ _ _ _)).tail (.commit _ _ _)).tail (.call _ _ _ _ _)
  exact ⟨by decide +kernel, lifecycle (K := MemoryCatalog.keeper) hsound hreaches⟩

end MonitorSite

end StreamCatalog
