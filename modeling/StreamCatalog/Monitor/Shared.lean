import StreamCatalog.Monitor.Registry

/-!
# Operations on a registry at the same time

Several operations on streams may run at the same time. Each takes the registry,
or one monitor, for one step only and lets go of it before the next, so that the
steps of others come in between: an operation keeps to the monitor that it found,
which may be filed under another title by then, or not at all. Each step is a
function on the shared registry; the steps of one operation, one after the other,
are the operation of `Registry`.
-/

namespace StreamCatalog

/-- A registry whose monitors are known by number to the operations that run. -/
structure SharedRegistry (σ : Type) where
  /-- The number of the monitor that is filed under a title. -/
  filed : Std.ExtTreeMap String Nat
  /-- All monitors that were ever registered, in the order of their numbers. -/
  monitors : List Monitor
  /-- The directory of chunks. -/
  directory : ChunkDirectory
  /-- The state of the catalog. -/
  catalog : σ

/-- What may be asked of a registry. -/
inductive RegistryOperation where
  /-- To register a stream. -/
  | add (config : StreamConfig)
  /-- To start a stream. -/
  | start (title : String)
  /-- To stop a stream. -/
  | stop (title : String)
  /-- To change properties of a stream. -/
  | update (title : String) (changes : Properties)
  /-- To stop and forget a stream. -/
  | remove (title : String)

/-- How far a change of properties has come, once the monitor is found. -/
inductive UpdatePhase where
  /-- No other stream has the title that is asked for. -/
  | unclaimed
  /-- The configuration is checked, and asks for another socket. -/
  | moving (config : StreamConfig)
  /-- The reception has ended. -/
  | halted (config : StreamConfig)
  /-- The monitor has the configuration, and is not yet started again. -/
  | renewed (config : StreamConfig)
  /-- The monitor goes on under the configuration. -/
  | updated (config : StreamConfig)

/-- How far an operation has come. -/
inductive RegistryStage where
  /-- Nothing is done. -/
  | start
  /-- The monitor of the title is found. -/
  | found (id : Nat)
  /-- Properties of the monitor are being changed. -/
  | updating (id : Nat) (phase : UpdatePhase)
  /-- The monitor is forgotten. -/
  | removed (id : Nat)
  /-- The operation has ended. -/
  | finished (result : Except MonitorError Unit)

/-- The title that changes ask for. -/
def askedTitle? (changes : Properties) : Option String :=
  match changes[PropertyName.title]? with
  | some (.text asked) => some asked
  | _ => none

namespace SharedRegistry

variable {σ : Type}

/-- A registry without streams. -/
def empty (catalog : σ) : SharedRegistry σ := ⟨∅, [], .missing, catalog⟩

/-- Let a monitor do something. -/
def visit (s : SharedRegistry σ) (id : Nat)
    (act : MonitorSite σ → Except MonitorError Unit × MonitorSite σ) :
    Except MonitorError Unit × SharedRegistry σ :=
  match s.monitors[id]? with
  | none => (.ok (), s)
  | some m =>
    let (result, w) := act ⟨m, s.directory, s.catalog⟩
    (result, ⟨s.filed, s.monitors.set id w.monitor, w.directory, w.catalog⟩)

/-- Find the monitor of a title. -/
def find (s : SharedRegistry σ) (title : String) : RegistryStage × SharedRegistry σ :=
  match s.filed[title]? with
  | none => (.finished (.error (.notFound title)), s)
  | some id => (.found id, s)

/-- The title that changes ask for, if it belongs to another stream. -/
def takenTitle? (s : SharedRegistry σ) (title : String) (changes : Properties) :
    Option String :=
  (askedTitle? changes).filter fun asked => asked ≠ title ∧ asked ∈ s.filed

/-- File the monitor of a title under another one. -/
def refile (s : SharedRegistry σ) (title newTitle : String) : SharedRegistry σ :=
  match s.filed[title]? with
  | none => s
  | some id => { s with filed := (s.filed.erase title).insert newTitle id }

/-- Register a stream. -/
def add (s : SharedRegistry σ) (config : StreamConfig) :
    Except MonitorError Unit × SharedRegistry σ :=
  if config.title ∈ s.filed then (.error (.alreadyExists config.title), s)
  else
    (.ok (), { s with
      filed := s.filed.insert config.title s.monitors.length
      monitors := s.monitors ++ [.new config] })

end SharedRegistry

namespace RegistryOperation

variable {σ : Type}

/-- The first step. -/
def first (op : RegistryOperation) (s : SharedRegistry σ) : RegistryStage × SharedRegistry σ :=
  match op with
  | .add config =>
    let (result, s) := s.add config
    (.finished result, s)
  | .start title | .stop title | .update title _ => s.find title
  | .remove title =>
    match s.filed[title]? with
    | none => (.finished (.error (.notFound title)), s)
    | some id => (.removed id, { s with filed := s.filed.erase title })

/-- The step after the monitor is found. -/
def serve (E : Environment σ) (bound : List SocketAddress) (op : RegistryOperation) (id : Nat)
    (s : SharedRegistry σ) : RegistryStage × SharedRegistry σ :=
  match op with
  | .start _ =>
    let (result, s) := s.visit id (MonitorSite.start E bound)
    (.finished result, s)
  | .stop _ =>
    let (result, s) := s.visit id (MonitorSite.stop E)
    (.finished result, s)
  | .update title changes =>
    match s.takenTitle? title changes with
    | some asked => (.finished (.error (.alreadyExists asked)), s)
    | none => (.updating id .unclaimed, s)
  | .add _ | .remove _ => (.found id, s)

end RegistryOperation

/-- The next step of a change of properties. `bound` are the addresses of the other sockets. -/
def UpdatePhase.step {σ : Type} (E : Environment σ) (bound : List SocketAddress) (title : String)
    (changes : Properties) (id : Nat) (phase : UpdatePhase) (s : SharedRegistry σ) :
    RegistryStage × SharedRegistry σ :=
  match phase with
  | unclaimed =>
    match s.monitors[id]? with
    | none => (.finished (.error (.notFound title)), s)
    | some m =>
      match m.config.merged changes with
      | .error e => (.finished (.error (.config e)), s)
      | .ok config =>
        if m.receiving && m.config.addressChanged config then (.updating id (moving config), s)
        else
          let (_, s) := s.visit id fun w =>
            (.ok (), (w.withConfig config).happen (.configure config) E.now)
          (.updating id (updated config), s)
  | moving config =>
    match s.visit id (MonitorSite.stop E) with
    | (.error e, s) => (.finished (.error e), s)
    | (.ok _, s) => (.updating id (halted config), s)
  | halted config =>
    let (_, s) := s.visit id fun w => (.ok (), w.withConfig config)
    (.updating id (renewed config), s)
  | renewed config =>
    match s.visit id (MonitorSite.start E bound) with
    | (.error e, s) => (.finished (.error e), s)
    | (.ok _, s) => (.updating id (updated config), s)
  | updated config =>
    (.finished (.ok ()), if config.title = title then s else s.refile title config.title)

namespace RegistryOperation

variable {σ : Type}

/-- The next step of an operation. `bound` are the addresses of the other sockets. -/
def step (E : Environment σ) (bound : List SocketAddress) (op : RegistryOperation)
    (stage : RegistryStage) (s : SharedRegistry σ) : RegistryStage × SharedRegistry σ :=
  match stage with
  | .start => op.first s
  | .found id => op.serve E bound id s
  | .updating id phase =>
    match op with
    | .update title changes => phase.step E bound title changes id s
    | _ => (.updating id phase, s)
  | .removed id =>
    if s.monitors[id]?.any (·.localAddress.isSome) then
      let (result, s) := s.visit id (MonitorSite.stop E)
      (.finished result, s)
    else (.finished (.ok ()), s)
  | .finished result => (.finished result, s)

/-- The stage and the registry after some steps. -/
def steps (E : Environment σ) (bound : List SocketAddress) (op : RegistryOperation) :
    Nat → RegistryStage → SharedRegistry σ → RegistryStage × SharedRegistry σ
  | 0, stage, s => (stage, s)
  | n + 1, stage, s =>
    let (stage, s) := op.step E bound stage s
    steps E bound op n stage s

end RegistryOperation

end StreamCatalog
