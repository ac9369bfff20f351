import StreamCatalog.Monitor.Basic

/-!
# The registry of streams

The monitors by the titles of their streams, with the directory and the catalog
that they share. A monitor whose title changes is filed under the new one.
-/

namespace StreamCatalog

/-- The registered streams. -/
structure Registry (σ : Type) where
  /-- The monitors by title. -/
  monitors : Std.ExtTreeMap String Monitor
  /-- The directory of chunks. -/
  directory : ChunkDirectory
  /-- The state of the catalog. -/
  catalog : σ

namespace Registry

variable {σ : Type}

/-- A registry without streams. -/
def empty (catalog : σ) : Registry σ := ⟨∅, .missing, catalog⟩

/-- The monitor of a title. -/
def get? (r : Registry σ) (title : String) : Option Monitor := r.monitors[title]?

/-- The monitors in the order of titles. -/
def toList (r : Registry σ) : List (String × Monitor) := r.monitors.toList

/-- The monitors in the order of the titles that their streams have. -/
def listing (r : Registry σ) : List Monitor :=
  (r.toList.map (·.2)).mergeSort fun a b => decide (a.config.title ≤ b.config.title)

/-- The addresses that the other streams are bound to. -/
def boundBeside (r : Registry σ) (title : String) : List SocketAddress :=
  (r.toList.filter (·.1 ≠ title)).filterMap (·.2.localAddress)

/-- Register a stream. It is not started. -/
def add (r : Registry σ) (config : StreamConfig) : Except MonitorError (Registry σ) :=
  if config.title ∈ r.monitors then .error (.alreadyExists config.title)
  else .ok { r with monitors := r.monitors.insert config.title (.new config) }

/-- Let the monitor of a title do something, and give the monitor as it is then. -/
def visit (r : Registry σ) (title : String)
    (act : MonitorSite σ → Except MonitorError Unit × MonitorSite σ) :
    Except MonitorError Monitor × Registry σ :=
  match r.get? title with
  | none => (.error (.notFound title), r)
  | some m =>
    let (result, w) := act ⟨m, r.directory, r.catalog⟩
    (result.map fun _ => w.monitor,
      ⟨r.monitors.insert title w.monitor, w.directory, w.catalog⟩)

/-- Start a stream. -/
def start (E : Environment σ) (title : String) (r : Registry σ) :
    Except MonitorError Monitor × Registry σ :=
  r.visit title (MonitorSite.start E (r.boundBeside title))

/-- Stop a stream. -/
def stop (E : Environment σ) (title : String) (r : Registry σ) :
    Except MonitorError Monitor × Registry σ :=
  r.visit title (MonitorSite.stop E)

/-- File a monitor under the title that its stream has now. -/
def refile (r : Registry σ) (title : String) (m : Monitor) : Registry σ :=
  { r with monitors := (r.monitors.erase title).insert m.config.title m }

/-- The title that changes ask for, if it belongs to another stream. -/
def takenTitle? (r : Registry σ) (title : String) (changes : Properties) : Option String :=
  match changes[PropertyName.title]? with
  | some (.text asked) => if asked ≠ title ∧ asked ∈ r.monitors then some asked else none
  | _ => none

/-- Change properties of a stream. -/
def update (E : Environment σ) (title : String) (changes : Properties) (r : Registry σ) :
    Except MonitorError Monitor × Registry σ :=
  if title ∈ r.monitors then
    match r.takenTitle? title changes with
    | some asked => (.error (.alreadyExists asked), r)
    | none =>
      match r.visit title (MonitorSite.update E (r.boundBeside title) changes) with
      | (.error e, r) => (.error e, r)
      | (.ok m, r) => (.ok m, if m.config.title = title then r else r.refile title m)
  else (.error (.notFound title), r)

/-- Stop a stream if it is received, and forget it. -/
def remove (E : Environment σ) (title : String) (r : Registry σ) :
    Except MonitorError Unit × Registry σ :=
  match r.get? title with
  | none => (.error (.notFound title), r)
  | some m =>
    let r := { r with monitors := r.monitors.erase title }
    if m.localAddress.isSome then
      let (result, w) := MonitorSite.stop E ⟨m, r.directory, r.catalog⟩
      (result, { r with directory := w.directory, catalog := w.catalog })
    else (.ok (), r)

/-- Start the streams that are received from the start, and count those that do start. -/
def startConfigured (E : Environment σ) (r : Registry σ) : Nat × Registry σ :=
  (r.toList.filter (·.2.config.startImmediately)).foldl (fun (n, r) (title, _) =>
    match r.start E title with
    | (.ok _, r) => (n + 1, r)
    | (.error _, r) => (n, r)) (0, r)

/-- Stop the streams that are received. -/
def stopAll (E : Environment σ) (r : Registry σ) : Registry σ :=
  (r.toList.filter (·.2.localAddress.isSome)).foldl (fun r (title, _) => (r.stop E title).2) r

end Registry

end StreamCatalog
