import StreamCatalog.Network.Binding
import StreamCatalog.Session.Commits

/-!
# Monitored streams

A monitor receives its stream between start and stop. Its parent record and its
counts outlive the reception; each start begins a new session. A change of
configuration closes the open chunk and keeps the socket, unless the address
changes: then the monitor stops and starts again on the new one.
-/

namespace StreamCatalog

/-- What may be asked of a monitor. -/
inductive MonitorCommand where
  /-- To receive its stream. -/
  | start
  /-- To end the reception. -/
  | stop
deriving DecidableEq, Repr

/-- The name of a command. -/
def MonitorCommand.name : MonitorCommand → String
  | start => "start"
  | stop => "stop"

/-- What the system fails to do for a reception, beside binding its socket. -/
inductive IoFault where
  /-- The directory of chunks cannot be made. -/
  | directory (fault : FileFault)
  /-- The socket does not tell its address. -/
  | address (fault : NameFault)
deriving DecidableEq, Repr

/-- What is said about a fault. -/
def IoFault.message : IoFault → String
  | directory fault => fault.message
  | address fault => fault.message

/-- Why a monitor does not do what it is asked for. -/
inductive MonitorError where
  /-- The socket cannot be bound. -/
  | bind (address : SocketAddress) (fault : BindFault)
  /-- Something else that the reception needs is not to be had. -/
  | io (fault : IoFault)
  /-- The state does not allow the command. -/
  | invalidState (command : MonitorCommand) (state : StreamState)
  /-- The properties describe no stream. -/
  | config (e : ConfigError)
  /-- There is no stream of a title. -/
  | notFound (title : String)
  /-- There is a stream of a title. -/
  | alreadyExists (title : String)

/-- What is said about an error. -/
def MonitorError.message : MonitorError → String
  | bind address fault => "Failed to bind " ++ address.text ++ ": " ++ fault.message
  | io fault => "Chunk I/O error: " ++ fault.message
  | invalidState command state => "Cannot " ++ command.name ++ " while " ++ state.name
  | config e => "Configuration error: " ++ e.message
  | notFound title => "No stream named " ++ title
  | alreadyExists title => "A stream named " ++ title ++ " already exists"

/-- A monitored stream. -/
structure Monitor where
  /-- The configuration. -/
  config : StreamConfig
  /-- The parent record, once there is one. -/
  parent : Option Record
  /-- The address that the socket is bound to. -/
  localAddress : Option SocketAddress
  /-- Whether the stream is received. -/
  receiving : Bool
  /-- The session, which is the last one while the stream is not received. -/
  session : Session

namespace Monitor

/-- A monitor that was never started. -/
def new (config : StreamConfig) : Monitor where
  config := config
  parent := none
  localAddress := none
  receiving := false
  session := .start config .initial

/-- The report on the stream. -/
def report (m : Monitor) : StreamReport := m.session.report

/-- The state of the stream. -/
def state (m : Monitor) : StreamState := m.report.state

/-- The monitor with another report. -/
def withReport (m : Monitor) (report : StreamReport) : Monitor :=
  { m with session := { m.session with report := report } }

end Monitor

/-- What the operations on streams depend on from outside. -/
structure Environment (σ : Type) where
  /-- The requests that the catalog answers. -/
  catalog : Catalog σ
  /-- The network. -/
  network : Network
  /-- The time. -/
  now : Moment

/-- A monitor with what it shares with others. -/
structure MonitorSite (σ : Type) where
  /-- The monitor. -/
  monitor : Monitor
  /-- The directory of chunks. -/
  directory : ChunkDirectory
  /-- The state of the catalog. -/
  catalog : σ

namespace MonitorSite

variable {σ : Type}

/-- The session of the monitor with what it works on. -/
def sessionSite (w : MonitorSite σ) : SessionSite σ :=
  ⟨w.monitor.session, w.directory, ⟨w.monitor.parent, w.catalog⟩⟩

/-- The monitor after its session has worked. -/
def withSessionSite (w : MonitorSite σ) (s : SessionSite σ) : MonitorSite σ :=
  ⟨{ w.monitor with session := s.session, parent := s.commits.parent }, s.directory,
    s.commits.catalog⟩

/-- Let something happen to the session of a monitor that receives. -/
def happen (e : SessionEvent) (now : Moment) (w : MonitorSite σ) : MonitorSite σ :=
  if w.monitor.receiving then
    let (_, session, directory) := w.monitor.session.step e now w.directory
    { w with monitor := { w.monitor with session := session }, directory := directory }
  else w

/-- Run all commits of the session to their ends. -/
def runCommits (E : Environment σ) (w : MonitorSite σ) : MonitorSite σ :=
  w.withSessionSite (w.sessionSite.runCommits E.catalog E.now.wall)

/-- Make the directory of chunks and bind a socket to an address, when `bound` are the addresses of
the other sockets. -/
def bind (network : Network) (bound : List SocketAddress) (address : SocketAddress)
    (d : ChunkDirectory) : Except MonitorError SocketAddress × ChunkDirectory :=
  match d.make with
  | .error fault => (.error (.io (.directory fault)), d)
  | .ok d =>
    match network bound address with
    | .error (.unbound fault) => (.error (.bind address fault), d)
    | .error (.unnamed fault) => (.error (.io (.address fault)), d)
    | .ok localAddress => (.ok localAddress, d)

/-- Start to receive on a socket, when `bound` are the addresses of the other sockets. -/
def start (E : Environment σ) (bound : List SocketAddress) (w : MonitorSite σ) :
    Except MonitorError Unit × MonitorSite σ :=
  let m := w.monitor
  if m.receiving then (.error (.invalidState .start m.state), w)
  else
    match bind E.network bound m.config.address w.directory with
    | (.error e, directory) =>
      let report := (m.report.fail e.message).withState .stopped
      (.error e, { w with monitor := m.withReport report, directory := directory })
    | (.ok localAddress, directory) =>
      let session := Session.start m.config (m.report.withState .monitoring)
      let monitor :=
        { m with localAddress := some localAddress, receiving := true, session := session }
      (.ok (), { w with monitor := monitor, directory := directory })

/-- End the reception, and wait for all commits. -/
def stop (E : Environment σ) (w : MonitorSite σ) : Except MonitorError Unit × MonitorSite σ :=
  let m := w.monitor
  if m.receiving then
    let w := { w with monitor := m.withReport (m.report.withState .stopping) }
    let w := (w.happen .shutdown E.now).runCommits E
    let m := w.monitor.withReport (w.monitor.report.withState .stopped)
    (.ok (), { w with monitor := { m with localAddress := none, receiving := false } })
  else (.error (.invalidState .stop m.state), w)

/-- The monitor with another configuration, which its session does not know of. -/
def withConfig (w : MonitorSite σ) (config : StreamConfig) : MonitorSite σ :=
  { w with monitor := { w.monitor with config := config } }

/-- Change properties of the configuration. -/
def update (E : Environment σ) (bound : List SocketAddress) (changes : Properties)
    (w : MonitorSite σ) : Except MonitorError Unit × MonitorSite σ :=
  match w.monitor.config.merged changes with
  | .error e => (.error (.config e), w)
  | .ok config =>
    if !w.monitor.receiving then (.ok (), w.withConfig config)
    else if w.monitor.config.addressChanged config then
      match w.stop E with
      | (.error e, w) => (.error e, w)
      | (.ok _, w) => (w.withConfig config).start E bound
    else
      (.ok (), (w.withConfig config).happen (.configure config) E.now)

end MonitorSite

end StreamCatalog
