import StreamCatalog.Chunk.Condition
import StreamCatalog.Commit.Settings
import StreamCatalog.Network.AddressReader
import StreamCatalog.Stream.Property

/-!
# The configuration of a stream

`StreamConfig.ofProperties` checks the properties of a stream and fills in those
that are missing; `toProperties` gives them back. A configuration is changed by
putting properties in the place of its own.
-/

namespace StreamCatalog

/-- Why properties describe no stream. -/
inductive ConfigError where
  /-- A property that is needed is missing. -/
  | missing (name : String)
  /-- A property has a value that it cannot have. -/
  | invalid (name : String) (found : Unexpected)
  /-- An address is not that of a datagram stream. -/
  | scheme (uri : String)
  /-- An address does not name a socket. -/
  | address (uri : String) (fault : AddressFault)

/-- What is said about a configuration error. -/
def ConfigError.message : ConfigError → String
  | missing name => "Missing required property: " ++ name
  | invalid name found => "Invalid value for " ++ name ++ ": " ++ found.reason
  | scheme uri => "Unsupported address scheme in " ++ uri ++ " (expected udp://host:port)"
  | address uri fault => "Cannot resolve " ++ uri ++ ": " ++ fault.message

/-- What stands in front of the address of a datagram stream. -/
def datagramScheme : String := "udp://"

/-- The socket address of a datagram stream. Slashes at its end do not count. -/
def readStreamAddress (uri : String) : Except ConfigError SocketAddress :=
  match datagramScheme.toList.isPrefixOf? (Text.trimChars uri.toList) with
  | none => .error (.scheme uri)
  | some rest =>
    (SocketAddress.ofText? (String.ofList (Text.trimEndWhile (· = '/') rest))).mapError
      (.address uri)

/-- The checked configuration of a stream. -/
structure StreamConfig where
  /-- The title of the stream. -/
  title : String
  /-- The address on which the stream is received, as it was given. -/
  monitoredAddress : String
  /-- The same address as that of a socket. -/
  address : SocketAddress
  /-- How many bytes close a chunk. -/
  byteCount : Nat
  /-- After how many milliseconds a chunk is closed. -/
  elapsedTime : Nat
  /-- After how many milliseconds without data a chunk is closed. -/
  idleTimeout : Nat
  /-- How many seconds the parent waits for its update. -/
  initialDelay : Nat
  /-- Whether the stream is received from the start. -/
  startImmediately : Bool
  /-- The simplification tolerance of locations. -/
  distanceTolerance : Float
  /-- The title of the parent record, if it is not that of the stream. -/
  parentTitle : Option String

namespace StreamConfig

/-- How many bytes close a chunk unless a number is given. -/
def standardByteCount : Nat := 5000000

/-- After how many milliseconds a chunk is closed unless a time is given. -/
def standardElapsedTime : Nat := 15000

/-- After how many milliseconds without data a chunk is closed unless a time is given. -/
def standardIdleTimeout : Nat := 5000

/-- The value of a property, if it is there. -/
def read? {α : Type} (ps : Properties) (name : String)
    (read : PropertyValue → Except Unexpected α) : Except ConfigError (Option α) :=
  match ps[name]? with
  | none => .ok none
  | some v => ((read v).map some).mapError (.invalid name)

/-- The value of a property, or a standard value. -/
def readOr {α : Type} (ps : Properties) (name : String)
    (read : PropertyValue → Except Unexpected α) (standard : α) : Except ConfigError α :=
  (read? ps name read).map (·.getD standard)

/-- The value of a property that is needed. -/
def need {α : Type} (name : String) (value : Option α) : Except ConfigError α :=
  value.elim (.error (.missing name)) .ok

/-- The configuration that properties describe. They are read in a fixed order, and the first
fault is the one reported. -/
def ofProperties (ps : Properties) : Except ConfigError StreamConfig := do
  let title ← read? ps PropertyName.title PropertyValue.readText
  let title ← need PropertyName.title (title.filter fun t => (Text.trim t) ≠ "")
  let monitoredAddress ← need PropertyName.monitoredAddress
    (← read? ps PropertyName.monitoredAddress PropertyValue.readText)
  let address ← readStreamAddress monitoredAddress
  let byteCount ← readOr ps PropertyName.byteCount PropertyValue.readPositive standardByteCount
  let elapsedTime ←
    readOr ps PropertyName.elapsedTime PropertyValue.readPositive standardElapsedTime
  let idleTimeout ←
    readOr ps PropertyName.idleTimeout PropertyValue.readPositive standardIdleTimeout
  let initialDelay ← readOr ps PropertyName.initialDelay PropertyValue.readNat 0
  let distanceTolerance ← readOr ps PropertyName.distanceTolerance PropertyValue.readDistance 0.0001
  let startImmediately ← readOr ps PropertyName.startImmediately PropertyValue.readBool false
  let parentTitle ← read? ps PropertyName.parentTitle PropertyValue.readText
  return { title, monitoredAddress, address, byteCount, elapsedTime, idleTimeout, initialDelay,
           startImmediately, distanceTolerance, parentTitle }

/-- The properties that describe a configuration. -/
def toProperties (c : StreamConfig) : Properties :=
  let all : List (String × PropertyValue) := [
    (PropertyName.title, .text c.title),
    (PropertyName.monitoredAddress, .text c.monitoredAddress),
    (PropertyName.byteCount, .integer c.byteCount),
    (PropertyName.elapsedTime, .integer c.elapsedTime),
    (PropertyName.idleTimeout, .integer c.idleTimeout),
    (PropertyName.initialDelay, .integer c.initialDelay),
    (PropertyName.startImmediately, .bool c.startImmediately),
    (PropertyName.distanceTolerance, .float c.distanceTolerance)]
  .ofList (all ++ c.parentTitle.toList.map fun t => (PropertyName.parentTitle, .text t))

/-- A configuration with some properties changed. -/
def merged (c : StreamConfig) (changes : Properties) : Except ConfigError StreamConfig :=
  ofProperties (c.toProperties.overlay changes)

/-- Whether a change of configuration needs another socket. -/
def addressChanged (before after : StreamConfig) : Bool :=
  before.address ≠ after.address

/-- The condition on which a chunk is closed. -/
def condition (c : StreamConfig) : Condition :=
  .any [.bytes c.byteCount, .elapsed (ofMillis c.elapsedTime), .idle (ofMillis c.idleTimeout)]

/-- How the chunks of the stream are committed. -/
def commitSettings (c : StreamConfig) : CommitSettings :=
  { CommitSettings.standard c.title c.monitoredAddress with
    parentTitle := c.parentTitle
    initialDelay := c.initialDelay * 1000
    tolerances := .ofDistance c.distanceTolerance }

end StreamConfig

end StreamCatalog
