import StreamCatalog.Web.PercentCoding

/-!
# Routes

What a path stands for, and which methods it knows. The text after a number sign
is no part of the target, and the text after a question mark is its query.
-/

namespace StreamCatalog.Web

/-- What a path stands for. Titles and identifiers are coded. -/
inductive Route where
  /-- All streams. -/
  | streams
  /-- One stream. -/
  | stream (title : String)
  /-- The start of a stream. -/
  | start (title : String)
  /-- The stop of a stream. -/
  | stop (title : String)
  /-- The configuration of a stream. -/
  | configure (title : String)
  /-- All records. -/
  | records
  /-- One record. -/
  | record (id : String)
deriving DecidableEq, Repr

namespace Route

/-- What the segments of a path stand for. A title or an identifier is not empty. -/
def ofSegments? : List String → Option Route
  | ["", "api", "streams"] => some streams
  | ["", "api", "streams", title] => if title = "" then none else some (stream title)
  | ["", "api", "streams", title, action] =>
    if title = "" then none
    else if action = "start" then some (start title)
    else if action = "stop" then some (stop title)
    else if action = "config" then some (configure title)
    else none
  | ["", "api", "records"] => some records
  | ["", "api", "records", id] => if id = "" then none else some (record id)
  | _ => none

/-- What a path stands for. -/
def ofPath? (path : String) : Option Route := ofSegments? (path.splitOn "/")

/-- The methods that a route knows. -/
def methods : Route → List String
  | streams => ["GET", "HEAD", "POST"]
  | stream _ => ["GET", "HEAD", "DELETE"]
  | start _ | stop _ | configure _ => ["POST"]
  | records | record _ => ["GET", "HEAD"]

end Route

/-- Whether a code point may stand in a path. -/
def isPathCode (n : Nat) : Bool :=
  n = 0x21 || n = 0x22 || (0x24 ≤ n && n ≤ 0x3B) || n = 0x3D || (0x40 ≤ n && n ≤ 0x5F) ||
    (0x61 ≤ n && n ≤ 0x7E) || 0x7F ≤ n

/-- Whether a code point may stand in a query. -/
def isQueryCode (n : Nat) : Bool :=
  n = 0x21 || (0x24 ≤ n && n ≤ 0x3B) || n = 0x3D || 0x3F ≤ n

/-- The path and the query of a target. -/
def splitTarget (target : String) : String × String :=
  let cs := target.toList.takeWhile (· ≠ '#')
  (String.ofList (cs.takeWhile (· ≠ '?')), String.ofList ((cs.dropWhile (· ≠ '?')).drop 1))

/-- Whether a text can be the target of a request. -/
def isTarget (target : String) : Bool :=
  let (path, query) := splitTarget target
  path.toList.head? = some '/' && path.toList.all (isPathCode ·.toNat) &&
    query.toList.all (isQueryCode ·.toNat)

end StreamCatalog.Web
