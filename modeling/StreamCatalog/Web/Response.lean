import StreamCatalog.Monitor.Registry
import StreamCatalog.Web.PropertyBody
import StreamCatalog.Web.Status

/-!
# Responses

A request that cannot be understood is rejected without a body. Any other one is
answered by an object that says whether it succeeded: with what was asked for,
or with what went wrong.
-/

namespace StreamCatalog.Web

/-- A request. -/
structure Request where
  /-- The method. -/
  method : String
  /-- The path, with a query if there is one. -/
  target : String
  /-- The text that is sent as JSON, if there is one. -/
  body : Option String
deriving DecidableEq, Repr

/-- The answer to a request. -/
structure Response where
  /-- The status code. -/
  status : Nat
  /-- The value sent back, if there is one. -/
  body : Option Json

/-- Why a request cannot be understood. -/
inductive Rejection where
  /-- The path stands for nothing. -/
  | noRoute
  /-- The path does not know the method. -/
  | wrongMethod
  /-- The path, the query or the body is no text of its form. -/
  | malformed
  /-- There is no body. -/
  | noBody
  /-- The body has not the shape that is needed. -/
  | wrongShape
deriving DecidableEq, Repr

namespace Rejection

/-- The status code of a rejection. -/
def status : Rejection → Nat
  | noRoute => 404
  | wrongMethod => 405
  | malformed => 400
  | noBody => 415
  | wrongShape => 422

/-- The rejection of a body. -/
def ofBody : BodyFault → Rejection
  | .malformed => malformed
  | .wrongShape => wrongShape

/-- The response to a request that is rejected. -/
def response (r : Rejection) : Response := ⟨r.status, none⟩

end Rejection

/-- The status code of an error of a monitor. -/
def statusOf : MonitorError → Nat
  | .bind _ _ | .io _ => 500
  | .invalidState _ _ => 409
  | .config _ => 400
  | .notFound _ => 404
  | .alreadyExists _ => 409

namespace Response

/-- A success. -/
def success (status : Nat) (members : List (String × Json)) : Response :=
  ⟨status, some (.object (("success", .bool true) :: members))⟩

/-- A failure. -/
def failure (status : Nat) (message : String) : Response :=
  ⟨status, some (.object [("success", .bool false), ("error", .text message)])⟩

/-- A failure of a monitor. -/
def ofError (e : MonitorError) : Response := failure (statusOf e) e.message

/-- A failure of the database. -/
def ofDatabaseError (e : DatabaseError) : Response := failure 500 e.message

/-- One stream. -/
def ofMonitor (status : Nat) (m : Monitor) : Response := success status [("stream", m.toJson)]

/-- One stream, or what went wrong. -/
def ofResult : Except MonitorError Monitor → Response
  | .ok m => ofMonitor 200 m
  | .error e => ofError e

/-- Several things under a name, and how many they are. -/
def ofList (name : String) (items : List Json) : Response :=
  success 200 [(name, .array items), ("count", .int items.length)]

/-- Whether a response says that the request succeeded. -/
def succeeded (r : Response) : Bool :=
  match r.body.bind (Json.get? "success") with
  | some (.bool true) => true
  | _ => false

end Response

end StreamCatalog.Web
