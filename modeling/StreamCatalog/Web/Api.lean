import StreamCatalog.Web.Response
import StreamCatalog.Web.Route

/-!
# The web interface

Streams are listed, added, removed, started, stopped and configured, and records
are listed and shown. `Site.handle` answers one request; requests are handled
one after the other.
-/

namespace StreamCatalog.Web

/-- What the web interface serves. -/
structure Site (σ : Type) where
  /-- The database of records. -/
  database : Database
  /-- The registered streams. -/
  registry : Registry σ

namespace Site

variable {σ : Type}

/-- The site after an operation on its streams. -/
def withRegistry {α : Type} (site : Site σ) (respond : α → Response) (result : α × Registry σ) :
    Response × Site σ :=
  (respond result.1, { site with registry := result.2 })

/-! ## Streams -/

/-- List all streams. -/
def listStreams (site : Site σ) : Response :=
  .ofList "streams" (site.registry.listing.map (·.toJson))

/-- Show one stream. -/
def showStream (site : Site σ) (title : String) : Response :=
  match site.registry.get? title with
  | none => .ofError (.notFound title)
  | some m => .ofMonitor 200 m

/-- Add a stream, and start it if it is received from the start. -/
def addStream (E : Environment σ) (properties : Properties) (site : Site σ) :
    Response × Site σ :=
  match StreamConfig.ofProperties properties with
  | .error e => (.ofError (.config e), site)
  | .ok config =>
    match site.registry.add config with
    | .error e => (.ofError e, site)
    | .ok registry =>
      let site := { site with registry := registry }
      if config.startImmediately then
        site.withRegistry (fun result =>
          match result with
          | .ok m => .ofMonitor 201 m
          | .error e => .ofError e) (site.registry.start E config.title)
      else (.ofMonitor 201 (.new config), site)

/-- Remove a stream. -/
def removeStream (E : Environment σ) (title : String) (site : Site σ) : Response × Site σ :=
  site.withRegistry (fun result =>
    match result with
    | .ok _ => .success 200 []
    | .error e => .ofError e) (site.registry.remove E title)

/-! ## Records -/

/-- List the records of a kind, or all of them. -/
def listRecords (site : Site σ) (kind : Option RecordKind) : Response :=
  .ofList "records" ((site.database.list kind).map (·.toJson))

/-- List the records that a query asks for. -/
def queryRecords (site : Site σ) (query : String) : Response :=
  match (queryPairs query).filter (·.1 = "kind") with
  | [] => site.listRecords none
  | [(_, name)] =>
    match RecordKind.ofName? name with
    | none => .failure 400 ("unknown record kind: " ++ name)
    | some kind => site.listRecords (some kind)
  | _ => Rejection.malformed.response

variable [Json.NumberReader]

/-- Show a record with its content. -/
def showRecord (site : Site σ) (id : String) : Response :=
  match site.database.get id with
  | .error e => .ofDatabaseError e
  | .ok none => .failure 404 ("no record " ++ id)
  | .ok (some r) =>
    let content := (site.database.content? id).elim Json.null (ContentRow.toJson id)
    .success 200 [("record", r.toJson), ("content", content)]

/-! ## Requests -/

/-- Go on with the decoded segment of a path. -/
def decoded (site : Site σ) (segment : String) (act : String → Response × Site σ) :
    Response × Site σ :=
  match decodeSegment? segment with
  | none => (Rejection.malformed.response, site)
  | some text => act text

/-- Go on with the properties of a body. -/
def withProperties (site : Site σ) (body : Option String)
    (act : Properties → Response × Site σ) : Response × Site σ :=
  match body with
  | none => (Rejection.noBody.response, site)
  | some body =>
    match readProperties body with
    | .error fault => ((Rejection.ofBody fault).response, site)
    | .ok properties => act properties

/-- Answer a request for a route that knows its method. -/
def serve (E : Environment σ) (route : Route) (request : Request) (query : String)
    (site : Site σ) : Response × Site σ :=
  match route with
  | .streams =>
    if request.method = "POST" then
      site.withProperties request.body fun properties => site.addStream E properties
    else (site.listStreams, site)
  | .stream title =>
    site.decoded title fun title =>
      if request.method = "DELETE" then site.removeStream E title
      else (site.showStream title, site)
  | .start title =>
    site.decoded title fun title =>
      site.withRegistry .ofResult (site.registry.start E title)
  | .stop title =>
    site.decoded title fun title =>
      site.withRegistry .ofResult (site.registry.stop E title)
  | .configure title =>
    site.decoded title fun title =>
      site.withProperties request.body fun changes =>
        site.withRegistry .ofResult (site.registry.update E title changes)
  | .records => (site.queryRecords query, site)
  | .record id => site.decoded id fun id => (site.showRecord id, site)

/-- Answer a request. Whatever asks for options is allowed, and whatever asks for a head gets no
body. -/
def handle (E : Environment σ) (request : Request) (site : Site σ) : Response × Site σ :=
  let (path, query) := splitTarget request.target
  if request.method = "OPTIONS" then (⟨200, none⟩, site)
  else
    match Route.ofPath? path with
    | none => (Rejection.noRoute.response, site)
    | some route =>
      if request.method ∉ route.methods then (Rejection.wrongMethod.response, site)
      else
        let (response, site) := site.serve E route request query
        (if request.method = "HEAD" then { response with body := none } else response, site)

end Site

end StreamCatalog.Web
