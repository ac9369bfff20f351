import StreamCatalog.Proofs.Monitor.Failures
import StreamCatalog.Web.Api

/-!
# Requests that fail

A request that fails leaves the registered streams as they are, with two exceptions
(`AfterFailure`): a stream that is added and cannot be received stays registered, and
a stream that is moved in vain is not received any more. Either way the system refuses
the directory of chunks or the socket.
-/

namespace StreamCatalog.Web

/-- An operation that is answered without success has failed. -/
theorem Response.exists_error_of_ofResult {result : Except MonitorError Monitor}
    (h : (ofResult result).succeeded = false) : ∃ e, result = .error e := by
  cases result with
  | ok m => cases h
  | error e => exact ⟨e, rfl⟩

section AnyReader

variable {σ : Type} [Json.NumberReader]

/-- Whether the body of a request gives properties. -/
def Request.Gives (request : Request) (properties : Properties) : Prop :=
  ∃ body, request.body = some body ∧ readProperties body = .ok properties

/-- What a request for a route may have done to the registered streams when it fails. -/
inductive AfterFailure (E : Environment σ) (request : Request) (r r' : Registry σ) :
    Option Route → Prop where
  /-- Nothing. -/
  | unchanged (route : Option Route) (same : Registry.SameStanding r r') :
    AfterFailure E request r r' route
  /-- A new stream that is to be received from the start is registered with the configuration that
  is asked for. The system refuses to receive it, and all other streams are what they were. -/
  | notStarted (properties : Properties) (config : StreamConfig) (e : MonitorError)
      (posted : request.method = "POST") (given : request.Gives properties)
      (asked : StreamConfig.ofProperties properties = .ok config)
      (immediate : config.startImmediately = true) (new : r.get? config.title = none)
      (refused : (MonitorSite.bind E.network (Registry.boundBeside
        { r with monitors := r.monitors.insert config.title (.new config) } config.title)
          config.address r.directory).1 = .error e)
      (added : r'.standing? config.title = some (config, false))
      (others : Registry.AgreesExcept config.title r r') :
    AfterFailure E request r r' (some .streams)
  /-- A stream that was received has the configuration that the changes make, with another address.
  The system refuses to receive it there, so it is not received any more, and all other streams are
  what they were. -/
  | notMoved (coded title : String) (changes : Properties) (old config : StreamConfig)
      (e : MonitorError) (decoded : decodeSegment? coded = some title)
      (given : request.Gives changes) (received : r.standing? title = some (old, true))
      (merged : old.merged changes = .ok config) (moved : old.addressChanged config = true)
      (refused : (MonitorSite.bind E.network (r.boundBeside title) config.address r.directory).1 =
        .error e)
      (stopped : r'.standing? title = some (config, false))
      (others : Registry.AgreesExcept title r r') :
    AfterFailure E request r r' (some (.configure coded))

namespace Site

variable {E : Environment σ} {site : Site σ}

/-! ## What requests do -/

/-- What a request for a route does to the registered streams, with its answer. -/
inductive Effect (E : Environment σ) (request : Request) (site : Site σ) :
    Route → Response × Site σ → Prop where
  /-- Nothing. -/
  | nothing (route : Route) (response : Response) : Effect E request site route (response, site)
  /-- A stream is added. -/
  | add (properties : Properties) (method : request.method = "POST")
      (given : request.Gives properties) :
    Effect E request site .streams (site.addStream E properties)
  /-- A stream is removed. -/
  | remove (coded title : String) (method : request.method = "DELETE") :
    Effect E request site (.stream coded) (site.removeStream E title)
  /-- A stream is started. -/
  | start (coded title : String) :
    Effect E request site (.start coded)
      (site.withRegistry .ofResult (site.registry.start E title))
  /-- A stream is stopped. -/
  | stop (coded title : String) :
    Effect E request site (.stop coded)
      (site.withRegistry .ofResult (site.registry.stop E title))
  /-- Properties of a stream are changed. -/
  | configure (coded title : String) (changes : Properties)
      (decoded : decodeSegment? coded = some title) (given : request.Gives changes) :
    Effect E request site (.configure coded)
      (site.withRegistry .ofResult (site.registry.update E title changes))

/-- A segment that cannot be decoded changes nothing. -/
theorem decoded_effect {request : Request} {route : Route} {segment : String}
    {act : String → Response × Site σ}
    (hact : ∀ text, decodeSegment? segment = some text → Effect E request site route (act text)) :
    Effect E request site route (site.decoded segment act) := by
  rw [decoded]
  cases htext : decodeSegment? segment with
  | none => exact .nothing route _
  | some text => exact hact text htext

/-- A body that gives no properties changes nothing. -/
theorem withProperties_effect {request : Request} {route : Route}
    {act : Properties → Response × Site σ}
    (hact : ∀ properties, request.Gives properties →
      Effect E request site route (act properties)) :
    Effect E request site route (site.withProperties request.body act) := by
  cases hbody : request.body with
  | none => exact .nothing route _
  | some body =>
    rw [withProperties]
    cases hread : readProperties body with
    | error fault => exact .nothing route _
    | ok properties => exact hact properties ⟨body, hbody, hread⟩

theorem serve_effect (E : Environment σ) (request : Request) (site : Site σ) (route : Route)
    (query : String) : Effect E request site route (site.serve E route request query) := by
  cases route with
  | streams =>
    rw [serve]
    split
    next hpost =>
      exact withProperties_effect fun properties hgiven => .add properties hpost hgiven
    next => exact .nothing _ _
  | stream coded =>
    refine decoded_effect fun title _ => ?_
    split
    next hdelete => exact .remove coded title hdelete
    next => exact .nothing _ _
  | start coded => exact decoded_effect fun title _ => .start coded title
  | stop coded => exact decoded_effect fun title _ => .stop coded title
  | configure coded =>
    exact decoded_effect fun title hdecoded =>
      withProperties_effect fun changes hgiven => .configure coded title changes hdecoded hgiven
  | records => exact .nothing _ _
  | record coded => exact decoded_effect fun id _ => .nothing _ _

/-- A request for a head changes nothing. -/
theorem Effect.eq_of_head {request : Request} {route : Route} {result : Response × Site σ}
    (h : Effect E request site route result) (hhead : request.method = "HEAD")
    (hmethod : request.method ∈ route.methods) : result.2 = site := by
  rw [hhead] at hmethod
  cases h with
  | nothing => rfl
  | add _ method _ | remove _ _ method => exact absurd (hhead.symm.trans method) (by decide)
  | start | stop | configure => exact absurd (List.mem_singleton.1 hmethod) (by decide)

/-- A request changes nothing, or is one for a route. -/
theorem handle_cases (E : Environment σ) (request : Request) (site : Site σ) :
    (site.handle E request).2 = site ∨
      ∃ route, Route.ofPath? (splitTarget request.target).1 = some route ∧
        Effect E request site route (site.handle E request) := by
  rw [handle]
  dsimp only
  split
  next => exact .inl rfl
  next =>
    split
    next => exact .inl rfl
    next route hroute =>
      split
      next => exact .inl rfl
      next hmethod =>
        have heffect := serve_effect E request site route (splitTarget request.target).2
        by_cases hhead : request.method = "HEAD"
        · exact .inl (heffect.eq_of_head hhead (not_not.1 hmethod))
        · rw [if_neg hhead]
          exact .inr ⟨route, hroute, heffect⟩

omit [Json.NumberReader] in
/-- To add a stream is to register it, and to start it if that is asked for. -/
theorem reaches_addStream (E : Environment σ) (properties : Properties) (site : Site σ) :
    Registry.Reaches site.registry (site.addStream E properties).2.registry := by
  rw [addStream]
  cases StreamConfig.ofProperties properties with
  | error e => exact .refl
  | ok config =>
    have hadd := Registry.Step.operation site.registry E (.add config)
    rw [RegistryOperation.run] at hadd
    dsimp only
    cases hadded : site.registry.add config with
    | error e => exact .refl
    | ok r =>
      rw [hadded] at hadd
      dsimp only
      split
      next => exact .tail (.single hadd) (.operation r E (.start config.title))
      next => exact .single hadd

/-- A request does operations of the registry. -/
theorem Effect.reaches {request : Request} {route : Route} {result : Response × Site σ}
    (h : Effect E request site route result) :
    Registry.Reaches site.registry result.2.registry := by
  cases h with
  | nothing => exact .refl
  | add properties => exact reaches_addStream E properties site
  | remove coded title => exact .single (.operation _ E (.remove title))
  | start coded title => exact .single (.operation _ E (.start title))
  | stop coded title => exact .single (.operation _ E (.stop title))
  | configure coded title changes => exact .single (.operation _ E (.update title changes))

/-- Requests lead to registries that operations lead to. -/
theorem reaches_handle (E : Environment σ) (request : Request) (site : Site σ) :
    Registry.Reaches site.registry (site.handle E request).2.registry := by
  rcases handle_cases E request site with hsite | ⟨_, -, heffect⟩
  · rw [hsite]
  · exact heffect.reaches

/-! ## What requests that fail do -/

/-- A stream is added without effect, or is registered and cannot be started. -/
theorem addStream_failed {request : Request} {properties : Properties}
    (hpost : request.method = "POST") (hgiven : request.Gives properties)
    (h : (site.addStream E properties).1.succeeded = false) :
    AfterFailure E request site.registry (site.addStream E properties).2.registry
      (some .streams) := by
  rw [addStream] at h ⊢
  cases hconfig : StreamConfig.ofProperties properties with
  | error e => exact .unchanged _ (Registry.sameStanding_refl _)
  | ok config =>
    rw [hconfig] at h
    dsimp only at h ⊢
    rw [Registry.add] at h ⊢
    by_cases htaken : config.title ∈ site.registry.monitors
    · rw [if_pos htaken]
      exact .unchanged _ (Registry.sameStanding_refl _)
    · rw [if_neg htaken] at h ⊢
      dsimp only at h ⊢
      split at h
      next himmediate =>
        rw [if_pos himmediate]
        let registered : Registry σ :=
          { site.registry with
            monitors := site.registry.monitors.insert config.title (.new config) }
        obtain ⟨e, herror⟩ : ∃ e, (registered.start E config.title).1 = .error e := by
          cases hresult : (registered.start E config.title).1 with
          | ok m =>
            simp only [withRegistry, registered, hresult] at h
            cases h
          | error e => exact ⟨e, rfl⟩
        obtain ⟨hsame, hbind⟩ := Registry.start_error herror
        have hrefused := hbind (.new config) Std.ExtTreeMap.getElem?_insert_self rfl
        refine .notStarted properties config e hpost hgiven hconfig himmediate
          (Std.ExtTreeMap.getElem?_eq_none htaken) hrefused
          ((hsame config.title).trans Registry.standing?_insert_self) fun other hother => ?_
        exact (Registry.agreesExcept_visit registered config.title _ other hother).trans
          (Registry.agreesExcept_insert other hother)
      next => cases h

/-- A request for a route fails without effect, but for the two exceptions. -/
theorem Effect.afterFailure (hcoherent : site.registry.IsCoherent) {request : Request}
    {route : Route} {result : Response × Site σ} (h : Effect E request site route result)
    (hfailed : result.1.succeeded = false) :
    AfterFailure E request site.registry result.2.registry (some route) := by
  cases h with
  | nothing => exact .unchanged _ (Registry.sameStanding_refl _)
  | add properties hpost hgiven => exact addStream_failed hpost hgiven hfailed
  | remove coded title =>
    rw [removeStream, withRegistry] at hfailed
    cases hresult : (site.registry.remove E title).1 with
    | ok _ =>
      rw [hresult] at hfailed
      cases hfailed
    | error e =>
      refine .unchanged _ ?_
      change Registry.SameStanding site.registry (site.registry.remove E title).2
      rw [Registry.remove_error hcoherent hresult]
      exact Registry.sameStanding_refl _
  | start coded title =>
    obtain ⟨e, herror⟩ := Response.exists_error_of_ofResult hfailed
    exact .unchanged _ (Registry.start_error herror).1
  | stop coded title =>
    obtain ⟨e, herror⟩ := Response.exists_error_of_ofResult hfailed
    exact .unchanged _ (Registry.stop_error herror)
  | configure coded title changes hdecoded hgiven =>
    obtain ⟨e, herror⟩ := Response.exists_error_of_ofResult hfailed
    rcases Registry.update_error herror with
      hsame | ⟨old, config, hreceived, hmerged, hmoved, hrefused, hstopped, hothers⟩
    · exact .unchanged _ hsame
    · exact .notMoved coded title changes old config e hdecoded hgiven hreceived hmerged hmoved
        hrefused hstopped hothers

/-- Whatever operations, sessions and commits have made of the registered streams, a request that
fails leaves their titles and configurations as they are, and receives the same ones, unless it
adds a stream or moves one that is received, and the system refuses to receive it. -/
theorem failing_request {catalog : σ}
    (hreaches : Registry.Reaches (.empty catalog) site.registry) (request : Request)
    (hfailed : (site.handle E request).1.succeeded = false) :
    AfterFailure E request site.registry (site.handle E request).2.registry
      (Route.ofPath? (splitTarget request.target).1) := by
  have hcoherent := hreaches.isCoherent (Registry.isCoherent_empty catalog)
  rcases handle_cases E request site with hsite | ⟨route, hroute, heffect⟩
  · rw [hsite]
    exact .unchanged _ (Registry.sameStanding_refl _)
  · rw [hroute]
    exact heffect.afterFailure hcoherent hfailed

end Site

end AnyReader

namespace Site

/-- A host without interfaces. -/
private def loneHost : Environment MemoryCatalog where
  catalog := MemoryCatalog.catalog
  network := .isolated
  now := ⟨⟨0, 0⟩, 0⟩

/-- A stream on a port of this host that is received from the start. -/
private def onPort (title port : String) : Properties :=
  .ofList [(PropertyName.title, PropertyValue.text title),
    (PropertyName.monitoredAddress, PropertyValue.text ("udp://127.0.0.1:" ++ port)),
    (PropertyName.startImmediately, PropertyValue.bool true)]

/-- A site on which one stream is received. -/
private def oneStream : Site MemoryCatalog :=
  (addStream loneHost (onPort "alpha" "5000") ⟨.empty, .empty .empty⟩).2

/-- A site on which two streams are received. -/
private def twoStreams : Site MemoryCatalog :=
  (oneStream.addStream loneHost (onPort "beta" "5001")).2

private theorem reaches_twoStreams :
    Registry.Reaches (.empty MemoryCatalog.empty) twoStreams.registry := by
  have hone : Registry.Reaches (.empty MemoryCatalog.empty) oneStream.registry := by
    rw [oneStream]
    exact reaches_addStream loneHost _ ⟨.empty, .empty .empty⟩
  have htwo : Registry.Reaches oneStream.registry twoStreams.registry := by
    rw [twoStreams]
    exact reaches_addStream loneHost _ oneStream
  exact hone.trans htwo

/-- A request for a third stream, on the port of the second one. -/
private def addition : Request where
  method := "POST"
  target := "/api/streams"
  body := some
    "\x7b\"title\":\"gamma\",\"monitoredAddress\":\"udp://127.0.0.1:5001\",\"startImmediately\":true\x7d"

private theorem handle_addition (site : Site MemoryCatalog) :
    site.handle loneHost addition = site.serve loneHost .streams addition "" := by
  have hpath : splitTarget "/api/streams" = ("/api/streams", "") := by decide +kernel
  have hroute : Route.ofPath? "/api/streams" = some .streams := by
    rw [Route.ofPath?, show "/api/streams".splitOn "/" = ["", "api", "streams"] by
      simp +decide [String.splitOn, String.splitOnAux]]
    rfl
  have hmethod : "POST" ∈ Route.streams.methods := by decide
  simp only [handle, addition, hpath, hroute, hmethod, not_true_eq_false, if_false,
    show ¬"POST" = "OPTIONS" by decide, show ¬"POST" = "HEAD" by decide]

/-- A stream that cannot be started stays registered, although the request for it fails. -/
theorem failing_request_port_taken :
    (twoStreams.handle loneHost addition).1.succeeded = false ∧
      AfterFailure loneHost addition twoStreams.registry
        (twoStreams.handle loneHost addition).2.registry
        (Route.ofPath? (splitTarget addition.target).1) := by
  have hfailed : (twoStreams.handle loneHost addition).1.succeeded = false := by
    rw [handle_addition]
    decide +kernel
  exact ⟨hfailed, failing_request reaches_twoStreams _ hfailed⟩

/-- A request for the port of the second stream, for the first one. -/
private def relocation : Request where
  method := "POST"
  target := "/api/streams/alpha/config"
  body := some "\x7b\"monitoredAddress\":\"udp://127.0.0.1:5001\"\x7d"

private theorem handle_relocation (site : Site MemoryCatalog) :
    site.handle loneHost relocation = site.serve loneHost (.configure "alpha") relocation "" := by
  have hpath : splitTarget "/api/streams/alpha/config" = ("/api/streams/alpha/config", "") := by
    decide +kernel
  have hroute : Route.ofPath? "/api/streams/alpha/config" = some (.configure "alpha") := by
    rw [Route.ofPath?,
      show "/api/streams/alpha/config".splitOn "/" = ["", "api", "streams", "alpha", "config"] by
        simp +decide [String.splitOn, String.splitOnAux]]
    rfl
  have hmethod : "POST" ∈ (Route.configure "alpha").methods := by decide
  simp only [handle, relocation, hpath, hroute, hmethod, not_true_eq_false, if_false,
    show ¬"POST" = "OPTIONS" by decide, show ¬"POST" = "HEAD" by decide]

/-- The titles, the ports, and whether streams are received. -/
private def receptions (site : Site MemoryCatalog) : List (String × UInt16 × Bool) :=
  site.registry.toList.map fun (title, m) => (title, m.config.address.port, m.receiving)

/-- Two requests that fail and do change something: a third stream is registered, and the first
one is not received any more and has another address. -/
theorem failing_requests_with_effect :
    receptions twoStreams = [("alpha", 5000, true), ("beta", 5001, true)] ∧
      (twoStreams.handle loneHost addition).1.succeeded = false ∧
      receptions (twoStreams.handle loneHost addition).2 =
        [("alpha", 5000, true), ("beta", 5001, true), ("gamma", 5001, false)] ∧
      (twoStreams.handle loneHost relocation).1.succeeded = false ∧
      receptions (twoStreams.handle loneHost relocation).2 =
        [("alpha", 5001, false), ("beta", 5001, true)] := by
  rw [handle_addition, handle_relocation]
  decide +kernel

end Site

end StreamCatalog.Web
