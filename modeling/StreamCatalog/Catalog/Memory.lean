import StreamCatalog.Catalog.Basic
import StreamCatalog.Files.Fault

/-!
# A catalog in memory

Keeps records and counts the requests made to it. Failures can be scripted:
each waits for the next request of its kind. The catalog may also be told to
drop an attribute of records with content.
-/

namespace StreamCatalog

/-- The state of a catalog in memory. -/
structure MemoryCatalog where
  /-- The records by identifier. -/
  records : Std.ExtTreeMap String Record
  /-- How many identifiers were given. -/
  issued : Nat
  /-- How many records were asked for. -/
  createCalls : Nat
  /-- How many records with content were asked for. -/
  contentCalls : Nat
  /-- The identifiers for which updates were asked for, the latest first. -/
  updateCalls : List String
  /-- The sizes of the contents stored, the latest first. -/
  contentSizes : List Nat
  /-- What the next requests for records fail with. -/
  createFailures : List CatalogError
  /-- What the next requests for records with content fail with. -/
  contentFailures : List CatalogError
  /-- What the next updates fail with. -/
  updateFailures : List CatalogError
  /-- The attribute that records with content lose. -/
  dropped : Option String

namespace MemoryCatalog

/-- A catalog without records. -/
def empty : MemoryCatalog where
  records := ∅
  issued := 0
  createCalls := 0
  contentCalls := 0
  updateCalls := []
  contentSizes := []
  createFailures := []
  contentFailures := []
  updateFailures := []
  dropped := none

/-- The identifier of the `n`-th record without one. -/
def idText (kind : RecordKind) (n : Nat) : String :=
  kind.name ++ "-" ++ toString n

/-- Store a record, which gets an identifier if it has none. -/
def store (c : MemoryCatalog) (r : Record) : Record × MemoryCatalog :=
  if r.id = "" then
    let r := { r with id := idText r.kind (c.issued + 1) }
    (r, { c with issued := c.issued + 1, records := c.records.insert r.id r })
  else
    (r, { c with records := c.records.insert r.id r })

/-- Create a record. -/
def create (r : Record) (c : MemoryCatalog) : Except CatalogError Record × MemoryCatalog :=
  let c := { c with createCalls := c.createCalls + 1 }
  match c.createFailures with
  | e :: later => (.error e, { c with createFailures := later })
  | [] =>
    let (r, c) := c.store r
    (.ok r, c)

/-- A record without the attribute that is dropped. -/
def afterDrop (c : MemoryCatalog) (r : Record) : Record :=
  { r with attributes := c.dropped.elim r.attributes r.attributes.erase }

/-- Create a record with content. A file that is not there is not counted as a request. -/
def createContent (request : ContentRequest) (c : MemoryCatalog) :
    Except CatalogError Record × MemoryCatalog :=
  match request.source.bytes? with
  | none => (.error (.rejected FileFault.notFound.message), c)
  | some bytes =>
    let c := { c with contentCalls := c.contentCalls + 1 }
    match c.contentFailures with
    | e :: later => (.error e, { c with contentFailures := later })
    | [] =>
      let r := (c.afterDrop request.record).set AttributeName.resourceSize (.integer bytes.length)
      let (r, c) := { c with contentSizes := bytes.length :: c.contentSizes }.store r
      (.ok r, c)

/-- Set attributes of a record. -/
def update (id : String) (changes : Attributes) (c : MemoryCatalog) :
    Except CatalogError Record × MemoryCatalog :=
  let c := { c with updateCalls := id :: c.updateCalls }
  match c.updateFailures with
  | e :: later => (.error e, { c with updateFailures := later })
  | [] =>
    match c.records[id]? with
    | none => (.error (.rejected ("no record " ++ id)), c)
    | some r =>
      let r := { r with attributes := r.attributes.overlay changes }
      (.ok r, { c with records := c.records.insert id r })

/-- The record of an identifier. -/
def get (id : String) (c : MemoryCatalog) : Except CatalogError (Option Record) :=
  .ok c.records[id]?

/-- The requests that a catalog in memory answers. -/
def catalog : Catalog MemoryCatalog := ⟨create, createContent, update, get⟩

/-- The records of a kind, in the order of identifiers. -/
def recordsOf (c : MemoryCatalog) (kind : RecordKind) : List Record :=
  (c.records.toList.map (·.2)).filter (·.kind = kind)

end MemoryCatalog

end StreamCatalog
