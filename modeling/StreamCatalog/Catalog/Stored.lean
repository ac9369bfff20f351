import StreamCatalog.Catalog.Basic
import StreamCatalog.Database
import StreamCatalog.Files.Fault

/-!
# A catalog in a database

Keeps records in a database and their contents as files of one directory, each
named for its record. A content is copied first and removed again when its rows
cannot be inserted. A copy that breaks off is not removed.
-/

namespace StreamCatalog

/-- The directory of stored contents. -/
structure ContentDirectory where
  /-- Where it is. -/
  path : String
  /-- Whether a file has its name. -/
  blocked : Bool
  /-- The stored files by name. -/
  files : Std.ExtTreeMap String Bytes

namespace ContentDirectory

/-- A directory with one more file, in the place of one that has its name. -/
def withFile (d : ContentDirectory) (name : String) (bytes : Bytes) : ContentDirectory :=
  { d with files := d.files.insert name bytes }

/-- A directory without one of its files. -/
def withoutFile (d : ContentDirectory) (name : String) : ContentDirectory :=
  { d with files := d.files.erase name }

end ContentDirectory

/-- A copy that breaks off. -/
structure CopyBreak where
  /-- How many bytes it has written. -/
  written : Nat
  /-- Why it breaks off. -/
  fault : FileFault

/-- The state of a catalog in a database. -/
structure StoredCatalog where
  /-- The database. -/
  database : Database
  /-- The stored contents. -/
  directory : ContentDirectory
  /-- How many identifiers were given. -/
  issued : Nat

namespace StoredCatalog

/-- A catalog without records. -/
def empty (path : String) : StoredCatalog := ⟨.empty, ⟨path, false, ∅⟩, 0⟩

/-- An odd factor that spreads the numbers of records over all identifiers. -/
def idFactor : Nat := 0x9E3779B97F4A7C15F39CC0605CEDC835

/-- The identifier of the `n`-th record without one: 32 hexadecimal digits. -/
def idText (n : Nat) : String :=
  let digits := Nat.toDigits 16 ((n + 1) * idFactor % (1 <<< 128))
  String.ofList (List.replicate (32 - digits.length) '0' ++ digits)

/-- A record with an identifier, which is a new one if it has none. -/
def assignId (c : StoredCatalog) (r : Record) : Record × StoredCatalog :=
  if r.id = "" then ({ r with id := idText c.issued }, { c with issued := c.issued + 1 })
  else (r, c)

/-- A failure of the database as one of the catalog. -/
def refusalOf (e : DatabaseError) : CatalogError :=
  if e.isBusy then .unavailable e.message else .rejected e.message

/-- Create a record. -/
def create (r : Record) (c : StoredCatalog) : Except CatalogError Record × StoredCatalog :=
  let (r, c) := c.assignId r
  match c.database.insert r with
  | .error e => (.error (refusalOf e), c)
  | .ok database => (.ok r, { c with database := database })

/-- The name of the file of a content. -/
def fileName (id : String) : String := id ++ ".ts"

/-- What is stored as the content of an identifier. -/
def stored? (c : StoredCatalog) (id : String) : Option Bytes :=
  match filePlace (fileName id) with
  | .error _ => none
  | .ok name => c.directory.files[name]?

/-- The address of a content in the catalog. -/
def contentUri (id : String) : String := "content:" ++ id

/-- Copy a file to the place in the directory that a path leads to, and give that place with what was
copied. A copy that breaks off leaves what it has written. -/
def copy (place : Except FileFault String) (breaks : Option CopyBreak) (source : ContentSource)
    (c : StoredCatalog) : Except CatalogError (String × Bytes) × StoredCatalog :=
  let cannotStore (fault : FileFault) : CatalogError :=
    .rejected ("cannot store " ++ source.path ++ ": " ++ fault.message)
  if c.directory.blocked then
    (.error (.unavailable ("content directory: " ++ FileFault.exists.message)), c)
  else
    match source.bytes? with
    | none => (.error (cannotStore .notFound), c)
    | some bytes =>
      match place, breaks with
      | .error fault, _ => (.error (cannotStore fault), c)
      | .ok name, some b =>
        let directory := c.directory.withFile name (bytes.take b.written)
        (.error (cannotStore b.fault), { c with directory := directory })
      | .ok name, none =>
        (.ok (name, bytes), { c with directory := c.directory.withFile name bytes })

/-- Create a record with content. -/
def createContent (request : ContentRequest) (c : StoredCatalog) :
    Except CatalogError Record × StoredCatalog :=
  let (r, c) := c.assignId request.record
  let path := fileName r.id
  match c.copy (filePlace path) none request.source with
  | (.error e, c) => (.error e, c)
  | (.ok (name, bytes), stored) =>
    let r := r.set AttributeName.resourceUri (.text (contentUri r.id))
    let r := r.set AttributeName.resourceSize (.integer bytes.length)
    let row := ⟨joinPath c.directory.path path, bytes.length, request.mimeType⟩
    match stored.database.insertWithContent r row with
    | .error e =>
      (.error (refusalOf e), { stored with directory := stored.directory.withoutFile name })
    | .ok database => (.ok r, { stored with database := database })

variable [Json.NumberReader]

/-- Set attributes of a record. -/
def update (id : String) (changes : Attributes) (c : StoredCatalog) :
    Except CatalogError Record × StoredCatalog :=
  match c.database.update id changes with
  | .error e => (.error (refusalOf e), c)
  | .ok (r, database) => (.ok r, { c with database := database })

/-- The record of an identifier. -/
def get (id : String) (c : StoredCatalog) : Except CatalogError (Option Record) :=
  (c.database.get id).mapError refusalOf

/-- The requests that a catalog in a database answers. -/
def catalog : Catalog StoredCatalog := ⟨create, createContent, update, get⟩

end StoredCatalog

end StreamCatalog
