import StreamCatalog.Record.Stored

/-!
# The record database

Two tables, keyed by the identifier of a record: one of records, whose
attributes are stored as JSON text beside two columns taken from them, and one
of stored contents, each of which belongs to a record. An operation that fails
leaves both tables as they were.
-/

namespace StreamCatalog

/-- A row of the table of records. -/
structure RecordRow where
  /-- The name of the kind. -/
  kind : String
  /-- The title, if that attribute is a text. -/
  title : Option String
  /-- The address of the content, if that attribute is a text. -/
  resourceUri : Option String
  /-- The attributes as JSON text. -/
  attributes : String
deriving DecidableEq, Repr

/-- A row of the table of contents. -/
structure ContentRow where
  /-- Where the content is stored. -/
  path : String
  /-- How many bytes it has. -/
  byteLength : Nat
  /-- Its format. -/
  mimeType : String
deriving DecidableEq, Repr

/-- A row of a listing of records. -/
structure RecordSummary where
  /-- The identifier. -/
  id : String
  /-- The name of the kind. -/
  kind : String
  /-- The title. -/
  title : Option String
  /-- The address of the content. -/
  resourceUri : Option String
deriving DecidableEq, Repr

/-- Why an operation on the database fails. -/
inductive DatabaseError where
  /-- There is a record of the identifier. -/
  | duplicateRecord
  /-- There is a content of the identifier. -/
  | duplicateContent
  /-- A content belongs to no record. -/
  | orphanContent
  /-- The database refuses to store a content. -/
  | refused (reason : String)
  /-- Somebody else holds the database. -/
  | busy (reason : String)
  /-- Stored attributes cannot be read. A double that is not finite is stored as `null`; the first
  one ends after so many bytes. -/
  | unreadable (nullEnd? : Option Nat)
  /-- There is no record of the identifier. -/
  | notFound (id : String)
  /-- A stored kind is none. -/
  | unknownKind (kind : String)
deriving DecidableEq, Repr

/-- What is said about a failure. -/
def DatabaseError.message : DatabaseError → String
  | duplicateRecord => "SQLite error: UNIQUE constraint failed: records.id"
  | duplicateContent => "SQLite error: UNIQUE constraint failed: record_content.record_id"
  | orphanContent => "SQLite error: FOREIGN KEY constraint failed"
  | refused reason | busy reason => "SQLite error: " ++ reason
  | unreadable none => "Attribute encoding error"
  | unreadable (some n) =>
    "Attribute encoding error: invalid type: null, expected f64 at line 1 column " ++ toString n
  | notFound id => "Record not found: " ++ id
  | unknownKind kind => "Unknown record kind: " ++ kind

/-- Whether the same operation may succeed later. -/
def DatabaseError.isBusy : DatabaseError → Bool
  | busy _ => true
  | _ => false

/-- The row that stores a record. -/
def Record.row (r : Record) : RecordRow where
  kind := r.kind.name
  title := r.title?
  resourceUri := r.text? AttributeName.resourceUri
  attributes := r.attributes.stored

variable [Json.NumberReader]

/-- The record that a row stores. -/
def RecordRow.record (row : RecordRow) (id : String) : Except DatabaseError Record :=
  match RecordKind.ofName? row.kind with
  | none => .error (.unknownKind row.kind)
  | some kind =>
    match Attributes.ofStored? row.attributes with
    | none => .error (.unreadable (Attributes.nullEnd? 0 false row.attributes.toList))
    | some attributes => .ok ⟨id, kind, attributes⟩

/-- The tables. -/
structure Database where
  /-- The records by identifier. -/
  records : Std.ExtTreeMap String RecordRow
  /-- The contents by the identifier of their record. -/
  contents : Std.ExtTreeMap String ContentRow
  /-- The reason for which every further content is refused, if there is one. -/
  refusal : Option String

namespace Database

/-- A database without records. -/
def empty : Database := ⟨∅, ∅, none⟩

/-- Insert a record. -/
def insert (db : Database) (r : Record) : Except DatabaseError Database :=
  if r.id ∈ db.records then .error .duplicateRecord
  else .ok { db with records := db.records.insert r.id r.row }

/-- Insert the content of a record. -/
def insertContentRow (db : Database) (id : String) (row : ContentRow) :
    Except DatabaseError Database :=
  match db.refusal with
  | some reason => .error (.refused reason)
  | none =>
    if id ∈ db.contents then .error .duplicateContent
    else if id ∉ db.records then .error .orphanContent
    else .ok { db with contents := db.contents.insert id row }

/-- Insert a record and its content, or neither. -/
def insertWithContent (db : Database) (r : Record) (row : ContentRow) :
    Except DatabaseError Database := do
  (← db.insert r).insertContentRow r.id row

/-- The record of an identifier. -/
def get (db : Database) (id : String) : Except DatabaseError (Option Record) :=
  match db.records[id]? with
  | none => .ok none
  | some row => (row.record id).map some

/-- Set attributes of a record, and give the record as it is then. -/
def update (db : Database) (id : String) (changes : Attributes) :
    Except DatabaseError (Record × Database) := do
  match ← db.get id with
  | none => .error (.notFound id)
  | some r =>
    let r := { r with attributes := r.attributes.overlay changes }
    return (r, { db with records := db.records.insert id r.row })

/-- The summary of a row. -/
def rowSummary (id : String) (row : RecordRow) : RecordSummary :=
  ⟨id, row.kind, row.title, row.resourceUri⟩

/-- All records, or those of one kind, in the order of identifiers. -/
def list (db : Database) (kind : Option RecordKind) : List RecordSummary :=
  (db.records.toList.filter fun (_, row) => kind.all (·.name = row.kind)).map
    fun (id, row) => rowSummary id row

/-- The content of a record. -/
def content? (db : Database) (id : String) : Option ContentRow :=
  db.contents[id]?

/-! ## Changes from outside -/

/-- Overwrite the row of a record, and count the rows changed. -/
def modifyRow (db : Database) (id : String) (f : RecordRow → RecordRow) : Nat × Database :=
  match db.records[id]? with
  | none => (0, db)
  | some row => (1, { db with records := db.records.insert id (f row) })

/-- Overwrite the stored kind of a record. -/
def setKind (db : Database) (id kind : String) : Nat × Database :=
  db.modifyRow id fun row => { row with kind := kind }

/-- Overwrite the stored attributes of a record. -/
def setAttributes (db : Database) (id text : String) : Nat × Database :=
  db.modifyRow id fun row => { row with attributes := text }

/-- Refuse every further content. -/
def refuseContents (db : Database) (reason : String) : Database :=
  { db with refusal := some reason }

end Database

end StreamCatalog
