import StreamCatalog.Geometry.Basic
import StreamCatalog.Time.Instant
import Std.Data.ExtTreeMap

/-!
# Catalog records

A record has an identifier, a kind and named attributes. A stream makes one
parent record and a child record for each chunk; a child names its parent, and
the parent lists its children. `Record.changedSince` gives the attributes in
which a record differs from an earlier one.
-/

namespace StreamCatalog

/-- The value of an attribute. -/
inductive Attribute where
  /-- A text. -/
  | text (s : String)
  /-- A whole number. -/
  | integer (i : Int)
  /-- A double. -/
  | double (x : Float)
  /-- An instant. -/
  | date (t : Instant)
  /-- A geometry. -/
  | geometry (g : Geometry)
  /-- A list of texts. -/
  | list (items : List String)
deriving Inhabited

namespace Attribute

/-- Whether two attributes are of one type with equal values; numbers compare as doubles. -/
def same : Attribute → Attribute → Bool
  | text a, text b => a == b
  | integer a, integer b => a == b
  | double a, double b => a == b
  | date a, date b => a == b
  | geometry a, geometry b => a == b
  | list a, list b => a == b
  | _, _ => false

instance : BEq Attribute := ⟨same⟩

end Attribute

/-- Attributes by name, in the order of names. -/
abbrev Attributes := Std.ExtTreeMap String Attribute

/-- The attributes of `a`, with those of `b` in their place or besides them. -/
def Attributes.overlay (a b : Attributes) : Attributes :=
  a ∪ b

/-- What a record stands for. -/
inductive RecordKind where
  /-- A stream. -/
  | parent
  /-- A chunk of a stream. -/
  | child
deriving DecidableEq, Repr, Inhabited

namespace RecordKind

/-- The name of a kind. -/
def name : RecordKind → String
  | parent => "parent"
  | child => "child"

/-- The kind with a name. -/
def ofName? (s : String) : Option RecordKind :=
  if s = "parent" then some parent else if s = "child" then some child else none

theorem ofName?_eq_some_iff {s : String} {k : RecordKind} : ofName? s = some k ↔ s = k.name := by
  cases k <;> grind [ofName?, name]

end RecordKind

/-- A record of the catalog. -/
structure Record where
  /-- The identifier; empty until the catalog gives one. -/
  id : String
  /-- What the record stands for. -/
  kind : RecordKind
  /-- The attributes by name. -/
  attributes : Attributes

namespace Record

/-- A record without attributes. -/
def new (kind : RecordKind) : Record := ⟨"", kind, ∅⟩

/-- The attribute of a name. -/
def get? (r : Record) (name : String) : Option Attribute :=
  r.attributes[name]?

/-- The record with an attribute set. -/
def set (r : Record) (name : String) (value : Attribute) : Record :=
  { r with attributes := r.attributes.insert name value }

/-- The record with an attribute set, if there is a value. -/
def set? (r : Record) (name : String) (value : Option Attribute) : Record :=
  value.elim r (r.set name)

/-- A text attribute. -/
def text? (r : Record) (name : String) : Option String :=
  match r.get? name with
  | some (.text s) => some s
  | _ => none

/-- A date attribute. -/
def date? (r : Record) (name : String) : Option Instant :=
  match r.get? name with
  | some (.date t) => some t
  | _ => none

/-- A geometry attribute. -/
def geometry? (r : Record) (name : String) : Option Geometry :=
  match r.get? name with
  | some (.geometry g) => some g
  | _ => none

/-- A list attribute. -/
def list? (r : Record) (name : String) : Option (List String) :=
  match r.get? name with
  | some (.list items) => some items
  | _ => none

/-- Whether a value is missing from another record, or different there. -/
def differs (before : Option Attribute) (value : Attribute) : Bool :=
  match before with
  | some old => old != value
  | none => true

/-- The attributes that are new or different since an earlier record. -/
def changedSince (after before : Record) : Attributes :=
  after.attributes.filter fun name value => differs (before.get? name) value

@[simp] theorem get?_set (r : Record) (name other : String) (value : Attribute) :
    (r.set name value).get? other = if name = other then some value else r.get? other := by
  simp [get?, set, Std.ExtTreeMap.getElem?_insert]

end Record

/-! ## Names of attributes -/

namespace AttributeName

/-- The title of a stream or chunk. -/
def title : String := "title"

/-- Where the content is. -/
def resourceUri : String := "resource-uri"

/-- How many bytes the content has. -/
def resourceSize : String := "resource-size"

/-- When the record was made. -/
def created : String := "created"

/-- When the stream was last added to. -/
def modified : String := "modified"

/-- When the imagery starts. -/
def temporalStart : String := "temporal.start"

/-- When the imagery ends. -/
def temporalEnd : String := "temporal.end"

/-- Where the imagery lies. -/
def location : String := "location"

/-- The reference system of the location. -/
def crsName : String := "location.crs-name"

/-- The altitude of the sensor. -/
def altitude : String := "location.altitude-meters"

/-- Where the image centre is, or its track. -/
def frameCenter : String := "media.frame-center"

/-- The format of the content. -/
def mediaFormat : String := "media.format"

/-- The sensor. -/
def sensorId : String := "isr.sensor-id"

/-- The platform. -/
def platformId : String := "isr.platform-id"

/-- The mission. -/
def missionId : String := "isr.mission-id"

/-- The parent of a child. -/
def derived : String := "metacard.associations.derived"

/-- The children of a parent. -/
def related : String := "metacard.associations.related"

end AttributeName

/-- The title of a record. -/
def Record.title? (r : Record) : Option String :=
  r.text? AttributeName.title

end StreamCatalog
