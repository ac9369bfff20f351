import StreamCatalog.Json.Parser
import StreamCatalog.Json.Printer
import StreamCatalog.Record.Basic
import StreamCatalog.Time.Rfc3339

/-!
# Attributes as JSON

An attribute is stored as an object of its type and its value. Geometries are
objects of one member named for their kind; points are objects of `x` and `y`.
Doubles that are not finite are written as `null`, which is no double when it is
read. An object may also be given as the array of its values; members that
nothing asks for are passed over, and a member that is asked for may occur once.
-/

namespace StreamCatalog

namespace Json

/-- The values of the named members of an object, each of which occurs once, or the items of an
array of as many. -/
def fields? (names : List String) : Json → Option (List Json)
  | .object members =>
    names.mapM fun name =>
      match members.filter (·.1 = name) with
      | [(_, value)] => some value
      | _ => none
  | .array items => if items.length = names.length then some items else none
  | _ => none

end Json

/-- A point as an object. -/
def Coord.toJson (c : Coord) : Json :=
  .object [("x", .ofFloat c.x), ("y", .ofFloat c.y)]

/-- The point that an object gives. -/
def Coord.ofJson? (j : Json) : Option Coord := do
  match ← j.fields? ["x", "y"] with
  | [x, y] => return ⟨← x.float?, ← y.float?⟩
  | _ => none

/-- Points as an array. -/
def coordsToJson (cs : List Coord) : Json := .array (cs.map Coord.toJson)

/-- The points that an array gives. -/
def coordsOfJson? (j : Json) : Option (List Coord) := do
  (← j.array?).mapM Coord.ofJson?

/-- A polygon as an object. -/
def Polygon.toJson (p : Polygon) : Json :=
  .object [("exterior", coordsToJson p.exterior),
    ("interiors", .array (p.holes.map coordsToJson))]

/-- The polygon that an object gives. Its rings are not closed. -/
def Polygon.ofJson? (j : Json) : Option Polygon := do
  match ← j.fields? ["exterior", "interiors"] with
  | [exterior, interiors] =>
    return ⟨← coordsOfJson? exterior, ← (← interiors.array?).mapM coordsOfJson?⟩
  | _ => none

namespace Geometry

mutual

/-- A geometry as an object of one member. -/
def toJson : Geometry → Json
  | point p => .object [("Point", p.toJson)]
  | line a b => .object [("Line", .object [("start", a.toJson), ("end", b.toJson)])]
  | lineString ps => .object [("LineString", coordsToJson ps)]
  | polygon p => .object [("Polygon", p.toJson)]
  | multiPoint ps => .object [("MultiPoint", coordsToJson ps)]
  | multiLineString ls => .object [("MultiLineString", .array (ls.map coordsToJson))]
  | multiPolygon ps => .object [("MultiPolygon", .array (ps.map Polygon.toJson))]
  | collection gs => .object [("GeometryCollection", .array (partsToJson gs))]
  | rect b => .object [("Rect", .object [("min", b.low.toJson), ("max", b.high.toJson)])]
  | triangle a b c => .object [("Triangle", coordsToJson [a, b, c])]

/-- Geometries as objects. -/
def partsToJson : List Geometry → List Json
  | [] => []
  | g :: gs => toJson g :: partsToJson gs

end

/-- The geometry of a kind that has no geometries as parts. -/
def ofKind? (kind : String) (value : Json) : Option Geometry :=
  match kind with
  | "Point" => (Coord.ofJson? value).map point
  | "Line" => do
    match ← value.fields? ["start", "end"] with
    | [a, b] => return line (← Coord.ofJson? a) (← Coord.ofJson? b)
    | _ => none
  | "LineString" => (coordsOfJson? value).map lineString
  | "Polygon" => (Polygon.ofJson? value).map polygon
  | "MultiPoint" => (coordsOfJson? value).map multiPoint
  | "MultiLineString" => do return multiLineString (← (← value.array?).mapM coordsOfJson?)
  | "MultiPolygon" => do return multiPolygon (← (← value.array?).mapM Polygon.ofJson?)
  | "Rect" => do
    match ← value.fields? ["min", "max"] with
    | [a, b] => return rect ⟨← Coord.ofJson? a, ← Coord.ofJson? b⟩
    | _ => none
  | "Triangle" => do
    match ← coordsOfJson? value with
    | [a, b, c] => return triangle a b c
    | _ => none
  | _ => none

mutual

/-- The geometry that an object of one member gives. -/
def ofJson? : Json → Option Geometry
  | .object [("GeometryCollection", .array items)] => (partsOfJson? items).map collection
  | .object [(kind, value)] => ofKind? kind value
  | _ => none

/-- The geometries that objects give. -/
def partsOfJson? : List Json → Option (List Geometry)
  | [] => some []
  | j :: js => do return (← ofJson? j) :: (← partsOfJson? js)

end

end Geometry

namespace Attribute

/-- An attribute as an object of its type and value. -/
def toJson (a : Attribute) : Json :=
  let (type, value) := match a with
    | text s => ("text", Json.text s)
    | integer i => ("integer", .int i)
    | double x => ("double", .ofFloat x)
    | date t => ("date", .text t.rfc3339)
    | geometry g => ("geometry", g.toJson)
    | list items => ("list", .array (items.map .text))
  .object [("type", .text type), ("value", value)]

/-- The attribute of a type. -/
def ofTyped? (type : String) (value : Json) : Option Attribute :=
  match type with
  | "text" => value.text?.map text
  | "integer" => do
    let i ← value.int?
    if i < (1 <<< 63 : Nat) then some (integer i) else none
  | "double" => value.float?.map double
  | "date" => (value.text?.bind Instant.ofRfc3339?).map date
  | "geometry" => (Geometry.ofJson? value).map geometry
  | "list" => do return list (← (← value.array?).mapM Json.text?)
  | _ => none

/-- The attribute that an object of its type and value gives. -/
def ofJson? (j : Json) : Option Attribute := do
  match ← j.fields? ["type", "value"] with
  | [type, value] => ofTyped? (← type.text?) value
  | _ => none

end Attribute

namespace Attributes

/-- Attributes as an object. -/
def toJson (attributes : Attributes) : Json :=
  .object (attributes.toList.map fun (name, value) => (name, value.toJson))

/-- The attributes that an object gives; of two with one name the later one counts. -/
def ofJson? (j : Json) : Option Attributes := do
  (← j.object?).foldlM (fun (all : Attributes) (name, value) => do
    return all.insert name (← Attribute.ofJson? value)) ∅

/-- Where the first `null` of a JSON text ends, in bytes; `done` bytes stand before the text, and
`quoted` says whether it starts within a string. -/
def nullEnd? (done : Nat) (quoted : Bool) : List Char → Option Nat
  | [] => none
  | '\\' :: c :: rest => nullEnd? (done + 1 + c.utf8Size) quoted rest
  | '"' :: rest => nullEnd? (done + 1) (!quoted) rest
  | c :: rest =>
    if c = 'n' && !quoted then some (done + 4) else nullEnd? (done + c.utf8Size) quoted rest

/-- The text under which attributes are stored. -/
def stored (attributes : Attributes) : String :=
  attributes.toJson.compact

variable [Json.NumberReader]

/-- The attributes stored under a text. -/
def ofStored? (s : String) : Option Attributes :=
  (Json.parse? s).bind ofJson?

end Attributes

end StreamCatalog
