import StreamCatalog.Geometry.Kernel
import StreamCatalog.Geometry.Normalize
import StreamCatalog.Geometry.Validity

/-!
# Geometry operators

An operator turns a geometry into another one. When what comes out is not
structurally valid, the geometry stays as it is, so that a chain of operators
never makes a geometry worse than it was. An operator has no result where the
kernel has none, unless it can do without.
-/

namespace StreamCatalog

/-- The tolerances of a chain of operators. -/
structure Tolerances where
  /-- The simplification tolerance in degrees. -/
  distance : Float
  /-- The buffer distance in degrees; zero is no buffer. -/
  bufferDistance : Float
  /-- How many segments a buffered point has. -/
  bufferSegments : Nat
deriving Repr

/-- The tolerances without a buffer, at a simplification tolerance. -/
def Tolerances.ofDistance (distance : Float) : Tolerances :=
  ⟨distance, 0.0, 16⟩

/-- The tolerances that hold unless others are set. -/
def Tolerances.standard : Tolerances := .ofDistance 0.0001

/-- A transformation of geometries. -/
inductive Operator where
  /-- Leaves the geometry as it is. -/
  | identity
  /-- Puts coordinates into their normal range. -/
  | normalize
  /-- Drops points within the simplification tolerance. -/
  | simplify
  /-- The convex hull. -/
  | convexHull
  /-- The bounding box. -/
  | envelope
  /-- The union of the bounding boxes of the parts. -/
  | partEnvelopes
  /-- The convex hull of discs around all points. -/
  | buffer
  /-- Operators applied one after the other. -/
  | chain (operators : List Operator)

/-- A full turn. -/
def fullTurn : Float := 6.283185307179586

/-- The corners of a regular polygon around a point. -/
def disc (distance : Float) (segments : Nat) (c : Coord) : List Coord :=
  (List.range segments).map fun i =>
    let angle := fullTurn / Float.ofNat segments * Float.ofNat i
    ⟨c.x + distance * angle.cos, c.y + distance * angle.sin⟩

variable [GeometryKernel]

namespace Geometry

/-- Simplify lines and polygons; other geometries, and all of them at a tolerance that
is not positive, stay as they are. -/
def simplify? (tolerance : Float) (g : Geometry) : Option Geometry :=
  if tolerance ≤ 0.0 then some g
  else
    match g with
    | .lineString ps => (GeometryKernel.simplifyLine? tolerance ps).map .lineString
    | .multiLineString ls =>
      (ls.mapM (GeometryKernel.simplifyLine? tolerance)).map .multiLineString
    | .polygon p => (GeometryKernel.simplifyPolygon? tolerance p).map .polygon
    | .multiPolygon ps => (ps.mapM (GeometryKernel.simplifyPolygon? tolerance)).map .multiPolygon
    | _ => some g

/-- The convex hull of a geometry; without points it stays as it is. -/
def convexHull? (g : Geometry) : Option Geometry :=
  if g.coords.isEmpty then some g
  else (GeometryKernel.hull? g.coords).map .polygon

/-- The convex hull of discs around all points of a geometry. With a distance that is
not positive, or fewer than three segments, the geometry stays as it is. -/
def buffer? (distance : Float) (segments : Nat) (g : Geometry) : Option Geometry :=
  if distance ≤ 0.0 || segments < 3 || g.coords.isEmpty then some g
  else (GeometryKernel.hull? (g.coords.flatMap (disc distance segments))).map .polygon

/-- The union of the bounding boxes of the parts. A part without extent on both axes is
kept unless it meets the union; a geometry of one part, without any solid part or whose union
breaks off, stays as it is. -/
def partEnvelopes (g : Geometry) : Geometry :=
  if g.partCount ≤ 1 then g
  else
    let boxes := g.components.filterMap Geometry.box?
    let (solid, flat) := boxes.partition Box.isSolid
    if solid.isEmpty then g
    else
      match GeometryKernel.union? solid with
      | none => g
      | some union =>
        let loose := flat.filter fun b => !union.meets b
        match union.polygons, loose with
        | [p], [] => .polygon p
        | ps, [] => .multiPolygon ps
        | ps, _ => .collection (ps.map .polygon ++ loose.map Box.toGeometry)

end Geometry

namespace Operator

/-- The name of an operator. -/
def name : Operator → String
  | identity => "identity"
  | normalize => "normalize"
  | simplify => "simplify"
  | convexHull => "convex-hull"
  | envelope => "envelope"
  | partEnvelopes => "subpolygons-to-envelopes"
  | buffer => "buffer"
  | chain _ => "list"

/-- `output` if it is valid, and else `input`. -/
def validOr (input output : Geometry) : Geometry :=
  if output.isValid then output else input

mutual

/-- The result of an operator, if it has one. -/
def result? (t : Tolerances) : Operator → Geometry → Option Geometry
  | identity, g => some g
  | normalize, g => some (validOr g g.normalize)
  | simplify, g => (g.simplify? t.distance).map (validOr g)
  | convexHull, g => g.convexHull?.map (validOr g)
  | envelope, g => some (validOr g g.envelope)
  | partEnvelopes, g => some (validOr g g.partEnvelopes)
  | buffer, g => (g.buffer? t.bufferDistance t.bufferSegments).map (validOr g)
  | chain ops, g => chainResult? t ops g

/-- The result of operators applied one after the other, if there is one. -/
def chainResult? (t : Tolerances) : List Operator → Geometry → Option Geometry
  | [], g => some g
  | op :: ops, g => (result? t op g).bind (chainResult? t ops)

end

/-- The result of an operator; without one the geometry stays as it is. -/
def apply (t : Tolerances) (op : Operator) (g : Geometry) : Geometry :=
  (result? t op g).getD g

/-- The operators of the location of a chunk. -/
def location : Operator := chain [normalize, partEnvelopes, simplify]

/-- The operators after two locations have been put together. -/
def joinedLocation : Operator := chain [partEnvelopes, simplify]

/-- The operators that are no chains. -/
def single : List Operator :=
  [identity, normalize, simplify, convexHull, envelope, partEnvelopes, buffer]

/-- The operator of a name, which may be that of the location of a chunk. -/
def ofName? (s : String) : Option Operator :=
  if s = "location" then some location else single.find? (·.name = s)

end Operator

end StreamCatalog
