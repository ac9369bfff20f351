/-!
# Planar geometries

Geometries over pairs of doubles, x east and y north. Rings, line strings and
multi-part geometries are lists; a collection holds geometries of any kind.
Equality (`==`) compares kind and all coordinates in order, as doubles.
-/

namespace StreamCatalog

/-- A point of the plane. -/
structure Coord where
  /-- Longitude. -/
  x : Float
  /-- Latitude. -/
  y : Float
deriving Repr, BEq, Inhabited

/-- Whether both coordinates are finite. -/
def Coord.isFinite (c : Coord) : Bool :=
  c.x.isFinite && c.y.isFinite

/-- An outer ring and the rings of its holes. -/
structure Polygon where
  /-- The outer ring. -/
  exterior : List Coord
  /-- The rings of the holes. -/
  holes : List (List Coord)
deriving Repr, BEq, Inhabited

/-- Whether the last point of a ring is its first one. -/
def isClosedRing (ring : List Coord) : Bool :=
  ring.head? == ring.getLast?

/-- A ring with its first point repeated at the end, unless it is closed. -/
def closeRing (ring : List Coord) : List Coord :=
  if isClosedRing ring then ring else ring ++ ring.head?.toList

/-- The polygon with all rings closed. -/
def Polygon.closed (p : Polygon) : Polygon :=
  ⟨closeRing p.exterior, p.holes.map closeRing⟩

/-- All points of a polygon. -/
def Polygon.coords (p : Polygon) : List Coord :=
  p.exterior ++ p.holes.flatten

/-- An axis-parallel rectangle. -/
structure Box where
  /-- The corner with the least coordinates. -/
  low : Coord
  /-- The corner with the greatest coordinates. -/
  high : Coord
deriving Repr, BEq

/-- The rectangle of two corners, put in order on each axis. -/
def Box.ofCorners (a b : Coord) : Box :=
  let (lowX, highX) := if a.x < b.x then (a.x, b.x) else (b.x, a.x)
  let (lowY, highY) := if a.y < b.y then (a.y, b.y) else (b.y, a.y)
  ⟨⟨lowX, lowY⟩, ⟨highX, highY⟩⟩

/-- The extent along x. -/
def Box.width (b : Box) : Float := b.high.x - b.low.x

/-- The extent along y. -/
def Box.height (b : Box) : Float := b.high.y - b.low.y

/-- A geometry. -/
inductive Geometry where
  /-- A single point. -/
  | point (p : Coord)
  /-- A segment. -/
  | line (a b : Coord)
  /-- A line through points. -/
  | lineString (points : List Coord)
  /-- A polygon. -/
  | polygon (p : Polygon)
  /-- Points. -/
  | multiPoint (points : List Coord)
  /-- Line strings. -/
  | multiLineString (lines : List (List Coord))
  /-- Polygons. -/
  | multiPolygon (polygons : List Polygon)
  /-- Geometries of any kind. -/
  | collection (parts : List Geometry)
  /-- An axis-parallel rectangle. -/
  | rect (b : Box)
  /-- A triangle. -/
  | triangle (a b c : Coord)
deriving Inhabited

namespace Geometry

/-- The triangle of three points, turned counter-clockwise. -/
def ofTriangle (a b c : Coord) : Geometry :=
  if (b.x - a.x) * (c.y - a.y) - (b.y - a.y) * (c.x - a.x) < 0.0 then
    triangle c b a
  else
    triangle a b c

mutual

/-- Whether two geometries are of one kind with equal coordinates in order. -/
def same : Geometry → Geometry → Bool
  | point p, point q => p == q
  | line a b, line c d => a == c && b == d
  | lineString ps, lineString qs => ps == qs
  | polygon p, polygon q => p == q
  | multiPoint ps, multiPoint qs => ps == qs
  | multiLineString ls, multiLineString ms => ls == ms
  | multiPolygon ps, multiPolygon qs => ps == qs
  | collection gs, collection hs => sameParts gs hs
  | rect b, rect c => b == c
  | triangle a b c, triangle d e f => a == d && b == e && c == f
  | _, _ => false

/-- Whether two lists hold the same geometries in order. -/
def sameParts : List Geometry → List Geometry → Bool
  | [], [] => true
  | g :: gs, h :: hs => same g h && sameParts gs hs
  | _, _ => false

end

instance : BEq Geometry := ⟨same⟩

mutual

/-- All points of a geometry, in order. -/
def coords : Geometry → List Coord
  | point p => [p]
  | line a b => [a, b]
  | lineString ps => ps
  | polygon p => p.coords
  | multiPoint ps => ps
  | multiLineString ls => ls.flatten
  | multiPolygon ps => ps.flatMap Polygon.coords
  | collection gs => coordsOfParts gs
  | rect b => [b.low, ⟨b.low.x, b.high.y⟩, b.high, ⟨b.high.x, b.low.y⟩]
  | triangle a b c => [a, b, c]

/-- All points of several geometries, in order. -/
def coordsOfParts : List Geometry → List Coord
  | [] => []
  | g :: gs => coords g ++ coordsOfParts gs

end

/-- The polygon with a function applied to its points. -/
def mapPolygon (f : Coord → Coord) (p : Polygon) : Polygon :=
  Polygon.closed ⟨p.exterior.map f, p.holes.map (·.map f)⟩

mutual

/-- The geometry with a function applied to its points. -/
def mapCoords (f : Coord → Coord) : Geometry → Geometry
  | point p => point (f p)
  | line a b => line (f a) (f b)
  | lineString ps => lineString (ps.map f)
  | polygon p => polygon (mapPolygon f p)
  | multiPoint ps => multiPoint (ps.map f)
  | multiLineString ls => multiLineString (ls.map (·.map f))
  | multiPolygon ps => multiPolygon (ps.map (mapPolygon f))
  | collection gs => collection (mapParts f gs)
  | rect b => rect (.ofCorners (f b.low) (f b.high))
  | triangle a b c => ofTriangle (f a) (f b) (f c)

/-- Several geometries with a function applied to their points. -/
def mapParts (f : Coord → Coord) : List Geometry → List Geometry
  | [] => []
  | g :: gs => mapCoords f g :: mapParts f gs

end

/-- The top-level parts of a geometry. -/
def components : Geometry → List Geometry
  | multiPoint ps => ps.map point
  | multiLineString ls => ls.map lineString
  | multiPolygon ps => ps.map polygon
  | collection gs => gs
  | g => [g]

/-- The number of top-level parts. -/
def partCount (g : Geometry) : Nat :=
  g.components.length

end Geometry

end StreamCatalog
