import StreamCatalog.Geometry.Basic

/-!
# Structural validity

A geometry is valid when its coordinates are finite, its parts are not missing,
its line strings have two points or more, and its polygon rings are closed and
enclose an area that is not zero.
-/

namespace StreamCatalog

/-- Twice the signed area of a closed ring, measured from its first point; zero
for a ring that is open or shorter than three points. -/
def doubleRingArea (ring : List Coord) : Float :=
  match ring with
  | origin :: _ :: _ :: _ =>
    if isClosedRing ring then
      let shifted := ring.map fun c => (⟨c.x - origin.x, c.y - origin.y⟩ : Coord)
      (shifted.zip shifted.tail).foldl (fun sum (a, b) => sum + (a.x * b.y - a.y * b.x)) 0.0
    else 0.0
  | _ => 0.0

/-- The signed area of a ring. -/
def ringArea (ring : List Coord) : Float :=
  doubleRingArea ring / 2.0

namespace Polygon

/-- The area of the outer ring less that of the holes. -/
def area (p : Polygon) : Float :=
  let outer := ringArea p.exterior
  let net := p.holes.foldl (fun total hole => total - (ringArea hole).abs) outer.abs
  (if outer < 0.0 then -net else net).abs

/-- Whether a ring is closed and has at least three different places. -/
def ringIsValid (ring : List Coord) : Bool :=
  4 ≤ ring.length && isClosedRing ring

/-- Whether all rings are valid and the area is not zero. -/
def isValid (p : Polygon) : Bool :=
  ringIsValid p.exterior && p.holes.all ringIsValid && (0.0 : Float) < p.area

end Polygon

namespace Geometry

mutual

/-- Whether the parts of a geometry are complete, leaving aside that coordinates are finite. -/
def isComplete : Geometry → Bool
  | point _ => true
  | line a b => a != b
  | lineString ps => 2 ≤ ps.length
  | polygon p => p.isValid
  | multiPoint ps => !ps.isEmpty
  | multiLineString ls => !ls.isEmpty && ls.all (2 ≤ ·.length)
  | multiPolygon ps => !ps.isEmpty && ps.all Polygon.isValid
  | collection gs => !gs.isEmpty && areComplete gs
  | rect b => (0.0 : Float) < b.width && (0.0 : Float) < b.height
  | triangle a b c => (0.0 : Float) < (Polygon.mk [a, b, c, a] []).area

/-- Whether all of several geometries are complete. -/
def areComplete : List Geometry → Bool
  | [] => true
  | g :: gs => isComplete g && areComplete gs

end

/-- Whether a geometry is structurally valid. -/
def isValid (g : Geometry) : Bool :=
  g.coords.all Coord.isFinite && g.isComplete

end Geometry

end StreamCatalog
