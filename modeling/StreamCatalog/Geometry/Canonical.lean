import StreamCatalog.Geometry.Basic

/-!
# Canonical outlines

Outlines that differ only in where their rings start, in which direction they
go, in points on straight edges and in the order of holes have one canonical
form. Its points lie on the grid of billionths of a degree; the outer ring goes
counter-clockwise and the holes go clockwise, each from its least point, and the
holes are sorted.
-/

namespace StreamCatalog

/-- A point in billionths of a degree. -/
abbrev GridPoint := Int × Int

/-- A ring of grid points. -/
abbrev GridRing := List GridPoint

/-- A number in billionths, rounded, if it is finite and not too large. -/
def billionths? (x : Float) : Option Int :=
  let r := (x * 1e9).round
  if r.abs < 9e15 then some r.toInt64.toInt else none

namespace GridPoint

/-- Whether three points lie on one line. -/
def straight (a b c : GridPoint) : Bool :=
  (b.1 - a.1) * (c.2 - b.2) == (b.2 - a.2) * (c.1 - b.1)

/-- The order by x and then by y. -/
def less (a b : GridPoint) : Bool :=
  a.1 < b.1 || (a.1 == b.1 && a.2 < b.2)

end GridPoint

/-- The order of lists by their first different item. -/
def lexLess {α : Type} (less : α → α → Bool) : List α → List α → Bool
  | [], [] => false
  | [], _ => true
  | _, [] => false
  | a :: as, b :: bs => less a b || (!less b a && lexLess less as bs)

namespace GridRing

/-- The order of rings by their first different points. -/
def less (a b : GridRing) : Bool := lexLess GridPoint.less a b

/-- Remove the points from index `i` on that lie on one line with their neighbours, going back
one point after each removal, until three are left. -/
def dropStraight (ps : Array GridPoint) (i : Nat) : Array GridPoint :=
  if h : ps.size ≤ 3 ∨ ps.size ≤ i then ps
  else
    let before := ps.getD ((i + ps.size - 1) % ps.size) (0, 0)
    let after := ps.getD ((i + 1) % ps.size) (0, 0)
    if GridPoint.straight before (ps.getD i (0, 0)) after then
      dropStraight (ps.eraseIdx i (by omega)) (i - 1)
    else
      dropStraight ps (i + 1)
termination_by 2 * ps.size - i
decreasing_by
  · simp only [Array.size_eraseIdx]
    omega
  · omega

/-- Twice the area that a ring goes round counter-clockwise. -/
def doubleArea (ps : GridRing) : Int :=
  (ps.zip (ps.rotateLeft 1)).foldl (fun area (a, b) => area + (a.1 * b.2 - a.2 * b.1)) 0

/-- The rotation of a ring that comes first in the order of rings. -/
def leastRotation (ps : GridRing) : GridRing :=
  let rotations := (List.range ps.length).map fun i => List.rotateLeft ps i
  rotations.foldl (fun best r => if less r best then r else best) ps

/-- The canonical form of a closed ring; one that is not closed stays as it is. -/
def canonical (outer : Bool) (ring : GridRing) : GridRing :=
  if ring.length < 2 || ring.head? != ring.getLast? then ring
  else
    let corners := (dropStraight ring.dropLast.toArray 0).toList
    let area := doubleArea corners
    let turned := if (outer && area < 0) || (!outer && 0 < area) then corners.reverse else corners
    let first := leastRotation turned
    first ++ first.head?.toList

/-- The points of a ring on the grid, if all of them are there. -/
def ofCoords? (ring : List Coord) : Option GridRing :=
  ring.mapM fun c => do return (← billionths? c.x, ← billionths? c.y)

end GridRing

namespace Polygon

/-- All rings, the outer one first. -/
def rings (p : Polygon) : List (List Coord) := p.exterior :: p.holes

/-- The canonical rings of a polygon, the outer one first, if its points are on the grid. -/
def canonicalRings? (p : Polygon) : Option (List GridRing) := do
  let outer ← GridRing.ofCoords? p.exterior
  let holes ← p.holes.mapM GridRing.ofCoords?
  return outer.canonical true ::
    (holes.map (GridRing.canonical false)).mergeSort (fun a b => !b.less a)

/-- The order of polygons by their canonical rings. -/
def canonicalLess (a b : Polygon) : Bool :=
  match a.canonicalRings?, b.canonicalRings? with
  | some a, some b => lexLess GridRing.less a b
  | _, _ => false

/-- Polygons in canonical order. -/
def sorted (ps : List Polygon) : List Polygon :=
  ps.mergeSort (fun a b => !b.canonicalLess a)

end Polygon

/-- The members of a collection with those polygons sorted that stand at its front. -/
def Geometry.sortedMembers (gs : List Geometry) : List Geometry :=
  let isPolygon : Geometry → Bool
    | .polygon _ => true
    | _ => false
  let polygons := (gs.takeWhile isPolygon).filterMap fun
    | .polygon p => some p
    | _ => none
  (Polygon.sorted polygons).map .polygon ++ gs.dropWhile isPolygon

end StreamCatalog
