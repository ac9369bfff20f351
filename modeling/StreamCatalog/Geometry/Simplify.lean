import StreamCatalog.Geometry.Basic
import StreamCatalog.Number.Hypotenuse

/-!
# Simplifying lines and rings

The farthest inner point from the segment between the ends of a line is kept
when it is farther than the tolerance, and both halves are treated alike;
otherwise all inner points are dropped. No line loses more points than leave it
a least number, counted over the whole line.
-/

namespace StreamCatalog

/-- The distance of `p` from the segment between `a` and `b`. -/
def segmentDistance (a b p : Coord) : Float :=
  if a == b then
    hypotenuse (a.x - p.x) (a.y - p.y)
  else
    let dx := b.x - a.x
    let dy := b.y - a.y
    let squared := dx * dx + dy * dy
    let along := ((p.x - a.x) * dx + (p.y - a.y) * dy) / squared
    if along ≤ 0.0 then hypotenuse (a.x - p.x) (a.y - p.y)
    else if 1.0 ≤ along then hypotenuse (b.x - p.x) (b.y - p.y)
    else
      let offset := ((a.y - p.y) * dx - (a.x - p.x) * dy) / squared
      offset.abs * hypotenuse dx dy

/-- The index and distance of the point of `inner` that is farthest from the segment
between `a` and `b`, where indices start at one; of equals the last. -/
def farthest (a b : Coord) (inner : List Coord) : Nat × Float :=
  (inner.zipIdx 1).foldl (fun best (p, i) =>
    let d := segmentDistance a b p
    if best.2 ≤ d then (i, d) else best) (0, 0.0)

/-- Simplify a part of a line. `budget` is the number of points that the whole line
has left, and the second answer what it is afterwards. -/
def thin (tolerance : Float) (least : Nat) (budget : Nat) (points : List Coord) :
    List Coord × Nat :=
  match points with
  | [] => ([], budget)
  | first :: rest =>
    match rest.getLast? with
    | none => (points, budget)
    | some last =>
      let (split, distance) := farthest first last rest.dropLast
      if _inside : tolerance < distance ∧ 0 < split ∧ split < rest.length then
        let (front, budget) := thin tolerance least budget ((first :: rest).take (split + 1))
        let (back, budget) := thin tolerance least budget ((first :: rest).drop split)
        (front.dropLast ++ back, budget)
      else
        let dropped := rest.length - 1
        if budget - dropped < least then (points, budget)
        else ([first, last], budget - dropped)
termination_by points.length
decreasing_by
  all_goals simp only [List.length_take, List.length_drop, List.length_cons]
  all_goals omega

/-- Simplify a line or ring that keeps at least `least` points. A single point has
no simplification. -/
def simplifyPoints? (tolerance : Float) (least : Nat) (points : List Coord) :
    Option (List Coord) :=
  if points.length = 1 then none
  else some (thin tolerance least points.length points).1

/-- Simplify a line string. -/
def simplifyLine? (tolerance : Float) : List Coord → Option (List Coord) :=
  simplifyPoints? tolerance 2

/-- Simplify every ring of a polygon. -/
def Polygon.simplify? (tolerance : Float) (p : Polygon) : Option Polygon := do
  let exterior ← simplifyPoints? tolerance 4 p.exterior
  let holes ← p.holes.mapM (simplifyPoints? tolerance 4)
  return Polygon.closed ⟨exterior, holes⟩

end StreamCatalog
