import StreamCatalog.Geometry.Turn
import StreamCatalog.List.Separate

/-!
# Convex hulls

The hull of points is a counter-clockwise ring. The least and the greatest point
are corners, and so is the farthest point on each side of the way between them;
the points outside the two ways over it are treated alike. The ring starts after
the least point, and that of three points at it.

Distances are doubles, so that points on an edge may be corners too. Which of
them are depends on the order of the points, for of equally far ones the last is
taken, and every search exchanges the points it goes through. A `Flank` therefore
holds, beside the corners of one side, the points in the order left behind.
-/

namespace StreamCatalog

/-- Whether a point can be compared with others: neither coordinate is a NaN. -/
def Coord.isOrdered (c : Coord) : Bool :=
  !c.x.isNaN && !c.y.isNaN

/-- Whether a point comes before another one by x, and with the same x by y. -/
def Coord.precedes (a b : Coord) : Bool :=
  a.x < b.x || (a.x == b.x && a.y < b.y)

namespace Hull

/-- The point at an index, and the others with the first one in its place. -/
def draw (i : Nat) (first : Coord) (rest : List Coord) : Coord × List Coord :=
  match i with
  | 0 => (first, rest)
  | i + 1 => (rest.getD i first, rest.set i first)

@[simp] theorem length_draw (i : Nat) (first : Coord) (rest : List Coord) :
    (draw i first rest).2.length = rest.length := by
  cases i <;> simp [draw]

/-- The index of the first point that no other one is `before`. -/
def firstBest (before : Coord → Coord → Bool) (first : Coord) (rest : List Coord) : Nat :=
  ((rest.zipIdx 1).foldl (fun best (p, i) => if before p best.1 then (p, i) else best)
    (first, 0)).2

/-- How far a point lies to the left of the way from `a` to `b`, in units of its length. -/
def leftDistance (a b p : Coord) : Float :=
  (a.y - b.y) * (p.x - a.x) + (b.x - a.x) * (p.y - a.y)

/-- The index of the point farthest to the left of the way from `a` to `b`, of equals the
last. There is none when a distance is not a number. -/
def farthestLeft? (a b first : Coord) (rest : List Coord) : Option Nat :=
  let start := leftDistance a b first
  let distances := rest.map (leftDistance a b)
  if start.isNaN || distances.any Float.isNaN then none
  else
    some ((distances.zipIdx 1).foldl (fun best (d, i) => if best.1 ≤ d then (d, i) else best)
      (start, 0)).2

/-- Whether `c` lies to the left of the way from `a` to `b`. -/
def isLeft (a b c : Coord) : Bool :=
  Turn.ofPath a b c = .left

/-- What the search of one side leaves of `n` points. -/
structure Flank (n : Nat) where
  /-- The corners among them, counter-clockwise. -/
  corners : List Coord
  /-- The points in their new order. -/
  points : List Coord
  /-- No point is lost. -/
  length_points : points.length = n

/-- The corners among points to the left of the way from `a` to `b`: those between the farthest
point and `b`, the farthest point, and those between `a` and it. -/
def flank? (a b : Coord) : (points : List Coord) → Option (Flank points.length)
  | [] => some ⟨[], [], rfl⟩
  | [p] => some ⟨[p], [p], rfl⟩
  | first :: second :: rest => do
    let i ← farthestLeft? a b first (second :: rest)
    let drawn := draw i first (second :: rest)
    let far := drawn.1
    let toB := separate (isLeft far b) drawn.2
    have hd : drawn.2.length = rest.length + 1 := length_draw ..
    have hB : toB.1.length + toB.2.length = drawn.2.length := length_separate ..
    let flankB ← flank? far b toB.1
    let toA := separate (isLeft a far) (flankB.points ++ toB.2)
    have hA : toA.1.length + toA.2.length = flankB.points.length + toB.2.length :=
      (length_separate ..).trans List.length_append
    let flankA ← flank? a far toA.1
    return {
      corners := flankB.corners ++ far :: flankA.corners
      points := far :: (flankA.points ++ toA.2)
      length_points := by
        have := flankA.length_points
        have := flankB.length_points
        simp only [List.length_append, List.length_cons]
        omega }
termination_by points => points.length
decreasing_by
  · show toB.1.length < rest.length + 2
    omega
  · have := flankB.length_points
    show toA.1.length < rest.length + 2
    omega

/-- The ring around two points and others, when distances can be compared. The least point is
drawn first, and if the first point was the greatest one, that is now in its place. -/
def ofMany? (first second : Coord) (rest : List Coord) : Option (List Coord) := do
  let least := firstBest Coord.precedes first (second :: rest)
  let greatest := firstBest (fun a b => Coord.precedes b a) first (second :: rest)
  match draw least first (second :: rest) with
  | (low, next :: others) =>
    let greatest := if greatest = 0 then least else greatest
    let (high, others) := draw (greatest - 1) next others
    let below := separate (isLeft high low) others
    let lower ← flank? high low below.1
    let above := separate (isLeft low high) (lower.points ++ below.2)
    let upper ← flank? low high above.1
    return closeRing (lower.corners ++ high :: (upper.corners ++ [low]))
  | (low, []) => return [low]

/-- The ring around three points. Points on one line have an empty one. -/
def ofThree (a b c : Coord) : List Coord :=
  match [a, b, c].mergeSort (fun p q => !q.precedes p) with
  | [a, b, c] =>
    match Turn.ofPath a b c with
    | .left => [a, b, c, a]
    | .right => [a, c, b, a]
    | .straight => []
  | _ => []

end Hull

/-- The ring around points, when they can be compared. A ring that would enclose nothing,
because there are fewer than three points or three on one line, is empty. -/
def hullRing? (points : List Coord) : Option (List Coord) :=
  if 1 < points.length && !points.all Coord.isOrdered then none
  else
    match points with
    | [] => some []
    | [_] => some []
    | [_, _] => some []
    | [a, b, c] => some (Hull.ofThree a b c)
    | a :: b :: rest => Hull.ofMany? a b rest

end StreamCatalog
