/-!
# Outlines of regions on a grid

A region is a set of grid cells given by spans, which are rectangles between
grid lines. Cell `(i, j)` lies between the lines `i - 1` and `i` and between
the lines `j - 1` and `j`. The outline consists of directed edges with the
region on their left; `outline` follows them to closed rings. Where four edges
meet, a ring turns right, so that no ring passes a point twice.
-/

namespace StreamCatalog.Region

/-- A rectangle between grid lines. -/
structure Span where
  /-- The line on the left. -/
  left : Nat
  /-- The line on the right. -/
  right : Nat
  /-- The line below. -/
  bottom : Nat
  /-- The line above. -/
  top : Nat
deriving DecidableEq, Repr

/-- Whether a span contains a cell. -/
def Span.contains (s : Span) (i j : Nat) : Bool :=
  s.left < i && i ≤ s.right && s.bottom < j && j ≤ s.top

/-- Whether some span contains a cell. -/
def covers (spans : List Span) (i j : Nat) : Bool :=
  spans.any (·.contains i j)

/-- The direction of an edge. -/
inductive Heading where
  /-- Towards greater x. -/
  | east
  /-- Towards greater y. -/
  | north
  /-- Towards lesser x. -/
  | west
  /-- Towards lesser y. -/
  | south
deriving DecidableEq, Repr

namespace Heading

/-- A quarter turn counter-clockwise. -/
def toLeft : Heading → Heading
  | east => north
  | north => west
  | west => south
  | south => east

/-- A quarter turn clockwise. -/
def toRight : Heading → Heading
  | east => south
  | north => east
  | west => north
  | south => west

end Heading

/-- An edge from the crossing of two grid lines to the next crossing. -/
structure Edge where
  /-- The vertical line through its start. -/
  x : Nat
  /-- The horizontal line through its start. -/
  y : Nat
  /-- Its direction. -/
  heading : Heading
deriving DecidableEq, Repr

namespace Edge

/-- The cell on the left of an edge. -/
def leftCell (e : Edge) : Nat × Nat :=
  match e.heading with
  | .east => (e.x + 1, e.y + 1)
  | .north => (e.x, e.y + 1)
  | .west => (e.x, e.y)
  | .south => (e.x + 1, e.y)

/-- The cell on the right of an edge. -/
def rightCell (e : Edge) : Nat × Nat :=
  match e.heading with
  | .east => (e.x + 1, e.y)
  | .north => (e.x + 1, e.y + 1)
  | .west => (e.x, e.y + 1)
  | .south => (e.x, e.y)

/-- Where an edge ends. -/
def target (e : Edge) : Nat × Nat :=
  match e.heading with
  | .east => (e.x + 1, e.y)
  | .north => (e.x, e.y + 1)
  | .west => (e.x - 1, e.y)
  | .south => (e.x, e.y - 1)

/-- Whether the region is on the left of an edge and not on its right. -/
def isBoundary (spans : List Span) (e : Edge) : Bool :=
  covers spans e.leftCell.1 e.leftCell.2 && !covers spans e.rightCell.1 e.rightCell.2

/-- The edge at the end of `e` in a direction. -/
def followedBy (e : Edge) (heading : Heading) : Edge :=
  ⟨e.target.1, e.target.2, heading⟩

/-- The boundary edge after `e`: to the right, straight on, or to the left. -/
def next (spans : List Span) (e : Edge) : Edge :=
  let right := e.followedBy e.heading.toRight
  let ahead := e.followedBy e.heading
  if right.isBoundary spans then right
  else if ahead.isBoundary spans then ahead
  else e.followedBy e.heading.toLeft

end Edge

/-- The edges from `e` on until `start` comes next, at most `fuel` of them. -/
def walk (spans : List Span) (start : Edge) : Nat → Edge → List Edge
  | 0, _ => []
  | fuel + 1, e =>
    let e' := e.next spans
    if e' = start then [e] else e :: walk spans start fuel e'

/-- Sort boundary edges into rings; the first ring holds the first edge. -/
def ringsOf (spans : List Span) : List Edge → List (List Edge)
  | [] => []
  | e :: rest =>
    let ring := walk spans e (rest.length + 1) e
    ring :: ringsOf spans (rest.removeAll ring)
termination_by edges => edges.length
decreasing_by
  simp only [List.length_cons]
  exact Nat.lt_succ_of_le (List.length_filter_le _ rest)

/-- The points of a ring at which its direction changes, in order. -/
def corners (ring : List Edge) : List (Nat × Nat) :=
  let previous := (ring.getLast?.toList ++ ring).zip ring
  previous.filterMap fun (e, f) => if e.heading = f.heading then none else some (f.x, f.y)

/-- All boundary edges on a grid of `width` by `height` lines, from left to right and
from bottom to top. -/
def boundary (spans : List Span) (width height : Nat) : List Edge :=
  (List.range width).flatMap fun x =>
    (List.range height).flatMap fun y =>
      ([.east, .north, .west, .south].map (Edge.mk x y)).filter (Edge.isBoundary spans)

/-- The rings of corners around a region. The first one passes the leftmost point. -/
def outline (spans : List Span) (width height : Nat) : List (List (Nat × Nat)) :=
  (ringsOf spans (boundary spans width height)).map corners

end StreamCatalog.Region
