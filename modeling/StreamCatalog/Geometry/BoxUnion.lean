import StreamCatalog.Geometry.Envelope
import StreamCatalog.Geometry.Region

/-!
# Unions of boxes

The exact union of solid boxes as polygons. Boxes that overlap or share a piece
of an edge belong to one polygon; those that touch in a point only do not. The
coordinates of a polygon are those of its boxes.
-/

namespace StreamCatalog

namespace Box

/-- Whether two boxes overlap or share a piece of an edge. -/
def adjoins (a b : Box) : Bool :=
  a.meets b &&
    ((a.low.x < b.high.x && b.low.x < a.high.x) || (a.low.y < b.high.y && b.low.y < a.high.y))

/-- Add a box to clusters of boxes, joining those that it adjoins. -/
def addToClusters (clusters : List (List Box)) (b : Box) : List (List Box) :=
  let (joined, apart) := clusters.partition (·.any b.adjoins)
  (b :: joined.flatten) :: apart

/-- Boxes sorted into clusters that hang together. -/
def clusters (boxes : List Box) : List (List Box) :=
  boxes.foldl addToClusters []

/-- Numbers in order, each once. -/
def gridLines (vs : List Float) : List Float :=
  (vs.mergeSort (fun a b => decide (a ≤ b))).foldr
    (fun v rest => if rest.head? == some v then rest else v :: rest) []

/-- A box as a rectangle between grid lines. -/
def toSpan (xs ys : List Float) (b : Box) : Region.Span :=
  { left := xs.findIdx (· == b.low.x)
    right := xs.findIdx (· == b.high.x)
    bottom := ys.findIdx (· == b.low.y)
    top := ys.findIdx (· == b.high.y) }

/-- The union of several boxes that hang together. A ring starts at the second of its corners,
so that a union that is a box has the ring of that box. -/
def mergedOutline (boxes : List Box) : Polygon :=
  let xs := gridLines (boxes.flatMap fun b => [b.low.x, b.high.x])
  let ys := gridLines (boxes.flatMap fun b => [b.low.y, b.high.y])
  let spans := boxes.map (toSpan xs ys)
  let ring (corners : List (Nat × Nat)) : List Coord :=
    closeRing ((corners.rotateLeft 1).map fun (i, j) => ⟨xs.getD i 0.0, ys.getD j 0.0⟩)
  match (Region.outline spans xs.length ys.length).map ring with
  | [] => ⟨[], []⟩
  | exterior :: holes => ⟨exterior, holes⟩

/-- The union of boxes that hang together; a box alone keeps its own ring. -/
def outline : List Box → Polygon
  | [b] => ⟨b.ring, []⟩
  | boxes => mergedOutline boxes

/-- The union of solid boxes. -/
def union (boxes : List Box) : List Polygon :=
  (clusters boxes).map outline

end Box

end StreamCatalog
