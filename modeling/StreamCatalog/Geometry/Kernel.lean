import StreamCatalog.Geometry.BoxUnion
import StreamCatalog.Geometry.Hull
import StreamCatalog.Geometry.Simplify

/-!
# The kernel of plane geometry

Hulls, simplified lines and unions of boxes are computed by a kernel. Any of its answers may be
missing, where a computation breaks off, and nothing is said of those that are not. What holds of
operators for every kernel therefore does not rest on how these are computed. The kernel that
stands in unless another one is named computes the union of boxes exactly.
-/

namespace StreamCatalog

/-- The union of boxes. -/
structure BoxUnion where
  /-- The polygons that it consists of. -/
  polygons : List Polygon
  /-- Whether a box has a point in common with it. -/
  meets : Box → Bool

/-- What is computed of plane geometry. -/
class GeometryKernel where
  /-- The convex hull of points. -/
  hull? : List Coord → Option Polygon
  /-- A line without the points within a tolerance. -/
  simplifyLine? : Float → List Coord → Option (List Coord)
  /-- A polygon without the points within a tolerance. -/
  simplifyPolygon? : Float → Polygon → Option Polygon
  /-- The union of solid boxes. -/
  union? : List Box → Option BoxUnion

instance : GeometryKernel where
  hull? points := (hullRing? points).map fun ring => ⟨ring, []⟩
  simplifyLine? := StreamCatalog.simplifyLine?
  simplifyPolygon? := Polygon.simplify?
  union? boxes := some ⟨Box.union boxes, fun b => boxes.any b.meets⟩

@[simp] theorem GeometryKernel.union?_eq (boxes : List Box) :
    GeometryKernel.union? boxes = some ⟨Box.union boxes, fun b => boxes.any b.meets⟩ := rfl

end StreamCatalog
