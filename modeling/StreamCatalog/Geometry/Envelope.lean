import StreamCatalog.Geometry.Basic

/-!
# Bounding boxes

The least axis-parallel rectangle around a geometry, if it has any points. As a
geometry it is a point, a line string or a polygon, by its extent.
-/

namespace StreamCatalog

/-- The least and the greatest number seen. -/
def widen (range : Float × Float) (v : Float) : Float × Float :=
  if range.2 < v then (range.1, v)
  else if v < range.1 then (v, range.2)
  else range

namespace Box

/-- The box around points. -/
def around? : List Coord → Option Box
  | [] => none
  | first :: rest =>
    let xs := rest.foldl (fun range c => widen range c.x) (first.x, first.x)
    let ys := rest.foldl (fun range c => widen range c.y) (first.y, first.y)
    some (.ofCorners ⟨xs.1, ys.1⟩ ⟨xs.2, ys.2⟩)

/-- The lesser of two numbers. -/
def lesser (a b : Float) : Float := if a < b then a else b

/-- The greater of two numbers. -/
def greater (a b : Float) : Float := if b < a then a else b

/-- The box around two boxes. -/
def join (a b : Box) : Box :=
  .ofCorners ⟨lesser a.low.x b.low.x, lesser a.low.y b.low.y⟩
    ⟨greater a.high.x b.high.x, greater a.high.y b.high.y⟩

/-- The box around two boxes, either of which may be missing. -/
def join? : Option Box → Option Box → Option Box
  | some a, some b => some (a.join b)
  | some a, none => some a
  | none, b => b

/-- The closed ring around a box, counter-clockwise from its lower right corner. -/
def ring (b : Box) : List Coord :=
  [⟨b.high.x, b.low.y⟩, b.high, ⟨b.low.x, b.high.y⟩, b.low, ⟨b.high.x, b.low.y⟩]

/-- Whether the box has an extent on both axes. -/
def isSolid (b : Box) : Bool :=
  (0.0 : Float) < b.width && (0.0 : Float) < b.height

/-- The box as a geometry. -/
def toGeometry (b : Box) : Geometry :=
  match decide ((0.0 : Float) < b.width), decide ((0.0 : Float) < b.height) with
  | true, true => .polygon ⟨b.ring, []⟩
  | false, false => .point b.low
  | _, _ => .lineString [b.low, b.high]

/-- Whether two boxes have a point in common. -/
def meets (a b : Box) : Bool :=
  a.low.x ≤ b.high.x && b.low.x ≤ a.high.x && a.low.y ≤ b.high.y && b.low.y ≤ a.high.y

end Box

namespace Geometry

mutual

/-- The bounding box; of a polygon that of its outer ring. -/
def box? : Geometry → Option Box
  | point p => some (.ofCorners p p)
  | line a b => some (.ofCorners a b)
  | lineString ps => Box.around? ps
  | polygon p => Box.around? p.exterior
  | multiPoint ps => Box.around? ps
  | multiLineString ls => Box.around? ls.flatten
  | multiPolygon ps => Box.around? (ps.flatMap (·.exterior))
  | collection gs => boxOfParts none gs
  | rect b => some b
  | triangle a b c => Box.around? [a, b, c]

/-- The box around a box and several geometries. -/
def boxOfParts (around : Option Box) : List Geometry → Option Box
  | [] => around
  | g :: gs => boxOfParts (Box.join? around (box? g)) gs

end

/-- The bounding box as a geometry; a geometry without points stays as it is. -/
def envelope (g : Geometry) : Geometry :=
  g.box?.elim g Box.toGeometry

end Geometry

end StreamCatalog
