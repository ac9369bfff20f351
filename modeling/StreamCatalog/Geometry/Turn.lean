import StreamCatalog.Geometry.Basic
import StreamCatalog.Number.Shortest

/-!
# Turns of a path

Which way a path over three points turns at the second one. The sign of the
determinant in doubles is taken where it is beyond doubt; elsewhere it is
computed exactly, in integers.
-/

namespace StreamCatalog

/-- The exact value of a finite double in units of `2 ^ -1074`. -/
def Binary64.Parts.units (p : Binary64.Parts) : Int :=
  let n : Nat := p.significand <<< (p.exponent + 1074).toNat
  if p.negative then -n else n

/-- The exact value of a double in units of `2 ^ -1074`; zero when it is not finite. -/
def exactUnits (x : Float) : Int :=
  (Binary64.parts? x).elim 0 Binary64.Parts.units

/-- The way a path turns. -/
inductive Turn where
  /-- Counter-clockwise. -/
  | left
  /-- Not at all, or back. -/
  | straight
  /-- Clockwise. -/
  | right
deriving DecidableEq, Repr

namespace Turn

/-- The turn of a determinant. -/
def ofSign (x : Int) : Turn :=
  if 0 < x then left else if x < 0 then right else straight

/-- Twice the exact signed area of a triangle, in units of `2 ^ -2148`: positive when it
runs counter-clockwise. -/
def exactArea (a b c : Coord) : Int :=
  (exactUnits b.x - exactUnits a.x) * (exactUnits c.y - exactUnits a.y) -
    (exactUnits b.y - exactUnits a.y) * (exactUnits c.x - exactUnits a.x)

/-- The error of a determinant in doubles, relative to the sum of its products, is below it. -/
def tolerance : Float := 3.3306690738754716e-16

/-- The turn of the path from `a` over `b` to `c`. Where a determinant is not a finite number,
there is no turn. -/
def ofPath (a b c : Coord) : Turn :=
  let forward := (a.x - c.x) * (b.y - c.y)
  let backward := (a.y - c.y) * (b.x - c.x)
  let area := forward - backward
  let bound := tolerance * (forward + backward).abs
  if bound ≤ area || bound ≤ -area then
    if 0.0 < area then left else if area < 0.0 then right else straight
  else if area.isFinite && bound.isFinite then
    ofSign (exactArea a b c)
  else
    straight

end Turn

end StreamCatalog
