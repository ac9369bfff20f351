import StreamCatalog.Geometry.Basic
import StreamCatalog.Number.Shortest

/-!
# Normal geodetic coordinates

Latitudes are held to -90 … 90 degrees. Longitudes outside -180 … 180 degrees
are turned by full circles; the remainder is exact.
-/

namespace StreamCatalog

/-- The exact remainder of `x` on division by a positive whole number, with the sign of `x`. -/
def truncatedRemainder (x : Float) (divisor : Nat) : Float :=
  match Binary64.parts? x with
  | none => 0.0 / 0.0
  | some p =>
    if x.abs < Float.ofNat divisor then x
    else
      let scale := 1 <<< (-p.exponent).toNat
      let magnitude := p.significand <<< p.exponent.toNat % (divisor * scale)
      let remainder := Float.ofNat magnitude / Float.ofNat scale
      if p.negative then -remainder else remainder

/-- The exact remainder of `x` that is not negative. -/
def positiveRemainder (x : Float) (divisor : Nat) : Float :=
  let r := truncatedRemainder x divisor
  if r < 0.0 then r + Float.ofNat divisor else r

/-- A longitude turned into -180 … 180 degrees. -/
def wrapLongitude (lon : Float) : Float :=
  if -180.0 ≤ lon && lon ≤ 180.0 then lon
  else positiveRemainder (lon + 180.0) 360 - 180.0

/-- A latitude held to -90 … 90 degrees. -/
def clampLatitude (lat : Float) : Float :=
  if lat < -90.0 then -90.0 else if 90.0 < lat then 90.0 else lat

/-- The geometry in normal coordinates. -/
def Geometry.normalize (g : Geometry) : Geometry :=
  g.mapCoords fun c => ⟨wrapLongitude c.x, clampLatitude c.y⟩

end StreamCatalog
