import StreamCatalog.Geometry.Operator
import StreamCatalog.List.Neighbours
import StreamCatalog.Telemetry.Sample

/-!
# Footprints of telemetry

The ground footprint of a sample is the polygon of its image corners. The
location of a run of samples is made of their footprints; without any, of their
image centres; without those, of their sensor positions.
-/

namespace StreamCatalog.Telemetry

/-- A position as a point of the plane. -/
def Position.toCoord (p : Position) : Coord := ⟨p.lon, p.lat⟩

/-- An offset from a position. -/
def Position.offsetBy (center offset : Position) : Position :=
  ⟨center.lat + offset.lat, center.lon + offset.lon⟩

/-- The ground footprint: the given corners, else the corners offset from the image centre. -/
def Sample.footprint (s : Sample) : Option Polygon :=
  let corners := match s.corners, s.frameCenter, s.offsetCorners with
    | some corners, _, _ => some corners.toList
    | none, some center, some offsets => some (offsets.toList.map center.offsetBy)
    | none, _, _ => none
  corners.bind fun ps =>
    let ring := ps.map Position.toCoord
    let p := Polygon.closed ⟨ring ++ ring.head?.toList, []⟩
    if (Geometry.polygon p).isValid then some p else none

/-- The image centre as a point of the plane. -/
def Sample.center (s : Sample) : Option Coord :=
  s.frameCenter.map Position.toCoord

/-- Points as a geometry, without equal neighbours. -/
def pointsGeometry (points : List Coord) : Option Geometry :=
  match dedupNeighbours points with
  | [] => none
  | [p] => some (.point p)
  | ps => some (.multiPoint ps)

/-- What is known of the place of a run of samples. -/
structure Summary where
  /-- Where the imagery lies. -/
  location : Option Geometry
  /-- The last image centre. -/
  frameCenter : Option Coord
  /-- The mean sensor altitude in metres. -/
  meanAltitude : Option Float

/-- The geometry from which the location of a run of samples is made. -/
def rawLocation (samples : List Sample) : Option Geometry :=
  let footprints := samples.filterMap Sample.footprint
  if footprints.isEmpty then
    let centers := samples.filterMap Sample.center
    pointsGeometry <|
      if centers.isEmpty then samples.filterMap (·.sensorPosition.map Position.toCoord)
      else centers
  else
    some (.multiPolygon footprints)

/-- The arithmetic mean. The sum starts from negative zero, which leaves every number as it is. -/
def mean? (xs : List Float) : Option Float :=
  if xs.isEmpty then none
  else some (xs.foldl (· + ·) (-0.0) / Float.ofNat xs.length)

variable [GeometryKernel]

/-- Sum up a run of samples; the operators are applied to the location. -/
def summarize (op : Operator) (t : Tolerances) (samples : List Sample) : Summary where
  location := ((rawLocation samples).filter Geometry.isValid).map (op.apply t)
  frameCenter := samples.reverse.findSome? Sample.center
  meanAltitude := mean? (samples.filterMap (·.sensorAltitude))

end StreamCatalog.Telemetry
