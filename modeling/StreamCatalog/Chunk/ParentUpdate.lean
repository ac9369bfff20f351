import StreamCatalog.Geometry.Operator
import StreamCatalog.List.Neighbours
import StreamCatalog.Record.Basic

/-!
# Updating a parent from its children

After each chunk the parent record is brought up to date from the chunk's child
record, by rules that are applied one after the other. A rule may have no result,
where the location has none; the parent then stays as it is.
-/

namespace StreamCatalog

/-- A rule for one attribute of a parent. -/
inductive ParentUpdate where
  /-- Keeps the earliest start of a child. -/
  | temporalStart
  /-- Keeps the latest end of a child. -/
  | temporalEnd
  /-- Takes the end of the child as the date of modification. -/
  | modifiedDate
  /-- Lists the child. -/
  | association
  /-- Extends the track of image centres. -/
  | frameCenter
  /-- Joins the location of the child to that of the parent, and applies an operator. -/
  | location (operator : Operator) (tolerances : Tolerances)

/-- The track of image centres with one more. A centre equal to the last one adds nothing. -/
def extendTrack (track : Option Geometry) (center : Coord) : Geometry :=
  match track with
  | some (.point last) => if last == center then .point center else .lineString [last, center]
  | some (.lineString ps) =>
    .lineString (if ps.getLast? == some center then ps else ps ++ [center])
  | _ => .point center

/-- The polygon that a geometry is. -/
def Geometry.polygon? : Geometry → Option Polygon
  | .polygon p => some p
  | _ => none

/-- The point that a geometry is. -/
def Geometry.point? : Geometry → Option Coord
  | .point p => some p
  | _ => none

/-- The parts of two geometries as one: polygons as a multi-polygon, points as a
multi-point without equal neighbours, and anything else as a collection. -/
def Geometry.combine (a b : Geometry) : Geometry :=
  let parts := a.components ++ b.components
  match parts.mapM Geometry.polygon?, parts.mapM Geometry.point? with
  | some ps, _ => .multiPolygon ps
  | none, some ps =>
    match dedupNeighbours ps with
    | [p] => .point p
    | ps => .multiPoint ps
  | none, none => .collection parts

namespace ParentUpdate

variable [GeometryKernel]

/-- The name of a rule. -/
def name : ParentUpdate → String
  | temporalStart => "temporal-start"
  | temporalEnd => "temporal-end"
  | modifiedDate => "modified-date"
  | association => "association"
  | frameCenter => "frame-center"
  | location _ _ => "location"

/-- The parent after a rule, if the rule has a result. -/
def update? (u : ParentUpdate) (parent child : Record) : Option Record :=
  match u with
  | temporalStart =>
    match child.date? AttributeName.temporalStart with
    | some start =>
      if (parent.date? AttributeName.temporalStart).all (start < ·) then
        some (parent.set AttributeName.temporalStart (.date start))
      else some parent
    | none => some parent
  | temporalEnd =>
    match child.date? AttributeName.temporalEnd with
    | some finish =>
      if (parent.date? AttributeName.temporalEnd).all (· < finish) then
        some (parent.set AttributeName.temporalEnd (.date finish))
      else some parent
    | none => some parent
  | modifiedDate =>
    match child.date? AttributeName.temporalEnd with
    | some finish => some (parent.set AttributeName.modified (.date finish))
    | none => some parent
  | association =>
    let related := (parent.list? AttributeName.related).getD []
    if related.contains child.id then some parent
    else some (parent.set AttributeName.related (.list (related ++ [child.id])))
  | frameCenter =>
    match child.geometry? AttributeName.frameCenter with
    | some (.point center) =>
      let track := extendTrack (parent.geometry? AttributeName.frameCenter) center
      some (parent.set AttributeName.frameCenter (.geometry track))
    | _ => some parent
  | location op t =>
    match child.geometry? AttributeName.location with
    | some added =>
      let merged? := match parent.geometry? AttributeName.location with
        | some existing => op.result? t (existing.combine added)
        | none => some added
      merged?.map fun merged => parent.set AttributeName.location (.geometry merged)
    | none => some parent

/-- The parent after a rule; without a result it stays as it is. -/
def update (u : ParentUpdate) (parent child : Record) : Record :=
  (u.update? parent child).getD parent

/-- The parent after several rules, if they have results. -/
def updateAll? (us : List ParentUpdate) (parent child : Record) : Option Record :=
  us.foldlM (fun parent u => u.update? parent child) parent

/-- The parent after several rules. -/
def updateAll (us : List ParentUpdate) (parent child : Record) : Record :=
  us.foldl (fun parent u => u.update parent child) parent

/-- The rules for a stream, in the order in which they are applied. -/
def standard (t : Tolerances) : List ParentUpdate :=
  [temporalStart, temporalEnd, modifiedDate, association, frameCenter,
    location .joinedLocation t]

end ParentUpdate

end StreamCatalog
