import StreamCatalog.Klv.LocalSet
import StreamCatalog.Text.Blank
import StreamCatalog.Text.Utf8
import StreamCatalog.Time.Instant

/-!
# Telemetry samples

A sample holds the engineering units of one local set. Each field depends on
the last item of its tag alone. A value of the wrong length, or the value
reserved for "unknown", leaves its field unset.
-/

namespace StreamCatalog.Telemetry

open Klv (Item)

/-- A geodetic position in degrees. -/
structure Position where
  /-- Degrees north. -/
  lat : Float
  /-- Degrees east. -/
  lon : Float
deriving Repr

/-- Something for each of the four image corners. -/
structure Corners where
  /-- The first corner. -/
  first : Position
  /-- The second corner. -/
  second : Position
  /-- The third corner. -/
  third : Position
  /-- The fourth corner. -/
  fourth : Position
deriving Repr

/-- The four corners in order. -/
def Corners.toList (c : Corners) : List Position :=
  [c.first, c.second, c.third, c.fourth]

/-- The telemetry of one local set. -/
structure Sample where
  /-- When the sample was taken. -/
  timestamp : Option Instant
  /-- The mission it belongs to. -/
  missionId : Option String
  /-- The platform that carries the sensor. -/
  platformDesignation : Option String
  /-- The image source sensor. -/
  sensorId : Option String
  /-- Degrees clockwise from north. -/
  platformHeading : Option Float
  /-- Degrees nose up. -/
  platformPitch : Option Float
  /-- Degrees right wing down. -/
  platformRoll : Option Float
  /-- Where the sensor is. -/
  sensorPosition : Option Position
  /-- Metres of the sensor above mean sea level. -/
  sensorAltitude : Option Float
  /-- Horizontal field of view in degrees. -/
  horizontalFov : Option Float
  /-- Vertical field of view in degrees. -/
  verticalFov : Option Float
  /-- Where the centre of the image is. -/
  frameCenter : Option Position
  /-- Metres of the image centre above mean sea level. -/
  frameCenterElevation : Option Float
  /-- Offsets of the image corners from the image centre, in degrees. -/
  offsetCorners : Option Corners
  /-- Where the image corners are. -/
  corners : Option Corners
deriving Repr

/-- The value of the last item of a tag. -/
def lastValue? (items : List Item) (tag : Nat) : Option Bytes :=
  (items.reverse.find? (·.tag = tag)).map (·.value)

/-- Eight bytes of microseconds since the epoch, up to the greatest date. -/
def decodeTimestamp (v : Bytes) : Option Instant :=
  if v.length = 8 ∧ (Bytes.toNat v : Int) ≤ Instant.maxMicros then
    some (.ofMicros (Bytes.toNat v))
  else
    none

/-- A text without NULs at its end and blanks around it, unless nothing is left. -/
def decodeText (v : Bytes) : Option String :=
  let chars := Text.trimChars (Text.trimEndWhile (· = '\x00') (Utf8.decode v))
  if chars.isEmpty then none else some (String.ofList chars)

/-- Two bytes that span `range` from `offset` on. -/
def decodeUnsigned (range offset : Float) (v : Bytes) : Option Float :=
  if v.length = 2 then some (Float.ofNat (Bytes.toNat v) * range / 65535.0 + offset) else none

/-- Two bytes that span `range` around zero; the least number means "unknown". -/
def decodeSigned16 (range : Float) (v : Bytes) : Option Float :=
  if v.length = 2 ∧ Bytes.toInt v ≠ -32768 then
    some (Float.ofInt (Bytes.toInt v) * range / 65534.0)
  else
    none

/-- Four bytes that span `range` around zero; the least number means "unknown". -/
def decodeSigned32 (range : Float) (v : Bytes) : Option Float :=
  if v.length = 4 ∧ Bytes.toInt v ≠ -2147483648 then
    some (Float.ofInt (Bytes.toInt v) * range / 4294967294.0)
  else
    none

/-- Degrees of latitude. -/
def decodeLatitude : Bytes → Option Float := decodeSigned32 180.0

/-- Degrees of longitude. -/
def decodeLongitude : Bytes → Option Float := decodeSigned32 360.0

/-- Metres above mean sea level. -/
def decodeAltitude : Bytes → Option Float := decodeUnsigned 19900.0 (-900.0)

/-- Degrees from the image centre to a corner. -/
def decodeCornerOffset : Bytes → Option Float := decodeSigned16 0.15

/-- A position from the items of two consecutive tags. -/
def position? (items : List Item) (latitude longitude : Bytes → Option Float) (tag : Nat) :
    Option Position := do
  let lat ← (lastValue? items tag).bind latitude
  let lon ← (lastValue? items (tag + 1)).bind longitude
  return ⟨lat, lon⟩

/-- Four positions from the items of eight consecutive tags. -/
def corners? (items : List Item) (latitude longitude : Bytes → Option Float) (tag : Nat) :
    Option Corners := do
  let first ← position? items latitude longitude tag
  let second ← position? items latitude longitude (tag + 2)
  let third ← position? items latitude longitude (tag + 4)
  let fourth ← position? items latitude longitude (tag + 6)
  return ⟨first, second, third, fourth⟩

namespace Sample

/-- The sample of a local set. -/
def ofItems (items : List Item) : Sample where
  timestamp := (lastValue? items 2).bind decodeTimestamp
  missionId := (lastValue? items 3).bind decodeText
  platformDesignation := (lastValue? items 10).bind decodeText
  sensorId := (lastValue? items 11).bind decodeText
  platformHeading := (lastValue? items 5).bind (decodeUnsigned 360.0 0.0)
  platformPitch := (lastValue? items 6).bind (decodeSigned16 40.0)
  platformRoll := (lastValue? items 7).bind (decodeSigned16 100.0)
  sensorPosition := position? items decodeLatitude decodeLongitude 13
  sensorAltitude := (lastValue? items 15).bind decodeAltitude
  horizontalFov := (lastValue? items 16).bind (decodeUnsigned 180.0 0.0)
  verticalFov := (lastValue? items 17).bind (decodeUnsigned 180.0 0.0)
  frameCenter := position? items decodeLatitude decodeLongitude 23
  frameCenterElevation := (lastValue? items 25).bind decodeAltitude
  offsetCorners := corners? items decodeCornerOffset decodeCornerOffset 26
  corners := corners? items decodeLatitude decodeLongitude 82

/-- The sample of a unit, whose checksum has to be right. -/
def ofUnit (u : Klv.Unit) : Except Klv.Error Sample :=
  u.localSet.map ofItems

/-- Whether the sample holds any position. -/
def hasPosition (s : Sample) : Bool :=
  s.frameCenter.isSome || s.corners.isSome || s.sensorPosition.isSome

end Sample

end StreamCatalog.Telemetry
