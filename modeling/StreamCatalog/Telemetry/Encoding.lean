import StreamCatalog.Bytes

/-!
# Writing engineering units

The local set values of positions, altitudes, corner offsets and times. A
number is scaled, rounded to the nearest integer with halves away from zero,
and held at the ends of its range; what is no number is written as zero.
-/

namespace StreamCatalog.Telemetry

/-- The integer nearest to a number, held to `low` and `high`. -/
def roundInto (low high : Int) (x : Float) : Int :=
  let r := x.round
  if r.isNaN then 0
  else if r ≤ Float.ofInt low then low
  else if Float.ofInt high ≤ r then high
  else r.toInt64.toInt

/-- Degrees of latitude in four bytes. -/
def encodeLatitude (degrees : Float) : Bytes :=
  Bytes.ofInt 4 (roundInto (-2147483648) 2147483647 (degrees * 4294967294.0 / 180.0))

/-- Degrees of longitude in four bytes. -/
def encodeLongitude (degrees : Float) : Bytes :=
  Bytes.ofInt 4 (roundInto (-2147483648) 2147483647 (degrees * 4294967294.0 / 360.0))

/-- Metres above mean sea level in two bytes. -/
def encodeAltitude (metres : Float) : Bytes :=
  Bytes.ofInt 2 (roundInto 0 65535 ((metres + 900.0) * 65535.0 / 19900.0))

/-- Degrees from the image centre to a corner in two bytes. -/
def encodeCornerOffset (degrees : Float) : Bytes :=
  Bytes.ofInt 2 (roundInto (-32768) 32767 (degrees * 65534.0 / 0.15))

/-- Microseconds since the epoch in eight bytes. -/
def encodeTimestamp (micros : Nat) : Bytes :=
  Bytes.ofNat 8 micros

end StreamCatalog.Telemetry
