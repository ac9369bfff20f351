import StreamCatalog.Number.Decimal

/-!
# The shortest decimal of a double

A finite double is `± significand * 2 ^ exponent`. Among the decimals that read
back as it, `shortest` takes one with the fewest digits, and of those the
nearest; where two are equally near, a `Tie` decides. The search runs over the
grids of 1 to 17 digits in exact integer arithmetic, and on each grid looks at
the two neighbours of the value.
-/

namespace StreamCatalog.Binary64

/-- A finite double taken apart. -/
structure Parts where
  /-- Whether the sign is minus. -/
  negative : Bool
  /-- The significand, below 2^53. -/
  significand : Nat
  /-- The power of two of its last bit. -/
  exponent : Int
deriving DecidableEq, Repr

/-- The parts of a double that is finite. -/
def parts? (x : Float) : Option Parts :=
  let bits : Nat := x.toBits.toNat
  let negative := decide (1 <<< 63 ≤ bits)
  let biased : Nat := bits >>> 52 % 2048
  let fraction : Nat := bits % (1 <<< 52)
  if biased = 2047 then none
  else if biased = 0 then some ⟨negative, fraction, -1074⟩
  else some ⟨negative, fraction + 1 <<< 52, (biased : Int) - 1075⟩

/-- The values that round to one double, as multiples of a common unit: all from
`low` to `high`, the ends included when `closed`. -/
structure Interval where
  /-- The lower end. -/
  low : Nat
  /-- The value itself. -/
  value : Nat
  /-- The upper end. -/
  high : Nat
  /-- Whether the ends belong to it. -/
  closed : Bool

/-- The rounding interval in units of `2 ^ (exponent - 2)`. Below a power of two
the doubles are twice as dense. -/
def Parts.interval (p : Parts) : Interval :=
  let below := if p.significand = 1 <<< 52 ∧ -1074 < p.exponent then 1 else 2
  { low := 4 * p.significand - below
    value := 4 * p.significand
    high := 4 * p.significand + 2
    closed := p.significand % 2 = 0 }

/-- Whether `a` is below `b`, or equal to it where the ends count. -/
def Interval.within (i : Interval) (a b : Nat) : Bool :=
  if i.closed then a ≤ b else a < b

/-- The nearer of `down` and `down + 1` to a value `num / den` between them. -/
def nearer (tie : Decimal.Tie) (num den down : Nat) : Nat :=
  match compare (2 * num) ((2 * down + 1) * den), tie with
  | .lt, _ => down
  | .gt, _ => down + 1
  | .eq, .up => down + 1
  | .eq, .toEven => if down % 2 = 0 then down else down + 1

/-- The point with `num / den` rounded to an integer that lies in the interval, if
one of the two neighbours of the value does. `low` and `high` are over `den` too. -/
def Interval.gridPoint? (tie : Decimal.Tie) (i : Interval) (scale den : Nat) : Option Nat :=
  let num := i.value * scale
  let down := num / den
  let lowerFits := i.within (i.low * scale) (down * den)
  let upperFits := i.within ((down + 1) * den) (i.high * scale)
  if lowerFits && upperFits then
    some (nearer tie num den down)
  else if lowerFits then some down
  else if upperFits then some (down + 1)
  else none

/-- The number of decimal digits in front of the point of `num / den`; for a
fraction below one, minus the number of zeros after the point. -/
def pointPosition (num den : Nat) : Int :=
  if den ≤ num then
    (Decimal.digitChars (num / den)).length
  else
    1 - (Decimal.digitChars (den / num)).length

/-- The shortest decimal that reads back as a finite double. -/
def Parts.shortest (tie : Decimal.Tie) (p : Parts) : Decimal :=
  if p.significand = 0 then ⟨p.negative, 0, 0⟩
  else
    let i := p.interval
    let scale := 1 <<< (p.exponent - 2).toNat
    let den := 1 <<< (2 - p.exponent).toNat
    let position := pointPosition (i.value * scale) den
    let onGrid (n : Nat) : Option Decimal :=
      let power := position - (n + 1)
      (i.gridPoint? tie (scale * .pow 10 (-power).toNat) (den * .pow 10 power.toNat)).map
        fun digits => Decimal.normalize p.negative digits power
    ((List.range 17).findSome? onGrid).getD ⟨p.negative, 0, 0⟩

end StreamCatalog.Binary64

namespace StreamCatalog

/-- The shortest decimal that reads back as `x`, when `x` is finite. -/
def Decimal.ofFloat? (tie : Decimal.Tie) (x : Float) : Option Decimal :=
  (Binary64.parts? x).map (Binary64.Parts.shortest tie)

/-- A double in a message is positional from `1e-4` to below `1e16`, and of two equally near
decimals the greater one. -/
def floatStyle : Decimal.Style := ⟨.up, -4, 15⟩

/-- The text of any double. -/
def floatText (x : Float) : String :=
  match Decimal.ofFloat? floatStyle.tie x with
  | some d => d.text floatStyle
  | none => if x.isNaN then "NaN" else if x < 0.0 then "-inf" else "inf"

end StreamCatalog
