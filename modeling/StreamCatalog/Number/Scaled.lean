import StreamCatalog.Number.Decimal

/-!
# Reading decimals by scaling

A decimal can be read fast and nearly right: its digits are gathered in one
64-bit word, and the double of the word is multiplied or divided by a power of
ten. The digits that do not fit the word are dropped, and every step rounds, so
the answer may be a neighbour of the nearest double. It is the nearest whenever
all digits fit, the word is below 2^53 and the power between -22 and 22.
-/

namespace StreamCatalog.Decimal

/-- The greatest number of a 64-bit word. -/
def greatestWord : Nat := 1 <<< 64 - 1

/-- A number with digits appended as long as it fits a word, and the digits from the first
that does not. -/
def gather (n : Nat) : List Char → Nat × List Char
  | [] => (n, [])
  | c :: cs =>
    let next := n * 10 + (c.toNat - '0'.toNat)
    if next ≤ greatestWord then gather next cs else (n, c :: cs)

/-- The decimal that a word holds of the digits before and after a point and of a power of
ten. A digit dropped before the point counts as a power of ten. -/
def ofWord (negative : Bool) (whole fraction : List Char) (power : Int) : Decimal :=
  let (digits, dropped) := gather 0 whole
  let (digits, ignored) := gather digits fraction
  ⟨negative, digits, power + dropped.length - (fraction.length - ignored.length : Nat)⟩

/-- The greatest power of ten that is a double. -/
def greatestPower : Int := 308

/-- A power of ten as a double. -/
def tenPower (n : Int) : Float :=
  Float.ofScientific 1 false n.toNat

/-- The absolute value by scaling: powers below the least double are divided off in two steps,
which take every word to zero in the end. -/
def scaledAbs (d : Decimal) : Float :=
  let word := Float.ofNat d.digits
  if d.digits = 0 then 0.0
  else if greatestPower < d.exponent then 1.0 / 0.0
  else if 0 ≤ d.exponent then word * tenPower d.exponent
  else if -greatestPower ≤ d.exponent then word / tenPower (-d.exponent)
  else if -2 * greatestPower ≤ d.exponent then
    word / tenPower greatestPower / tenPower (-d.exponent - greatestPower)
  else 0.0

/-- The double of a decimal by scaling, unless it is too great for one. -/
def scaled? (d : Decimal) : Option Float :=
  let x := d.scaledAbs
  if x.isInf then none else some (if d.negative then -x else x)

end StreamCatalog.Decimal
