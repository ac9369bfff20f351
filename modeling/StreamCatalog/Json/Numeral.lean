import StreamCatalog.Json.Basic
import StreamCatalog.Number.Literal
import StreamCatalog.Number.Scaled

/-!
# JSON numbers

A number is written as digits with an optional minus, digits after a point and
a power of ten (`Numeral.read`). A whole number that fits a word is kept as one;
all others, and minus zero, are read as doubles by a reader (`Numeral.value?`). The
reader that stands in unless another one is named reads by scaling.
-/

namespace StreamCatalog.Json

/-- How numbers are read as doubles. -/
class NumberReader where
  /-- The double that is read for a decimal, unless it is too large. -/
  double? : Decimal → Option Float

instance : NumberReader := ⟨Decimal.scaled?⟩

/-- A number as it is written. -/
structure Numeral where
  /-- Whether the sign is minus. -/
  negative : Bool
  /-- The digits before the point. -/
  whole : List Char
  /-- The digits after the point, if there is one. -/
  fraction : Option (List Char)
  /-- Whether the power of ten is negative, and its digits, if there is one. -/
  power : Option (Bool × List Char)

namespace Numeral

/-- An optional minus, and what follows. -/
def readMinus : List Char → Bool × List Char
  | '-' :: rest => (true, rest)
  | cs => (false, cs)

/-- The digits after a point, if there is one, and what follows. -/
def readFraction : List Char → Option (List Char) × List Char
  | '.' :: rest => (some (rest.takeWhile Char.isDigit), rest.dropWhile Char.isDigit)
  | cs => (none, cs)

/-- The sign and the digits after the mark of a power of ten. -/
def readSigned (cs : List Char) : (Bool × List Char) × List Char :=
  let (negative, rest) := takeSign cs
  ((negative, rest.takeWhile Char.isDigit), rest.dropWhile Char.isDigit)

/-- The power of ten, if there is one, and what follows. -/
def readPower : List Char → Option (Bool × List Char) × List Char
  | 'e' :: rest | 'E' :: rest =>
    let (power, rest) := readSigned rest
    (some power, rest)
  | cs => (none, cs)

/-- A number, and what follows. -/
def read (cs : List Char) : Numeral × List Char :=
  let (negative, cs) := readMinus cs
  let whole := cs.takeWhile Char.isDigit
  let (fraction, cs) := readFraction (cs.dropWhile Char.isDigit)
  let (power, cs) := readPower cs
  (⟨negative, whole, fraction, power⟩, cs)

/-- Whether there are digits wherever there must be, and none in front of which a zero is
written. -/
def isComplete (n : Numeral) : Bool :=
  !n.whole.isEmpty && (n.whole.length = 1 || n.whole.head? ≠ some '0') &&
    n.fraction.all (!·.isEmpty) && n.power.all (!·.2.isEmpty)

/-- The whole number that is kept as one. -/
def int? (n : Numeral) : Option Int :=
  let digits := Decimal.ofDigitChars n.whole
  let value : Int := if n.negative then -digits else digits
  if n.fraction.isNone && n.power.isNone && leastInt ≤ value && value ≤ greatestInt &&
      !(n.negative && digits = 0) then some value
  else none

/-- The power of ten. -/
def shift (n : Numeral) : Int :=
  match n.power with
  | none => 0
  | some (negative, digits) =>
    let power : Int := Decimal.ofDigitChars digits
    if negative then -power else power

variable [NumberReader]

/-- The value of a number, unless it is not one or too large for a double. -/
def value? (n : Numeral) : Option Json :=
  if n.isComplete then
    match n.int? with
    | some i => some (.int i)
    | none =>
      let decimal := Decimal.ofWord n.negative n.whole (n.fraction.getD []) n.shift
      (NumberReader.double? decimal).map .ofFloat
  else none

end Numeral

variable [NumberReader]

/-- The value of a number, and what follows. -/
def readNumber (cs : List Char) : Option (Json × List Char) :=
  let (n, rest) := Numeral.read cs
  n.value?.map (·, rest)

end StreamCatalog.Json
