/-!
# Decimals

A decimal is a sign, digits and a power of ten. `Decimal.toFloat` reads it as
the nearest double; `Decimal.text` writes it in positional notation near one
and in scientific notation elsewhere, and a `Decimal.Style` says where "near
one" ends.
-/

namespace StreamCatalog

/-- The number `± digits * 10 ^ exponent`. -/
structure Decimal where
  /-- Whether the sign is minus. -/
  negative : Bool
  /-- All digits as one number. -/
  digits : Nat
  /-- The power of ten of the last digit. -/
  exponent : Int
deriving DecidableEq, Repr

namespace Decimal

/-- The decimal digits of a number, most significant first. -/
def digitChars (n : Nat) : List Char :=
  Nat.toDigits 10 n

/-- The number that decimal digits write. -/
def ofDigitChars (cs : List Char) : Nat :=
  cs.foldl (fun n c => n * 10 + (c.toNat - '0'.toNat)) 0

/-- The same number without zeros at the end of its digits. -/
def normalize (negative : Bool) (digits : Nat) (exponent : Int) : Decimal :=
  if digits ≠ 0 ∧ digits % 10 = 0 then
    normalize negative (digits / 10) (exponent + 1)
  else
    ⟨negative, digits, exponent⟩
termination_by digits

/-- The power of ten of the first digit. -/
def magnitude (d : Decimal) : Int :=
  d.exponent + (digitChars d.digits).length - 1

/-- The double nearest to the absolute value. -/
def absFloat (d : Decimal) : Float :=
  if d.digits = 0 ∨ d.magnitude < -400 then 0.0
  else if 400 < d.magnitude then 1.0 / 0.0
  else if d.exponent < 0 then Float.ofScientific d.digits true d.exponent.natAbs
  else Float.ofScientific d.digits false d.exponent.natAbs

/-- The double nearest to a decimal. -/
def toFloat (d : Decimal) : Float :=
  if d.negative then -d.absFloat else d.absFloat

/-- `cs` with a decimal point after `position` digits, and at least one digit on either side. -/
def positional (cs : List Char) (position : Int) : List Char :=
  if position ≤ 0 then
    '0' :: '.' :: List.replicate (-position).toNat '0' ++ cs
  else
    let n := position.toNat
    let fraction := cs.drop n
    cs.take n ++ List.replicate (n - cs.length) '0' ++
      '.' :: (if fraction.isEmpty then ['0'] else fraction)

/-- `cs` with a point after the first digit, and a power of ten. -/
def scientific (cs : List Char) (power : Int) : List Char :=
  match cs with
  | [] => []
  | first :: rest =>
    first :: (if rest.isEmpty then [] else '.' :: rest) ++ 'e' :: (toString power).toList

/-- Which of two equally near decimals is taken. -/
inductive Tie where
  /-- The one that is farther from zero. -/
  | up
  /-- The one with an even last digit. -/
  | toEven
deriving DecidableEq, Repr

/-- How doubles are written as decimals. -/
structure Style where
  /-- The choice among equally near decimals. -/
  tie : Tie
  /-- The least power of ten of a first digit that is written in positional notation. -/
  least : Int
  /-- The greatest power of ten of a first digit that is written in positional notation. -/
  greatest : Int
deriving DecidableEq, Repr

/-- The text of a decimal: positional within the bounds of the style, scientific elsewhere. -/
def text (style : Style) (d : Decimal) : String :=
  let cs := digitChars d.digits
  let body :=
    if d.digits = 0 then ['0', '.', '0']
    else if style.least ≤ d.magnitude ∧ d.magnitude ≤ style.greatest then
      positional cs (d.magnitude + 1)
    else
      scientific cs d.magnitude
  String.ofList (if d.negative then '-' :: body else body)

end Decimal

end StreamCatalog
