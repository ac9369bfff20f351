import StreamCatalog.Number.Decimal

/-!
# Reading numbers from text

Whole numbers are an optional sign and digits. Decimals are an optional sign,
digits with at most one point, and an optional power of ten; infinity and "not
a number" may be written as words in any case.
-/

namespace StreamCatalog

/-- An optional sign, and what follows; `true` is minus. -/
def takeSign (cs : List Char) : Bool × List Char :=
  match cs with
  | '-' :: rest => (true, rest)
  | '+' :: rest => (false, rest)
  | _ => (false, cs)

/-- The whole number that a text writes. -/
def intOfText? (s : String) : Option Int :=
  let (negative, digits) := takeSign s.toList
  if digits.isEmpty || !digits.all Char.isDigit then none
  else
    let n : Int := Decimal.ofDigitChars digits
    some (if negative then -n else n)

/-- The decimal written by characters without a sign. -/
def Decimal.ofUnsignedChars? (negative : Bool) (cs : List Char) : Option Decimal :=
  let whole := cs.takeWhile Char.isDigit
  let rest := cs.drop whole.length
  let pointed := rest.head? = some '.'
  let rest := if pointed then rest.tail else rest
  let fraction := if pointed then rest.takeWhile Char.isDigit else []
  let rest := rest.drop fraction.length
  if whole.isEmpty && fraction.isEmpty then none
  else
    let digits := ofDigitChars (whole ++ fraction)
    match rest with
    | [] => some ⟨negative, digits, -fraction.length⟩
    | mark :: power =>
      if mark = 'e' ∨ mark = 'E' then
        (intOfText? (String.ofList power)).map fun p => ⟨negative, digits, p - fraction.length⟩
      else
        none

/-- The double that a text writes. -/
def floatOfText? (s : String) : Option Float :=
  let (negative, cs) := takeSign s.toList
  let word := String.ofList (cs.map Char.toLower)
  let signed (x : Float) := if negative then -x else x
  if word = "inf" ∨ word = "infinity" then some (signed (1.0 / 0.0))
  else if word = "nan" then some (0.0 / 0.0)
  else (Decimal.ofUnsignedChars? negative cs).map Decimal.toFloat

end StreamCatalog
