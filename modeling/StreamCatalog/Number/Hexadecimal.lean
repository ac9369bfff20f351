/-!
# Hexadecimal numbers

Upper-case hexadecimal digits, padded with zeros to a least width.
-/

namespace StreamCatalog

/-- A number in upper-case hexadecimal with at least `width` digits. -/
def hexUpper (width n : Nat) : String :=
  let digits := (Nat.toDigits 16 n).map Char.toUpper
  String.ofList (List.replicate (width - digits.length) '0' ++ digits)

end StreamCatalog
