import StreamCatalog.Json.Parser
import StreamCatalog.Text.Utf8

/-!
# Percent coding

A byte may be written as a percent sign and two hexadecimal digits. A percent
sign that is not followed by two digits stands for itself. Segments of a path
have to be well-formed text after decoding; in a query a plus sign stands for a
blank, and bytes that are no text are replaced.
-/

namespace StreamCatalog.Web

/-- The byte that two digits write. -/
def hexByte? (a b : UInt8) : Option UInt8 := do
  let high ← Json.hexValue? (Char.ofNat a.toNat)
  let low ← Json.hexValue? (Char.ofNat b.toNat)
  return UInt8.ofNat (high * 16 + low)

/-- The byte of a percent sign. -/
def percentSign : UInt8 := 0x25

/-- Bytes with each coded byte decoded. -/
def percentDecode : Bytes → Bytes
  | [] => []
  | [a] => [a]
  | [a, b] => [a, b]
  | a :: b :: c :: rest =>
    match if a = percentSign then hexByte? b c else none with
    | some byte => byte :: percentDecode rest
    | none => a :: percentDecode (b :: c :: rest)

/-- The bytes of a text. -/
def bytesOfText (s : String) : Bytes := s.toUTF8.toList

/-- The text of a coded segment of a path, if it is well-formed. -/
def decodeSegment? (s : String) : Option String :=
  String.fromUTF8? ⟨(percentDecode (bytesOfText s)).toArray⟩

/-- The text of a coded part of a query. -/
def decodeQueryPart (s : String) : String :=
  let blanks := (bytesOfText s).map fun b => if b = 0x2B then 0x20 else b
  String.ofList (Utf8.decode (percentDecode blanks))

/-- The name and value of a part of a query. -/
def queryPair (part : String) : String × String :=
  match part.splitOn "=" with
  | [] => ("", "")
  | name :: values => (decodeQueryPart name, decodeQueryPart ("=".intercalate values))

/-- The names and values of a query. -/
def queryPairs (query : String) : List (String × String) :=
  ((query.splitOn "&").filter (· ≠ "")).map queryPair

end StreamCatalog.Web
