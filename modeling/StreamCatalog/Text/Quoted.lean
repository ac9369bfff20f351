import StreamCatalog.Text.Shown

/-!
# Texts in quotation marks

A text between quotation marks. Quotation marks, backslashes and characters that
are not shown as they are stand in it as escapes.
-/

namespace StreamCatalog.Text

/-- The characters that stand for a character between quotation marks. -/
def quotedChar (c : Char) : List Char :=
  if c = '"' ∨ c = '\\' then ['\\', c]
  else if c = '\x00' then ['\\', '0']
  else if c = '\t' then ['\\', 't']
  else if c = '\r' then ['\\', 'r']
  else if c = '\n' then ['\\', 'n']
  else if isShown c then [c]
  else ['\\', 'u', '\x7b'] ++ Nat.toDigits 16 c.toNat ++ ['\x7d']

/-- A text between quotation marks. -/
def quoted (s : String) : String :=
  String.ofList ('"' :: s.toList.flatMap quotedChar ++ ['"'])

end StreamCatalog.Text
