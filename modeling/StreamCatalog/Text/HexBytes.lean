import StreamCatalog.Bytes

/-!
# Bytes as text

Two lower-case hexadecimal digits for each byte.
-/

namespace StreamCatalog.HexBytes

/-- The value of a lower-case hexadecimal digit. -/
def digitValue? (c : Char) : Option Nat :=
  if '0' ≤ c ∧ c ≤ '9' then some (c.toNat - '0'.toNat)
  else if 'a' ≤ c ∧ c ≤ 'f' then some (c.toNat - 'a'.toNat + 10)
  else none

/-- The digits of bytes. -/
def encode (bs : Bytes) : List Char :=
  bs.flatMap fun b => [Nat.digitChar (b.toNat / 16), Nat.digitChar (b.toNat % 16)]

/-- The bytes that digits write, after the bytes `done` in reverse. -/
def decodeOnto? (done : Bytes) : List Char → Option Bytes
  | [] => some done.reverse
  | [_] => none
  | a :: b :: rest =>
    match digitValue? a, digitValue? b with
    | some high, some low => decodeOnto? (UInt8.ofNat (high * 16 + low) :: done) rest
    | _, _ => none

/-- The bytes that digits write. -/
def decode? (cs : List Char) : Option Bytes := decodeOnto? [] cs

end StreamCatalog.HexBytes
