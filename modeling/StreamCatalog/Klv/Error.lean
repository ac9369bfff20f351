import StreamCatalog.Number.Hexadecimal

/-!
# Faults of a KLV unit

Why a unit, or the local set in it, cannot be read, and the wording of each
fault. None of them ends a stream: the unit is skipped.
-/

namespace StreamCatalog.Klv

/-- Why a KLV unit cannot be read. -/
inductive Error where
  /-- A length or tag that starts at `offset` runs past the end. -/
  | truncatedField (offset : Nat)
  /-- A long-form length of `count` bytes, which is none or more than four. -/
  | unsupportedLength (count : Nat)
  /-- A unit that declares `expected` value bytes where `actual` are left. -/
  | truncatedUnit (expected actual : Nat)
  /-- A local set item that runs past the end of the set. -/
  | truncatedItem (tag : Nat)
  /-- A local set that does not end with a two-byte checksum item. -/
  | missingChecksum
  /-- A stored checksum that differs from the one computed. -/
  | checksumMismatch (computed stored : UInt16)
deriving DecidableEq, Repr

/-- The wording of a fault. -/
def Error.message : Error → String
  | .truncatedField offset => "Truncated BER field at offset " ++ toString offset
  | .unsupportedLength count =>
    "BER length of " ++ toString count ++ " bytes is not supported"
  | .truncatedUnit expected actual =>
    "Truncated KLV unit: expected " ++ toString expected ++ " bytes, got " ++ toString actual
  | .truncatedItem tag => "Truncated local set item: tag " ++ toString tag
  | .missingChecksum => "Missing checksum"
  | .checksumMismatch computed stored =>
    "Checksum mismatch: computed 0x" ++ hexUpper 4 computed.toNat ++
      ", stored 0x" ++ hexUpper 4 stored.toNat

end StreamCatalog.Klv
