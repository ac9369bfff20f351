import StreamCatalog.Ber
import StreamCatalog.Klv.Error

/-!
# Local sets

The value of a KLV unit is a local set: items of a tag, a length and that many
value bytes, the last of which holds a checksum over the unit. `parseItems`
splits a value into its items; `Unit.localSet` also verifies the checksum;
`encodeUnit` writes a complete unit from its items.
-/

namespace StreamCatalog.Klv

/-- One tagged value of a local set. -/
structure Item where
  /-- What the value means. -/
  tag : Nat
  /-- The bytes of the value. -/
  value : Bytes
deriving DecidableEq, Repr

/-- The universal key that every unit starts with. -/
def universalKey : Bytes :=
  [0x06, 0x0E, 0x2B, 0x34, 0x02, 0x0B, 0x01, 0x01, 0x0E, 0x01, 0x03, 0x01, 0x01, 0x00, 0x00, 0x00]

/-- The tag of the item that holds the checksum. -/
def checksumTag : Nat := 1

/-- A unit: its universal key and length field, and its value. -/
structure Unit where
  /-- Key and length field. -/
  header : Bytes
  /-- Value bytes. -/
  value : Bytes
deriving DecidableEq, Repr

/-- The complete unit. -/
def Unit.bytes (u : Unit) : Bytes :=
  u.header ++ u.value

/-- Add up bytes that stand in turn in the upper and the lower half of a word. -/
def checksumFrom (sum : UInt16) (upper : Bool) : Bytes → UInt16
  | [] => sum
  | b :: rest =>
    checksumFrom (sum + if upper then b.toUInt16 <<< 8 else b.toUInt16) (!upper) rest

/-- The sum, modulo 2^16, of the two-byte words of `bs`. -/
def checksum (bs : Bytes) : UInt16 :=
  checksumFrom 0 true bs

/-- A length fault at `offset` as a fault of the unit. -/
def Error.ofLengthFault (offset : Nat) : Ber.LengthFault → Error
  | .truncated => .truncatedField offset
  | .unsupported count => .unsupportedLength count

/-- The item at the front of `bs`, which stands at `offset`, and the number of bytes it takes. -/
def parseItem (offset : Nat) (bs : Bytes) : Except Error (Item × Nat) :=
  match Ber.decodeTag bs with
  | none => .error (.truncatedField offset)
  | some (tag, tagSize) =>
    match Ber.decodeLength (bs.drop tagSize) with
    | .error fault => .error (.ofLengthFault (offset + tagSize) fault)
    | .ok (length, lengthSize) =>
      match Bytes.splitAt? length (bs.drop (tagSize + lengthSize)) with
      | none => .error (.truncatedItem tag)
      | some (value, _) => .ok (⟨tag, value⟩, tagSize + lengthSize + length)

/-- An item takes at least one byte. -/
theorem parseItem_consumed {offset : Nat} {bs : Bytes} {item : Item} {n : Nat}
    (h : parseItem offset bs = .ok (item, n)) : 0 < n := by
  unfold parseItem at h
  split at h
  · cases h
  · next ht =>
    split at h
    · cases h
    · split at h
      · cases h
      · cases h
        have := (Ber.decodeTag_consumed ht).1
        omega

/-- The items of a local set whose value stands at `offset`. -/
def parseItemsFrom (offset : Nat) : Bytes → Except Error (List Item)
  | [] => .ok []
  | b :: rest =>
    match _parsed : parseItem offset (b :: rest) with
    | .error e => .error e
    | .ok (item, n) => (parseItemsFrom (offset + n) ((b :: rest).drop n)).map (item :: ·)
termination_by bs => bs.length
decreasing_by
  have := parseItem_consumed _parsed
  simp only [List.length_drop, List.length_cons]
  omega

/-- The items of a local set, in order. -/
def parseItems (value : Bytes) : Except Error (List Item) :=
  parseItemsFrom 0 value

/-- The items of the unit, whose last one holds the checksum over everything before it. -/
def Unit.localSet (u : Unit) : Except Error (List Item) :=
  match parseItems u.value with
  | .error e => .error e
  | .ok items =>
    match items.getLast? with
    | none => .error .missingChecksum
    | some last =>
      if last.tag ≠ checksumTag ∨ last.value.length ≠ 2 then
        .error .missingChecksum
      else
        let stored := UInt16.ofNat (Bytes.toNat last.value)
        let computed := checksum (u.bytes.take (u.bytes.length - 2))
        if stored = computed then .ok items else .error (.checksumMismatch computed stored)

/-- An item: tag, length, value. -/
def encodeItem (item : Item) : Bytes :=
  Ber.encodeTag item.tag ++ Ber.encodeLength item.value.length ++ item.value

/-- The complete unit of `items`, to which a checksum item is added. -/
def encodeUnit (items : List Item) : Bytes :=
  let value := items.flatMap encodeItem ++ [UInt8.ofNat checksumTag, 2]
  let unit := universalKey ++ Ber.encodeLength (value.length + 2) ++ value
  unit ++ Bytes.ofNat 2 (checksum unit).toNat

end StreamCatalog.Klv
