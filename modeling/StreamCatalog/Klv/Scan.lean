import StreamCatalog.Klv.LocalSet

/-!
# Units in a buffer

Units stand anywhere in a buffer; whatever is between them is skipped by
looking for the universal key. A unit that cannot be framed is reported and
the search goes on just after its key.
-/

namespace StreamCatalog.Klv

/-- The number of bytes of the universal key. -/
def keySize : Nat := universalKey.length

/-- Frame the unit whose length field starts at `offset` and is at the front of `bs`;
also the number of bytes that length field and value take. -/
def frameUnit (offset : Nat) (bs : Bytes) : Except Error (Unit × Nat) :=
  match Ber.decodeLength bs with
  | .error fault => .error (.ofLengthFault offset fault)
  | .ok (length, lengthSize) =>
    match Bytes.splitAt? length (bs.drop lengthSize) with
    | none => .error (.truncatedUnit length (bs.length - lengthSize))
    | some (value, _) => .ok (⟨universalKey ++ bs.take lengthSize, value⟩, lengthSize + length)

/-- The units and framing faults of `bs`, which stands at `offset`, in order. -/
def scanFrom (offset : Nat) : Bytes → List (Except Error Unit)
  | [] => []
  | b :: rest =>
    if universalKey.isPrefixOf (b :: rest) then
      let body := (b :: rest).drop keySize
      match frameUnit (offset + keySize) body with
      | .error e => .error e :: scanFrom (offset + keySize) body
      | .ok (unit, n) => .ok unit :: scanFrom (offset + keySize + n) (body.drop n)
    else
      scanFrom (offset + 1) rest
termination_by bs => bs.length
decreasing_by
  all_goals
    have hkey : 0 < keySize := by decide
    simp only [List.length_drop, List.length_cons]
    omega

/-- The units and framing faults of a buffer, in order. -/
def scan (bs : Bytes) : List (Except Error Unit) :=
  scanFrom 0 bs

end StreamCatalog.Klv
