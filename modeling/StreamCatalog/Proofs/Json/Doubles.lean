import StreamCatalog.Proofs.Json.RoundTrip

/-!
# Doubles in JSON

A double is written as `null` just when it is not finite (`ofFloat_eq_null_iff`). The
double that is read back for a finite one is `rereadFloat?`; it may be a neighbour.
-/

namespace StreamCatalog

namespace Binary64

open Float.Model in
/-- A double is finite unless all bits of its exponent are set. -/
theorem isFinite_unpack (b : BitVec 64) : (UnpackedFloat.unpack .binary64 b).isFinite =
    !decide (@UnpackedFloat.unpackExponent .binary64 b = -1#11) := by
  change UnpackedFloat.isFinite (if _ then if _ then _ else _ else if _ then dite _ _ _ else _) = _
  by_cases h : @UnpackedFloat.unpackExponent .binary64 b = -1#11
  · rw [if_pos h, decide_eq_true h]
    split <;> rfl
  · rw [if_neg h, decide_eq_false h]
    by_cases hsubnormal : @UnpackedFloat.unpackExponent .binary64 b = 0#11
    · rw [if_pos hsubnormal]
      by_cases hzero : @UnpackedFloat.unpackMantissa .binary64 b = 0#52
      · rw [dif_pos hzero]
        rfl
      · rw [dif_neg hzero]
        rfl
    · rw [if_neg hsubnormal]
      rfl

/-- The doubles that are taken apart are the finite ones. -/
theorem isSome_parts? (x : Float) : (parts? x).isSome = x.isFinite := by
  have htoBits : x.toBits.toNat = x.toModel.toBits.toBitVec.toNat := rfl
  have hbits : @Float.Model.UnpackedFloat.unpackExponent .binary64 x.toModel.toBits.toBitVec =
      -1#11 ↔ x.toBits.toNat >>> 52 % 2048 = 2047 := by
    rw [← BitVec.toNat_inj, Float.Model.UnpackedFloat.unpackExponent, htoBits]
    simp
  rw [Float.isFinite, Float.Model.isFinite, Float.Model.unpack, isFinite_unpack,
    decide_eq_decide.2 hbits, parts?]
  split
  case isTrue h => rw [decide_eq_true h]; rfl
  case isFalse h =>
    rw [decide_eq_false h]
    split <;> rfl

end Binary64

namespace Json

/-- What is not finite is written as `null`, and nothing else is. -/
theorem ofFloat_eq_null_iff {x : Float} : ofFloat x = .null ↔ x.isFinite = false := by
  rw [← Binary64.isSome_parts?, ofFloat, Decimal.ofFloat?]
  cases Binary64.parts? x <;> simp

theorem height_ofFloat (x : Float) : (ofFloat x).height = 0 := by
  rw [ofFloat]
  split <;> rfl

variable [NumberReader]

/-- The double that is read back for a double. -/
def rereadFloat? (x : Float) : Option Float :=
  (parse? (ofFloat x).compact).bind float?

theorem rereadAs_float? (x : Float) : (ofFloat x).rereadAs float? = rereadFloat? x := by
  rw [rereadFloat?, bind_parse?_compact, height_ofFloat, if_pos (Nat.zero_le _)]

/-- What is not finite is not read back. -/
theorem isFinite_of_rereadFloat? {x y : Float} (h : rereadFloat? x = some y) :
    x.isFinite = true := by
  cases hx : x.isFinite with
  | true => rfl
  | false =>
    rw [← rereadAs_float?, ofFloat_eq_null_iff.2 hx] at h
    cases h

end Json

end StreamCatalog
