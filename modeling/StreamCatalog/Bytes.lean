/-!
# Byte strings

Byte strings are lists of octets. Numbers are written most significant byte
first: `Bytes.ofNat width n` writes the low `width` bytes of `n`, `Bytes.toNat`
reads them back, and `Bytes.toInt` reads a two's complement number.
`Bytes.splitAt?` cuts off a front part only when the string is long enough.
-/

namespace StreamCatalog

/-- A string of octets. -/
abbrev Bytes := List UInt8

namespace Bytes

/-- The number that `bs` writes in base 256, most significant byte first. -/
def toNat (bs : Bytes) : Nat :=
  bs.foldl (fun high b => high * 256 + b.toNat) 0

/-- The low `width` bytes of `n`, most significant byte first. -/
def ofNat : Nat → Nat → Bytes
  | 0, _ => []
  | width + 1, n => ofNat width (n / 256) ++ [UInt8.ofNat n]

/-- The two's complement number that `bs` writes, as wide as `bs` is long. -/
def toInt (bs : Bytes) : Int :=
  Int.bmod (toNat bs) (1 <<< (8 * bs.length))

/-- The two's complement bytes of `i` at the given width. -/
def ofInt (width : Nat) (i : Int) : Bytes :=
  ofNat width (i % (1 <<< (8 * width) : Nat)).toNat

/-- The first `n` bytes and the rest, when there are `n` bytes. -/
def splitAt? (n : Nat) (bs : Bytes) : Option (Bytes × Bytes) :=
  let front := bs.take n
  if front.length = n then some (front, bs.drop n) else none

@[simp] theorem length_ofNat (width n : Nat) : (ofNat width n).length = width := by
  induction width generalizing n with
  | zero => rfl
  | succ width ih => simp [ofNat, ih]

theorem toNat_append_singleton (bs : Bytes) (b : UInt8) :
    toNat (bs ++ [b]) = toNat bs * 256 + b.toNat := by
  simp [toNat]

/-- Splitting succeeds exactly when the parts put together are the string. -/
theorem splitAt?_eq_some_iff {n : Nat} {bs front back : Bytes} :
    splitAt? n bs = some (front, back) ↔ front.length = n ∧ bs = front ++ back := by
  constructor
  · intro h
    simp only [splitAt?] at h
    split at h
    · cases h
      exact ⟨by assumption, (List.take_append_drop n bs).symm⟩
    · cases h
  · rintro ⟨rfl, rfl⟩
    simp [splitAt?]

/-- Two strings put together are split where they meet. -/
@[simp] theorem splitAt?_append (front back : Bytes) :
    splitAt? front.length (front ++ back) = some (front, back) :=
  splitAt?_eq_some_iff.2 ⟨rfl, rfl⟩

/-- Splitting fails exactly on strings that are too short. -/
theorem splitAt?_eq_none_iff {n : Nat} {bs : Bytes} :
    splitAt? n bs = none ↔ bs.length < n := by
  simp only [splitAt?, List.length_take]
  split <;> simp <;> omega

end Bytes

end StreamCatalog
