import StreamCatalog.Bytes

/-!
# Basic encoding rules for lengths and tags

A length below 128 is one byte; a longer one is a byte `0x80 + k` followed by
`k ≤ 4` bytes. A tag is written in groups of seven bits, most significant group
first, with the high bit set on every group but the last; at most four groups
are read. `decodeLength` and `decodeTag` read the field at the front of a byte
string and say how many bytes it takes.
-/

namespace StreamCatalog.Ber

/-- Why no length can be read. -/
inductive LengthFault where
  /-- The field runs past the end of the bytes. -/
  | truncated
  /-- The long form announces `count` bytes, which is none or more than four. -/
  | unsupported (count : Nat)
deriving DecidableEq, Repr

/-- The length at the front of `bs` and the number of bytes it takes. -/
def decodeLength : Bytes → Except LengthFault (Nat × Nat)
  | [] => .error .truncated
  | first :: rest =>
    if first.toNat < 0x80 then
      .ok (first.toNat, 1)
    else
      let count := first.toNat - 0x80
      if count = 0 ∨ 4 < count then
        .error (.unsupported count)
      else
        match Bytes.splitAt? count rest with
        | none => .error .truncated
        | some (digits, _) => .ok (Bytes.toNat digits, 1 + count)

/-- Read a tag of at most `groups` further groups, after `used` groups worth `high`. -/
def decodeTagFrom (high used : Nat) : Nat → Bytes → Option (Nat × Nat)
  | 0, _ => none
  | _ + 1, [] => none
  | groups + 1, b :: rest =>
    let tag := high * 128 + b.toNat % 128
    if b.toNat < 0x80 then some (tag, used + 1) else decodeTagFrom tag (used + 1) groups rest

/-- The largest number of seven-bit groups in a tag. -/
def tagGroups : Nat := 4

/-- The tag at the front of `bs` and the number of bytes it takes, if one ends within four bytes. -/
def decodeTag (bs : Bytes) : Option (Nat × Nat) :=
  decodeTagFrom 0 0 tagGroups bs

/-- A length in its short form, or as its low 32 bits without leading zero bytes. -/
def encodeLength (n : Nat) : Bytes :=
  if n < 0x80 then
    [UInt8.ofNat n]
  else
    let digits := (Bytes.ofNat 4 n).dropWhile (· = 0)
    UInt8.ofNat (0x80 + digits.length) :: digits

/-- The groups of `n` above the last one, most significant first, each with its high bit set. -/
def leadingGroups (n : Nat) : Bytes :=
  if n = 0 then []
  else leadingGroups (n / 128) ++ [UInt8.ofNat (0x80 + n % 128)]
termination_by n

/-- A tag in the fewest seven-bit groups. -/
def encodeTag (tag : Nat) : Bytes :=
  leadingGroups (tag / 128) ++ [UInt8.ofNat (tag % 128)]

theorem decodeTagFrom_consumed {high used groups : Nat} {bs : Bytes} {tag n : Nat}
    (h : decodeTagFrom high used groups bs = some (tag, n)) :
    used < n ∧ n ≤ used + bs.length := by
  fun_induction decodeTagFrom high used groups bs with
  | case1 => cases h
  | case2 => cases h
  | case3 high used groups b rest t hb =>
    obtain ⟨-, rfl⟩ : t = tag ∧ used + 1 = n := by simpa using h
    simp
  | case4 high used groups b rest t hb ih =>
    have := ih h
    simp only [List.length_cons]
    omega

/-- A tag takes at least one byte, and no more than there are. -/
theorem decodeTag_consumed {bs : Bytes} {tag n : Nat} (h : decodeTag bs = some (tag, n)) :
    0 < n ∧ n ≤ bs.length := by
  simpa using decodeTagFrom_consumed h

/-- A length takes at least one byte, and no more than there are. -/
theorem decodeLength_consumed {bs : Bytes} {length n : Nat}
    (h : decodeLength bs = .ok (length, n)) : 0 < n ∧ n ≤ bs.length := by
  unfold decodeLength at h
  split at h
  · cases h
  · split at h
    · cases h; simp
    · dsimp only at h
      split at h
      · cases h
      · split at h
        · cases h
        · next hs =>
          cases h
          obtain ⟨hl, hr⟩ := Bytes.splitAt?_eq_some_iff.1 hs
          simp [hr]
          omega

end StreamCatalog.Ber
