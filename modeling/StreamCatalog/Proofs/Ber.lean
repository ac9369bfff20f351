import Mathlib.Algebra.Group.Nat.Defs
import Mathlib.Data.List.Basic
import Mathlib.Data.List.Induction
import StreamCatalog.Ber

/-!
# Reading back lengths and tags

A length below 2^32 and a tag below 2^28 are read back from what is written for
them, whatever bytes follow. The bounds are those of the readers: four length
bytes and four groups of a tag.

Readers also take longer forms than the written ones. `WritesTag` and `WritesLength`
are all the fields that they take (`decodeTag_eq_some_iff`, `decodeLength_eq_ok_iff`),
whatever follows, so where a field ends is settled by its own bytes
(`WritesTag.eq_of_append_eq`, `WritesLength.eq_of_append_eq`).
-/

namespace StreamCatalog

namespace Bytes

/-- Writing at a width and reading back keeps the number modulo the width. -/
theorem toNat_ofNat (width n : Nat) : toNat (ofNat width n) = n % 256 ^ width := by
  induction width generalizing n with
  | zero =>
    rw [pow_zero, Nat.mod_one]
    rfl
  | succ width ih =>
    rw [ofNat, toNat_append_singleton, ih, UInt8.toNat_ofNat', pow_succ' 256 width, Nat.mod_mul]
    omega

/-- Leading zero bytes do not change the number that is written. -/
theorem toNat_dropWhile_zero (bs : Bytes) : toNat (bs.dropWhile (· = 0)) = toNat bs := by
  induction bs with
  | nil => rfl
  | cons b bs ih =>
    by_cases hb : b = 0
    · subst hb
      rw [List.dropWhile_cons_of_pos (by simp), ih]
      simp [toNat]
    · rw [List.dropWhile_cons_of_neg (by simpa using hb)]

/-- Bytes are told by the number they write, and how many they are. -/
theorem eq_of_toNat_eq {bs cs : Bytes} (hlength : bs.length = cs.length)
    (h : toNat bs = toNat cs) : bs = cs := by
  induction bs using List.reverseRecOn generalizing cs with
  | nil => exact (List.length_eq_zero_iff.1 hlength.symm).symm
  | append_singleton bs b ih =>
    rcases List.eq_nil_or_concat cs with rfl | ⟨cs, c, rfl⟩
    · simp at hlength
    · rw [List.concat_eq_append] at *
      rw [toNat_append_singleton, toNat_append_singleton] at h
      have hb := b.toNat_lt
      have hc := c.toNat_lt
      have hbc : b = c := UInt8.toNat_inj.1 (by omega)
      rw [hbc, ih (by simpa using hlength) (by omega)]

/-- Zeros behind some bytes shift the number. -/
theorem toNat_append_zeros (bs : Bytes) (n : Nat) :
    toNat (bs ++ List.replicate n 0x00) = toNat bs * 256 ^ n := by
  induction n with
  | zero => simp
  | succ n ih =>
    rw [List.replicate_succ', ← List.append_assoc, toNat_append_singleton, ih, pow_succ]
    simp [Nat.mul_assoc]

end Bytes

namespace Ber

/-- The four bytes of a length from 128 on do not all vanish. -/
theorem lengthDigits_ne_nil {n : Nat} (hlong : 0x80 ≤ n) (hn : n < 2 ^ 32) :
    (Bytes.ofNat 4 n).dropWhile (· = 0) ≠ [] := by
  intro hnil
  have hzero : Bytes.toNat ((Bytes.ofNat 4 n).dropWhile (· = 0)) = 0 := by
    rw [hnil]
    rfl
  rw [Bytes.toNat_dropWhile_zero, Bytes.toNat_ofNat] at hzero
  omega

/-- A length below 2^32 is read back from its written form. -/
theorem decodeLength_encodeLength {n : Nat} (hn : n < 2 ^ 32) (rest : Bytes) :
    decodeLength (encodeLength n ++ rest) = .ok (n, (encodeLength n).length) := by
  unfold encodeLength
  by_cases hshort : n < 0x80
  · have hbyte : (UInt8.ofNat n).toNat = n := by
      rw [UInt8.toNat_ofNat']
      omega
    simp only [hshort, ite_true, List.singleton_append, decodeLength, hbyte, List.length_singleton]
  · have hne := lengthDigits_ne_nil (by omega) hn
    have hvalue : Bytes.toNat ((Bytes.ofNat 4 n).dropWhile (· = 0)) = n := by
      rw [Bytes.toNat_dropWhile_zero, Bytes.toNat_ofNat]
      omega
    have hcount : ((Bytes.ofNat 4 n).dropWhile (· = 0)).length ≤ 4 := by
      simpa using (List.dropWhile_suffix (l := Bytes.ofNat 4 n) (· = 0)).length_le
    simp only [hshort, ite_false]
    generalize (Bytes.ofNat 4 n).dropWhile (· = 0) = digits at hne hvalue hcount ⊢
    have hpos : 0 < digits.length := List.length_pos_iff.2 hne
    have hfirst : (UInt8.ofNat (0x80 + digits.length)).toNat = 0x80 + digits.length := by
      rw [UInt8.toNat_ofNat']
      omega
    simp only [List.cons_append, decodeLength, hfirst, show ¬0x80 + digits.length < 0x80 by omega,
      show 0x80 + digits.length - 0x80 = digits.length by omega,
      show ¬(digits.length = 0 ∨ 4 < digits.length) by omega, ite_false,
      Bytes.splitAt?_append, hvalue,
      List.length_cons]
    rw [Nat.add_comm]

/-- A length that is read where any length was written takes the bytes that were written for it. -/
theorem size_of_decodeLength_encodeLength {n length size : Nat} {rest : Bytes}
    (h : decodeLength (encodeLength n ++ rest) = .ok (length, size)) :
    size = (encodeLength n).length := by
  unfold encodeLength at h ⊢
  by_cases hshort : n < 0x80
  · have hbyte : (UInt8.ofNat n).toNat < 0x80 := by
      rw [UInt8.toNat_ofNat']
      omega
    simp only [hshort, ite_true, List.singleton_append, decodeLength, hbyte] at h ⊢
    cases h
    rfl
  · have hcount : ((Bytes.ofNat 4 n).dropWhile (· = 0)).length ≤ 4 := by
      simpa using (List.dropWhile_suffix (l := Bytes.ofNat 4 n) (· = 0)).length_le
    simp only [hshort, ite_false] at h ⊢
    generalize (Bytes.ofNat 4 n).dropWhile (· = 0) = digits at hcount h ⊢
    have hfirst : (UInt8.ofNat (0x80 + digits.length)).toNat = 0x80 + digits.length := by
      rw [UInt8.toNat_ofNat']
      omega
    simp only [List.cons_append, decodeLength, hfirst, show ¬0x80 + digits.length < 0x80 by omega,
      show 0x80 + digits.length - 0x80 = digits.length by omega, ite_false] at h
    split at h
    · cases h
    · rw [Bytes.splitAt?_append] at h
      cases h
      rw [List.length_cons, Nat.add_comm]

/-- Reading the groups of `n` above the last one leaves the reader at the last one. -/
theorem decodeTagFrom_leadingGroups (n groups : Nat) (rest : Bytes) :
    decodeTagFrom 0 0 (groups + (leadingGroups n).length) (leadingGroups n ++ rest) =
      decodeTagFrom n (leadingGroups n).length groups rest := by
  induction n using leadingGroups.induct generalizing groups rest with
  | case1 =>
    rw [leadingGroups]
    rfl
  | case2 n hn ih =>
    have hgroups : leadingGroups n =
        leadingGroups (n / 128) ++ [UInt8.ofNat (0x80 + n % 128)] := by
      rw [leadingGroups, if_neg hn]
    have hbyte : (UInt8.ofNat (0x80 + n % 128)).toNat = 0x80 + n % 128 := by
      rw [UInt8.toNat_ofNat']
      omega
    have htag : n / 128 * 128 + (0x80 + n % 128) % 128 = n := by omega
    have hmore : groups + ((leadingGroups (n / 128)).length + 1) =
        (groups + 1) + (leadingGroups (n / 128)).length := by omega
    simp only [hgroups, List.length_append, List.length_singleton, List.append_assoc, hmore]
    rw [ih, List.singleton_append, decodeTagFrom]
    simp only [hbyte, htag, show ¬0x80 + n % 128 < 0x80 by omega, ite_false]

/-- A number of `k` groups has at most `k` of them. -/
theorem length_leadingGroups_le (n : Nat) {k : Nat} (hn : n < 128 ^ k) :
    (leadingGroups n).length ≤ k := by
  induction n using leadingGroups.induct generalizing k with
  | case1 =>
    rw [leadingGroups]
    simp
  | case2 n hpos ih =>
    rw [leadingGroups, if_neg hpos, List.length_append, List.length_singleton]
    cases k with
    | zero => omega
    | succ k =>
      have hdiv : n / 128 < 128 ^ k := by
        rw [Nat.div_lt_iff_lt_mul (by decide), ← Nat.pow_succ]
        exact hn
      have := ih hdiv
      omega

/-- A tag below 2^28 is read back from its written form. -/
theorem decodeTag_encodeTag {tag : Nat} (htag : tag < 2 ^ 28) (rest : Bytes) :
    decodeTag (encodeTag tag ++ rest) = some (tag, (encodeTag tag).length) := by
  have hcount : (leadingGroups (tag / 128)).length ≤ 3 :=
    length_leadingGroups_le _ (by omega)
  have hgroups : tagGroups =
      (tagGroups - (leadingGroups (tag / 128)).length - 1 + 1) +
        (leadingGroups (tag / 128)).length := by
    unfold tagGroups
    omega
  have hbyte : (UInt8.ofNat (tag % 128)).toNat = tag % 128 := by
    rw [UInt8.toNat_ofNat']
    omega
  rw [decodeTag, hgroups, encodeTag, List.append_assoc, decodeTagFrom_leadingGroups,
    List.singleton_append, decodeTagFrom]
  simp only [hbyte, show tag % 128 < 0x80 by omega, ite_true, List.length_append,
    List.length_singleton, Option.some.injEq, Prod.mk.injEq, and_true]
  omega

/-! ## The fields that are read -/

/-- The number that groups of seven bits write, most significant group first. -/
def groupsValue (field : Bytes) : Nat :=
  field.foldl (fun high b => high * 128 + b.toNat % 128) 0

/-- Whether a field writes a tag: in one to four groups, all but the last one with the high bit. -/
inductive WritesTag : Bytes → Nat → Prop where
  /-- The groups with the high bit, and the last one. -/
  | groups {leading : Bytes} {last : UInt8} (count : leading.length < tagGroups)
      (more : ∀ b ∈ leading, 0x80 ≤ b.toNat) (final : last.toNat < 0x80) :
    WritesTag (leading ++ [last]) (groupsValue (leading ++ [last]))

/-- Whether a field writes a length, in its short form or in one to four bytes behind their
number. -/
inductive WritesLength : Bytes → Nat → Prop where
  /-- The length itself. -/
  | short {b : UInt8} (small : b.toNat < 0x80) : WritesLength [b] b.toNat
  /-- The number of bytes, and the length in them. -/
  | long {first : UInt8} {digits : Bytes} (announced : first.toNat = 0x80 + digits.length)
      (some_digits : digits ≠ []) (few_digits : digits.length ≤ 4) :
    WritesLength (first :: digits) (Bytes.toNat digits)

/-- Reading goes on through the groups with the high bit, and ends with the first one without. -/
theorem decodeTagFrom_append {leading : Bytes} {last : UInt8} {groups : Nat} (high used : Nat)
    (rest : Bytes) (count : leading.length < groups) (more : ∀ b ∈ leading, 0x80 ≤ b.toNat)
    (final : last.toNat < 0x80) :
    decodeTagFrom high used groups (leading ++ last :: rest) =
      some ((leading ++ [last]).foldl (fun high b => high * 128 + b.toNat % 128) high,
        used + (leading.length + 1)) := by
  induction leading generalizing high used groups with
  | nil =>
    obtain ⟨groups, rfl⟩ := Nat.exists_eq_succ_of_ne_zero (Nat.ne_of_gt count)
    simp [decodeTagFrom, final]
  | cons b leading ih =>
    obtain ⟨groups, rfl⟩ := Nat.exists_eq_succ_of_ne_zero (Nat.ne_zero_of_lt count)
    have hb : ¬b.toNat < 0x80 := Nat.not_lt.2 (more b List.mem_cons_self)
    have hrest := ih (high * 128 + b.toNat % 128) (used + 1) (Nat.lt_of_succ_lt_succ count)
      fun c hc => more c (List.mem_cons_of_mem b hc)
    simp only [List.cons_append, decodeTagFrom, hb, if_false, hrest, List.foldl_cons,
      List.length_cons, Option.some.injEq, Prod.mk.injEq, true_and]
    omega

/-- What was read are groups with the high bit, and one without. -/
theorem exists_groups_of_decodeTagFrom {high used groups : Nat} {bs : Bytes} {tag n : Nat}
    (h : decodeTagFrom high used groups bs = some (tag, n)) :
    ∃ leading last rest, bs = leading ++ last :: rest ∧ leading.length < groups ∧
      (∀ b ∈ leading, 0x80 ≤ b.toNat) ∧ last.toNat < 0x80 := by
  fun_induction decodeTagFrom high used groups bs with
  | case1 => cases h
  | case2 => cases h
  | case3 high used groups b rest t hb =>
    exact ⟨[], b, rest, rfl, Nat.succ_pos groups, by simp, hb⟩
  | case4 high used groups b rest t hb ih =>
    obtain ⟨leading, last, rest, rfl, hcount, hmore, hlast⟩ := ih h
    refine ⟨b :: leading, last, rest, rfl, Nat.succ_lt_succ hcount, ?_, hlast⟩
    intro c hc
    rcases List.mem_cons.1 hc with rfl | hc
    · exact Nat.not_lt.1 hb
    · exact hmore c hc

/-- A field that writes a tag is read, whatever follows. -/
theorem WritesTag.decodeTag_append {field : Bytes} {tag : Nat} (h : WritesTag field tag)
    (rest : Bytes) : decodeTag (field ++ rest) = some (tag, field.length) := by
  obtain ⟨count, more, final⟩ := h
  rw [decodeTag, List.append_assoc, List.singleton_append,
    decodeTagFrom_append 0 0 rest count more final, Nat.zero_add, List.length_append]
  rfl

/-- A tag is read exactly from a field that writes it. -/
theorem decodeTag_eq_some_iff {bs : Bytes} {tag n : Nat} :
    decodeTag bs = some (tag, n) ↔
      ∃ field rest, bs = field ++ rest ∧ field.length = n ∧ WritesTag field tag := by
  constructor
  · intro h
    obtain ⟨leading, last, rest, rfl, hcount, hmore, hlast⟩ := exists_groups_of_decodeTagFrom h
    have hwrites : WritesTag (leading ++ [last]) _ := .groups hcount hmore hlast
    have hread := hwrites.decodeTag_append rest
    rw [List.append_assoc, List.singleton_append, h] at hread
    obtain ⟨rfl, rfl⟩ : tag = _ ∧ n = _ := by simpa using hread
    exact ⟨leading ++ [last], rest, by simp, by simp, hwrites⟩
  · rintro ⟨field, rest, rfl, rfl, hwrites⟩
    exact hwrites.decodeTag_append rest

/-- A field that writes a length is read, whatever follows. -/
theorem WritesLength.decodeLength_append {field : Bytes} {length : Nat}
    (h : WritesLength field length) (rest : Bytes) :
    decodeLength (field ++ rest) = .ok (length, field.length) := by
  cases h with
  | short small => simp [decodeLength, small]
  | @long first digits announced some_digits few_digits =>
    have hpos : 0 < digits.length := List.length_pos_iff.2 some_digits
    have hlong : ¬0x80 + digits.length < 0x80 := by omega
    have hcount : ¬(digits.length = 0 ∨ 4 < digits.length) := by omega
    simp only [List.cons_append, decodeLength, announced, hlong, Nat.add_sub_cancel_left, hcount,
      if_false, Bytes.splitAt?_append, List.length_cons]
    rw [Nat.add_comm]

/-- A length is read exactly from a field that writes it. -/
theorem decodeLength_eq_ok_iff {bs : Bytes} {length n : Nat} :
    decodeLength bs = .ok (length, n) ↔
      ∃ field rest, bs = field ++ rest ∧ field.length = n ∧ WritesLength field length := by
  constructor
  · intro h
    unfold decodeLength at h
    split at h
    · cases h
    · next first rest =>
      split at h
      · next hshort =>
        cases h
        exact ⟨[first], rest, rfl, rfl, .short hshort⟩
      · next hlong =>
        dsimp only at h
        split at h
        · cases h
        · next hcount =>
          split at h
          · cases h
          · next digits others hsplit =>
            cases h
            obtain ⟨hsize, rfl⟩ := Bytes.splitAt?_eq_some_iff.1 hsplit
            refine ⟨first :: digits, others, rfl, ?_, .long ?_ ?_ ?_⟩
            · rw [List.length_cons, hsize, Nat.add_comm]
            · omega
            · exact List.ne_nil_of_length_pos (by omega)
            · omega
  · rintro ⟨field, rest, rfl, rfl, hwrites⟩
    exact hwrites.decodeLength_append rest

/-- Where a tag ends is settled by its bytes: no field goes on behind another one. -/
theorem WritesTag.eq_of_append_eq {field other rest behind : Bytes} {tag second : Nat}
    (h : WritesTag field tag) (hother : WritesTag other second)
    (heq : field ++ rest = other ++ behind) : field = other ∧ tag = second ∧ rest = behind := by
  have hread := h.decodeTag_append rest
  rw [heq, hother.decodeTag_append behind] at hread
  obtain ⟨rfl, hlength⟩ : second = tag ∧ other.length = field.length := by simpa using hread
  obtain ⟨rfl, rfl⟩ := List.append_inj heq hlength.symm
  exact ⟨rfl, rfl, rfl⟩

/-- Where a length ends is settled by its bytes. -/
theorem WritesLength.eq_of_append_eq {field other rest behind : Bytes} {length second : Nat}
    (h : WritesLength field length) (hother : WritesLength other second)
    (heq : field ++ rest = other ++ behind) :
    field = other ∧ length = second ∧ rest = behind := by
  have hread := h.decodeLength_append rest
  rw [heq, hother.decodeLength_append behind] at hread
  obtain ⟨rfl, hlength⟩ : second = length ∧ other.length = field.length := by simpa using hread
  obtain ⟨rfl, rfl⟩ := List.append_inj heq hlength.symm
  exact ⟨rfl, rfl, rfl⟩

/-- What is written for a tag below 2^28 is such a field. -/
theorem writesTag_encodeTag {tag : Nat} (htag : tag < 2 ^ 28) : WritesTag (encodeTag tag) tag := by
  obtain ⟨field, rest, heq, hlength, hwrites⟩ :=
    decodeTag_eq_some_iff.1 (decodeTag_encodeTag htag [])
  obtain ⟨rfl, -⟩ := List.append_inj heq hlength.symm
  exact hwrites

/-- What is written for a length below 2^32 is such a field. -/
theorem writesLength_encodeLength {length : Nat} (hlength : length < 2 ^ 32) :
    WritesLength (encodeLength length) length := by
  obtain ⟨field, rest, heq, hsize, hwrites⟩ :=
    decodeLength_eq_ok_iff.1 (decodeLength_encodeLength hlength [])
  obtain ⟨rfl, -⟩ := List.append_inj heq hsize.symm
  exact hwrites

/-- A tag takes a byte at least. -/
theorem WritesTag.length_pos {field : Bytes} {tag : Nat} (h : WritesTag field tag) :
    0 < field.length := by
  cases h
  simp

/-- A length takes a byte at least. -/
theorem WritesLength.length_pos {field : Bytes} {length : Nat} (h : WritesLength field length) :
    0 < field.length := by
  cases h <;> simp

end Ber

end StreamCatalog
