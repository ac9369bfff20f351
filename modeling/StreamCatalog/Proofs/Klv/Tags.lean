import StreamCatalog.Proofs.Klv.RoundTrip

/-!
# Which tags are read back

A tag is written in as many groups of seven bits as it needs, and four groups are
read. So a tag below 2^28 is read back wherever it stands, and from no fewer bytes
than were written; from 2^28 on there is a fifth group, and no bytes at all are read
as such a tag (`tags_read_back`). A unit can be read back exactly if all its tags
are below 2^28 (`localSet_unitOf_eq_ok_iff`): reading stops at the first that is not.
-/

namespace StreamCatalog

namespace Ber

/-! ## Fields in four groups -/

theorem groupsValue_append_singleton (field : Bytes) (b : UInt8) :
    groupsValue (field ++ [b]) = groupsValue field * 128 + b.toNat % 128 := by
  simp [groupsValue]

/-- Each group adds seven bits. -/
theorem groupsValue_lt (field : Bytes) : groupsValue field < 128 ^ field.length := by
  induction field using List.reverseRecOn with
  | nil => decide
  | append_singleton field b ih =>
    rw [groupsValue_append_singleton, List.length_append, List.length_singleton, Nat.pow_succ]
    omega

namespace WritesTag

variable {field : Bytes} {tag : Nat}

theorem lt_pow_length (h : WritesTag field tag) : tag < 128 ^ field.length := by
  cases h
  exact groupsValue_lt _

theorem length_le (h : WritesTag field tag) : field.length ≤ tagGroups := by
  obtain ⟨count, -, -⟩ := h
  rw [List.length_append, List.length_singleton]
  exact count

/-- No field writes a tag from 2^28 on. -/
theorem lt_two_pow (h : WritesTag field tag) : tag < 2 ^ 28 :=
  calc
    tag < 128 ^ field.length := h.lt_pow_length
    _ ≤ 128 ^ tagGroups := Nat.pow_le_pow_right (by decide) h.length_le
    _ = 2 ^ 28 := by decide

end WritesTag

/-- Nothing is read exactly where as many groups as are read all have the high bit. -/
theorem decodeTagFrom_eq_none_iff {high used groups : Nat} {bs : Bytes} :
    decodeTagFrom high used groups bs = none ↔ ∀ b ∈ bs.take groups, 0x80 ≤ b.toNat := by
  fun_induction decodeTagFrom high used groups bs with
  | case1 => simp
  | case2 => simp
  | case3 high used groups b rest t hb =>
    simp only [List.take_succ_cons, reduceCtorEq, false_iff]
    exact fun hall => Nat.not_le_of_lt hb (hall b List.mem_cons_self)
  | case4 high used groups b rest t hb ih =>
    rw [ih, List.take_succ_cons, List.forall_mem_cons, and_iff_right (Nat.not_lt.1 hb)]

/-! ## Written tags -/

/-- Every group above the last one has its high bit. -/
theorem high_of_mem_leadingGroups {n : Nat} {b : UInt8} (h : b ∈ leadingGroups n) :
    0x80 ≤ b.toNat := by
  induction n using leadingGroups.induct with
  | case1 => simp [leadingGroups] at h
  | case2 n hn ih =>
    rw [leadingGroups, if_neg hn, List.mem_append, List.mem_singleton] at h
    rcases h with h | rfl
    · exact ih h
    · rw [UInt8.toNat_ofNat']
      omega

/-- The groups above the last one are no fewer than the number needs. -/
theorem lt_pow_length_leadingGroups (n : Nat) : n < 128 ^ (leadingGroups n).length := by
  induction n using leadingGroups.induct with
  | case1 => simp [leadingGroups]
  | case2 n hn ih =>
    rw [leadingGroups, if_neg hn, List.length_append, List.length_singleton, Nat.pow_succ]
    omega

/-- A tag is written in no more groups than it needs. -/
theorem length_encodeTag_le {tag k : Nat} (hk : 0 < k) (h : tag < 128 ^ k) :
    (encodeTag tag).length ≤ k := by
  obtain ⟨k, rfl⟩ := Nat.exists_eq_succ_of_ne_zero (Nat.ne_of_gt hk)
  have hdiv : tag / 128 < 128 ^ k := by
    rw [Nat.div_lt_iff_lt_mul (by decide), ← Nat.pow_succ]
    exact h
  rw [encodeTag, List.length_append, List.length_singleton]
  exact Nat.succ_le_succ (length_leadingGroups_le _ hdiv)

/-- No field that writes a tag is shorter than its written form. -/
theorem WritesTag.length_encodeTag_le {field : Bytes} {tag : Nat} (h : WritesTag field tag) :
    (encodeTag tag).length ≤ field.length :=
  Ber.length_encodeTag_le h.length_pos h.lt_pow_length

/-- A tag that is read takes as many bytes at least as are written for it, and is below 2^28. -/
theorem le_of_decodeTag {bs : Bytes} {tag n : Nat} (h : decodeTag bs = some (tag, n)) :
    (encodeTag tag).length ≤ n ∧ tag < 2 ^ 28 := by
  obtain ⟨field, rest, -, rfl, hwrites⟩ := decodeTag_eq_some_iff.1 h
  exact ⟨hwrites.length_encodeTag_le, hwrites.lt_two_pow⟩

/-- From 2^28 on there are four groups above the last one, and reading ends within them. -/
theorem decodeTag_encodeTag_eq_none {tag : Nat} (htag : 2 ^ 28 ≤ tag) (rest : Bytes) :
    decodeTag (encodeTag tag ++ rest) = none := by
  have hgroups : tagGroups ≤ (leadingGroups (tag / 128)).length := by
    by_contra hfew
    have hlt : tag / 128 < 128 ^ 3 :=
      Nat.lt_of_lt_of_le (lt_pow_length_leadingGroups _)
        (Nat.pow_le_pow_right (by decide) (Nat.le_of_lt_succ (Nat.lt_of_not_le hfew)))
    omega
  rw [decodeTag, decodeTagFrom_eq_none_iff, encodeTag, List.append_assoc,
    List.take_append_of_le_length hgroups]
  intro b hb
  exact high_of_mem_leadingGroups (List.mem_of_mem_take hb)

/-- A tag of 32 bits that is written among any bytes is read back there exactly if it is below
2^28; else nothing is read. Wherever it is read, at least as many bytes are taken as are written
for it, so that no shorter string of bytes is read as this tag; and from 2^28 on there is none at
all that is. -/
theorem tags_read_back (tag : UInt32) (before after : Bytes) :
    (decodeTag ((before ++ encodeTag tag.toNat ++ after).drop before.length) =
      if tag.toNat < 2 ^ 28 then some (tag.toNat, (encodeTag tag.toNat).length) else none) ∧
    (∀ (data : Bytes) (offset n : Nat), decodeTag (data.drop offset) = some (tag.toNat, n) →
      (encodeTag tag.toNat).length ≤ n ∧ offset + n ≤ data.length) ∧
    ((∃ (data : Bytes) (offset n : Nat), decodeTag (data.drop offset) = some (tag.toNat, n)) ↔
      tag.toNat < 2 ^ 28) := by
  refine ⟨?_, ?_, ?_, ?_⟩
  · rw [List.append_assoc, List.drop_left]
    split
    next htag => exact decodeTag_encodeTag htag after
    next htag => exact decodeTag_encodeTag_eq_none (Nat.le_of_not_lt htag) after
  · intro data offset n hread
    obtain ⟨hpos, hn⟩ := decodeTag_consumed hread
    rw [List.length_drop] at hn
    exact ⟨(le_of_decodeTag hread).1, by omega⟩
  · rintro ⟨data, offset, n, hread⟩
    exact (le_of_decodeTag hread).2
  · intro htag
    exact ⟨encodeTag tag.toNat ++ [], 0, _, decodeTag_encodeTag htag []⟩

/-- The least tag of five groups: the last of them is not reached. -/
theorem fifth_group_unread :
    encodeTag (268435456 : UInt32).toNat = [0x81, 0x80, 0x80, 0x80, 0x00] ∧
      decodeTag (encodeTag (268435456 : UInt32).toNat) = none := by
  have hfield : encodeTag (268435456 : UInt32).toNat = [0x81, 0x80, 0x80, 0x80, 0x00] := by
    simp [encodeTag, leadingGroups]
  refine ⟨hfield, ?_⟩
  rw [hfield]
  decide

end Ber

namespace Klv

/-! ## Local sets that hold such a tag -/

/-- An item takes at least one byte. -/
theorem encodeItem_ne_nil (item : Item) : encodeItem item ≠ [] := by
  simp [encodeItem, Ber.encodeTag]

/-- An item with a tag of five groups is not read, and where it stands is reported. -/
theorem parseItem_encodeItem_of_le (offset : Nat) {item : Item} (htag : 2 ^ 28 ≤ item.tag)
    (rest : Bytes) :
    parseItem offset (encodeItem item ++ rest) = .error (.truncatedField offset) := by
  rw [parseItem, encodeItem, List.append_assoc, List.append_assoc,
    Ber.decodeTag_encodeTag_eq_none htag]

/-- A unit is unreadable from its first tag of five groups on, whatever stands behind. -/
theorem localSet_unitOf_eq_error {front back : List Item} {item : Item}
    (hfront : ∀ i ∈ front, i.IsReadable) (htag : 2 ^ 28 ≤ item.tag) :
    (unitOf (front ++ item :: back)).localSet =
      .error (.truncatedField (front.flatMap encodeItem).length) := by
  obtain ⟨rest, hvalue⟩ : ∃ rest, (unitOf (front ++ item :: back)).value =
      front.flatMap encodeItem ++ (encodeItem item ++ rest) :=
    ⟨(back ++ [checksumItem (front ++ item :: back)]).flatMap encodeItem, by
      simp [unitOf, unitValue, checkedItems]⟩
  obtain ⟨ts, hbytes, -⟩ := exists_triples_of_isReadable hfront
  have hne : encodeItem item ++ rest ≠ [] := by simp [encodeItem_ne_nil]
  have hparse : parseItems (unitOf (front ++ item :: back)).value =
      .error (.truncatedField (front.flatMap encodeItem).length) := by
    rw [hvalue, ← hbytes]
    exact parseItems_eq_error_iff.2 ⟨ts, _, rfl, hne, parseItem_encodeItem_of_le _ htag rest⟩
  rw [Unit.localSet, hparse]

/-- A unit whose values have lengths of 32 bits is read back exactly if all its tags are below
2^28. -/
theorem localSet_unitOf_eq_ok_iff {items : List Item}
    (hlength : ∀ i ∈ items, i.value.length < 2 ^ 32) :
    (unitOf items).localSet = .ok (checkedItems items) ↔ ∀ i ∈ items, i.tag < 2 ^ 28 := by
  constructor
  · intro hread
    -- Reading has not stopped at any item, so not at the first one with a tag of five groups.
    cases hfirst : items.find? fun i => decide (2 ^ 28 ≤ i.tag) with
    | none => simpa using hfirst
    | some item =>
      obtain ⟨htag, front, back, rfl, hsmall⟩ := List.find?_eq_some_iff_append.1 hfirst
      have hfront : ∀ i ∈ front, i.IsReadable := fun i hi =>
        ⟨by simpa using hsmall i hi, hlength i (List.mem_append_left _ hi)⟩
      rw [localSet_unitOf_eq_error hfront (of_decide_eq_true htag)] at hread
      cases hread
  · intro htags
    exact localSet_unitOf fun i hi => ⟨htags i hi, hlength i hi⟩

end Klv

end StreamCatalog
