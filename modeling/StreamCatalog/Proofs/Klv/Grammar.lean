import StreamCatalog.Proofs.Ber
import StreamCatalog.Proofs.Faults.LocalSets

/-!
# The grammar of local sets

A local set is a row of triples, each of a tag, a length and as many bytes as the
length says. No triple goes on behind another one (`Triple.eq_of_append_eq`), so a
value is such a row in one way at most (`eq_of_flatMap_bytes_eq`), and the items
of a value are read exactly when it is one (`parseItems_eq_ok_iff`). Otherwise
reading stops where the longest row of triples in front ends
(`parseItems_eq_error_iff`).
-/

namespace StreamCatalog.Klv

/-! ## Triples -/

/-- A tag, a length and a value, as they stand in a local set. -/
@[ext]
structure Triple where
  /-- The bytes of the tag. -/
  tagField : Bytes
  /-- The bytes of the length. -/
  lengthField : Bytes
  /-- What they say, and the value behind them. -/
  item : Item
  /-- The first field writes the tag. -/
  writesTag : Ber.WritesTag tagField item.tag
  /-- The second one writes the length of the value. -/
  writesLength : Ber.WritesLength lengthField item.value.length

namespace Triple

/-- All bytes of a triple. -/
def bytes (t : Triple) : Bytes :=
  t.tagField ++ t.lengthField ++ t.item.value

theorem bytes_append (t : Triple) (rest : Bytes) :
    t.bytes ++ rest = t.tagField ++ (t.lengthField ++ (t.item.value ++ rest)) := by
  simp only [bytes, List.append_assoc]

/-- A triple takes two bytes at least. -/
theorem two_le_length_bytes (t : Triple) : 2 ≤ t.bytes.length := by
  have htag := t.writesTag.length_pos
  have hlength := t.writesLength.length_pos
  simp only [bytes, List.length_append]
  omega

theorem bytes_ne_nil (t : Triple) : t.bytes ≠ [] := by
  apply List.ne_nil_of_length_pos
  have := t.two_le_length_bytes
  omega

/-- A triple at the front is read, whatever follows. -/
theorem parseItem_append (t : Triple) (offset : Nat) (rest : Bytes) :
    parseItem offset (t.bytes ++ rest) = .ok (t.item, t.bytes.length) := by
  have hfields : (t.bytes ++ rest).drop (t.tagField.length + t.lengthField.length) =
      t.item.value ++ rest := by
    rw [bytes_append, ← List.append_assoc, ← List.length_append, List.drop_left]
  unfold parseItem
  rw [bytes_append, t.writesTag.decodeTag_append, ← bytes_append]
  dsimp only
  rw [show (t.bytes ++ rest).drop t.tagField.length =
    t.lengthField ++ (t.item.value ++ rest) by rw [bytes_append, List.drop_left],
    t.writesLength.decodeLength_append]
  dsimp only
  rw [hfields, Bytes.splitAt?_append]
  simp only [bytes, List.length_append]

/-- Where a triple ends is settled by its bytes. -/
theorem eq_of_append_eq {t u : Triple} {rest behind : Bytes}
    (h : t.bytes ++ rest = u.bytes ++ behind) : t = u ∧ rest = behind := by
  rw [bytes_append, bytes_append] at h
  obtain ⟨htagField, htag, hfields⟩ := t.writesTag.eq_of_append_eq u.writesTag h
  obtain ⟨hlengthField, hlength, hvalues⟩ := t.writesLength.eq_of_append_eq u.writesLength hfields
  obtain ⟨hvalue, hrest⟩ := List.append_inj hvalues hlength
  have hitem : t.item = u.item := by
    cases ht : t.item
    cases hu : u.item
    simp_all
  exact ⟨Triple.ext htagField hlengthField hitem, hrest⟩

end Triple

/-- An item is read exactly from a triple. -/
theorem parseItem_eq_ok_iff {offset n : Nat} {bs : Bytes} {item : Item} :
    parseItem offset bs = .ok (item, n) ↔
      ∃ (t : Triple) (rest : Bytes), bs = t.bytes ++ rest ∧ t.bytes.length = n ∧ t.item = item := by
  constructor
  · intro h
    unfold parseItem at h
    split at h
    · cases h
    · next tag tagSize htag =>
      obtain ⟨tagField, behindTag, rfl, rfl, hwritesTag⟩ := Ber.decodeTag_eq_some_iff.1 htag
      rw [List.drop_left] at h
      split at h
      · cases h
      · next length lengthSize hlength =>
        obtain ⟨lengthField, behindLength, rfl, rfl, hwritesLength⟩ :=
          Ber.decodeLength_eq_ok_iff.1 hlength
        rw [← List.append_assoc, ← List.length_append, List.drop_left] at h
        split at h
        · cases h
        · next value rest hsplit =>
          obtain ⟨rfl, rfl⟩ := Bytes.splitAt?_eq_some_iff.1 hsplit
          cases h
          refine ⟨⟨tagField, lengthField, ⟨tag, value⟩, hwritesTag, hwritesLength⟩, rest, ?_, ?_, rfl⟩
          · simp only [Triple.bytes, List.append_assoc]
          · simp only [Triple.bytes, List.length_append]
  · rintro ⟨t, rest, rfl, rfl, rfl⟩
    exact t.parseItem_append offset rest

/-- No item is read exactly where no triple stands. -/
theorem parseItem_eq_error_iff {offset : Nat} {bs : Bytes} :
    (∃ e, parseItem offset bs = .error e) ↔ ∀ t : Triple, ¬t.bytes <+: bs := by
  constructor
  · rintro ⟨e, he⟩ t ⟨rest, rfl⟩
    rw [t.parseItem_append] at he
    cases he
  · intro hnone
    cases hparse : parseItem offset bs with
    | error e => exact ⟨e, rfl⟩
    | ok result =>
      obtain ⟨t, rest, rfl, -⟩ := parseItem_eq_ok_iff.1 hparse
      exact absurd (List.prefix_append ..) (hnone t)

/-! ## Rows of triples -/

/-- A triple in front of a row is read first. -/
theorem parseItemsFrom_bytes_append (t : Triple) (offset : Nat) (rest : Bytes) :
    parseItemsFrom offset (t.bytes ++ rest) =
      (parseItemsFrom (offset + t.bytes.length) rest).map (t.item :: ·) := by
  have hne : t.bytes ++ rest ≠ [] := by simp [t.bytes_ne_nil]
  rw [parseItemsFrom_of_ok hne (t.parseItem_append offset rest), List.drop_left]

/-- A row of triples in front is read first. -/
theorem parseItemsFrom_flatMap_append (ts : List Triple) (offset : Nat) (rest : Bytes) :
    parseItemsFrom offset (ts.flatMap Triple.bytes ++ rest) =
      (parseItemsFrom (offset + (ts.flatMap Triple.bytes).length) rest).map
        (ts.map Triple.item ++ ·) := by
  induction ts generalizing offset with
  | nil =>
    simp only [List.flatMap_nil, List.nil_append, List.length_nil, Nat.add_zero, List.map_nil]
    cases parseItemsFrom offset rest <;> rfl
  | cons t ts ih =>
    rw [List.flatMap_cons, List.append_assoc, parseItemsFrom_bytes_append, ih, List.length_append,
      Nat.add_assoc]
    cases parseItemsFrom (offset + (t.bytes.length + (ts.flatMap Triple.bytes).length)) rest <;> rfl

/-- The longest row of triples in front, with nothing behind it or something that no triple
starts. -/
theorem exists_triples (bs : Bytes) :
    ∃ (ts : List Triple) (rest : Bytes), bs = ts.flatMap Triple.bytes ++ rest ∧
      ∀ t : Triple, ¬t.bytes <+: rest := by
  induction hn : bs.length using Nat.strongRecOn generalizing bs with
  | ind n ih =>
    subst hn
    by_cases hnone : ∀ t : Triple, ¬t.bytes <+: bs
    · exact ⟨[], bs, rfl, hnone⟩
    · obtain ⟨t, rest, rfl⟩ : ∃ t : Triple, t.bytes <+: bs := by simpa using hnone
      have hshorter : rest.length < (t.bytes ++ rest).length := by
        have := t.two_le_length_bytes
        rw [List.length_append]
        omega
      obtain ⟨ts, behind, rfl, hbehind⟩ := ih _ hshorter rest rfl
      exact ⟨t :: ts, behind, by rw [List.flatMap_cons, List.append_assoc], hbehind⟩

/-- Two rows of triples, with nothing behind them that a triple starts, are the same. -/
theorem eq_of_flatMap_bytes_append_eq {ts us : List Triple} {rest behind : Bytes}
    (hrest : ∀ t : Triple, ¬t.bytes <+: rest) (hbehind : ∀ t : Triple, ¬t.bytes <+: behind)
    (h : ts.flatMap Triple.bytes ++ rest = us.flatMap Triple.bytes ++ behind) :
    ts = us ∧ rest = behind := by
  induction ts generalizing us with
  | nil =>
    cases us with
    | nil => exact ⟨rfl, h⟩
    | cons u us =>
      rw [List.flatMap_nil, List.nil_append, List.flatMap_cons, List.append_assoc] at h
      exact absurd ⟨_, h.symm⟩ (hrest u)
  | cons t ts ih =>
    cases us with
    | nil =>
      rw [List.flatMap_nil, List.nil_append, List.flatMap_cons, List.append_assoc] at h
      exact absurd ⟨_, h⟩ (hbehind t)
    | cons u us =>
      rw [List.flatMap_cons, List.flatMap_cons, List.append_assoc, List.append_assoc] at h
      obtain ⟨rfl, hrows⟩ := Triple.eq_of_append_eq h
      obtain ⟨rfl, rfl⟩ := ih hrows
      exact ⟨rfl, rfl⟩

/-- A triple takes bytes, so none starts where there are none. -/
theorem not_bytes_prefix_nil (t : Triple) : ¬t.bytes <+: [] := fun h =>
  t.bytes_ne_nil (List.prefix_nil.1 h)

/-- A value is a row of triples in one way at most. -/
theorem eq_of_flatMap_bytes_eq {ts us : List Triple}
    (h : ts.flatMap Triple.bytes = us.flatMap Triple.bytes) : ts = us := by
  rw [← List.append_nil (ts.flatMap _), ← List.append_nil (us.flatMap _)] at h
  exact (eq_of_flatMap_bytes_append_eq not_bytes_prefix_nil not_bytes_prefix_nil h).1

/-- A row has half as many triples as bytes at most. -/
theorem two_mul_length_le (ts : List Triple) :
    2 * ts.length ≤ (ts.flatMap Triple.bytes).length := by
  induction ts with
  | nil => simp
  | cons t ts ih =>
    have := t.two_le_length_bytes
    rw [List.flatMap_cons, List.length_append, List.length_cons]
    omega

/-- Reading succeeds exactly on rows of triples, and gives their items. -/
theorem parseItems_eq_ok_iff {value : Bytes} {items : List Item} :
    parseItems value = .ok items ↔
      ∃ ts : List Triple, ts.flatMap Triple.bytes = value ∧ ts.map Triple.item = items := by
  constructor
  · intro h
    obtain ⟨ts, rest, rfl, hnone⟩ := exists_triples value
    rw [parseItems, parseItemsFrom_flatMap_append] at h
    by_cases hrest : rest = []
    · subst hrest
      rw [parseItemsFrom] at h
      refine ⟨ts, (List.append_nil _).symm, ?_⟩
      simpa [Except.map] using h
    · obtain ⟨e, he⟩ := parseItem_eq_error_iff.2 hnone
      rw [parseItemsFrom_of_error hrest he] at h
      cases h
  · rintro ⟨ts, rfl, rfl⟩
    have hread := parseItemsFrom_flatMap_append ts 0 []
    rw [List.append_nil, parseItemsFrom] at hread
    rw [parseItems, hread, Except.map, List.append_nil]

/-- Reading fails exactly where something stands behind the longest row of triples in front, and
with what is wrong there. -/
theorem parseItems_eq_error_iff {value : Bytes} {e : Error} :
    parseItems value = .error e ↔
      ∃ (ts : List Triple) (rest : Bytes), ts.flatMap Triple.bytes ++ rest = value ∧ rest ≠ [] ∧
        parseItem (ts.flatMap Triple.bytes).length rest = .error e := by
  constructor
  · intro h
    obtain ⟨ts, rest, rfl, hnone⟩ := exists_triples value
    have hrest : rest ≠ [] := by
      rintro rfl
      have hread : parseItems (ts.flatMap Triple.bytes ++ []) = .ok (ts.map Triple.item) :=
        parseItems_eq_ok_iff.2 ⟨ts, (List.append_nil _).symm, rfl⟩
      rw [hread] at h
      cases h
    obtain ⟨fault, hfault⟩ := parseItem_eq_error_iff.2 hnone
    rw [parseItems, parseItemsFrom_flatMap_append, Nat.zero_add,
      parseItemsFrom_of_error hrest hfault] at h
    cases h
    exact ⟨ts, rest, rfl, hrest, hfault⟩
  · rintro ⟨ts, rest, rfl, hrest, hfault⟩
    rw [parseItems, parseItemsFrom_flatMap_append, Nat.zero_add,
      parseItemsFrom_of_error hrest hfault]
    rfl

/-- A value is read as a local set exactly when it is a row of triples, with the items of the row in
order; it is one in one way at most. Otherwise reading stops behind a row of triples, at a place
where no triple starts. A row has half as many triples as bytes at most, and the loop that reads
a value ends within a round for each byte and one more, in any buffer that a machine can hold. -/
theorem parseItems_reads_triples (value : Bytes) :
    (∀ items, parseItems value = .ok items ↔
      ∃ ts : List Triple, ts.flatMap Triple.bytes = value ∧ ts.map Triple.item = items) ∧
    (∀ ts us : List Triple, ts.flatMap Triple.bytes = value → us.flatMap Triple.bytes = value →
      ts = us) ∧
    (∀ e, parseItems value = .error e ↔
      ∃ (ts : List Triple) (rest : Bytes), ts.flatMap Triple.bytes ++ rest = value ∧ rest ≠ [] ∧
        (∀ t : Triple, ¬t.bytes <+: rest) ∧
        parseItem (ts.flatMap Triple.bytes).length rest = .error e) ∧
    (∀ ts : List Triple, ts.flatMap Triple.bytes <+: value → 2 * ts.length ≤ value.length) ∧
    (value.length < Checked.capacity → parseItemsChecked value = .ok (parseItems value)) := by
  refine ⟨fun items => parseItems_eq_ok_iff, ?_, ?_, ?_, parseItemsChecked_eq⟩
  · intro ts us hts hus
    exact eq_of_flatMap_bytes_eq (hts.trans hus.symm)
  · intro e
    rw [parseItems_eq_error_iff]
    constructor
    · rintro ⟨ts, rest, hvalue, hrest, hfault⟩
      exact ⟨ts, rest, hvalue, hrest, parseItem_eq_error_iff.1 ⟨e, hfault⟩, hfault⟩
    · rintro ⟨ts, rest, hvalue, hrest, -, hfault⟩
      exact ⟨ts, rest, hvalue, hrest, hfault⟩
  · intro ts hprefix
    exact Nat.le_trans (two_mul_length_le ts) hprefix.length_le

end StreamCatalog.Klv
