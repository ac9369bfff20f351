import StreamCatalog.Klv.Scan
import StreamCatalog.Proofs.Klv.Grammar

/-!
# Reading back local sets and units

The items of a local set are written as a row of triples, so they are read back from
what is written for them. A written unit is found where it stands in a buffer, with
the items it was made of and a checksum item that agrees with its bytes.
-/

namespace StreamCatalog.Klv

/-! ## Items -/

/-- Whether an item can be read back: tag and length are within what the readers take. -/
def Item.IsReadable (item : Item) : Prop :=
  item.tag < 2 ^ 28 ∧ item.value.length < 2 ^ 32

/-- The triple that is written for an item. -/
def Item.triple (item : Item) (h : item.IsReadable) : Triple where
  tagField := Ber.encodeTag item.tag
  lengthField := Ber.encodeLength item.value.length
  item := item
  writesTag := Ber.writesTag_encodeTag h.1
  writesLength := Ber.writesLength_encodeLength h.2

/-- Items that can be read back are written as a row of triples. -/
theorem exists_triples_of_isReadable {items : List Item} (h : ∀ i ∈ items, i.IsReadable) :
    ∃ ts : List Triple, ts.flatMap Triple.bytes = items.flatMap encodeItem ∧
      ts.map Triple.item = items := by
  induction items with
  | nil => exact ⟨[], rfl, rfl⟩
  | cons item items ih =>
    obtain ⟨ts, hbytes, hitems⟩ := ih fun i hi => h i (List.mem_cons_of_mem _ hi)
    refine ⟨item.triple (h item List.mem_cons_self) :: ts, ?_, ?_⟩
    · rw [List.flatMap_cons, List.flatMap_cons, hbytes]
      rfl
    · rw [List.map_cons, hitems]
      rfl

/-- Reading back the items of a local set gives the items. -/
theorem parseItems_flatMap_encodeItem {items : List Item} (h : ∀ i ∈ items, i.IsReadable) :
    parseItems (items.flatMap encodeItem) = .ok items :=
  parseItems_eq_ok_iff.2 (exists_triples_of_isReadable h)

/-! ## Units -/

/-- What a unit of `items` holds before its checksum. -/
def uncheckedBytes (items : List Item) : Bytes :=
  let value := items.flatMap encodeItem ++ [UInt8.ofNat checksumTag, 2]
  universalKey ++ Ber.encodeLength (value.length + 2) ++ value

/-- The checksum item of the unit of `items`. -/
def checksumItem (items : List Item) : Item :=
  ⟨checksumTag, Bytes.ofNat 2 (checksum (uncheckedBytes items)).toNat⟩

/-- The items of a unit, the checksum item among them. -/
def checkedItems (items : List Item) : List Item :=
  items ++ [checksumItem items]

/-- The value of the unit of `items`. -/
def unitValue (items : List Item) : Bytes :=
  (checkedItems items).flatMap encodeItem

/-- The unit of `items`. -/
def unitOf (items : List Item) : Unit :=
  ⟨universalKey ++ Ber.encodeLength (unitValue items).length, unitValue items⟩

theorem encodeItem_checksumItem (items : List Item) :
    encodeItem (checksumItem items) =
      [UInt8.ofNat checksumTag, 2] ++ (checksumItem items).value := by
  have htag : Ber.encodeTag checksumTag = [UInt8.ofNat checksumTag] := by
    unfold Ber.encodeTag
    rw [Ber.leadingGroups]
    rfl
  have hlength : Ber.encodeLength (checksumItem items).value.length = [2] := by
    rw [checksumItem, Bytes.length_ofNat]
    rfl
  rw [encodeItem, hlength, show (checksumItem items).tag = checksumTag from rfl, htag]
  rfl

theorem unitValue_eq (items : List Item) :
    unitValue items = items.flatMap encodeItem ++ [UInt8.ofNat checksumTag, 2] ++
      (checksumItem items).value := by
  simp only [unitValue, checkedItems, List.flatMap_append, List.flatMap_singleton,
    encodeItem_checksumItem, List.append_assoc]

/-- All bytes of a unit but its checksum, and the checksum. -/
theorem bytes_unitOf_eq (items : List Item) :
    (unitOf items).bytes = uncheckedBytes items ++ (checksumItem items).value := by
  have hlength : (unitValue items).length =
      (items.flatMap encodeItem ++ [UInt8.ofNat checksumTag, 2]).length + 2 := by
    rw [unitValue_eq, List.length_append, checksumItem, Bytes.length_ofNat]
  rw [Unit.bytes, unitOf, hlength, unitValue_eq]
  simp only [uncheckedBytes, List.append_assoc]

/-- What is written for `items` are the bytes of their unit. -/
theorem encodeUnit_eq (items : List Item) : encodeUnit items = (unitOf items).bytes := by
  rw [bytes_unitOf_eq]
  rfl

/-- Tags that can be read and a value that can be framed leave no item that cannot be read. -/
theorem isReadable_of_length_lt {items : List Item} (htag : ∀ i ∈ items, i.tag < 2 ^ 28)
    (hlength : (unitValue items).length < 2 ^ 32) : ∀ i ∈ items, i.IsReadable := by
  intro i hi
  have hitem : (encodeItem i).length ≤ (unitValue items).length := by
    apply List.Sublist.length_le
    exact List.sublist_flatten_of_mem (List.mem_map_of_mem (List.mem_append_left _ hi))
  have hvalue : i.value.length ≤ (encodeItem i).length := by
    simp only [encodeItem, List.length_append]
    omega
  exact ⟨htag i hi, by omega⟩

theorem encodeUnit_eq_append (items : List Item) :
    encodeUnit items =
      universalKey ++ (Ber.encodeLength (unitValue items).length ++ unitValue items) := by
  rw [encodeUnit_eq, Unit.bytes, unitOf, List.append_assoc]

/-- The items of a written unit are read back, and its checksum is right. -/
theorem localSet_unitOf {items : List Item} (h : ∀ i ∈ items, i.IsReadable) :
    (unitOf items).localSet = .ok (checkedItems items) := by
  have hreadable : ∀ i ∈ checkedItems items, i.IsReadable := by
    intro i hi
    rcases List.mem_append.1 hi with hi | hi
    · exact h i hi
    · rw [List.mem_singleton.1 hi]
      exact ⟨show checksumTag < 2 ^ 28 by decide, by simp [checksumItem]⟩
  have hlast : (checkedItems items).getLast? = some (checksumItem items) := by
    simp [checkedItems]
  have htake : (unitOf items).bytes.take ((unitOf items).bytes.length - 2) =
      uncheckedBytes items := by
    rw [bytes_unitOf_eq, List.length_append, checksumItem, Bytes.length_ofNat,
      Nat.add_sub_cancel, List.take_left']
    rfl
  have hstored : UInt16.ofNat (Bytes.toNat (checksumItem items).value) =
      checksum (uncheckedBytes items) := by
    rw [checksumItem, Bytes.toNat_ofNat]
    apply UInt16.toNat_inj.1
    rw [UInt16.toNat_ofNat']
    have := (checksum (uncheckedBytes items)).toNat_lt
    omega
  have hparse : parseItems (unitOf items).value = .ok (checkedItems items) :=
    parseItems_flatMap_encodeItem hreadable
  have hvalue : (checksumItem items).value.length = 2 := Bytes.length_ofNat ..
  simp only [Unit.localSet, hparse, hlast, hvalue, htake, hstored, ite_true]
  rfl

/-! ## Units in a buffer -/

/-- The search stops at a key, and what follows it is framed. -/
theorem scanFrom_key (offset : Nat) (body : Bytes) :
    scanFrom offset (universalKey ++ body) =
      match frameUnit (offset + keySize) body with
      | .error e => .error e :: scanFrom (offset + keySize) body
      | .ok (unit, n) => .ok unit :: scanFrom (offset + keySize + n) (body.drop n) := by
  have hcons : universalKey ++ body = 0x06 :: (universalKey.tail ++ body) := rfl
  have hkey : universalKey.isPrefixOf (universalKey ++ body) = true :=
    List.isPrefixOf_iff_prefix.2 (List.prefix_append ..)
  have hdrop : (universalKey ++ body).drop keySize = body := List.drop_left ..
  rw [hcons] at hkey hdrop ⊢
  rw [scanFrom, if_pos hkey]
  cases hframe : frameUnit (offset + keySize) body with
  | error e => simp only [hdrop, hframe]
  | ok p => simp only [hdrop, hframe]

/-- A length and as many bytes as it says are framed. -/
theorem frameUnit_encodeLength (offset : Nat) {value : Bytes} (h : value.length < 2 ^ 32)
    (rest : Bytes) :
    frameUnit offset (Ber.encodeLength value.length ++ value ++ rest) =
      .ok (⟨universalKey ++ Ber.encodeLength value.length, value⟩,
        (Ber.encodeLength value.length).length + value.length) := by
  rw [List.append_assoc, frameUnit, Ber.decodeLength_encodeLength h]
  simp only [List.drop_left, List.take_left, Bytes.splitAt?_append]

/-- A key, a length and as many bytes as it says are found as one unit. -/
theorem scanFrom_framed (offset : Nat) {value : Bytes} (h : value.length < 2 ^ 32)
    (rest : Bytes) :
    scanFrom offset (universalKey ++ (Ber.encodeLength value.length ++ value) ++ rest) =
      .ok ⟨universalKey ++ Ber.encodeLength value.length, value⟩ ::
        scanFrom (offset + keySize + ((Ber.encodeLength value.length).length + value.length))
          rest := by
  have hdrop : (Ber.encodeLength value.length ++ value ++ rest).drop
      ((Ber.encodeLength value.length).length + value.length) = rest := by
    rw [← List.length_append, List.drop_left]
  rw [List.append_assoc, scanFrom_key, frameUnit_encodeLength _ h]
  simp only [hdrop]

/-- A buffer that holds one written unit holds that unit. -/
theorem scan_encodeUnit {items : List Item} (h : (unitValue items).length < 2 ^ 32) :
    scan (encodeUnit items) = [.ok (unitOf items)] := by
  have hframed := scanFrom_framed 0 h []
  rw [List.append_nil, ← encodeUnit_eq_append] at hframed
  rw [scan, hframed, scanFrom]
  rfl

end StreamCatalog.Klv
