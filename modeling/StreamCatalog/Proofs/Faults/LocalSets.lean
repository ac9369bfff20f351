import Mathlib.Data.List.Basic
import Mathlib.Data.List.Induction
import StreamCatalog.Klv.Scan
import StreamCatalog.Proofs.Faults.Basic

/-!
# Units and local sets without faults

Lengths and tags that are read at an offset, items and units that are cut out
between two offsets, and a checksum over all but the last two bytes fault nowhere
and give what the functions on what is left of a buffer give. Offsets stay within
the buffer, and a length has four bytes at most, so that their sum fits in its
word; a unit whose last item has two bytes has two bytes itself.
-/

namespace StreamCatalog

/-- A number is less than the next power of its base. -/
theorem Bytes.toNat_lt (bs : Bytes) : toNat bs < 256 ^ bs.length := by
  induction bs using List.reverseRecOn with
  | nil => decide
  | append_singleton bs b ih =>
    have hb := b.toNat_lt
    rw [toNat_append_singleton, List.length_append, List.length_singleton, Nat.pow_succ]
    omega

namespace Ber

open Checked

/-! ## Lengths and tags -/

/-- The number that `digits` write behind the digits of `high`. -/
def digitsChecked (high : Nat) : Bytes → Checked Nat
  | [] => return high
  | digit :: digits => do digitsChecked (← word 64 (high * 256 + digit.toNat)) digits

/-- The length at an offset and the number of bytes it takes. -/
def decodeLengthChecked (data : Bytes) (offset : Nat) :
    Checked (Except LengthFault (Nat × Nat)) := do
  match data[offset]? with
  | none => return .error .truncated
  | some first =>
    if first.toNat < 0x80 then
      return .ok (first.toNat, 1)
    else
      let count := first.toNat % 0x80
      if count = 0 ∨ 4 < count then
        return .error (.unsupported count)
      else
        let start ← sum offset 1
        let stop ← sum start count
        match slice? data start stop with
        | none => return .error .truncated
        | some digits => return .ok (← digitsChecked 0 digits, ← sum 1 count)

/-- Read a tag from at most four groups, after `used` groups worth `high`. -/
def decodeTagFromChecked (high used : Nat) : Bytes → Checked (Option (Nat × Nat))
  | [] => return none
  | b :: rest => do
    let tag ← word 32 (high * 128 + b.toNat % 128)
    let size ← sum used 1
    if b.toNat < 0x80 then
      return some (tag, size)
    else
      decodeTagFromChecked tag size rest

/-- The tag at an offset and the number of bytes it takes. -/
def decodeTagChecked (data : Bytes) (offset : Nat) : Checked (Option (Nat × Nat)) :=
  decodeTagFromChecked 0 0 ((data.drop offset).take tagGroups)

/-- Up to eight digits fit in a word. -/
theorem digitsChecked_eq (high digits : Bytes) (h : high.length + digits.length ≤ 8) :
    digitsChecked (Bytes.toNat high) digits = .ok (Bytes.toNat (high ++ digits)) := by
  induction digits generalizing high with
  | nil => rw [List.append_nil]; rfl
  | cons digit digits ih =>
    have hlength : (high ++ [digit]).length ≤ 8 := by
      simp only [List.length_append, List.length_cons, List.length_nil] at h ⊢
      omega
    have hlt : Bytes.toNat (high ++ [digit]) < 2 ^ 64 :=
      Nat.lt_of_lt_of_le (Bytes.toNat_lt _) (Nat.pow_le_pow_right (by decide) hlength)
    rw [digitsChecked, ← Bytes.toNat_append_singleton, word_of_lt hlt, ok_bind, ih,
      List.append_assoc, List.singleton_append]
    simp only [List.length_append, List.length_cons, List.length_nil] at h ⊢
    omega

/-- Reading a length faults nowhere in a buffer. -/
theorem decodeLengthChecked_eq {data : Bytes} (h : data.length < capacity) (offset : Nat) :
    decodeLengthChecked data offset = .ok (decodeLength (data.drop offset)) := by
  rw [decodeLengthChecked]
  rcases Nat.lt_or_ge offset data.length with hoffset | hoffset
  · rw [List.getElem?_eq_getElem hoffset, List.drop_eq_getElem_cons hoffset, decodeLength]
    have hfirst := data[offset].toNat_lt
    dsimp only
    split
    next => rfl
    next hlong =>
      rw [show data[offset].toNat % 0x80 = data[offset].toNat - 0x80 by omega]
      generalize data[offset].toNat - 0x80 = count
      split
      next => rfl
      next hcount =>
        rw [capacity] at h
        rw [sum_of_lt (by omega), ok_bind, sum_of_lt (by omega), ok_bind,
          slice?_add _ _ _ (by omega)]
        cases hsplit : Bytes.splitAt? count (data.drop (offset + 1)) with
        | none => rfl
        | some parts =>
          obtain ⟨digits, rest⟩ := parts
          have hsize := (Bytes.splitAt?_eq_some_iff.1 hsplit).1
          have hdigits := digitsChecked_eq [] digits (by rw [hsize, List.length_nil]; omega)
          dsimp only [Option.map_some]
          rw [show 0 = Bytes.toNat [] from rfl, hdigits, ok_bind, sum_of_lt (by omega)]
          rfl
  · rw [List.getElem?_eq_none hoffset, List.drop_eq_nil_of_le hoffset]
    rfl

/-- A length has four bytes at most. -/
theorem decodeLength_lt {bs : Bytes} {length size : Nat} (h : decodeLength bs = .ok (length, size)) :
    length < 2 ^ 32 := by
  unfold decodeLength at h
  split at h
  next => cases h
  next first rest =>
    split at h
    next =>
      cases h
      omega
    next =>
      dsimp only at h
      split at h
      next => cases h
      next hcount =>
        split at h
        next => cases h
        next digits _ hsplit =>
          cases h
          have hsize := (Bytes.splitAt?_eq_some_iff.1 hsplit).1
          have hpow : 256 ^ digits.length ≤ 256 ^ 4 :=
            Nat.pow_le_pow_right (by decide) (by omega)
          exact Nat.lt_of_lt_of_le (Bytes.toNat_lt digits) hpow

theorem decodeTagFromChecked_eq {high used : Nat} (groups : Nat) (bs : Bytes)
    (hhigh : high < 128 ^ used) (hgroups : used + groups = tagGroups) :
    decodeTagFromChecked high used (bs.take groups) =
      .ok (decodeTagFrom high used groups bs) := by
  induction groups generalizing high used bs with
  | zero => rfl
  | succ groups ih =>
    cases bs with
    | nil => rfl
    | cons b rest =>
      have hused : used + 1 ≤ 4 := by
        rw [tagGroups] at hgroups
        omega
      have htag : high * 128 + b.toNat % 128 < 128 ^ (used + 1) := by
        rw [Nat.pow_succ]
        omega
      have hpow : 128 ^ (used + 1) ≤ 2 ^ 28 := Nat.pow_le_pow_right (by decide) hused
      rw [List.take_succ_cons, decodeTagFromChecked, decodeTagFrom, word_of_lt (by omega), ok_bind,
        sum_of_lt (by omega), ok_bind]
      split
      next => rfl
      next => exact ih rest htag (by omega)

/-- Reading a tag faults nowhere. -/
theorem decodeTagChecked_eq (data : Bytes) (offset : Nat) :
    decodeTagChecked data offset = .ok (decodeTag (data.drop offset)) :=
  decodeTagFromChecked_eq tagGroups _ (by decide) (Nat.zero_add _)

end Ber

namespace Klv

open Checked

/-! ## Items -/

/-- How far reading a local set has come. -/
structure ItemCursor where
  /-- The items that were read. -/
  items : List Item
  /-- Where the next one starts. -/
  offset : Nat

/-- Read an item, or end. -/
def ItemCursor.stepChecked (data : Bytes) (c : ItemCursor) :
    Checked (ItemCursor ⊕ Except Error (List Item)) := do
  if c.offset < data.length then
    match ← Ber.decodeTagChecked data c.offset with
    | none => return .inr (.error (.truncatedField c.offset))
    | some (tag, tagSize) =>
      let lengthOffset ← sum c.offset tagSize
      match ← Ber.decodeLengthChecked data lengthOffset with
      | .error fault => return .inr (.error (.ofLengthFault lengthOffset fault))
      | .ok (length, lengthSize) =>
        let start ← sum lengthOffset lengthSize
        let stop ← sum start length
        match slice? data start stop with
        | none => return .inr (.error (.truncatedItem tag))
        | some value => return .inl ⟨c.items ++ [⟨tag, value⟩], stop⟩
  else
    return .inr (.ok c.items)

/-- The items of a local set. Each round reads one. -/
def parseItemsChecked (data : Bytes) : Checked (Except Error (List Item)) :=
  loop (ItemCursor.stepChecked data) (data.length + 1) ⟨[], 0⟩

/-- What reading comes to. -/
def ItemCursor.finished (data : Bytes) (c : ItemCursor) : Except Error (List Item) :=
  (parseItemsFrom c.offset (data.drop c.offset)).map (c.items ++ ·)

/-- What is left behind an item. -/
theorem parseItemsFrom_of_ok {offset n : Nat} {bs : Bytes} {item : Item} (hne : bs ≠ [])
    (h : parseItem offset bs = .ok (item, n)) :
    parseItemsFrom offset bs = (parseItemsFrom (offset + n) (bs.drop n)).map (item :: ·) := by
  cases bs with
  | nil => exact absurd rfl hne
  | cons b rest =>
    rw [parseItemsFrom]
    split
    next hparsed => rw [h] at hparsed; cases hparsed
    next hparsed =>
      rw [h] at hparsed
      cases hparsed
      rfl

theorem parseItemsFrom_of_error {offset : Nat} {bs : Bytes} {e : Error} (hne : bs ≠ [])
    (h : parseItem offset bs = .error e) : parseItemsFrom offset bs = .error e := by
  cases bs with
  | nil => exact absurd rfl hne
  | cons b rest =>
    rw [parseItemsFrom]
    split
    next hparsed =>
      rw [h] at hparsed
      cases hparsed
      rfl
    next hparsed => rw [h] at hparsed; cases hparsed

/-- A round reads the item at the offset. -/
theorem ItemCursor.stepChecked_eq {data : Bytes} (h : data.length < capacity) {c : ItemCursor}
    (hoffset : c.offset < data.length) :
    c.stepChecked data = .ok (match parseItem c.offset (data.drop c.offset) with
      | .error e => .inr (.error e)
      | .ok (item, n) => .inl ⟨c.items ++ [item], c.offset + n⟩) := by
  have hcapacity : capacity = 2 ^ 63 := rfl
  rw [stepChecked, if_pos hoffset, Ber.decodeTagChecked_eq, ok_bind, parseItem]
  cases htag : Ber.decodeTag (data.drop c.offset) with
  | none => rfl
  | some result =>
    obtain ⟨tag, tagSize⟩ := result
    have htagSize := (Ber.decodeTag_consumed htag).2
    rw [List.length_drop] at htagSize
    dsimp only
    rw [sum_of_lt (by omega), ok_bind, Ber.decodeLengthChecked_eq h, ok_bind, List.drop_drop]
    cases hlength : Ber.decodeLength (data.drop (c.offset + tagSize)) with
    | error fault => rfl
    | ok result =>
      obtain ⟨length, lengthSize⟩ := result
      have hlengthSize := (Ber.decodeLength_consumed hlength).2
      have hlt := Ber.decodeLength_lt hlength
      rw [List.length_drop] at hlengthSize
      dsimp only
      rw [sum_of_lt (by omega), ok_bind, sum_of_lt (by omega), ok_bind,
        slice?_add _ _ _ (by omega), List.drop_drop, ← Nat.add_assoc]
      cases Bytes.splitAt? length (data.drop (c.offset + tagSize + lengthSize)) with
      | none => rfl
      | some parts =>
        obtain ⟨value, rest⟩ := parts
        dsimp only [Option.map_some]
        rw [← Nat.add_assoc, ← Nat.add_assoc]
        rfl

/-- The items are within the set. -/
theorem parseItem_size_le {offset n : Nat} {bs : Bytes} {item : Item}
    (h : parseItem offset bs = .ok (item, n)) :
    item.value.length + 1 ≤ n ∧ n ≤ bs.length := by
  unfold parseItem at h
  split at h
  next => cases h
  next htag =>
    have htagSize := Ber.decodeTag_consumed htag
    split at h
    next => cases h
    next hlength =>
      have hlengthSize := Ber.decodeLength_consumed hlength
      rw [List.length_drop] at hlengthSize
      split at h
      next => cases h
      next hsplit =>
        cases h
        obtain ⟨hsize, hparts⟩ := Bytes.splitAt?_eq_some_iff.1 hsplit
        have hsum := congrArg List.length hparts
        rw [List.length_drop, List.length_append] at hsum
        dsimp only
        omega

/-- A round ends, or goes on behind the item that was read. -/
theorem ItemCursor.stepChecked_advances {data : Bytes} (h : data.length < capacity)
    (c : ItemCursor) (hle : c.offset ≤ data.length) :
    Advances (stepChecked data) offset data.length (finished data) c := by
  rcases Nat.lt_or_ge c.offset data.length with hlt | hge
  · have hne : data.drop c.offset ≠ [] := by
      rw [ne_eq, List.drop_eq_nil_iff]
      omega
    rw [Advances, stepChecked_eq h hlt, finished]
    cases hparse : parseItem c.offset (data.drop c.offset) with
    | error e =>
      rw [parseItemsFrom_of_error hne hparse]
      exact .inl rfl
    | ok result =>
      obtain ⟨item, n⟩ := result
      have hn := parseItem_size_le hparse
      rw [List.length_drop] at hn
      refine .inr ⟨⟨c.items ++ [item], c.offset + n⟩, rfl, ?_, ?_, ?_⟩
      · dsimp only
        omega
      · dsimp only
        omega
      · rw [finished, parseItemsFrom_of_ok hne hparse, List.drop_drop]
        dsimp only
        cases parseItemsFrom (c.offset + n) (data.drop (c.offset + n)) with
        | error e => rfl
        | ok items => exact congrArg Except.ok (List.append_assoc c.items [item] items)
  · rw [Advances, stepChecked, if_neg (by omega), finished, List.drop_eq_nil_of_le hge,
      parseItemsFrom, Except.map, List.append_nil]
    exact .inl rfl

/-- Reading a local set ends, and faults nowhere in a buffer. -/
theorem parseItemsChecked_eq {data : Bytes} (h : data.length < capacity) :
    parseItemsChecked data = .ok (parseItems data) := by
  rw [parseItemsChecked, loop_eq_of_advances (ItemCursor.stepChecked_advances h) (Nat.zero_le _),
    ItemCursor.finished, parseItems, List.drop_zero]
  cases parseItemsFrom 0 data <;> rfl

/-! ## Local sets -/

/-- The sum of the words after more bytes, with the number of bytes before them. -/
def checksumFromChecked (sum : UInt16) (used : Nat) : Bytes → Checked UInt16
  | [] => return sum
  | b :: rest => do
    let used ← Checked.sum used 1
    let term ← shift b.toUInt16 (8 * (used % 2))
    checksumFromChecked (sum + term) used rest

/-- The items of the unit, whose last one holds the checksum over everything before it. -/
def Unit.localSetChecked (u : Unit) : Checked (Except Error (List Item)) := do
  match ← parseItemsChecked u.value with
  | .error e => return .error e
  | .ok items =>
    match items.getLast? with
    | none => return .error .missingChecksum
    | some last =>
      if last.tag ≠ checksumTag ∨ last.value.length ≠ 2 then
        return .error .missingChecksum
      else
        let high ← index last.value 0
        let low ← index last.value 1
        let stored := UInt16.ofNat (high.toNat * 256 + low.toNat)
        let size ← difference u.bytes.length 2
        let computed ← checksumFromChecked 0 0 (← slice u.bytes 0 size)
        return if stored = computed then .ok items else .error (.checksumMismatch computed stored)

/-- Adding up words faults nowhere in a buffer. -/
theorem checksumFromChecked_eq (sum : UInt16) {used : Nat} {bs : Bytes}
    (h : used + bs.length < 2 ^ 64) :
    checksumFromChecked sum used bs = .ok (checksumFrom sum (used % 2 = 0) bs) := by
  induction bs generalizing sum used with
  | nil => rfl
  | cons b rest ih =>
    rw [List.length_cons] at h
    rw [checksumFromChecked, sum_of_lt (by omega), ok_bind, shift_of_lt (by omega), ok_bind,
      ih _ (by omega), checksumFrom]
    rcases Nat.mod_two_eq_zero_or_one used with heven | hodd
    · rw [show (used + 1) % 2 = 1 by omega, heven]
      rfl
    · have hshift : b.toUInt16 <<< UInt16.ofNat (8 * 0) = b.toUInt16 := by
        rw [← UInt16.toNat_inj]
        simp
      rw [show (used + 1) % 2 = 0 by omega, hodd, hshift]
      rfl

/-- An item is no longer than its set. -/
theorem length_value_le_of_mem {offset : Nat} {bs : Bytes} {items : List Item}
    (h : parseItemsFrom offset bs = .ok items) : ∀ item ∈ items, item.value.length ≤ bs.length := by
  fun_induction parseItemsFrom offset bs generalizing items with
  | case1 =>
    cases h
    exact List.forall_mem_nil _
  | case2 => cases h
  | case3 offset b rest item n hparse ih =>
    have hsize := parseItem_size_le hparse
    cases hrest : parseItemsFrom (offset + n) ((b :: rest).drop n) with
    | error e =>
      rw [hrest] at h
      cases h
    | ok later =>
      rw [hrest] at h
      cases h
      refine List.forall_mem_cons.2 ⟨by omega, fun other hother => ?_⟩
      refine Nat.le_trans (ih hrest other hother) ?_
      rw [List.length_drop]
      exact Nat.sub_le _ _

/-- Reading the local set of a unit faults nowhere in a buffer. The last item has the two bytes
that are taken off the unit. -/
theorem Unit.localSetChecked_eq {u : Unit} (h : u.bytes.length < capacity) :
    u.localSetChecked = .ok u.localSet := by
  have hbytes : u.bytes.length = u.header.length + u.value.length := List.length_append
  have hcapacity : capacity = 2 ^ 63 := rfl
  rw [localSetChecked, parseItemsChecked_eq (by omega), ok_bind, localSet]
  cases hitems : parseItems u.value with
  | error e => rfl
  | ok items =>
    dsimp only
    cases hlast : items.getLast? with
    | none => rfl
    | some last =>
      dsimp only
      split
      next => rfl
      next hchecksum =>
        have htwo : last.value.length = 2 := not_not.1 (not_or.1 hchecksum).2
        have hle := length_value_le_of_mem hitems last (List.mem_of_getLast? hlast)
        obtain ⟨high, low, hvalue⟩ := List.length_eq_two.1 htwo
        rw [hvalue, index_cons_zero, ok_bind, index_cons_succ, index_cons_zero, ok_bind,
          difference_of_le (by omega), ok_bind, slice_zero (Nat.sub_le _ _), ok_bind,
          checksumFromChecked_eq 0 (by rw [List.length_take]; omega), ok_bind,
          show Bytes.toNat [high, low] = high.toNat * 256 + low.toNat by simp [Bytes.toNat]]
        simp only [checksum, Nat.zero_mod, decide_true, pure_eq_ok]
        exact congrArg Except.ok (if_congr Iff.rfl rfl rfl)

end Klv

end StreamCatalog
