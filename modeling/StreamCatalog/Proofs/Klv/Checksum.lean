import StreamCatalog.Proofs.Klv.Grammar
import StreamCatalog.Proofs.Klv.RoundTrip

/-!
# What a checksum finds

The checksum of a unit is a sum of bytes that weigh 256 and 1 in turn, modulo 2^16. One
byte, or two neighbours, weigh less than 2^16 together and are told by their weight
(`eq_of_weight_eq`), so a change of them changes the sum (`eq_of_checksum_eq`). The
items of a local set fill its value, so the checksum that is compared is always the
last two bytes of the unit (`localSet_eq_ok_iff`), also where a change moves the
borders between items.
-/

namespace StreamCatalog.Klv

/-! ## Weights -/

/-- The sum of some bytes in turn times 256 and times 1. -/
def weight : Bool → Bytes → Nat
  | _, [] => 0
  | upper, b :: rest => (if upper then 256 * b.toNat else b.toNat) + weight (!upper) rest

/-- Whether the byte behind some bytes weighs 256. -/
def upperAfter : Bool → Bytes → Bool
  | upper, [] => upper
  | upper, _ :: rest => upperAfter (!upper) rest

theorem weight_append (upper : Bool) (front back : Bytes) :
    weight upper (front ++ back) = weight upper front + weight (upperAfter upper front) back := by
  induction front generalizing upper with
  | nil => simp [weight, upperAfter]
  | cons b front ih => simp [weight, upperAfter, ih, Nat.add_assoc]

/-- Where a byte stands depends only on how many there are before it. -/
theorem upperAfter_congr {front other : Bytes} (h : front.length = other.length) (upper : Bool) :
    upperAfter upper front = upperAfter upper other := by
  induction front generalizing other upper with
  | nil =>
    obtain rfl := List.length_eq_zero_iff.1 h.symm
    rfl
  | cons b front ih =>
    cases other with
    | nil => cases h
    | cons c other => exact ih (Nat.succ.inj h) (!upper)

/-- A byte in the upper half of a word. -/
theorem toNat_shiftLeft_eight (b : UInt8) : (b.toUInt16 <<< 8).toNat = 256 * b.toNat := by
  have hb := b.toNat_lt
  rw [UInt16.toNat_shiftLeft, UInt8.toNat_toUInt16, Nat.shiftLeft_eq]
  simp only [UInt16.reduceToNat, Nat.reduceMod, Nat.reducePow]
  omega

/-- Adding up goes on modulo 2^16. -/
theorem toNat_checksumFrom (sum : UInt16) (upper : Bool) (bs : Bytes) :
    (checksumFrom sum upper bs).toNat = (sum.toNat + weight upper bs) % 2 ^ 16 := by
  induction bs generalizing sum upper with
  | nil =>
    have := sum.toNat_lt
    rw [checksumFrom, weight]
    omega
  | cons b bs ih =>
    rw [checksumFrom, ih, weight, UInt16.toNat_add]
    cases upper
    · simp only [Bool.false_eq_true, if_false, UInt8.toNat_toUInt16]
      omega
    · simp only [if_true, toNat_shiftLeft_eight]
      omega

/-- The checksum is the weight modulo 2^16. -/
theorem toNat_checksum (bs : Bytes) : (checksum bs).toNat = weight true bs % 2 ^ 16 := by
  rw [checksum, toNat_checksumFrom, UInt16.toNat_zero, Nat.zero_add]

/-- Up to two bytes weigh less than 2^16. -/
theorem weight_lt {bs : Bytes} (h : bs.length ≤ 2) (upper : Bool) : weight upper bs < 2 ^ 16 := by
  match bs, h with
  | [], _ => simp [weight]
  | [b], _ =>
    have := b.toNat_lt
    cases upper <;> simp [weight] <;> omega
  | [b, c], _ =>
    have := b.toNat_lt
    have := c.toNat_lt
    cases upper <;> simp [weight] <;> omega

/-- Up to two bytes are told by their weight. -/
theorem eq_of_weight_eq {bs cs : Bytes} (hlength : bs.length = cs.length) (h : bs.length ≤ 2)
    {upper : Bool} (hweight : weight upper bs = weight upper cs) : bs = cs := by
  match bs, cs, hlength, h with
  | [], [], _, _ => rfl
  | [b], [c], _, _ =>
    have hbc : b.toNat = c.toNat := by
      cases upper <;> simp [weight] at hweight <;> omega
    rw [UInt8.toNat_inj.1 hbc]
  | [b₁, b₂], [c₁, c₂], _, _ =>
    have hb₁ := b₁.toNat_lt
    have hb₂ := b₂.toNat_lt
    have hc₁ := c₁.toNat_lt
    have hc₂ := c₂.toNat_lt
    obtain ⟨hfirst, hsecond⟩ : b₁.toNat = c₁.toNat ∧ b₂.toNat = c₂.toNat := by
      cases upper <;> simp [weight] at hweight <;> omega
    rw [UInt8.toNat_inj.1 hfirst, UInt8.toNat_inj.1 hsecond]

/-- Up to two bytes are told by the checksum of all bytes around them. -/
theorem eq_of_checksum_eq {old new : Bytes} (front back : Bytes)
    (hlength : old.length = new.length) (hshort : old.length ≤ 2)
    (h : checksum (front ++ old ++ back) = checksum (front ++ new ++ back)) : old = new := by
  have hweights := congrArg UInt16.toNat h
  have hback : upperAfter true (front ++ old) = upperAfter true (front ++ new) :=
    upperAfter_congr (by simp [hlength]) true
  simp only [toNat_checksum, weight_append, hback] at hweights
  have hold := weight_lt hshort (upperAfter true front)
  have hnew := weight_lt (hlength ▸ hshort) (upperAfter true front)
  have hweight : weight (upperAfter true front) old = weight (upperAfter true front) new := by omega
  exact eq_of_weight_eq hlength hshort hweight

/-! ## The stored checksum -/

/-- Two bytes are told by the word they write. -/
theorem word_inj {high low high' low' : UInt8}
    (h : UInt16.ofNat (Bytes.toNat [high, low]) = UInt16.ofNat (Bytes.toNat [high', low'])) :
    [high, low] = [high', low'] := by
  have hlt : Bytes.toNat [high, low] < 2 ^ 16 := by simpa using Bytes.toNat_lt [high, low]
  have hlt' : Bytes.toNat [high', low'] < 2 ^ 16 := by simpa using Bytes.toNat_lt [high', low']
  have hwords := congrArg UInt16.toNat h
  rw [UInt16.toNat_ofNat', UInt16.toNat_ofNat'] at hwords
  exact Bytes.eq_of_toNat_eq rfl (by omega)

/-- The value of the last item ends the value of the set. -/
theorem suffix_of_getLast? {value : Bytes} {items : List Item} {last : Item}
    (h : parseItems value = .ok items) (hlast : items.getLast? = some last) :
    last.value <:+ value := by
  obtain ⟨ts, rfl, rfl⟩ := parseItems_eq_ok_iff.1 h
  rw [List.getLast?_map, Option.map_eq_some_iff] at hlast
  obtain ⟨t, ht, rfl⟩ := hlast
  obtain ⟨before, rfl⟩ := List.getLast?_eq_some_iff.1 ht
  rw [List.flatMap_append, List.flatMap_singleton]
  exact (List.suffix_append ..).trans (List.suffix_append ..)

/-- All of a unit but the two bytes that end its value. -/
theorem take_bytes {u : Unit} {front : Bytes} {high low : UInt8}
    (h : u.value = front ++ [high, low]) :
    u.bytes.take (u.bytes.length - 2) = u.header ++ front := by
  rw [Unit.bytes, h, ← List.append_assoc, List.length_append]
  exact List.take_left' (Nat.add_sub_cancel ..).symm

/-- A local set is read exactly when its items are, the last of them is a checksum of two bytes,
and these bytes, which end the unit, write the sum of all bytes before them. -/
theorem localSet_eq_ok_iff {u : Unit} {items : List Item} :
    u.localSet = .ok items ↔
      parseItems u.value = .ok items ∧
        ∃ front high low, items.getLast? = some ⟨checksumTag, [high, low]⟩ ∧
          u.value = front ++ [high, low] ∧
          UInt16.ofNat (Bytes.toNat [high, low]) = checksum (u.header ++ front) := by
  unfold Unit.localSet
  cases hparse : parseItems u.value with
  | error e => simp
  | ok found =>
    dsimp only
    cases hlast : found.getLast? with
    | none =>
      dsimp only
      constructor
      · intro h
        cases h
      · rintro ⟨h, front, high, low, hsome, -⟩
        cases h
        rw [hlast] at hsome
        cases hsome
    | some last =>
      dsimp only
      constructor
      · intro h
        split at h
        · cases h
        · next hchecksum =>
          obtain ⟨htag, htwo⟩ := not_or.1 hchecksum
          obtain ⟨tag, value⟩ := last
          obtain ⟨high, low, rfl⟩ := List.length_eq_two.1 (not_not.1 htwo)
          obtain rfl := not_not.1 htag
          obtain ⟨front, hfront⟩ := suffix_of_getLast? hparse hlast
          rw [take_bytes hfront.symm] at h
          split at h
          · next hsum =>
            cases h
            exact ⟨rfl, front, high, low, hlast, hfront.symm, hsum⟩
          · cases h
      · rintro ⟨h, front, high, low, hsome, hvalue, hsum⟩
        cases h
        rw [hlast] at hsome
        cases hsome
        rw [take_bytes hvalue, if_neg (by simp), if_pos hsum]

/-! ## Changes -/

/-- Whether the last two bytes write the sum of all bytes before them. -/
def IsSealed (bs : Bytes) : Prop :=
  ∃ body high low, bs = body ++ [high, low] ∧
    UInt16.ofNat (Bytes.toNat [high, low]) = checksum body

theorem isSealed_of_localSet {u : Unit} {items : List Item} (h : u.localSet = .ok items) :
    IsSealed u.bytes := by
  obtain ⟨-, front, high, low, -, hvalue, hsum⟩ := localSet_eq_ok_iff.1 h
  exact ⟨u.header ++ front, high, low, by rw [Unit.bytes, hvalue, List.append_assoc], hsum⟩

/-- Whether one byte has changed, or one or both of two neighbours that are before the last two
bytes or are these. -/
inductive ShortChange : Bytes → Bytes → Prop where
  /-- One byte. -/
  | one (front : Bytes) {b c : UInt8} (back : Bytes) (differ : b ≠ c) :
    ShortChange (front ++ b :: back) (front ++ c :: back)
  /-- Two neighbours. -/
  | two (front : Bytes) {b₁ b₂ c₁ c₂ : UInt8} (back : Bytes) (differ : b₁ ≠ c₁ ∨ b₂ ≠ c₂)
      (side : 2 ≤ back.length ∨ back = []) :
    ShortChange (front ++ b₁ :: b₂ :: back) (front ++ c₁ :: c₂ :: back)

/-- Up to two bytes have changed, and they are before the last two bytes or among these. -/
theorem ShortChange.exists_parts {bs cs : Bytes} (h : ShortChange bs cs) :
    ∃ front old new back : Bytes, bs = front ++ old ++ back ∧ cs = front ++ new ++ back ∧
      old ≠ new ∧ old.length = new.length ∧ old.length ≤ 2 ∧
      (2 ≤ back.length ∨ old.length + back.length ≤ 2) := by
  cases h with
  | @one front b c back differ =>
    refine ⟨front, [b], [c], back, by simp, by simp, by simpa using differ, rfl, by simp, ?_⟩
    rw [List.length_singleton]
    omega
  | @two front b₁ b₂ c₁ c₂ back differ side =>
    refine ⟨front, [b₁, b₂], [c₁, c₂], back, by simp, by simp, ?_, rfl, Nat.le_refl 2, ?_⟩
    · intro heq
      obtain ⟨rfl, rfl⟩ : b₁ = c₁ ∧ b₂ = c₂ := by simpa using heq
      simp at differ
    · exact side.imp_right fun hback => by simp [hback]

/-- A short change breaks the seal. -/
theorem IsSealed.not_of_shortChange {bs cs : Bytes} (h : IsSealed bs) (hchange : ShortChange bs cs) :
    ¬IsSealed cs := by
  rintro ⟨body', high', low', hcs, hsum'⟩
  obtain ⟨body, high, low, hbs, hsum⟩ := h
  obtain ⟨front, old, new, back, rfl, rfl, hne, hlength, hshort, hside⟩ := hchange.exists_parts
  have hlengths := congrArg List.length hbs
  have hlengths' := congrArg List.length hcs
  simp only [List.length_append, List.length_cons, List.length_nil] at hlengths hlengths'
  apply hne
  rcases hside with hback | hback
  · -- The stored checksum is the same, so that the sums are.
    obtain ⟨more, rfl⟩ : [high, low] <:+ back := by
      refine List.suffix_of_suffix_length_le ⟨body, hbs.symm⟩ (List.suffix_append _ _) ?_
      simpa using hback
    rw [← List.append_assoc] at hbs hcs
    obtain ⟨hbody, -⟩ := List.append_inj' hbs rfl
    obtain ⟨hbody', hstored⟩ := List.append_inj' hcs rfl
    rw [← hbody] at hsum
    rw [← hbody', ← hstored, hsum] at hsum'
    exact eq_of_checksum_eq front more hlength hshort hsum'
  · -- The bytes that are summed are the same, so that the stored checksum is.
    have hbody : body <+: front :=
      List.prefix_of_prefix_length_le ⟨_, hbs.symm⟩ ⟨old ++ back, (List.append_assoc ..).symm⟩
        (by omega)
    have hbody' : body' <+: front :=
      List.prefix_of_prefix_length_le ⟨_, hcs.symm⟩ ⟨new ++ back, (List.append_assoc ..).symm⟩
        (by omega)
    obtain rfl := (List.prefix_of_prefix_length_le hbody hbody' (by omega)).eq_of_length (by omega)
    rw [word_inj (hsum.trans hsum'.symm), ← hcs] at hbs
    exact List.append_cancel_left (List.append_cancel_right hbs)

/-- A unit whose local set is read is refused after any short change, wherever the value starts in
the changed bytes, and also if other items are read from them. -/
theorem localSet_of_shortChange {u v : Unit} {items : List Item} (h : u.localSet = .ok items)
    (hchange : ShortChange u.bytes v.bytes) : ∃ e, v.localSet = .error e := by
  cases hread : v.localSet with
  | error e => exact ⟨e, rfl⟩
  | ok others =>
    have hsealed : IsSealed v.bytes := isSealed_of_localSet hread
    exact absurd hsealed ((isSealed_of_localSet h).not_of_shortChange hchange)

/-- A changed length: with zero for it the two bytes of the value are read as an item of their own,
so all items are read, and the sum refuses them. -/
theorem localSet_of_shortChange_within_length :
    let u := unitOf [⟨11, [0x01, 0x00]⟩]
    let v : Unit := ⟨u.header, [0x0B, 0x00] ++ u.value.drop 2⟩
    u.localSet = .ok (checkedItems [⟨11, [0x01, 0x00]⟩]) ∧ ShortChange u.bytes v.bytes ∧
      parseItems v.value = .ok [⟨11, []⟩, ⟨1, []⟩, checksumItem [⟨11, [0x01, 0x00]⟩]] ∧
      ∃ e, v.localSet = .error e := by
  intro u v
  have hread : u.localSet = .ok (checkedItems [⟨11, [0x01, 0x00]⟩]) :=
    localSet_unitOf (List.forall_mem_singleton.2 ⟨by decide, by decide⟩)
  have hbytes : u.bytes = u.header ++ [0x0B] ++ 0x02 :: u.value.drop 2 := by decide +kernel
  have hchange : ShortChange u.bytes v.bytes := by
    rw [hbytes, show v.bytes = u.header ++ [0x0B] ++ 0x00 :: u.value.drop 2 by simp [v, Unit.bytes]]
    exact .one _ _ (by decide)
  exact ⟨hread, hchange, by decide +kernel, localSet_of_shortChange hread hchange⟩

end StreamCatalog.Klv
