import StreamCatalog.Proofs.Faults.Samples
import StreamCatalog.Proofs.Telemetry.Intake

/-!
# Samples and the last items of their tags

A sample is filled item by item, and only the last items of the known tags are left in
it. Two local sets agree in these exactly when one comes from the other by exchanging
neighbours of different tags and by adding or leaving out items that are not known or
not the last of their tag (`rearranged_iff`), since each comes to the last items of the
known tags (`rearranged_lastOf`). A field of the sample is set exactly when the last values
of all its tags say something (`Field.isSet_ofItems_iff`), whatever came before.
-/

namespace StreamCatalog.Telemetry

open Klv (Item)

/-! ## Last values -/

theorem lastValue?_append (front back : List Item) (tag : Nat) :
    lastValue? (front ++ back) tag = (lastValue? back tag).or (lastValue? front tag) := by
  simp only [lastValue?, List.reverse_append, List.find?_append]
  cases back.reverse.find? (·.tag = tag) <;> rfl

theorem lastValue?_cons (item : Item) (items : List Item) (tag : Nat) :
    lastValue? (item :: items) tag =
      (lastValue? items tag).or (if item.tag = tag then some item.value else none) := by
  rw [← List.singleton_append, lastValue?_append, ← List.nil_append [item], lastValue?_concat]
  rfl

/-- A tag has a last value exactly if it has an item. -/
theorem isSome_lastValue?_iff {items : List Item} {tag : Nat} :
    (lastValue? items tag).isSome ↔ ∃ item ∈ items, item.tag = tag := by
  simp [lastValue?, List.find?_isSome]

/-! ## Rearrangements -/

/-- Whether a local set comes from another one by changes that leave the last items of the known
tags. -/
inductive Rearranged : List Item → List Item → Prop where
  /-- Nothing is changed. -/
  | refl (items : List Item) : Rearranged items items
  /-- Changes are undone. -/
  | symm {items others : List Item} (h : Rearranged items others) : Rearranged others items
  /-- One change comes after the other. -/
  | trans {items others more : List Item} (h : Rearranged items others)
      (hmore : Rearranged others more) : Rearranged items more
  /-- Neighbours of different tags are exchanged. -/
  | swap (front : List Item) {a b : Item} (back : List Item) (differ : a.tag ≠ b.tag) :
    Rearranged (front ++ a :: b :: back) (front ++ b :: a :: back)
  /-- An item is added whose tag is not known. -/
  | unknown (front : List Item) {a : Item} (back : List Item) (h : a.tag ∉ knownTags) :
    Rearranged (front ++ back) (front ++ a :: back)
  /-- An item is added in front of another one of its tag. -/
  | superseded (front : List Item) {a : Item} (back : List Item) (h : ∃ b ∈ back, b.tag = a.tag) :
    Rearranged (front ++ back) (front ++ a :: back)

/-- Rearranging leaves the last values of the known tags. -/
theorem Rearranged.lastValue?_eq {items others : List Item} (h : Rearranged items others)
    {tag : Nat} (htag : tag ∈ knownTags) : lastValue? items tag = lastValue? others tag := by
  induction h with
  | refl items => rfl
  | symm _ ih => exact ih.symm
  | trans _ _ ih ihmore => exact ih.trans ihmore
  | @swap front a b back differ =>
    simp only [lastValue?_append, lastValue?_cons, Option.or_assoc]
    by_cases ha : a.tag = tag
    · have hb : b.tag ≠ tag := fun hb => differ (ha.trans hb.symm)
      simp [ha, hb]
    · simp [ha]
  | @unknown front a back h =>
    have ha : a.tag ≠ tag := fun ha => h (ha ▸ htag)
    simp [lastValue?_append, lastValue?_cons, ha]
  | @superseded front a back h =>
    simp only [lastValue?_append, lastValue?_cons]
    by_cases ha : a.tag = tag
    · obtain ⟨value, hvalue⟩ := Option.isSome_iff_exists.1 (isSome_lastValue?_iff.2 (ha ▸ h))
      simp [hvalue]
    · simp [ha]

/-- What is changed may stand behind another item. -/
theorem Rearranged.cons {items others : List Item} (item : Item) (h : Rearranged items others) :
    Rearranged (item :: items) (item :: others) := by
  induction h with
  | refl items => exact .refl _
  | symm _ ih => exact ih.symm
  | trans _ _ ih ihmore => exact ih.trans ihmore
  | swap front back differ => exact .swap (item :: front) back differ
  | unknown front back h => exact .unknown (item :: front) back h
  | superseded front back h => exact .superseded (item :: front) back h

/-- An item is moved behind items of other tags. -/
theorem Rearranged.move {item : Item} {front : List Item} (back : List Item)
    (h : ∀ b ∈ front, item.tag ≠ b.tag) :
    Rearranged (item :: (front ++ back)) (front ++ item :: back) := by
  induction front with
  | nil => exact .refl _
  | cons b front ih =>
    have hswap := Rearranged.swap [] (front ++ back) (h b List.mem_cons_self)
    have hrest := ih fun c hc => h c (List.mem_cons_of_mem b hc)
    exact hswap.trans (hrest.cons b)

/-- The last items of some tags, in the order of the tags. -/
def lastOf (items : List Item) (tags : List Nat) : List Item :=
  tags.filterMap fun tag => (lastValue? items tag).map (Item.mk tag)

theorem mem_lastOf {items : List Item} {tags : List Nat} {item : Item} :
    item ∈ lastOf items tags ↔ item.tag ∈ tags ∧ lastValue? items item.tag = some item.value := by
  simp only [lastOf, List.mem_filterMap, Option.map_eq_some_iff]
  constructor
  · rintro ⟨tag, htag, value, hvalue, rfl⟩
    exact ⟨htag, hvalue⟩
  · rintro ⟨htag, hvalue⟩
    exact ⟨item.tag, htag, item.value, hvalue, rfl⟩

theorem lastOf_congr {items others : List Item} {tags : List Nat}
    (h : ∀ tag ∈ tags, lastValue? items tag = lastValue? others tag) :
    lastOf items tags = lastOf others tags := by
  apply List.filterMap_congr
  intro tag htag
  rw [h tag htag]

/-- An item of another tag changes nothing. -/
theorem lastOf_cons_of_not_mem {item : Item} {tags : List Nat} (items : List Item)
    (h : item.tag ∉ tags) : lastOf (item :: items) tags = lastOf items tags := by
  apply lastOf_congr
  intro tag htag
  have hdiffer : item.tag ≠ tag := fun heq => h (heq ▸ htag)
  simp [lastValue?_cons, hdiffer]

/-- An item in front of another one of its tag changes nothing. -/
theorem lastOf_cons_of_isSome {item : Item} {items : List Item} (tags : List Nat)
    (h : (lastValue? items item.tag).isSome) : lastOf (item :: items) tags = lastOf items tags := by
  obtain ⟨value, hvalue⟩ := Option.isSome_iff_exists.1 h
  apply lastOf_congr
  intro tag _
  rw [lastValue?_cons]
  by_cases heq : item.tag = tag
  · rw [← heq, hvalue, Option.some_or]
  · simp [heq]

/-- The first item of a tag takes the place of the tag among the last items. -/
theorem Rearranged.lastOf_cons {item : Item} {items : List Item} {tags : List Nat}
    (hnodup : tags.Nodup) (hmem : item.tag ∈ tags) (hnone : lastValue? items item.tag = none) :
    Rearranged (lastOf (item :: items) tags) (item :: lastOf items tags) := by
  obtain ⟨before, after, rfl⟩ := List.append_of_mem hmem
  obtain ⟨-, hafter, hbefore⟩ := List.nodup_append.1 hnodup
  have hnotBefore : item.tag ∉ before := fun h => hbefore _ h _ List.mem_cons_self rfl
  have hnotAfter : item.tag ∉ after := (List.nodup_cons.1 hafter).1
  have hown : lastValue? (item :: items) item.tag = some item.value := by
    simp [lastValue?_cons, hnone]
  have hwith : lastOf (item :: items) (before ++ item.tag :: after) =
      lastOf items before ++ item :: lastOf items after := by
    rw [← lastOf_cons_of_not_mem items hnotBefore, ← lastOf_cons_of_not_mem items hnotAfter]
    simp [lastOf, hown]
  have hwithout : lastOf items (before ++ item.tag :: after) =
      lastOf items before ++ lastOf items after := by
    simp [lastOf, hnone]
  rw [hwith, hwithout]
  refine (Rearranged.move _ ?_).symm
  intro b hb htag
  exact hnotBefore (htag ▸ (mem_lastOf.1 hb).1)

theorem nodup_knownTags : knownTags.Nodup := by decide

/-- Every local set comes to its last items. -/
theorem rearranged_lastOf (items : List Item) : Rearranged (lastOf items knownTags) items := by
  induction items with
  | nil =>
    have hnone : lastOf [] knownTags = [] := List.filterMap_eq_nil_iff.2 fun _ _ => rfl
    rw [hnone]
    exact .refl []
  | cons item items ih =>
    refine Rearranged.trans ?_ (ih.cons item)
    by_cases hknown : item.tag ∈ knownTags
    · cases hlast : lastValue? items item.tag with
      | none => exact .lastOf_cons nodup_knownTags hknown hlast
      | some value =>
        have hlater : ⟨item.tag, value⟩ ∈ lastOf items knownTags := mem_lastOf.2 ⟨hknown, hlast⟩
        rw [lastOf_cons_of_isSome knownTags (by simp [hlast])]
        exact .superseded [] (lastOf items knownTags) ⟨_, hlater, rfl⟩
    · rw [lastOf_cons_of_not_mem items hknown]
      exact .unknown [] (lastOf items knownTags) hknown

/-- Local sets agree in the last values of the known tags exactly when one is rearranged to the
other. -/
theorem rearranged_iff {items others : List Item} :
    Rearranged items others ↔
      ∀ tag ∈ knownTags, lastValue? items tag = lastValue? others tag := by
  constructor
  · intro h tag htag
    exact h.lastValue?_eq htag
  · intro h
    have hlast := rearranged_lastOf items
    rw [lastOf_congr h] at hlast
    exact hlast.symm.trans (rearranged_lastOf others)

/-! ## Fields -/

/-- The fields of a sample. -/
inductive Field where
  /-- When the sample was taken. -/
  | timestamp
  /-- The mission it belongs to. -/
  | missionId
  /-- The platform that carries the sensor. -/
  | platformDesignation
  /-- The image source sensor. -/
  | sensorId
  /-- Degrees clockwise from north. -/
  | platformHeading
  /-- Degrees nose up. -/
  | platformPitch
  /-- Degrees right wing down. -/
  | platformRoll
  /-- Where the sensor is. -/
  | sensorPosition
  /-- Metres of the sensor above mean sea level. -/
  | sensorAltitude
  /-- Horizontal field of view. -/
  | horizontalFov
  /-- Vertical field of view. -/
  | verticalFov
  /-- Where the centre of the image is. -/
  | frameCenter
  /-- Metres of the image centre above mean sea level. -/
  | frameCenterElevation
  /-- Offsets of the image corners. -/
  | offsetCorners
  /-- Where the image corners are. -/
  | corners

/-- The forms of values. -/
inductive Form where
  /-- Eight bytes of microseconds. -/
  | timestamp
  /-- A text. -/
  | text
  /-- Two bytes that are all numbers. -/
  | unsigned
  /-- Some bytes that are all numbers but the least one. -/
  | signed (size : Nat)

/-- Whether a value of this form says something. -/
def Form.Admits : Form → Bytes → Prop
  | timestamp, v => v.length = 8 ∧ Bytes.toNat v ≤ Instant.maxMicros
  | text, v => ∃ c ∈ Text.trimEndWhile (· = '\x00') (Utf8.decode v), Text.isBlank c = false
  | unsigned, v => v.length = 2
  | signed size, v => v.length = size ∧ v ≠ 0x80 :: List.replicate (size - 1) 0x00

namespace Field

/-- The tags that a field is made of. -/
def tags : Field → List Nat
  | timestamp => [2]
  | missionId => [3]
  | platformDesignation => [10]
  | sensorId => [11]
  | platformHeading => [5]
  | platformPitch => [6]
  | platformRoll => [7]
  | sensorPosition => [13, 14]
  | sensorAltitude => [15]
  | horizontalFov => [16]
  | verticalFov => [17]
  | frameCenter => [23, 24]
  | frameCenterElevation => [25]
  | offsetCorners => List.range' 26 8
  | corners => List.range' 82 8

/-- The form of their values. -/
def form : Field → Form
  | timestamp => .timestamp
  | missionId | platformDesignation | sensorId => .text
  | platformHeading | sensorAltitude | horizontalFov | verticalFov | frameCenterElevation =>
    .unsigned
  | platformPitch | platformRoll | offsetCorners => .signed 2
  | sensorPosition | frameCenter | corners => .signed 4

/-- Whether a sample has the field. -/
def isSet (s : Sample) : Field → Bool
  | timestamp => s.timestamp.isSome
  | missionId => s.missionId.isSome
  | platformDesignation => s.platformDesignation.isSome
  | sensorId => s.sensorId.isSome
  | platformHeading => s.platformHeading.isSome
  | platformPitch => s.platformPitch.isSome
  | platformRoll => s.platformRoll.isSome
  | sensorPosition => s.sensorPosition.isSome
  | sensorAltitude => s.sensorAltitude.isSome
  | horizontalFov => s.horizontalFov.isSome
  | verticalFov => s.verticalFov.isSome
  | frameCenter => s.frameCenter.isSome
  | frameCenterElevation => s.frameCenterElevation.isSome
  | offsetCorners => s.offsetCorners.isSome
  | corners => s.corners.isSome

end Field

/-- Whether the last value of a tag says something. -/
def Says (items : List Item) (form : Form) (tag : Nat) : Prop :=
  ∃ v, lastValue? items tag = some v ∧ form.Admits v

/-! ## Values that say something -/

theorem trimEndWhile_eq_nil_iff {p : Char → Bool} {cs : List Char} :
    Text.trimEndWhile p cs = [] ↔ ∀ c ∈ cs, p c = true := by
  simp [Text.trimEndWhile]

/-- Nothing is left of a text exactly if it is blank. -/
theorem trimChars_eq_nil_iff {cs : List Char} :
    Text.trimChars cs = [] ↔ ∀ c ∈ cs, Text.isBlank c = true := by
  rw [Text.trimChars, trimEndWhile_eq_nil_iff]
  constructor
  · intro h c hc
    rw [← List.takeWhile_append_dropWhile (p := Text.isBlank) (l := cs)] at hc
    rcases List.mem_append.1 hc with hc | hc
    · exact List.mem_takeWhile_imp hc
    · exact h c hc
  · intro h c hc
    exact h c ((List.dropWhile_sublist _).mem hc)

/-- The least number is the one whose bytes vanish but for the sign. -/
theorem toInt_eq_least_iff {v : Bytes} {n : Nat} (h : v.length = n + 1) :
    Bytes.toInt v = -((128 * 256 ^ n : Nat) : Int) ↔ v = 0x80 :: List.replicate n 0x00 := by
  have hlt := Bytes.toNat_lt v
  have hwidth : 1 <<< (8 * v.length) = 2 * (128 * 256 ^ n) := by
    rw [h, Nat.one_shiftLeft, pow_mul, pow_succ]
    simp only [Nat.reducePow]
    omega
  have hint : Bytes.toInt v = -((128 * 256 ^ n : Nat) : Int) ↔
      Bytes.toNat v = 128 * 256 ^ n := by
    have hpos : 0 < 256 ^ n := Nat.pow_pos (by decide)
    rw [h, pow_succ] at hlt
    rw [Bytes.toInt, hwidth, Int.bmod_def, Int.emod_eq_of_lt (by omega) (by omega)]
    omega
  have hleast : Bytes.toNat (0x80 :: List.replicate n 0x00) = 128 * 256 ^ n :=
    Bytes.toNat_append_zeros [0x80] n
  rw [hint, ← hleast]
  constructor
  · intro heq
    exact Bytes.eq_of_toNat_eq (by simp [h]) heq
  · intro heq
    rw [heq]

theorem isSome_decodeTimestamp {v : Bytes} :
    (decodeTimestamp v).isSome ↔ Form.timestamp.Admits v := by
  simp [decodeTimestamp, Form.Admits]

theorem isSome_decodeText {v : Bytes} : (decodeText v).isSome ↔ Form.text.Admits v := by
  have hleft : (decodeText v).isSome ↔
      ¬Text.trimChars (Text.trimEndWhile (· = '\x00') (Utf8.decode v)) = [] := by
    simp [decodeText]
  rw [hleft, trimChars_eq_nil_iff]
  simp [Form.Admits]

theorem isSome_decodeUnsigned {range offset : Float} {v : Bytes} :
    (decodeUnsigned range offset v).isSome ↔ Form.unsigned.Admits v := by
  simp [decodeUnsigned, Form.Admits]

theorem isSome_decodeSigned16 {range : Float} {v : Bytes} :
    (decodeSigned16 range v).isSome ↔ (Form.signed 2).Admits v := by
  have hleast := and_congr_right fun h : v.length = 2 => not_congr (toInt_eq_least_iff h)
  simpa [decodeSigned16, Form.Admits] using hleast

theorem isSome_decodeSigned32 {range : Float} {v : Bytes} :
    (decodeSigned32 range v).isSome ↔ (Form.signed 4).Admits v := by
  have hleast := and_congr_right fun h : v.length = 4 => not_congr (toInt_eq_least_iff h)
  simpa [decodeSigned32, Form.Admits] using hleast

section fields

variable {items : List Item} {tag : Nat} {form : Form}

/-- A value that is read is the last one of its tag, and says something. -/
theorem isSome_bind_iff {α : Type} {read : Bytes → Option α}
    (h : ∀ {v}, (read v).isSome ↔ form.Admits v) :
    ((lastValue? items tag).bind read).isSome ↔ Says items form tag := by
  cases hlast : lastValue? items tag with
  | none => simp [Says, hlast]
  | some v => simpa [Says, hlast] using h

variable {latitude longitude : Bytes → Option Float}
  (hlat : ∀ {v}, (latitude v).isSome ↔ form.Admits v)
  (hlon : ∀ {v}, (longitude v).isSome ↔ form.Admits v)
include hlat hlon

/-- A position is read from two values that say something. -/
theorem isSome_position?_iff :
    (position? items latitude longitude tag).isSome ↔
      Says items form tag ∧ Says items form (tag + 1) := by
  rw [← isSome_bind_iff hlat, ← isSome_bind_iff hlon, position?]
  cases (lastValue? items tag).bind latitude with
  | none => simp
  | some lat => cases (lastValue? items (tag + 1)).bind longitude <;> simp

/-- Corners are read from eight values that say something. -/
theorem isSome_corners?_iff :
    (corners? items latitude longitude tag).isSome ↔
      ∀ t ∈ List.range' tag 8, Says items form t := by
  have hcorners : (corners? items latitude longitude tag).isSome ↔
      (position? items latitude longitude tag).isSome ∧
        (position? items latitude longitude (tag + 2)).isSome ∧
          (position? items latitude longitude (tag + 4)).isSome ∧
            (position? items latitude longitude (tag + 6)).isSome := by
    rw [corners?]
    cases position? items latitude longitude tag <;>
      cases position? items latitude longitude (tag + 2) <;>
        cases position? items latitude longitude (tag + 4) <;>
          cases position? items latitude longitude (tag + 6) <;> simp
  rw [hcorners]
  simp [isSome_position?_iff hlat hlon, List.range', and_assoc, Nat.add_assoc]

end fields

/-- A field is set exactly when the last values of all its tags say something. -/
theorem Field.isSet_ofItems_iff (items : List Item) (f : Field) :
    f.isSet (Sample.ofItems items) = true ↔ ∀ tag ∈ f.tags, Says items f.form tag := by
  have hsingle {tag : Nat} {form : Form} :
      Says items form tag ↔ ∀ t ∈ [tag], Says items form t := List.forall_mem_singleton.symm
  cases f with
  | timestamp => exact (isSome_bind_iff isSome_decodeTimestamp).trans hsingle
  | missionId | platformDesignation | sensorId =>
    exact (isSome_bind_iff isSome_decodeText).trans hsingle
  | platformHeading | sensorAltitude | horizontalFov | verticalFov | frameCenterElevation =>
    exact (isSome_bind_iff isSome_decodeUnsigned).trans hsingle
  | platformPitch | platformRoll => exact (isSome_bind_iff isSome_decodeSigned16).trans hsingle
  | sensorPosition | frameCenter =>
    refine (isSome_position?_iff isSome_decodeSigned32 isSome_decodeSigned32).trans ?_
    simp [tags, form]
  | offsetCorners => exact isSome_corners?_iff isSome_decodeSigned16 isSome_decodeSigned16
  | corners => exact isSome_corners?_iff isSome_decodeSigned32 isSome_decodeSigned32

/-- A last value that says nothing leaves its field unset, whatever stands before it. -/
theorem Field.isSet_of_not_admits {f : Field} (front : List Item) {item : Item} {back : List Item}
    (hmem : item.tag ∈ f.tags) (hvalue : ¬f.form.Admits item.value)
    (hlast : ∀ b ∈ back, b.tag ≠ item.tag) :
    f.isSet (Sample.ofItems (front ++ item :: back)) = false := by
  rw [← Bool.not_eq_true, Field.isSet_ofItems_iff]
  intro hsays
  obtain ⟨v, hv, hadmits⟩ := hsays item.tag hmem
  have hnone : lastValue? back item.tag = none := by
    rw [← Option.not_isSome_iff_eq_none, isSome_lastValue?_iff]
    rintro ⟨b, hb, htag⟩
    exact hlast b hb htag
  rw [lastValue?_append, lastValue?_cons, hnone, if_pos rfl, Option.none_or, Option.some_or] at hv
  exact hvalue (Option.some.inj hv ▸ hadmits)

/-- The known tags are those of the fields. -/
theorem mem_knownTags_iff {tag : Nat} : tag ∈ knownTags ↔ ∃ f : Field, tag ∈ f.tags := by
  constructor
  · intro h
    have hall : ∀ tag ∈ knownTags, tag ∈
        [Field.timestamp, .missionId, .platformDesignation, .sensorId, .platformHeading,
          .platformPitch, .platformRoll, .sensorPosition, .sensorAltitude, .horizontalFov,
          .verticalFov, .frameCenter, .frameCenterElevation, .offsetCorners,
          .corners].flatMap Field.tags := by decide
    obtain ⟨f, -, hf⟩ := List.mem_flatMap.1 (hall tag h)
    exact ⟨f, hf⟩
  · rintro ⟨f, hf⟩
    have hall : ∀ tag ∈ f.tags, tag ∈ knownTags := by cases f <;> decide
    exact hall tag hf

/-- A sample that is filled item by item is that of the last values of the known tags: two local
sets with the same ones give the same sample. They have the same ones exactly when one comes from
the other by exchanging neighbours of different tags and by adding or leaving out items of unknown
tags and items that another one of their tag follows. Each known tag belongs to a field, a field is
set exactly when the last values of all its tags say something, and a last value that does not
leaves it unset whatever stands before it. -/
theorem Sample.of_last_items :
    (∀ items, ofItemsChecked items = .ok (ofItems items)) ∧
    (∀ items others, (∀ tag ∈ knownTags, lastValue? items tag = lastValue? others tag) →
      ofItemsChecked items = ofItemsChecked others ∧ ofItems items = ofItems others) ∧
    (∀ items others, Rearranged items others ↔
      ∀ tag ∈ knownTags, lastValue? items tag = lastValue? others tag) ∧
    (∀ tag, tag ∈ knownTags ↔ ∃ f : Field, tag ∈ f.tags) ∧
    (∀ items (f : Field), f.isSet (ofItems items) = true ↔
      ∀ tag ∈ f.tags, Says items f.form tag) ∧
    (∀ (f : Field) front (item : Item) back, item.tag ∈ f.tags → ¬f.form.Admits item.value →
      (∀ b ∈ back, b.tag ≠ item.tag) → f.isSet (ofItems (front ++ item :: back)) = false) := by
  refine ⟨ofItemsChecked_eq, ?_, fun items others => rearranged_iff, fun tag => mem_knownTags_iff,
    Field.isSet_ofItems_iff, fun f front item back => Field.isSet_of_not_admits front⟩
  intro items others h
  rw [ofItemsChecked_eq, ofItemsChecked_eq, ofItems_congr h]
  exact ⟨rfl, rfl⟩

end StreamCatalog.Telemetry
