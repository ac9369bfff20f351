import StreamCatalog.Proofs.Faults.Scanning
import StreamCatalog.Telemetry.Sample

/-!
# Samples without faults

A sample that is filled item by item, with the corners in two sequences of eight
numbers, faults nowhere and is the one whose fields are the last values of their
tags (`Draft.ofItems` says so of a sample on the way). Only tags of corners are
used to compute an index.
-/

namespace StreamCatalog.Telemetry

open Checked
open Klv (Item)

/-- A sample that is being filled. -/
structure Draft where
  /-- The fields of one item. -/
  sample : Sample
  /-- Degrees north and east of the sensor. -/
  sensor : Option Float × Option Float
  /-- Degrees north and east of the image centre. -/
  center : Option Float × Option Float
  /-- Degrees from the image centre to the corners, north and east in turn. -/
  offsets : List (Option Float)
  /-- Degrees of the corners, north and east in turn. -/
  corners : List (Option Float)

/-- Two numbers as a position, if there are both. -/
def pair? : Option Float × Option Float → Option Position
  | (some lat, some lon) => some ⟨lat, lon⟩
  | _ => none

/-- The number of a corner at an index, north at even ones. -/
def decodeCorner (i : Nat) : Bytes → Option Float :=
  if i % 2 = 0 then decodeLatitude else decodeLongitude

namespace Draft

/-- The sample before the first item. -/
def blank : Draft where
  sample :=
    { timestamp := none, missionId := none, platformDesignation := none, sensorId := none
      platformHeading := none, platformPitch := none, platformRoll := none
      sensorPosition := none, sensorAltitude := none, horizontalFov := none, verticalFov := none
      frameCenter := none, frameCenterElevation := none, offsetCorners := none, corners := none }
  sensor := (none, none)
  center := (none, none)
  offsets := List.replicate 8 none
  corners := List.replicate 8 none

/-- Fill in an item. -/
def putChecked (d : Draft) (item : Item) : Checked Draft := do
  let v := item.value
  match item.tag with
  | 2 => return { d with sample := { d.sample with timestamp := decodeTimestamp v } }
  | 3 => return { d with sample := { d.sample with missionId := decodeText v } }
  | 5 => return { d with sample := { d.sample with platformHeading := decodeUnsigned 360.0 0.0 v } }
  | 6 => return { d with sample := { d.sample with platformPitch := decodeSigned16 40.0 v } }
  | 7 => return { d with sample := { d.sample with platformRoll := decodeSigned16 100.0 v } }
  | 10 => return { d with sample := { d.sample with platformDesignation := decodeText v } }
  | 11 => return { d with sample := { d.sample with sensorId := decodeText v } }
  | 13 => return { d with sensor := (decodeLatitude v, d.sensor.2) }
  | 14 => return { d with sensor := (d.sensor.1, decodeLongitude v) }
  | 15 => return { d with sample := { d.sample with sensorAltitude := decodeAltitude v } }
  | 16 => return { d with sample := { d.sample with horizontalFov := decodeUnsigned 180.0 0.0 v } }
  | 17 => return { d with sample := { d.sample with verticalFov := decodeUnsigned 180.0 0.0 v } }
  | 23 => return { d with center := (decodeLatitude v, d.center.2) }
  | 24 => return { d with center := (d.center.1, decodeLongitude v) }
  | 25 => return { d with sample := { d.sample with frameCenterElevation := decodeAltitude v } }
  | tag =>
    if 26 ≤ tag ∧ tag ≤ 33 then
      let i ← difference tag 26
      return { d with offsets := ← store d.offsets i (decodeCornerOffset v) }
    else if 82 ≤ tag ∧ tag ≤ 89 then
      let i ← difference tag 82
      return { d with corners := ← store d.corners i (decodeCorner i v) }
    else
      return d

/-- The numbers from the items of eight consecutive tags. -/
def slots (items : List Item) (tag : Nat) (read : Nat → Bytes → Option Float) :
    List (Option Float) :=
  (List.range 8).map fun i => (lastValue? items (tag + i)).bind (read i)

/-- What has been filled in after some items. -/
def ofItems (items : List Item) : Draft where
  sample :=
    { timestamp := (lastValue? items 2).bind decodeTimestamp
      missionId := (lastValue? items 3).bind decodeText
      platformDesignation := (lastValue? items 10).bind decodeText
      sensorId := (lastValue? items 11).bind decodeText
      platformHeading := (lastValue? items 5).bind (decodeUnsigned 360.0 0.0)
      platformPitch := (lastValue? items 6).bind (decodeSigned16 40.0)
      platformRoll := (lastValue? items 7).bind (decodeSigned16 100.0)
      sensorPosition := none
      sensorAltitude := (lastValue? items 15).bind decodeAltitude
      horizontalFov := (lastValue? items 16).bind (decodeUnsigned 180.0 0.0)
      verticalFov := (lastValue? items 17).bind (decodeUnsigned 180.0 0.0)
      frameCenter := none
      frameCenterElevation := (lastValue? items 25).bind decodeAltitude
      offsetCorners := none
      corners := none }
  sensor := ((lastValue? items 13).bind decodeLatitude, (lastValue? items 14).bind decodeLongitude)
  center := ((lastValue? items 23).bind decodeLatitude, (lastValue? items 24).bind decodeLongitude)
  offsets := slots items 26 fun _ => decodeCornerOffset
  corners := slots items 82 decodeCorner

end Draft

/-- The last item counts. -/
theorem lastValue?_concat (items : List Item) (item : Item) (tag : Nat) :
    lastValue? (items ++ [item]) tag =
      if item.tag = tag then some item.value else lastValue? items tag := by
  rw [lastValue?, List.reverse_append, List.reverse_singleton, List.singleton_append,
    List.find?_cons]
  by_cases htag : item.tag = tag
  · simp [htag]
  · simp [htag, lastValue?]

namespace Draft

variable {items : List Item} {item : Item} {tag i : Nat} (read : Nat → Bytes → Option Float)

/-- An item of another tag changes no number. -/
theorem slots_concat_of_ne (h : ∀ i < 8, item.tag ≠ tag + i) :
    slots (items ++ [item]) tag read = slots items tag read := by
  apply List.map_congr_left
  intro i hi
  rw [lastValue?_concat, if_neg (h i (List.mem_range.1 hi))]

/-- An item changes the number of its tag. -/
theorem store_slots (h : item.tag = tag + i) (hi : i < 8) :
    store (slots items tag read) i (read i item.value) =
      .ok (slots (items ++ [item]) tag read) := by
  rw [store_of_lt _ (by rwa [slots, List.length_map, List.length_range])]
  congr 1
  apply List.ext_getElem
  · simp [slots]
  · intro j hj _
    simp only [slots, List.getElem_set, List.getElem_map, List.getElem_range, lastValue?_concat, h,
      Nat.add_left_cancel_iff]
    split
    next hij =>
      rw [hij]
      rfl
    next => rfl

/-- The tags of the items that fill in a field alone. -/
def fieldTags : List Nat :=
  [2, 3, 5, 6, 7, 10, 11, 13, 14, 15, 16, 17, 23, 24, 25]

/-- An item of another tag changes no field but numbers of corners. -/
theorem ofItems_concat_of_not_mem (h : item.tag ∉ fieldTags) :
    ofItems (items ++ [item]) =
      { ofItems items with
        offsets := slots (items ++ [item]) 26 fun _ => decodeCornerOffset
        corners := slots (items ++ [item]) 82 decodeCorner } := by
  simp only [fieldTags, List.mem_cons, List.not_mem_nil, or_false, not_or] at h
  simp only [ofItems, lastValue?_concat, h, if_false]

/-- Filling in an item faults nowhere. -/
theorem putChecked_ofItems (items : List Item) (item : Item) :
    (ofItems items).putChecked item = .ok (ofItems (items ++ [item])) := by
  have hoffsets : ¬(26 ≤ item.tag ∧ item.tag ≤ 33) →
      slots (items ++ [item]) 26 (fun _ => decodeCornerOffset) =
        slots items 26 fun _ => decodeCornerOffset :=
    fun h => slots_concat_of_ne _ fun i hi => by omega
  have hcorners : ¬(82 ≤ item.tag ∧ item.tag ≤ 89) →
      slots (items ++ [item]) 82 decodeCorner = slots items 82 decodeCorner :=
    fun h => slots_concat_of_ne _ fun i hi => by omega
  rw [putChecked]
  split
  case h_16 =>
    have hother : item.tag ∉ fieldTags := by
      simp only [fieldTags, List.mem_cons, List.not_mem_nil, or_false, not_or]
      and_intros <;> assumption
    rw [ofItems_concat_of_not_mem hother]
    by_cases hoffset : 26 ≤ item.tag ∧ item.tag ≤ 33
    · have hstore : store (slots items 26 fun _ => decodeCornerOffset) (item.tag - 26)
          (decodeCornerOffset item.value) =
            .ok (slots (items ++ [item]) 26 fun _ => decodeCornerOffset) :=
        store_slots (fun _ => decodeCornerOffset) (by omega) (by omega)
      rw [if_pos hoffset, difference_of_le hoffset.1, ok_bind, hcorners (by omega)]
      simp only [ofItems, hstore, ok_bind, pure_eq_ok]
    · by_cases hcorner : 82 ≤ item.tag ∧ item.tag ≤ 89
      · have hstore : store (slots items 82 decodeCorner) (item.tag - 82)
            (decodeCorner (item.tag - 82) item.value) =
              .ok (slots (items ++ [item]) 82 decodeCorner) :=
          store_slots decodeCorner (by omega) (by omega)
        rw [if_neg hoffset, if_pos hcorner, difference_of_le hcorner.1, ok_bind,
          hoffsets hoffset]
        simp only [ofItems, hstore, ok_bind, pure_eq_ok]
      · rw [if_neg hoffset, if_neg hcorner, hoffsets hoffset, hcorners hcorner]
        rfl
  -- One case for each tag of `fieldTags`.
  all_goals
    next htag =>
      simp [ofItems, lastValue?_concat, htag, hoffsets (by omega), hcorners (by omega)]

/-- Filling in items one after the other faults nowhere. -/
theorem foldlM_putChecked (items : List Item) :
    items.foldlM putChecked blank = .ok (ofItems items) := by
  induction items using List.reverseRecOn with
  | nil => rfl
  | append_singleton items item ih =>
    rw [List.foldlM_append, ih, ok_bind, List.foldlM_cons, putChecked_ofItems]
    rfl

end Draft

/-! ## Corners -/

/-- The position at an index, north and east from two numbers in turn. -/
def cornerChecked (values : List (Option Float)) (i : Nat) : Checked (Option Position) := do
  let place ← word 64 (2 * i)
  match ← index values place with
  | none => return none
  | some lat =>
    match ← index values (← sum place 1) with
    | none => return none
    | some lon => return some ⟨lat, lon⟩

/-- Four positions, if there are all. -/
def cornersChecked (values : List (Option Float)) : Checked (Option Corners) := do
  match ← cornerChecked values 0 with
  | none => return none
  | some first =>
    match ← cornerChecked values 1 with
    | none => return none
    | some second =>
      match ← cornerChecked values 2 with
      | none => return none
      | some third =>
        match ← cornerChecked values 3 with
        | none => return none
        | some fourth => return some ⟨first, second, third, fourth⟩

section corners

variable (items : List Item) (tag : Nat) {read : Nat → Bytes → Option Float}
  {latitude longitude : Bytes → Option Float}

theorem cornerChecked_slots {i : Nat} (hi : i < 4) (hlat : read (2 * i) = latitude)
    (hlon : read (2 * i + 1) = longitude) :
    cornerChecked (Draft.slots items tag read) i =
      .ok (position? items latitude longitude (tag + 2 * i)) := by
  have hindex (j : Nat) (hj : j < 8) : index (Draft.slots items tag read) j =
      .ok ((lastValue? items (tag + j)).bind (read j)) :=
    index_of_getElem? (by rw [Draft.slots, List.getElem?_map, List.getElem?_range hj]; rfl)
  rw [cornerChecked, word_of_lt (by omega), ok_bind, hindex _ (by omega), ok_bind, hlat,
    position?]
  cases hnorth : (lastValue? items (tag + 2 * i)).bind latitude with
  | none => rfl
  | some lat =>
    dsimp only
    rw [sum_of_lt (by omega), ok_bind, hindex _ (by omega), ok_bind, hlon, ← Nat.add_assoc]
    cases (lastValue? items (tag + 2 * i + 1)).bind longitude <;> rfl

/-- Putting the corners together faults nowhere. -/
theorem cornersChecked_slots (hlat : ∀ i < 4, read (2 * i) = latitude)
    (hlon : ∀ i < 4, read (2 * i + 1) = longitude) :
    cornersChecked (Draft.slots items tag read) =
      .ok (corners? items latitude longitude tag) := by
  have hcorner (i : Nat) (hi : i < 4) :=
    cornerChecked_slots items tag hi (hlat i hi) (hlon i hi)
  rw [cornersChecked, hcorner 0 (by decide), hcorner 1 (by decide), hcorner 2 (by decide),
    hcorner 3 (by decide), corners?]
  simp only [ok_bind, Nat.mul_zero, Nat.add_zero, Nat.mul_one, Nat.reduceMul]
  cases position? items latitude longitude tag with
  | none => rfl
  | some first =>
    cases position? items latitude longitude (tag + 2) with
    | none => rfl
    | some second =>
      cases position? items latitude longitude (tag + 4) with
      | none => rfl
      | some third => cases position? items latitude longitude (tag + 6) <;> rfl

end corners

/-! ## Samples -/

/-- The sample of a local set, filled item by item. -/
def Sample.ofItemsChecked (items : List Item) : Checked Sample := do
  let d ← items.foldlM Draft.putChecked Draft.blank
  let offsetCorners ← cornersChecked d.offsets
  let corners ← cornersChecked d.corners
  return { d.sample with
    sensorPosition := pair? d.sensor
    frameCenter := pair? d.center
    offsetCorners
    corners }

theorem pair?_eq_position? (items : List Item) (latitude longitude : Bytes → Option Float)
    (tag : Nat) :
    pair? ((lastValue? items tag).bind latitude, (lastValue? items (tag + 1)).bind longitude) =
      position? items latitude longitude tag := by
  rw [position?]
  cases (lastValue? items tag).bind latitude with
  | none => rfl
  | some lat => cases (lastValue? items (tag + 1)).bind longitude <;> rfl

/-- Filling a sample faults nowhere. -/
theorem Sample.ofItemsChecked_eq (items : List Item) :
    ofItemsChecked items = .ok (ofItems items) := by
  have heven : ∀ i < 4, decodeCorner (2 * i) = decodeLatitude := fun i _ => if_pos (by omega)
  have hodd : ∀ i < 4, decodeCorner (2 * i + 1) = decodeLongitude := fun i _ => if_neg (by omega)
  rw [ofItemsChecked, Draft.foldlM_putChecked, ok_bind, Draft.ofItems,
    cornersChecked_slots items 26 (fun _ _ => rfl) (fun _ _ => rfl), ok_bind,
    cornersChecked_slots items 82 heven hodd, ok_bind, pair?_eq_position?, pair?_eq_position?]
  rfl

end StreamCatalog.Telemetry
