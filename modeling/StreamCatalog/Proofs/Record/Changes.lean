import StreamCatalog.Record.Basic

/-!
# Sending the changes of a record

Only the attributes that are new or different are sent, and are laid over the
earlier record. Where equality of values is exact, the earlier record gets the
attributes of the later one in this way (`Record.get?_overlaid`).
-/

namespace StreamCatalog

/-- Whether equal values are the same: not for doubles, and not for what contains them. -/
def Attribute.IsExact : Attribute → Prop
  | .text _ | .integer _ | .date _ | .list _ => True
  | .double _ | .geometry _ => False

theorem Attribute.IsExact.eq_of_same {old value : Attribute} (h : value.IsExact)
    (heq : (old == value) = true) : old = value := by
  cases value with
  | double x => exact h.elim
  | geometry g => exact h.elim
  | text s =>
    cases old with
    | text t => exact congrArg text (eq_of_beq heq)
    | _ => cases heq
  | integer i =>
    cases old with
    | integer j => exact congrArg integer (eq_of_beq heq)
    | _ => cases heq
  | date t =>
    cases old with
    | date u => exact congrArg date (eq_of_beq heq)
    | _ => cases heq
  | list items =>
    cases old with
    | list items' => exact congrArg list (eq_of_beq heq)
    | _ => cases heq

namespace Record

/-- The record with some attributes laid over its own. -/
def overlaid (r : Record) (changes : Attributes) : Record :=
  { r with attributes := r.attributes.overlay changes }

theorem get?_overlaid (r : Record) (changes : Attributes) (name : String) :
    (r.overlaid changes).get? name = (changes[name]?).or (r.get? name) :=
  Std.ExtTreeMap.getElem?_union

theorem getElem?_changedSince (after before : Record) (name : String) :
    (after.changedSince before)[name]? =
      (after.get? name).filter fun value => differs (before.get? name) value := by
  rw [changedSince, Std.ExtTreeMap.getElem?_filter']
  rfl

/-- An exact attribute of the later record gets into the earlier one. -/
theorem get?_overlaid_changedSince_of_isExact {after before : Record} {name : String}
    {value : Attribute} (hvalue : after.get? name = some value) (hexact : value.IsExact) :
    (before.overlaid (after.changedSince before)).get? name = some value := by
  rw [get?_overlaid, getElem?_changedSince, hvalue]
  by_cases hdiffers : differs (before.get? name) value = true
  · rw [Option.filter_some_pos hdiffers]
    rfl
  · rw [Option.filter_some_neg (by simpa using hdiffers), Option.none_or]
    cases hold : before.get? name with
    | none => exact absurd (by rw [hold]; rfl) hdiffers
    | some old =>
      have hsame : (old == value) = true := by
        rw [hold, differs, bne, Bool.not_eq_true', Bool.not_eq_false] at hdiffers
        exact hdiffers
      exact congrArg some (hexact.eq_of_same hsame)

/-- Where nothing is sent, an exact attribute of the later record is in the earlier one. -/
theorem get?_of_changedSince_isEmpty {after before : Record}
    (hempty : (after.changedSince before).isEmpty = true) {name : String} {value : Attribute}
    (hvalue : after.get? name = some value) (hexact : value.IsExact) :
    before.get? name = some value := by
  have h : (before.overlaid (after.changedSince before)).get? name = some value :=
    get?_overlaid_changedSince_of_isExact hvalue hexact
  rwa [Std.ExtTreeMap.isEmpty_iff.1 hempty, get?_overlaid, Std.ExtTreeMap.getElem?_empty,
    Option.none_or] at h

end Record

end StreamCatalog
