import StreamCatalog.Proofs.Record.Geometries
import StreamCatalog.Proofs.Time.Rfc3339

/-!
# Reading back attributes

Stored attributes are read back one by one (`Attributes.ofStored?_stored_eq_some_iff`):
texts and lists as they are, whole numbers of 64 bits and dates as well, and doubles and
geometries as far as their doubles are. One that is not read back makes all unreadable.
-/

namespace StreamCatalog

variable [Json.NumberReader]

namespace Attribute

/-- What is read back for an attribute. -/
def reread? : Attribute → Option Attribute
  | text s => some (text s)
  | integer i => if Json.leastInt ≤ i ∧ i < (1 <<< 63 : Nat) then some (integer i) else none
  | double x => (Json.rereadFloat? x).map double
  | date t => (Instant.ofRfc3339? t.rfc3339).map date
  | geometry g => (g.mapDoubles? Json.rereadFloat?).map geometry
  | list items => some (list items)

/-- An object of type and value is read by its type. -/
theorem rereadAs_typed (type : String) (value : Json) :
    (Json.object [("type", .text type), ("value", value)]).rereadAs ofJson? =
      value.rereadAs (ofTyped? type) := by
  have hread (value : Json) :
      ofJson? (.object [("type", .text type), ("value", value)]) = ofTyped? type value := by
    have hfields : Json.fields? ["type", "value"]
        (.object [("type", .text type), ("value", value)]) = some [.text type, value] := rfl
    rw [ofJson?, hfields]
    rfl
  have hnumbers : (Json.object [("type", .text type), ("value", value)]).renumber? =
      value.renumber?.map fun value => .object [("type", .text type), ("value", value)] := by
    rw [Json.renumber?, Json.renumberMembers?, Json.renumberMembers?, Json.renumberMembers?]
    cases value.renumber? <;> rfl
  rw [Json.rereadAs, Json.rereadAs, hnumbers]
  cases value.renumber? with
  | none => rfl
  | some value => exact hread value

/-- What is read back for a stored attribute. -/
theorem rereadAs_toJson (a : Attribute) : a.toJson.rereadAs ofJson? = a.reread? := by
  cases a with
  | text s =>
    rw [toJson, rereadAs_typed, Json.rereadAs_text, ofTyped?, Json.text?, Option.map_some, reread?]
  | integer i =>
    have hread : (Json.int i).rereadAs (ofTyped? "integer") =
        ((Json.int i).rereadAs Json.int?).bind fun i =>
          if i < (1 <<< 63 : Nat) then some (integer i) else none := (Option.bind_assoc _ _ _).symm
    rw [toJson, rereadAs_typed, hread, Json.rereadAs_int?, reread?]
    have hle : ((1 <<< 63 : Nat) : Int) ≤ Json.greatestInt := by decide
    by_cases hword : Json.leastInt ≤ i ∧ i < (1 <<< 63 : Nat)
    · rw [if_pos hword, if_pos ⟨hword.1, by omega⟩, Option.bind_some, if_pos hword.2]
    · rw [if_neg hword]
      split
      case isTrue h => exact if_neg fun hless => hword ⟨h.1, hless⟩
      case isFalse => rfl
  | double x =>
    rw [toJson, rereadAs_typed, reread?, ← Json.rereadAs_float?, ← Json.rereadAs_map]
    rfl
  | date t =>
    rw [toJson, rereadAs_typed, Json.rereadAs_text, ofTyped?, Json.text?, Option.bind_some, reread?]
  | geometry g =>
    rw [toJson, rereadAs_typed, reread?, ← g.rereadAs_toJson, ← Json.rereadAs_map]
    rfl
  | list items =>
    have hread : (Json.array (items.map .text)).rereadAs (ofTyped? "list") =
        ((Json.array (items.map .text)).rereadAs fun j => do (← j.array?).mapM Json.text?).map
          list := by
      rw [← Json.rereadAs_map]
      congr 1
      funext j
      rw [ofTyped?]
      cases j.array? with
      | none => rfl
      | some js => cases hjs : js.mapM Json.text? <;> simp [hjs]
    rw [toJson, rereadAs_typed, hread, Json.rereadAs_array fun s _ => rfl, reread?]
    exact congrArg _ (mapM_self items fun _ _ => rfl)

/-- The doubles of an attribute. -/
def doubles : Attribute → List Float
  | double x => [x]
  | geometry g => g.doubles
  | _ => []

/-- Whether an attribute is one that there can be: whole numbers have 64 bits, and the years of
dates six digits. -/
def InRange : Attribute → Prop
  | integer i => Json.leastInt ≤ i ∧ i < (1 <<< 63 : Nat)
  | date t => t.InRange
  | _ => True

/-- Whether an attribute is written as what it is: doubles are finite, and leap seconds stand at
the end of a minute. -/
def IsWritable (a : Attribute) : Prop :=
  (∀ x ∈ a.doubles, x.isFinite = true) ∧
    ∀ t, a = date t → t.nanos < nanosPerSecond ∨ t.seconds % 60 = 59

theorem isFinite_of_reread? {a b : Attribute} (h : a.reread? = some b) :
    ∀ x ∈ a.doubles, x.isFinite = true := by
  intro x hx
  cases a with
  | double y =>
    obtain rfl := List.mem_singleton.1 hx
    obtain ⟨z, hz, -⟩ := Option.map_eq_some_iff.1 h
    exact Json.isFinite_of_rereadFloat? hz
  | geometry g =>
    obtain ⟨g', hg, -⟩ := Option.map_eq_some_iff.1 h
    obtain ⟨c, hc, hx⟩ := List.mem_flatMap.1 hx
    obtain ⟨y, hy⟩ := Geometry.gives_of_mapDoubles? g hg c hc x hx
    exact Json.isFinite_of_rereadFloat? hy
  | _ => cases hx

/-- An attribute is read back as it is just when it is written as what it is, provided that finite
doubles are read back. -/
theorem reread?_eq_self_iff {a : Attribute} (hrange : a.InRange)
    (hdoubles : ∀ x ∈ a.doubles, x.isFinite = true → Json.rereadFloat? x = some x) :
    a.reread? = some a ↔ a.IsWritable := by
  constructor
  · intro h
    refine ⟨isFinite_of_reread? h, ?_⟩
    rintro t rfl
    rw [reread?, Instant.ofRfc3339?_rfc3339 hrange] at h
    exact Instant.settled_eq_self_iff.1 (date.inj (Option.some.inj h))
  · rintro ⟨hfinite, hsettled⟩
    have hread (x : Float) (hx : x ∈ a.doubles) : Json.rereadFloat? x = some x :=
      hdoubles x hx (hfinite x hx)
    cases a with
    | text s => rfl
    | list items => rfl
    | integer i => exact if_pos hrange
    | date t =>
      rw [reread?, Instant.ofRfc3339?_rfc3339 hrange,
        Instant.settled_eq_self_iff.2 (hsettled t rfl), Option.map_some]
    | double x => rw [reread?, hread x (List.mem_singleton_self x), Option.map_some]
    | geometry g =>
      rw [reread?, Geometry.mapDoubles?_self g fun c hc => Coord.mapDoubles?_self fun x hx =>
        hread x (List.mem_flatMap_of_mem hc hx), Option.map_some]

/-- A text is read back as it is, and nothing else as a text. -/
theorem reread?_eq_text_iff {a : Attribute} {s : String} :
    a.reread? = some (text s) ↔ a = text s := by
  cases a <;> simp [reread?]

theorem InRange.reread? {a b : Attribute} (hrange : a.InRange) (h : a.reread? = some b) :
    b.InRange := by
  cases a with
  | integer i =>
    obtain rfl : integer i = b := Option.some.inj ((if_pos hrange).symm.trans h)
    exact hrange
  | date t =>
    rw [Attribute.reread?, Instant.ofRfc3339?_rfc3339 hrange] at h
    cases h
    exact Instant.InRange.settled hrange
  | text s | list items => cases h; trivial
  | double x | geometry g =>
    obtain ⟨_, -, rfl⟩ := Option.map_eq_some_iff.1 h
    trivial

/-- What was read back is read back again, provided that its doubles are. -/
theorem reread?_of_reread? {a b : Attribute} (hrange : a.InRange) (h : a.reread? = some b)
    (hdoubles : ∀ x ∈ b.doubles, Json.rereadFloat? x = some x) : b.reread? = some b := by
  refine (reread?_eq_self_iff (hrange.reread? h) fun x hx _ => hdoubles x hx).2
    ⟨fun x hx => Json.isFinite_of_rereadFloat? (hdoubles x hx), ?_⟩
  rintro t rfl
  cases a with
  | date u =>
    rw [reread?, Instant.ofRfc3339?_rfc3339 hrange] at h
    cases h
    exact Instant.settled_eq_self_iff.1 (Instant.settled_settled hrange)
  | _ => simp [reread?] at h

end Attribute

/-! ## Maps of attributes -/

namespace Attributes

omit [Json.NumberReader] in
/-- A map is made of its members. -/
theorem insertMany_toList (m : Attributes) : (∅ : Attributes).insertMany m.toList = m := by
  rw [← Std.ExtTreeMap.ofList_eq_insertMany_empty]
  refine Std.ExtTreeMap.ext_getElem? fun name => ?_
  cases h : m[name]? with
  | some a =>
    exact Std.ExtTreeMap.getElem?_ofList_of_mem Std.ReflCmp.compare_self
      Std.ExtTreeMap.distinct_keys_toList (Std.ExtTreeMap.mem_toList_iff_getElem?_eq_some.2 h)
  | none =>
    refine Std.ExtTreeMap.getElem?_ofList_of_contains_eq_false ?_
    rw [Std.ExtTreeMap.map_fst_toList_eq_keys, Std.ExtTreeMap.contains_keys,
      Std.ExtTreeMap.contains_eq_isSome_getElem?, h]
    rfl

/-- The attributes that are read back, each for itself. -/
def reread (m : Attributes) : Attributes :=
  m.filterMap fun _ a => Attribute.reread? a

theorem getElem?_reread (m : Attributes) (name : String) :
    m.reread[name]? = m[name]?.bind Attribute.reread? :=
  Std.ExtTreeMap.getElem?_filterMap'

/-- Whether all attributes are read back. -/
structure IsReadable (m : Attributes) : Prop where
  /-- They do not nest too deep. -/
  height_le : m.toJson.height ≤ Json.maxDepth
  /-- Each is read back for itself. -/
  isSome_reread? : ∀ (name : String) (a : Attribute), m[name]? = some a → a.reread?.isSome

/-- A member is stored under its name. -/
def memberToJson (p : String × Attribute) : String × Json := (p.1, p.2.toJson)

/-- What is read back for a member. -/
def rereadMember? (p : String × Attribute) : Option (String × Attribute) :=
  p.2.reread?.map (p.1, ·)

/-- Members are read one by one and put into a map. -/
theorem bind_renumberMembers? : (members : List (String × Attribute)) → (init : Attributes) →
    (Json.renumberMembers? (members.map memberToJson)).bind
      (·.foldlM (fun (all : Attributes) (name, j) => do
        return all.insert name (← Attribute.ofJson? j)) init) =
      (members.mapM rereadMember?).map init.insertMany
  | [], init => rfl
  | (name, a) :: members, init => by
    rw [List.mapM_cons, List.map_cons, memberToJson, rereadMember?, Json.renumberMembers?,
      ← a.rereadAs_toJson, Json.rereadAs]
    cases a.toJson.renumber? with
    | none => rfl
    | some j =>
      cases hj : Attribute.ofJson? j with
      | none => cases Json.renumberMembers? (members.map memberToJson) <;> simp [hj]
      | some b =>
        have ih := bind_renumberMembers? members (init.insert name b)
        have hinsert : init.insertMany ∘ ((name, b) :: ·) = (init.insert name b).insertMany :=
          funext fun _ => Std.ExtTreeMap.insertMany_cons
        have hrest : (do return (name, b) :: (← members.mapM rereadMember?)).map init.insertMany =
            (members.mapM rereadMember?).map (init.insert name b).insertMany := by
          rw [← hinsert, ← Option.map_map]
          cases members.mapM rereadMember? <;> rfl
        refine Eq.trans ?_ (ih.trans hrest.symm |>.trans ?_)
        · cases Json.renumberMembers? (members.map memberToJson) <;> simp [hj]
        · rw [Option.bind_some, hj]
          rfl

/-- Stored attributes are read back one by one, or not at all. -/
theorem ofStored?_stored_eq_some_iff {m read : Attributes} :
    ofStored? m.stored = some read ↔ IsReadable m ∧ read = m.reread := by
  have hmembers : m.toJson.rereadAs ofJson? =
      (m.toList.mapM rereadMember?).map (∅ : Attributes).insertMany := by
    rw [← bind_renumberMembers?, Json.rereadAs]
    change (Json.renumber? (.object (m.toList.map memberToJson))).bind ofJson? = _
    rw [Json.renumber?, Option.bind_map]
    rfl
  have hreread : m.reread.toList = m.toList.filterMap rereadMember? :=
    Std.ExtTreeMap.toList_filterMap
  have hsome : (∀ p ∈ m.toList, (rereadMember? p).isSome) ↔
      ∀ (name : String) (a : Attribute), m[name]? = some a → a.reread?.isSome := by
    simp only [← Std.ExtTreeMap.mem_toList_iff_getElem?_eq_some, rereadMember?, Option.isSome_map,
      Prod.forall]
  rw [ofStored?, stored, Json.bind_parse?_compact, hmembers]
  split
  case isTrue hle =>
    rw [Option.map_eq_some_iff]
    constructor
    · rintro ⟨members, h, rfl⟩
      obtain ⟨hall, rfl⟩ := mapM_eq_some_iff.1 h
      exact ⟨⟨hle, hsome.1 hall⟩, by rw [← hreread, insertMany_toList]⟩
    · rintro ⟨hreadable, rfl⟩
      exact ⟨_, mapM_eq_some_iff.2 ⟨hsome.2 hreadable.isSome_reread?, rfl⟩,
        by rw [← hreread, insertMany_toList]⟩
  case isFalse hle => simpa using fun h : IsReadable m => absurd h.height_le hle

/-- Attributes are read back as they are just when each is. -/
theorem ofStored?_stored_eq_self_iff {m : Attributes} : ofStored? m.stored = some m ↔
    m.toJson.height ≤ Json.maxDepth ∧
      ∀ (name : String) (a : Attribute), m[name]? = some a → a.reread? = some a := by
  rw [ofStored?_stored_eq_some_iff]
  constructor
  · rintro ⟨hreadable, hself⟩
    refine ⟨hreadable.height_le, fun name a ha => ?_⟩
    have hread := getElem?_reread m name
    rw [← hself, ha, Option.bind_some] at hread
    exact hread.symm
  · rintro ⟨hle, hself⟩
    refine ⟨⟨hle, fun name a ha => by rw [hself name a ha]; rfl⟩, ?_⟩
    refine Std.ExtTreeMap.ext_getElem? fun name => ?_
    rw [getElem?_reread]
    cases ha : m[name]? with
    | none => rfl
    | some a => exact (hself name a ha).symm

end Attributes

/-- Whether an attribute is read back as it is, wherever it is stored. -/
structure Attribute.IsKept (a : Attribute) : Prop where
  /-- It does not nest too deep within the attributes of a record. -/
  height_lt : a.toJson.height < Json.maxDepth
  /-- It is read back as it is. -/
  reread?_eq : a.reread? = some a

namespace Attributes

omit [Json.NumberReader] in
theorem height_toJson_le_iff {m : Attributes} : m.toJson.height ≤ Json.maxDepth ↔
    ∀ (name : String) (a : Attribute), m[name]? = some a → a.toJson.height < Json.maxDepth := by
  have hmembers : m.toJson.height = Json.membersHeight (m.toList.map memberToJson) + 1 := rfl
  have hpos : 0 < Json.maxDepth := by decide
  rw [hmembers, Nat.succ_le_iff, Nat.lt_iff_le_pred hpos, Json.membersHeight_le_iff]
  simp only [List.forall_mem_map, Prod.forall, Std.ExtTreeMap.mem_toList_iff_getElem?_eq_some,
    memberToJson, Nat.lt_iff_le_pred hpos]

/-- Attributes are read back as they are just when each is kept. -/
theorem ofStored?_stored_eq_self_iff_isKept {m : Attributes} : ofStored? m.stored = some m ↔
    ∀ (name : String) (a : Attribute), m[name]? = some a → a.IsKept := by
  rw [ofStored?_stored_eq_self_iff, height_toJson_le_iff]
  exact ⟨fun h name a ha => ⟨h.1 name a ha, h.2 name a ha⟩,
    fun h => ⟨fun name a ha => (h name a ha).height_lt, fun name a ha => (h name a ha).reread?_eq⟩⟩

end Attributes

omit [Json.NumberReader] in
theorem Record.text?_eq_some_iff {r : Record} {name s : String} :
    r.text? name = some s ↔ r.get? name = some (.text s) := by
  rw [text?]
  split
  case h_1 heq => rw [heq, Option.some.injEq, Option.some.injEq, Attribute.text.injEq]
  case h_2 h => exact iff_of_false nofun fun heq => h s heq

/-- A text of a record is read back as it is, and nothing else as a text. -/
theorem Record.text?_reread (r : Record) (name : String) :
    Record.text? { r with attributes := r.attributes.reread } name = r.text? name := by
  have hread : Record.get? { r with attributes := r.attributes.reread } name =
      (r.get? name).bind Attribute.reread? := Attributes.getElem?_reread _ _
  refine Option.ext fun s => ?_
  rw [text?_eq_some_iff, text?_eq_some_iff, hread, Option.bind_eq_some_iff]
  constructor
  · rintro ⟨a, ha, h⟩
    rw [ha, Attribute.reread?_eq_text_iff.1 h]
  · exact fun h => ⟨_, h, rfl⟩

end StreamCatalog
