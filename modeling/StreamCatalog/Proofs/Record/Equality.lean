import StreamCatalog.Proofs.Geometry.Joining
import StreamCatalog.Proofs.Record.Changes
import StreamCatalog.Proofs.Record.Stored

/-!
# Equal records

Attributes are compared by `==`, which is an equivalence on those without doubles that
are no numbers. Two records are equal if they have the same identifier and kind, and equal
values under the same names (`Record.Equals`). What is sent of a record that was
made from an earlier one by setting attributes makes an equal record of the earlier one
(`Record.overlaid_changedSince_equals`).
-/

namespace StreamCatalog

/-! ## Lists and options -/

section containers

variable {α : Type} [BEq α]

theorem beq_self_of_forall {as : List α} (h : ∀ a ∈ as, (a == a) = true) : (as == as) = true := by
  induction as with
  | nil => rfl
  | cons a as ih =>
    rw [List.cons_beq_cons, Bool.and_eq_true]
    exact ⟨h a List.mem_cons_self, ih fun b hb => h b (List.mem_cons_of_mem a hb)⟩

variable [PartialEquivBEq α]

instance listPartialEquivBEq : PartialEquivBEq (List α) where
  symm {as bs} h := by
    induction as generalizing bs with
    | nil => cases bs <;> exact h
    | cons a as ih =>
      cases bs with
      | nil => exact h
      | cons b bs =>
        rw [List.cons_beq_cons, Bool.and_eq_true] at h ⊢
        exact ⟨BEq.symm h.1, ih h.2⟩
  trans {as bs cs} h h' := by
    induction as generalizing bs cs with
    | nil =>
      cases bs with
      | nil => exact h'
      | cons b bs => cases h
    | cons a as ih =>
      cases bs with
      | nil => cases h
      | cons b bs =>
        cases cs with
        | nil => cases h'
        | cons c cs =>
          rw [List.cons_beq_cons, Bool.and_eq_true] at h h' ⊢
          exact ⟨BEq.trans h.1 h'.1, ih h.2 h'.2⟩

instance optionPartialEquivBEq : PartialEquivBEq (Option α) where
  symm {a b} h :=
    match a, b, h with
    | none, none, _ => rfl
    | some _, some _, h => BEq.symm (α := α) h
  trans {a b c} h h' :=
    match a, b, c, h, h' with
    | none, none, none, _, _ => rfl
    | some _, some _, some _, h, h' => BEq.trans (α := α) h h'

end containers

/-! ## Geometries -/

theorem Polygon.beq_iff {p q : Polygon} :
    (p == q) = true ↔ (p.exterior == q.exterior) = true ∧ (p.holes == q.holes) = true := by
  rw [← Bool.and_eq_true]
  rfl

instance : PartialEquivBEq Polygon where
  symm h := Polygon.beq_iff.2 ((Polygon.beq_iff.1 h).imp BEq.symm BEq.symm)
  trans h h' :=
    Polygon.beq_iff.2 ⟨BEq.trans (Polygon.beq_iff.1 h).1 (Polygon.beq_iff.1 h').1,
      BEq.trans (Polygon.beq_iff.1 h).2 (Polygon.beq_iff.1 h').2⟩

theorem Box.beq_iff {b c : Box} :
    (b == c) = true ↔ (b.low == c.low) = true ∧ (b.high == c.high) = true := by
  rw [← Bool.and_eq_true]
  rfl

instance : PartialEquivBEq Box where
  symm h := Box.beq_iff.2 ((Box.beq_iff.1 h).imp BEq.symm BEq.symm)
  trans h h' :=
    Box.beq_iff.2 ⟨BEq.trans (Box.beq_iff.1 h).1 (Box.beq_iff.1 h').1,
      BEq.trans (Box.beq_iff.1 h).2 (Box.beq_iff.1 h').2⟩

namespace Geometry

mutual

theorem same_symm : (g h : Geometry) → same g h = true → same h g = true
  | point _, point _, H | lineString _, lineString _, H | polygon _, polygon _, H
  | multiPoint _, multiPoint _, H | multiLineString _, multiLineString _, H
  | multiPolygon _, multiPolygon _, H | rect _, rect _, H => BEq.symm H
  | line _ _, line _ _, H => by
    rw [same, Bool.and_eq_true] at H ⊢
    exact ⟨BEq.symm H.1, BEq.symm H.2⟩
  | triangle _ _ _, triangle _ _ _, H => by
    rw [same, Bool.and_eq_true, Bool.and_eq_true] at H ⊢
    exact ⟨⟨BEq.symm H.1.1, BEq.symm H.1.2⟩, BEq.symm H.2⟩
  | collection gs, collection hs, H => by
    rw [same] at H ⊢
    exact sameParts_symm gs hs H

theorem sameParts_symm : (gs hs : List Geometry) → sameParts gs hs = true → sameParts hs gs = true
  | [], [], _ => rfl
  | g :: gs, h :: hs, H => by
    rw [sameParts, Bool.and_eq_true] at H ⊢
    exact ⟨same_symm g h H.1, sameParts_symm gs hs H.2⟩

end

mutual

theorem same_trans : (g h k : Geometry) → same g h = true → same h k = true → same g k = true
  | point _, point _, point _, H, H' | lineString _, lineString _, lineString _, H, H'
  | polygon _, polygon _, polygon _, H, H' | multiPoint _, multiPoint _, multiPoint _, H, H'
  | multiLineString _, multiLineString _, multiLineString _, H, H'
  | multiPolygon _, multiPolygon _, multiPolygon _, H, H'
  | rect _, rect _, rect _, H, H' => BEq.trans H H'
  | line _ _, line _ _, line _ _, H, H' => by
    rw [same, Bool.and_eq_true] at H H' ⊢
    exact ⟨BEq.trans H.1 H'.1, BEq.trans H.2 H'.2⟩
  | triangle _ _ _, triangle _ _ _, triangle _ _ _, H, H' => by
    rw [same, Bool.and_eq_true, Bool.and_eq_true] at H H' ⊢
    exact ⟨⟨BEq.trans H.1.1 H'.1.1, BEq.trans H.1.2 H'.1.2⟩, BEq.trans H.2 H'.2⟩
  | collection gs, collection hs, collection ks, H, H' => by
    rw [same] at H H' ⊢
    exact sameParts_trans gs hs ks H H'

theorem sameParts_trans : (gs hs ks : List Geometry) → sameParts gs hs = true →
    sameParts hs ks = true → sameParts gs ks = true
  | [], [], [], _, _ => rfl
  | g :: gs, h :: hs, k :: ks, H, H' => by
    rw [sameParts, Bool.and_eq_true] at H H' ⊢
    exact ⟨same_trans g h k H.1 H'.1, sameParts_trans gs hs ks H.2 H'.2⟩

end

instance : PartialEquivBEq Geometry where
  symm h := same_symm _ _ h
  trans h h' := same_trans _ _ _ h h'

theorem beq_self_polygon {p : Polygon} (h : ∀ c ∈ p.coords, (c == c) = true) : (p == p) = true :=
  Polygon.beq_iff.2 ⟨beq_self_of_forall fun c hc => h c (List.mem_append_left _ hc),
    beq_self_of_forall fun _ hring => beq_self_of_forall fun c hc =>
      h c (List.mem_append_right _ (List.mem_flatten_of_mem hring hc))⟩

mutual

/-- A geometry is equal to itself if its points are. -/
theorem same_self : (g : Geometry) → (∀ c ∈ g.coords, (c == c) = true) → same g g = true
  | point p, h => h p (List.mem_singleton_self p)
  | line a b, h => by
    rw [same, Bool.and_eq_true]
    exact ⟨h a (by simp [coords]), h b (by simp [coords])⟩
  | lineString _, h | multiPoint _, h => beq_self_of_forall h
  | polygon _, h => beq_self_polygon h
  | multiLineString _, h =>
    beq_self_of_forall fun _ hl => beq_self_of_forall fun c hc => h c (List.mem_flatten_of_mem hl hc)
  | multiPolygon _, h =>
    beq_self_of_forall fun _ hp => beq_self_polygon fun c hc => h c (List.mem_flatMap_of_mem hp hc)
  | collection gs, h => by
    rw [same]
    exact sameParts_self gs h
  | rect b, h => Box.beq_iff.2 ⟨h b.low (by simp [coords]), h b.high (by simp [coords])⟩
  | triangle a b c, h => by
    rw [same, Bool.and_eq_true, Bool.and_eq_true]
    exact ⟨⟨h a (by simp [coords]), h b (by simp [coords])⟩, h c (by simp [coords])⟩

theorem sameParts_self : (gs : List Geometry) → (∀ c ∈ coordsOfParts gs, (c == c) = true) →
    sameParts gs gs = true
  | [], _ => rfl
  | g :: gs, h => by
    rw [sameParts, Bool.and_eq_true]
    exact ⟨same_self g fun c hc => h c (List.mem_append_left _ hc),
      sameParts_self gs fun c hc => h c (List.mem_append_right _ hc)⟩

end

end Geometry

/-! ## Attributes -/

namespace Attribute

theorem same_symm : (a b : Attribute) → same a b = true → same b a = true
  | text _, text _, H | integer _, integer _, H | double _, double _, H | date _, date _, H
  | geometry _, geometry _, H | list _, list _, H => BEq.symm H

theorem same_trans : (a b c : Attribute) → same a b = true → same b c = true → same a c = true
  | text _, text _, text _, H, H' | integer _, integer _, integer _, H, H'
  | double _, double _, double _, H, H' | date _, date _, date _, H, H'
  | geometry _, geometry _, geometry _, H, H' | list _, list _, list _, H, H' => BEq.trans H H'

instance : PartialEquivBEq Attribute where
  symm h := same_symm _ _ h
  trans h h' := same_trans _ _ _ h h'

/-- Whether none of the doubles of an attribute is no number. -/
def IsNumeric (a : Attribute) : Prop :=
  ∀ x ∈ a.doubles, x.isNaN = false

theorem beq_self_double {x : Float} (h : x.isNaN = false) : (x == x) = true := by
  rw [Float.isNaN_eq_decide_eq_nan, decide_eq_false_iff_not] at h
  exact Float.beq_self_iff.2 h

/-- An attribute is equal to itself if its doubles are numbers. -/
theorem IsNumeric.beq_self {a : Attribute} (h : a.IsNumeric) : (a == a) = true := by
  cases a with
  | text s => exact beq_self_eq_true s
  | integer i => exact beq_self_eq_true i
  | double x => exact beq_self_double (h x (List.mem_singleton_self x))
  | date t => exact beq_self_eq_true t
  | geometry g =>
    refine Geometry.same_self g fun c hc => Coord.beq_iff.2 ⟨beq_self_double ?_, beq_self_double ?_⟩
    · exact h c.x (List.mem_flatMap_of_mem hc (by simp [Coord.doubles]))
    · exact h c.y (List.mem_flatMap_of_mem hc (by simp [Coord.doubles]))
  | list items => exact beq_self_eq_true items

end Attribute

/-! ## Records -/

namespace Record

/-- Whether two records have the same identifier and kind, and equal values under the same names. -/
structure Equals (r s : Record) : Prop where
  /-- The identifiers are the same. -/
  id_eq : r.id = s.id
  /-- The kinds are the same. -/
  kind_eq : r.kind = s.kind
  /-- Each name has equal values, or no value in both. -/
  beq : ∀ name, (r.get? name == s.get? name) = true

variable {r s t before after : Record}

theorem Equals.symm (h : r.Equals s) : s.Equals r :=
  ⟨h.id_eq.symm, h.kind_eq.symm, fun name => BEq.symm (h.beq name)⟩

theorem Equals.trans (h : r.Equals s) (h' : s.Equals t) : r.Equals t :=
  ⟨h.id_eq.trans h'.id_eq, h.kind_eq.trans h'.kind_eq, fun name =>
    BEq.trans (h.beq name) (h'.beq name)⟩

/-- Whether all values of a record are equal to themselves, as their doubles are numbers. -/
def IsNumeric (r : Record) : Prop :=
  ∀ name a, r.get? name = some a → a.IsNumeric

/-- The record with attributes set one after the other. -/
def setAll (r : Record) (sets : List (String × Attribute)) : Record :=
  sets.foldl (fun r (name, value) => r.set name value) r

/-- A record that is made by setting attributes is the same one, and loses none. -/
theorem setAll_spec (r : Record) (sets : List (String × Attribute)) :
    (r.setAll sets).id = r.id ∧ (r.setAll sets).kind = r.kind ∧
      ∀ name, (r.setAll sets).get? name = none → r.get? name = none := by
  induction sets generalizing r with
  | nil => exact ⟨rfl, rfl, fun _ h => h⟩
  | cons p sets ih =>
    obtain ⟨hid, hkind, hnames⟩ := ih (r.set p.1 p.2)
    refine ⟨hid, hkind, fun name h => ?_⟩
    have hset := hnames name h
    rw [get?_set] at hset
    split at hset
    · cases hset
    · exact hset

theorem differs_eq (before : Option Attribute) (value : Attribute) :
    differs before value = !(before == some value) := by
  cases before <;> rfl

/-- What is sent is what is not equal in the earlier record. -/
theorem getElem?_changedSince_eq_some_iff {name : String} {value : Attribute} :
    (after.changedSince before)[name]? = some value ↔
      after.get? name = some value ∧ (before.get? name == some value) = false := by
  rw [getElem?_changedSince, Option.filter_eq_some_iff, differs_eq, Bool.not_eq_true']

/-- What is sent of a later record makes an equal one of a record that is equal to the earlier one. -/
theorem overlaid_changedSince_equals {stored : Record} (hafter : after.IsNumeric)
    (hid : stored.id = after.id) (hkind : stored.kind = after.kind)
    (hnames : ∀ name, after.get? name = none → stored.get? name = none)
    (hsame : ∀ name value, (before.get? name == some value) = true →
      (stored.get? name == some value) = true) :
    (stored.overlaid (after.changedSince before)).Equals after where
  id_eq := hid
  kind_eq := hkind
  beq name := by
    rw [get?_overlaid, getElem?_changedSince]
    cases hvalue : after.get? name with
    | none =>
      rw [hnames name hvalue]
      rfl
    | some value =>
      cases hequal : before.get? name == some value with
      | false =>
        rw [Option.filter_some_pos (by rw [differs_eq, hequal]; rfl), Option.some_or]
        exact (hafter name value hvalue).beq_self
      | true =>
        rw [Option.filter_some_neg (by rw [differs_eq, hequal]; decide), Option.none_or]
        exact hsame name value hequal

end Record

end StreamCatalog
