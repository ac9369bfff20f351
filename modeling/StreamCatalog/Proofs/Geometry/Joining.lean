import Mathlib
import StreamCatalog.Proofs.Geometry.Validity

/-!
# Locations that take up others

Locations are joined by putting their parts together, merging the boxes of the parts and
simplifying the outcome. A location takes up another one, that has parts at all, in two ways only
(`Geometry.joined_eq_self_iff`): the union of the boxes of all parts is that location already,
or both are points, and those of the other one repeat its last point. All other parts that do not
become boxes are added to those that are there.
-/

namespace StreamCatalog

/-! ## Runs of equal neighbours -/

section dedupNeighbours

variable {α : Type} [BEq α] {x : α} {xs ps qs : List α}

theorem dedupNeighbours_cons (x : α) (xs : List α) :
    dedupNeighbours (x :: xs) =
      if (dedupNeighbours xs).head? == some x then x :: (dedupNeighbours xs).tail
      else x :: dedupNeighbours xs := rfl

theorem exists_dedupNeighbours_cons (x : α) (xs : List α) :
    ∃ rest, dedupNeighbours (x :: xs) = x :: rest := by
  rw [dedupNeighbours_cons]
  split <;> exact ⟨_, rfl⟩

variable [PartialEquivBEq α]

/-- What is left has no equal neighbours. -/
theorem isChain_dedupNeighbours (xs : List α) :
    (dedupNeighbours xs).IsChain fun a b => (a == b) = false := by
  induction xs with
  | nil => exact .nil
  | cons x xs ih =>
    rw [dedupNeighbours_cons]
    cases hrest : dedupNeighbours xs with
    | nil => exact .singleton x
    | cons y ys =>
      rw [hrest] at ih
      cases hyx : y == x with
      | false =>
        rw [List.head?_cons, Option.some_beq_some, hyx, if_neg Bool.false_ne_true]
        exact .cons_cons ((BEq.comm).trans hyx) ih
      | true =>
        rw [List.head?_cons, Option.some_beq_some, hyx, if_pos rfl, List.tail_cons]
        cases ys with
        | nil => exact .singleton x
        | cons z zs =>
          rw [List.isChain_cons_cons] at ih
          exact .cons_cons ((BEq.congr_left hyx).symm.trans ih.1) ih.2

theorem dedupNeighbours_eq_singleton_iff :
    dedupNeighbours (x :: xs) = [x] ↔ ∀ y ∈ xs, (x == y) = true := by
  induction xs generalizing x with
  | nil => exact iff_of_true rfl nofun
  | cons y ys ih =>
    obtain ⟨rest, hrest⟩ := exists_dedupNeighbours_cons y ys
    rw [dedupNeighbours_cons, hrest, List.head?_cons, Option.some_beq_some, List.forall_mem_cons,
      BEq.comm]
    cases hxy : x == y with
    | false => simp
    | true =>
      have hys : (∀ z ∈ ys, (x == z) = true) ↔ ∀ z ∈ ys, (y == z) = true := by
        simp only [BEq.congr_left hxy]
      rw [if_pos rfl, hys, ← ih, hrest]
      simp

/-- A list takes up others without a change if it has no equal neighbours and the others are equal
to its last item. -/
theorem dedupNeighbours_append_eq_left_iff :
    dedupNeighbours (ps ++ qs) = ps ↔
      ps.IsChain (fun a b => (a == b) = false) ∧
        ∀ q ∈ qs, ∃ p, ps.getLast? = some p ∧ (p == q) = true := by
  induction ps with
  | nil =>
    cases qs with
    | nil => exact iff_of_true rfl ⟨.nil, nofun⟩
    | cons q qs =>
      refine iff_of_false (dedupNeighbours_ne_nil (List.cons_ne_nil q qs)) fun h => ?_
      obtain ⟨p, hp, -⟩ := h.2 q (List.mem_cons_self)
      cases hp
  | cons p ps ih =>
    cases ps with
    | nil =>
      rw [List.singleton_append, dedupNeighbours_eq_singleton_iff]
      simp
    | cons p' ps =>
      obtain ⟨rest, hrest⟩ := exists_dedupNeighbours_cons p' (ps ++ qs)
      have hchain := isChain_dedupNeighbours (p' :: (ps ++ qs))
      rw [List.cons_append] at ih
      rw [List.cons_append, List.cons_append, dedupNeighbours_cons, List.isChain_cons_cons,
        List.getLast?_cons_cons, and_assoc, ← ih, hrest, List.head?_cons, Option.some_beq_some,
        BEq.comm]
      cases hpp : p == p' with
      | false => simp
      | true =>
        -- The run would have to go on with an item that is equal to itself.
        refine iff_of_false (fun h => ?_) (fun h => Bool.noConfusion h.1)
        have hrest' : rest = p' :: ps := by simpa using h
        rw [hrest, hrest', List.isChain_cons_cons] at hchain
        have hself : (p' == p') = true := BEq.trans (BEq.symm hpp) hpp
        exact Bool.noConfusion (hchain.1.symm.trans hself)

end dedupNeighbours

theorem Coord.beq_iff {p q : Coord} :
    (p == q) = true ↔ (p.x == q.x) = true ∧ (p.y == q.y) = true := by
  rw [← Bool.and_eq_true]
  rfl

instance : PartialEquivBEq Coord where
  symm h := Coord.beq_iff.2 ((Coord.beq_iff.1 h).imp BEq.symm BEq.symm)
  trans h h' :=
    Coord.beq_iff.2 ⟨BEq.trans (Coord.beq_iff.1 h).1 (Coord.beq_iff.1 h').1,
      BEq.trans (Coord.beq_iff.1 h).2 (Coord.beq_iff.1 h').2⟩

/-! ## Putting parts together -/

namespace Geometry

/-- The geometry of points: a single one, or several. -/
def ofPoints : List Coord → Geometry
  | [p] => point p
  | ps => multiPoint ps

@[simp] theorem components_ofPoints (ps : List Coord) :
    (ofPoints ps).components = ps.map point := by
  rcases ps with _ | ⟨p, _ | ⟨q, ps⟩⟩ <;> rfl

theorem mapM_polygon?_points {ps : List Coord} (hne : ps ≠ []) :
    (ps.map point).mapM polygon? = none := by
  cases ps with
  | nil => exact absurd rfl hne
  | cons p ps => rfl

theorem mapM_point?_points (ps : List Coord) : (ps.map point).mapM point? = some ps := by
  induction ps with
  | nil => rfl
  | cons p ps ih =>
    rw [List.map_cons, List.mapM_cons, ih]
    rfl

/-- What two geometries make together. -/
inductive Combines (a b : Geometry) : Geometry → Prop where
  /-- Polygons. -/
  | polygons {ps : List Polygon} (parts_eq : a.components ++ b.components = ps.map polygon) :
    Combines a b (multiPolygon ps)
  /-- Points, without equal neighbours. -/
  | points {ps : List Coord} (parts_eq : a.components ++ b.components = ps.map point) :
    Combines a b (ofPoints (dedupNeighbours ps))
  /-- Parts of several kinds, or of another one. -/
  | mixed : Combines a b (collection (a.components ++ b.components))

theorem combines (a b : Geometry) : Combines a b (a.combine b) := by
  rw [combine]
  generalize hparts : a.components ++ b.components = parts
  split
  next ps hps => exact .polygons (hparts.trans (eq_map_of_mapM eq_polygon_of_polygon? hps))
  next ps _ hps =>
    have hpoints := Combines.points (hparts.trans (eq_map_of_mapM eq_point_of_point? hps))
    split
    next p hsingle => rwa [hsingle] at hpoints
    next hseveral =>
      rwa [ofPoints] at hpoints
      exact hseveral
  next => exact hparts ▸ .mixed

theorem combine_points {a b : Geometry} {ps : List Coord}
    (hparts : a.components ++ b.components = ps.map point) (hne : ps ≠ []) :
    a.combine b = ofPoints (dedupNeighbours ps) := by
  rw [combine, hparts]
  simp only [mapM_polygon?_points hne, mapM_point?_points]
  rfl

/-! ## Solid parts -/

/-- Whether some part of a geometry has a solid box. -/
def HasSolidPart (g : Geometry) : Prop :=
  ∃ part ∈ g.components, ∃ b, part.box? = some b ∧ b.isSolid = true

/-- Only solid parts become boxes. -/
theorem partEnvelopes_eq_self {g : Geometry} (h : ¬g.HasSolidPart) : g.partEnvelopes = g := by
  rw [partEnvelopes]
  split
  next => rfl
  next =>
    have hsolid : ((g.components.filterMap box?).partition Box.isSolid).1 = [] := by
      rw [List.partition_eq_filter_filter, List.filter_eq_nil_iff]
      intro b hb hb'
      obtain ⟨part, hpart, hbox⟩ := List.mem_filterMap.1 hb
      exact h ⟨part, hpart, b, hbox, hb'⟩
    simp only [hsolid, List.isEmpty_nil, if_true]

end Geometry

/-- The difference of a number from itself is zero, or not a number. -/
theorem not_zero_lt_sub_self (x : Float) : ¬(0.0 : Float) < x - x := by
  have hsub : ∀ u : Float.Model.UnpackedFloat,
      Float.Model.UnpackedFloat.sub .binary64 u u = .notANumber ∨
        Float.Model.UnpackedFloat.sub .binary64 u u = .zero .positive := by
    intro u
    cases u with
    | infinity s => cases s <;> exact .inl rfl
    | notANumber => exact .inl rfl
    | zero s => cases s <;> exact .inr rfl
    | finite s m e hm =>
      refine .inr ?_
      simp [Float.Model.UnpackedFloat.sub, Float.Model.UnpackedFloat.normalize]
  have heq : x - x = .ofModel
      (.pack (Float.Model.UnpackedFloat.sub .binary64 x.toModel.unpack x.toModel.unpack)) := rfl
  rw [heq]
  rcases hsub x.toModel.unpack with h | h <;> rw [h] <;> decide +kernel

/-- The box of a point has no extent. -/
theorem Box.isSolid_ofCorners_self (p : Coord) : (Box.ofCorners p p).isSolid = false := by
  have hwidth : (Box.ofCorners p p).width = p.x - p.x := by simp only [ofCorners, width, ite_self]
  rw [isSolid, hwidth, decide_eq_false (not_zero_lt_sub_self p.x), Bool.false_and]

theorem Geometry.not_hasSolidPart_ofPoints (ps : List Coord) : ¬(ofPoints ps).HasSolidPart := by
  rintro ⟨part, hpart, b, hbox, hsolid⟩
  rw [components_ofPoints] at hpart
  obtain ⟨p, -, rfl⟩ := List.mem_map.1 hpart
  cases hbox
  rw [Box.isSolid_ofCorners_self] at hsolid
  cases hsolid

/-! ## Simplification and the number of parts -/

namespace Operator

variable {t : Tolerances} {g out : Geometry}

@[simp] theorem validOr_self (g : Geometry) : validOr g g = g := ite_self g

theorem result?_joinedLocation (t : Tolerances) (g : Geometry) :
    joinedLocation.result? t g = simplify.result? t (validOr g g.partEnvelopes) := by
  simp only [joinedLocation, result?, chainResult?, Option.bind_some, Option.bind_fun_some]

private theorem length_of_mapM {α β : Type} {f : α → Option β} {as : List α} {bs : List β}
    (h : as.mapM f = some bs) : bs.length = as.length := by
  induction as generalizing bs with
  | nil =>
    cases h
    rfl
  | cons a as ih =>
    rw [List.mapM_cons] at h
    obtain ⟨b, -, h⟩ := Option.bind_eq_some_iff.1 h
    obtain ⟨rest, hrest, h⟩ := Option.bind_eq_some_iff.1 h
    cases h
    rw [List.length_cons, List.length_cons, ih hrest]

theorem partCount_of_simplify? {distance : Float} (h : g.simplify? distance = some out) :
    out.partCount = g.partCount := by
  simp only [Geometry.simplify?] at h
  split at h
  next =>
    cases h
    rfl
  next =>
    cases g with
    | lineString ps =>
      obtain ⟨_, -, rfl⟩ := Option.map_eq_some_iff.1 h
      rfl
    | multiLineString ls =>
      obtain ⟨ls', hls, rfl⟩ := Option.map_eq_some_iff.1 h
      simpa [Geometry.partCount, Geometry.components] using length_of_mapM hls
    | polygon p =>
      obtain ⟨_, -, rfl⟩ := Option.map_eq_some_iff.1 h
      rfl
    | multiPolygon ps =>
      obtain ⟨ps', hps, rfl⟩ := Option.map_eq_some_iff.1 h
      simpa [Geometry.partCount, Geometry.components] using length_of_mapM hps
    | _ =>
      cases h
      rfl

/-- Simplification keeps the number of parts. -/
theorem partCount_of_simplify (h : simplify.result? t g = some out) :
    out.partCount = g.partCount := by
  rw [result?] at h
  obtain ⟨image, himage, rfl⟩ := Option.map_eq_some_iff.1 h
  rw [validOr]
  split
  next => exact partCount_of_simplify? himage
  next => rfl

/-- Points have no simplification. -/
theorem simplify_ofPoints (t : Tolerances) (ps : List Coord) :
    simplify.result? t (.ofPoints ps) = some (.ofPoints ps) := by
  have hsame : (Geometry.ofPoints ps).simplify? t.distance = some (.ofPoints ps) := by
    rcases ps with _ | ⟨p, _ | ⟨q, ps⟩⟩ <;> exact ite_self _
  rw [result?, hsame, Option.map_some, validOr_self]

end Operator

/-! ## Taking up -/

/-- Whether a location takes up another one, and stays as it is when that is joined to it. -/
inductive Geometry.TakesUp (t : Tolerances) (kept added : Geometry) : Prop where
  /-- The boxes of all parts make a valid union, and that is the location once it is simplified. -/
  | boxes (solid : (kept.combine added).HasSolidPart)
    (valid : (kept.combine added).partEnvelopes.isValid = true)
    (union_eq : Operator.simplify.result? t (kept.combine added).partEnvelopes = some kept)
  /-- Both are points. The location has no equal neighbours, and the others are equal to its last
  one. -/
  | points {ps qs : List Coord} (kept_eq : kept = ofPoints ps)
    (added_eq : added.components = qs.map point) (ne_nil : qs ≠ [])
    (distinct : ps.IsChain fun p q => (p == q) = false)
    (repeats : ∀ q ∈ qs, ∃ p, ps.getLast? = some p ∧ (p == q) = true)
  /-- The other one has no parts. The parts of the location do not become boxes, and are the location
  once they are simplified. -/
  | nothing (empty : added.components = [])
    (unboxed : ¬((kept.combine added).HasSolidPart ∧
      (kept.combine added).partEnvelopes.isValid = true))
    (same : Operator.simplify.result? t (kept.combine added) = some kept)

namespace Geometry

variable {t : Tolerances} {kept added : Geometry}

/-- Parts that do not become boxes are only taken up if all are points. -/
private theorem takesUp_of_unboxed (hne : added.components ≠ [])
    (h : Operator.simplify.result? t (kept.combine added) = some kept) : kept.TakesUp t added := by
  have hmore : kept.partCount < (kept.components ++ added.components).length := by
    rw [List.length_append]
    exact Nat.lt_add_of_pos_right (List.length_pos_of_ne_nil hne)
  have hcount := Operator.partCount_of_simplify h
  have hcombines := combines kept added
  generalize kept.combine added = g at h hcount hcombines
  -- Only points can be as many as before, since equal neighbours among them are dropped.
  cases hcombines with
  | @polygons ps parts_eq =>
    rw [parts_eq] at hmore
    exact absurd hcount hmore.ne
  | mixed => exact absurd hcount hmore.ne
  | @points all parts_eq =>
    rw [Operator.simplify_ofPoints] at h
    cases h
    rw [components_ofPoints] at parts_eq
    obtain ⟨ps, qs, rfl, hps, hqs⟩ := List.append_eq_map_iff.1 parts_eq
    have hinjective : Function.Injective point := fun _ _ h => point.inj h
    have hsame : dedupNeighbours (ps ++ qs) = ps := (hinjective.list_map hps).symm
    obtain ⟨hdistinct, hrepeats⟩ := dedupNeighbours_append_eq_left_iff.1 hsame
    refine .points (congrArg ofPoints hsame) hqs.symm ?_ hdistinct hrepeats
    rintro rfl
    exact hne hqs.symm

/-- Parts that make no valid union of boxes stay as they are. -/
private theorem validOr_of_unboxed {g : Geometry}
    (h : ¬(g.HasSolidPart ∧ g.partEnvelopes.isValid = true)) :
    Operator.validOr g g.partEnvelopes = g := by
  by_cases hsolid : g.HasSolidPart
  · rw [Operator.validOr, if_neg fun hvalid => h ⟨hsolid, hvalid⟩]
  · rw [partEnvelopes_eq_self hsolid, Operator.validOr_self]

/-- Joined to a location, another one leaves it as it is exactly if the location takes it up. -/
theorem joined_eq_self_iff :
    Operator.joinedLocation.result? t (kept.combine added) = some kept ↔ kept.TakesUp t added := by
  rw [Operator.result?_joinedLocation]
  constructor
  · intro h
    by_cases hboxed : (kept.combine added).HasSolidPart ∧
        (kept.combine added).partEnvelopes.isValid = true
    · rw [Operator.validOr, if_pos hboxed.2] at h
      exact .boxes hboxed.1 hboxed.2 h
    · rw [validOr_of_unboxed hboxed] at h
      by_cases hempty : added.components = []
      · exact .nothing hempty hboxed h
      · exact takesUp_of_unboxed hempty h
  · intro h
    cases h with
    | boxes solid valid union_eq => rw [Operator.validOr, if_pos valid, union_eq]
    | @points ps qs kept_eq added_eq ne_nil distinct repeats =>
      have hparts : kept.components ++ added.components = (ps ++ qs).map point := by
        rw [kept_eq, added_eq, components_ofPoints, List.map_append]
      rw [combine_points hparts (List.append_ne_nil_of_right_ne_nil ps ne_nil),
        dedupNeighbours_append_eq_left_iff.2 ⟨distinct, repeats⟩,
        partEnvelopes_eq_self (not_hasSolidPart_ofPoints ps), Operator.validOr_self,
        Operator.simplify_ofPoints, kept_eq]
    | nothing empty unboxed same => rw [validOr_of_unboxed unboxed, same]

end Geometry

end StreamCatalog
