import StreamCatalog.Chunk.ParentUpdate
import StreamCatalog.Geometry.Footprint

/-!
# Validity of combined geometries

A geometry is valid when it has components and each of them is valid
(`Geometry.isValid_iff_components`). So two valid geometries are valid when they
are put together (`Geometry.isValid_combine`), into whichever kind their parts go.
An operator leads from valid geometries to valid ones, whatever its transformation
gives (`Operator.isValid_apply`), because what is not valid is passed over.
-/

namespace StreamCatalog

-- Coordinates are equal when they have the same bits.
deriving instance DecidableEq for Coord, Polygon, Box

/-- A box as a polygon. -/
def Box.toPolygon (b : Box) : Polygon := ⟨b.ring, []⟩

/-- The first of a run of equal neighbours is kept. -/
theorem dedupNeighbours_ne_nil {α : Type} [BEq α] {xs : List α} (h : xs ≠ []) :
    dedupNeighbours xs ≠ [] := by
  cases xs with
  | nil => exact absurd rfl h
  | cons x xs =>
    rw [dedupNeighbours, List.foldr_cons]
    split <;> exact List.cons_ne_nil _ _

theorem mem_of_mem_dedupNeighbours {α : Type} [BEq α] {xs : List α} {x : α}
    (h : x ∈ dedupNeighbours xs) : x ∈ xs := by
  induction xs with
  | nil => exact h
  | cons y ys ih =>
    rw [dedupNeighbours, List.foldr_cons] at h
    rw [List.mem_cons]
    split at h
    · exact (List.mem_cons.1 h).imp_right fun htail => ih (List.mem_of_mem_tail htail)
    · exact (List.mem_cons.1 h).imp_right ih

namespace Geometry

theorem coordsOfParts_eq (gs : List Geometry) : coordsOfParts gs = gs.flatMap coords := by
  induction gs with
  | nil => rfl
  | cons g gs ih => rw [coordsOfParts, ih, List.flatMap_cons]

theorem areComplete_eq (gs : List Geometry) : areComplete gs = gs.all isComplete := by
  induction gs with
  | nil => rfl
  | cons g gs ih => rw [areComplete, ih, List.all_cons]

/-! ## Geometries of several parts -/

theorem flatMap_coords_components (g : Geometry) : g.components.flatMap coords = g.coords := by
  cases g with
  | multiPoint ps => simp only [components, coords, List.flatMap_map, List.flatMap_singleton']
  | multiLineString ls => simp only [components, coords, List.flatMap_map, List.flatMap_id']
  | multiPolygon ps => simp only [components, coords, List.flatMap_map]
  | collection gs => rw [components, coords, coordsOfParts_eq]
  | _ => exact List.flatMap_singleton _ _

theorem isComplete_eq_components (g : Geometry) :
    g.isComplete = (!g.components.isEmpty && g.components.all isComplete) := by
  cases g with
  | multiPoint ps => simp [components, isComplete]
  | multiLineString ls => simp [components, isComplete, Function.comp_def]
  | multiPolygon ps => simp [components, isComplete, Function.comp_def]
  | collection gs => rw [components, isComplete, areComplete_eq]
  | _ => simp only [components, List.isEmpty_cons, Bool.not_false, List.all_cons, List.all_nil,
      Bool.and_true, Bool.true_and]

/-- A geometry is valid when it has components and all of them are valid. -/
theorem isValid_iff_components (g : Geometry) :
    g.isValid = true ↔ g.components ≠ [] ∧ ∀ part ∈ g.components, part.isValid = true := by
  rw [isValid, ← flatMap_coords_components, isComplete_eq_components]
  simp only [isValid, Bool.and_eq_true, Bool.not_eq_true', List.all_eq_true, List.mem_flatMap,
    List.isEmpty_eq_false_iff]
  constructor
  · rintro ⟨hfinite, hne, hcomplete⟩
    exact ⟨hne, fun part hpart => ⟨fun c hc => hfinite c ⟨part, hpart, hc⟩, hcomplete part hpart⟩⟩
  · rintro ⟨hne, hall⟩
    refine ⟨?_, hne, fun part hpart => (hall part hpart).2⟩
    rintro c ⟨part, hpart, hc⟩
    exact (hall part hpart).1 c hc

/-! ## Two geometries put together -/

theorem eq_polygon_of_polygon? {g : Geometry} {p : Polygon} (h : g.polygon? = some p) :
    g = polygon p := by
  cases g <;> cases h
  rfl

theorem eq_point_of_point? {g : Geometry} {p : Coord} (h : g.point? = some p) : g = point p := by
  cases g <;> cases h
  rfl

/-- Where all items have an image, these are the images. -/
theorem eq_map_of_mapM {α β : Type} {f : α → Option β} {make : β → α}
    (hmake : ∀ {a b}, f a = some b → a = make b) {as : List α} {bs : List β}
    (h : as.mapM f = some bs) : as = bs.map make := by
  induction as generalizing bs with
  | nil =>
    cases h
    rfl
  | cons a as ih =>
    rw [List.mapM_cons] at h
    obtain ⟨b, hb, h⟩ := Option.bind_eq_some_iff.1 h
    obtain ⟨rest, hrest, h⟩ := Option.bind_eq_some_iff.1 h
    cases h
    rw [List.map_cons, ← hmake hb, ← ih hrest]

/-- Two valid geometries make a valid one, of whichever kind it is. -/
theorem isValid_combine {a b : Geometry} (ha : a.isValid = true) (hb : b.isValid = true) :
    (a.combine b).isValid = true := by
  rw [isValid_iff_components] at ha hb
  have hne : a.components ++ b.components ≠ [] := List.append_ne_nil_of_left_ne_nil ha.1 _
  have hparts : ∀ part ∈ a.components ++ b.components, part.isValid = true :=
    List.forall_mem_append.2 ⟨ha.2, hb.2⟩
  rw [combine]
  generalize a.components ++ b.components = parts at hne hparts ⊢
  split
  next ps hps =>
    rw [eq_map_of_mapM eq_polygon_of_polygon? hps] at hne hparts
    exact (isValid_iff_components (multiPolygon ps)).2 ⟨hne, hparts⟩
  next ps _ hps =>
    rw [eq_map_of_mapM eq_point_of_point? hps] at hne hparts
    have hdistinct : ∀ p ∈ dedupNeighbours ps, (point p).isValid = true :=
      fun p hp => List.forall_mem_map.1 hparts p (mem_of_mem_dedupNeighbours hp)
    split
    next p hsingle =>
      rw [hsingle] at hdistinct
      exact hdistinct p (List.mem_singleton_self p)
    next =>
      have hne : dedupNeighbours ps ≠ [] := dedupNeighbours_ne_nil (mt List.map_eq_nil_iff.2 hne)
      exact (isValid_iff_components (multiPoint (dedupNeighbours ps))).2
        ⟨mt List.map_eq_nil_iff.1 hne, List.forall_mem_map.2 hdistinct⟩
  next => exact (isValid_iff_components (collection parts)).2 ⟨hne, hparts⟩

end Geometry

/-! ## Operators -/

namespace Operator

variable {t : Tolerances} {g out : Geometry}

/-- What comes in is valid, or what comes out is. -/
theorem isValid_validOr (hg : g.isValid = true) : (validOr g out).isValid = true := by
  rw [validOr]
  split
  next hout => exact hout
  next => exact hg

private theorem isValid_of_map_validOr {found : Option Geometry} (hg : g.isValid = true)
    (h : found.map (validOr g) = some out) : out.isValid = true := by
  obtain ⟨image, -, rfl⟩ := Option.map_eq_some_iff.1 h
  exact isValid_validOr hg

variable [GeometryKernel]

mutual

/-- An operator that has a result for a valid geometry has a valid one. -/
theorem isValid_of_result? : ∀ {op : Operator} {g out : Geometry}, g.isValid = true →
    op.result? t g = some out → out.isValid = true
  | identity, _, _, hg, h => by
    cases h
    exact hg
  | normalize, _, _, hg, h | envelope, _, _, hg, h | partEnvelopes, _, _, hg, h => by
    cases h
    exact isValid_validOr hg
  | simplify, _, _, hg, h | convexHull, _, _, hg, h | buffer, _, _, hg, h =>
    isValid_of_map_validOr hg h
  | chain _, _, _, hg, h => isValid_of_chainResult? hg h

/-- So do operators one after the other. -/
theorem isValid_of_chainResult? : ∀ {ops : List Operator} {g out : Geometry}, g.isValid = true →
    chainResult? t ops g = some out → out.isValid = true
  | [], _, _, hg, h => by
    cases h
    exact hg
  | _ :: _, _, _, hg, h => by
    obtain ⟨between, hbetween, h⟩ := Option.bind_eq_some_iff.1 h
    exact isValid_of_chainResult? (isValid_of_result? hg hbetween) h

end

/-- An operator keeps geometries valid. -/
theorem isValid_apply (op : Operator) (hg : g.isValid = true) : (op.apply t g).isValid = true := by
  rw [apply]
  cases hresult : op.result? t g with
  | none => exact hg
  | some out => exact isValid_of_result? hg hresult

end Operator

/-! ## The location of a run of samples -/

namespace Telemetry

variable {op : Operator} {t : Tolerances} {samples : List Sample}

/-- A footprint is valid. -/
theorem Sample.isValid_footprint {s : Sample} {p : Polygon} (h : s.footprint = some p) :
    (Geometry.polygon p).isValid = true := by
  rw [footprint] at h
  obtain ⟨ps, -, h⟩ := Option.bind_eq_some_iff.1 h
  dsimp only at h
  split at h
  next hvalid =>
    cases h
    exact hvalid
  next => cases h

variable [GeometryKernel]

/-- The location of a run of samples is valid, whatever the samples say. -/
theorem isValid_location {g : Geometry} (h : (summarize op t samples).location = some g) :
    g.isValid = true := by
  rw [summarize] at h
  obtain ⟨raw, hraw, rfl⟩ := Option.map_eq_some_iff.1 h
  exact op.isValid_apply (Option.filter_eq_some_iff.1 hraw).2

/-- A run of samples with a footprint among them has a location. -/
theorem isSome_location {s : Sample} (hs : s ∈ samples) (hfootprint : s.footprint.isSome) :
    (summarize op t samples).location.isSome := by
  obtain ⟨p, hp⟩ := Option.isSome_iff_exists.1 hfootprint
  have hmem : p ∈ samples.filterMap Sample.footprint := List.mem_filterMap.2 ⟨s, hs, hp⟩
  have hne : samples.filterMap Sample.footprint ≠ [] := List.ne_nil_of_mem hmem
  have hraw : rawLocation samples = some (.multiPolygon (samples.filterMap Sample.footprint)) := by
    rw [rawLocation]
    exact if_neg (by simpa using hne)
  have hvalid : (Geometry.multiPolygon (samples.filterMap Sample.footprint)).isValid = true := by
    refine (Geometry.isValid_iff_components _).2 ⟨mt List.map_eq_nil_iff.1 hne, ?_⟩
    refine List.forall_mem_map.2 fun q hq => ?_
    obtain ⟨s', -, hs'⟩ := List.mem_filterMap.1 hq
    exact s'.isValid_footprint hs'
  rw [summarize, hraw, Option.filter_some_pos hvalid]
  rfl

end Telemetry

end StreamCatalog
