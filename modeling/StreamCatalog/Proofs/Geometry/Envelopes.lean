import StreamCatalog.Proofs.Geometry.BoxUnion

/-!
# What the bounding boxes of parts cover

Where it takes effect, `Operator.partEnvelopes` gives a geometry that covers the solid boxes of parts
and the flat boxes that meet none of them (`Geometry.mem_ground_partEnvelopes_iff`). So no part is lost but one
whose box is a line that meets a solid box: of that remains what other boxes cover
(`Operator.partEnvelopes_ground`).
-/

namespace StreamCatalog

open Binary64 (value)
open Plane

/-! ## Flat boxes -/

namespace Box

variable {b : Box}

theorem IsProper.place_eq_iff (h : b.IsProper) :
    (b.low.place = b.high.place) ↔
      ¬value b.low.x < value b.high.x ∧ ¬value b.low.y < value b.high.y := by
  obtain ⟨hx, hy⟩ := Coord.place_le_iff.1 h.low_le_high
  rw [not_lt, not_lt, Coord.place, Coord.place, Prod.ext_iff]
  exact ⟨fun heq => ⟨heq.1.ge, heq.2.ge⟩, fun hle => ⟨hx.antisymm hle.1, hy.antisymm hle.2⟩⟩

/-- A point of a box is a box that meets it. -/
theorem IsProper.place_mem_ground_iff (h : b.IsProper) {c : Coord} (hc : c.isFinite = true) :
    c.place ∈ b.ground ↔ (Box.mk c c).meets b = true := by
  have hpoint : (Box.mk c c).IsProper := ⟨hc, hc, le_rfl⟩
  rw [hpoint.meets_iff h, mem_ground_iff, Coord.place]
  tauto

/-- A box with an extent on one axis only. -/
def IsLine (b : Box) : Prop := b.isSolid = false ∧ b.low.place ≠ b.high.place

/-- What a box is as a geometry, by its extent. -/
theorem IsProper.toGeometry_cases (h : b.IsProper) :
    (b.isSolid = true ∧ b.toGeometry = .polygon b.toPolygon) ∨
      (b.isSolid = false ∧ b.low.place = b.high.place ∧ b.toGeometry = .point b.low) ∨
      (b.IsLine ∧ b.toGeometry = .lineString [b.low, b.high]) := by
  have hlow := Coord.isFinite_iff.1 h.low_isFinite
  have hhigh := Coord.isFinite_iff.1 h.high_isFinite
  have hwidth : (0.0 : Float) < b.width ↔ value b.low.x < value b.high.x := by
    rw [width, Binary64.zero_lt_sub_iff hhigh.1 hlow.1, Binary64.value_lt_iff hlow.1 hhigh.1]
  have hheight : (0.0 : Float) < b.height ↔ value b.low.y < value b.high.y := by
    rw [height, Binary64.zero_lt_sub_iff hhigh.2 hlow.2, Binary64.value_lt_iff hlow.2 hhigh.2]
  rw [IsLine, ne_eq, h.place_eq_iff, ← hwidth, ← hheight, isSolid, toGeometry, toPolygon]
  by_cases hw : (0.0 : Float) < b.width <;> by_cases hh : (0.0 : Float) < b.height <;>
    simp [hw, hh]

/-- A box has the same points as a geometry. -/
theorem IsProper.ground_toGeometry (h : b.IsProper) : b.toGeometry.ground = b.ground := by
  obtain ⟨hx, hy⟩ := Coord.place_le_iff.1 h.low_le_high
  rcases h.toGeometry_cases with ⟨hsolid, heq⟩ | ⟨-, hplace, heq⟩ | ⟨⟨hflat, -⟩, heq⟩ <;>
    rw [heq, Geometry.ground]
  · exact h.ground_toPolygon hsolid
  · rw [ground, ← hplace, Set.Icc_self]
  · have hpath : path (placed [b.low, b.high]) = segment ℝ b.low.place b.high.place := by
      simp [path, placed]
    rw [hpath]
    have hline : value b.low.x = value b.high.x ∨ value b.low.y = value b.high.y := by
      by_contra hnot
      push Not at hnot
      exact Bool.false_ne_true (hflat.symm.trans
        (h.isSolid_iff.2 ⟨lt_of_le_of_ne hx hnot.1, lt_of_le_of_ne hy hnot.2⟩))
    ext z
    rw [mem_ground_iff, Coord.place, Coord.place]
    rcases hline with heq | heq
    · rw [heq, segment_vertical, Set.uIcc_of_le hy]
      simp only [Set.mem_ofPred_eq, Set.mem_Icc]
      constructor
      · rintro ⟨h1, h2, h3⟩
        exact ⟨⟨h1.ge, h2⟩, h1.le, h3⟩
      · rintro ⟨⟨h1, h2⟩, h3, h4⟩
        exact ⟨h3.antisymm h1, h2, h4⟩
    · rw [heq, segment_horizontal, Set.uIcc_of_le hx]
      simp only [Set.mem_ofPred_eq, Set.mem_Icc]
      constructor
      · rintro ⟨⟨h1, h2⟩, h3⟩
        exact ⟨⟨h1, h3.ge⟩, h2, h3.le⟩
      · rintro ⟨⟨h1, h2⟩, h3, h4⟩
        exact ⟨⟨h1, h3⟩, h4.antisymm h2⟩

end Box

/-! ## The parts of the result -/

namespace Geometry

variable {g : Geometry} {b : Box} {z : ℝ × ℝ}

/-- The bounding boxes of the parts that have an extent on both axes. -/
def solidBoxes (g : Geometry) : List Box := (g.components.filterMap box?).filter Box.isSolid

/-- The bounding boxes of the parts that have not. -/
def flatBoxes (g : Geometry) : List Box := (g.components.filterMap box?).filter fun b => !b.isSolid

/-- The flat boxes that meet no solid box. -/
def looseBoxes (g : Geometry) : List Box := g.flatBoxes.filter fun b => !g.solidBoxes.any b.meets

theorem mem_solidBoxes_iff : b ∈ g.solidBoxes ↔
    (∃ part ∈ g.components, part.box? = some b) ∧ b.isSolid = true := by
  rw [solidBoxes, List.mem_filter, List.mem_filterMap]

theorem mem_flatBoxes_iff : b ∈ g.flatBoxes ↔
    (∃ part ∈ g.components, part.box? = some b) ∧ b.isSolid = false := by
  rw [flatBoxes, List.mem_filter, List.mem_filterMap, Bool.not_eq_true']

theorem mem_looseBoxes_iff :
    b ∈ g.looseBoxes ↔ b ∈ g.flatBoxes ∧ ∀ c ∈ g.solidBoxes, b.meets c = false := by
  rw [looseBoxes, List.mem_filter, Bool.not_eq_true', List.any_eq_false]
  exact and_congr_right fun _ => forall₂_congr fun c _ => Bool.eq_false_iff.symm

theorem solidBoxes_eq_nil_iff : g.solidBoxes = [] ↔ ¬g.HasSolidPart := by
  rw [List.eq_nil_iff_forall_not_mem, HasSolidPart]
  simp only [mem_solidBoxes_iff]
  constructor
  · rintro h ⟨part, hpart, b, hbox, hsolid⟩
    exact h b ⟨⟨part, hpart, hbox⟩, hsolid⟩
  · rintro h b ⟨⟨part, hpart, hbox⟩, hsolid⟩
    exact h ⟨part, hpart, b, hbox, hsolid⟩

/-- Several parts, some of them with an area, whose boxes make a valid geometry. -/
structure IsBoxed (g : Geometry) : Prop where
  /-- There are several parts. -/
  several : 1 < g.partCount
  /-- Some part has a solid box. -/
  solid : g.HasSolidPart
  /-- The boxes make a valid geometry. -/
  valid : g.partEnvelopes.isValid = true

/-- The parts of the result are the polygons of the union and the flat boxes that are kept. -/
theorem components_partEnvelopes (hseveral : 1 < g.partCount) (hsolid : g.HasSolidPart) :
    g.partEnvelopes.components =
      (Box.union g.solidBoxes).map polygon ++ g.looseBoxes.map Box.toGeometry := by
  have hne : ((g.components.filterMap box?).filter Box.isSolid).isEmpty = false :=
    List.isEmpty_eq_false_iff.2 fun h => solidBoxes_eq_nil_iff.1 h hsolid
  have hloose : ((g.components.filterMap box?).filter (not ∘ Box.isSolid)).filter
      (fun b => !((g.components.filterMap box?).filter Box.isSolid).any b.meets) = g.looseBoxes :=
    rfl
  rw [partEnvelopes, if_neg (not_le.2 hseveral)]
  simp only [List.partition_eq_filter_filter, hne, GeometryKernel.union?_eq, hloose,
    Bool.false_eq_true, if_false]
  rw [← solidBoxes]
  generalize Box.union g.solidBoxes = ps
  generalize g.looseBoxes = bs
  rcases ps with _ | ⟨p, _ | ⟨q, ps⟩⟩ <;> rcases bs with _ | ⟨b, bs⟩ <;> simp [components]

theorem isProper_of_mem_boxes (hg : g.isValid = true) {part : Geometry} (hpart : part ∈ g.components)
    (hbox : part.box? = some b) : b.IsProper ∧ part.ground ⊆ b.ground := by
  obtain ⟨c, hc, hproper, hground⟩ := exists_box (((isValid_iff_components g).1 hg).2 part hpart)
  cases hbox.symm.trans hc
  exact ⟨hproper, hground⟩

theorem areSolid_solidBoxes (hg : g.isValid = true) : Box.AreSolid g.solidBoxes := by
  intro b hb
  obtain ⟨⟨part, hpart, hbox⟩, hsolid⟩ := mem_solidBoxes_iff.1 hb
  exact ⟨(isProper_of_mem_boxes hg hpart hbox).1, hsolid⟩

theorem isProper_of_mem_flatBoxes (hg : g.isValid = true) (hb : b ∈ g.flatBoxes) : b.IsProper := by
  obtain ⟨⟨part, hpart, hbox⟩, -⟩ := mem_flatBoxes_iff.1 hb
  exact (isProper_of_mem_boxes hg hpart hbox).1

/-- The result covers the solid boxes and the flat boxes that meet none of them. -/
theorem mem_ground_partEnvelopes_iff (hg : g.isValid = true) (hseveral : 1 < g.partCount)
    (hsolid : g.HasSolidPart) :
    z ∈ g.partEnvelopes.ground ↔ ∃ b ∈ g.solidBoxes ++ g.looseBoxes, z ∈ b.ground := by
  have hunion : (∃ p ∈ Box.union g.solidBoxes, z ∈ (polygon p).ground) ↔ _ :=
    Box.mem_union_iff (areSolid_solidBoxes hg)
  have hloose : ∀ b ∈ g.looseBoxes, b.toGeometry.ground = b.ground := fun b hb =>
    (isProper_of_mem_flatBoxes hg (mem_looseBoxes_iff.1 hb).1).ground_toGeometry
  rw [mem_ground_iff_components, components_partEnvelopes hseveral hsolid]
  simp only [List.mem_append, List.mem_map, or_and_right, exists_or, exists_exists_and_eq_and,
    hunion]
  refine or_congr_right (exists_congr fun b => and_congr_right fun hb => ?_)
  rw [hloose b hb]

end Geometry

/-! ## What is lost -/

namespace Operator

variable {t : Tolerances} {g : Geometry}

theorem apply_partEnvelopes (t : Tolerances) (g : Geometry) :
    partEnvelopes.apply t g = validOr g g.partEnvelopes := by
  rw [apply, result?, Option.getD_some]

theorem apply_partEnvelopes_of_isBoxed (h : g.IsBoxed) :
    partEnvelopes.apply t g = g.partEnvelopes := by
  rw [apply_partEnvelopes, validOr, if_pos h.valid]

theorem apply_partEnvelopes_of_not_isBoxed (h : ¬g.IsBoxed) : partEnvelopes.apply t g = g := by
  rw [apply_partEnvelopes]
  by_cases hseveral : 1 < g.partCount
  · by_cases hsolid : g.HasSolidPart
    · rw [validOr, if_neg fun hvalid => h ⟨hseveral, hsolid, hvalid⟩]
    · rw [Geometry.partEnvelopes_eq_self hsolid, validOr_self]
  · rw [Geometry.partEnvelopes, if_pos (not_lt.1 hseveral), validOr_self]

/-- What the operator covers. Unless several parts, some of them with an area, have boxes that make a valid
geometry, the geometry stays as it is. Else the result covers the boxes of the parts with an area, and
those of the other parts that meet none of them. A part is not covered exactly if its box is
a line that meets the box of a part with an area, and it has a point that no other box
covers. -/
theorem partEnvelopes_ground (t : Tolerances) (hg : g.isValid = true) :
    (¬g.IsBoxed → partEnvelopes.apply t g = g) ∧
    (g.IsBoxed → ∀ z, z ∈ (partEnvelopes.apply t g).ground ↔
      ∃ b ∈ g.solidBoxes ++ g.looseBoxes, z ∈ b.ground) ∧
    ∀ part ∈ g.components, ∃ b, part.box? = some b ∧ part.ground ⊆ b.ground ∧
      (¬part.ground ⊆ (partEnvelopes.apply t g).ground ↔
        g.IsBoxed ∧ b.IsLine ∧ (∃ c ∈ g.solidBoxes, (b.ground ∩ c.ground).Nonempty) ∧
          ∃ z ∈ part.ground, ∀ c ∈ g.solidBoxes ++ g.looseBoxes, z ∉ c.ground) := by
  have hcovered : g.IsBoxed → ∀ z, z ∈ (partEnvelopes.apply t g).ground ↔
      ∃ b ∈ g.solidBoxes ++ g.looseBoxes, z ∈ b.ground := by
    intro hboxed z
    rw [apply_partEnvelopes_of_isBoxed hboxed]
    exact Geometry.mem_ground_partEnvelopes_iff hg hboxed.several hboxed.solid
  refine ⟨apply_partEnvelopes_of_not_isBoxed, hcovered, fun part hpart => ?_⟩
  obtain ⟨b, hbox, hproper, hground⟩ := Geometry.exists_box
    (((Geometry.isValid_iff_components g).1 hg).2 part hpart)
  refine ⟨b, hbox, hground, ?_⟩
  rw [Set.not_subset]
  constructor
  · rintro ⟨z, hz, hlost⟩
    have hboxed : g.IsBoxed := by
      by_contra hnot
      rw [apply_partEnvelopes_of_not_isBoxed hnot] at hlost
      exact hlost (Geometry.mem_ground_iff_components.2 ⟨part, hpart, hz⟩)
    rw [hcovered hboxed] at hlost
    push Not at hlost
    have hnot : b ∉ g.solidBoxes ++ g.looseBoxes := fun hmem => hlost b hmem (hground hz)
    rw [List.mem_append, not_or] at hnot
    have hflat : b.isSolid = false :=
      Bool.eq_false_iff.2 fun hsolid => hnot.1 (Geometry.mem_solidBoxes_iff.2 ⟨⟨part, hpart, hbox⟩, hsolid⟩)
    obtain ⟨c, hc, hmeets⟩ : ∃ c ∈ g.solidBoxes, b.meets c = true := by
      by_contra hnone
      push Not at hnone
      exact hnot.2 (Geometry.mem_looseBoxes_iff.2
        ⟨Geometry.mem_flatBoxes_iff.2 ⟨⟨part, hpart, hbox⟩, hflat⟩,
          fun c hc => Bool.eq_false_iff.2 (hnone c hc)⟩)
    rw [hproper.meets_iff_inter (Geometry.areSolid_solidBoxes hg c hc).1] at hmeets
    refine ⟨hboxed, ⟨hflat, fun hplace => ?_⟩, ⟨c, hc, hmeets⟩, z, hz, hlost⟩
    -- A box of one point that meets another one is covered by it.
    obtain ⟨w, hw, hwc⟩ := hmeets
    have hpoint : b.ground = {b.low.place} := by rw [Box.ground, ← hplace, Set.Icc_self]
    have hz := hground hz
    rw [hpoint, Set.mem_singleton_iff] at hw hz
    exact hlost c (List.mem_append_left _ hc) (hz.trans hw.symm ▸ hwc)
  · rintro ⟨hboxed, -, -, z, hz, hlost⟩
    refine ⟨z, hz, fun hmem => ?_⟩
    obtain ⟨c, hc, hzc⟩ := (hcovered hboxed z).1 hmem
    exact hlost c hc hzc

/-- A polygon and a line that meets its box. -/
private theorem partEnvelopes_polygon_line (p : Polygon) (ps : List Coord) {b c : Box}
    (hb : Box.around? p.exterior = some b) (hc : Box.around? ps = some c) (hsolid : b.isSolid = true)
    (hflat : c.isSolid = false) (hmeets : c.meets b = true) :
    let g := Geometry.collection [.polygon p, .lineString ps]
    1 < g.partCount ∧ g.solidBoxes = [b] ∧ g.looseBoxes = [] ∧
      g.partEnvelopes = .polygon b.toPolygon := by
  intro g
  have hboxes : g.components.filterMap Geometry.box? = [b, c] := by
    simp [g, Geometry.components, Geometry.box?, hb, hc]
  have hseveral : 1 < g.partCount := Nat.lt_succ_self 1
  refine ⟨hseveral, ?_, ?_, ?_⟩
  · simp [Geometry.solidBoxes, hboxes, hsolid, hflat]
  · simp [Geometry.looseBoxes, Geometry.flatBoxes, Geometry.solidBoxes, hboxes, hsolid, hflat,
      hmeets]
  · rw [Geometry.partEnvelopes, if_neg (not_le.2 hseveral), hboxes]
    simp [List.partition_eq_filter_filter, hsolid, hflat, hmeets, Box.union, Box.clusters,
      Box.addToClusters, Box.outline, Box.toPolygon]

private def unitSquare : Box := ⟨⟨0, 0⟩, ⟨1, 1⟩⟩

/-- A line that touches a square is lost, but for the end where it does. -/
theorem partEnvelopes_ground_touching :
    let line := Geometry.lineString [⟨1, 0.5⟩, ⟨2, 0.5⟩]
    let g := Geometry.collection [.polygon unitSquare.toPolygon, line]
    g.isValid = true ∧ ¬line.ground ⊆ (partEnvelopes.apply .standard g).ground := by
  intro line g
  have hvalid : g.isValid = true := by decide +kernel
  obtain ⟨hseveral, hsolid, hloose, hresult⟩ := partEnvelopes_polygon_line
    unitSquare.toPolygon [⟨1, 0.5⟩, ⟨2, 0.5⟩] (b := unitSquare)
    (c := ⟨⟨1, 0.5⟩, ⟨2, 0.5⟩⟩) (by decide +kernel) (by decide +kernel) (by decide +kernel)
    (by decide +kernel) (by decide +kernel)
  obtain ⟨-, -, hparts⟩ := partEnvelopes_ground .standard hvalid
  have hline : line ∈ g.components := List.mem_cons_of_mem _ List.mem_cons_self
  obtain ⟨b, hbox, -, hlost⟩ := hparts line hline
  have hproper := (Geometry.isProper_of_mem_boxes hvalid hline hbox).1
  obtain rfl : b = ⟨⟨1, 0.5⟩, ⟨2, 0.5⟩⟩ := Option.some.inj (hbox.symm.trans (by decide +kernel))
  have hsquare : unitSquare.IsProper :=
    (Geometry.areSolid_solidBoxes hvalid unitSquare (hsolid ▸ List.mem_singleton_self _)).1
  have hend : (⟨2, 0.5⟩ : Coord).place ∉ unitSquare.ground := by
    rw [hsquare.place_mem_ground_iff (by decide +kernel)]
    decide +kernel
  have hplace : (⟨1, 0.5⟩ : Coord).place ≠ (⟨2, 0.5⟩ : Coord).place := fun heq =>
    absurd ((Binary64.value_eq_iff (by decide +kernel) (by decide +kernel)).1 (congrArg Prod.fst heq))
      (by decide +kernel)
  refine ⟨hvalid, hlost.2 ⟨⟨hseveral, ?_, ?_⟩, ⟨by decide +kernel, hplace⟩, ?_, ?_⟩⟩
  · exact ⟨_, List.mem_cons_self, unitSquare, by decide +kernel, by decide +kernel⟩
  · rw [hresult]
    decide +kernel
  · refine ⟨unitSquare, hsolid ▸ List.mem_singleton_self _, ?_⟩
    exact (hproper.meets_iff_inter hsquare).1 (by decide +kernel)
  · refine ⟨_, ⟨_, List.mem_cons_self, right_mem_segment ℝ _ _⟩, ?_⟩
    rw [hsolid, hloose]
    exact List.forall_mem_singleton.2 hend

/-- A line that begins in a square and leaves it is lost, and its end is in no part of what is left. -/
theorem partEnvelopes_loses_line :
    let line := Geometry.lineString [⟨0.5, 0.5⟩, ⟨5, 0.5⟩]
    let g := Geometry.collection [.polygon unitSquare.toPolygon, line]
    g.isValid = true ∧ line ∈ g.components ∧
      partEnvelopes.apply .standard g = .polygon unitSquare.toPolygon ∧
      ∃ z ∈ line.ground, z ∉ (partEnvelopes.apply .standard g).ground := by
  intro line g
  have hvalid : g.isValid = true := by decide +kernel
  obtain ⟨hseveral, hsolid, -, hresult⟩ := partEnvelopes_polygon_line
    unitSquare.toPolygon [⟨0.5, 0.5⟩, ⟨5, 0.5⟩] (b := unitSquare)
    (c := ⟨⟨0.5, 0.5⟩, ⟨5, 0.5⟩⟩) (by decide +kernel) (by decide +kernel) (by decide +kernel)
    (by decide +kernel) (by decide +kernel)
  have happly : partEnvelopes.apply .standard g = .polygon unitSquare.toPolygon := by
    rw [apply_partEnvelopes, hresult, validOr, if_pos (by decide +kernel)]
  have hsquare := Geometry.areSolid_solidBoxes hvalid unitSquare (hsolid ▸ List.mem_singleton_self _)
  refine ⟨hvalid, List.mem_cons_of_mem _ List.mem_cons_self, happly, (⟨5, 0.5⟩ : Coord).place,
    ⟨_, List.mem_cons_self, right_mem_segment ℝ _ _⟩, ?_⟩
  rw [happly, Geometry.ground, hsquare.1.ground_toPolygon hsquare.2,
    hsquare.1.place_mem_ground_iff (by decide +kernel)]
  decide +kernel

end Operator

end StreamCatalog
