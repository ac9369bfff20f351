import StreamCatalog.Proofs.Geometry.Envelopes

/-!
# Applying the boxes of parts again

`Operator.partEnvelopes` gives parts that do not adjoin each other, but a part that is made of several
boxes need not be a box. Applied to its own result, the operator gives the same parts exactly if each
part fills its bounding box, or it does not take effect again (`Operator.partEnvelopes_again`).
-/

namespace StreamCatalog

open Binary64 (value)
open Plane

/-! ## Lists of sets -/

theorem forall_of_countP_eq {ι : Type} {l : List ι} {p q : ι → Bool}
    (himp : ∀ i ∈ l, p i = true → q i = true) (hcount : l.countP p = l.countP q) :
    ∀ i ∈ l, q i = true → p i = true := by
  induction l with
  | nil => nofun
  | cons i l ih =>
    obtain ⟨hfirst, hrest⟩ := List.forall_mem_cons.1 himp
    have hle := List.countP_mono_left hrest
    rw [List.countP_cons, List.countP_cons] at hcount
    refine List.forall_mem_cons.2 ⟨fun hq => ?_, ih hrest ?_⟩
    · by_contra hp
      rw [if_pos hq, if_neg hp] at hcount
      omega
    · by_cases hq : q i = true <;> by_cases hp : p i = true <;> simp_all

/-- Functions of which one is below the other, with the same values up to order, are equal. -/
theorem eq_of_le_of_perm {ι α : Type} [PartialOrder α] {l : List ι} {f g : ι → α}
    (hle : ∀ i ∈ l, f i ≤ g i) (hperm : (l.map f).Perm (l.map g)) : ∀ i ∈ l, f i = g i := by
  classical
  intro i hi
  have hcount := hperm.countP_eq fun a => decide (g i ≤ a)
  rw [List.countP_map, List.countP_map] at hcount
  refine (hle i hi).antisymm (of_decide_eq_true (forall_of_countP_eq (fun j hj h => ?_) hcount i hi ?_))
  · exact decide_eq_true ((of_decide_eq_true h).trans (hle j hj))
  · exact decide_eq_true le_rfl

theorem length_le_flatten {α : Type} {cs : List (List α)} (hne : ∀ c ∈ cs, c ≠ []) :
    cs.length ≤ cs.flatten.length := by
  induction cs with
  | nil => exact le_rfl
  | cons c cs ih =>
    obtain ⟨hfirst, hrest⟩ := List.forall_mem_cons.1 hne
    have hpos := List.length_pos_of_ne_nil hfirst
    have hlen := ih hrest
    rw [List.flatten_cons, List.length_append, List.length_cons]
    omega

/-- As many lists as they have elements, none of them empty, have one each. -/
theorem eq_map_singleton {α : Type} {cs : List (List α)} (hne : ∀ c ∈ cs, c ≠ [])
    (hlen : cs.flatten.length ≤ cs.length) : cs = cs.flatten.map ([·]) := by
  induction cs with
  | nil => rfl
  | cons c cs ih =>
    obtain ⟨hfirst, hrest⟩ := List.forall_mem_cons.1 hne
    have hmin := length_le_flatten hrest
    rw [List.flatten_cons, List.length_append, List.length_cons] at hlen
    rcases c with _ | ⟨a, _ | ⟨b, c⟩⟩
    · exact absurd rfl hfirst
    · rw [List.flatten_cons, List.singleton_append, List.map_cons,
        ← ih hrest (by rw [List.length_singleton] at hlen; omega)]
    · rw [List.length_cons, List.length_cons] at hlen
      omega

/-! ## Boxes that adjoin each other -/

namespace Box

variable {a b : Box} {as bs boxes : List Box}

theorem IsProper.isSolid_of_subset (ha : a.IsProper) (hb : b.IsProper) (hsub : a.ground ⊆ b.ground)
    (hsolid : a.isSolid = true) : b.isSolid = true := by
  obtain ⟨hwidth, hheight⟩ := ha.isSolid_iff.1 hsolid
  obtain ⟨hlow, -⟩ := hsub ha.low_mem
  obtain ⟨-, hhigh⟩ := hsub ha.high_mem
  obtain ⟨hlx, hly⟩ := Coord.place_le_iff.1 hlow
  obtain ⟨hhx, hhy⟩ := Coord.place_le_iff.1 hhigh
  exact hb.isSolid_iff.2 ⟨hlx.trans_lt (hwidth.trans_le hhx), hly.trans_lt (hheight.trans_le hhy)⟩

/-- A number between two others that is on no end of finitely many ranges: those that have it have it
inside. -/
theorem exists_inside {x y : ℝ} (h : x < y) (bs : List Box) (f g : Box → ℝ) :
    ∃ v, (x < v ∧ v < y) ∧ ∀ b ∈ bs, f b ≤ v → v ≤ g b → f b < v ∧ v < g b := by
  obtain ⟨v, hv, hnot⟩ := (Set.Ioo_infinite h).exists_notMem_finset
    (bs.flatMap fun b => [f b, g b]).toFinset
  have hends : ∀ b ∈ bs, f b ≠ v ∧ g b ≠ v := by
    intro b hb
    constructor <;> rintro rfl <;>
      exact hnot (List.mem_toFinset.2 (List.mem_flatMap.2 ⟨b, hb, by simp⟩))
  exact ⟨v, hv, fun b hb hle hle' =>
    ⟨lt_of_le_of_ne hle (hends b hb).1, lt_of_le_of_ne hle' (hends b hb).2.symm⟩⟩

/-- Boxes adjoin each other that have a common point inside of them on one axis. -/
theorem IsProper.adjoins_of_mem (ha : a.IsProper) (hb : b.IsProper) {z : ℝ × ℝ} (hza : z ∈ a.ground)
    (hzb : z ∈ b.ground)
    (hinside : ((value a.low.x < z.1 ∧ z.1 < value a.high.x) ∧
        value b.low.x < z.1 ∧ z.1 < value b.high.x) ∨
      ((value a.low.y < z.2 ∧ z.2 < value a.high.y) ∧
        value b.low.y < z.2 ∧ z.2 < value b.high.y)) : a.adjoins b = true := by
  refine (ha.adjoins_iff hb).2 ⟨(ha.meets_iff_inter hb).2 ⟨z, hza, hzb⟩, ?_⟩
  exact hinside.imp (fun h => ⟨h.1.1.trans h.2.2, h.2.1.trans h.1.2⟩)
    fun h => ⟨h.1.1.trans h.2.2, h.2.1.trans h.1.2⟩

/-- If two solid boxes adjoin each other that other boxes cover, then some of those do. -/
theorem exists_adjoins (ha : a.IsProper ∧ a.isSolid = true) (hb : b.IsProper ∧ b.isSolid = true)
    (has : ∀ c ∈ as, c.IsProper) (hbs : ∀ c ∈ bs, c.IsProper)
    (hcover : ∀ z ∈ a.ground, ∃ c ∈ as, z ∈ c.ground)
    (hcover' : ∀ z ∈ b.ground, ∃ c ∈ bs, z ∈ c.ground) (hadjoins : a.adjoins b = true) :
    ∃ c ∈ as, ∃ d ∈ bs, c.adjoins d = true := by
  obtain ⟨haw, hah⟩ := ha.1.isSolid_iff.1 ha.2
  obtain ⟨hbw, hbh⟩ := hb.1.isSolid_iff.1 hb.2
  obtain ⟨hmeets, hstrict⟩ := (ha.1.adjoins_iff hb.1).1 hadjoins
  obtain ⟨⟨hx, hx'⟩, hy, hy'⟩ := (ha.1.meets_iff hb.1).1 hmeets
  -- On the axis of the overlap, a common point is taken inside of all boxes that have it.
  rcases hstrict with ⟨hab, hba⟩ | ⟨hab, hba⟩
  · obtain ⟨x, ⟨hlow, hhigh⟩, hinside⟩ := exists_inside (max_lt (lt_min haw hab) (lt_min hba hbw))
      (as ++ bs) (fun c => value c.low.x) (fun c => value c.high.x)
    rw [max_lt_iff] at hlow
    rw [lt_min_iff] at hhigh
    obtain ⟨c, hc, hzc⟩ := hcover (x, max (value a.low.y) (value b.low.y))
      (mem_ground_iff.2 ⟨⟨hlow.1.le, le_max_left _ _⟩, hhigh.1.le, max_le hah.le hy'⟩)
    obtain ⟨d, hd, hzd⟩ := hcover' (x, max (value a.low.y) (value b.low.y))
      (mem_ground_iff.2 ⟨⟨hlow.2.le, le_max_right _ _⟩, hhigh.2.le, max_le hy hbh.le⟩)
    exact ⟨c, hc, d, hd, (has c hc).adjoins_of_mem (hbs d hd) hzc hzd
      (.inl ⟨hinside c (List.mem_append_left _ hc) hzc.1.1 hzc.2.1,
        hinside d (List.mem_append_right _ hd) hzd.1.1 hzd.2.1⟩)⟩
  · obtain ⟨y, ⟨hlow, hhigh⟩, hinside⟩ := exists_inside (max_lt (lt_min hah hab) (lt_min hba hbh))
      (as ++ bs) (fun c => value c.low.y) (fun c => value c.high.y)
    rw [max_lt_iff] at hlow
    rw [lt_min_iff] at hhigh
    obtain ⟨c, hc, hzc⟩ := hcover (max (value a.low.x) (value b.low.x), y)
      (mem_ground_iff.2 ⟨⟨le_max_left _ _, hlow.1.le⟩, max_le haw.le hx', hhigh.1.le⟩)
    obtain ⟨d, hd, hzd⟩ := hcover' (max (value a.low.x) (value b.low.x), y)
      (mem_ground_iff.2 ⟨⟨le_max_right _ _, hlow.2.le⟩, max_le hx hbw.le, hhigh.2.le⟩)
    exact ⟨c, hc, d, hd, (has c hc).adjoins_of_mem (hbs d hd) hzc hzd
      (.inr ⟨hinside c (List.mem_append_left _ hc) hzc.1.2 hzc.2.2,
        hinside d (List.mem_append_right _ hd) hzd.1.2 hzd.2.2⟩)⟩

/-- Boxes none of which adjoins another one are clusters of their own. -/
theorem clusters_of_pairwise (h : boxes.Pairwise fun a b => a.adjoins b = false) :
    clusters boxes = boxes.reverse.map ([·]) := by
  have hfold : ∀ (boxes done : List Box), boxes.Pairwise (fun a b => a.adjoins b = false) →
      (∀ b ∈ boxes, ∀ a ∈ done, a.adjoins b = false) →
      boxes.foldl addToClusters (done.map ([·])) = (boxes.reverse ++ done).map ([·]) := by
    intro boxes
    induction boxes with
    | nil => exact fun _ _ _ => rfl
    | cons b boxes ih =>
      intro done hpairwise hdone
      obtain ⟨hfirst, hrest⟩ := List.pairwise_cons.1 hpairwise
      obtain ⟨hb, hdone⟩ := List.forall_mem_cons.1 hdone
      have hany : ∀ c ∈ done.map ([·]), c.any b.adjoins = false := by
        refine List.forall_mem_map.2 fun a ha => ?_
        rw [List.any_cons, List.any_nil, Bool.or_false, adjoins_comm, hb a ha]
      have hadd : addToClusters (done.map ([·])) b = (b :: done).map ([·]) := by
        rw [addToClusters_eq, List.filter_eq_nil_iff.2 fun c hc => Bool.eq_false_iff.1 (hany c hc),
          List.filter_eq_self.2 fun c hc => by rw [hany c hc]; rfl]
        rfl
      rw [List.foldl_cons, hadd, ih (b :: done) hrest fun c hc => List.forall_mem_cons.2
        ⟨hfirst c hc, hdone c hc⟩, List.reverse_cons, List.append_assoc, List.singleton_append]
  simpa [clusters] using hfold boxes [] h fun _ _ _ ha => absurd ha List.not_mem_nil

end Box

/-! ## The bounding boxes of the result -/

namespace Geometry

variable {g part : Geometry} {b : Box}

/-- The bounding box of a geometry that has points. -/
def boxOf (g : Geometry) : Box := g.box?.getD ⟨⟨0, 0⟩, ⟨0, 0⟩⟩

theorem boxOf_spec (hg : g.isValid = true) :
    g.box? = some g.boxOf ∧ g.boxOf.IsProper ∧ g.ground ⊆ g.boxOf.ground := by
  obtain ⟨b, hbox, hproper, hground⟩ := exists_box hg
  have hb : g.boxOf = b := by rw [boxOf, hbox, Option.getD_some]
  rw [hb]
  exact ⟨hbox, hproper, hground⟩

theorem filterMap_box?_components (hg : g.isValid = true) :
    g.components.filterMap box? = g.components.map boxOf := by
  rw [← List.filterMap_eq_map]
  exact List.filterMap_congr fun part hpart =>
    (boxOf_spec (((isValid_iff_components g).1 hg).2 part hpart)).1

/-- A geometry that covers all of its bounding box. -/
def FillsBox (g : Geometry) : Prop := ∃ b, g.box? = some b ∧ g.ground = b.ground

theorem fillsBox_iff (hg : g.isValid = true) : g.FillsBox ↔ g.ground = g.boxOf.ground := by
  have hbox := (boxOf_spec hg).1
  constructor
  · rintro ⟨b, hb, hground⟩
    rwa [Option.some.inj (hb.symm.trans hbox)] at hground
  · exact fun h => ⟨g.boxOf, hbox, h⟩

/-- Geometries with parts that cover the same, up to their order. -/
def SameParts (g h : Geometry) : Prop := (g.components.map ground).Perm (h.components.map ground)

/-- The bounding box of a flat box covers the same. -/
theorem ground_boxOf_toGeometry (hb : b.IsProper) (hflat : b.isSolid = false) :
    b.toGeometry.boxOf.IsProper ∧ b.toGeometry.boxOf.ground = b.ground := by
  rcases hb.toGeometry_cases with ⟨hsolid, -⟩ | ⟨-, hplace, heq⟩ | ⟨-, heq⟩
  · rw [hflat] at hsolid
    cases hsolid
  · obtain ⟨hproper, hmem, -⟩ := Box.ofCorners_spec hb.low_isFinite hb.low_isFinite
    rw [heq]
    refine ⟨hproper, Set.Subset.antisymm (Box.ground_ofCorners_subset hb.low_mem hb.low_mem) ?_⟩
    exact Box.ground_subset hmem (hplace ▸ hmem)
  · have hfinite : ∀ c ∈ [b.low, b.high], c.isFinite = true := by
      simpa using ⟨hb.low_isFinite, hb.high_isFinite⟩
    obtain ⟨c, hc, hproper, hmem⟩ := Box.exists_around? (List.cons_ne_nil _ _) hfinite
    have hbox : b.toGeometry.boxOf = c := by rw [heq, boxOf, box?, hc, Option.getD_some]
    rw [hbox]
    refine ⟨hproper, Set.Subset.antisymm (Box.ground_around?_subset hc ?_) ?_⟩
    · simpa using ⟨hb.low_mem, hb.high_mem⟩
    · exact Box.ground_subset (hmem _ (by simp)) (hmem _ (by simp))

theorem boxOf_of_mem_looseBoxes (hg : g.isValid = true) (hb : b ∈ g.looseBoxes) :
    (b.IsProper ∧ b.isSolid = false) ∧
      b.toGeometry.boxOf.IsProper ∧ b.toGeometry.boxOf.ground = b.ground := by
  have hmem := (mem_looseBoxes_iff.1 hb).1
  have hproper := isProper_of_mem_flatBoxes hg hmem
  have hflat := (mem_flatBoxes_iff.1 hmem).2
  exact ⟨⟨hproper, hflat⟩, ground_boxOf_toGeometry hproper hflat⟩

/-- The parts of the result: polygons, which have solid boxes, and the flat boxes that are kept. -/
structure HasEnvelopes (g out : Geometry) : Prop where
  /-- The parts. -/
  components_eq : out.components =
    (Box.clusters g.solidBoxes).map (fun c => polygon (Box.outline c)) ++
      g.looseBoxes.map Box.toGeometry
  /-- All of them are valid. -/
  isValid_of_mem : ∀ part ∈ out.components, part.isValid = true
  /-- The outline of a cluster covers its boxes. -/
  mem_outline_iff : ∀ c ∈ Box.clusters g.solidBoxes, ∀ z,
    z ∈ (polygon (Box.outline c)).ground ↔ ∃ b ∈ c, z ∈ b.ground
  /-- The solid boxes are those of the polygons. -/
  solidBoxes_eq : out.solidBoxes =
    (Box.clusters g.solidBoxes).map fun c => (polygon (Box.outline c)).boxOf
  /-- The flat boxes are those that are kept. -/
  flatBoxes_eq : out.flatBoxes = g.looseBoxes.map fun b => b.toGeometry.boxOf

theorem areSolid_of_mem_clusters (hg : g.isValid = true) {c : List Box}
    (hc : c ∈ Box.clusters g.solidBoxes) : Box.AreSolid c := fun b hb =>
  areSolid_solidBoxes hg b
    ((Box.flatten_clusters_perm g.solidBoxes).mem_iff.1 (List.mem_flatten_of_mem hc hb))

theorem hasEnvelopes (hg : g.isValid = true) (h : g.IsBoxed) : HasEnvelopes g g.partEnvelopes := by
  have hclustering := Box.isClustering_clusters g.solidBoxes
  have hsolid := fun c hc => areSolid_of_mem_clusters hg (c := c) hc
  have hcomponents : g.partEnvelopes.components =
      (Box.clusters g.solidBoxes).map (fun c => polygon (Box.outline c)) ++
        g.looseBoxes.map Box.toGeometry := by
    rw [components_partEnvelopes h.several h.solid, Box.union, List.map_map]
    rfl
  have hvalid := ((isValid_iff_components g.partEnvelopes).1 h.valid).2
  have hmem : ∀ c ∈ Box.clusters g.solidBoxes, ∀ z,
      z ∈ (polygon (Box.outline c)).ground ↔ ∃ b ∈ c, z ∈ b.ground := fun c hc z =>
    Box.mem_ground_outline_iff (hsolid c hc) (hclustering.hangs c hc) (hclustering.ne_nil c hc)
  have hpolygon : ∀ c ∈ Box.clusters g.solidBoxes, (polygon (Box.outline c)).boxOf.isSolid = true := by
    intro c hc
    have hpart : polygon (Box.outline c) ∈ g.partEnvelopes.components :=
      hcomponents ▸ List.mem_append_left _ (List.mem_map_of_mem (f := fun c => polygon _) hc)
    obtain ⟨-, hproper, hground⟩ := boxOf_spec (hvalid _ hpart)
    obtain ⟨b, hb⟩ := List.exists_mem_of_ne_nil c (hclustering.ne_nil c hc)
    exact (hsolid c hc b hb).1.isSolid_of_subset hproper
      (fun z hz => hground ((hmem c hc z).2 ⟨b, hb, hz⟩)) (hsolid c hc b hb).2
  have hloose : ∀ b ∈ g.looseBoxes, b.toGeometry.boxOf.isSolid = false := by
    intro b hb
    obtain ⟨⟨hproper, hflat⟩, hproper', hground⟩ := boxOf_of_mem_looseBoxes hg hb
    refine Bool.eq_false_iff.2 fun hsolid => ?_
    rw [hproper'.isSolid_of_subset hproper hground.subset hsolid] at hflat
    cases hflat
  have hboxes : g.partEnvelopes.components.filterMap box? =
      (Box.clusters g.solidBoxes).map (fun c => (polygon (Box.outline c)).boxOf) ++
        g.looseBoxes.map fun b => b.toGeometry.boxOf := by
    rw [filterMap_box?_components h.valid, hcomponents, List.map_append, List.map_map, List.map_map]
    rfl
  refine ⟨hcomponents, hvalid, hmem, ?_, ?_⟩
  · rw [solidBoxes, hboxes, List.filter_append,
      List.filter_eq_self.2 (List.forall_mem_map.2 hpolygon),
      List.filter_eq_nil_iff.2 (List.forall_mem_map.2 fun b hb => Bool.eq_false_iff.1 (hloose b hb)),
      List.append_nil]
  · rw [flatBoxes, hboxes, List.filter_append,
      List.filter_eq_nil_iff.2 (List.forall_mem_map.2 fun c hc => by simp [hpolygon c hc]),
      List.filter_eq_self.2 (List.forall_mem_map.2 fun b hb => by simp [hloose b hb]),
      List.nil_append]

/-! ## The second application -/

variable {out : Geometry}

theorem HasEnvelopes.map_ground (h : HasEnvelopes g out) (hg : g.isValid = true) :
    out.components.map ground =
      (Box.clusters g.solidBoxes).map (fun c => (polygon (Box.outline c)).ground) ++
        g.looseBoxes.map Box.ground := by
  rw [h.components_eq, List.map_append, List.map_map, List.map_map]
  exact congrArg _ (List.map_congr_left fun b hb =>
    (boxOf_of_mem_looseBoxes hg hb).1.1.ground_toGeometry)

theorem HasEnvelopes.map_ground_flatBoxes (h : HasEnvelopes g out) (hg : g.isValid = true) :
    out.flatBoxes.map Box.ground = g.looseBoxes.map Box.ground := by
  rw [h.flatBoxes_eq, List.map_map]
  exact List.map_congr_left fun b hb => (boxOf_of_mem_looseBoxes hg hb).2.2

/-- If there come as many parts out again, then nothing has been joined or dropped. -/
theorem HasEnvelopes.eq_of_length_eq (h : HasEnvelopes g out)
    (hlen : (Box.clusters out.solidBoxes).length + out.looseBoxes.length =
      (Box.clusters g.solidBoxes).length + g.looseBoxes.length) :
    Box.clusters out.solidBoxes = (Box.clusters out.solidBoxes).flatten.map ([·]) ∧
      out.looseBoxes = out.flatBoxes := by
  have hne := (Box.isClustering_clusters out.solidBoxes).ne_nil
  have hjoined := length_le_flatten hne
  have hflatten := (Box.flatten_clusters_perm out.solidBoxes).length_eq
  have hdropped : out.looseBoxes.length ≤ out.flatBoxes.length := List.length_filter_le _ _
  have hpolygons : out.solidBoxes.length = (Box.clusters g.solidBoxes).length := by
    rw [h.solidBoxes_eq, List.length_map]
  have hkept : out.flatBoxes.length = g.looseBoxes.length := by
    rw [h.flatBoxes_eq, List.length_map]
  refine ⟨eq_map_singleton hne (by omega), List.filter_eq_self.2
    (List.length_filter_eq_length_iff.1 ?_)⟩
  rw [← looseBoxes]
  omega

theorem HasEnvelopes.isValid_polygon (h : HasEnvelopes g out) {c : List Box}
    (hc : c ∈ Box.clusters g.solidBoxes) : (polygon (Box.outline c)).isValid = true := by
  refine h.isValid_of_mem _ ?_
  rw [h.components_eq]
  exact List.mem_append_left _ (List.mem_map_of_mem (f := fun c => polygon (Box.outline c)) hc)

/-- The kept boxes fill themselves. -/
theorem HasEnvelopes.forall_fillsBox_iff (h : HasEnvelopes g out) (hg : g.isValid = true) :
    (∀ part ∈ out.components, part.FillsBox) ↔ ∀ c ∈ Box.clusters g.solidBoxes,
      (polygon (Box.outline c)).ground = (polygon (Box.outline c)).boxOf.ground := by
  have hvalid := h.isValid_of_mem
  rw [h.components_eq] at hvalid ⊢
  rw [List.forall_mem_append] at hvalid ⊢
  rw [List.forall_mem_map, List.forall_mem_map] at hvalid ⊢
  constructor
  · rintro ⟨hpolygons, -⟩ c hc
    exact (fillsBox_iff (hvalid.1 c hc)).1 (hpolygons c hc)
  · refine fun hpolygons => ⟨fun c hc => (fillsBox_iff (hvalid.1 c hc)).2 (hpolygons c hc),
      fun b hb => (fillsBox_iff (hvalid.2 b hb)).2 ?_⟩
    obtain ⟨⟨hproper, -⟩, -, hground⟩ := boxOf_of_mem_looseBoxes hg hb
    rw [hproper.ground_toGeometry, hground]

theorem HasEnvelopes.boxOf_polygon (h : HasEnvelopes g out) (hout : out.isValid = true)
    {c : List Box} (hc : c ∈ Box.clusters g.solidBoxes) :
    (polygon (Box.outline c)).boxOf.IsProper ∧ (polygon (Box.outline c)).boxOf.isSolid = true := by
  refine areSolid_solidBoxes hout _ ?_
  rw [h.solidBoxes_eq]
  exact List.mem_map_of_mem (f := fun c => (polygon (Box.outline c)).boxOf) hc

section

variable (hg : g.isValid = true) (h : HasEnvelopes g out) (hout : out.isValid = true)

include hg h hout

/-- If all polygons fill their boxes, then these do not adjoin each other, as the clusters do not. -/
theorem HasEnvelopes.clusters_again (hfills : ∀ c ∈ Box.clusters g.solidBoxes,
      (polygon (Box.outline c)).ground = (polygon (Box.outline c)).boxOf.ground) :
    Box.clusters out.solidBoxes = out.solidBoxes.reverse.map ([·]) := by
  refine Box.clusters_of_pairwise ?_
  have hclustering := Box.isClustering_clusters g.solidBoxes
  have hcover : ∀ c ∈ Box.clusters g.solidBoxes,
      ∀ z ∈ (polygon (Box.outline c)).boxOf.ground, ∃ b ∈ c, z ∈ b.ground :=
    fun c hc z hz => (h.mem_outline_iff c hc z).1 ((hfills c hc).symm ▸ hz)
  rw [h.solidBoxes_eq, List.pairwise_map]
  refine hclustering.pairwise.imp_of_mem fun {c d} hc hd hapart => Bool.eq_false_iff.2 fun hadjoins => ?_
  obtain ⟨a, ha, b, hb, hab⟩ := Box.exists_adjoins (h.boxOf_polygon hout hc) (h.boxOf_polygon hout hd)
    (fun b hb => (areSolid_of_mem_clusters hg hc b hb).1)
    (fun b hb => (areSolid_of_mem_clusters hg hd b hb).1) (hcover c hc) (hcover d hd) hadjoins
  rw [hapart a ha b hb] at hab
  cases hab

/-- Nor do the flat boxes that are kept meet them. -/
theorem HasEnvelopes.looseBoxes_again (hfills : ∀ c ∈ Box.clusters g.solidBoxes,
      (polygon (Box.outline c)).ground = (polygon (Box.outline c)).boxOf.ground) :
    out.looseBoxes = out.flatBoxes := by
  refine List.filter_eq_self.2 ?_
  rw [h.flatBoxes_eq, List.forall_mem_map]
  intro b hb
  obtain ⟨⟨hproper, -⟩, hproper', hground⟩ := boxOf_of_mem_looseBoxes hg hb
  rw [Bool.not_eq_true', List.any_eq_false, h.solidBoxes_eq, List.forall_mem_map]
  intro c hc hmeets
  obtain ⟨z, hz, hzc⟩ := (hproper'.meets_iff_inter (h.boxOf_polygon hout hc).1).1 hmeets
  rw [hground] at hz
  rw [← hfills c hc, h.mem_outline_iff c hc] at hzc
  obtain ⟨a, ha, hza⟩ := hzc
  have hmem := (Box.flatten_clusters_perm g.solidBoxes).mem_iff.1 (List.mem_flatten_of_mem hc ha)
  have hnot := (mem_looseBoxes_iff.1 hb).2 a hmem
  rw [(hproper.meets_iff_inter (areSolid_solidBoxes hg a hmem).1).2 ⟨z, hz, hza⟩] at hnot
  cases hnot

end

/-- Clusters of one box have the outlines of the boxes. -/
theorem map_ground_outline_singletons {bs : List Box} (hbs : Box.AreSolid bs) :
    (bs.map ([·])).map (fun c => (polygon (Box.outline c)).ground) = bs.map Box.ground := by
  rw [List.map_map]
  exact List.map_congr_left fun b hb => (hbs b hb).1.ground_toPolygon (hbs b hb).2

/-- The same parts come out again exactly if all of them fill their bounding boxes. -/
theorem sameParts_again_iff (hg : g.isValid = true) (hboxed : g.IsBoxed)
    (hagain : g.partEnvelopes.IsBoxed) :
    g.partEnvelopes.partEnvelopes.SameParts g.partEnvelopes ↔
      ∀ part ∈ g.partEnvelopes.components, part.FillsBox := by
  have hout : g.partEnvelopes.isValid = true := hboxed.valid
  have h := hasEnvelopes hg hboxed
  have h' := hasEnvelopes hout hagain
  generalize g.partEnvelopes = out at hout h h' ⊢
  have hsolid := areSolid_solidBoxes hout
  rw [h.forall_fillsBox_iff hg, SameParts, h'.map_ground hout, h.map_ground hg]
  constructor
  · intro hperm
    have hclusters := Box.flatten_clusters_perm out.solidBoxes
    have hcount := hperm.length_eq
    simp only [List.length_append, List.length_map] at hcount
    obtain ⟨hsingletons, hloose⟩ := h.eq_of_length_eq hcount
    rw [hloose, h.map_ground_flatBoxes hg, List.perm_append_right_iff, hsingletons,
      map_ground_outline_singletons fun b hb => hsolid b (hclusters.mem_iff.1 hb)] at hperm
    have hgrounds := (hclusters.map Box.ground).symm.trans hperm
    rw [h.solidBoxes_eq, List.map_map] at hgrounds
    exact eq_of_le_of_perm (fun c hc => (boxOf_spec (h.isValid_polygon hc)).2.2) hgrounds.symm
  · intro hfills
    rw [h.clusters_again hg hout hfills, h.looseBoxes_again hg hout hfills,
      h.map_ground_flatBoxes hg,
      map_ground_outline_singletons fun b hb => hsolid b (List.mem_reverse.1 hb)]
    refine List.Perm.append_right _ (((List.reverse_perm _).map _).trans ?_)
    rw [h.solidBoxes_eq, List.map_map]
    exact List.Perm.of_eq (List.map_congr_left fun c hc => (hfills c hc).symm)

end Geometry

namespace Operator

variable {g : Geometry}

/-- Applied to its own result, the operator gives the same parts again, up to their order, exactly if it
does not take effect again, or each part of the result fills its bounding box. -/
theorem partEnvelopes_again (t : Tolerances) (hg : g.isValid = true) :
    (partEnvelopes.apply t (partEnvelopes.apply t g)).SameParts (partEnvelopes.apply t g) ↔
      ((partEnvelopes.apply t g).IsBoxed →
        ∀ part ∈ (partEnvelopes.apply t g).components, part.FillsBox) := by
  by_cases hagain : (partEnvelopes.apply t g).IsBoxed
  · have hboxed : g.IsBoxed := by
      by_contra hnot
      rw [apply_partEnvelopes_of_not_isBoxed hnot] at hagain
      exact hnot hagain
    rw [apply_partEnvelopes_of_isBoxed hagain, apply_partEnvelopes_of_isBoxed hboxed]
    rw [apply_partEnvelopes_of_isBoxed hboxed] at hagain
    rw [Geometry.sameParts_again_iff hg hboxed hagain]
    exact ⟨fun h _ => h, fun h => h hagain⟩
  · rw [apply_partEnvelopes_of_not_isBoxed hagain]
    exact iff_of_true (.refl _) fun h => absurd h hagain

/-- Two polygons with boxes that do not adjoin each other. -/
private theorem partEnvelopes_apart {p q : Polygon} {b c : Box}
    (hb : Box.around? p.exterior = some b) (hc : Box.around? q.exterior = some c)
    (hsolid : b.isSolid = true ∧ c.isSolid = true) (happart : c.adjoins b = false) :
    (Geometry.multiPolygon [p, q]).partEnvelopes = .multiPolygon [c.toPolygon, b.toPolygon] := by
  have hboxes : [Geometry.polygon p, .polygon q].filterMap Geometry.box? = [b, c] := by
    simp [Geometry.box?, hb, hc]
  have hseveral : ¬(Geometry.multiPolygon [p, q]).partCount ≤ 1 := Nat.lt_irrefl 1
  rw [Geometry.partEnvelopes, if_neg hseveral]
  simp [Geometry.components, hboxes, List.partition_eq_filter_filter, hsolid, happart, Box.union,
    Box.clusters, Box.addToClusters, Box.outline, Box.toPolygon]

/-- The square between two places on the diagonal. -/
private def squareFrom (low high : Float) : Box := ⟨⟨low, low⟩, ⟨high, high⟩⟩

/-- Squares that do not adjoin each other are the same parts again. -/
theorem partEnvelopes_again_apart :
    let g := Geometry.multiPolygon [(squareFrom 0 1).toPolygon, (squareFrom 2 3).toPolygon]
    g.isValid = true ∧
      (partEnvelopes.apply .standard (partEnvelopes.apply .standard g)).SameParts
        (partEnvelopes.apply .standard g) := by
  intro g
  have hvalid : g.isValid = true := by decide +kernel
  refine ⟨hvalid, (partEnvelopes_again .standard hvalid).2 fun hboxed part hpart => ?_⟩
  have hresult : g.partEnvelopes = .multiPolygon
      [(squareFrom 2 3).toPolygon, (squareFrom 0 1).toPolygon] :=
    partEnvelopes_apart (by decide +kernel) (by decide +kernel) (by decide +kernel)
      (by decide +kernel)
  have hparts := (Geometry.isValid_iff_components _).1 (isValid_apply (t := .standard) partEnvelopes hvalid)
  rw [apply_partEnvelopes, hresult, validOr, if_pos (by decide +kernel)] at hpart hparts
  have hfills : ∀ b : Box, (Geometry.polygon b.toPolygon).isValid = true →
      Box.around? b.ring = some b → b.isSolid = true → (Geometry.polygon b.toPolygon).FillsBox := by
    intro b hb hbox hsolid
    obtain ⟨c, hc, hproper, -⟩ := Geometry.exists_box hb
    cases hbox.symm.trans hc
    exact ⟨b, hbox, hproper.ground_toPolygon hsolid⟩
  have hvalid' := hparts.2 part hpart
  simp only [Geometry.components, List.map_cons, List.map_nil, List.mem_cons, List.not_mem_nil,
    or_false] at hpart
  rcases hpart with rfl | rfl
  · exact hfills _ hvalid' (by decide +kernel) (by decide +kernel)
  · exact hfills _ hvalid' (by decide +kernel) (by decide +kernel)

/-- Two squares that overlap, as one polygon. -/
private def steps : Polygon :=
  ⟨[⟨2, 0⟩, ⟨2, 1⟩, ⟨3, 1⟩, ⟨3, 3⟩, ⟨1, 3⟩, ⟨1, 2⟩, ⟨0, 2⟩, ⟨0, 0⟩, ⟨2, 0⟩], []⟩

private theorem outline_steps : Box.outline [squareFrom 1 3, squareFrom 0 2] = steps := by
  have hlines : Box.gridLines [1, 3, 0, 2] = [0, 1, 2, 3] :=
    Box.gridLines_eq (by decide +kernel) (by decide +kernel) (by simp) (by simp)
  have hx : ([squareFrom 1 3, squareFrom 0 2].flatMap fun b => [b.low.x, b.high.x]) =
      [1, 3, 0, 2] := rfl
  have hy : ([squareFrom 1 3, squareFrom 0 2].flatMap fun b => [b.low.y, b.high.y]) =
      [1, 3, 0, 2] := rfl
  rw [Box.outline, Box.mergedOutline, hx, hy, hlines]
  · decide +kernel
  · intro b hb
    cases hb

/-- Two squares that overlap, and one apart from them. The first two make a polygon with eight corners;
when the operator is applied again, the box around it takes its place. -/
theorem partEnvelopes_again_squares :
    let g := Geometry.multiPolygon [(squareFrom 0 2).toPolygon, (squareFrom 1 3).toPolygon,
      (squareFrom 5 6).toPolygon]
    let once := Geometry.multiPolygon [(squareFrom 5 6).toPolygon, steps]
    let twice := Geometry.multiPolygon [(squareFrom 0 3).toPolygon, (squareFrom 5 6).toPolygon]
    g.isValid = true ∧ partEnvelopes.apply .standard g = once ∧
      partEnvelopes.apply .standard once = twice ∧ ¬twice.SameParts once := by
  intro g once twice
  have hvalid : g.isValid = true := by decide +kernel
  have hseveral : 1 < g.partCount := by decide
  have hboxes : g.components.filterMap Geometry.box? =
      [squareFrom 0 2, squareFrom 1 3, squareFrom 5 6] := by decide +kernel
  have hsolid : (squareFrom 0 2).isSolid = true ∧ (squareFrom 1 3).isSolid = true ∧
      (squareFrom 5 6).isSolid = true := by decide +kernel
  have hadjoins : (squareFrom 1 3).adjoins (squareFrom 0 2) = true ∧
      (squareFrom 5 6).adjoins (squareFrom 1 3) = false ∧
      (squareFrom 5 6).adjoins (squareFrom 0 2) = false := by decide +kernel
  have honce : g.partEnvelopes = once := by
    have hsingle : Box.outline [squareFrom 5 6] = (squareFrom 5 6).toPolygon := rfl
    rw [Geometry.partEnvelopes, if_neg (not_le.2 hseveral), hboxes]
    simp [List.partition_eq_filter_filter, hsolid, hadjoins, Box.union, Box.clusters,
      Box.addToClusters, outline_steps, hsingle, once]
  have htwice : once.partEnvelopes = twice :=
    partEnvelopes_apart (by decide +kernel) (by decide +kernel) (by decide +kernel)
      (by decide +kernel)
  have hvalid' : twice.isValid = true := by decide +kernel
  refine ⟨hvalid, ?_, ?_, ?_⟩
  · rw [apply_partEnvelopes, honce, validOr, if_pos (by decide +kernel)]
  · rw [apply_partEnvelopes, htwice, validOr, if_pos hvalid']
  · -- The upper left corner of the box is in none of the squares.
    intro hsame
    have hproper : ∀ b ∈ [squareFrom 0 2, squareFrom 1 3, squareFrom 5 6, squareFrom 0 3],
        b.IsProper ∧ b.isSolid = true := by
      simp only [List.forall_mem_cons, List.not_mem_nil, false_implies, implies_true, and_true]
      refine ⟨?_, ?_, ?_, ?_⟩ <;> exact ⟨Box.isProper_of_le (by decide +kernel) (by decide +kernel)
        (by decide +kernel) (by decide +kernel), by decide +kernel⟩
    have hmem : ∀ b ∈ [squareFrom 0 2, squareFrom 1 3, squareFrom 5 6, squareFrom 0 3],
        ((⟨0, 3⟩ : Coord).place ∈ b.ground ↔ (Box.mk ⟨0, 3⟩ ⟨0, 3⟩).meets b = true) :=
      fun b hb => (hproper b hb).1.place_mem_ground_iff (by decide +kernel)
    have hnot : (⟨0, 3⟩ : Coord).place ∉ once.ground := by
      have hboxes : g.solidBoxes ++ g.looseBoxes =
          [squareFrom 0 2, squareFrom 1 3, squareFrom 5 6] := by
        simp [Geometry.solidBoxes, Geometry.looseBoxes, Geometry.flatBoxes, hboxes, hsolid]
      rw [← honce, Geometry.mem_ground_partEnvelopes_iff hvalid hseveral
        ⟨_, List.mem_cons_self, squareFrom 0 2, by decide +kernel, hsolid.1⟩, hboxes]
      simp only [List.mem_cons, List.not_mem_nil, or_false, exists_eq_or_imp, exists_eq_left]
      rw [hmem _ (by simp), hmem _ (by simp), hmem _ (by simp)]
      decide +kernel
    have hbox : (Geometry.polygon (squareFrom 0 3).toPolygon).ground ∈
        once.components.map Geometry.ground := hsame.mem_iff.1 List.mem_cons_self
    obtain ⟨part, hpart, heq⟩ := List.mem_map.1 hbox
    refine hnot (Geometry.mem_ground_iff_components.2 ⟨part, hpart, heq ▸ ?_⟩)
    obtain ⟨hproper, hsolid⟩ := hproper (squareFrom 0 3) (by simp)
    rw [Geometry.ground, hproper.ground_toPolygon hsolid, hmem _ (by simp)]
    decide +kernel

end Operator

end StreamCatalog
