import StreamCatalog.Proofs.Geometry.Clusters

/-!
# Unions of boxes are exact

The outline of boxes that hang together has their points and no others (`Box.mem_ground_outline_iff`), and so
has the union of solid boxes (`Box.mem_union_iff`). Away from the edges the rings go around a point as they go
around its cell. A point on no edge of a ring may lie between cells, all of which the ring goes
around equally often.
-/

namespace StreamCatalog

open Binary64 (value)
open Region Plane

/-! ## Points and edges -/

section

variable {xs ys : List Float} {z : ℝ × ℝ} {b : Box} {s : Span} {e : Edge} {ring : List Edge}

theorem IsOrdered.lineAt_le (hx : IsOrdered xs) {i j : Nat} (hj : j < xs.length) (hij : i ≤ j) :
    lineAt xs i ≤ lineAt xs j := by
  rcases hij.eq_or_lt with rfl | hlt
  · exact le_rfl
  · exact (hx.lineAt_lt hj hlt).le

/-- The crossings at the sides of a box and within belong to it. -/
theorem Box.IsSpan.place_mem_ground (h : IsSpan xs ys b s) (hx : IsOrdered xs) (hy : IsOrdered ys)
    {p : Nat × Nat} (hp1 : s.left ≤ p.1 ∧ p.1 ≤ s.right) (hp2 : s.bottom ≤ p.2 ∧ p.2 ≤ s.top) :
    (crossing xs ys p).place ∈ b.ground := by
  rw [Box.mem_ground_iff, place_crossing, ← h.lineAt_left, ← h.lineAt_right, ← h.lineAt_bottom,
    ← h.lineAt_top]
  exact ⟨⟨hx.lineAt_le (hp1.2.trans_lt h.right_lt) hp1.1,
    hy.lineAt_le (hp2.2.trans_lt h.top_lt) hp2.1⟩, hx.lineAt_le h.right_lt hp1.2,
    hy.lineAt_le h.top_lt hp2.2⟩

/-- A box has the edges around its cells. -/
theorem Box.IsSpan.points_subset (h : IsSpan xs ys b s) (hx : IsOrdered xs) (hy : IsOrdered ys)
    (he : e.IsPlaced) (hcell : s.contains e.leftCell.1 e.leftCell.2 = true) :
    e.points xs ys ⊆ b.ground := by
  obtain ⟨hwest, hsouth⟩ := he
  rw [Span.contains_iff] at hcell
  refine (convex_Icc _ _).segment_subset (h.place_mem_ground hx hy ?_ ?_)
    (h.place_mem_ground hx hy ?_ ?_) <;> rcases e with ⟨x, y, _ | _ | _ | _⟩ <;>
    simp only [Edge.leftCell, Edge.start, Edge.target, true_implies] at hcell hwest hsouth ⊢ <;>
    omega

theorem Region.Edge.IsOn.reverse (he : e.IsOn xs ys) :
    e.reverse.IsOn xs ys ∧ e.reverse.points xs ys = e.points xs ys := by
  obtain ⟨hplaced, hstart, htarget⟩ := he
  obtain ⟨hplaced', hback, -⟩ := hplaced.reverse
  have hend : e.reverse.target = e.start := by
    obtain ⟨hwest, hsouth⟩ := hplaced
    rcases e with ⟨x, y, _ | _ | _ | _⟩
    · rfl
    · rfl
    · exact Prod.ext (Nat.sub_add_cancel (hwest rfl)) rfl
    · exact Prod.ext rfl (Nat.sub_add_cancel (hsouth rfl))
  have hbegin : e.reverse.start = e.target := rfl
  refine ⟨⟨hplaced', htarget, hend ▸ hstart⟩, ?_⟩
  rw [Edge.points, Edge.points, hend, hbegin, segment_symm]

/-- Across an edge with a point that is not on a ring the ring goes around both cells equally
often. -/
theorem winding_eq_of_notMem_points {p : Nat × Nat} (hleads : Edge.Leads ring p p)
    (hring : ∀ e ∈ ring, e.IsOn xs ys) (hz : ¬∃ e ∈ ring, z ∈ e.points xs ys) (he : e.IsPlaced)
    (hmem : e.IsOn xs ys → z ∈ e.points xs ys) :
    Region.winding ring e.leftCell = Region.winding ring e.rightCell := by
  have hnot : e ∉ ring := fun hin => hz ⟨e, hin, hmem (hring e hin)⟩
  have hnot' : e.reverse ∉ ring := by
    intro hin
    obtain ⟨hon, hsame⟩ := (hring _ hin).reverse
    rw [he.reverse.2.1] at hon hsame
    exact hz ⟨_, hin, hsame ▸ hmem hon⟩
  have hsub := Edge.winding_sub hleads (fun e' he' => (hring e' he').1) he
  rw [List.count_eq_zero_of_not_mem hnot, List.count_eq_zero_of_not_mem hnot', sub_self] at hsub
  exact sub_eq_zero.1 hsub

theorem linesUpTo_le_length (lines : List Float) (v : ℝ) : linesUpTo lines v ≤ lines.length :=
  List.countP_le_length

/-- The cell of a point on the right or upper side of a box is the next one to a cell of the box. -/
theorem IsOrdered.linesUpTo_le_succ {lines : List Float} (h : IsOrdered lines) {i : Nat} {v : ℝ}
    (hv : v ≤ lineAt lines i) : linesUpTo lines v ≤ i + 1 := by
  rcases Nat.lt_or_ge (i + 1) lines.length with hlt | hge
  · exact (h.linesUpTo_le_iff hlt).2 (hv.trans_lt (h.lineAt_lt hlt (Nat.lt_succ_self i)))
  · exact (linesUpTo_le_length lines v).trans hge

section

variable {p : Nat × Nat} (hx : IsOrdered xs) (hy : IsOrdered ys) (hleads : Edge.Leads ring p p)
  (hring : ∀ e ∈ ring, e.IsOn xs ys) (hnone : ¬∃ e ∈ ring, z ∈ e.points xs ys)

include hx hy hleads hring hnone

/-- A point up to a vertical line, and on no ring: if it is on the line, the ring goes around the cells on both
sides equally often. -/
theorem winding_min_right {r : Nat} (hr : r < xs.length) (hright : z.1 ≤ lineAt xs r)
    (hrow : linesUpTo ys z.2 ≠ 0) :
    Region.winding ring (linesUpTo xs z.1, linesUpTo ys z.2) =
      Region.winding ring (min (linesUpTo xs z.1) r, linesUpTo ys z.2) := by
  rcases (hx.linesUpTo_le_succ hright).lt_or_eq with hlt | heq
  · rw [min_eq_left (Nat.le_of_lt_succ hlt)]
  obtain ⟨j, hj⟩ := Nat.exists_eq_succ_of_ne_zero hrow
  rw [heq, min_eq_right (Nat.le_succ r), hj]
  refine (winding_eq_of_notMem_points (e := ⟨r, j, .north⟩) hleads hring hnone
    ⟨by simp, by simp⟩ fun hon => ?_).symm
  obtain ⟨-, ⟨-, hlow⟩, -, hhigh⟩ := hon
  rw [Edge.points, place_crossing, place_crossing]
  refine (segment_vertical _ _ _).symm ▸ ⟨?_, Set.mem_uIcc_of_le ?_ ?_⟩
  · exact le_antisymm hright ((hx.lt_linesUpTo_iff hr).1 (heq ▸ Nat.lt_succ_self r))
  · exact (hy.lt_linesUpTo_iff hlow).1 (hj ▸ Nat.lt_succ_self j)
  · exact le_of_not_ge fun hge => hj.not_gt ((hy.lt_linesUpTo_iff hhigh).2 hge)

/-- The same for a point up to a horizontal line, in a column up to a vertical line. -/
theorem winding_min_top {r t : Nat} (hright : z.1 ≤ lineAt xs r) (ht : t < ys.length)
    (htop : z.2 ≤ lineAt ys t) (hcolumn : min (linesUpTo xs z.1) r ≠ 0) :
    Region.winding ring (min (linesUpTo xs z.1) r, linesUpTo ys z.2) =
      Region.winding ring (min (linesUpTo xs z.1) r, min (linesUpTo ys z.2) t) := by
  rcases (hy.linesUpTo_le_succ htop).lt_or_eq with hlt | heq
  · rw [min_eq_left (Nat.le_of_lt_succ hlt)]
  obtain ⟨k, hk⟩ := Nat.exists_eq_succ_of_ne_zero hcolumn
  have hlinesUpTo : k < linesUpTo xs z.1 := by omega
  rw [heq, min_eq_right (Nat.le_succ t), hk]
  refine winding_eq_of_notMem_points (e := ⟨k, t, .east⟩) hleads hring hnone
    ⟨by simp, by simp⟩ fun hon => ?_
  obtain ⟨-, ⟨hlow, -⟩, hhigh, -⟩ := hon
  rw [Edge.points, place_crossing, place_crossing]
  refine (segment_horizontal _ _ _).symm ▸ ⟨Set.mem_uIcc_of_le ?_ ?_, ?_⟩
  · exact (hx.lt_linesUpTo_iff hlow).1 hlinesUpTo
  · rcases (by omega : k + 1 = r ∨ linesUpTo xs z.1 = k + 1) with hline | hlines
    · have htarget : (Edge.mk k t .east).target.1 = r := hline
      exact htarget ▸ hright
    · exact le_of_not_ge fun hge => hlines.not_gt ((hx.lt_linesUpTo_iff hhigh).2 hge)
  · exact le_antisymm htop ((hy.lt_linesUpTo_iff ht).1 (heq ▸ Nat.lt_succ_self t))

end

/-- A box with a point has a cell around which a ring goes as often as around the cell of the point,
unless the point is on the ring. -/
theorem Box.IsSpan.exists_winding_eq (h : IsSpan xs ys b s) (hx : IsOrdered xs) (hy : IsOrdered ys)
    (hcells : s.HasCells) (hz : z ∈ b.ground) : ∃ cell : Nat × Nat,
      s.contains cell.1 cell.2 = true ∧ ∀ ring : List Edge, (∃ p, Edge.Leads ring p p) →
        (∀ e ∈ ring, e.IsOn xs ys) → (¬∃ e ∈ ring, z ∈ e.points xs ys) →
          Region.winding ring (cellOf xs ys z) = Region.winding ring cell := by
  obtain ⟨⟨hleft, hbottom⟩, hright, htop⟩ := Box.mem_ground_iff.1 hz
  rw [← h.lineAt_left, ← hx.lt_linesUpTo_iff h.left_lt] at hleft
  rw [← h.lineAt_bottom, ← hy.lt_linesUpTo_iff h.bottom_lt] at hbottom
  rw [← h.lineAt_right] at hright
  rw [← h.lineAt_top] at htop
  obtain ⟨hwidth, hheight⟩ := hcells
  refine ⟨(min (linesUpTo xs z.1) s.right, min (linesUpTo ys z.2) s.top),
    Span.contains_iff.2 (by omega), ?_⟩
  rintro ring ⟨p, hleads⟩ hring hnone
  -- First across the line on the right of the box, then across the line above it.
  exact (winding_min_right hx hy hleads hring hnone h.right_lt hright (by omega)).trans
    (winding_min_top hx hy hleads hring hnone hright h.top_lt htop (by omega))

end

/-! ## The outline of boxes that hang together -/

namespace Box

variable {boxes : List Box} {z : ℝ × ℝ} {ring : List Edge}

theorem AreSolid.fits (h : AreSolid boxes) :
    Fits (spansOf boxes) (xLines boxes).length (yLines boxes).length := by
  refine List.forall_mem_map.2 fun b hb => ?_
  exact ⟨(h.isSpan hb).right_lt, (h.isSpan hb).top_lt⟩

/-- The rings around boxes on the grid of their lines. -/
def ringsAround (boxes : List Box) : List (List Edge) :=
  rings (spansOf boxes) (xLines boxes).length (yLines boxes).length

/-- What is true of a ring around boxes: it leads back to where it starts, on the grid. -/
theorem AreSolid.ring_spec (h : AreSolid boxes) (hring : ring ∈ ringsAround boxes) :
    ring ≠ [] ∧ (∃ p, Edge.Leads ring p p) ∧ (∀ e ∈ ring, e.IsOn (xLines boxes) (yLines boxes)) ∧
      ∀ e ∈ ring, e.isBoundary (spansOf boxes) = true := by
  have hfits := h.fits
  obtain ⟨hne, hleads⟩ := hfits.isClosed_boundary.exists_leads hring
  have hboundary : ∀ e ∈ ring, e.isBoundary (spansOf boxes) = true :=
    fun e he => hfits.isBoundary_of_mem_ring hring he
  refine ⟨hne, hleads, fun e he => ?_, hboundary⟩
  obtain ⟨hstart, htarget⟩ := hfits.lt_of_isBoundary (hboundary e he)
  exact ⟨Edge.isPlaced_of_isBoundary (hboundary e he), hstart, htarget⟩

/-- The points on a ring around boxes are points of boxes. -/
theorem AreSolid.exists_mem_of_points (h : AreSolid boxes) (hring : ring ∈ ringsAround boxes)
    {e : Edge} (he : e ∈ ring) (hz : z ∈ e.points (xLines boxes) (yLines boxes)) :
    ∃ b ∈ boxes, z ∈ b.ground := by
  obtain ⟨hx, hy⟩ := h.isOrdered_lines
  obtain ⟨-, -, hon, hboundary⟩ := h.ring_spec hring
  obtain ⟨_, hs, hcell⟩ := List.any_eq_true.1 (Edge.isBoundary_iff.1 (hboundary e he)).1
  obtain ⟨b, hb, rfl⟩ := List.mem_map.1 hs
  exact ⟨b, hb, (h.isSpan hb).points_subset hx hy (hon e he).1 hcell hz⟩

/-- A point in the cells of the boxes is a point of a box. -/
theorem AreSolid.exists_mem_of_covers (h : AreSolid boxes)
    (hz : covers (spansOf boxes) (cellOf (xLines boxes) (yLines boxes) z).1
      (cellOf (xLines boxes) (yLines boxes) z).2 = true) : ∃ b ∈ boxes, z ∈ b.ground := by
  obtain ⟨hx, hy⟩ := h.isOrdered_lines
  obtain ⟨_, hs, hcell⟩ := List.any_eq_true.1 hz
  obtain ⟨b, hb, rfl⟩ := List.mem_map.1 hs
  obtain ⟨⟨h1, h2⟩, h3, h4⟩ := ((h.isSpan hb).contains_iff hx hy).1 hcell
  exact ⟨b, hb, mem_ground_iff.2 ⟨⟨h1, h3⟩, h2.le, h4.le⟩⟩

/-- Boxes have a first ring around them. -/
theorem AreSolid.exists_rings (h : AreSolid boxes) (hne : boxes ≠ []) :
    ∃ first holes, ringsAround boxes = first :: holes := by
  refine List.exists_cons_of_ne_nil fun hnil => ?_
  obtain ⟨b, hb⟩ := List.exists_mem_of_ne_nil boxes hne
  have hcells := h.hasCells hb
  have hcell : covers (spansOf boxes) ((toSpan (xLines boxes) (yLines boxes) b).left + 1)
      ((toSpan (xLines boxes) (yLines boxes) b).bottom + 1) = true :=
    covers_of_contains (List.mem_map_of_mem hb)
      (Span.contains_iff.2 ⟨⟨Nat.lt_succ_self _, hcells.1⟩, Nat.lt_succ_self _, hcells.2⟩)
  have hsum := h.fits.sum_winding ((toSpan (xLines boxes) (yLines boxes) b).left + 1,
    (toSpan (xLines boxes) (yLines boxes) b).bottom + 1)
  rw [if_pos hcell, ← ringsAround, hnil] at hsum
  exact zero_ne_one hsum

theorem mergedOutline_eq {first : List Edge} {holes : List (List Edge)}
    (hrings : ringsAround boxes = first :: holes) : mergedOutline boxes =
      ⟨outlineRing (xLines boxes) (yLines boxes) (corners first),
        holes.map fun ring => outlineRing (xLines boxes) (yLines boxes) (corners ring)⟩ := by
  have houtline : (Region.outline (spansOf boxes) (xLines boxes).length (yLines boxes).length).map
      (outlineRing (xLines boxes) (yLines boxes)) =
        outlineRing (xLines boxes) (yLines boxes) (corners first) ::
          holes.map fun ring => outlineRing (xLines boxes) (yLines boxes) (corners ring) := by
    rw [Region.outline, ← rings, ← ringsAround, hrings, List.map_cons, List.map_cons, List.map_map]
    rfl
  rw [mergedOutline]
  split
  next hnil => cases hnil.symm.trans houtline
  next hcons =>
    obtain ⟨rfl, rfl⟩ := List.cons.inj (hcons.symm.trans houtline)
    rfl

/-- What the outline has, by the rings of edges. -/
theorem AreSolid.mem_ground_mergedOutline_iff_rings (h : AreSolid boxes) {first : List Edge}
    {holes : List (List Edge)} (hrings : ringsAround boxes = first :: holes) :
    z ∈ (mergedOutline boxes).ground ↔
      ((∃ e ∈ first, z ∈ e.points (xLines boxes) (yLines boxes)) ∨
        Region.winding first (cellOf (xLines boxes) (yLines boxes) z) ≠ 0) ∧
      ∀ hole ∈ holes, Region.winding hole (cellOf (xLines boxes) (yLines boxes) z) ≠ 0 →
        ∃ e ∈ hole, z ∈ e.points (xLines boxes) (yLines boxes) := by
  obtain ⟨hx, hy⟩ := h.isOrdered_lines
  have hring : ∀ ring ∈ first :: holes,
      (z ∈ path (placed (outlineRing (xLines boxes) (yLines boxes) (corners ring))) ↔
        ∃ e ∈ ring, z ∈ e.points (xLines boxes) (yLines boxes)) ∧
      Plane.winding (placed (outlineRing (xLines boxes) (yLines boxes) (corners ring))) z =
        Region.winding ring (cellOf (xLines boxes) (yLines boxes) z) := by
    intro ring hring
    obtain ⟨hne, ⟨p, hleads⟩, hon, -⟩ := h.ring_spec (hrings ▸ hring)
    exact ⟨mem_path_outlineRing_iff hx hy hleads hne hon,
      winding_outlineRing hx hy hleads hne hon z⟩
  obtain ⟨hfirst, hholes⟩ := List.forall_mem_cons.1 hring
  rw [mergedOutline_eq hrings, Polygon.ground, Set.mem_ofPred_eq, List.forall_mem_map, hfirst.1,
    hfirst.2]
  refine and_congr_right fun _ => forall₂_congr fun hole hhole => ?_
  rw [(hholes hole hhole).1, (hholes hole hhole).2]

/-- The outline of boxes that hang together has their points. -/
theorem mem_ground_mergedOutline_iff (h : AreSolid boxes) (hhangs : Hangs boxes)
    (hne : boxes ≠ []) : z ∈ (mergedOutline boxes).ground ↔ ∃ b ∈ boxes, z ∈ b.ground := by
  obtain ⟨hx, hy⟩ := h.isOrdered_lines
  have htogether := hhangs.hangsTogether h
  obtain ⟨first, holes, hrings⟩ := h.exists_rings hne
  have hmem : ∀ ring ∈ first :: holes, ring ∈ ringsAround boxes := fun ring hring => hrings ▸ hring
  rw [h.mem_ground_mergedOutline_iff_rings hrings]
  constructor
  · rintro ⟨hfirst, hholes⟩
    rcases hfirst with ⟨e, he, hz⟩ | hfirst
    · exact h.exists_mem_of_points (hmem first List.mem_cons_self) he hz
    · by_cases hany : ∃ hole ∈ holes,
          Region.winding hole (cellOf (xLines boxes) (yLines boxes) z) ≠ 0
      · obtain ⟨hole, hhole, hnonzero⟩ := hany
        obtain ⟨e, he, hz⟩ := hholes hole hhole hnonzero
        exact h.exists_mem_of_points (hmem hole (List.mem_cons_of_mem _ hhole)) he hz
      · push Not at hany
        exact h.exists_mem_of_covers
          ((htogether.covers_iff_winding h.fits hrings _).2 ⟨hfirst, hany⟩)
  · rintro ⟨b, hb, hz⟩
    obtain ⟨cell, hcell, hsame⟩ := (h.isSpan hb).exists_winding_eq hx hy (h.hasCells hb) hz
    have hcell := covers_of_contains (List.mem_map_of_mem hb) hcell
    obtain ⟨hone, hzero⟩ := htogether.winding_rings h.fits hrings hcell
    have hwinding : ∀ ring ∈ first :: holes,
        (¬∃ e ∈ ring, z ∈ e.points (xLines boxes) (yLines boxes)) →
          Region.winding ring (cellOf (xLines boxes) (yLines boxes) z) = Region.winding ring cell := by
      intro ring hring hon
      obtain ⟨-, hleads, hring, -⟩ := h.ring_spec (hmem ring hring)
      exact hsame ring hleads hring hon
    constructor
    · by_cases hon : ∃ e ∈ first, z ∈ e.points (xLines boxes) (yLines boxes)
      · exact .inl hon
      · rw [hwinding first List.mem_cons_self hon, hone]
        exact .inr one_ne_zero
    · intro hole hhole hnonzero
      by_contra hon
      exact hnonzero ((hwinding hole (List.mem_cons_of_mem _ hhole) hon).trans (hzero hole hhole))

/-- A box alone has the points within its ring. -/
theorem IsProper.ground_toPolygon {b : Box} (h : b.IsProper) (hsolid : b.isSolid = true) :
    b.toPolygon.ground = b.ground := by
  obtain ⟨hwidth, hheight⟩ := h.isSolid_iff.1 hsolid
  have hplaced : placed b.ring = [(value b.high.x, value b.low.y), (value b.high.x, value b.high.y),
      (value b.low.x, value b.high.y), (value b.low.x, value b.low.y),
      (value b.high.x, value b.low.y)] := rfl
  ext z
  simp only [Polygon.ground, toPolygon, Set.mem_ofPred_eq, List.not_mem_nil, false_implies,
    implies_true, and_true, hplaced, path, Plane.winding, sides_cons_cons, sides_singleton,
    List.map_cons, List.map_nil, List.sum_cons, List.sum_nil, List.mem_cons, exists_eq_or_imp,
    or_false, exists_eq_left, segment_vertical, segment_horizontal,
    passes_vertical, passes_horizontal, mem_ground_iff, Set.uIcc_of_le hheight.le,
    Set.uIcc_of_ge hheight.le, Set.uIcc_of_le hwidth.le, Set.uIcc_of_ge hwidth.le, Set.mem_Icc]
  clear hplaced
  generalize value b.low.x = left, value b.high.x = right, value b.low.y = bottom, value b.high.y = top
    at hwidth hheight ⊢
  grind

/-- The outline of boxes that hang together has their points and no others. -/
theorem mem_ground_outline_iff (h : AreSolid boxes) (hhangs : Hangs boxes) (hne : boxes ≠ []) :
    z ∈ (outline boxes).ground ↔ ∃ b ∈ boxes, z ∈ b.ground := by
  rcases boxes with _ | ⟨b, _ | ⟨c, boxes⟩⟩
  · exact absurd rfl hne
  · obtain ⟨hproper, hsolid⟩ := h b List.mem_cons_self
    rw [outline, ← toPolygon, hproper.ground_toPolygon hsolid]
    simp
  · exact mem_ground_mergedOutline_iff h hhangs hne

/-- The union of solid boxes has their points and no others. -/
theorem mem_union_iff (h : AreSolid boxes) :
    (∃ p ∈ union boxes, z ∈ p.ground) ↔ ∃ b ∈ boxes, z ∈ b.ground := by
  have hclustering := isClustering_clusters boxes
  have hperm := flatten_clusters_perm boxes
  have hsolid : ∀ cluster ∈ clusters boxes, AreSolid cluster := fun cluster hcluster b hb =>
    h b (hperm.mem_iff.1 (List.mem_flatten_of_mem hcluster hb))
  simp only [union, List.mem_map, exists_exists_and_eq_and, ← hperm.mem_iff, List.mem_flatten]
  constructor
  · rintro ⟨cluster, hcluster, hz⟩
    obtain ⟨b, hb, hz⟩ := (mem_ground_outline_iff (hsolid cluster hcluster)
      (hclustering.hangs cluster hcluster) (hclustering.ne_nil cluster hcluster)).1 hz
    exact ⟨b, ⟨cluster, hcluster, hb⟩, hz⟩
  · rintro ⟨b, ⟨cluster, hcluster, hb⟩, hz⟩
    exact ⟨cluster, hcluster, (mem_ground_outline_iff (hsolid cluster hcluster)
      (hclustering.hangs cluster hcluster) (hclustering.ne_nil cluster hcluster)).2 ⟨b, hb, hz⟩⟩

end Box

end StreamCatalog
