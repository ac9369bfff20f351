import Mathlib
import StreamCatalog.Geometry.Envelope
import StreamCatalog.Proofs.Geometry.Joining
import StreamCatalog.Proofs.Number.Doubles

/-!
# The ground of a geometry

The set of points of the plane that a geometry covers. A line covers its segments; a polygon covers
its outer ring and what that goes around, less what its holes go around; several parts cover what
each of them covers. The bounding box of a valid geometry covers all of it (`Geometry.exists_box`).
-/

namespace StreamCatalog

/-- The number that a double is; zero when it is not finite. -/
noncomputable def Binary64.value (x : Float) : ℝ := exactUnits x / 2 ^ 1074

namespace Binary64

variable {x y : Float}

theorem value_lt_iff (hx : x.isFinite = true) (hy : y.isFinite = true) :
    value x < value y ↔ x < y := by
  rw [lt_iff hx hy, value, value, div_lt_div_iff_of_pos_right (by positivity), Int.cast_lt]

theorem value_le_iff (hx : x.isFinite = true) (hy : y.isFinite = true) :
    value x ≤ value y ↔ x ≤ y := by
  rw [le_iff hx hy, value, value, div_le_div_iff_of_pos_right (by positivity), Int.cast_le]

theorem value_eq_iff (hx : x.isFinite = true) (hy : y.isFinite = true) :
    value x = value y ↔ (x == y) = true := by
  rw [beq_iff hx hy, value, value, div_left_inj' (by positivity), Int.cast_inj]

theorem value_le_of_not_lt (hx : x.isFinite = true) (hy : y.isFinite = true) (h : ¬ x < y) :
    value y ≤ value x :=
  le_of_not_gt fun hlt => h ((value_lt_iff hx hy).1 hlt)

end Binary64

open Binary64 (value)

/-! ## Points, paths and rings -/

/-- Where a coordinate lies in the plane. -/
noncomputable def Coord.place (c : Coord) : ℝ × ℝ := (value c.x, value c.y)

theorem Coord.isFinite_iff {c : Coord} :
    c.isFinite = true ↔ c.x.isFinite = true ∧ c.y.isFinite = true := by
  rw [isFinite, Bool.and_eq_true]

theorem Coord.place_le_iff {p q : Coord} :
    p.place ≤ q.place ↔ value p.x ≤ value q.x ∧ value p.y ≤ value q.y :=
  Iff.rfl

namespace Plane

variable {α : Type}

/-- The sides of a path. -/
def sides (ps : List α) : List (α × α) := ps.zip ps.tail

@[simp] theorem sides_singleton (p : α) : sides [p] = [] := rfl

@[simp] theorem sides_cons_cons (p q : α) (ps : List α) :
    sides (p :: q :: ps) = (p, q) :: sides (q :: ps) := rfl

theorem mem_of_mem_sides {ps : List α} {s : α × α} (h : s ∈ sides ps) : s.1 ∈ ps ∧ s.2 ∈ ps :=
  ⟨(List.of_mem_zip h).1, List.mem_of_mem_tail (List.of_mem_zip h).2⟩

theorem sides_map {β : Type} (f : α → β) (ps : List α) :
    sides (ps.map f) = (sides ps).map (Prod.map f f) := by
  rw [sides, sides, ← List.map_tail, List.zip_map]

theorem sides_append_cons (ps : List α) (p q : α) :
    sides (ps ++ [p, q]) = sides (ps ++ [p]) ++ [(p, q)] := by
  induction ps with
  | nil => rfl
  | cons a ps ih =>
    cases ps with
    | nil => rfl
    | cons b ps => simpa using ih

/-- The points on a path. -/
def path (ps : List (ℝ × ℝ)) : Set (ℝ × ℝ) := {z | ∃ s ∈ sides ps, z ∈ segment ℝ s.1 s.2}

/-- Twice the area of the triangle of a side and a point, positive when the point is on the left. -/
def area (z a b : ℝ × ℝ) : ℝ := (b.1 - z.1) * (z.2 - a.2) + (a.1 - z.1) * (b.2 - z.2)

/-- How a side crosses the ray from a point to the right: upwards counts one, downwards counts
minus one. A side has its lower end and not its upper end. -/
noncomputable def passes (z a b : ℝ × ℝ) : ℤ :=
  if a.2 ≤ z.2 ∧ z.2 < b.2 ∧ 0 < area z a b then 1
  else if b.2 ≤ z.2 ∧ z.2 < a.2 ∧ area z a b < 0 then -1
  else 0

/-- How often a ring goes around a point, counter-clockwise. -/
noncomputable def winding (ring : List (ℝ × ℝ)) (z : ℝ × ℝ) : ℤ :=
  ((sides ring).map fun s => passes z s.1 s.2).sum

variable {z low high : ℝ × ℝ} {ps : List (ℝ × ℝ)}

theorem path_subset_Icc (h : ∀ p ∈ ps, p ∈ Set.Icc low high) : path ps ⊆ Set.Icc low high := by
  rintro z ⟨s, hs, hz⟩
  have hends := mem_of_mem_sides hs
  exact (convex_Icc low high).segment_subset (h _ hends.1) (h _ hends.2) hz

theorem passes_of_left {a b : ℝ × ℝ} (ha : z.1 < a.1) (hb : z.1 < b.1) :
    passes z a b = (if z.2 < b.2 then 1 else 0) - (if z.2 < a.2 then 1 else 0) := by
  rw [passes, area]
  by_cases hza : z.2 < a.2 <;> by_cases hzb : z.2 < b.2
  · simp [hza, hzb, hza.not_ge, hzb.not_ge]
  · have harea : (b.1 - z.1) * (z.2 - a.2) + (a.1 - z.1) * (b.2 - z.2) < 0 :=
      add_neg_of_neg_of_nonpos (mul_neg_of_pos_of_neg (sub_pos.2 hb) (sub_neg.2 hza))
        (mul_nonpos_of_nonneg_of_nonpos (sub_pos.2 ha).le (sub_nonpos.2 (not_lt.1 hzb)))
    simp [hza, hzb, hza.not_ge, not_lt.1 hzb, harea]
  · have harea : 0 < (b.1 - z.1) * (z.2 - a.2) + (a.1 - z.1) * (b.2 - z.2) :=
      add_pos_of_nonneg_of_pos (mul_nonneg (sub_pos.2 hb).le (sub_nonneg.2 (not_lt.1 hza)))
        (mul_pos (sub_pos.2 ha) (sub_pos.2 hzb))
    simp [hza, hzb, not_lt.1 hza, harea]
  · simp [hza, hzb]

theorem passes_of_right {a b : ℝ × ℝ} (ha : a.1 < z.1) (hb : b.1 < z.1) : passes z a b = 0 := by
  rw [passes, area, if_neg, if_neg]
  · rintro ⟨hzb, hza, harea⟩
    refine harea.not_ge (add_nonneg (mul_nonneg_of_nonpos_of_nonpos ?_ ?_)
      (mul_nonneg_of_nonpos_of_nonpos ?_ ?_)) <;> linarith
  · rintro ⟨hza, hzb, harea⟩
    refine harea.not_ge (add_nonpos (mul_nonpos_of_nonpos_of_nonneg ?_ ?_)
      (mul_nonpos_of_nonpos_of_nonneg ?_ ?_)) <;> linarith

theorem passes_of_below {a b : ℝ × ℝ} (ha : z.2 < a.2) (hb : z.2 < b.2) : passes z a b = 0 := by
  rw [passes, if_neg fun h => h.1.not_gt ha, if_neg fun h => h.1.not_gt hb]

theorem passes_of_above {a b : ℝ × ℝ} (ha : a.2 ≤ z.2) (hb : b.2 ≤ z.2) : passes z a b = 0 := by
  rw [passes, if_neg fun h => h.2.1.not_ge hb, if_neg fun h => h.2.1.not_ge ha]

/-- What a function gains along a path. -/
theorem sum_sides_sub (f : α → ℤ) (p : α) (ps : List α) :
    ((sides (p :: ps)).map fun s => f s.2 - f s.1).sum = f (ps.getLast?.getD p) - f p := by
  induction ps generalizing p with
  | nil => simp
  | cons q ps ih =>
    rw [sides_cons_cons, List.map_cons, List.sum_cons, ih q, List.getLast?_cons, Option.getD_some]
    ring

/-- A closed ring does not go around points outside of a rectangle that has its corners. -/
theorem mem_Icc_of_winding_ne_zero (h : ∀ p ∈ ps, p ∈ Set.Icc low high)
    (hclosed : ps.head? = ps.getLast?) (hz : winding ps z ≠ 0) : z ∈ Set.Icc low high := by
  have hends : ∀ s ∈ sides ps, s.1 ∈ Set.Icc low high ∧ s.2 ∈ Set.Icc low high :=
    fun s hs => ⟨h _ (mem_of_mem_sides hs).1, h _ (mem_of_mem_sides hs).2⟩
  have hzero : ¬ ∀ s ∈ sides ps, passes z s.1 s.2 = 0 := by
    intro hall
    rw [winding, List.map_congr_left hall] at hz
    simp at hz
  refine ⟨⟨?_, ?_⟩, ?_, ?_⟩ <;> by_contra hout <;> rw [not_le] at hout
  · -- All sides are on the right, and a closed ring comes back to the height where it starts.
    cases ps with
    | nil => exact hz rfl
    | cons p ps =>
      have hpasses : ∀ s ∈ sides (p :: ps), passes z s.1 s.2 =
          (if z.2 < s.2.2 then 1 else 0) - (if z.2 < s.1.2 then 1 else 0) := fun s hs =>
        passes_of_left (hout.trans_le (hends s hs).1.1.1) (hout.trans_le (hends s hs).2.1.1)
      have hgain := sum_sides_sub (fun q : ℝ × ℝ => if z.2 < q.2 then 1 else 0) p ps
      rw [List.head?_cons, List.getLast?_cons, Option.some_inj] at hclosed
      rw [← hclosed, sub_self] at hgain
      rw [winding, List.map_congr_left hpasses] at hz
      exact hz hgain
  · exact hzero fun s hs =>
      passes_of_below (hout.trans_le (hends s hs).1.1.2) (hout.trans_le (hends s hs).2.1.2)
  · exact hzero fun s hs =>
      passes_of_right ((hends s hs).1.2.1.trans_lt hout) ((hends s hs).2.2.1.trans_lt hout)
  · exact hzero fun s hs =>
      passes_of_above ((hends s hs).1.2.2.trans hout.le) ((hends s hs).2.2.2.trans hout.le)

end Plane

open Plane

/-! ## The ground of geometries -/

/-- The corners of a ring in the plane. -/
noncomputable def placed (ring : List Coord) : List (ℝ × ℝ) := ring.map Coord.place

/-- The points of a polygon: those on its outer ring and those that this goes around, less those that
a hole goes around. The edge of a hole belongs to the polygon. -/
def Polygon.ground (p : Polygon) : Set (ℝ × ℝ) :=
  {z | (z ∈ path (placed p.exterior) ∨ winding (placed p.exterior) z ≠ 0) ∧
    ∀ hole ∈ p.holes, winding (placed hole) z ≠ 0 → z ∈ path (placed hole)}

/-- The points of a box. -/
def Box.ground (b : Box) : Set (ℝ × ℝ) := Set.Icc b.low.place b.high.place

namespace Geometry

mutual

/-- The points that a geometry covers. -/
def ground : Geometry → Set (ℝ × ℝ)
  | point p => {p.place}
  | line a b => path (placed [a, b])
  | lineString ps => path (placed ps)
  | polygon p => p.ground
  | multiPoint ps => {z | ∃ p ∈ ps, z = p.place}
  | multiLineString ls => {z | ∃ ps ∈ ls, z ∈ path (placed ps)}
  | multiPolygon ps => {z | ∃ p ∈ ps, z ∈ p.ground}
  | collection gs => groundOfParts gs
  | rect b => b.ground
  | triangle a b c => (Polygon.mk [a, b, c, a] []).ground

/-- The points that any of several geometries covers. -/
def groundOfParts : List Geometry → Set (ℝ × ℝ)
  | [] => ∅
  | g :: gs => ground g ∪ groundOfParts gs

end

theorem mem_groundOfParts_iff {gs : List Geometry} {z : ℝ × ℝ} :
    z ∈ groundOfParts gs ↔ ∃ g ∈ gs, z ∈ g.ground := by
  induction gs with
  | nil => simp [groundOfParts]
  | cons g gs ih => simp [groundOfParts, ih]

/-- A geometry covers what its parts cover. -/
theorem mem_ground_iff_components {g : Geometry} {z : ℝ × ℝ} :
    z ∈ g.ground ↔ ∃ part ∈ g.components, z ∈ part.ground := by
  cases g with
  | multiPoint ps => simp [components, ground]
  | multiLineString ls => simp [components, ground]
  | multiPolygon ps => simp [components, ground]
  | collection gs => exact mem_groundOfParts_iff
  | _ => simp [components]

end Geometry

/-! ## Boxes -/

namespace Box

/-- A box with finite corners that are in order. -/
structure IsProper (b : Box) : Prop where
  /-- The corner with the least coordinates is finite. -/
  low_isFinite : b.low.isFinite = true
  /-- The corner with the greatest coordinates is finite. -/
  high_isFinite : b.high.isFinite = true
  /-- The corners are in order on both axes. -/
  low_le_high : b.low.place ≤ b.high.place

/-- A box is proper if its doubles are in order. -/
theorem isProper_of_le {b : Box} (hlow : b.low.isFinite = true) (hhigh : b.high.isFinite = true)
    (hx : b.low.x ≤ b.high.x) (hy : b.low.y ≤ b.high.y) : b.IsProper :=
  ⟨hlow, hhigh, Coord.place_le_iff.2
    ⟨(Binary64.value_le_iff (Coord.isFinite_iff.1 hlow).1 (Coord.isFinite_iff.1 hhigh).1).2 hx,
      (Binary64.value_le_iff (Coord.isFinite_iff.1 hlow).2 (Coord.isFinite_iff.1 hhigh).2).2 hy⟩⟩

variable {a b : Box} {z : ℝ × ℝ}

theorem mem_ground_iff : z ∈ b.ground ↔
    (value b.low.x ≤ z.1 ∧ value b.low.y ≤ z.2) ∧ z.1 ≤ value b.high.x ∧ z.2 ≤ value b.high.y :=
  Iff.rfl

theorem IsProper.low_mem (h : b.IsProper) : b.low.place ∈ b.ground :=
  Set.left_mem_Icc.2 h.low_le_high

theorem IsProper.high_mem (h : b.IsProper) : b.high.place ∈ b.ground :=
  Set.right_mem_Icc.2 h.low_le_high

theorem ground_subset (hlow : a.low.place ∈ b.ground) (hhigh : a.high.place ∈ b.ground) :
    a.ground ⊆ b.ground :=
  Set.Icc_subset_Icc hlow.1 hhigh.2

end Box

/-- Two numbers in order. -/
def inOrder (x y : Float) : Float × Float := if x < y then (x, y) else (y, x)

theorem inOrder_spec {x y : Float} (hx : x.isFinite = true) (hy : y.isFinite = true) :
    ((inOrder x y).1.isFinite = true ∧ (inOrder x y).2.isFinite = true) ∧
      (value (inOrder x y).1 ≤ value x ∧ value (inOrder x y).1 ≤ value y) ∧
        value x ≤ value (inOrder x y).2 ∧ value y ≤ value (inOrder x y).2 := by
  rw [inOrder]
  split
  next h =>
    have hle := ((Binary64.value_lt_iff hx hy).2 h).le
    exact ⟨⟨hx, hy⟩, ⟨le_rfl, hle⟩, hle, le_rfl⟩
  next h =>
    have hle := Binary64.value_le_of_not_lt hx hy h
    exact ⟨⟨hy, hx⟩, ⟨hle, le_rfl⟩, le_rfl, hle⟩

/-- The box of two corners has both of them. -/
theorem Box.ofCorners_spec {p q : Coord} (hp : p.isFinite = true) (hq : q.isFinite = true) :
    (ofCorners p q).IsProper ∧ p.place ∈ (ofCorners p q).ground ∧
      q.place ∈ (ofCorners p q).ground := by
  rw [Coord.isFinite_iff] at hp hq
  obtain ⟨⟨hx, hx'⟩, ⟨hpx, hqx⟩, hpx', hqx'⟩ := inOrder_spec hp.1 hq.1
  obtain ⟨⟨hy, hy'⟩, ⟨hpy, hqy⟩, hpy', hqy'⟩ := inOrder_spec hp.2 hq.2
  have hlow : (ofCorners p q).low = ⟨(inOrder p.x q.x).1, (inOrder p.y q.y).1⟩ := rfl
  have hhigh : (ofCorners p q).high = ⟨(inOrder p.x q.x).2, (inOrder p.y q.y).2⟩ := rfl
  refine ⟨⟨?_, ?_, ?_⟩, ?_, ?_⟩
  · exact hlow ▸ Coord.isFinite_iff.2 ⟨hx, hy⟩
  · exact hhigh ▸ Coord.isFinite_iff.2 ⟨hx', hy'⟩
  · exact ⟨hpx.trans hpx', hpy.trans hpy'⟩
  · exact ⟨⟨hpx, hpy⟩, hpx', hpy'⟩
  · exact ⟨⟨hqx, hqy⟩, hqx', hqy'⟩

/-- A range of finite numbers that has a number. -/
structure HasWithin (range : Float × Float) (v : Float) : Prop where
  /-- The least number is finite. -/
  least_isFinite : range.1.isFinite = true
  /-- The greatest number is finite. -/
  greatest_isFinite : range.2.isFinite = true
  /-- The number is not below the range. -/
  least_le : value range.1 ≤ value v
  /-- The number is not above the range. -/
  le_greatest : value v ≤ value range.2

theorem HasWithin.widen {range : Float × Float} {v w : Float} (h : HasWithin range v)
    (hw : w.isFinite = true) : HasWithin (widen range w) w ∧ HasWithin (widen range w) v := by
  obtain ⟨hleast, hgreatest, hle, hle'⟩ := h
  rw [StreamCatalog.widen]
  split
  next hlt =>
    have hlt := (Binary64.value_lt_iff hgreatest hw).2 hlt
    exact ⟨⟨hleast, hw, (hle.trans hle').trans hlt.le, le_rfl⟩,
      ⟨hleast, hw, hle, hle'.trans hlt.le⟩⟩
  next hnot =>
    have hnot := Binary64.value_le_of_not_lt hgreatest hw hnot
    split
    next hlt =>
      have hlt := (Binary64.value_lt_iff hw hleast).2 hlt
      exact ⟨⟨hw, hgreatest, le_rfl, hnot⟩, ⟨hw, hgreatest, hlt.le.trans hle, hle'⟩⟩
    next hnot' =>
      have hnot' := Binary64.value_le_of_not_lt hw hleast hnot'
      exact ⟨⟨hleast, hgreatest, hnot', hnot⟩, ⟨hleast, hgreatest, hle, hle'⟩⟩

theorem HasWithin.foldl_widen {cs : List Coord} {f : Coord → Float} {range : Float × Float}
    {v : Float} (hcs : ∀ c ∈ cs, (f c).isFinite = true) (h : HasWithin range v) :
    HasWithin (cs.foldl (fun range c => StreamCatalog.widen range (f c)) range) v ∧
      ∀ c ∈ cs, HasWithin (cs.foldl (fun range c => StreamCatalog.widen range (f c)) range) (f c) := by
  induction cs generalizing range v with
  | nil => exact ⟨h, nofun⟩
  | cons c cs ih =>
    obtain ⟨hfirst, hrest⟩ := List.forall_mem_cons.1 hcs
    obtain ⟨hc, hv⟩ := h.widen hfirst
    exact ⟨(ih hrest hv).1, List.forall_mem_cons.2 (ih hrest hc)⟩

namespace Box

theorem place_mem_ground {b : Box} {p q c : Coord} (hp : p.place ∈ b.ground) (hq : q.place ∈ b.ground)
    (hx : value p.x ≤ value c.x ∧ value c.x ≤ value q.x)
    (hy : value p.y ≤ value c.y ∧ value c.y ≤ value q.y) : c.place ∈ b.ground :=
  ⟨hp.1.trans (Coord.place_le_iff.2 ⟨hx.1, hy.1⟩), (Coord.place_le_iff.2 ⟨hx.2, hy.2⟩).trans hq.2⟩

/-- The box around points has all of them. -/
theorem exists_around? {cs : List Coord} (hne : cs ≠ []) (hcs : ∀ c ∈ cs, c.isFinite = true) :
    ∃ b, around? cs = some b ∧ b.IsProper ∧ ∀ c ∈ cs, c.place ∈ b.ground := by
  cases cs with
  | nil => exact absurd rfl hne
  | cons first rest =>
    obtain ⟨hfirst, hrest⟩ := List.forall_mem_cons.1 hcs
    rw [Coord.isFinite_iff] at hfirst
    obtain ⟨hx, hxs⟩ := HasWithin.foldl_widen (f := Coord.x)
      (fun c hc => (Coord.isFinite_iff.1 (hrest c hc)).1)
      (⟨hfirst.1, hfirst.1, le_rfl, le_rfl⟩ : HasWithin (first.x, first.x) first.x)
    obtain ⟨hy, hys⟩ := HasWithin.foldl_widen (f := Coord.y)
      (fun c hc => (Coord.isFinite_iff.1 (hrest c hc)).2)
      (⟨hfirst.2, hfirst.2, le_rfl, le_rfl⟩ : HasWithin (first.y, first.y) first.y)
    rw [around?]
    generalize rest.foldl (fun range c => widen range c.x) (first.x, first.x) = xs at hx hxs ⊢
    generalize rest.foldl (fun range c => widen range c.y) (first.y, first.y) = ys at hy hys ⊢
    obtain ⟨hproper, hlow, hhigh⟩ := ofCorners_spec
      (Coord.isFinite_iff (c := ⟨xs.1, ys.1⟩) |>.2 ⟨hx.least_isFinite, hy.least_isFinite⟩)
      (Coord.isFinite_iff (c := ⟨xs.2, ys.2⟩) |>.2 ⟨hx.greatest_isFinite, hy.greatest_isFinite⟩)
    refine ⟨_, rfl, hproper, List.forall_mem_cons.2 ⟨?_, fun c hc => ?_⟩⟩
    · exact place_mem_ground hlow hhigh ⟨hx.least_le, hx.le_greatest⟩ ⟨hy.least_le, hy.le_greatest⟩
    · exact place_mem_ground hlow hhigh ⟨(hxs c hc).least_le, (hxs c hc).le_greatest⟩
        ⟨(hys c hc).least_le, (hys c hc).le_greatest⟩

theorem widen_mem {P : Float → Prop} {range : Float × Float} {v : Float}
    (hrange : P range.1 ∧ P range.2) (hv : P v) :
    P (widen range v).1 ∧ P (widen range v).2 := by
  rw [widen]
  split
  next => exact ⟨hrange.1, hv⟩
  next =>
    split
    next => exact ⟨hv, hrange.2⟩
    next => exact hrange

theorem foldl_widen_mem {P : Float → Prop} {cs : List Coord} {f : Coord → Float}
    {r : Float × Float} (hr : P r.1 ∧ P r.2) (hcs : ∀ c ∈ cs, P (f c)) :
    P (cs.foldl (fun range c => widen range (f c)) r).1 ∧
      P (cs.foldl (fun range c => widen range (f c)) r).2 := by
  induction cs generalizing r with
  | nil => exact hr
  | cons c cs ih =>
    obtain ⟨hfirst, hrest⟩ := List.forall_mem_cons.1 hcs
    exact ih (widen_mem hr hfirst) hrest

/-- A box that has two corners has the box of the corners. -/
theorem ground_ofCorners_subset {b : Box} {p q : Coord} (hp : p.place ∈ b.ground)
    (hq : q.place ∈ b.ground) : (ofCorners p q).ground ⊆ b.ground := by
  rw [mem_ground_iff, Coord.place] at hp hq
  refine ground_subset (mem_ground_iff.2 ?_) (mem_ground_iff.2 ?_) <;>
    simp only [ofCorners, Coord.place] <;> split_ifs <;> tauto

/-- The box around points is the least one. -/
theorem ground_around?_subset {a b : Box} {cs : List Coord} (ha : around? cs = some a)
    (hcs : ∀ c ∈ cs, c.place ∈ b.ground) : a.ground ⊆ b.ground := by
  cases cs with
  | nil => cases ha
  | cons first rest =>
    obtain ⟨hfirst, hrest⟩ := List.forall_mem_cons.1 hcs
    cases ha
    obtain ⟨hx, hx'⟩ := foldl_widen_mem (f := Coord.x) (r := (first.x, first.x))
      (P := fun v => value b.low.x ≤ value v ∧ value v ≤ value b.high.x)
      ⟨⟨hfirst.1.1, hfirst.2.1⟩, hfirst.1.1, hfirst.2.1⟩
      fun c hc => ⟨(hrest c hc).1.1, (hrest c hc).2.1⟩
    obtain ⟨hy, hy'⟩ := foldl_widen_mem (f := Coord.y) (r := (first.y, first.y))
      (P := fun v => value b.low.y ≤ value v ∧ value v ≤ value b.high.y)
      ⟨⟨hfirst.1.2, hfirst.2.2⟩, hfirst.1.2, hfirst.2.2⟩
      fun c hc => ⟨(hrest c hc).1.2, (hrest c hc).2.2⟩
    exact ground_ofCorners_subset (mem_ground_iff.2 ⟨⟨hx.1, hy.1⟩, hx.2, hy.2⟩)
      (mem_ground_iff.2 ⟨⟨hx'.1, hy'.1⟩, hx'.2, hy'.2⟩)

theorem lesser_spec {x y : Float} (hx : x.isFinite = true) (hy : y.isFinite = true) :
    (lesser x y).isFinite = true ∧ value (lesser x y) ≤ value x ∧ value (lesser x y) ≤ value y := by
  have hordered := inOrder_spec hx hy
  have heq : (inOrder x y).1 = lesser x y := apply_ite Prod.fst _ _ _
  rw [heq] at hordered
  exact ⟨hordered.1.1, hordered.2.1⟩

theorem greater_spec {x y : Float} (hx : x.isFinite = true) (hy : y.isFinite = true) :
    (greater x y).isFinite = true ∧ value x ≤ value (greater x y) ∧ value y ≤ value (greater x y) := by
  have hordered := inOrder_spec hy hx
  have heq : (inOrder y x).2 = greater x y := apply_ite Prod.snd _ _ _
  rw [heq] at hordered
  exact ⟨hordered.1.2, hordered.2.2.symm⟩

/-- The box around two boxes has both of them. -/
theorem join_spec {a b : Box} (ha : a.IsProper) (hb : b.IsProper) :
    (a.join b).IsProper ∧ a.ground ⊆ (a.join b).ground ∧ b.ground ⊆ (a.join b).ground := by
  have halow := Coord.isFinite_iff.1 ha.low_isFinite
  have hahigh := Coord.isFinite_iff.1 ha.high_isFinite
  have hblow := Coord.isFinite_iff.1 hb.low_isFinite
  have hbhigh := Coord.isFinite_iff.1 hb.high_isFinite
  obtain ⟨hlx, hlxa, hlxb⟩ := lesser_spec halow.1 hblow.1
  obtain ⟨hly, hlya, hlyb⟩ := lesser_spec halow.2 hblow.2
  obtain ⟨hgx, hgxa, hgxb⟩ := greater_spec hahigh.1 hbhigh.1
  obtain ⟨hgy, hgya, hgyb⟩ := greater_spec hahigh.2 hbhigh.2
  obtain ⟨hax, hay⟩ := Coord.place_le_iff.1 ha.low_le_high
  obtain ⟨hbx, hby⟩ := Coord.place_le_iff.1 hb.low_le_high
  obtain ⟨hproper, hlow, hhigh⟩ := ofCorners_spec
    (p := ⟨lesser a.low.x b.low.x, lesser a.low.y b.low.y⟩)
    (q := ⟨greater a.high.x b.high.x, greater a.high.y b.high.y⟩)
    (Coord.isFinite_iff.2 ⟨hlx, hly⟩) (Coord.isFinite_iff.2 ⟨hgx, hgy⟩)
  refine ⟨hproper, ground_subset ?_ ?_, ground_subset ?_ ?_⟩ <;> refine place_mem_ground hlow hhigh ?_ ?_
  · exact ⟨hlxa, hax.trans hgxa⟩
  · exact ⟨hlya, hay.trans hgya⟩
  · exact ⟨hlxa.trans hax, hgxa⟩
  · exact ⟨hlya.trans hay, hgya⟩
  · exact ⟨hlxb, hbx.trans hgxb⟩
  · exact ⟨hlyb, hby.trans hgyb⟩
  · exact ⟨hlxb.trans hbx, hgxb⟩
  · exact ⟨hlyb.trans hby, hgyb⟩

variable {a b : Box}

theorem IsProper.isSolid_iff (h : b.IsProper) :
    b.isSolid = true ↔ value b.low.x < value b.high.x ∧ value b.low.y < value b.high.y := by
  have hlow := Coord.isFinite_iff.1 h.low_isFinite
  have hhigh := Coord.isFinite_iff.1 h.high_isFinite
  rw [isSolid, Bool.and_eq_true, decide_eq_true_eq, decide_eq_true_eq, width, height,
    Binary64.zero_lt_sub_iff hhigh.1 hlow.1, Binary64.zero_lt_sub_iff hhigh.2 hlow.2,
    Binary64.value_lt_iff hlow.1 hhigh.1, Binary64.value_lt_iff hlow.2 hhigh.2]

theorem IsProper.meets_iff (ha : a.IsProper) (hb : b.IsProper) :
    a.meets b = true ↔ (value a.low.x ≤ value b.high.x ∧ value b.low.x ≤ value a.high.x) ∧
      value a.low.y ≤ value b.high.y ∧ value b.low.y ≤ value a.high.y := by
  have halow := Coord.isFinite_iff.1 ha.low_isFinite
  have hahigh := Coord.isFinite_iff.1 ha.high_isFinite
  have hblow := Coord.isFinite_iff.1 hb.low_isFinite
  have hbhigh := Coord.isFinite_iff.1 hb.high_isFinite
  simp only [meets, Bool.and_eq_true, decide_eq_true_eq, Binary64.value_le_iff halow.1 hbhigh.1,
    Binary64.value_le_iff hblow.1 hahigh.1, Binary64.value_le_iff halow.2 hbhigh.2,
    Binary64.value_le_iff hblow.2 hahigh.2, and_assoc]

/-- Boxes meet if they have a point in common. -/
theorem IsProper.meets_iff_inter (ha : a.IsProper) (hb : b.IsProper) :
    a.meets b = true ↔ (a.ground ∩ b.ground).Nonempty := by
  rw [ha.meets_iff hb]
  obtain ⟨hax, hay⟩ := Coord.place_le_iff.1 ha.low_le_high
  obtain ⟨hbx, hby⟩ := Coord.place_le_iff.1 hb.low_le_high
  constructor
  · rintro ⟨⟨hx, hx'⟩, hy, hy'⟩
    refine ⟨(max (value a.low.x) (value b.low.x), max (value a.low.y) (value b.low.y)),
      mem_ground_iff.2 ⟨⟨?_, ?_⟩, ?_, ?_⟩, mem_ground_iff.2 ⟨⟨?_, ?_⟩, ?_, ?_⟩⟩ <;> simp [*]
  · rintro ⟨z, ha, hb⟩
    rw [mem_ground_iff] at ha hb
    exact ⟨⟨ha.1.1.trans hb.2.1, hb.1.1.trans ha.2.1⟩, ha.1.2.trans hb.2.2, hb.1.2.trans ha.2.2⟩

end Box

/-! ## Bounding boxes -/

theorem head?_placed_of_isClosedRing {ring : List Coord} (hring : ∀ c ∈ ring, c.isFinite = true)
    (hclosed : isClosedRing ring = true) : (placed ring).head? = (placed ring).getLast? := by
  rw [placed, List.head?_map, List.getLast?_map]
  rw [isClosedRing] at hclosed
  cases hhead : ring.head? with
  | none =>
    rw [List.head?_eq_none_iff] at hhead
    rw [hhead]
    rfl
  | some c =>
    cases hlast : ring.getLast? with
    | none =>
      rw [hhead, hlast] at hclosed
      cases hclosed
    | some d =>
      rw [hhead, hlast, Option.some_beq_some, Coord.beq_iff] at hclosed
      have hc := Coord.isFinite_iff.1 (hring c (List.mem_of_head? hhead))
      have hd := Coord.isFinite_iff.1 (hring d (List.mem_of_getLast? hlast))
      refine congrArg some (Prod.ext ?_ ?_)
      · exact (Binary64.value_eq_iff hc.1 hd.1).2 hclosed.1
      · exact (Binary64.value_eq_iff hc.2 hd.2).2 hclosed.2

/-- A box that has the corners of a path has all of it. -/
theorem Box.path_subset_ground {b : Box} {ps : List Coord} (h : ∀ c ∈ ps, c.place ∈ b.ground) :
    path (placed ps) ⊆ b.ground :=
  path_subset_Icc (List.forall_mem_map.2 h)

/-- A box that has the corners of the outer ring of a polygon has all of it. -/
theorem Polygon.ground_subset {p : Polygon} {b : Box}
    (hfinite : ∀ c ∈ p.exterior, c.isFinite = true) (hclosed : isClosedRing p.exterior = true)
    (h : ∀ c ∈ p.exterior, c.place ∈ b.ground) : p.ground ⊆ b.ground := by
  rintro z ⟨hpath | hwinding, -⟩
  · exact Box.path_subset_ground h hpath
  · exact mem_Icc_of_winding_ne_zero (List.forall_mem_map.2 h)
      (head?_placed_of_isClosedRing hfinite hclosed) hwinding

namespace Geometry

/-- A proper box around a geometry. -/
def IsBounded (g : Geometry) : Prop :=
  ∃ b, g.box? = some b ∧ b.IsProper ∧ g.ground ⊆ b.ground

theorem exists_boxOfParts {gs : List Geometry} {around : Option Box}
    (haround : ∀ a, around = some a → a.IsProper) (hgs : ∀ g ∈ gs, g.IsBounded)
    (hne : around = none → gs ≠ []) :
    ∃ b, boxOfParts around gs = some b ∧ b.IsProper ∧
      (∀ a, around = some a → a.ground ⊆ b.ground) ∧ ∀ g ∈ gs, g.ground ⊆ b.ground := by
  induction gs generalizing around with
  | nil =>
    cases around with
    | none => exact absurd rfl (hne rfl)
    | some a => exact ⟨a, rfl, haround a rfl, fun _ h => by cases h; exact subset_rfl, nofun⟩
  | cons g gs ih =>
    obtain ⟨⟨c, hc, hproper, hground⟩, hgs⟩ := List.forall_mem_cons.1 hgs
    obtain ⟨d, hd, hd', hda, hdc⟩ : ∃ d, Box.join? around (some c) = some d ∧ d.IsProper ∧
        (∀ a, around = some a → a.ground ⊆ d.ground) ∧ c.ground ⊆ d.ground := by
      cases around with
      | none => exact ⟨c, rfl, hproper, nofun, subset_rfl⟩
      | some a =>
        obtain ⟨hjoin, hja, hjc⟩ := Box.join_spec (haround a rfl) hproper
        exact ⟨_, rfl, hjoin, fun _ h => by cases h; exact hja, hjc⟩
    have hproper' : ∀ a, some d = some a → a.IsProper := fun _ h => by cases h; exact hd'
    obtain ⟨b, hb, hb', hbd, hbgs⟩ := ih hproper' hgs nofun
    refine ⟨b, ?_, hb', fun a ha => (hda a ha).trans (hbd d rfl), List.forall_mem_cons.2 ⟨?_, hbgs⟩⟩
    · rw [boxOfParts, hc, hd, hb]
    · exact hground.trans (hdc.trans (hbd d rfl))

theorem isFinite_of_isValid {g : Geometry} (hg : g.isValid = true) :
    ∀ c ∈ g.coords, c.isFinite = true := by
  rw [isValid, Bool.and_eq_true, List.all_eq_true] at hg
  exact hg.1

theorem isClosedRing_of_isValid {p : Polygon} (hp : p.isValid = true) :
    p.exterior ≠ [] ∧ isClosedRing p.exterior = true := by
  rw [Polygon.isValid, Bool.and_eq_true, Bool.and_eq_true, Polygon.ringIsValid,
    Bool.and_eq_true, decide_eq_true_eq] at hp
  exact ⟨List.ne_nil_of_length_pos (by omega), hp.1.1.2⟩

theorem isBounded_of_around {g : Geometry} {cs : List Coord} (hbox : g.box? = Box.around? cs)
    (hne : cs ≠ []) (hcs : ∀ c ∈ cs, c.isFinite = true)
    (hground : ∀ b : Box, (∀ c ∈ cs, c.place ∈ b.ground) → g.ground ⊆ b.ground) : g.IsBounded := by
  obtain ⟨b, hb, hproper, hmem⟩ := Box.exists_around? hne hcs
  exact ⟨b, hbox.trans hb, hproper, hground b hmem⟩

mutual

/-- The bounding box of a valid geometry covers all of it. -/
theorem exists_box : ∀ {g : Geometry}, g.isValid = true → g.IsBounded
  | point p, hg => by
    have hp := isFinite_of_isValid hg p (List.mem_singleton_self p)
    obtain ⟨hproper, hmem, -⟩ := Box.ofCorners_spec hp hp
    exact ⟨_, rfl, hproper, Set.singleton_subset_iff.2 hmem⟩
  | line a b, hg => by
    have hfinite := isFinite_of_isValid hg
    obtain ⟨hproper, ha, hb⟩ := Box.ofCorners_spec (hfinite a (by simp [coords]))
      (hfinite b (by simp [coords]))
    exact ⟨_, rfl, hproper, Box.path_subset_ground (by simpa using ⟨ha, hb⟩)⟩
  | lineString ps, hg => by
    have hlength : 2 ≤ ps.length := of_decide_eq_true (Bool.and_eq_true_iff.1 hg).2
    exact isBounded_of_around rfl (List.ne_nil_of_length_pos (by omega)) (isFinite_of_isValid hg)
      fun b hb => Box.path_subset_ground hb
  | polygon p, hg => by
    obtain ⟨hne, hclosed⟩ := isClosedRing_of_isValid (Bool.and_eq_true_iff.1 hg).2
    have hfinite : ∀ c ∈ p.exterior, c.isFinite = true :=
      fun c hc => isFinite_of_isValid hg c (List.mem_append_left _ hc)
    exact isBounded_of_around rfl hne hfinite fun b hb => Polygon.ground_subset hfinite hclosed hb
  | multiPoint ps, hg => by
    have hne : ps ≠ [] := by simpa [isComplete] using (Bool.and_eq_true_iff.1 hg).2
    refine isBounded_of_around rfl hne (isFinite_of_isValid hg) fun b hb => ?_
    rintro z ⟨p, hp, rfl⟩
    exact hb p hp
  | multiLineString ls, hg => by
    have hcomplete : ls ≠ [] ∧ ∀ ps ∈ ls, 2 ≤ ps.length := by
      simpa [isComplete] using (Bool.and_eq_true_iff.1 hg).2
    obtain ⟨ps, hps⟩ := List.exists_mem_of_ne_nil ls hcomplete.1
    have hlength := hcomplete.2 ps hps
    refine isBounded_of_around rfl ?_ (isFinite_of_isValid hg) fun b hb => ?_
    · exact fun hnil => by simp [List.flatten_eq_nil_iff.1 hnil ps hps] at hlength
    · rintro z ⟨qs, hqs, hz⟩
      exact Box.path_subset_ground (fun c hc => hb c (List.mem_flatten_of_mem hqs hc)) hz
  | multiPolygon ps, hg => by
    have hcomplete : ps ≠ [] ∧ ∀ p ∈ ps, p.isValid = true := by
      simpa [isComplete] using (Bool.and_eq_true_iff.1 hg).2
    have hfinite : ∀ p ∈ ps, ∀ c ∈ p.exterior, c.isFinite = true := fun p hp c hc =>
      isFinite_of_isValid hg c (List.mem_flatMap.2 ⟨p, hp, List.mem_append_left _ hc⟩)
    obtain ⟨p, hp⟩ := List.exists_mem_of_ne_nil ps hcomplete.1
    refine isBounded_of_around rfl ?_ ?_ fun b hb => ?_
    · exact fun hnil =>
        (isClosedRing_of_isValid (hcomplete.2 p hp)).1 (List.flatMap_eq_nil_iff.1 hnil p hp)
    · intro c hc
      obtain ⟨q, hq, hc⟩ := List.mem_flatMap.1 hc
      exact hfinite q hq c hc
    · rintro z ⟨q, hq, hz⟩
      exact Polygon.ground_subset (hfinite q hq) (isClosedRing_of_isValid (hcomplete.2 q hq)).2
        (fun c hc => hb c (List.mem_flatMap.2 ⟨q, hq, hc⟩)) hz
  | collection gs, hg => by
    obtain ⟨hne, hgs⟩ := (isValid_iff_components (collection gs)).1 hg
    have hnone : ∀ a : Box, none = some a → a.IsProper := nofun
    obtain ⟨b, hb, hproper, -, hground⟩ := exists_boxOfParts hnone (exists_boxes hgs) fun _ => hne
    refine ⟨b, hb, hproper, fun z hz => ?_⟩
    obtain ⟨g, hg, hz⟩ := mem_groundOfParts_iff.1 hz
    exact hground g hg hz
  | rect b, hg => by
    have hfinite := isFinite_of_isValid hg
    have hlow : b.low.isFinite = true := hfinite _ (by simp [coords])
    have hhigh : b.high.isFinite = true := hfinite _ (by simp [coords])
    have hcomplete : (0.0 : Float) < b.width ∧ (0.0 : Float) < b.height := by
      simpa [isComplete] using (Bool.and_eq_true_iff.1 hg).2
    rw [Coord.isFinite_iff] at hlow hhigh
    rw [Box.width, Box.height, Binary64.zero_lt_sub_iff hhigh.1 hlow.1,
      Binary64.zero_lt_sub_iff hhigh.2 hlow.2, ← Binary64.value_lt_iff hlow.1 hhigh.1,
      ← Binary64.value_lt_iff hlow.2 hhigh.2] at hcomplete
    exact ⟨b, rfl, ⟨Coord.isFinite_iff.2 hlow, Coord.isFinite_iff.2 hhigh,
      Coord.place_le_iff.2 ⟨hcomplete.1.le, hcomplete.2.le⟩⟩, subset_rfl⟩
  | triangle p q r, hg => by
    have hfinite := isFinite_of_isValid hg
    have hp := Coord.isFinite_iff.1 (hfinite p (by simp [coords]))
    have hclosed : isClosedRing [p, q, r, p] = true := by
      refine (Option.some_beq_some (a := p) (b := p)).trans (Coord.beq_iff.2 ⟨?_, ?_⟩)
      · exact (Binary64.value_eq_iff hp.1 hp.1).1 rfl
      · exact (Binary64.value_eq_iff hp.2 hp.2).1 rfl
    have hcorner : ∀ c ∈ [p, q, r, p], c ∈ [p, q, r] := by simp
    exact isBounded_of_around rfl (List.cons_ne_nil _ _) hfinite fun b hb =>
      Polygon.ground_subset (fun c hc => hfinite c (hcorner c hc)) hclosed
        fun c hc => hb c (hcorner c hc)

/-- So are the bounding boxes of valid geometries. -/
theorem exists_boxes : ∀ {gs : List Geometry}, (∀ g ∈ gs, g.isValid = true) →
    ∀ g ∈ gs, g.IsBounded
  | [], _ => nofun
  | _ :: _, hgs => List.forall_mem_cons.2 ⟨exists_box (List.forall_mem_cons.1 hgs).1,
      exists_boxes (List.forall_mem_cons.1 hgs).2⟩

end

end Geometry

end StreamCatalog
