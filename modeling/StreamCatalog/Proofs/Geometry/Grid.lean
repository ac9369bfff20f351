import StreamCatalog.Geometry.BoxUnion
import StreamCatalog.Proofs.Geometry.Corners

/-!
# Grid lines through boxes

The lines through the sides of boxes are in order, each once (`Box.isOrdered_lines`). A point of
the plane lies in a cell of the grid, which has its left and lower sides; a box that has its left and
lower sides only consists of the cells of its span (`Box.IsSpan.contains_iff`). A ring of edges
goes around a cell as often as the ring of its corners goes around the points of the cell
(`winding_outlineRing`), and both have the same points (`mem_path_outlineRing_iff`).
-/

namespace StreamCatalog

open Binary64 (value)
open Region Plane

/-! ## Lines in order -/

/-- Finite numbers in strict order. -/
structure IsOrdered (lines : List Float) : Prop where
  /-- All numbers are finite. -/
  isFinite : ∀ v ∈ lines, v.isFinite = true
  /-- Each is less than those after it. -/
  pairwise : lines.Pairwise fun v w => value v < value w

/-- Where a line lies. -/
noncomputable def lineAt (lines : List Float) (i : Nat) : ℝ := value (lines.getD i 0.0)

/-- How many lines are not above a number. -/
noncomputable def linesUpTo (lines : List Float) (v : ℝ) : Nat :=
  lines.countP fun w => decide (value w ≤ v)

namespace IsOrdered

variable {lines : List Float} {i j : Nat} {v : ℝ}

theorem lineAt_lt (h : IsOrdered lines) (hj : j < lines.length) (hij : i < j) :
    lineAt lines i < lineAt lines j := by
  have hi := hij.trans hj
  have hlt := List.pairwise_iff_getElem.1 h.pairwise i j hi hj hij
  rwa [lineAt, lineAt, List.getD_eq_getElem lines _ hi, List.getD_eq_getElem lines _ hj]

theorem lineAt_lt_iff (h : IsOrdered lines) (hi : i < lines.length) (hj : j < lines.length) :
    lineAt lines i < lineAt lines j ↔ i < j := by
  refine ⟨fun hlt => ?_, h.lineAt_lt hj⟩
  by_contra hle
  rcases (not_lt.1 hle).eq_or_lt with rfl | hji
  · exact lt_irrefl _ hlt
  · exact lt_asymm hlt (h.lineAt_lt hi hji)

theorem tail {w : Float} (h : IsOrdered (w :: lines)) : IsOrdered lines :=
  ⟨fun v hv => h.isFinite v (List.mem_cons_of_mem w hv), (List.pairwise_cons.1 h.pairwise).2⟩

/-- The lines that are not above a number are the first ones. -/
theorem lt_linesUpTo_iff (h : IsOrdered lines) (hi : i < lines.length) :
    i < linesUpTo lines v ↔ lineAt lines i ≤ v := by
  induction lines generalizing i with
  | nil => exact absurd hi (Nat.not_lt_zero i)
  | cons w lines ih =>
    have hcount : linesUpTo (w :: lines) v = linesUpTo lines v + if value w ≤ v then 1 else 0 := by
      simp only [linesUpTo, List.countP_cons, decide_eq_true_eq]
    rw [hcount]
    by_cases hw : value w ≤ v
    · rw [if_pos hw]
      cases i with
      | zero => exact iff_of_true (Nat.succ_pos _) hw
      | succ i =>
        rw [Nat.add_lt_add_iff_right]
        exact ih h.tail (Nat.lt_of_succ_lt_succ hi)
    · have hnone : linesUpTo lines v = 0 := by
        refine List.countP_eq_zero.2 fun u hu hle => hw ?_
        exact ((List.pairwise_cons.1 h.pairwise).1 u hu).le.trans (of_decide_eq_true hle)
      rw [if_neg hw, hnone]
      refine iff_of_false (Nat.not_lt_zero i) fun hle => hw (le_trans ?_ hle)
      cases i with
      | zero => exact le_rfl
      | succ i => exact (h.lineAt_lt hi (Nat.succ_pos i)).le

theorem linesUpTo_le_iff (h : IsOrdered lines) (hi : i < lines.length) :
    linesUpTo lines v ≤ i ↔ v < lineAt lines i := by
  rw [← not_lt, h.lt_linesUpTo_iff hi, not_le]

end IsOrdered

namespace Box

variable {vs : List Float}

theorem pairwise_mergeSort (hvs : ∀ v ∈ vs, v.isFinite = true) :
    (vs.mergeSort fun a b => decide (a ≤ b)).Pairwise fun v w => value v ≤ value w := by
  have hmap : (vs.mergeSort fun a b => decide (a ≤ b)).map exactUnits =
      (vs.map exactUnits).mergeSort fun a b => decide (a ≤ b) :=
    List.map_mergeSort fun a ha b hb =>
      decide_eq_decide.2 (Binary64.le_iff (hvs a ha) (hvs b hb))
  have hsorted := List.pairwise_mergeSort' (fun a b : ℤ => a ≤ b) (vs.map exactUnits)
  rw [← hmap, List.pairwise_map] at hsorted
  refine hsorted.imp fun {v w} h => ?_
  rw [value, value, div_le_div_iff_of_pos_right (by positivity)]
  exact_mod_cast h

/-- Numbers without those that the next one repeats. -/
def withoutRepeats (vs : List Float) : List Float :=
  vs.foldr (fun v rest => if rest.head? == some v then rest else v :: rest) []

theorem withoutRepeats_cons (v : Float) (vs : List Float) : withoutRepeats (v :: vs) =
    if (withoutRepeats vs).head? == some v then withoutRepeats vs else v :: withoutRepeats vs :=
  rfl

theorem withoutRepeats_spec (hfinite : ∀ v ∈ vs, v.isFinite = true)
    (hsorted : vs.Pairwise fun v w => value v ≤ value w) :
    IsOrdered (withoutRepeats vs) ∧ (∀ w ∈ withoutRepeats vs, w ∈ vs) ∧
      ∀ v ∈ vs, ∃ w ∈ withoutRepeats vs, (w == v) = true := by
  induction vs with
  | nil => exact ⟨⟨nofun, .nil⟩, nofun, nofun⟩
  | cons v vs ih =>
    obtain ⟨hv, hvs⟩ := List.forall_mem_cons.1 hfinite
    obtain ⟨hle, hsorted⟩ := List.pairwise_cons.1 hsorted
    obtain ⟨hordered, hsub, hall⟩ := ih hvs hsorted
    rw [withoutRepeats_cons]
    generalize withoutRepeats vs = lines at hordered hsub hall ⊢
    split
    next hhead =>
      -- The number is on the first line already.
      refine ⟨hordered, fun w hw => List.mem_cons_of_mem v (hsub w hw),
        List.forall_mem_cons.2 ⟨?_, hall⟩⟩
      cases lines with
      | nil => cases hhead
      | cons u lines => exact ⟨u, List.mem_cons_self, hhead⟩
    next hhead =>
      refine ⟨⟨List.forall_mem_cons.2 ⟨hv, hordered.isFinite⟩,
        List.pairwise_cons.2 ⟨fun w hw => ?_, hordered.pairwise⟩⟩, ?_, ?_⟩
      · -- The next line is above the number, as it is another one.
        cases lines with
        | nil => cases hw
        | cons u lines =>
          have hu := hsub u List.mem_cons_self
          have hlt := lt_of_le_of_ne (hle u hu) fun heq =>
            hhead ((Binary64.value_eq_iff (hvs u hu) hv).1 heq.symm)
          rcases List.mem_cons.1 hw with rfl | hw
          · exact hlt
          · exact hlt.trans ((List.pairwise_cons.1 hordered.pairwise).1 w hw)
      · exact fun w hw => List.mem_cons.2 ((List.mem_cons.1 hw).imp_right (hsub w))
      · refine List.forall_mem_cons.2
          ⟨⟨v, List.mem_cons_self, (Binary64.value_eq_iff hv hv).1 rfl⟩, fun w hw => ?_⟩
        obtain ⟨u, hu, huw⟩ := hall w hw
        exact ⟨u, List.mem_cons_of_mem v hu, huw⟩

/-- Grid lines are in order, and each number is on one. -/
theorem gridLines_spec (hvs : ∀ v ∈ vs, v.isFinite = true) :
    IsOrdered (gridLines vs) ∧ ∀ v ∈ vs, ∃ w ∈ gridLines vs, (w == v) = true := by
  obtain ⟨hordered, -, hall⟩ := withoutRepeats_spec
    (fun v hv => hvs v (List.mem_mergeSort.1 hv)) (pairwise_mergeSort hvs)
  exact ⟨hordered, fun v hv => hall v (List.mem_mergeSort.2 hv)⟩

/-- The grid lines of numbers are these numbers in order. -/
theorem gridLines_eq {ws : List Float} (hvs : ∀ v ∈ vs, v.isFinite = true)
    (hsorted : ws.Pairwise (· < ·)) (hws : ∀ w ∈ ws, w ∈ vs) (hall : ∀ v ∈ vs, v ∈ ws) :
    gridLines vs = ws := by
  obtain ⟨hordered, hlines⟩ := gridLines_spec hvs
  have hsub : ∀ v ∈ gridLines vs, v ∈ vs := fun v hv => List.mem_mergeSort.1
    ((withoutRepeats_spec (fun v hv => hvs v (List.mem_mergeSort.1 hv))
      (pairwise_mergeSort hvs)).2.1 v hv)
  have hfinite : ∀ w ∈ ws, w.isFinite = true := fun w hw => hvs w (hws w hw)
  have hvalues : ws.Pairwise fun v w => value v < value w :=
    hsorted.imp_of_mem fun hv hw h => (Binary64.value_lt_iff (hfinite _ hv) (hfinite _ hw)).2 h
  have hsame : ∀ v, v ∈ gridLines vs ↔ v ∈ ws := by
    refine fun v => ⟨fun hv => hall v (hsub v hv), fun hv => ?_⟩
    obtain ⟨w, hw, hwv⟩ := hlines v (hws v hv)
    have hw' := hall w (hsub w hw)
    have heq := (Binary64.value_eq_iff (hfinite w hw') (hfinite v hv)).2 hwv
    by_contra hnot
    have hne : w ≠ v := fun h => hnot (h ▸ hw)
    have hsymm : Std.Symm fun v w : Float => value v ≠ value w := ⟨fun _ _ => Ne.symm⟩
    exact (hvalues.imp fun h => h.ne).forall hw' hv hne heq
  have hirrefl : Std.Irrefl fun v w : Float => value v < value w := ⟨fun v => lt_irrefl (value v)⟩
  have hperm : (gridLines vs).Perm ws :=
    (List.perm_ext_iff_of_nodup hordered.pairwise.nodup hvalues.nodup).2 hsame
  have hasymm : Std.Antisymm fun v w : Float => value v < value w :=
    ⟨fun _ _ h h' => absurd h h'.asymm⟩
  exact hperm.eq_of_pairwise' hordered.pairwise hvalues

/-- The line of a number. -/
theorem lineAt_findIdx (hvs : ∀ v ∈ vs, v.isFinite = true) {v : Float} (hv : v ∈ vs) :
    (gridLines vs).findIdx (· == v) < (gridLines vs).length ∧
      lineAt (gridLines vs) ((gridLines vs).findIdx (· == v)) = value v := by
  obtain ⟨hordered, hall⟩ := gridLines_spec hvs
  have hlt := List.findIdx_lt_length_of_exists (hall v hv)
  refine ⟨hlt, ?_⟩
  have heq : ((gridLines vs)[(gridLines vs).findIdx (· == v)] == v) = true :=
    List.findIdx_getElem (p := (· == v))
  rw [lineAt, List.getD_eq_getElem _ _ hlt]
  exact (Binary64.value_eq_iff (hordered.isFinite _ (List.getElem_mem hlt)) (hvs v hv)).2 heq

/-! ## Boxes on their grid -/

/-- The vertical lines through the sides of boxes. -/
def xLines (boxes : List Box) : List Float := gridLines (boxes.flatMap fun b => [b.low.x, b.high.x])

/-- The horizontal lines through the sides of boxes. -/
def yLines (boxes : List Box) : List Float := gridLines (boxes.flatMap fun b => [b.low.y, b.high.y])

/-- A box without its right and its upper side. -/
def halfOpen (b : Box) : Set (ℝ × ℝ) :=
  {z | (value b.low.x ≤ z.1 ∧ z.1 < value b.high.x) ∧ value b.low.y ≤ z.2 ∧ z.2 < value b.high.y}

/-- A span between the lines on which the sides of a box lie. -/
structure IsSpan (xs ys : List Float) (b : Box) (s : Span) : Prop where
  /-- The left line is there. -/
  left_lt : s.left < xs.length
  /-- The right line is there. -/
  right_lt : s.right < xs.length
  /-- The lower line is there. -/
  bottom_lt : s.bottom < ys.length
  /-- The upper line is there. -/
  top_lt : s.top < ys.length
  /-- The left side lies on the left line. -/
  lineAt_left : lineAt xs s.left = value b.low.x
  /-- The right side lies on the right line. -/
  lineAt_right : lineAt xs s.right = value b.high.x
  /-- The lower side lies on the lower line. -/
  lineAt_bottom : lineAt ys s.bottom = value b.low.y
  /-- The upper side lies on the upper line. -/
  lineAt_top : lineAt ys s.top = value b.high.y

variable {boxes : List Box} {b : Box}

private theorem isFinite_of_mem_ends (h : ∀ b ∈ boxes, b.IsProper) :
    (∀ v ∈ boxes.flatMap fun b => [b.low.x, b.high.x], v.isFinite = true) ∧
      ∀ v ∈ boxes.flatMap fun b => [b.low.y, b.high.y], v.isFinite = true := by
  constructor <;> intro v hv <;> obtain ⟨b, hb, hv⟩ := List.mem_flatMap.1 hv <;>
    have hlow := Coord.isFinite_iff.1 (h b hb).low_isFinite <;>
    have hhigh := Coord.isFinite_iff.1 (h b hb).high_isFinite <;>
    simp only [List.mem_cons, List.not_mem_nil, or_false] at hv <;> rcases hv with rfl | rfl
  · exact hlow.1
  · exact hhigh.1
  · exact hlow.2
  · exact hhigh.2

theorem isOrdered_lines (h : ∀ b ∈ boxes, b.IsProper) :
    IsOrdered (xLines boxes) ∧ IsOrdered (yLines boxes) :=
  ⟨(gridLines_spec (isFinite_of_mem_ends h).1).1, (gridLines_spec (isFinite_of_mem_ends h).2).1⟩

theorem isSpan_toSpan (h : ∀ b ∈ boxes, b.IsProper) (hb : b ∈ boxes) :
    IsSpan (xLines boxes) (yLines boxes) b (toSpan (xLines boxes) (yLines boxes) b) := by
  obtain ⟨hx, hy⟩ := isFinite_of_mem_ends h
  obtain ⟨hleft, hleft'⟩ := lineAt_findIdx hx (List.mem_flatMap.2 ⟨b, hb, List.mem_cons_self⟩)
  obtain ⟨hright, hright'⟩ := lineAt_findIdx hx
    (List.mem_flatMap.2 ⟨b, hb, List.mem_cons_of_mem _ List.mem_cons_self⟩)
  obtain ⟨hbottom, hbottom'⟩ := lineAt_findIdx hy (List.mem_flatMap.2 ⟨b, hb, List.mem_cons_self⟩)
  obtain ⟨htop, htop'⟩ := lineAt_findIdx hy
    (List.mem_flatMap.2 ⟨b, hb, List.mem_cons_of_mem _ List.mem_cons_self⟩)
  exact ⟨hleft, hright, hbottom, htop, hleft', hright', hbottom', htop'⟩

end Box

/-- The cell of a point: how many lines are not to the right of it, and not above it. -/
noncomputable def cellOf (xs ys : List Float) (z : ℝ × ℝ) : Nat × Nat :=
  (linesUpTo xs z.1, linesUpTo ys z.2)

/-- The crossing of two lines. -/
def crossing (xs ys : List Float) (p : Nat × Nat) : Coord := ⟨xs.getD p.1 0.0, ys.getD p.2 0.0⟩

/-- The crossings of a grid. -/
def crossings (xs ys : List Float) : Set (Nat × Nat) := {p | p.1 < xs.length ∧ p.2 < ys.length}

theorem place_crossing (xs ys : List Float) (p : Nat × Nat) :
    (crossing xs ys p).place = (lineAt xs p.1, lineAt ys p.2) :=
  rfl

variable {xs ys : List Float} {z : ℝ × ℝ} {b : Box} {s : Span}

/-- A span has the cells of the points in the box. -/
theorem Box.IsSpan.contains_iff (h : IsSpan xs ys b s) (hx : IsOrdered xs) (hy : IsOrdered ys) :
    s.contains (cellOf xs ys z).1 (cellOf xs ys z).2 = true ↔ z ∈ b.halfOpen := by
  simp only [Span.contains, Bool.and_eq_true, decide_eq_true_eq, cellOf,
    hx.lt_linesUpTo_iff h.left_lt, hx.linesUpTo_le_iff h.right_lt, hy.lt_linesUpTo_iff h.bottom_lt,
    hy.linesUpTo_le_iff h.top_lt, h.lineAt_left, h.lineAt_right, h.lineAt_bottom, h.lineAt_top,
    and_assoc, Box.halfOpen, Set.mem_ofPred_eq]

/-! ## Sides on grid lines -/

theorem passes_horizontal (z : ℝ × ℝ) (x x' y : ℝ) : passes z (x, y) (x', y) = 0 :=
  (lt_or_ge z.2 y).elim (fun h => passes_of_below h h) fun h => passes_of_above h h

theorem passes_vertical (z : ℝ × ℝ) (x y y' : ℝ) : passes z (x, y) (x, y') =
    if z.1 < x then (if z.2 < y' then 1 else 0) - (if z.2 < y then 1 else 0) else 0 := by
  split
  next h => exact passes_of_left h h
  next h =>
    rw [passes, area, if_neg, if_neg]
    · rintro ⟨hy', hy, harea⟩
      refine harea.not_ge (add_nonneg (mul_nonneg_of_nonpos_of_nonpos ?_ ?_)
        (mul_nonneg_of_nonpos_of_nonpos ?_ ?_)) <;> simp only at * <;> linarith
    · rintro ⟨hy, hy', harea⟩
      refine harea.not_ge (add_nonpos (mul_nonpos_of_nonpos_of_nonneg ?_ ?_)
        (mul_nonpos_of_nonpos_of_nonneg ?_ ?_)) <;> simp only at * <;> linarith

theorem segment_horizontal (x x' y : ℝ) :
    segment ℝ (x, y) (x', y) = {z | z.1 ∈ Set.uIcc x x' ∧ z.2 = y} := by
  rw [← Prod.image_mk_segment_left, segment_eq_uIcc]
  ext ⟨a, b⟩
  simp [eq_comm]

theorem segment_vertical (x y y' : ℝ) :
    segment ℝ (x, y) (x, y') = {z | z.1 = x ∧ z.2 ∈ Set.uIcc y y'} := by
  rw [← Prod.image_mk_segment_right, segment_eq_uIcc]
  ext ⟨a, b⟩
  simp [eq_comm, and_comm]

/-- The sides add up in how they cross a ray. -/
theorem addsUp_passes (xs ys : List Float) (z : ℝ × ℝ) (D : Set (Nat × Nat)) :
    AddsUp D fun p q => passes z (crossing xs ys p).place (crossing xs ys q).place := by
  rintro h ⟨x, y⟩ ⟨x', y'⟩ ⟨x'', y''⟩ - - hp hq
  cases h <;> obtain ⟨h1, h2⟩ := hp <;> obtain ⟨h3, h4⟩ := hq <;> simp only at h1 h2 h3 h4 <;>
    simp only [place_crossing]
  · subst h2 h4
    simp only [passes_horizontal, add_zero]
  · subst h1 h3
    simp only [passes_vertical]
    split_ifs <;> ring
  · subst h2 h4
    simp only [passes_horizontal, add_zero]
  · subst h1 h3
    simp only [passes_vertical]
    split_ifs <;> ring

theorem uIcc_union {a b c : ℝ} (h : a ≤ b ∧ b ≤ c ∨ c ≤ b ∧ b ≤ a) :
    Set.uIcc a b ∪ Set.uIcc b c = Set.uIcc a c := by
  rcases h with ⟨hab, hbc⟩ | ⟨hcb, hba⟩
  · rw [Set.uIcc_of_le hab, Set.uIcc_of_le hbc, Set.uIcc_of_le (hab.trans hbc),
      Set.Icc_union_Icc_eq_Icc hab hbc]
  · rw [Set.uIcc_of_ge hba, Set.uIcc_of_ge hcb, Set.uIcc_of_ge (hcb.trans hba), Set.union_comm,
      Set.Icc_union_Icc_eq_Icc hcb hba]

/-- The sides add up in their points. -/
theorem addsUp_segment (hx : IsOrdered xs) (hy : IsOrdered ys) :
    AddsUp (crossings xs ys) fun p q =>
      Set.up (segment ℝ (crossing xs ys p).place (crossing xs ys q).place) := by
  rintro h ⟨x, y⟩ ⟨x', y'⟩ ⟨x'', y''⟩ ⟨hxp, hyp⟩ ⟨hxq, hyq⟩ hp hq
  simp only at hxp hyp hxq hyq
  rw [← Set.up_union]
  refine congrArg _ ?_
  cases h <;> obtain ⟨h1, h2⟩ := hp <;> obtain ⟨h3, h4⟩ := hq <;> simp only at h1 h2 h3 h4 <;>
    simp only [place_crossing]
  · subst h2 h4
    simp only [segment_horizontal]
    rw [← uIcc_union (.inl ⟨(hx.lineAt_lt (h3.trans hxq) h1).le, (hx.lineAt_lt hxq h3).le⟩)]
    ext z
    simp [or_and_right]
  · subst h1 h3
    simp only [segment_vertical]
    rw [← uIcc_union (.inl ⟨(hy.lineAt_lt (h4.trans hyq) h2).le, (hy.lineAt_lt hyq h4).le⟩)]
    ext z
    simp [and_or_left]
  · subst h2 h4
    simp only [segment_horizontal]
    rw [← uIcc_union (.inr ⟨(hx.lineAt_lt (h1.trans hxp) h3).le, (hx.lineAt_lt hxp h1).le⟩)]
    ext z
    simp [or_and_right]
  · subst h1 h3
    simp only [segment_vertical]
    rw [← uIcc_union (.inr ⟨(hy.lineAt_lt (h2.trans hyp) h4).le, (hy.lineAt_lt hyp h2).le⟩)]
    ext z
    simp [and_or_left]

/-! ## Rings on the grid -/

/-- An edge between crossings of the grid. -/
def Region.Edge.IsOn (xs ys : List Float) (e : Edge) : Prop :=
  e.IsPlaced ∧ e.start ∈ crossings xs ys ∧ e.target ∈ crossings xs ys

/-- The points of an edge. -/
noncomputable def Region.Edge.points (xs ys : List Float) (e : Edge) : Set (ℝ × ℝ) :=
  segment ℝ (crossing xs ys e.start).place (crossing xs ys e.target).place

/-- An edge crosses the ray from a point as it crosses the ray from the cell of the point. -/
theorem Region.Edge.IsOn.passes_eq {e : Edge} (he : e.IsOn xs ys) (hx : IsOrdered xs)
    (hy : IsOrdered ys) (z : ℝ × ℝ) :
    Plane.passes z (crossing xs ys e.start).place (crossing xs ys e.target).place =
      e.passes (cellOf xs ys z) := by
  obtain ⟨⟨-, hsouth⟩, ⟨hx1, hy1⟩, hx2, hy2⟩ := he
  rcases e with ⟨x, y, _ | _ | _ | _⟩
  · exact passes_horizontal z _ _ _
  · simp only [start, target] at hx1 hy1 hy2
    simp only [place_crossing, start, target, passes_vertical, passes, cellOf,
      ← hx.linesUpTo_le_iff hx1, ← hy.linesUpTo_le_iff hy1, ← hy.linesUpTo_le_iff hy2]
    split_ifs <;> omega
  · exact passes_horizontal z _ _ _
  · simp only [start, target] at hx1 hy1 hy2
    have hpos : 0 < y := hsouth rfl
    simp only [place_crossing, start, target, passes_vertical, passes, cellOf,
      ← hx.linesUpTo_le_iff hx1, ← hy.linesUpTo_le_iff hy1, ← hy.linesUpTo_le_iff hy2]
    split_ifs <;> omega

/-- The ring over corners, from the second one on. -/
def outlineRing (xs ys : List Float) (corners : List (Nat × Nat)) : List Coord :=
  closeRing ((corners.rotateLeft 1).map (crossing xs ys))

theorem crossing_beq_iff (hx : IsOrdered xs) (hy : IsOrdered ys) {p q : Nat × Nat}
    (hp : p ∈ crossings xs ys) (hq : q ∈ crossings xs ys) :
    (crossing xs ys p == crossing xs ys q) = true ↔ p = q := by
  have hfinite : ∀ {lines : List Float} {i : Nat}, IsOrdered lines → i < lines.length →
      (lines.getD i 0.0).isFinite = true := by
    intro lines i hlines hi
    rw [List.getD_eq_getElem _ _ hi]
    exact hlines.isFinite _ (List.getElem_mem hi)
  have hline : ∀ {lines : List Float} {i j : Nat}, IsOrdered lines → i < lines.length →
      j < lines.length → ((lines.getD i 0.0 == lines.getD j 0.0) = true ↔ i = j) := by
    intro lines i j hlines hi hj
    rw [← Binary64.value_eq_iff (hfinite hlines hi) (hfinite hlines hj)]
    constructor
    · intro heq
      rcases lt_trichotomy i j with hij | hij | hij
      · exact absurd heq (hlines.lineAt_lt hj hij).ne
      · exact hij
      · exact absurd heq (hlines.lineAt_lt hi hij).ne'
    · rintro rfl
      rfl
  rw [Coord.beq_iff, crossing, crossing, hline hx hp.1 hq.1, hline hy hp.2 hq.2, Prod.ext_iff]

/-- The sides of a ring over corners. -/
theorem sides_outlineRing (hx : IsOrdered xs) (hy : IsOrdered ys) {c : Nat × Nat}
    {cs : List (Nat × Nat)} (hcs : ∀ p ∈ c :: cs, p ∈ crossings xs ys)
    (hsides : ∀ s ∈ sides (c :: (cs ++ [c])), ∃ h, Heading.Reaches h s.1 s.2) :
    (sides (placed (outlineRing xs ys (c :: cs)))).Perm
      ((sides (c :: (cs ++ [c]))).map fun s =>
        ((crossing xs ys s.1).place, (crossing xs ys s.2).place)) := by
  cases cs with
  | nil =>
    obtain ⟨h, hreach⟩ := hsides (c, c) (by simp)
    exact absurd rfl hreach.ne
  | cons d ds =>
    have hrotate : (c :: d :: ds).rotateLeft 1 = d :: (ds ++ [c]) := by
      simp [List.rotateLeft, Nat.mod_eq_of_lt]
    have hopen : isClosedRing ((d :: (ds ++ [c])).map (crossing xs ys)) = false := by
      obtain ⟨h, hreach⟩ := hsides (c, d) (by simp)
      refine Bool.eq_false_iff.2 fun hclosed => hreach.ne ?_
      rw [isClosedRing, List.head?_map, List.getLast?_map, ← List.cons_append,
        List.getLast?_concat, List.cons_append, List.head?_cons, Option.map_some,
        Option.map_some, Option.some_beq_some,
        crossing_beq_iff hx hy (hcs d (by simp)) (hcs c (by simp))] at hclosed
      exact hclosed.symm
    have hring : outlineRing xs ys (c :: d :: ds) =
        (d :: ds ++ [c, d]).map (crossing xs ys) := by
      rw [outlineRing, hrotate, closeRing, hopen]
      simp
    rw [hring, placed, List.map_map, sides_map, sides_append_cons, List.cons_append,
      sides_cons_cons]
    refine (List.Perm.map _ List.perm_append_comm).trans ?_
    exact List.Perm.refl _

variable {ring : List Edge}

theorem mem_corners {p : Nat × Nat} (hp : p ∈ corners ring) : ∃ e ∈ ring, p = e.start := by
  rw [corners, List.mem_filterMap] at hp
  obtain ⟨⟨e, f⟩, hmem, hp⟩ := hp
  refine ⟨f, (List.of_mem_zip hmem).2, ?_⟩
  dsimp only at hp
  split at hp
  · cases hp
  · exact (Option.some.inj hp).symm

section

variable (hx : IsOrdered xs) (hy : IsOrdered ys) {p : Nat × Nat} (hleads : Edge.Leads ring p p)
  (hne : ring ≠ []) (hring : ∀ e ∈ ring, e.IsOn xs ys)

include hx hy hleads hne hring

/-- What adds up along straight pieces has the same sum over a ring of edges and over the sides of
its corners. -/
theorem sum_sides_outlineRing {M : Type} [AddCommMonoid M] (F : (ℝ × ℝ) × (ℝ × ℝ) → M)
    (hF : AddsUp (crossings xs ys) fun p q =>
      F ((crossing xs ys p).place, (crossing xs ys q).place)) :
    ((sides (placed (outlineRing xs ys (corners ring)))).map F).sum =
      (ring.map fun e => F ((crossing xs ys e.start).place, (crossing xs ys e.target).place)).sum := by
  obtain ⟨c, cs, hcorners, hsum, hsides⟩ := sumSides_corners hF hleads hne hring
  have hcs : ∀ p ∈ c :: cs, p ∈ crossings xs ys := by
    intro p hp
    obtain ⟨e, he, rfl⟩ := mem_corners (hcorners ▸ hp)
    exact (hring e he).2.1
  rw [hcorners, ((sides_outlineRing hx hy hcs hsides).map F).sum_eq, List.map_map]
  exact hsum

theorem winding_outlineRing (z : ℝ × ℝ) :
    Plane.winding (placed (outlineRing xs ys (corners ring))) z =
      Region.winding ring (cellOf xs ys z) := by
  rw [Plane.winding, sum_sides_outlineRing hx hy hleads hne hring
    (fun s => Plane.passes z s.1 s.2) (addsUp_passes xs ys z _), Region.winding]
  exact congrArg List.sum (List.map_congr_left fun e he => (hring e he).passes_eq hx hy z)

theorem mem_path_outlineRing_iff {z : ℝ × ℝ} :
    z ∈ path (placed (outlineRing xs ys (corners ring))) ↔ ∃ e ∈ ring, z ∈ e.points xs ys := by
  have hdown : ∀ l : List (SetSemiring (ℝ × ℝ)),
      z ∈ SetSemiring.down l.sum ↔ ∃ s ∈ l, z ∈ SetSemiring.down s := by
    intro l
    induction l with
    | nil => exact iff_of_false (Set.notMem_empty z) (by simp)
    | cons s l ih => simp [ih]
  have hsum := sum_sides_outlineRing hx hy hleads hne hring
    (fun s => Set.up (segment ℝ s.1 s.2)) (addsUp_segment hx hy)
  have hsame := (hdown _).symm.trans ((iff_of_eq (congrArg (z ∈ SetSemiring.down ·) hsum)).trans
    (hdown _))
  simpa [path, Edge.points] using hsame

end

end StreamCatalog
