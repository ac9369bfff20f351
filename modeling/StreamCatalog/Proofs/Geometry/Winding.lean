import Mathlib.Algebra.BigOperators.Group.List.Basic
import Mathlib.Algebra.Order.Group.Int
import Mathlib.Tactic.Linarith
import Mathlib.Tactic.Ring
import StreamCatalog.Proofs.Geometry.Rings

/-!
# Winding numbers on a grid

How often edges go around a cell. Across an edge the winding number of a ring changes by the times
that the ring passes it (`Edge.winding_sub`), and all boundary edges together go once around the
cells of the region and not around others (`winding_boundary`). From both it follows what each
ring is when the region hangs together: the first ring goes around all of it once, the others do not
go around any of it, and a cell is in the region exactly if the first ring goes around it and no
other ring does (`covers_iff_winding`).
-/

namespace StreamCatalog.Region

variable {spans : List Span} {width height : Nat} {es edges rest : List Edge}

namespace Edge

/-- How an edge crosses the ray from a cell to the right: upwards counts one, downwards counts
minus one. -/
def passes (cell : Nat × Nat) (e : Edge) : Int :=
  match e.heading with
  | .north => if e.y + 1 = cell.2 ∧ cell.1 ≤ e.x then 1 else 0
  | .south => if e.y = cell.2 ∧ cell.1 ≤ e.x then -1 else 0
  | _ => 0

/-- An edge that does not lead off the grid. -/
def IsPlaced (e : Edge) : Prop :=
  (e.heading = .west → 0 < e.x) ∧ (e.heading = .south → 0 < e.y)

/-- The edge back. -/
def reverse (e : Edge) : Edge := e.followedBy e.heading.toLeft.toLeft

theorem IsPlaced.reverse {e : Edge} (h : e.IsPlaced) :
    e.reverse.IsPlaced ∧ e.reverse.reverse = e ∧
      e.reverse.leftCell = e.rightCell ∧ e.reverse.rightCell = e.leftCell := by
  obtain ⟨hwest, hsouth⟩ := h
  rcases e with ⟨x, y, _ | _ | _ | _⟩
  · exact ⟨⟨fun _ => Nat.succ_pos x, nofun⟩, rfl, rfl, rfl⟩
  · exact ⟨⟨nofun, fun _ => Nat.succ_pos y⟩, rfl, rfl, rfl⟩
  · obtain ⟨x, rfl⟩ := Nat.exists_eq_succ_of_ne_zero (hwest rfl).ne'
    exact ⟨⟨nofun, nofun⟩, rfl, rfl, rfl⟩
  · obtain ⟨y, rfl⟩ := Nat.exists_eq_succ_of_ne_zero (hsouth rfl).ne'
    exact ⟨⟨nofun, nofun⟩, rfl, rfl, rfl⟩

/-- What a function of the crossings gains along edges. -/
theorem Leads.sum_sub {p q : Nat × Nat} (h : Leads es p q) (f : Nat × Nat → Int) :
    (es.map fun e => f e.target - f e.start).sum = f q - f p := by
  induction es generalizing p with
  | nil => rw [h, sub_self]; rfl
  | cons e es ih =>
    obtain ⟨rfl, h⟩ := h
    rw [List.map_cons, List.sum_cons, ih h]
    ring

end Edge

/-- How often edges go around a cell, counter-clockwise. -/
def winding (es : List Edge) (cell : Nat × Nat) : Int := (es.map (Edge.passes cell)).sum

@[simp] theorem winding_nil (cell : Nat × Nat) : winding [] cell = 0 := rfl

@[simp] theorem winding_cons (e : Edge) (es : List Edge) (cell : Nat × Nat) :
    winding (e :: es) cell = e.passes cell + winding es cell := List.sum_cons

theorem winding_flatten (rings : List (List Edge)) (cell : Nat × Nat) :
    winding rings.flatten cell = (rings.map (winding · cell)).sum := by
  induction rings with
  | nil => rfl
  | cons ring rings ih =>
    rw [List.flatten_cons, winding, List.map_append, List.sum_append, ← winding, ← winding, ih]
    rfl

/-! ## Neighbouring cells -/

/-- Between two cells in a row lie the edges up and down. -/
theorem winding_sub_right (es : List Edge) (x y : Nat) :
    winding es (x, y + 1) - winding es (x + 1, y + 1) =
      es.count ⟨x, y, .north⟩ - es.count ⟨x, y + 1, .south⟩ := by
  have hedge : ∀ e : Edge, e.passes (x, y + 1) - e.passes (x + 1, y + 1) =
      (if e = ⟨x, y, .north⟩ then 1 else 0) - (if e = ⟨x, y + 1, .south⟩ then 1 else 0) := by
    rintro ⟨a, b, _ | _ | _ | _⟩ <;> simp only [Edge.passes, Edge.mk.injEq, reduceCtorEq,
      and_true, and_false, if_false] <;>
      split_ifs <;> omega
  induction es with
  | nil => simp
  | cons e es ih =>
    have hfirst := hedge e
    simp only [winding_cons, List.count_cons, beq_iff_eq, Nat.cast_add, Nat.cast_ite, Nat.cast_one,
      Nat.cast_zero]
    linarith

/-- Between two cells in a column lie the edges to the right and to the left. -/
theorem winding_sub_above {p : Nat × Nat} (hleads : Edge.Leads es p p)
    (hplaced : ∀ e ∈ es, e.IsPlaced) (x y : Nat) :
    winding es (x + 1, y + 1) - winding es (x + 1, y) =
      es.count ⟨x, y, .east⟩ - es.count ⟨x + 1, y, .west⟩ := by
  -- What a ring gains at the crossings to the right on the line between the cells is nothing.
  let f : Nat × Nat → Int := fun q => if x + 1 ≤ q.1 ∧ q.2 = y then 1 else 0
  have hedge : ∀ e : Edge, e.IsPlaced → f e.target - f e.start =
      e.passes (x + 1, y) - e.passes (x + 1, y + 1) +
        ((if e = ⟨x, y, .east⟩ then 1 else 0) - (if e = ⟨x + 1, y, .west⟩ then 1 else 0)) := by
    rintro ⟨a, b, _ | _ | _ | _⟩ ⟨hwest, hsouth⟩ <;>
      simp only [Edge.passes, Edge.mk.injEq, reduceCtorEq, and_true, and_false, if_false, Edge.target,
        Edge.start, f, true_implies] at hwest hsouth ⊢ <;>
      split_ifs <;> omega
  have hsum : (es.map fun e => f e.target - f e.start).sum =
      winding es (x + 1, y) - winding es (x + 1, y + 1) +
        (es.count ⟨x, y, .east⟩ - es.count ⟨x + 1, y, .west⟩) := by
    clear hleads
    induction es with
    | nil => simp
    | cons e es ih =>
      have hfirst := hedge e (hplaced e List.mem_cons_self)
      have hrest := ih fun e' he' => hplaced e' (List.mem_cons_of_mem e he')
      simp only [winding_cons, List.count_cons, beq_iff_eq, Nat.cast_add, Nat.cast_ite,
        Nat.cast_one, Nat.cast_zero, List.map_cons, List.sum_cons]
      linarith
  rw [hleads.sum_sub f, sub_self] at hsum
  linarith

/-- Across an edge the winding number of a ring changes by the times that the ring passes it. -/
theorem Edge.winding_sub {p : Nat × Nat} (hleads : Leads es p p)
    (hplaced : ∀ e ∈ es, e.IsPlaced) {e : Edge} (he : e.IsPlaced) :
    winding es e.leftCell - winding es e.rightCell = es.count e - es.count e.reverse := by
  have hforward : ∀ {e : Edge}, e.heading = .east ∨ e.heading = .north →
      winding es e.leftCell - winding es e.rightCell = es.count e - es.count e.reverse := by
    rintro ⟨x, y, _⟩ (rfl | rfl)
    · exact winding_sub_above hleads hplaced x y
    · exact winding_sub_right es x y
  obtain ⟨-, hback, hleft, hright⟩ := he.reverse
  cases hheading : e.heading with
  | east => exact hforward (.inl hheading)
  | north => exact hforward (.inr hheading)
  | west =>
    have hsub := @hforward e.reverse (.inl (by rw [reverse, followedBy, hheading]; rfl))
    rw [hleft, hright, hback] at hsub
    linarith
  | south =>
    have hsub := @hforward e.reverse (.inr (by rw [reverse, followedBy, hheading]; rfl))
    rw [hleft, hright, hback] at hsub
    linarith

/-- A ring does not go around cells to the left of it. -/
theorem winding_eq_zero_of_le {p : Nat × Nat} (hleads : Edge.Leads es p p)
    (hplaced : ∀ e ∈ es, e.IsPlaced) {i : Nat} (hx : ∀ e ∈ es, i ≤ e.x) (j : Nat) :
    winding es (i, j) = 0 := by
  let f : Nat × Nat → Int := fun q => if j ≤ q.2 then 1 else 0
  have hedge : ∀ e ∈ es, e.passes (i, j) = f e.target - f e.start := by
    intro e he
    have hx := hx e he
    obtain ⟨hwest, hsouth⟩ := hplaced e he
    rcases e with ⟨a, b, _ | _ | _ | _⟩ <;>
      simp only [Edge.passes, Edge.target, Edge.start, f, true_implies] at hx hwest hsouth ⊢ <;>
      split_ifs <;> omega
  rw [winding, List.map_congr_left hedge, hleads.sum_sub f, sub_self]

/-- Nor around the cells below the grid. -/
theorem winding_row_zero (hplaced : ∀ e ∈ es, e.IsPlaced) (i : Nat) : winding es (i, 0) = 0 := by
  have hedge : ∀ e ∈ es, e.passes (i, 0) = 0 := by
    intro e he
    have hsouth := (hplaced e he).2
    rcases e with ⟨a, b, _ | _ | _ | _⟩
    · rfl
    · simp [Edge.passes]
    · rfl
    · simp [Edge.passes, (hsouth rfl).ne']
  rw [winding, List.map_congr_left hedge]
  simp

/-! ## The whole boundary -/

theorem Edge.isPlaced_of_isBoundary {e : Edge} (h : e.isBoundary spans = true) : e.IsPlaced :=
  exists_start h

/-- The boundary goes once around each cell of the region. -/
theorem winding_boundary (hnodup : es.Nodup)
    (hmem : ∀ e, e ∈ es ↔ e.isBoundary spans = true) (hfits : Fits spans width height)
    (cell : Nat × Nat) :
    winding es cell = if covers spans cell.1 cell.2 then 1 else 0 := by
  obtain ⟨i, j⟩ := cell
  rcases j with _ | j
  · rw [winding_row_zero fun e he => Edge.isPlaced_of_isBoundary ((hmem e).1 he),
      if_neg fun h => (pos_of_covers h).2.ne' rfl]
  -- From the cells on the right of the grid to the left.
  obtain ⟨k, hk⟩ : ∃ k, width ≤ i + k := ⟨width, Nat.le_add_left width i⟩
  induction k generalizing i with
  | zero =>
    have hpasses : ∀ e ∈ es, e.passes (i, j + 1) = 0 := by
      intro e he
      have hx := (hfits.lt_of_isBoundary ((hmem e).1 he)).1.1
      rcases e with ⟨a, b, _ | _ | _ | _⟩ <;>
        simp only [Edge.passes] at hx ⊢ <;> split_ifs <;> omega
    have hcovers : ¬ covers spans i (j + 1) = true := by
      intro h
      obtain ⟨s, hs, -, hright, -⟩ := covers_iff.1 h
      have hbound := (hfits s hs).1
      omega
    rw [winding, List.map_congr_left hpasses, if_neg hcovers]
    simp
  | succ k ih =>
    have hsub := winding_sub_right es i j
    have hnorth := hmem ⟨i, j, .north⟩
    have hsouth := hmem ⟨i, j + 1, .south⟩
    rw [ih (i + 1) (by omega), hnodup.count, hnodup.count] at hsub
    simp only [Edge.isBoundary_iff, Edge.leftCell, Edge.rightCell] at hnorth hsouth
    rw [sub_eq_iff_eq_add.1 hsub]
    simp only [hnorth, hsouth]
    cases covers spans i (j + 1) <;> cases covers spans (i + 1) (j + 1) <;> rfl

/-! ## Regions that hang together -/

/-- A region in which one comes from each cell to each other one over edges. -/
def HangsTogether (spans : List Span) : Prop :=
  ∀ f : Nat × Nat → Int,
    (∀ e : Edge, covers spans e.leftCell.1 e.leftCell.2 = true →
      covers spans e.rightCell.1 e.rightCell.2 = true → f e.leftCell = f e.rightCell) →
    ∀ c d : Nat × Nat, covers spans c.1 c.2 = true → covers spans d.1 d.2 = true → f c = f d

/-- Between cells that are both in the region, or both not, lies no boundary edge. -/
theorem winding_eq_of_covers_eq {p : Nat × Nat} (hleads : Edge.Leads es p p)
    (hes : ∀ e ∈ es, e.isBoundary spans = true) {e : Edge} (he : e.IsPlaced)
    (hcovers : covers spans e.leftCell.1 e.leftCell.2 = covers spans e.rightCell.1 e.rightCell.2) :
    winding es e.leftCell = winding es e.rightCell := by
  have hnot : e ∉ es := by
    intro hmem
    have hboundary := Edge.isBoundary_iff.1 (hes e hmem)
    rw [hcovers, hboundary.2] at hboundary
    exact Bool.false_ne_true hboundary.1
  have hnot' : e.reverse ∉ es := by
    intro hmem
    have hboundary := Edge.isBoundary_iff.1 (hes _ hmem)
    obtain ⟨-, -, hleft, hright⟩ := he.reverse
    rw [hleft, hright, hcovers] at hboundary
    rw [hboundary.2] at hboundary
    exact Bool.false_ne_true hboundary.1
  have hsub := Edge.winding_sub hleads (fun e' he' => Edge.isPlaced_of_isBoundary (hes e' he')) he
  rw [List.count_eq_zero_of_not_mem hnot, List.count_eq_zero_of_not_mem hnot', sub_self] at hsub
  exact sub_eq_zero.1 hsub

/-- A ring goes around all cells of a region that hangs together equally often. -/
theorem HangsTogether.winding_eq (h : HangsTogether spans) {p : Nat × Nat}
    (hleads : Edge.Leads es p p) (hes : ∀ e ∈ es, e.isBoundary spans = true) {c d : Nat × Nat}
    (hc : covers spans c.1 c.2 = true) (hd : covers spans d.1 d.2 = true) :
    winding es c = winding es d := by
  refine h (winding es) (fun e hleft hright => ?_) c d hc hd
  refine winding_eq_of_covers_eq hleads hes ?_ (hleft.trans hright.symm)
  have hpos := pos_of_covers hleft
  constructor
  · intro hwest
    simpa [Edge.leftCell, hwest] using hpos.1
  · intro hsouth
    simpa [Edge.leftCell, hsouth] using hpos.2

/-! ## The first edge -/

theorem exists_isBoundary_of_covers {i j : Nat} (h : covers spans i j = true) :
    ∃ e : Edge, e.isBoundary spans = true ∧ e.x < i := by
  induction i with
  | zero => exact absurd (pos_of_covers h).1 (lt_irrefl 0)
  | succ i ih =>
    cases hleft : covers spans i j with
    | true =>
      obtain ⟨e, he, hx⟩ := ih hleft
      exact ⟨e, he, hx.trans (Nat.lt_succ_self i)⟩
    | false => exact ⟨⟨i, j, .south⟩, Edge.isBoundary_iff.2 ⟨h, hleft⟩, Nat.lt_succ_self i⟩

/-- The boundary is listed from left to right. -/
theorem pairwise_boundary (spans : List Span) (width height : Nat) :
    (boundary spans width height).Pairwise fun e e' => e.x ≤ e'.x := by
  have hx : ∀ {x : Nat} {e : Edge}, e ∈ ((List.range height).flatMap fun y =>
      ([.east, .north, .west, .south].map (Edge.mk x y)).filter (Edge.isBoundary spans)) →
      e.x = x := by
    intro x e he
    simp only [List.mem_flatMap, List.mem_filter, List.mem_map] at he
    obtain ⟨_, -, ⟨_, -, rfl⟩, -⟩ := he
    rfl
  refine List.pairwise_flatMap.2 ⟨fun x _ => List.pairwise_of_forall_mem_list ?_, ?_⟩
  · intro e he e' he'
    rw [hx he, hx he']
  · refine List.pairwise_lt_range.imp fun hlt e he e' he' => ?_
    rw [hx he, hx he']
    exact hlt.le

/-- No ring goes around the cell on the right of the first edge, which is outside. -/
theorem winding_rightCell_first {first : Edge}
    (hfirst : first.isBoundary spans = true)
    (hleast : ∀ e : Edge, e.isBoundary spans = true → first.x ≤ e.x) {p : Nat × Nat}
    (hleads : Edge.Leads es p p) (hes : ∀ e ∈ es, e.isBoundary spans = true) :
    winding es first.rightCell = 0 := by
  have houtside : ∀ {i j : Nat}, i ≤ first.x → covers spans i j = false := by
    intro i j hi
    refine Bool.eq_false_iff.2 fun hcovers => ?_
    obtain ⟨e, he, hx⟩ := exists_isBoundary_of_covers hcovers
    have hle := hleast e he
    omega
  have hcolumn : ∀ j, winding es (first.x, j) = 0 :=
    winding_eq_zero_of_le hleads (fun e he => Edge.isPlaced_of_isBoundary (hes e he))
      fun e he => hleast e (hes e he)
  obtain ⟨hleft, hright⟩ := Edge.isBoundary_iff.1 hfirst
  rcases first with ⟨x, y, _ | _ | _ | _⟩
  · -- Below the edge the cells of both columns are outside.
    rcases y with _ | y
    · exact winding_row_zero (fun e he => Edge.isPlaced_of_isBoundary (hes e he)) (x + 1)
    · have hcross := winding_eq_of_covers_eq hleads hes (e := ⟨x, y, .north⟩) ⟨nofun, nofun⟩
        ((houtside (le_refl x)).trans hright.symm)
      exact hcross.symm.trans (hcolumn (y + 1))
  · exact absurd hleft (Bool.eq_false_iff.1 (houtside (le_refl x)))
  · exact absurd hleft (Bool.eq_false_iff.1 (houtside (le_refl x)))
  · exact hcolumn y

/-! ## The rings of a region -/

variable {first ring : List Edge} {holes : List (List Edge)}

/-- The rings around a region on a grid. -/
def rings (spans : List Span) (width height : Nat) : List (List Edge) :=
  ringsOf spans (boundary spans width height)

theorem Fits.isBoundary_of_mem_ring (hfits : Fits spans width height)
    (hring : ring ∈ rings spans width height) {e : Edge} (he : e ∈ ring) :
    e.isBoundary spans = true := by
  have hmem := List.mem_flatten_of_mem hring he
  exact hfits.mem_boundary_iff.1 (hfits.isClosed_boundary.flatten_ringsOf.mem_iff.1 hmem)

theorem Fits.sum_winding (hfits : Fits spans width height) (cell : Nat × Nat) :
    ((rings spans width height).map (winding · cell)).sum =
      if covers spans cell.1 cell.2 then 1 else 0 := by
  rw [← winding_boundary (nodup_boundary spans width height) (fun e => hfits.mem_boundary_iff)
    hfits cell, ← winding_flatten, winding, winding]
  exact (hfits.isClosed_boundary.flatten_ringsOf.map _).sum_eq

/-- A ring of a region that hangs together goes around its cells as often as it passes the first
edge. -/
theorem HangsTogether.winding_of_covers (h : HangsTogether spans)
    (hfits : Fits spans width height) {e : Edge} (hboundary : boundary spans width height = e :: rest)
    (hring : ring ∈ rings spans width height) {cell : Nat × Nat}
    (hcell : covers spans cell.1 cell.2 = true) : winding ring cell = ring.count e := by
  obtain ⟨-, p, hleads⟩ := hfits.isClosed_boundary.exists_leads hring
  have hes : ∀ e ∈ ring, e.isBoundary spans = true := fun e => hfits.isBoundary_of_mem_ring hring
  have he : e.isBoundary spans = true :=
    hfits.mem_boundary_iff.1 (hboundary ▸ List.mem_cons_self)
  have hleast : ∀ e' : Edge, e'.isBoundary spans = true → e.x ≤ e'.x := by
    intro e' he'
    have hsorted := pairwise_boundary spans width height
    rw [hboundary, List.pairwise_cons] at hsorted
    have hmem := hfits.mem_boundary_iff.2 he'
    rw [hboundary] at hmem
    rcases List.mem_cons.1 hmem with rfl | hmem
    · exact le_refl _
    · exact hsorted.1 e' hmem
  have hreverse : e.reverse ∉ ring := by
    intro hmem
    obtain ⟨-, -, hleft, -⟩ := (Edge.isPlaced_of_isBoundary he).reverse
    have hback := (Edge.isBoundary_iff.1 (hes _ hmem)).1
    rw [hleft, (Edge.isBoundary_iff.1 he).2] at hback
    exact Bool.false_ne_true hback
  have hsub := Edge.winding_sub hleads (fun e' he' => Edge.isPlaced_of_isBoundary (hes e' he'))
    (Edge.isPlaced_of_isBoundary he)
  rw [winding_rightCell_first he hleast hleads hes, List.count_eq_zero_of_not_mem hreverse,
    Nat.cast_zero, sub_zero, sub_zero] at hsub
  rw [← hsub]
  exact h.winding_eq hleads hes hcell (Edge.isBoundary_iff.1 he).1

/-- The first ring around a region that hangs together goes once around its cells, and the other
rings do not. -/
theorem HangsTogether.winding_rings (h : HangsTogether spans) (hfits : Fits spans width height)
    (hrings : rings spans width height = first :: holes) {cell : Nat × Nat}
    (hcell : covers spans cell.1 cell.2 = true) :
    winding first cell = 1 ∧ ∀ ring ∈ holes, winding ring cell = 0 := by
  have hclosed := hfits.isClosed_boundary
  have hwinding : ∀ ring ∈ rings spans width height, ∀ e rest,
      boundary spans width height = e :: rest → winding ring cell = ring.count e :=
    fun ring hring e rest hboundary => h.winding_of_covers hfits hboundary hring hcell
  rw [hrings] at hwinding
  rw [rings] at hrings
  generalize boundary spans width height = edges at hrings hwinding hclosed
  cases edges with
  | nil =>
    rw [ringsOf] at hrings
    cases hrings
  | cons e rest =>
    have hnodup := hclosed.flatten_ringsOf.nodup_iff.2 hclosed.nodup
    have hmem : e ∈ first := by
      rw [hclosed.ringsOf_cons] at hrings
      exact (List.cons.inj hrings).1 ▸ hclosed.mem_cycle List.mem_cons_self
    rw [hrings, List.flatten_cons, List.nodup_append] at hnodup
    constructor
    · rw [hwinding first List.mem_cons_self e rest rfl, hnodup.1.count, if_pos hmem]
      rfl
    · intro ring hring
      have hnot : e ∉ ring := fun hin =>
        hnodup.2.2 e hmem e (List.mem_flatten_of_mem hring hin) rfl
      rw [hwinding ring (List.mem_cons_of_mem _ hring) e rest rfl,
        List.count_eq_zero_of_not_mem hnot]
      rfl

/-- A cell is in a region that hangs together exactly if the first ring goes around it and the others
do not. -/
theorem HangsTogether.covers_iff_winding (h : HangsTogether spans)
    (hfits : Fits spans width height) (hrings : rings spans width height = first :: holes)
    (cell : Nat × Nat) :
    covers spans cell.1 cell.2 = true ↔
      winding first cell ≠ 0 ∧ ∀ ring ∈ holes, winding ring cell = 0 := by
  constructor
  · intro hcell
    obtain ⟨hone, hzero⟩ := h.winding_rings hfits hrings hcell
    exact ⟨hone.symm ▸ one_ne_zero, hzero⟩
  · rintro ⟨hfirst, hzero⟩
    have hsum := hfits.sum_winding cell
    rw [hrings, List.map_cons, List.sum_cons, List.map_congr_left hzero] at hsum
    by_contra hcell
    rw [if_neg hcell] at hsum
    simp at hsum
    exact hfirst hsum

end StreamCatalog.Region
