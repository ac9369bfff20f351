import StreamCatalog.Proofs.Geometry.Grid

/-!
# Clusters of boxes

Every box is in one cluster (`Box.flatten_clusters_perm`). The boxes of a cluster hang together by
boxes that adjoin each other, and boxes of two clusters do not adjoin each other
(`Box.isClustering_clusters`). On the grid of its lines a cluster is a region that hangs together
(`Box.Hangs.hangsTogether`).
-/

namespace StreamCatalog

open Binary64 (value)
open Region

namespace Box

variable {a b : Box} {boxes : List Box} {cs : List (List Box)}

/-! ## Boxes that adjoin each other -/

theorem adjoins_comm (a b : Box) : a.adjoins b = b.adjoins a := by
  simp only [adjoins, meets]
  grind

theorem IsProper.adjoins_iff (ha : a.IsProper) (hb : b.IsProper) :
    a.adjoins b = true ↔ a.meets b = true ∧
      ((value a.low.x < value b.high.x ∧ value b.low.x < value a.high.x) ∨
        (value a.low.y < value b.high.y ∧ value b.low.y < value a.high.y)) := by
  have halow := Coord.isFinite_iff.1 ha.low_isFinite
  have hahigh := Coord.isFinite_iff.1 ha.high_isFinite
  have hblow := Coord.isFinite_iff.1 hb.low_isFinite
  have hbhigh := Coord.isFinite_iff.1 hb.high_isFinite
  simp only [adjoins, Bool.and_eq_true, Bool.or_eq_true, decide_eq_true_eq,
    Binary64.value_lt_iff halow.1 hbhigh.1, Binary64.value_lt_iff hblow.1 hahigh.1,
    Binary64.value_lt_iff halow.2 hbhigh.2, Binary64.value_lt_iff hblow.2 hahigh.2]

/-- Boxes that hang together: one comes from each to each other one over boxes that adjoin. -/
def Hangs (boxes : List Box) : Prop :=
  ∀ f : Box → Int, (∀ a ∈ boxes, ∀ b ∈ boxes, a.adjoins b = true → f a = f b) →
    ∀ a ∈ boxes, ∀ b ∈ boxes, f a = f b

/-- No box of one list adjoins one of the other. -/
def Apart (as bs : List Box) : Prop := ∀ a ∈ as, ∀ b ∈ bs, a.adjoins b = false

theorem Apart.symm {as bs : List Box} (h : Apart as bs) : Apart bs as :=
  fun b hb a ha => (adjoins_comm b a).trans (h a ha b hb)

instance : Std.Symm Apart := ⟨fun _ _ => Apart.symm⟩

/-- Clusters of boxes that hang together, any two of which are apart. -/
structure IsClustering (clusters : List (List Box)) : Prop where
  /-- There is a box in each. -/
  ne_nil : ∀ cluster ∈ clusters, cluster ≠ []
  /-- Each hangs together. -/
  hangs : ∀ cluster ∈ clusters, Hangs cluster
  /-- Boxes of different clusters do not adjoin each other. -/
  pairwise : clusters.Pairwise Apart

theorem addToClusters_eq (cs : List (List Box)) (b : Box) : addToClusters cs b =
    (b :: (cs.filter (·.any b.adjoins)).flatten) ::
      cs.filter fun cluster => !cluster.any b.adjoins := by
  rw [addToClusters, List.partition_eq_filter_filter]
  rfl

theorem addToClusters_perm (cs : List (List Box)) (b : Box) :
    (addToClusters cs b).flatten.Perm (b :: cs.flatten) := by
  rw [addToClusters_eq, List.flatten_cons, List.cons_append, ← List.flatten_append]
  exact (List.Perm.flatten (List.filter_append_perm _ cs)).cons b

/-- A box joins the clusters that it adjoins. -/
theorem IsClustering.addToClusters (h : IsClustering cs) (b : Box) :
    IsClustering (addToClusters cs b) := by
  rw [addToClusters_eq]
  constructor
  · refine List.forall_mem_cons.2 ⟨List.cons_ne_nil _ _, fun cluster hcluster => ?_⟩
    exact h.ne_nil cluster (List.mem_of_mem_filter hcluster)
  · refine List.forall_mem_cons.2 ⟨?_, fun cluster hcluster =>
      h.hangs cluster (List.mem_of_mem_filter hcluster)⟩
    intro f hf
    have hsame : ∀ a ∈ b :: (cs.filter (·.any b.adjoins)).flatten, f a = f b := by
      refine List.forall_mem_cons.2 ⟨rfl, fun a ha => ?_⟩
      obtain ⟨cluster, hcluster, ha⟩ := List.mem_flatten.1 ha
      obtain ⟨hmem, hany⟩ := List.mem_filter.1 hcluster
      obtain ⟨c, hc, hbc⟩ := List.any_eq_true.1 hany
      have hin : ∀ d ∈ cluster, d ∈ b :: (cs.filter (·.any b.adjoins)).flatten :=
        fun d hd => List.mem_cons_of_mem b (List.mem_flatten.2 ⟨cluster, hcluster, hd⟩)
      calc f a = f c := h.hangs cluster hmem f
            (fun d hd e he => hf d (hin d hd) e (hin e he)) a ha c hc
        _ = f b := (hf b List.mem_cons_self c (hin c hc) hbc).symm
    exact fun a ha c hc => (hsame a ha).trans (hsame c hc).symm
  · refine List.pairwise_cons.2 ⟨fun cluster hcluster => ?_, h.pairwise.filter _⟩
    obtain ⟨hmem, hnone⟩ := List.mem_filter.1 hcluster
    rw [Bool.not_eq_true', List.any_eq_false] at hnone
    refine List.forall_mem_cons.2 ⟨fun c hc => Bool.eq_false_iff.2 (hnone c hc), ?_⟩
    intro a ha c hc
    obtain ⟨joined, hjoined, ha⟩ := List.mem_flatten.1 ha
    obtain ⟨hmem', hany⟩ := List.mem_filter.1 hjoined
    have hne : joined ≠ cluster := by
      rintro rfl
      obtain ⟨d, hd, hbd⟩ := List.any_eq_true.1 hany
      exact hnone d hd hbd
    exact h.pairwise.forall hmem' hmem hne a ha c hc

theorem isClustering_clusters (boxes : List Box) : IsClustering (clusters boxes) := by
  have hfold : ∀ (boxes : List Box) (clusters : List (List Box)), IsClustering clusters →
      IsClustering (boxes.foldl addToClusters clusters) := by
    intro boxes
    induction boxes with
    | nil => exact fun _ h => h
    | cons b boxes ih => exact fun clusters h => ih _ (h.addToClusters b)
  exact hfold boxes [] ⟨nofun, nofun, .nil⟩

/-- Every box is in one cluster. -/
theorem flatten_clusters_perm (boxes : List Box) : (clusters boxes).flatten.Perm boxes := by
  have hfold : ∀ (boxes : List Box) (clusters : List (List Box)),
      (boxes.foldl addToClusters clusters).flatten.Perm (boxes ++ clusters.flatten) := by
    intro boxes
    induction boxes with
    | nil => exact fun _ => .refl _
    | cons b boxes ih =>
      intro clusters
      refine (ih _).trans (((addToClusters_perm clusters b).append_left boxes).trans ?_)
      exact List.perm_middle
  simpa [Box.clusters] using hfold boxes []

end Box

/-! ## Regions that hang together -/

namespace Region

variable {s t : Span} {spans : List Span} {f : Nat × Nat → Int}

/-- A span with cells. -/
def Span.HasCells (s : Span) : Prop := s.left < s.right ∧ s.bottom < s.top

/-- Whether two spans overlap or share a piece of an edge. -/
def Span.Touches (s t : Span) : Prop :=
  ((s.left ≤ t.right ∧ t.left ≤ s.right) ∧ s.bottom ≤ t.top ∧ t.bottom ≤ s.top) ∧
    ((s.left < t.right ∧ t.left < s.right) ∨ (s.bottom < t.top ∧ t.bottom < s.top))

theorem Span.contains_iff {i j : Nat} : s.contains i j = true ↔
    (s.left < i ∧ i ≤ s.right) ∧ s.bottom < j ∧ j ≤ s.top := by
  simp only [contains, Bool.and_eq_true, decide_eq_true_eq, and_assoc]

/-- A function of the cells that is the same on both sides of each edge inside of the region. -/
def IsLevel (spans : List Span) (f : Nat × Nat → Int) : Prop :=
  ∀ e : Edge, covers spans e.leftCell.1 e.leftCell.2 = true →
    covers spans e.rightCell.1 e.rightCell.2 = true → f e.leftCell = f e.rightCell

theorem IsLevel.row (h : IsLevel spans f) {i j : Nat} (hj : 0 < j)
    (hleft : covers spans i j = true) (hright : covers spans (i + 1) j = true) :
    f (i, j) = f (i + 1, j) := by
  obtain ⟨j, rfl⟩ := Nat.exists_eq_succ_of_ne_zero hj.ne'
  exact h ⟨i, j, .north⟩ hleft hright

theorem IsLevel.column (h : IsLevel spans f) {i j : Nat} (hi : 0 < i)
    (hlow : covers spans i j = true) (hhigh : covers spans i (j + 1) = true) :
    f (i, j) = f (i, j + 1) := by
  obtain ⟨i, rfl⟩ := Nat.exists_eq_succ_of_ne_zero hi.ne'
  exact (h ⟨i, j, .east⟩ hhigh hlow).symm

theorem covers_of_contains (hs : s ∈ spans) {i j : Nat} (h : s.contains i j = true) :
    covers spans i j = true :=
  List.any_eq_true.2 ⟨s, hs, h⟩

/-- Such a function is the same on all cells of a span. -/
theorem IsLevel.eq_of_contains (h : IsLevel spans f) (hs : s ∈ spans) {i j i' j' : Nat}
    (hc : s.contains i j = true) (hc' : s.contains i' j' = true) : f (i, j) = f (i', j') := by
  have hrow : ∀ {i j : Nat}, s.contains i j = true → f (i, j) = f (s.left + 1, j) := by
    intro i j hc
    rw [Span.contains_iff] at hc
    obtain ⟨k, rfl⟩ : ∃ k, i = s.left + 1 + k := ⟨i - (s.left + 1), by omega⟩
    induction k with
    | zero => rfl
    | succ k ih =>
      rw [← ih (by omega)]
      refine (h.row (i := s.left + 1 + k) (by omega) ?_ ?_).symm <;>
        exact covers_of_contains hs (Span.contains_iff.2 (by omega))
  have hcolumn : ∀ {j : Nat}, s.contains (s.left + 1) j = true →
      f (s.left + 1, j) = f (s.left + 1, s.bottom + 1) := by
    intro j hc
    rw [Span.contains_iff] at hc
    obtain ⟨k, rfl⟩ : ∃ k, j = s.bottom + 1 + k := ⟨j - (s.bottom + 1), by omega⟩
    induction k with
    | zero => rfl
    | succ k ih =>
      rw [← ih (by omega)]
      refine (h.column (j := s.bottom + 1 + k) (by omega) ?_ ?_).symm <;>
        exact covers_of_contains hs (Span.contains_iff.2 (by omega))
  have hfirst : ∀ {i j : Nat}, s.contains i j = true → f (i, j) = f (s.left + 1, s.bottom + 1) := by
    intro i j hc
    refine (hrow hc).trans (hcolumn ?_)
    rw [Span.contains_iff] at hc ⊢
    omega
  exact (hfirst hc).trans (hfirst hc').symm

/-- And on all cells of two spans that touch. -/
theorem IsLevel.eq_of_touches (h : IsLevel spans f) (hs : s ∈ spans) (ht : t ∈ spans)
    (hcells : s.HasCells ∧ t.HasCells) (htouches : s.Touches t) {i j i' j' : Nat}
    (hc : s.contains i j = true) (hc' : t.contains i' j' = true) : f (i, j) = f (i', j') := by
  obtain ⟨⟨hsx, hsy⟩, htx, hty⟩ := hcells
  obtain ⟨⟨⟨h1, h2⟩, h3, h4⟩, hstrict⟩ := htouches
  -- A cell of one span that is a cell of the other one or next to it.
  have hmeet : ∃ c d : Nat × Nat, s.contains c.1 c.2 = true ∧ t.contains d.1 d.2 = true ∧ f c = f d := by
    have hcell : ∀ {r : Span}, r ∈ spans → ∀ {i j : Nat},
        (r.left < i ∧ i ≤ r.right) ∧ r.bottom < j ∧ j ≤ r.top → covers spans i j = true :=
      fun hr _ _ hin => covers_of_contains hr (Span.contains_iff.2 hin)
    simp only [Span.contains_iff]
    by_cases hx : s.left < t.right ∧ t.left < s.right
    · by_cases hy : s.bottom < t.top ∧ t.bottom < s.top
      · exact ⟨(max s.left t.left + 1, max s.bottom t.bottom + 1),
          (max s.left t.left + 1, max s.bottom t.bottom + 1), by omega, by omega, rfl⟩
      · rcases (by omega : s.top = t.bottom ∨ t.top = s.bottom) with heq | heq
        · refine ⟨(max s.left t.left + 1, s.top), (max s.left t.left + 1, s.top + 1), by omega,
            by omega, h.column (by omega) (hcell hs (by omega)) (hcell ht (by omega))⟩
        · refine ⟨(max s.left t.left + 1, t.top + 1), (max s.left t.left + 1, t.top), by omega,
            by omega, (h.column (by omega) (hcell ht (by omega)) (hcell hs (by omega))).symm⟩
    · have hy : s.bottom < t.top ∧ t.bottom < s.top := hstrict.resolve_left hx
      rcases (by omega : s.right = t.left ∨ t.right = s.left) with heq | heq
      · refine ⟨(s.right, max s.bottom t.bottom + 1), (s.right + 1, max s.bottom t.bottom + 1),
          by omega, by omega, h.row (by omega) (hcell hs (by omega)) (hcell ht (by omega))⟩
      · refine ⟨(t.right + 1, max s.bottom t.bottom + 1), (t.right, max s.bottom t.bottom + 1),
          by omega, by omega, (h.row (by omega) (hcell ht (by omega)) (hcell hs (by omega))).symm⟩
  obtain ⟨c, d, hc0, hd0, heq⟩ := hmeet
  exact (h.eq_of_contains hs hc hc0).trans (heq.trans (h.eq_of_contains ht hd0 hc'))

end Region

namespace Box

variable {boxes : List Box} {a b : Box}

/-- Boxes with an extent on both axes. -/
def AreSolid (boxes : List Box) : Prop := ∀ b ∈ boxes, b.IsProper ∧ b.isSolid = true

/-- The spans of boxes on the grid of their lines. -/
def spansOf (boxes : List Box) : List Span := boxes.map (toSpan (xLines boxes) (yLines boxes))

theorem AreSolid.isOrdered_lines (h : AreSolid boxes) :
    IsOrdered (xLines boxes) ∧ IsOrdered (yLines boxes) :=
  Box.isOrdered_lines fun b hb => (h b hb).1

theorem AreSolid.isSpan (h : AreSolid boxes) (hb : b ∈ boxes) :
    IsSpan (xLines boxes) (yLines boxes) b (toSpan (xLines boxes) (yLines boxes) b) :=
  isSpan_toSpan (fun b hb => (h b hb).1) hb

theorem AreSolid.hasCells (h : AreSolid boxes) (hb : b ∈ boxes) :
    (toSpan (xLines boxes) (yLines boxes) b).HasCells := by
  obtain ⟨hx, hy⟩ := h.isOrdered_lines
  have hspan := h.isSpan hb
  obtain ⟨hproper, hsolid⟩ := h b hb
  obtain ⟨hwidth, hheight⟩ := hproper.isSolid_iff.1 hsolid
  rw [← hspan.lineAt_left, ← hspan.lineAt_right, hx.lineAt_lt_iff hspan.left_lt hspan.right_lt]
    at hwidth
  rw [← hspan.lineAt_bottom, ← hspan.lineAt_top, hy.lineAt_lt_iff hspan.bottom_lt hspan.top_lt]
    at hheight
  exact ⟨hwidth, hheight⟩

/-- The spans of boxes that adjoin each other touch. -/
theorem AreSolid.touches (h : AreSolid boxes) (ha : a ∈ boxes) (hb : b ∈ boxes)
    (hadjoins : a.adjoins b = true) :
    (toSpan (xLines boxes) (yLines boxes) a).Touches (toSpan (xLines boxes) (yLines boxes) b) := by
  obtain ⟨hx, hy⟩ := h.isOrdered_lines
  have hsa := h.isSpan ha
  have hsb := h.isSpan hb
  rw [(h a ha).1.adjoins_iff (h b hb).1, (h a ha).1.meets_iff (h b hb).1] at hadjoins
  simp only [← hsa.lineAt_left, ← hsa.lineAt_right, ← hsa.lineAt_bottom, ← hsa.lineAt_top,
    ← hsb.lineAt_left, ← hsb.lineAt_right, ← hsb.lineAt_bottom, ← hsb.lineAt_top, ← not_lt,
    hx.lineAt_lt_iff hsa.left_lt hsb.right_lt, hx.lineAt_lt_iff hsb.left_lt hsa.right_lt,
    hx.lineAt_lt_iff hsb.right_lt hsa.left_lt, hx.lineAt_lt_iff hsa.right_lt hsb.left_lt,
    hy.lineAt_lt_iff hsa.bottom_lt hsb.top_lt, hy.lineAt_lt_iff hsb.bottom_lt hsa.top_lt,
    hy.lineAt_lt_iff hsb.top_lt hsa.bottom_lt, hy.lineAt_lt_iff hsa.top_lt hsb.bottom_lt]
    at hadjoins
  simpa only [Span.Touches, ← not_lt] using hadjoins

/-- On the grid of their lines, boxes that hang together are a region that hangs together. -/
theorem Hangs.hangsTogether (h : Hangs boxes) (hsolid : AreSolid boxes) :
    HangsTogether (spansOf boxes) := by
  intro f hlevel c d hc hd
  have hlevel : IsLevel (spansOf boxes) f := hlevel
  have hmem : ∀ {b : Box}, b ∈ boxes → toSpan (xLines boxes) (yLines boxes) b ∈ spansOf boxes :=
    fun hb => List.mem_map_of_mem hb
  have hfirst : ∀ b ∈ boxes, (toSpan (xLines boxes) (yLines boxes) b).contains
      ((toSpan (xLines boxes) (yLines boxes) b).left + 1)
      ((toSpan (xLines boxes) (yLines boxes) b).bottom + 1) = true := by
    intro b hb
    have hcells := hsolid.hasCells hb
    exact Span.contains_iff.2 ⟨⟨Nat.lt_succ_self _, hcells.1⟩, Nat.lt_succ_self _, hcells.2⟩
  obtain ⟨_, hs, hc⟩ := List.any_eq_true.1 hc
  obtain ⟨_, ht, hd⟩ := List.any_eq_true.1 hd
  obtain ⟨a, ha, rfl⟩ := List.mem_map.1 hs
  obtain ⟨b, hb, rfl⟩ := List.mem_map.1 ht
  have hsame := h (fun b => f ((toSpan (xLines boxes) (yLines boxes) b).left + 1,
    (toSpan (xLines boxes) (yLines boxes) b).bottom + 1)) (fun a ha b hb hadjoins =>
      hlevel.eq_of_touches (hmem ha) (hmem hb) ⟨hsolid.hasCells ha, hsolid.hasCells hb⟩
        (hsolid.touches ha hb hadjoins) (hfirst a ha) (hfirst b hb)) a ha b hb
  exact (hlevel.eq_of_contains (hmem ha) hc (hfirst a ha)).trans
    (hsame.trans (hlevel.eq_of_contains (hmem hb) (hfirst b hb) hd))

end Box

end StreamCatalog
