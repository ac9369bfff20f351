import Mathlib.Data.Fintype.Pi
import Mathlib.Data.List.Iterate
import Mathlib.Data.List.Nodup
import Mathlib.Dynamics.PeriodicPts.Lemmas
import StreamCatalog.Geometry.Region

/-!
# Rings of boundary edges

Which edge comes next depends on the four cells around the crossing where an edge ends
(`Edge.next_eq`). It is a boundary edge again, and no two boundary edges have the same one after
them, so that the boundary falls into rings: `ringsOf` gives each edge to one of them
(`IsClosed.flatten_ringsOf`), and each leads back to where it starts (`IsClosed.exists_leads`).
-/

namespace StreamCatalog.Region

instance : Fintype Heading where
  elems := {.east, .north, .west, .south}
  complete h := by cases h <;> decide

/-! ## The cells around a crossing -/

/-- Which of the cells around a crossing of grid lines belong to a region. -/
structure Around where
  /-- The cell above on the right. -/
  northeast : Bool
  /-- The cell above on the left. -/
  northwest : Bool
  /-- The cell below on the left. -/
  southwest : Bool
  /-- The cell below on the right. -/
  southeast : Bool

/-- The cells around a crossing. -/
def around (spans : List Span) (p : Nat × Nat) : Around where
  northeast := covers spans (p.1 + 1) (p.2 + 1)
  northwest := covers spans p.1 (p.2 + 1)
  southwest := covers spans p.1 p.2
  southeast := covers spans (p.1 + 1) p.2

namespace Around

/-- Whether the edge from the crossing in a direction is a boundary edge. -/
def leaves (a : Around) : Heading → Bool
  | .east => a.northeast && !a.southeast
  | .north => a.northwest && !a.northeast
  | .west => a.southwest && !a.northwest
  | .south => a.southeast && !a.southwest

/-- Whether the edge to the crossing in a direction is a boundary edge. -/
def arrives (a : Around) : Heading → Bool
  | .east => a.northwest && !a.southwest
  | .north => a.southwest && !a.southeast
  | .west => a.southeast && !a.northeast
  | .south => a.northeast && !a.northwest

/-- The direction after the crossing. -/
def turn (a : Around) (h : Heading) : Heading :=
  if a.leaves h.toRight then h.toRight else if a.leaves h then h else h.toLeft

theorem leaves_turn (a : Around) {h : Heading} (ha : a.arrives h = true) :
    a.leaves (a.turn h) = true := by
  obtain ⟨ne, nw, sw, se⟩ := a
  revert ne nw sw se h
  decide

/-- Boundary edges that come from different directions leave in different directions. -/
theorem turn_injective (a : Around) {h h' : Heading} (ha : a.arrives h = true)
    (ha' : a.arrives h' = true) (heq : a.turn h = a.turn h') : h = h' := by
  obtain ⟨ne, nw, sw, se⟩ := a
  revert ne nw sw se h h'
  decide

end Around

variable {spans : List Span} {e e' : Edge}

theorem covers_iff {i j : Nat} : covers spans i j = true ↔
    ∃ s ∈ spans, s.left < i ∧ i ≤ s.right ∧ s.bottom < j ∧ j ≤ s.top := by
  simp only [covers, Span.contains, List.any_eq_true, Bool.and_eq_true, decide_eq_true_eq, and_assoc]

theorem pos_of_covers {i j : Nat} (h : covers spans i j = true) : 0 < i ∧ 0 < j := by
  obtain ⟨s, -, hleft, -, hbottom, -⟩ := covers_iff.1 h
  exact ⟨Nat.zero_lt_of_lt hleft, Nat.zero_lt_of_lt hbottom⟩

namespace Edge

/-- Where an edge starts. -/
def start (e : Edge) : Nat × Nat := (e.x, e.y)

theorem isBoundary_iff : e.isBoundary spans = true ↔
    covers spans e.leftCell.1 e.leftCell.2 = true ∧
      covers spans e.rightCell.1 e.rightCell.2 = false := by
  rw [isBoundary, Bool.and_eq_true, Bool.not_eq_true']

theorem isBoundary_eq_leaves (e : Edge) :
    e.isBoundary spans = (around spans e.start).leaves e.heading := by
  rcases e with ⟨x, y, _ | _ | _ | _⟩ <;> rfl

/-- A boundary edge does not lead off the grid. -/
theorem exists_start (h : e.isBoundary spans = true) :
    (e.heading = .west → 0 < e.x) ∧ (e.heading = .south → 0 < e.y) := by
  have hleft := pos_of_covers (isBoundary_iff.1 h).1
  constructor
  · intro hwest
    simpa [leftCell, hwest] using hleft.1
  · intro hsouth
    simpa [leftCell, hsouth] using hleft.2

theorem arrives_of_isBoundary (h : e.isBoundary spans = true) :
    (around spans e.target).arrives e.heading = true := by
  have hstart := exists_start h
  rcases e with ⟨x, y, _ | _ | _ | _⟩
  · exact h
  · exact h
  · obtain ⟨x, rfl⟩ := Nat.exists_eq_succ_of_ne_zero (hstart.1 rfl).ne'
    exact h
  · obtain ⟨y, rfl⟩ := Nat.exists_eq_succ_of_ne_zero (hstart.2 rfl).ne'
    exact h

theorem eq_of_target_eq (h : e.isBoundary spans = true) (h' : e'.isBoundary spans = true)
    (htarget : e.target = e'.target) (hheading : e.heading = e'.heading) : e = e' := by
  have hstart := exists_start h
  have hstart' := exists_start h'
  rcases e with ⟨x, y, d⟩
  rcases e' with ⟨x', y', d'⟩
  cases hheading
  cases d <;> simp_all [target] <;> omega

/-! ## The next edge -/

theorem next_eq (spans : List Span) (e : Edge) :
    e.next spans = e.followedBy ((around spans e.target).turn e.heading) := by
  simp only [next, isBoundary_eq_leaves, Around.turn, apply_ite e.followedBy]
  rfl

theorem start_next (spans : List Span) (e : Edge) : (e.next spans).start = e.target := by
  rw [next_eq]
  rfl

theorem isBoundary_next (h : e.isBoundary spans = true) : (e.next spans).isBoundary spans = true := by
  rw [next_eq, isBoundary_eq_leaves]
  exact (around spans e.target).leaves_turn (arrives_of_isBoundary h)

/-- No two boundary edges lead to the same one. -/
theorem next_injOn (spans : List Span) :
    Set.InjOn (next spans) {e | e.isBoundary spans = true} := by
  intro e h e' h' heq
  have htarget : e.target = e'.target := by rw [← start_next spans e, heq, start_next]
  refine eq_of_target_eq h h' htarget ?_
  rw [next_eq, next_eq, htarget] at heq
  have harrives := arrives_of_isBoundary h
  rw [htarget] at harrives
  exact Around.turn_injective _ harrives (arrives_of_isBoundary h') (congrArg Edge.heading heq)

/-- Edges that lead from one crossing to another. -/
def Leads : List Edge → Nat × Nat → Nat × Nat → Prop
  | [], p, q => p = q
  | e :: es, p, q => e.start = p ∧ Leads es e.target q

theorem leads_iterate (spans : List Span) (e : Edge) (n : Nat) :
    Leads (List.iterate (next spans) e n) e.start ((next spans)^[n] e).start := by
  induction n generalizing e with
  | zero => rfl
  | succ n ih =>
    refine ⟨rfl, ?_⟩
    rw [← start_next spans e]
    exact ih (e.next spans)

end Edge

/-! ## Walks -/

/-- Edges without repetition that are closed under `Edge.next`. -/
structure IsClosed (spans : List Span) (edges : List Edge) : Prop where
  /-- No edge is there twice. -/
  nodup : edges.Nodup
  /-- All of them are boundary edges. -/
  isBoundary : ∀ e ∈ edges, e.isBoundary spans = true
  /-- The next edge is there as well. -/
  next_mem : ∀ e ∈ edges, e.next spans ∈ edges

variable {edges rest : List Edge}

theorem IsClosed.iterate_mem (h : IsClosed spans edges) (he : e ∈ edges) (n : Nat) :
    (Edge.next spans)^[n] e ∈ edges := by
  induction n with
  | zero => exact he
  | succ n ih =>
    rw [Function.iterate_succ_apply']
    exact h.next_mem _ ih

/-- From each edge the walk comes back to it. -/
theorem IsClosed.mem_periodicPts (h : IsClosed spans edges) (he : e ∈ edges) :
    e ∈ Function.periodicPts (Edge.next spans) := by
  let f : {e // e ∈ edges} → {e // e ∈ edges} := fun e => ⟨e.1.next spans, h.next_mem e.1 e.2⟩
  have hinj : Function.Injective f := fun a b hab =>
    Subtype.ext (Edge.next_injOn spans (h.isBoundary _ a.2) (h.isBoundary _ b.2)
      (congrArg Subtype.val hab))
  have hsemi : Function.Semiconj Subtype.val f (Edge.next spans) := fun _ => rfl
  obtain ⟨n, hpos, hn⟩ := hinj.mem_periodicPts ⟨e, he⟩
  exact ⟨n, hpos, (hsemi.iterate_right n ⟨e, he⟩).symm.trans (congrArg Subtype.val hn)⟩

/-- The edges of a ring from a first one on. -/
noncomputable def cycle (spans : List Span) (e : Edge) : List Edge :=
  List.iterate (Edge.next spans) e (Function.minimalPeriod (Edge.next spans) e)

theorem nodup_cycle (spans : List Span) (e : Edge) : (cycle spans e).Nodup := by
  rw [cycle, ← List.range_map_iterate]
  refine List.Nodup.map_on (fun i hi j hj hij => ?_) List.nodup_range
  exact Function.iterate_injOn_Iio_minimalPeriod (List.mem_range.1 hi) (List.mem_range.1 hj) hij

theorem walk_eq_iterate {start : Edge} {n : Nat} (hreturn : (Edge.next spans)^[n] e = start)
    (hfirst : ∀ k < n, 0 < k → (Edge.next spans)^[k] e ≠ start) (hpos : 0 < n) {fuel : Nat}
    (hfuel : n ≤ fuel) : walk spans start fuel e = List.iterate (Edge.next spans) e n := by
  induction fuel generalizing e n with
  | zero => omega
  | succ fuel ih =>
    obtain ⟨n, rfl⟩ := Nat.exists_eq_succ_of_ne_zero hpos.ne'
    rw [walk, List.iterate]
    rcases Nat.eq_zero_or_pos n with rfl | hn
    · exact if_pos hreturn
    · have hnext : e.next spans ≠ start := hfirst 1 (by omega) one_pos
      rw [if_neg hnext]
      refine congrArg _ (ih hreturn (fun k hk _ => ?_) hn (by omega))
      exact hfirst (k + 1) (by omega) (Nat.succ_pos k)

theorem IsClosed.length_cycle_le (h : IsClosed spans edges) (he : e ∈ edges) :
    Function.minimalPeriod (Edge.next spans) e ≤ edges.length := by
  have hsub : cycle spans e ⊆ edges := by
    intro e' he'
    obtain ⟨n, -, rfl⟩ := List.mem_iterate.1 he'
    exact h.iterate_mem he n
  simpa [cycle] using ((nodup_cycle spans e).subperm hsub).length_le

theorem IsClosed.walk_eq_cycle (h : IsClosed spans (e :: rest)) :
    walk spans e (rest.length + 1) e = cycle spans e := by
  have he : e ∈ e :: rest := List.mem_cons_self
  refine walk_eq_iterate (Function.iterate_minimalPeriod) (fun k hk hpos hreturn => ?_)
    (Function.minimalPeriod_pos_of_mem_periodicPts (h.mem_periodicPts he)) (h.length_cycle_le he)
  exact Function.not_isPeriodicPt_of_pos_of_lt_minimalPeriod hpos.ne' hk hreturn

theorem IsClosed.mem_cycle (h : IsClosed spans edges) (he : e ∈ edges) : e ∈ cycle spans e :=
  List.mem_iterate.2 ⟨0, Function.minimalPeriod_pos_of_mem_periodicPts (h.mem_periodicPts he), rfl⟩

/-- What comes next to an edge of a ring is on the ring, and nothing else leads there. -/
theorem exists_next_of_mem_cycle (he' : e' ∈ cycle spans e) :
    ∃ before ∈ cycle spans e, before.next spans = e' := by
  obtain ⟨n, hn, rfl⟩ := List.mem_iterate.1 he'
  rcases n with _ | n
  · refine ⟨(Edge.next spans)^[Function.minimalPeriod (Edge.next spans) e - 1] e,
      List.mem_iterate.2 ⟨_, by omega, rfl⟩, ?_⟩
    rw [← Function.iterate_succ_apply' (Edge.next spans), Nat.succ_eq_add_one,
      Nat.sub_add_cancel hn, Function.iterate_minimalPeriod]
    rfl
  · exact ⟨_, List.mem_iterate.2 ⟨n, by omega, rfl⟩, (Function.iterate_succ_apply' _ n e).symm⟩

/-! ## Sorting edges into rings -/

theorem mem_removeAll_iff {ring : List Edge} :
    e ∈ rest.removeAll ring ↔ e ∈ rest ∧ e ∉ ring := by
  simp [List.removeAll]

/-- The edges that are not on the ring of the first one. -/
theorem IsClosed.removeAll (h : IsClosed spans (e :: rest)) :
    IsClosed spans (rest.removeAll (cycle spans e)) where
  nodup := (List.nodup_cons.1 h.nodup).2.filter _
  isBoundary e' he' := h.isBoundary e' (List.mem_cons_of_mem e (mem_removeAll_iff.1 he').1)
  next_mem e' he' := by
    obtain ⟨hrest, hring⟩ := mem_removeAll_iff.1 he'
    have hfirst : e ∈ e :: rest := List.mem_cons_self
    have hnot : e'.next spans ∉ cycle spans e := by
      intro hnext
      obtain ⟨before, hbefore, heq⟩ := exists_next_of_mem_cycle hnext
      obtain ⟨n, -, rfl⟩ := List.mem_iterate.1 hbefore
      have hsame := Edge.next_injOn spans (h.isBoundary _ (h.iterate_mem hfirst n))
        (h.isBoundary e' (List.mem_cons_of_mem e hrest)) heq
      exact hring (hsame ▸ hbefore)
    rcases List.mem_cons.1 (h.next_mem e' (List.mem_cons_of_mem e hrest)) with heq | hmem
    · exact absurd (heq.symm ▸ h.mem_cycle hfirst) hnot
    · exact mem_removeAll_iff.2 ⟨hmem, hnot⟩

theorem IsClosed.ringsOf_cons (h : IsClosed spans (e :: rest)) :
    ringsOf spans (e :: rest) =
      cycle spans e :: ringsOf spans (rest.removeAll (cycle spans e)) := by
  rw [ringsOf, h.walk_eq_cycle]

theorem IsClosed.cycle_append_perm (h : IsClosed spans (e :: rest)) :
    (cycle spans e ++ rest.removeAll (cycle spans e)).Perm (e :: rest) := by
  have hfirst : e ∈ e :: rest := List.mem_cons_self
  have hdisjoint : List.Disjoint (cycle spans e) (rest.removeAll (cycle spans e)) :=
    fun e' hring hrest => (mem_removeAll_iff.1 hrest).2 hring
  refine (List.perm_ext_iff_of_nodup
    ((nodup_cycle spans e).append h.removeAll.nodup hdisjoint) h.nodup).2 fun e' => ?_
  rw [List.mem_append, mem_removeAll_iff]
  constructor
  · rintro (hring | ⟨hrest, -⟩)
    · obtain ⟨n, -, rfl⟩ := List.mem_iterate.1 hring
      exact h.iterate_mem hfirst n
    · exact List.mem_cons_of_mem e hrest
  · intro he'
    by_cases hring : e' ∈ cycle spans e
    · exact .inl hring
    · rcases List.mem_cons.1 he' with rfl | hrest
      · exact absurd (h.mem_cycle hfirst) hring
      · exact .inr ⟨hrest, hring⟩

/-- Each edge is on one ring, once. -/
theorem IsClosed.flatten_ringsOf (h : IsClosed spans edges) :
    (ringsOf spans edges).flatten.Perm edges := by
  induction edges using ringsOf.induct spans with
  | case1 => rw [ringsOf]; rfl
  | case2 e rest ring ih =>
    have hring : ring = cycle spans e := h.walk_eq_cycle
    rw [hring] at ih
    rw [h.ringsOf_cons, List.flatten_cons]
    exact ((ih h.removeAll).append_left _).trans h.cycle_append_perm

/-- Each ring leads back to where it starts. -/
theorem IsClosed.exists_leads (h : IsClosed spans edges) {ring : List Edge}
    (hring : ring ∈ ringsOf spans edges) : ring ≠ [] ∧ ∃ p, Edge.Leads ring p p := by
  induction edges using ringsOf.induct spans with
  | case1 =>
    rw [ringsOf] at hring
    cases hring
  | case2 e rest ring' ih =>
    have hring' : ring' = cycle spans e := h.walk_eq_cycle
    rw [hring'] at ih
    rw [h.ringsOf_cons] at hring
    rcases List.mem_cons.1 hring with rfl | hrest
    · refine ⟨List.ne_nil_of_mem (h.mem_cycle List.mem_cons_self), e.start, ?_⟩
      have hleads := Edge.leads_iterate spans e (Function.minimalPeriod (Edge.next spans) e)
      rwa [Function.iterate_minimalPeriod] at hleads
    · exact ih h.removeAll hrest

/-! ## All boundary edges -/

/-- A grid that has all lines of the spans. -/
def Fits (spans : List Span) (width height : Nat) : Prop :=
  ∀ s ∈ spans, s.right < width ∧ s.top < height

variable {width height : Nat}

theorem mem_boundary_iff :
    e ∈ boundary spans width height ↔ e.x < width ∧ e.y < height ∧ e.isBoundary spans = true := by
  rcases e with ⟨x, y, d⟩
  simp only [boundary, List.mem_flatMap, List.mem_range, List.mem_filter, List.mem_map]
  constructor
  · rintro ⟨_, hx, _, hy, ⟨_, -, rfl, rfl, rfl⟩, h⟩
    exact ⟨hx, hy, h⟩
  · rintro ⟨hx, hy, h⟩
    exact ⟨x, hx, y, hy, ⟨d, by cases d <;> simp, rfl⟩, h⟩

/-- A boundary edge lies on the grid with its end. -/
theorem Fits.lt_of_isBoundary (hfits : Fits spans width height) (h : e.isBoundary spans = true) :
    (e.x < width ∧ e.y < height) ∧ e.target.1 < width ∧ e.target.2 < height := by
  obtain ⟨s, hs, hcell⟩ := covers_iff.1 (Edge.isBoundary_iff.1 h).1
  have hbounds := hfits s hs
  rcases e with ⟨x, y, _ | _ | _ | _⟩ <;> simp only [Edge.leftCell, Edge.target] at hcell ⊢ <;> omega

theorem Fits.mem_boundary_iff (hfits : Fits spans width height) :
    e ∈ boundary spans width height ↔ e.isBoundary spans = true := by
  rw [Region.mem_boundary_iff]
  exact ⟨fun h => h.2.2, fun h =>
    ⟨(hfits.lt_of_isBoundary h).1.1, (hfits.lt_of_isBoundary h).1.2, h⟩⟩

theorem nodup_boundary (spans : List Span) (width height : Nat) :
    (boundary spans width height).Nodup := by
  refine List.nodup_flatMap.2 ⟨fun x _ => List.nodup_flatMap.2 ⟨fun y _ => ?_, ?_⟩, ?_⟩
  · refine List.Nodup.filter _ (List.Nodup.map (fun d d' h => congrArg Edge.heading h) ?_)
    decide
  · refine List.nodup_range.imp fun {y y'} hne e h h' => hne ?_
    simp only [List.mem_filter, List.mem_map] at h h'
    obtain ⟨⟨_, -, rfl⟩, -⟩ := h
    obtain ⟨⟨_, -, heq⟩, -⟩ := h'
    exact (congrArg Edge.y heq).symm
  · refine List.nodup_range.imp fun {x x'} hne e h h' => hne ?_
    simp only [List.mem_flatMap, List.mem_filter, List.mem_map] at h h'
    obtain ⟨_, -, ⟨_, -, rfl⟩, -⟩ := h
    obtain ⟨_, -, ⟨_, -, heq⟩, -⟩ := h'
    exact (congrArg Edge.x heq).symm

theorem Fits.isClosed_boundary (hfits : Fits spans width height) :
    IsClosed spans (boundary spans width height) where
  nodup := nodup_boundary spans width height
  isBoundary _ he := hfits.mem_boundary_iff.1 he
  next_mem _ he := hfits.mem_boundary_iff.2 (Edge.isBoundary_next (hfits.mem_boundary_iff.1 he))

end StreamCatalog.Region
