import StreamCatalog.Proofs.Geometry.Ground
import StreamCatalog.Proofs.Geometry.Winding

/-!
# Corners of rings

A ring of edges and the ring of its corners are the same path: what adds up along straight pieces
has the same sum over both (`sumSides_corners`). So the ring of corners goes around the same cells and has
the same points.
-/

namespace StreamCatalog.Region

open Plane

variable {M : Type} [AddCommMonoid M] {es ring : List Edge} {p q c : Nat × Nat} {h : Heading}

/-- Whether one comes from a crossing to another one in a direction. -/
def Heading.Reaches : Heading → Nat × Nat → Nat × Nat → Prop
  | .east, p, q => p.1 < q.1 ∧ p.2 = q.2
  | .north, p, q => p.1 = q.1 ∧ p.2 < q.2
  | .west, p, q => q.1 < p.1 ∧ p.2 = q.2
  | .south, p, q => p.1 = q.1 ∧ q.2 < p.2

theorem Heading.Reaches.trans (hp : h.Reaches p c) (hq : h.Reaches c q) : h.Reaches p q := by
  cases h <;> simp only [Reaches] at hp hq ⊢ <;> omega

theorem Heading.Reaches.ne (hp : h.Reaches p q) : p ≠ q := by
  rintro rfl
  cases h <;> simp only [Reaches] at hp <;> omega

theorem Edge.IsPlaced.reaches {e : Edge} (he : e.IsPlaced) :
    e.heading.Reaches e.start e.target := by
  obtain ⟨hwest, hsouth⟩ := he
  rcases e with ⟨x, y, _ | _ | _ | _⟩
  · exact ⟨Nat.lt_succ_self x, rfl⟩
  · exact ⟨rfl, Nat.lt_succ_self y⟩
  · exact ⟨Nat.sub_lt (hwest rfl) one_pos, rfl⟩
  · exact ⟨rfl, Nat.sub_lt (hsouth rfl) one_pos⟩

/-! ## Where edges turn -/

/-- The starts of the edges that have not the direction of the edge before; the first one follows
an edge in direction `h`. -/
def turns (h : Heading) : List Edge → List (Nat × Nat)
  | [] => []
  | e :: es => if h = e.heading then turns e.heading es else e.start :: turns e.heading es

/-- The direction after edges. -/
def headingAfter (h : Heading) (es : List Edge) : Heading :=
  (es.getLast?.map Edge.heading).getD h

theorem headingAfter_cons (h : Heading) (e : Edge) (es : List Edge) :
    headingAfter h (e :: es) = headingAfter e.heading es := by
  rw [headingAfter, headingAfter, List.getLast?_cons]
  cases es.getLast? <;> rfl

theorem corners_eq_turns {last : Edge} (hlast : ring.getLast? = some last) :
    corners ring = turns last.heading ring := by
  have hzip : ∀ (e : Edge) (es : List Edge),
      ((e :: es).zip es).filterMap (fun pair =>
        if pair.1.heading = pair.2.heading then none else some (pair.2.x, pair.2.y)) =
          turns e.heading es := by
    intro e es
    induction es generalizing e with
    | nil => rfl
    | cons f es ih =>
      rw [List.zip_cons_cons, turns, ← ih f, List.filterMap_cons]
      by_cases heq : e.heading = f.heading
      · simp only [if_pos heq]
      · simp only [if_neg heq]
        rfl
  rw [corners, hlast]
  exact hzip last ring

theorem turns_append (h : Heading) (es es' : List Edge) :
    turns h (es ++ es') = turns h es ++ turns (headingAfter h es) es' := by
  induction es generalizing h with
  | nil => rfl
  | cons e es ih =>
    rw [List.cons_append, turns, turns, ih e.heading, headingAfter_cons]
    split <;> rfl

theorem headingAfter_of_straight (hes : ∀ e ∈ es, e.heading = h) : headingAfter h es = h := by
  rw [headingAfter]
  cases hlast : es.getLast? with
  | none => rfl
  | some e => exact hes e (List.mem_of_getLast? hlast)

theorem turns_of_straight (hes : ∀ e ∈ es, e.heading = h) : turns h es = [] := by
  induction es with
  | nil => rfl
  | cons e es ih =>
    obtain ⟨rfl, hrest⟩ := List.forall_mem_cons.1 hes
    rw [turns, if_pos rfl, ih hrest]

/-! ## Sums along straight pieces -/

/-- A function of two points that adds up along straight pieces with both ends in a set. -/
def AddsUp (D : Set (Nat × Nat)) (F : Nat × Nat → Nat × Nat → M) : Prop :=
  ∀ h p c q, p ∈ D → q ∈ D → Heading.Reaches h p c → Heading.Reaches h c q → F p c + F c q = F p q

/-- The sum over the sides of a path. -/
def sumSides (F : Nat × Nat → Nat × Nat → M) (ps : List (Nat × Nat)) : M :=
  ((sides ps).map fun s => F s.1 s.2).sum

/-- The sum over edges. -/
def sumEdges (F : Nat × Nat → Nat × Nat → M) (es : List Edge) : M :=
  (es.map fun e => F e.start e.target).sum

theorem Edge.leads_append {es es' : List Edge} :
    Leads (es ++ es') p q ↔ ∃ c, Leads es p c ∧ Leads es' c q := by
  induction es generalizing p with
  | nil => simp [Leads]
  | cons e es ih => simp [Leads, ih, and_assoc]

/-- Edges from a point on, and the path over the points where they turn, which starts somewhere
straight behind. -/
theorem sumSides_turns {D : Set (Nat × Nat)} {F : Nat × Nat → Nat × Nat → M} (hF : AddsUp D F)
    (hleads : Edge.Leads es p q) (hes : ∀ e ∈ es, e.IsPlaced ∧ e.start ∈ D ∧ e.target ∈ D)
    (hc : c ∈ D) (hreach : h.Reaches c p) :
    sumSides F (c :: (turns h es ++ [q])) = F c p + sumEdges F es ∧
      ∀ s ∈ sides (c :: (turns h es ++ [q])), ∃ h, Heading.Reaches h s.1 s.2 := by
  induction es generalizing c p h with
  | nil =>
    cases hleads
    refine ⟨by simp [sumSides, sumEdges, turns], fun s hs => ⟨h, ?_⟩⟩
    rw [turns, List.nil_append, sides_cons_cons, sides_singleton, List.mem_singleton] at hs
    rwa [hs]
  | cons e es ih =>
    obtain ⟨rfl, hleads⟩ := hleads
    obtain ⟨⟨hplaced, hstart, htarget⟩, hrest⟩ := List.forall_mem_cons.1 hes
    have hedges : sumEdges F (e :: es) = F e.start e.target + sumEdges F es := List.sum_cons
    rw [turns, hedges]
    split
    next heq =>
      subst heq
      obtain ⟨hsum, hsides⟩ := ih hleads hrest hc (hreach.trans hplaced.reaches)
      rw [hsum, ← hF _ _ _ _ hc htarget hreach hplaced.reaches, add_assoc]
      exact ⟨rfl, hsides⟩
    next hne =>
      obtain ⟨hsum, hsides⟩ := ih hleads hrest hstart hplaced.reaches
      rw [List.cons_append]
      refine ⟨?_, ?_⟩
      · rw [← hsum]
        exact List.sum_cons
      · rw [sides_cons_cons]
        exact List.forall_mem_cons.2 ⟨⟨h, hreach⟩, hsides⟩

theorem reaches_of_straight (hleads : Edge.Leads es p q) (hplaced : ∀ e ∈ es, e.IsPlaced)
    (hstraight : ∀ e ∈ es, e.heading = h) (hne : es ≠ []) : h.Reaches p q := by
  induction es generalizing p with
  | nil => exact absurd rfl hne
  | cons e es ih =>
    obtain ⟨rfl, hleads⟩ := hleads
    obtain ⟨rfl, hstraight⟩ := List.forall_mem_cons.1 hstraight
    obtain ⟨he, hplaced⟩ := List.forall_mem_cons.1 hplaced
    cases es with
    | nil =>
      cases hleads
      exact he.reaches
    | cons f es => exact he.reaches.trans (ih hleads hplaced hstraight (List.cons_ne_nil f es))

/-- A ring is not straight: it has a first edge that has not a given direction. -/
theorem exists_turn (hleads : Edge.Leads ring p p) (hne : ring ≠ [])
    (hplaced : ∀ e ∈ ring, e.IsPlaced) (h : Heading) : ∃ before e after,
      ring = before ++ e :: after ∧ e.heading ≠ h ∧ ∀ f ∈ before, f.heading = h := by
  cases hfind : ring.find? (fun e => e.heading ≠ h) with
  | none =>
    have hall : ∀ e ∈ ring, e.heading = h := by simpa using hfind
    exact absurd rfl (reaches_of_straight hleads hplaced hall hne).ne
  | some e =>
    obtain ⟨he, before, after, heq, hbefore⟩ := List.find?_eq_some_iff_append.1 hfind
    exact ⟨before, e, after, heq, by simpa using he, by simpa using hbefore⟩

/-- A ring turns, and the path over its corners adds up to the ring. -/
theorem sumSides_corners {D : Set (Nat × Nat)} {F : Nat × Nat → Nat × Nat → M} (hF : AddsUp D F)
    (hleads : Edge.Leads ring p p) (hne : ring ≠ [])
    (hring : ∀ e ∈ ring, e.IsPlaced ∧ e.start ∈ D ∧ e.target ∈ D) :
    ∃ c cs, corners ring = c :: cs ∧ sumSides F (c :: (cs ++ [c])) = sumEdges F ring ∧
      ∀ s ∈ sides (c :: (cs ++ [c])), ∃ h, Heading.Reaches h s.1 s.2 := by
  obtain ⟨last, hlast⟩ : ∃ last, ring.getLast? = some last :=
    ⟨_, List.getLast?_eq_some_getLast hne⟩
  -- The ring is taken from its first corner on.
  obtain ⟨before, e, after, rfl, hturn, hstraight⟩ :=
    exists_turn hleads hne (fun e he => (hring e he).1) last.heading
  have hend : headingAfter e.heading after = last.heading := by
    rw [List.getLast?_append_of_ne_nil _ (List.cons_ne_nil e after)] at hlast
    rw [← headingAfter_cons e.heading, headingAfter, hlast, Option.map_some, Option.getD_some]
  have hbefore : headingAfter last.heading before = last.heading := headingAfter_of_straight hstraight
  obtain ⟨c, hfirst, hstart, hleads⟩ := Edge.leads_append.1 hleads
  obtain ⟨⟨hplaced, heD, heD'⟩, -⟩ :=
    List.forall_mem_cons.1 (List.forall_mem_append.1 hring).2
  have hround : Edge.Leads (after ++ before) e.target e.start :=
    Edge.leads_append.2 ⟨p, hleads, hstart ▸ hfirst⟩
  have hturns : turns e.heading (after ++ before) = turns e.heading after := by
    rw [turns_append, hend, turns_of_straight hstraight, List.append_nil]
  obtain ⟨hsum, hsides⟩ := sumSides_turns hF hround (fun f hf => hring f (by
    rw [List.mem_append] at hf
    rw [List.mem_append, List.mem_cons]
    exact hf.symm.imp_right .inr)) heD hplaced.reaches
  rw [hturns] at hsum hsides
  refine ⟨e.start, turns e.heading after, ?_, ?_, hsides⟩
  · rw [corners_eq_turns hlast, turns_append, turns_of_straight hstraight, hbefore, turns,
      if_neg hturn.symm]
    rfl
  · rw [hsum]
    have hperm : (e :: after ++ before).Perm (before ++ e :: after) := List.perm_append_comm
    exact (hperm.map fun e => F e.start e.target).sum_eq

end StreamCatalog.Region
