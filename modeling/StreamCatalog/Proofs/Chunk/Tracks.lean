import Mathlib.Data.List.Forall2
import StreamCatalog.Proofs.Chunk.Rules
import StreamCatalog.Proofs.Geometry.Joining
import StreamCatalog.Proofs.Number.Doubles

/-!
# The track of image centres

The image centres of its children make up the track of a parent: it is missing before the first
centre, a point while all centres are equal, and a line string from then on. A centre that is equal
to the last one adds no point, so the track goes through the centres in the order of the children
without equal neighbours (`ParentUpdate.track_of_children`). A track of one point takes over a
centre that is equal to it, which may differ from it in the sign of a zero.
-/

namespace StreamCatalog

/-! ## One more item -/

section dedupNeighbours

variable {α : Type} [BEq α] [PartialEquivBEq α]

/-- One more item is left out if it is equal to the last one that is left. -/
theorem dedupNeighbours_concat (xs : List α) (x : α) :
    dedupNeighbours (xs ++ [x]) =
      if (dedupNeighbours xs).getLast? == some x then dedupNeighbours xs
      else dedupNeighbours xs ++ [x] := by
  induction xs with
  | nil => rfl
  | cons y ys ih =>
    rw [List.cons_append, dedupNeighbours_cons, ih, dedupNeighbours_cons]
    cases hrest : dedupNeighbours ys with
    | nil => cases hyx : y == x <;> simp [BEq.comm (a := x), hyx]
    | cons z zs =>
      have hhead : (if (z :: zs).getLast? == some x then z :: zs else z :: zs ++ [x]).head? =
          some z := by
        split <;> rfl
      rw [hhead, List.head?_cons, Option.some_beq_some]
      cases hzy : z == y with
      | false => simp [List.getLast?_cons_cons, apply_ite]
      | true =>
        -- The run of `y` and `z` goes on with the item just when either of them is equal to it.
        have hlast : ((y :: zs).getLast? == some x) = ((z :: zs).getLast? == some x) := by
          cases zs with
          | nil => simp [BEq.congr_left hzy]
          | cons w ws => rw [List.getLast?_cons_cons, List.getLast?_cons_cons]
        rw [if_pos rfl, if_pos rfl, List.tail_cons, hlast]
        split <;> rfl

end dedupNeighbours

/-- Whether two points are the same, or equal to each other. -/
def Coord.Alike (p q : Coord) : Prop := p = q ∨ (p == q) = true

theorem Coord.Alike.beq_congr {p q : Coord} (h : p.Alike q) (c : Coord) : (p == c) = (q == c) := by
  rcases h with rfl | h
  · rfl
  · exact BEq.congr_left h

/-- Points that are alike one by one end alike. -/
theorem getLast?_beq_congr {ps qs : List Coord} (h : List.Forall₂ Coord.Alike ps qs) (c : Coord) :
    (ps.getLast? == some c) = (qs.getLast? == some c) := by
  induction h with
  | nil => rfl
  | @cons p q ps qs hpq h ih =>
    cases h with
    | nil => exact hpq.beq_congr c
    | cons hnext hrest =>
      rw [List.getLast?_cons_cons, List.getLast?_cons_cons]
      exact ih

theorem Coord.beq_self {c : Coord} (h : c.isFinite = true) : (c == c) = true := by
  obtain ⟨hx, hy⟩ := Bool.and_eq_true_iff.1 h
  exact Coord.beq_iff.2 ⟨(Binary64.beq_iff hx hx).2 rfl, (Binary64.beq_iff hy hy).2 rfl⟩

/-- Points that are alike one by one are equal as lists if they are equal to themselves. -/
theorem beq_of_forall₂ {ps qs : List Coord} (h : List.Forall₂ Coord.Alike ps qs)
    (hqs : ∀ q ∈ qs, (q == q) = true) : (ps == qs) = true := by
  induction h with
  | nil => rfl
  | @cons p q ps qs hpq h ih =>
    rw [List.cons_beq_cons, Bool.and_eq_true, hpq.beq_congr]
    exact ⟨hqs q List.mem_cons_self, ih fun r hr => hqs r (List.mem_cons_of_mem q hr)⟩

/-! ## Tracks through points -/

/-- The track through points: a single point, or a line through several. -/
def Geometry.track? : List Coord → Option Geometry
  | [] => none
  | [p] => some (.point p)
  | ps => some (.lineString ps)

theorem Geometry.track?_eq_none_iff {points : List Coord} : track? points = none ↔ points = [] := by
  rcases points with _ | ⟨p, _ | ⟨q, ps⟩⟩ <;> simp [track?]

/-- Whether points are those of some centres without equal neighbours: all of them are centres, in
their order, and they are alike one by one. -/
structure Traces (points centers : List Coord) : Prop where
  /-- The points are centres. -/
  sublist : points.Sublist centers
  /-- They are those without equal neighbours. -/
  alike : List.Forall₂ Coord.Alike points (dedupNeighbours centers)

namespace Traces

variable {points centers : List Coord} {c : Coord}

theorem nil : Traces [] [] := ⟨.slnil, .nil⟩

theorem eq_nil_iff (h : Traces points centers) : centers = [] ↔ points = [] := by
  constructor
  · rintro rfl
    exact List.sublist_nil.1 h.sublist
  · rintro rfl
    by_contra hne
    exact dedupNeighbours_ne_nil hne (List.forall₂_nil_left_iff.1 h.alike)

/-- A centre that is not equal to the last point is one more point. -/
theorem concat (h : Traces points centers) (hlast : (points.getLast? == some c) = false) :
    Traces (points ++ [c]) (centers ++ [c]) where
  sublist := h.sublist.append (List.Sublist.refl [c])
  alike := by
    rw [getLast?_beq_congr h.alike] at hlast
    rw [dedupNeighbours_concat, hlast]
    exact List.rel_append h.alike (.cons (.inl rfl) .nil)

/-- A centre that is equal to the last point leaves the points. -/
theorem again (h : Traces points centers) (hlast : (points.getLast? == some c) = true) :
    Traces points (centers ++ [c]) where
  sublist := h.sublist.trans (List.sublist_append_left centers [c])
  alike := by
    rw [getLast?_beq_congr h.alike] at hlast
    rw [dedupNeighbours_concat, hlast]
    exact h.alike

/-- A centre that is equal to the only point may take its place. -/
theorem replace {p : Coord} (h : Traces [p] centers) (hpc : (p == c) = true) :
    Traces [c] (centers ++ [c]) where
  sublist := List.sublist_append_right centers [c]
  alike := by
    have hagain := (h.again (c := c) (by simpa using hpc)).alike
    generalize dedupNeighbours (centers ++ [c]) = qs at hagain ⊢
    cases hagain with
    | cons hpq hrest =>
      cases hrest
      refine .cons (.inr (BEq.symm ?_)) .nil
      rw [← hpq.beq_congr c]
      exact hpc

/-- A track goes through one more centre after it was extended. -/
theorem extendTrack (h : Traces points centers) (c : Coord) :
    ∃ after, Traces after (centers ++ [c]) ∧
      some (extendTrack (Geometry.track? points) c) = Geometry.track? after := by
  match points with
  | [] => exact ⟨[c], h.concat rfl, rfl⟩
  | [p] =>
    cases hpc : p == c with
    | true => exact ⟨[c], h.replace hpc, by simp [Geometry.track?, StreamCatalog.extendTrack, hpc]⟩
    | false =>
      exact ⟨[p, c], h.concat hpc, by simp [Geometry.track?, StreamCatalog.extendTrack, hpc]⟩
  | p :: q :: ps =>
    cases hlast : (p :: q :: ps).getLast? == some c with
    | true =>
      exact ⟨_, h.again hlast, by simp only [Geometry.track?, StreamCatalog.extendTrack, hlast, if_true]⟩
    | false =>
      exact ⟨_, h.concat hlast,
        by simp only [Geometry.track?, StreamCatalog.extendTrack, hlast, Bool.false_eq_true, if_false,
          List.cons_append]⟩

end Traces

/-! ## The track of a parent -/

/-- The image centre of a child, if it has one. -/
def Record.center? (child : Record) : Option Coord :=
  (child.geometry? AttributeName.frameCenter).bind Geometry.point?

namespace ParentUpdate

section AnyKernel

variable [GeometryKernel]

/-- The rule for the track sets it only if the child has a centre. -/
theorem get?_update_frameCenter (parent child : Record) :
    (frameCenter.update parent child).get? AttributeName.frameCenter =
      (child.center?.map fun c => .geometry
        (extendTrack (parent.geometry? AttributeName.frameCenter) c)).or
          (parent.get? AttributeName.frameCenter) :=
  (get?_update frameCenter parent child _).trans (if_pos rfl)

/-- Each child whose image has a centre extends the track by it. -/
theorem exists_traces {points centers : List Coord} {parent : Record} (children : List Record)
    (h : Traces points centers)
    (htrack : parent.geometry? AttributeName.frameCenter = Geometry.track? points) :
    ∃ after, Traces after (centers ++ children.filterMap Record.center?) ∧
      Record.geometry? (children.foldl frameCenter.update parent) AttributeName.frameCenter =
        Geometry.track? after := by
  induction children generalizing points centers parent with
  | nil => exact ⟨points, by rwa [List.filterMap_nil, List.append_nil], htrack⟩
  | cons child children ih =>
    have hget := congrArg geometryOf (get?_update_frameCenter parent child)
    cases hcenter : child.center? with
    | none =>
      rw [hcenter] at hget
      rw [List.filterMap_cons_none hcenter]
      exact ih h (hget.trans htrack)
    | some c =>
      rw [hcenter, htrack] at hget
      obtain ⟨longer, hlonger, hextended⟩ := h.extendTrack c
      rw [List.filterMap_cons_some hcenter, List.append_cons]
      exact ih hlonger (hget.trans hextended)

/-- A parent without a track that is updated from children in turn has none as long as no child has
an image centre. Otherwise its track goes through the centres in the order of the children, without
equal neighbours: it is a point if there is one such centre, and else a line string. -/
theorem track_of_children {parent : Record} {children : List Record}
    (hparent : parent.geometry? AttributeName.frameCenter = none)
    (hfinite : ∀ child ∈ children, ∀ c, child.center? = some c → c.isFinite = true) :
    ( Record.geometry? (children.foldl frameCenter.update parent) AttributeName.frameCenter = none ↔
        ∀ child ∈ children, child.center? = none) ∧
      ∃ points : List Coord,
        Record.geometry? (children.foldl frameCenter.update parent) AttributeName.frameCenter =
          Geometry.track? points ∧
        points.Sublist (children.filterMap Record.center?) ∧
        (points == dedupNeighbours (children.filterMap Record.center?)) = true := by
  obtain ⟨points, htraces, htrack⟩ := exists_traces children .nil hparent
  rw [List.nil_append] at htraces
  have hreflexive : ∀ c ∈ dedupNeighbours (children.filterMap Record.center?), (c == c) = true := by
    intro c hc
    obtain ⟨child, hchild, hcenter⟩ := List.mem_filterMap.1 (mem_of_mem_dedupNeighbours hc)
    exact Coord.beq_self (hfinite child hchild c hcenter)
  refine ⟨?_, points, htrack, htraces.sublist, beq_of_forall₂ htraces.alike hreflexive⟩
  rw [htrack, Geometry.track?_eq_none_iff, ← htraces.eq_nil_iff, List.filterMap_eq_nil_iff]

end AnyKernel

/-- A child whose image has a centre. -/
def seen (x y : Float) : Record :=
  (Record.new .child).set AttributeName.frameCenter (.geometry (.point ⟨x, y⟩))

/-- Children with equal centres on both sides of the first change, and one without a centre. -/
def flight : List Record :=
  [seen 0 1, seen (-0.0) 1, Record.new .child, seen 2 2, seen 2 2, seen 3 3, seen 2 2]

theorem track_of_flight :
    ∃ points : List Coord,
      Record.geometry? (flight.foldl frameCenter.update (Record.new .parent))
          AttributeName.frameCenter = Geometry.track? points ∧
      (points == [⟨0, 1⟩, ⟨2, 2⟩, ⟨3, 3⟩, ⟨2, 2⟩]) = true := by
  have hparent : Record.geometry? (.new .parent) AttributeName.frameCenter = none := rfl
  have hfinite : ∀ child ∈ flight, ∀ c, child.center? = some c → c.isFinite = true := by
    decide +kernel
  obtain ⟨-, points, htrack, -, hpoints⟩ := track_of_children hparent hfinite
  exact ⟨points, htrack, hpoints⟩

end ParentUpdate

end StreamCatalog
