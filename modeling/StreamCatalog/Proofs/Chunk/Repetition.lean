import StreamCatalog.Proofs.Chunk.Rules
import StreamCatalog.Proofs.Geometry.Joining

/-!
# Updating a parent twice with the same child

A rule that is applied again with the same child leaves the parent as it is if its target is
settled. Times and the list of children are settled after one application, and so is the track of
image centres unless the centre is not a number. The location is settled only if it takes up that of
the child: the standard rules have nothing else to change the second time, and change that
in all other cases (`ParentUpdate.updateAll?_again`).
-/

namespace StreamCatalog

namespace Record

variable {r s : Record}

theorem ext_get? (hid : r.id = s.id) (hkind : r.kind = s.kind)
    (hget : ∀ name, r.get? name = s.get? name) : r = s := by
  rcases r with ⟨_, _, a⟩
  rcases s with ⟨_, _, b⟩
  cases hid
  cases hkind
  rw [show a = b from Std.ExtTreeMap.ext_getElem? fun name => hget name]

theorem set?_eq_self_iff {name : String} {value : Option Attribute} :
    r.set? name value = r ↔ ∀ v, value = some v → r.get? name = some v := by
  constructor
  · rintro h v rfl
    rw [← h, get?_set?, if_pos rfl, Option.some_or]
  · intro h
    refine ext_get? (id_set? r name value) (kind_set? r name value) fun other => ?_
    rw [get?_set?]
    split
    next hname =>
      subst hname
      cases value with
      | none => rw [Option.none_or]
      | some v => rw [Option.some_or, h v rfl]
    next => rfl

end Record

namespace ParentUpdate

variable {u : ParentUpdate} {us : List ParentUpdate} {parent child after : Record}
  {current : Option Attribute} {t : Tolerances}

/-! ## Rules that leave a parent as it is -/

/-- Rules with targets of their own leave a parent as it is exactly if each of them does. -/
theorem updateAll?_eq_self_iff (hus : (us.map target).Nodup) :
    updateAll? us parent child = some parent ↔ ∀ u ∈ us, u.update? parent child = some parent := by
  induction us with
  | nil => exact iff_of_true rfl nofun
  | cons u us ih =>
    rw [List.map_cons, List.nodup_cons] at hus
    rw [updateAll?_cons, List.forall_mem_cons, ← ih hus.2]
    constructor
    · intro h
      obtain ⟨between, hbetween, h⟩ := Option.bind_eq_some_iff.1 h
      have hsame : between = parent := by
        have hupdate := update_eq_of_update? hbetween
        refine Record.ext_get? (hupdate ▸ id_update u parent child)
          (hupdate ▸ kind_update u parent child) fun name => ?_
        by_cases hname : u.target = name
        · -- What the rule sets is what the parent has at the end, and so at the beginning.
          subst hname
          have hlater := get?_updateAll_of_notMem hus.1 between child
          rw [updateAll_eq_of_updateAll? h] at hlater
          exact hlater.symm
        · rw [← hupdate, get?_update, if_neg hname]
      subst hsame
      exact ⟨hbetween, h⟩
    · rintro ⟨hfirst, hrest⟩
      rw [hfirst, Option.bind_some, hrest]

theorem update?_eq_self_iff :
    u.update? parent child = some parent ↔ u.Settled (parent.get? u.target) child := by
  rw [update?_eq, Option.map_eq_some_iff]
  exact exists_congr fun value => and_congr_right fun _ => Record.set?_eq_self_iff

/-! ## The track of image centres -/

/-- A track that ends with a centre. -/
inductive EndsWith (c : Coord) : Geometry → Prop where
  /-- The centre is the only one. -/
  | point : EndsWith c (.point c)
  /-- The centre is equal to the last one. -/
  | equal {ps : List Coord} (last_eq : (ps.getLast? == some c) = true) :
    EndsWith c (.lineString ps)
  /-- The centre is the last one. -/
  | last (ps : List Coord) : EndsWith c (.lineString (ps ++ [c]))

theorem endsWith_extendTrack (track : Option Geometry) (c : Coord) :
    EndsWith c (extendTrack track c) := by
  fun_cases extendTrack track c with
  | case1 p => exact .point
  | case2 p => exact .last [p]
  | case3 ps =>
    split
    next hlast => exact .equal hlast
    next => exact .last ps
  | case4 => exact .point

/-- A track that ends with a centre stays as it is exactly if the centre is a number. -/
theorem EndsWith.extendTrack_eq_iff {c : Coord} {g : Geometry} (h : EndsWith c g) :
    extendTrack (some g) c = g ↔ (c == c) = true := by
  cases h with
  | point =>
    rw [extendTrack]
    split
    next hc => exact iff_of_true rfl hc
    next hc => exact iff_of_false nofun hc
  | @equal ps last_eq =>
    obtain ⟨p, hp⟩ : ∃ p, ps.getLast? = some p := by
      cases hlast : ps.getLast? with
      | none =>
        rw [hlast] at last_eq
        cases last_eq
      | some p => exact ⟨p, rfl⟩
    have hpc : (p == c) = true := by
      rw [hp] at last_eq
      exact last_eq
    rw [extendTrack, if_pos last_eq]
    exact iff_of_true rfl (BEq.trans (BEq.symm hpc) hpc)
  | last ps =>
    rw [extendTrack, List.getLast?_concat, Option.some_beq_some]
    split
    next hc => exact iff_of_true rfl hc
    next hc => exact iff_of_false (by simp) hc

theorem settled_frameCenter_iff :
    frameCenter.Settled (frameCenter.applied current child) child ↔
      ∀ c, child.geometry? AttributeName.frameCenter = some (.point c) → (c == c) = true := by
  have hcenter : ∀ c, child.geometry? AttributeName.frameCenter = some (.point c) ↔
      (child.geometry? AttributeName.frameCenter).bind Geometry.point? = some c := by
    intro c
    rw [Option.bind_eq_some_iff]
    constructor
    · exact fun h => ⟨_, h, rfl⟩
    · rintro ⟨g, hg, hpoint⟩
      rw [hg, Geometry.eq_point_of_point? hpoint]
  simp only [hcenter]
  cases hc : (child.geometry? AttributeName.frameCenter).bind Geometry.point? with
  | none => exact iff_of_true ⟨none, by rw [outcome?, hc]; rfl, nofun⟩ nofun
  | some c =>
    have happlied : frameCenter.applied current child =
        some (.geometry (extendTrack (geometryOf current) c)) := by
      rw [applied, outcome?, hc]
      rfl
    have hends := endsWith_extendTrack (geometryOf current) c
    rw [happlied, Settled, outcome?, hc, geometryOf]
    generalize extendTrack (geometryOf current) c = g at hends
    have hsame : (∀ c', some c = some c' → (c' == c') = true) ↔ (c == c) = true := by simp
    rw [hsame, ← hends.extendTrack_eq_iff]
    constructor
    · rintro ⟨_, houtcome, h⟩
      cases houtcome
      exact (Attribute.geometry.inj (Option.some.inj (h _ rfl))).symm
    · intro h
      refine ⟨_, rfl, fun v hv => ?_⟩
      rw [← hv, Option.map_some, h]

/-! ## The location -/

/-- A location is settled exactly if it takes up that of the child. -/
theorem settled_location_iff :
    (location .joinedLocation t).Settled current child ↔
      ∀ added, child.geometry? AttributeName.location = some added →
        ∃ kept, geometryOf current = some kept ∧ kept.TakesUp t added := by
  cases hadded : child.geometry? AttributeName.location with
  | none => exact iff_of_true ⟨none, by rw [outcome?, hadded], nofun⟩ nofun
  | some added =>
    rw [Settled, outcome?, hadded]
    constructor
    · rintro ⟨_, houtcome, hsame⟩ _ hlocation
      cases hlocation
      obtain ⟨g, hg, rfl⟩ := Option.map_eq_some_iff.1 houtcome
      obtain rfl := hsame _ rfl
      exact ⟨g, rfl, Geometry.joined_eq_self_iff.1 hg⟩
    · intro h
      obtain ⟨kept, hkept, htakes⟩ := h added rfl
      have hjoined : joinedLocation? .joinedLocation t current added = some kept := by
        rw [joinedLocation?, hkept]
        exact Geometry.joined_eq_self_iff.2 htakes
      refine ⟨some (.geometry kept), congrArg (Option.map _) hjoined, fun v hv => ?_⟩
      cases hv
      rcases current with _ | _ | _ | _ | _ | g | _ <;> cases hkept
      rfl

/-! ## The standard rules -/

theorem nodup_target_standard (t : Tolerances) : ((standard t).map target).Nodup := by
  have htargets : (standard t).map target = [AttributeName.temporalStart, AttributeName.temporalEnd,
      AttributeName.modified, AttributeName.related, AttributeName.frameCenter,
      AttributeName.location] := rfl
  rw [htargets]
  decide

/-- All standard rules but those for the track and the location settle their targets. -/
theorem settled_of_mem_standard (hu : u ∈ standard t)
    (hcenter : u.target ≠ AttributeName.frameCenter) (hlocation : u.target ≠ AttributeName.location)
    (current : Option Attribute) (child : Record) : u.Settled (u.applied current child) child := by
  cases u with
  | temporalStart => exact settled_temporalStart current child
  | temporalEnd => exact settled_temporalEnd current child
  | modifiedDate => exact settled_modifiedDate current child
  | association => exact settled_association current child
  | frameCenter => exact absurd rfl hcenter
  | location => exact absurd rfl hlocation

theorem joinedLocation?_eq {op : Operator} {kept : Geometry} (h : geometryOf current = some kept)
    (added : Geometry) :
    joinedLocation? op t current added = op.result? t (kept.combine added) := by
  rw [joinedLocation?, h]

/-- The standard rules have a result where the joined location has one. -/
theorem exists_updateAll?_standard (t : Tolerances) (parent : Record) {added g : Geometry}
    (hadded : child.geometry? AttributeName.location = some added)
    (hg : joinedLocation? .joinedLocation t (parent.get? AttributeName.location) added = some g) :
    ∃ after, updateAll? (standard t) parent child = some after ∧
      after.geometry? AttributeName.location = some g := by
  obtain ⟨before, hbefore⟩ : ∃ before,
      updateAll? [temporalStart, temporalEnd, modifiedDate, association, frameCenter] parent child =
        some before := exists_updateAll? (by simp) parent child
  have hkept : before.get? AttributeName.location = parent.get? AttributeName.location := by
    rw [← updateAll_eq_of_updateAll? hbefore]
    refine get?_updateAll_of_notMem ?_ parent child
    simp only [List.map_cons, List.map_nil, target]
    decide
  have houtcome : (location .joinedLocation t).outcome? (before.get? AttributeName.location) child =
      some (some (.geometry g)) := by
    rw [outcome?, hadded, hkept]
    exact congrArg (Option.map _) hg
  refine ⟨before.set AttributeName.location (.geometry g), ?_, ?_⟩
  · have hsplit : standard t =
        [temporalStart, temporalEnd, modifiedDate, association, frameCenter] ++
          [location .joinedLocation t] := rfl
    have hlast : (location .joinedLocation t).update? before child =
        some (before.set AttributeName.location (.geometry g)) := by
      rw [update?_eq]
      exact congrArg (Option.map _) houtcome
    rw [hsplit, updateAll?_append, hbefore, Option.bind_some, updateAll?_cons, hlast]
    rfl
  · exact congrArg geometryOf ((Record.get?_set _ _ _ _).trans (if_pos rfl))

/-! ## Overlapping squares -/

/-- A child with a location. -/
private def childAt (id : String) (g : Geometry) : Record :=
  { Record.new .child with id := id }.set AttributeName.location (.geometry g)

private theorem location_childAt (id : String) (g : Geometry) :
    Record.geometry? (childAt id g) AttributeName.location = some g := rfl

/-- The square between two places on the diagonal. -/
private def square (low high : Float) : Box := ⟨⟨low, low⟩, ⟨high, high⟩⟩

/-- Two squares that overlap, as one polygon. -/
private def stairs : Polygon :=
  ⟨[⟨1, 0⟩, ⟨1, 0.5⟩, ⟨1.5, 0.5⟩, ⟨1.5, 1.5⟩, ⟨0.5, 1.5⟩, ⟨0.5, 1⟩, ⟨0, 1⟩, ⟨0, 0⟩, ⟨1, 0⟩], []⟩

/-- The ends of two intervals in order, where the second one begins first and reaches the first. -/
private theorem mergeSort_ends {a b c d : Float} (hab : a ≤ b) (hcd : c ≤ d) (hac : ¬a ≤ c)
    (had : a ≤ d) :
    [a, b, c, d].mergeSort (fun x y => decide (x ≤ y)) =
      c :: a :: if b ≤ d then [b, d] else [d, b] := by
  by_cases hbd : b ≤ d <;> simp [List.mergeSort, hab, hcd, hac, had, hbd]

private theorem outline_overlapping : Box.outline [square 0.5 1.5, square 0 1] = stairs := by
  have hlines : Box.gridLines [0.5, 1.5, 0, 1] = [0, 0.5, 1, 1.5] := by
    rw [Box.gridLines, mergeSort_ends (by decide +kernel) (by decide +kernel) (by decide +kernel)
      (by decide +kernel)]
    decide +kernel
  have hx : ([square 0.5 1.5, square 0 1].flatMap fun b => [b.low.x, b.high.x]) =
      [0.5, 1.5, 0, 1] := rfl
  have hy : ([square 0.5 1.5, square 0 1].flatMap fun b => [b.low.y, b.high.y]) =
      [0.5, 1.5, 0, 1] := rfl
  rw [Box.outline, Box.mergedOutline, hx, hy, hlines]
  · decide +kernel
  · nofun

private theorem outline_nested :
    Box.outline [square 0.5 1.5, square 0 1.5] = (square 0 1.5).toPolygon := by
  have hlines : Box.gridLines [0.5, 1.5, 0, 1.5] = [0, 0.5, 1.5] := by
    rw [Box.gridLines, mergeSort_ends (by decide +kernel) (by decide +kernel) (by decide +kernel)
      (by decide +kernel)]
    decide +kernel
  have hx : ([square 0.5 1.5, square 0 1.5].flatMap fun b => [b.low.x, b.high.x]) =
      [0.5, 1.5, 0, 1.5] := rfl
  have hy : ([square 0.5 1.5, square 0 1.5].flatMap fun b => [b.low.y, b.high.y]) =
      [0.5, 1.5, 0, 1.5] := rfl
  rw [Box.outline, Box.mergedOutline, hx, hy, hlines]
  · decide +kernel
  · nofun

/-- Two polygons with boxes that adjoin each other, joined without simplification. -/
private theorem joined_adjoining {p q r : Polygon} {b c : Box}
    (hb : Box.around? p.exterior = some b) (hc : Box.around? q.exterior = some c)
    (hsolid : b.isSolid = true ∧ c.isSolid = true) (hadjoins : c.adjoins b = true)
    (hr : Box.outline [c, b] = r) (hvalid : (Geometry.polygon r).isValid = true) :
    Operator.joinedLocation.result? (.ofDistance 0) ((Geometry.polygon p).combine (.polygon q)) =
      some (.polygon r) := by
  have hboxes : [Geometry.polygon p, .polygon q].filterMap Geometry.box? = [b, c] := by
    simp [Geometry.box?, hb, hc]
  have hparts : [b, c].partition Box.isSolid = ([b, c], []) := by
    simp [List.partition_eq_filter_filter, hsolid]
  have hclusters : Box.clusters [b, c] = [[c, b]] := by
    simp [Box.clusters, Box.addToClusters, hadjoins, List.partition_eq_filter_filter]
  have henvelopes : (Geometry.multiPolygon [p, q]).partEnvelopes = .polygon r := by
    have hseveral : ¬(Geometry.multiPolygon [p, q]).partCount ≤ 1 := Nat.lt_irrefl 1
    rw [Geometry.partEnvelopes, if_neg hseveral]
    simp only [Geometry.components, List.map_cons, List.map_nil, hboxes, hparts,
      GeometryKernel.union?_eq, Box.union, hclusters, hr, List.filter_nil, List.isEmpty_cons,
      Bool.false_eq_true, if_false]
  have hcombine : (Geometry.polygon p).combine (.polygon q) = .multiPolygon [p, q] := rfl
  have htolerance : (Tolerances.ofDistance 0).distance ≤ 0.0 := by decide +kernel
  have hsimple : (Geometry.polygon r).simplify? (Tolerances.ofDistance 0).distance =
      some (.polygon r) := if_pos htolerance
  rw [hcombine, Operator.result?_joinedLocation, henvelopes, Operator.validOr, if_pos hvalid,
    Operator.result?, hsimple, Option.map_some, Operator.validOr_self]

/-! ## The second update -/

/-- The second update with the same child changes nothing but the track of image centres and the
location. It changes nothing at all exactly if the image centre, if there is one, is a number and
the location takes up that of the child, if there is one. -/
theorem updateAll?_again (hafter : updateAll? (standard t) parent child = some after) :
    (∀ twice, updateAll? (standard t) after child = some twice →
      twice.id = after.id ∧ twice.kind = after.kind ∧
        ∀ name, name ≠ AttributeName.frameCenter → name ≠ AttributeName.location →
          twice.get? name = after.get? name) ∧
    (updateAll? (standard t) after child = some after ↔
      (∀ c, child.geometry? AttributeName.frameCenter = some (.point c) → (c == c) = true) ∧
        ∀ added, child.geometry? AttributeName.location = some added →
          ∃ kept, after.geometry? AttributeName.location = some kept ∧ kept.TakesUp t added) := by
  have hnodup := nodup_target_standard t
  have hget : ∀ u ∈ standard t, after.get? u.target = u.applied (parent.get? u.target) child := by
    intro u hu
    rw [← updateAll_eq_of_updateAll? hafter]
    exact get?_updateAll_of_nodup hnodup hu parent child
  constructor
  · intro twice htwice
    rw [← updateAll_eq_of_updateAll? htwice]
    refine ⟨id_updateAll _ _ _, kind_updateAll _ _ _, fun name hcenter hlocation => ?_⟩
    by_cases hname : name ∈ (standard t).map target
    · obtain ⟨u, hu, rfl⟩ := List.mem_map.1 hname
      rw [get?_updateAll_of_nodup hnodup hu, hget u hu]
      exact (settled_of_mem_standard hu hcenter hlocation _ child).applied_eq
    · exact get?_updateAll_of_notMem hname after child
  · have hcenter : frameCenter.Settled (after.get? frameCenter.target) child ↔
        ∀ c, child.geometry? AttributeName.frameCenter = some (.point c) → (c == c) = true := by
      rw [hget frameCenter (by simp [standard])]
      exact settled_frameCenter_iff
    have hlocation :
        (location .joinedLocation t).Settled (after.get? AttributeName.location) child ↔ ∀ added,
          child.geometry? AttributeName.location = some added →
            ∃ kept, after.geometry? AttributeName.location = some kept ∧ kept.TakesUp t added :=
      settled_location_iff
    rw [updateAll?_eq_self_iff hnodup, ← hcenter, ← hlocation]
    simp only [update?_eq_self_iff]
    constructor
    · exact fun h => ⟨h frameCenter (by simp [standard]), h (location _ t) (by simp [standard])⟩
    · rintro ⟨hc, hl⟩ u hu
      cases u with
      | frameCenter => exact hc
      | location op t' =>
        obtain ⟨rfl, rfl⟩ : op = .joinedLocation ∧ t' = t := by simpa [standard] using hu
        exact hl
      | _ =>
        rw [hget _ hu]
        exact settled_of_mem_standard hu (by decide) (by decide) _ child

/-- The second update of a new parent with a child at a point changes nothing. -/
theorem updateAll?_again_point :
    let child := childAt "a" (.point ⟨30, 40⟩)
    ∃ after, updateAll? (standard .standard) (Record.new .parent) child = some after ∧
      updateAll? (standard .standard) after child = some after := by
  have hlocation := location_childAt "a" (.point ⟨30, 40⟩)
  have hnumber : ((⟨30, 40⟩ : Coord) == ⟨30, 40⟩) = true := by decide +kernel
  obtain ⟨after, hafter, hkept⟩ :=
    exists_updateAll?_standard .standard (Record.new .parent) hlocation rfl
  refine ⟨after, hafter, (updateAll?_again hafter).2.2 ⟨nofun, fun added hadded => ?_⟩⟩
  cases hlocation.symm.trans hadded
  exact ⟨_, hkept, @Geometry.TakesUp.points _ _ _ [⟨30, 40⟩] [⟨30, 40⟩] rfl rfl
    (List.cons_ne_nil _ _) (.singleton _) fun q hq => ⟨_, rfl, List.mem_singleton.1 hq ▸ hnumber⟩⟩

/-- Two squares that overlap are one location with eight corners. When the second is joined again,
the box around both takes its place. -/
theorem updateAll?_again_squares :
    let rules := standard (.ofDistance 0)
    let first := childAt "a" (.polygon (square 0 1).toPolygon)
    let second := childAt "b" (.polygon (square 0.5 1.5).toPolygon)
    (Geometry.polygon (square 0 1).toPolygon).isValid = true ∧
      (Geometry.polygon (square 0.5 1.5).toPolygon).isValid = true ∧
      ∃ parent once twice, updateAll? rules (Record.new .parent) first = some parent ∧
        updateAll? rules parent second = some once ∧ updateAll? rules once second = some twice ∧
        once.geometry? AttributeName.location = some (.polygon stairs) ∧
        twice.geometry? AttributeName.location = some (.polygon (square 0 1.5).toPolygon) ∧
        twice ≠ once := by
  have hstairs := joined_adjoining (p := (square 0 1).toPolygon) (q := (square 0.5 1.5).toPolygon)
    (b := square 0 1) (c := square 0.5 1.5) (by decide +kernel) (by decide +kernel)
    (by decide +kernel) (by decide +kernel) outline_overlapping (by decide +kernel)
  have hwhole := joined_adjoining (p := stairs) (q := (square 0.5 1.5).toPolygon)
    (b := square 0 1.5) (c := square 0.5 1.5) (by decide +kernel) (by decide +kernel)
    (by decide +kernel) (by decide +kernel) outline_nested (by decide +kernel)
  obtain ⟨parent, hparent, hfirst⟩ := exists_updateAll?_standard (.ofDistance 0)
    (Record.new .parent) (location_childAt "a" (.polygon (square 0 1).toPolygon)) rfl
  obtain ⟨once, honce, hsecond⟩ := exists_updateAll?_standard (.ofDistance 0) parent
    (location_childAt "b" _) ((joinedLocation?_eq hfirst _).trans hstairs)
  obtain ⟨twice, htwice, hthird⟩ := exists_updateAll?_standard (.ofDistance 0) once
    (location_childAt "b" _) ((joinedLocation?_eq hsecond _).trans hwhole)
  refine ⟨by decide +kernel, by decide +kernel, parent, once, twice, hparent, honce, htwice,
    hsecond, hthird, ?_⟩
  rintro rfl
  have hsame := Geometry.polygon.inj (Option.some.inj (hsecond.symm.trans hthird))
  exact absurd (congrArg (·.exterior.length) hsame) (by decide)

end ParentUpdate

end StreamCatalog
