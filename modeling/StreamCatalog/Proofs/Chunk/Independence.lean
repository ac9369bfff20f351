import StreamCatalog.Proofs.Chunk.Repetition

/-!
# Rules that do not interfere

A rule depends on no attribute of the parent but its target, and sets no other. So two rules with
different targets may change places (`ParentUpdate.update?_comm`), and rules that all have different
targets may be applied in any order (`ParentUpdate.updateAll?_perm`). The standard rules are of
this kind.
-/

namespace StreamCatalog

theorem Record.set?_comm {a b : String} (hab : a ≠ b) (r : Record) (v w : Option Attribute) :
    (r.set? a v).set? b w = (r.set? b w).set? a v := by
  refine ext_get? (by simp only [id_set?]) (by simp only [kind_set?]) fun name => ?_
  simp only [get?_set?]
  by_cases ha : a = name
  · subst ha
    simp only [if_true, if_neg hab.symm]
  · simp only [if_neg ha]

namespace ParentUpdate

section AnyKernel

variable [GeometryKernel] {u v : ParentUpdate} {us vs : List ParentUpdate}
  {parent other child after : Record}

/-! ## What a rule depends on, and what it leaves alone -/

/-- A rule that has a result has set its target, if anything. -/
theorem exists_of_update? (h : u.update? parent child = some after) :
    ∃ value, u.outcome? (parent.get? u.target) child = some value ∧
      after = parent.set? u.target value := by
  rw [update?_eq] at h
  obtain ⟨value, hvalue, hafter⟩ := Option.map_eq_some_iff.1 h
  exact ⟨value, hvalue, hafter.symm⟩

theorem get?_of_update? (h : u.update? parent child = some after) {name : String}
    (hname : name ≠ u.target) : after.get? name = parent.get? name := by
  obtain ⟨value, -, rfl⟩ := exists_of_update? h
  rw [Record.get?_set?, if_neg hname.symm]

theorem id_of_update? (h : u.update? parent child = some after) : after.id = parent.id := by
  obtain ⟨value, -, rfl⟩ := exists_of_update? h
  exact Record.id_set? parent u.target value

theorem kind_of_update? (h : u.update? parent child = some after) : after.kind = parent.kind := by
  obtain ⟨value, -, rfl⟩ := exists_of_update? h
  exact Record.kind_set? parent u.target value

/-- Parents with the same target of a rule get the same from it. -/
theorem update?_congr (h : other.get? u.target = parent.get? u.target) :
    (u.update? other child).map (·.get? u.target) =
      (u.update? parent child).map (·.get? u.target) := by
  rw [update?_eq, update?_eq, h, Option.map_map, Option.map_map]
  refine congrArg (Option.map · _) (funext fun value => ?_)
  simp only [Function.comp_apply, Record.get?_set?, if_true, h]

/-! ## Rules in another order -/

/-- Rules with different targets may change places. -/
theorem update?_comm (h : u.target ≠ v.target) (parent child : Record) :
    (u.update? parent child).bind (v.update? · child) =
      (v.update? parent child).bind (u.update? · child) := by
  -- Each of them finds its target as it was before the other one.
  have hv : ∀ value, v.update? (parent.set? u.target value) child =
      (v.outcome? (parent.get? v.target) child).map
        ((parent.set? u.target value).set? v.target) := by
    intro value
    rw [update?_eq, Record.get?_set?, if_neg h]
  have hu : ∀ value, u.update? (parent.set? v.target value) child =
      (u.outcome? (parent.get? u.target) child).map
        ((parent.set? v.target value).set? u.target) := by
    intro value
    rw [update?_eq, Record.get?_set?, if_neg h.symm]
  rw [update?_eq, update?_eq]
  cases houtcome : u.outcome? (parent.get? u.target) child with
  | none =>
    cases v.outcome? (parent.get? v.target) child with
    | none => rfl
    | some w => rw [Option.map_none, Option.bind_none, Option.map_some, Option.bind_some, hu,
        houtcome, Option.map_none]
  | some value =>
    rw [Option.map_some, Option.bind_some, hv]
    cases v.outcome? (parent.get? v.target) child with
    | none => rfl
    | some w =>
      rw [Option.map_some, Option.map_some, Option.bind_some, hu, houtcome, Option.map_some,
        Record.set?_comm h]

/-- Rules with targets of their own have the same result in any order, and none in any order when
one of them has none. -/
theorem updateAll?_perm (hperm : us.Perm vs) (hus : (us.map target).Nodup)
    (parent child : Record) : updateAll? us parent child = updateAll? vs parent child := by
  induction hperm generalizing parent with
  | nil => rfl
  | cons u _ ih =>
    rw [List.map_cons, List.nodup_cons] at hus
    rw [updateAll?_cons, updateAll?_cons]
    exact congrArg _ (funext fun between => ih hus.2 between)
  | swap u v us =>
    rw [List.map_cons, List.map_cons, List.nodup_cons, List.mem_cons, not_or] at hus
    simp only [updateAll?_cons]
    rw [← Option.bind_assoc, ← Option.bind_assoc, update?_comm hus.1.1]
  | trans hfirst _ ih ih' =>
    rw [ih hus parent, ih' ((hfirst.map target).nodup_iff.1 hus) parent]

/-- So have they when a rule without a result leaves the parent as it is. -/
theorem updateAll_perm (hperm : us.Perm vs) (hus : (us.map target).Nodup)
    (parent child : Record) : updateAll us parent child = updateAll vs parent child := by
  have hvs : (vs.map target).Nodup := (hperm.map target).nodup_iff.1 hus
  refine Record.ext_get? ?_ ?_ fun name => ?_
  · rw [id_updateAll, id_updateAll]
  · rw [kind_updateAll, kind_updateAll]
  · by_cases hname : name ∈ us.map target
    · obtain ⟨u, hu, rfl⟩ := List.mem_map.1 hname
      rw [get?_updateAll_of_nodup hus hu, get?_updateAll_of_nodup hvs (hperm.mem_iff.1 hu)]
    · have hname' : name ∉ vs.map target := mt (hperm.map target).mem_iff.2 hname
      rw [get?_updateAll_of_notMem hname, get?_updateAll_of_notMem hname']

/-- The standard rules give the same parent in any order. Each of them sets at most its own
attribute, in dependence on nothing of the parent but that attribute, and leaves all else as it
is. -/
theorem standard_independent (t : Tolerances) (parent child : Record) :
    (∀ us : List ParentUpdate, us.Perm (standard t) →
      updateAll? us parent child = updateAll? (standard t) parent child ∧
        updateAll us parent child = updateAll (standard t) parent child) ∧
    (standard t).map target = [AttributeName.temporalStart, AttributeName.temporalEnd,
      AttributeName.modified, AttributeName.related, AttributeName.frameCenter,
      AttributeName.location] ∧
    ∀ u ∈ standard t,
      (∀ after, u.update? parent child = some after →
        after.id = parent.id ∧ after.kind = parent.kind ∧
          ∀ name, name ≠ u.target → after.get? name = parent.get? name) ∧
      ∀ other : Record, other.get? u.target = parent.get? u.target →
        (u.update? other child).map (·.get? u.target) =
          (u.update? parent child).map (·.get? u.target) := by
  have hnodup := nodup_target_standard t
  refine ⟨fun us hperm => ?_, rfl, fun u _ => ⟨fun after h => ?_, fun other h => update?_congr h⟩⟩
  · exact ⟨(updateAll?_perm hperm.symm hnodup parent child).symm,
      (updateAll_perm hperm.symm hnodup parent child).symm⟩
  · exact ⟨id_of_update? h, kind_of_update? h, fun name hname => get?_of_update? h hname⟩

end AnyKernel

/-- The rules from the last to the first, for a parent whose start is a text and whose location is
missing. -/
theorem standard_independent_reversed :
    let parent := (Record.new .parent).set AttributeName.temporalStart (.text "soon")
    let child := (Record.new .child).set AttributeName.temporalStart (.date (.ofMicros 5))
    updateAll? (standard .standard).reverse parent child =
        updateAll? (standard .standard) parent child ∧
      updateAll (standard .standard).reverse parent child =
        updateAll (standard .standard) parent child ∧
      temporalStart ∈ standard .standard ∧
      ∃ after, temporalStart.update? parent child = some after ∧
        after.get? AttributeName.temporalStart = some (.date (.ofMicros 5)) ∧
        after.get? AttributeName.location = none ∧
        ((temporalStart.update? (parent.set AttributeName.title (.text "a")) child).map
          (·.get? AttributeName.temporalStart)) = some (some (.date (.ofMicros 5))) := by
  intro parent child
  obtain ⟨hperm, -, hrules⟩ := standard_independent .standard parent child
  obtain ⟨hall, htotal⟩ := hperm _ (List.reverse_perm _)
  have hmem : temporalStart ∈ standard .standard := List.mem_cons_self
  obtain ⟨hframe, hreads⟩ := hrules temporalStart hmem
  have hupdate : temporalStart.update? parent child =
      some (parent.set AttributeName.temporalStart (.date (.ofMicros 5))) := rfl
  have hset := Record.get?_set parent AttributeName.temporalStart AttributeName.temporalStart
    (.date (.ofMicros 5))
  refine ⟨hall, htotal, hmem, _, hupdate, hset.trans (if_pos rfl), ?_, ?_⟩
  · exact ((hframe _ hupdate).2.2 AttributeName.location (by decide)).trans rfl
  · refine (hreads _ rfl).trans ?_
    rw [hupdate, Option.map_some]
    exact congrArg some (hset.trans (if_pos rfl))

end ParentUpdate

end StreamCatalog
