import StreamCatalog.Chunk.ParentUpdate
import StreamCatalog.Proofs.Time.Bounds

/-!
# What the rules for a parent set

A rule is given the whole record of the parent. It reads and sets one attribute of it, its target:
what it sets is an outcome of that attribute and the child alone (`ParentUpdate.update?_eq`). A run
of rules gives each attribute what the rules with that target give it, one after the
other (`ParentUpdate.get?_updateAll`). A target is settled when a rule leaves it as it
is; the bounds and the list of children are after one application, and so get the same from
several equal rules as from one.
-/

namespace StreamCatalog

theorem Record.get?_set? (r : Record) (name other : String) (value : Option Attribute) :
    (r.set? name value).get? other =
      if name = other then value.or (r.get? other) else r.get? other := by
  cases value with
  | none => simp only [set?, Option.elim_none, Option.none_or, ite_self]
  | some value => rw [set?, Option.elim_some, get?_set, Option.some_or]

theorem Record.id_set? (r : Record) (name : String) (value : Option Attribute) :
    (r.set? name value).id = r.id := by
  cases value <;> rfl

theorem Record.kind_set? (r : Record) (name : String) (value : Option Attribute) :
    (r.set? name value).kind = r.kind := by
  cases value <;> rfl

namespace ParentUpdate

/-! ## What a rule reads and what it sets -/

/-- The attribute that a rule reads and sets. -/
def target : ParentUpdate → String
  | temporalStart => AttributeName.temporalStart
  | temporalEnd => AttributeName.temporalEnd
  | modifiedDate => AttributeName.modified
  | association => AttributeName.related
  | frameCenter => AttributeName.frameCenter
  | location _ _ => AttributeName.location

/-- Rules other than those for locations differ in their targets. -/
theorem eq_of_target_eq {u v : ParentUpdate} (hu : ∀ op t, u ≠ location op t)
    (h : v.target = u.target) : v = u := by
  cases u <;> cases v <;> first
    | rfl
    | exact absurd rfl (hu _ _)
    | exact absurd h (by simp only [target]; decide)

/-- The date in an attribute. -/
def dateOf : Option Attribute → Option Instant
  | some (.date t) => some t
  | _ => none

theorem dateOf_eq_some {current : Option Attribute} {t : Instant} (h : dateOf current = some t) :
    current = some (.date t) := by
  rcases current with _ | _ | _ | _ | t | _ | _ <;> cases h
  rfl

/-- The texts in an attribute. -/
def listOf : Option Attribute → Option (List String)
  | some (.list items) => some items
  | _ => none

/-- The geometry in an attribute. -/
def geometryOf : Option Attribute → Option Geometry
  | some (.geometry g) => some g
  | _ => none

/-- The earlier start: the child's, if the parent has none or a later one. -/
def earlierStart (current : Option Attribute) (start : Instant) : Option Attribute :=
  if (dateOf current).all (start < ·) then some (.date start) else none

/-- The later end: the child's, if the parent has none or an earlier one. -/
def laterEnd (current : Option Attribute) (finish : Instant) : Option Attribute :=
  if (dateOf current).all (· < finish) then some (.date finish) else none

/-- The list of children with one more, unless it is listed. -/
def listed (current : Option Attribute) (id : String) : Option Attribute :=
  if id ∈ (listOf current).getD [] then none
  else some (.list ((listOf current).getD [] ++ [id]))

variable [GeometryKernel]

/-- The location of the child joined to that of the parent, if the operator has a result. -/
def joinedLocation? (op : Operator) (t : Tolerances) (current : Option Attribute)
    (added : Geometry) : Option Geometry :=
  match geometryOf current with
  | some kept => op.result? t (kept.combine added)
  | none => some added

/-- The value that a rule sets, if it sets one, from the current one and the child; nothing
at all when the operator of a location has no result. -/
def outcome? (u : ParentUpdate) (current : Option Attribute) (child : Record) :
    Option (Option Attribute) :=
  match u with
  | temporalStart => some ((child.date? AttributeName.temporalStart).bind (earlierStart current))
  | temporalEnd => some ((child.date? AttributeName.temporalEnd).bind (laterEnd current))
  | modifiedDate => some ((child.date? AttributeName.temporalEnd).map .date)
  | association => some (listed current child.id)
  | frameCenter =>
    let center := (child.geometry? AttributeName.frameCenter).bind Geometry.point?
    some (center.map fun c => .geometry (extendTrack (geometryOf current) c))
  | location op t =>
    match child.geometry? AttributeName.location with
    | none => some none
    | some added => (joinedLocation? op t current added).map fun g => some (.geometry g)

private theorem update?_temporalStart (parent child : Record) :
    temporalStart.update? parent child =
      some (parent.set? AttributeName.temporalStart
        ((child.date? AttributeName.temporalStart).bind
          (earlierStart (parent.get? AttributeName.temporalStart)))) := by
  have hkept : parent.date? AttributeName.temporalStart =
      dateOf (parent.get? AttributeName.temporalStart) := rfl
  rw [update?, hkept]
  cases child.date? AttributeName.temporalStart with
  | none => rfl
  | some start =>
    simp only [Option.bind_some, earlierStart]
    split <;> rfl

private theorem update?_temporalEnd (parent child : Record) :
    temporalEnd.update? parent child =
      some (parent.set? AttributeName.temporalEnd
        ((child.date? AttributeName.temporalEnd).bind
          (laterEnd (parent.get? AttributeName.temporalEnd)))) := by
  have hkept : parent.date? AttributeName.temporalEnd =
      dateOf (parent.get? AttributeName.temporalEnd) := rfl
  rw [update?, hkept]
  cases child.date? AttributeName.temporalEnd with
  | none => rfl
  | some finish =>
    simp only [Option.bind_some, laterEnd]
    split <;> rfl

private theorem update?_modifiedDate (parent child : Record) :
    modifiedDate.update? parent child =
      some (parent.set? AttributeName.modified
        ((child.date? AttributeName.temporalEnd).map .date)) := by
  rw [update?]
  cases child.date? AttributeName.temporalEnd <;> rfl

private theorem update?_association (parent child : Record) :
    association.update? parent child =
      some (parent.set? AttributeName.related
        (listed (parent.get? AttributeName.related) child.id)) := by
  have hkept : parent.list? AttributeName.related =
      listOf (parent.get? AttributeName.related) := rfl
  simp only [update?, hkept, List.contains_iff_mem, listed]
  split <;> rfl

private theorem update?_frameCenter (parent child : Record) :
    frameCenter.update? parent child =
      some (parent.set? AttributeName.frameCenter
        (((child.geometry? AttributeName.frameCenter).bind Geometry.point?).map fun c =>
          .geometry (extendTrack (geometryOf (parent.get? AttributeName.frameCenter)) c))) := by
  rw [update?]
  rcases child.geometry? AttributeName.frameCenter with _ | g
  · rfl
  · cases g <;> rfl

private theorem update?_location (op : Operator) (t : Tolerances) (parent child : Record) :
    (location op t).update? parent child =
      ((location op t).outcome? (parent.get? AttributeName.location) child).map
        (parent.set? AttributeName.location) := by
  have hkept : parent.geometry? AttributeName.location =
      geometryOf (parent.get? AttributeName.location) := rfl
  rw [update?, outcome?, hkept]
  cases child.geometry? AttributeName.location with
  | none => rfl
  | some added =>
    rw [Option.map_map]
    rfl

/-- What a rule makes of a parent is determined by its target and the child, and differs from the
parent in its target only. -/
theorem update?_eq (u : ParentUpdate) (parent child : Record) :
    u.update? parent child =
      (u.outcome? (parent.get? u.target) child).map (parent.set? u.target) := by
  cases u with
  | temporalStart => exact update?_temporalStart parent child
  | temporalEnd => exact update?_temporalEnd parent child
  | modifiedDate => exact update?_modifiedDate parent child
  | association => exact update?_association parent child
  | frameCenter => exact update?_frameCenter parent child
  | location op t => exact update?_location op t parent child

/-- Only the rule for a location may have no result. -/
theorem exists_update? {u : ParentUpdate} (hu : ∀ op t, u ≠ location op t) (parent child : Record) :
    ∃ after, u.update? parent child = some after := by
  rw [update?_eq]
  cases u with
  | location op t => exact absurd rfl (hu op t)
  | _ => exact ⟨_, rfl⟩

/-! ## Rules one after the other -/

/-- The target of a rule after it. -/
def applied (u : ParentUpdate) (current : Option Attribute) (child : Record) : Option Attribute :=
  ((u.outcome? current child).join).or current

/-- A rule changes its target only, by what it was and by the child. -/
theorem get?_update (u : ParentUpdate) (parent child : Record) (name : String) :
    (u.update parent child).get? name =
      if u.target = name then u.applied (parent.get? name) child else parent.get? name := by
  rw [update, update?_eq]
  cases houtcome : u.outcome? (parent.get? u.target) child with
  | none =>
    rw [Option.map_none, Option.getD_none]
    split
    next htarget =>
      subst htarget
      rw [applied, houtcome]
      rfl
    next => rfl
  | some value =>
    rw [Option.map_some, Option.getD_some, Record.get?_set?]
    split
    next htarget =>
      subst htarget
      rw [applied, houtcome]
      rfl
    next => rfl

theorem updateAll_cons (u : ParentUpdate) (us : List ParentUpdate) (parent child : Record) :
    updateAll (u :: us) parent child = updateAll us (u.update parent child) child := rfl

/-- Rules give each attribute what the rules with that target give it. -/
theorem get?_updateAll (us : List ParentUpdate) (parent child : Record) (name : String) :
    (updateAll us parent child).get? name =
      (us.filter (·.target = name)).foldl (fun current u => u.applied current child)
        (parent.get? name) := by
  induction us generalizing parent with
  | nil => rfl
  | cons u us ih =>
    rw [updateAll_cons, ih, get?_update, List.filter_cons]
    by_cases htarget : u.target = name
    · simp only [htarget, if_true, decide_true, List.foldl_cons]
    · simp only [htarget, if_false, decide_false, Bool.false_eq_true]

section

variable {u : ParentUpdate} {us : List ParentUpdate} {parent child after : Record}

theorem update_eq_of_update? (h : u.update? parent child = some after) :
    u.update parent child = after := by
  rw [update, h, Option.getD_some]

theorem updateAll?_cons (u : ParentUpdate) (us : List ParentUpdate) (parent child : Record) :
    updateAll? (u :: us) parent child = (u.update? parent child).bind (updateAll? us · child) := rfl

theorem updateAll?_append (us vs : List ParentUpdate) (parent child : Record) :
    updateAll? (us ++ vs) parent child =
      (updateAll? us parent child).bind (updateAll? vs · child) :=
  List.foldlM_append

theorem updateAll_eq_of_updateAll? (h : updateAll? us parent child = some after) :
    updateAll us parent child = after := by
  induction us generalizing parent with
  | nil =>
    cases h
    rfl
  | cons u us ih =>
    rw [updateAll?_cons] at h
    obtain ⟨between, hbetween, h⟩ := Option.bind_eq_some_iff.1 h
    rw [updateAll_cons, update_eq_of_update? hbetween, ih h]

/-- Rules that always have a result have one together. -/
theorem exists_updateAll? (hus : ∀ u ∈ us, ∀ op t, u ≠ location op t) (parent child : Record) :
    ∃ after, updateAll? us parent child = some after := by
  induction us generalizing parent with
  | nil => exact ⟨parent, rfl⟩
  | cons u us ih =>
    rw [List.forall_mem_cons] at hus
    obtain ⟨between, hbetween⟩ := exists_update? hus.1 parent child
    rw [updateAll?_cons, hbetween]
    exact ih hus.2 between

theorem id_update (u : ParentUpdate) (parent child : Record) :
    (u.update parent child).id = parent.id := by
  rw [update, update?_eq]
  cases u.outcome? (parent.get? u.target) child with
  | none => rfl
  | some value => exact Record.id_set? parent u.target value

theorem kind_update (u : ParentUpdate) (parent child : Record) :
    (u.update parent child).kind = parent.kind := by
  rw [update, update?_eq]
  cases u.outcome? (parent.get? u.target) child with
  | none => rfl
  | some value => exact Record.kind_set? parent u.target value

theorem id_updateAll (us : List ParentUpdate) (parent child : Record) :
    (updateAll us parent child).id = parent.id := by
  induction us generalizing parent with
  | nil => rfl
  | cons u us ih => exact (ih _).trans (id_update u parent child)

theorem kind_updateAll (us : List ParentUpdate) (parent child : Record) :
    (updateAll us parent child).kind = parent.kind := by
  induction us generalizing parent with
  | nil => rfl
  | cons u us ih => exact (ih _).trans (kind_update u parent child)

theorem get?_updateAll_of_notMem {name : String} (hname : name ∉ us.map target)
    (parent child : Record) : (updateAll us parent child).get? name = parent.get? name := by
  have hnone : us.filter (·.target = name) = [] :=
    List.filter_eq_nil_iff.2 fun u hu h => hname (List.mem_map.2 ⟨u, hu, of_decide_eq_true h⟩)
  rw [get?_updateAll, hnone]
  rfl

/-- A rule whose target no other rule has gives it its value. -/
theorem get?_updateAll_of_nodup (hus : (us.map target).Nodup) (hu : u ∈ us)
    (parent child : Record) :
    (updateAll us parent child).get? u.target = u.applied (parent.get? u.target) child := by
  induction us generalizing parent with
  | nil => exact absurd hu List.not_mem_nil
  | cons v us ih =>
    rw [List.map_cons, List.nodup_cons] at hus
    rw [updateAll_cons]
    rcases List.mem_cons.1 hu with rfl | hu
    · rw [get?_updateAll_of_notMem hus.1, get?_update, if_pos rfl]
    · have hother : v.target ≠ u.target := fun h => hus.1 (h ▸ List.mem_map_of_mem hu)
      rw [ih hus.2 hu, get?_update, if_neg hother]

end

/-- A rule that changes nothing more is as good as none. -/
private theorem foldl_replicate_applied {u : ParentUpdate} {current : Option Attribute}
    {child : Record} (hagain : u.applied current child = current) (n : Nat) :
    (List.replicate n u).foldl (fun current u => u.applied current child) current = current := by
  induction n with
  | zero => rfl
  | succ n ih => rw [List.replicate_succ, List.foldl_cons, hagain, ih]

/-- Where all rules for the target of a rule are that rule, and it changes nothing when it is
applied again, it is as if it were the only one. -/
theorem get?_updateAll_of_mem {us : List ParentUpdate} {u : ParentUpdate} (hmem : u ∈ us)
    (hunique : ∀ v : ParentUpdate, v.target = u.target → v = u) {parent child : Record}
    (hagain : u.applied (u.applied (parent.get? u.target) child) child =
      u.applied (parent.get? u.target) child) :
    (updateAll us parent child).get? u.target = u.applied (parent.get? u.target) child := by
  have hall : ∀ v ∈ us.filter (·.target = u.target), v = u := by
    intro v hv
    exact hunique v (of_decide_eq_true (List.mem_filter.1 hv).2)
  have hpos : 0 < (us.filter (·.target = u.target)).length :=
    List.length_pos_of_mem (List.mem_filter.2 ⟨hmem, decide_eq_true rfl⟩)
  obtain ⟨n, hn⟩ := Nat.exists_eq_succ_of_ne_zero hpos.ne'
  rw [get?_updateAll, List.eq_replicate_of_mem hall, hn, List.replicate_succ, List.foldl_cons,
    foldl_replicate_applied hagain]

/-! ## Bounds and children -/

theorem applied_temporalStart (current : Option Attribute) {child : Record} {t : Instant}
    (ht : child.date? AttributeName.temporalStart = some t) :
    temporalStart.applied current child = some (.date ((dateOf current).elim t (min t))) := by
  rw [applied, outcome?, ht, Option.join_some, Option.bind_some, earlierStart]
  cases hdate : dateOf current with
  | none => rfl
  | some kept =>
    simp only [Option.all_some, decide_eq_true_eq, Option.elim_some, min_def_lt]
    split
    next => rfl
    next => exact dateOf_eq_some hdate

theorem applied_temporalEnd (current : Option Attribute) {child : Record} {t : Instant}
    (ht : child.date? AttributeName.temporalEnd = some t) :
    temporalEnd.applied current child = some (.date ((dateOf current).elim t (max t))) := by
  rw [applied, outcome?, ht, Option.join_some, Option.bind_some, laterEnd]
  cases hdate : dateOf current with
  | none => rfl
  | some kept =>
    simp only [Option.all_some, decide_eq_true_eq, Option.elim_some, max_comm t, max_def_lt]
    split
    next => rfl
    next => exact dateOf_eq_some hdate

theorem applied_association (current : Option Attribute) (child : Record) :
    association.applied current child =
      if child.id ∈ (listOf current).getD [] then current
      else some (.list ((listOf current).getD [] ++ [child.id])) := by
  rw [applied, outcome?, Option.join_some, listed]
  split <;> rfl

/-! ## Settled targets -/

/-- Whether a rule with this child leaves its target as it is. -/
def Settled (u : ParentUpdate) (current : Option Attribute) (child : Record) : Prop :=
  ∃ value, u.outcome? current child = some value ∧ ∀ v, value = some v → current = some v

theorem Settled.applied_eq {u : ParentUpdate} {current : Option Attribute} {child : Record}
    (h : u.Settled current child) : u.applied current child = current := by
  obtain ⟨value, houtcome, hsame⟩ := h
  rw [applied, houtcome, Option.join_some]
  cases value with
  | none => rw [Option.none_or]
  | some v => rw [Option.some_or, hsame v rfl]

theorem settled_temporalStart (current : Option Attribute) (child : Record) :
    temporalStart.Settled (temporalStart.applied current child) child := by
  cases hstart : child.date? AttributeName.temporalStart with
  | none => exact ⟨none, by rw [outcome?, hstart]; rfl, nofun⟩
  | some start =>
    refine ⟨none, ?_, nofun⟩
    have hle : ¬start < (dateOf current).elim start (min start) := by
      cases dateOf current with
      | none => exact lt_irrefl start
      | some kept => exact not_lt.2 (min_le_left start kept)
    rw [applied_temporalStart current hstart, outcome?, hstart, Option.bind_some, earlierStart]
    exact congrArg some (if_neg (mt of_decide_eq_true hle))

theorem settled_temporalEnd (current : Option Attribute) (child : Record) :
    temporalEnd.Settled (temporalEnd.applied current child) child := by
  cases hfinish : child.date? AttributeName.temporalEnd with
  | none => exact ⟨none, by rw [outcome?, hfinish]; rfl, nofun⟩
  | some finish =>
    refine ⟨none, ?_, nofun⟩
    have hle : ¬(dateOf current).elim finish (max finish) < finish := by
      cases dateOf current with
      | none => exact lt_irrefl finish
      | some kept => exact not_lt.2 (le_max_left finish kept)
    rw [applied_temporalEnd current hfinish, outcome?, hfinish, Option.bind_some, laterEnd]
    exact congrArg some (if_neg (mt of_decide_eq_true hle))

theorem settled_modifiedDate (current : Option Attribute) (child : Record) :
    modifiedDate.Settled (modifiedDate.applied current child) child := by
  refine ⟨_, rfl, fun v hv => ?_⟩
  rw [applied, outcome?, Option.join_some, hv, Option.some_or]

theorem settled_association (current : Option Attribute) (child : Record) :
    association.Settled (association.applied current child) child := by
  refine ⟨none, ?_, nofun⟩
  rw [applied_association, outcome?, listed]
  by_cases hlisted : child.id ∈ (listOf current).getD []
  · rw [if_pos hlisted, if_pos hlisted]
  · rw [if_neg hlisted]
    exact congrArg some (if_pos (by simp [listOf]))

/-! ## What several rules set -/

variable {us : List ParentUpdate} {parent child : Record}

/-- The start of the parent becomes the earlier one of its own and that of the child. -/
theorem get?_temporalStart_updateAll (hmem : temporalStart ∈ us) {t : Instant}
    (ht : child.date? AttributeName.temporalStart = some t) :
    (updateAll us parent child).get? AttributeName.temporalStart =
      some (.date ((parent.date? AttributeName.temporalStart).elim t (min t))) := by
  have hunique : ∀ v : ParentUpdate, v.target = temporalStart.target → v = temporalStart :=
    fun _ => eq_of_target_eq nofun
  refine (get?_updateAll_of_mem hmem hunique ?_).trans (applied_temporalStart _ ht)
  exact (settled_temporalStart _ child).applied_eq

/-- The end of the parent becomes the later one of its own and that of the child. -/
theorem get?_temporalEnd_updateAll (hmem : temporalEnd ∈ us) {t : Instant}
    (ht : child.date? AttributeName.temporalEnd = some t) :
    (updateAll us parent child).get? AttributeName.temporalEnd =
      some (.date ((parent.date? AttributeName.temporalEnd).elim t (max t))) := by
  have hunique : ∀ v : ParentUpdate, v.target = temporalEnd.target → v = temporalEnd :=
    fun _ => eq_of_target_eq nofun
  refine (get?_updateAll_of_mem hmem hunique ?_).trans (applied_temporalEnd _ ht)
  exact (settled_temporalEnd _ child).applied_eq

/-- A child that is not listed is listed last. -/
theorem get?_related_updateAll (hmem : association ∈ us)
    (hnew : child.id ∉ (parent.list? AttributeName.related).getD []) :
    (updateAll us parent child).get? AttributeName.related =
      some (.list ((parent.list? AttributeName.related).getD [] ++ [child.id])) := by
  have hunique : ∀ v : ParentUpdate, v.target = association.target → v = association :=
    fun _ => eq_of_target_eq nofun
  have hfirst : association.applied (parent.get? AttributeName.related) child =
      some (.list ((parent.list? AttributeName.related).getD [] ++ [child.id])) := by
    rw [applied_association]
    exact if_neg hnew
  refine (get?_updateAll_of_mem hmem hunique ?_).trans hfirst
  exact (settled_association _ child).applied_eq

end ParentUpdate

end StreamCatalog
