import StreamCatalog.Proofs.Commit.Interleaving
import StreamCatalog.Proofs.Geometry.Validity

/-!
# Stored locations are valid

A child gets the location of its samples, and a parent that of its first child,
to which those of the others are joined one after the other. Commits in any order
of their steps, with any rules, settings and tolerances, keep the locations valid
(`CommitPool.locations_valid`): those asked for, those stored, that of the cached
parent, and what the rules make of it.
-/

namespace StreamCatalog

/-- Whether the location of a record, if it has one, is valid. -/
def Record.HasValidLocation (r : Record) : Prop :=
  ∀ g, r.get? AttributeName.location = some (.geometry g) → g.isValid = true

namespace Record.HasValidLocation

variable {r after before : Record}

theorem of_eq_none (h : r.get? AttributeName.location = none) : r.HasValidLocation := by
  intro g hg
  cases h.symm.trans hg

theorem of_eq (h : before.HasValidLocation)
    (heq : after.get? AttributeName.location = before.get? AttributeName.location) :
    after.HasValidLocation := by
  rwa [Record.HasValidLocation, heq]

/-- The location is the earlier one or that of the change. -/
theorem overlaid (hr : r.HasValidLocation) (hafter : after.HasValidLocation) :
    (r.overlaid (after.changedSince before)).HasValidLocation := by
  intro g hg
  rw [Record.get?_overlaid, Record.getElem?_changedSince] at hg
  rcases Option.or_eq_some_iff.1 hg with hg | ⟨-, hg⟩
  · exact hafter g (Option.filter_eq_some_iff.1 hg).1
  · exact hr g hg

/-- A link is no location. -/
theorem overlaid_linkTo (hr : r.HasValidLocation) (parentId : String) :
    (r.overlaid (linkTo parentId)).HasValidLocation := by
  refine hr.of_eq ?_
  rw [Record.get?_overlaid, linkTo, Std.ExtTreeMap.getElem?_ofList_of_contains_eq_false rfl,
    Option.none_or]

end Record.HasValidLocation

/-- The record of a chunk has a valid location, whatever its samples say. -/
theorem Chunk.hasValidLocation_record [GeometryKernel] (chunk : Chunk) (settings : CommitSettings)
    (parentId : String) (now : Instant) :
    (chunk.record settings parentId now).HasValidLocation := by
  have hlocation : (chunk.record settings parentId now).get? AttributeName.location =
      ((Telemetry.summarize .location settings.tolerances chunk.samples).location.map
        .geometry).or none := by
    simp only [record, Record.get?_set?, Record.get?_set]
    rfl
  intro g hg
  rw [hlocation, Option.or_none] at hg
  obtain ⟨_, hsummary, heq⟩ := Option.map_eq_some_iff.1 hg
  cases heq
  exact Telemetry.isValid_location hsummary

/-- The record of a stream has no location. -/
theorem CommitSettings.hasValidLocation_parentRecord (settings : CommitSettings) (now : Instant)
    (id : String) : Record.HasValidLocation { settings.parentRecord now with id := id } := by
  refine .of_eq_none ?_
  change (settings.parentRecord now).get? AttributeName.location = none
  simp only [parentRecord, Record.get?_set]
  rfl

namespace ParentUpdate

variable {parent child : Record}

theorem geometryOf_eq_some_iff {current : Option Attribute} {g : Geometry} :
    geometryOf current = some g ↔ current = some (.geometry g) := by
  rcases current with _ | _ | _ | _ | _ | _ | _ <;> simp [geometryOf]

variable [GeometryKernel]

/-- A joined location is valid: the child's own, or what an operator makes of both. -/
private theorem isValid_joinedLocation {op : Operator} {t : Tolerances} {added g : Geometry}
    (hparent : parent.HasValidLocation) (hadded : added.isValid = true)
    (h : joinedLocation? op t (parent.get? AttributeName.location) added = some g) :
    g.isValid = true := by
  rw [joinedLocation?] at h
  split at h
  next kept hkept =>
    have hvalid := hparent kept (geometryOf_eq_some_iff.1 hkept)
    exact Operator.isValid_of_result? (Geometry.isValid_combine hvalid hadded) h
  next =>
    cases h
    exact hadded

/-- What a rule for locations sets is valid. -/
private theorem isValid_applied_location {op : Operator} {t : Tolerances} {g : Geometry}
    (hparent : parent.HasValidLocation) (hchild : child.HasValidLocation)
    (h : (location op t).applied (parent.get? AttributeName.location) child =
      some (.geometry g)) : g.isValid = true := by
  have hgeometry : child.geometry? AttributeName.location =
      geometryOf (child.get? AttributeName.location) := rfl
  rw [applied, outcome?, hgeometry] at h
  rcases Option.or_eq_some_iff.1 h with h | ⟨-, h⟩
  · cases hadded : geometryOf (child.get? AttributeName.location) with
    | none =>
      rw [hadded] at h
      cases h
    | some added =>
      rw [hadded] at h
      obtain ⟨_, hjoined, heq⟩ := Option.map_eq_some_iff.1 (Option.join_eq_some_iff.1 h)
      cases heq
      exact isValid_joinedLocation hparent (hchild added (geometryOf_eq_some_iff.1 hadded)) hjoined
  · exact hparent g h

/-- A rule keeps the location of the parent valid. -/
theorem hasValidLocation_update (u : ParentUpdate) (hparent : parent.HasValidLocation)
    (hchild : child.HasValidLocation) : (u.update parent child).HasValidLocation := by
  intro g hg
  rw [get?_update] at hg
  split at hg
  next htarget =>
    cases u with
    | location op t => exact isValid_applied_location hparent hchild hg
    | _ => exact absurd htarget (by decide)
  next => exact hparent g hg

/-- So do several rules. -/
theorem hasValidLocation_updateAll (us : List ParentUpdate) (hparent : parent.HasValidLocation)
    (hchild : child.HasValidLocation) : (updateAll us parent child).HasValidLocation := by
  induction us generalizing parent with
  | nil => exact hparent
  | cons u us ih => exact ih (u.hasValidLocation_update hparent hchild)

end ParentUpdate

/-! ## The child that a step creates -/

/-- The record of the child, at stages that know it. -/
def CommitStage.record? : CommitStage → Option Record
  | .created _ child | .linked child | .finished (.ok child) => some child
  | .start | .resolved _ | .finished (.error _) => none

/-- A child is created with a valid location. -/
theorem Catalog.Keeper.hasValidLocation_of_created [GeometryKernel] {σ : Type} {C : Catalog σ}
    {K : C.Keeper} (task : CommitTask) {s : CommitState σ} (hs : K.Sound s.catalog) {stage : CommitStage}
    {parentId : String} {child : Record} (h : (task.step C stage s).1 = .created parentId child) :
    child.HasValidLocation := by
  have hmove := (step_spec task hs stage).2
  cases stage with
  | resolved id =>
    let request : ContentRequest :=
      ⟨task.chunk.record task.action.settings id task.now, task.source, chunkMimeType⟩
    have hstored : Stored (K.records s.catalog) (KeepsContent request.record)
        (C.createContent request s.catalog).1 (K.records (C.createContent request s.catalog).2) :=
      (K.createContent_spec hs (Chunk.id_record _ _ _ _)).2
    rw [CommitTask.step, CommitTask.createChild] at h
    rcases hcall : C.createContent request s.catalog with ⟨e | c, after⟩
    · simp only [request, hcall, Except.mapError] at h
      cases h
    · simp only [request, hcall, Except.mapError] at h
      cases h
      obtain ⟨-, hkeeps, -⟩ := hstored.eq_of_ok (r := child) (by rw [hcall])
      have hrecord := task.chunk.hasValidLocation_record task.action.settings parentId task.now
      exact hrecord.of_eq (hkeeps.get?_eq _ (by decide) (by decide) (by decide))
  | start | created _ _ | linked _ | finished _ =>
    rw [h] at hmove
    generalize K.view s = v, K.view (task.step C _ s).2 = w at hmove
    cases hmove

/-! ## Commits that share a parent -/

/-- What commits keep true of the locations of new records. A record is new when there was none
of its identifier before the commits. -/
structure Located {ι : Type} (before : Records) (stage : ι → CommitStage) (v : CommitView) :
    Prop where
  /-- Identifiers stay in use. -/
  kept : ∀ id : String, v.records[id]? = none → before[id]? = none
  /-- The cached parent is new and has a valid location. -/
  parent_spec : ∀ p, v.parent = some p → before[p.id]? = none ∧ p.HasValidLocation
  /-- So is the child of each commit. -/
  child_spec : ∀ i c, (stage i).record? = some c → before[c.id]? = none ∧ c.HasValidLocation
  /-- New records have their identifiers, and valid locations. -/
  new_spec : ∀ (id : String) r, v.records[id]? = some r → before[id]? = none →
    r.id = id ∧ r.HasValidLocation

namespace Located

variable {ι : Type} {before : Records} {stage : ι → CommitStage} {v : CommitView} {r : Record}

/-- Before the first commit there are no new records. -/
theorem initial (before : Records) : Located before (fun _ : ι => .start) ⟨none, before⟩ where
  kept _ h := h
  parent_spec _ h := by cases h
  child_spec _ _ h := by cases h
  new_spec _ _ hr hnew := by cases hr.symm.trans hnew

/-- A new record with a valid location is stored. -/
theorem insert (h : Located before stage v) (hnew : before[r.id]? = none)
    (hr : r.HasValidLocation) : Located before stage ⟨v.parent, v.records.insert r.id r⟩ where
  kept id hid := by
    by_cases heq : r.id = id
    · exact heq ▸ hnew
    · rw [Records.getElem?_insert_of_ne heq] at hid
      exact h.kept id hid
  parent_spec := h.parent_spec
  child_spec := h.child_spec
  new_spec id r' hr' hid := by
    by_cases heq : r.id = id
    · subst heq
      rw [Std.ExtTreeMap.getElem?_insert_self] at hr'
      cases hr'
      exact ⟨rfl, hr⟩
    · rw [Records.getElem?_insert_of_ne heq] at hr'
      exact h.new_spec id r' hr' hid

/-- A new record with a valid location is cached as the parent. -/
theorem cache (h : Located before stage v) (hnew : before[r.id]? = none)
    (hr : r.HasValidLocation) : Located before stage ⟨some r, v.records⟩ where
  kept := h.kept
  parent_spec p hp := by
    cases hp
    exact ⟨hnew, hr⟩
  child_spec := h.child_spec
  new_spec := h.new_spec

variable [DecidableEq ι]

/-- A commit gets to another stage. -/
theorem update (h : Located before stage v) (i : ι) {st : CommitStage}
    (hst : ∀ c, st.record? = some c → before[c.id]? = none ∧ c.HasValidLocation) :
    Located before (Function.update stage i st) v where
  kept := h.kept
  parent_spec := h.parent_spec
  child_spec j := by
    by_cases hji : j = i
    · rw [hji, Function.update_self]
      exact hst
    · rw [Function.update_of_ne hji]
      exact h.child_spec j
  new_spec := h.new_spec

/-- Every move of a commit keeps locations valid, when the child that it may create has a valid
one. -/
theorem move [GeometryKernel] (h : Located before stage v) {task : CommitTask} {i : ι}
    {st : CommitStage} {w : CommitView} (hmove : CommitMove task (stage i) v st w)
    (hcreated : ∀ parentId c, st = .created parentId c → c.HasValidLocation) :
    Located before (Function.update stage i st) w := by
  have hchild := h.child_spec i
  have hsame : ∀ c, st.record? = (stage i).record? → st.record? = some c →
      before[c.id]? = none ∧ c.HasValidLocation := fun c heq hc => hchild c (heq ▸ hc)
  generalize stage i = begun at hmove hchild hsame
  cases hmove with
  | parentRefused | childRefused | linkRefused | parentMissing | updateRefused | parentKnown =>
    exact h.update i nofun
  | childLinked | parentUnchanged | ended => exact h.update i fun c => hsame c rfl
  | parentCreated p rs fresh asked =>
    have hnew := h.kept p.id fresh
    have hp : p.HasValidLocation := asked ▸ CommitSettings.hasValidLocation_parentRecord _ _ _
    exact ((h.insert hnew hp).cache hnew hp).update i nofun
  | childCreated parentId parent rs c fresh =>
    have hnew := h.kept c.id fresh
    have hc := hcreated parentId c rfl
    refine (h.insert hnew hc).update i fun c' hc' => ?_
    cases hc'
    exact ⟨hnew, hc⟩
  | childRelinked parentId c parent rs r found =>
    obtain ⟨hnew, -⟩ := hchild c rfl
    obtain ⟨hid, hr⟩ := h.new_spec c.id r found hnew
    have hlinked := hr.overlaid_linkTo parentId
    rw [← hid] at hnew ⊢
    refine (h.insert (r := r.overlaid (linkTo parentId)) hnew hlinked).update i fun c' hc' => ?_
    cases hc'
    exact ⟨hnew, hlinked⟩
  | parentUpdated c p rs r stored found updated =>
    obtain ⟨hnew, hp⟩ := h.parent_spec p rfl
    obtain ⟨hid, hr⟩ := h.new_spec p.id r found hnew
    have hstored : stored.HasValidLocation :=
      updated ▸ hr.overlaid (ParentUpdate.hasValidLocation_updateAll _ hp (hchild c rfl).2)
    have hsame : stored.id = p.id := by rw [updated, ← hid]; rfl
    rw [← hsame] at hnew ⊢
    exact ((h.insert hnew hstored).cache hnew hstored).update i fun c' hc' => hchild c' hc'

end Located

namespace CommitPool

variable {ι σ : Type} [DecidableEq ι] {C : Catalog σ} {K : C.Keeper} {tasks : ι → CommitTask}
  {pool : CommitPool ι σ} {catalog : σ}

/-- Steps in any order keep locations valid and the catalog sound. -/
theorem Reaches.located [GeometryKernel] (hsound : K.Sound catalog)
    (h : Reaches K tasks (initial ι catalog) pool) :
    K.Sound pool.shared.catalog ∧
      Located (K.records catalog) pool.stage (K.view pool.shared) := by
  induction h with
  | refl => exact ⟨hsound, .initial _⟩
  | tail _ hstep ih =>
    obtain ⟨hsound, hlocated⟩ := ih
    cases hstep with
    | advance i =>
      obtain ⟨hafter, hmove⟩ := Catalog.Keeper.step_spec (tasks i) hsound (CommitPool.stage _ i)
      exact ⟨hafter, hlocated.move hmove fun _ _ =>
        Catalog.Keeper.hasValidLocation_of_created (tasks i) hsound⟩
    | elsewhere catalog' sound same =>
      refine ⟨sound, ?_⟩
      rw [Catalog.Keeper.view, same]
      exact hlocated

/-- Whether the locations that commits make and store are valid. -/
structure LocationsValid [GeometryKernel] (K : C.Keeper) (tasks : ι → CommitTask) (before : Records)
    (pool : CommitPool ι σ) : Prop where
  /-- Those of the records that the commits ask for. -/
  requested : ∀ i parentId,
    ((tasks i).chunk.record (tasks i).action.settings parentId (tasks i).now).HasValidLocation
  /-- Those of the children that the catalog has answered with. -/
  created : ∀ i c, (pool.stage i).record? = some c → c.HasValidLocation
  /-- That of the cached parent. -/
  cached : ∀ p, pool.shared.parent = some p → p.HasValidLocation
  /-- What the rules make of the parent for the child of any commit, accepted or not. -/
  updated : ∀ i p c, pool.shared.parent = some p → (pool.stage i).record? = some c →
    (ParentUpdate.updateAll (tasks i).action.updates p c).HasValidLocation
  /-- Those of all new records in the catalog. -/
  stored : ∀ (id : String) r, (K.records pool.shared.catalog)[id]? = some r →
    before[id]? = none → r.HasValidLocation

/-- Every location that commits make and store is valid, in whatever order their steps come,
whatever the samples say, whatever the catalog refuses and whatever the geometry kernel answers. -/
theorem locations_valid [GeometryKernel] (hsound : K.Sound catalog)
    (hreaches : Reaches K tasks (initial ι catalog) pool) :
    LocationsValid K tasks (K.records catalog) pool := by
  obtain ⟨-, h⟩ := hreaches.located hsound
  constructor
  case requested => exact fun i parentId => Chunk.hasValidLocation_record _ _ _ _
  case created => exact fun i c hc => (h.child_spec i c hc).2
  case cached => exact fun p hp => (h.parent_spec p hp).2
  case updated =>
    intro i p c hp hc
    exact ParentUpdate.hasValidLocation_updateAll _ (h.parent_spec p hp).2 (h.child_spec i c hc).2
  case stored => exact fun id r hr hnew => (h.new_spec id r hr hnew).2

/-- A commit of a chunk of one sample, with its image corners or only its image centre. -/
private def locatedTask (hasCorners : Bool) : CommitTask where
  action := .standard (.standard "Stream" "udp://127.0.0.1:50000")
  chunk := {
    sequence := 1
    startedAt := ⟨10, 0⟩
    endedAt := ⟨20, 0⟩
    byteLength := 1
    samples := [{ Telemetry.Sample.ofItems [] with
      frameCenter := some ⟨40.5, 30.5⟩
      corners := if hasCorners then some ⟨⟨40, 30⟩, ⟨40, 31⟩, ⟨41, 31⟩, ⟨41, 30⟩⟩ else none }] }
  source := ⟨"chunk.ts", some [0x47]⟩
  now := ⟨30, 0⟩

/-- A polygon and a point as the locations of two commits that create their children before either
updates the parent, on a catalog that is at first busy. -/
theorem locations_valid_interleaved :
    let busy : MemoryCatalog := { MemoryCatalog.empty with updateFailures := [.unavailable "busy"] }
    LocationsValid MemoryCatalog.keeper locatedTask ∅
      ((initial Bool busy).advanceAll MemoryCatalog.catalog locatedTask
        [false, true, false, true, true, false, true, false]) :=
  have hsound : MemoryCatalog.IsSound
      { MemoryCatalog.empty with updateFailures := [.unavailable "busy"] } :=
    ⟨fun _ _ _ => Std.ExtTreeMap.getElem?_empty, nofun⟩
  locations_valid (K := MemoryCatalog.keeper) hsound (reaches_advanceAll _ _ _ _)

end CommitPool

end StreamCatalog
