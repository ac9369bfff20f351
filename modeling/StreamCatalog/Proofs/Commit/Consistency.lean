import Mathlib.Data.List.Nodup
import Mathlib.Logic.Function.Basic
import StreamCatalog.Proofs.Commit.Moves

/-!
# Commits that share a parent are consistent

`Consistent` relates the cached parent, the records of the catalog, and how far
each commit has come. Every move of every commit preserves it
(`Consistent.move`).
-/

namespace StreamCatalog

/-- Whether an action lists the children of a stream and keeps its bounds. -/
structure CommitAction.IsComplete (action : CommitAction) : Prop where
  /-- Children are listed. -/
  association_mem : .association ∈ action.updates
  /-- The earliest start is kept. -/
  temporalStart_mem : .temporalStart ∈ action.updates
  /-- The latest end is kept. -/
  temporalEnd_mem : .temporalEnd ∈ action.updates

theorem CommitAction.standard_isComplete (settings : CommitSettings) :
    (CommitAction.standard settings).IsComplete where
  association_mem := by simp [standard, ParentUpdate.standard]
  temporalStart_mem := by simp [standard, ParentUpdate.standard]
  temporalEnd_mem := by simp [standard, ParentUpdate.standard]

namespace CommitStage

/-- The identifier of the child, at stages that know it. -/
def childId? : CommitStage → Option String
  | .created _ child | .linked child | .finished (.ok child) => some child.id
  | .start | .resolved _ | .finished (.error _) => none

/-- The child of a commit that has succeeded. -/
def result? : CommitStage → Option Record
  | .finished (.ok child) => some child
  | _ => none

/-- Whether a commit has begun and not ended. -/
def isRunning : CommitStage → Bool
  | .start | .finished _ => false
  | .resolved _ | .created _ _ | .linked _ => true

theorem eq_finished_of_result? {stage : CommitStage} {c : Record} (h : stage.result? = some c) :
    stage = .finished (.ok c) := by
  rcases stage with _ | _ | _ | _ | _ | r <;> cases h
  rfl

end CommitStage

namespace CommitView

/-- The identifier of the cached parent. -/
def parentId? (v : CommitView) : Option String := v.parent.map (·.id)

end CommitView

/-- How a stage of a commit fits to the child that the commit created, and to parent and
records. -/
def CommitStage.Fits (child : Option String) (v : CommitView) : CommitStage → Prop
  | .start => child = none
  | .resolved parentId => child = none ∧ v.parentId? = some parentId
  | .created parentId r => child = some r.id ∧ v.parentId? = some parentId ∧
      v.records[r.id]? = some r ∧ (r.list? AttributeName.derived = some [parentId] ∨
        r.list? AttributeName.derived = none)
  | .linked r | .finished (.ok r) => child = some r.id ∧ v.records[r.id]? = some r ∧
      ∃ parentId, v.parentId? = some parentId ∧ r.list? AttributeName.derived = some [parentId]
  | .finished (.error e) => e ≠ .parentMissing ∧ ∀ id, child = some id →
      ∃ r parentId, v.records[id]? = some r ∧ v.parentId? = some parentId ∧
        (r.list? AttributeName.derived = none ∨
          r.list? AttributeName.derived = some [parentId] ∧
            ∃ f, e = .ofRetry .parentUpdate f)

/-- What is said of other commits stays true when the parent keeps its identifier and their child
its record. -/
theorem CommitStage.Fits.of_eq {child : Option String} {v w : CommitView} {stage : CommitStage}
    (h : stage.Fits child v)
    (hparent : ∀ parentId, v.parentId? = some parentId → w.parentId? = some parentId)
    (hrecord : ∀ id, child = some id → w.records[id]? = v.records[id]?) : stage.Fits child w := by
  cases stage with
  | start => exact h
  | resolved parentId => exact ⟨h.1, hparent _ h.2⟩
  | created parentId r =>
    obtain ⟨hchild, hid, hr, hderived⟩ := h
    exact ⟨hchild, hparent _ hid, (hrecord _ hchild).trans hr, hderived⟩
  | linked r =>
    obtain ⟨hchild, hr, parentId, hid, hderived⟩ := h
    exact ⟨hchild, (hrecord _ hchild).trans hr, parentId, hparent _ hid, hderived⟩
  | finished result =>
    cases result with
    | ok r =>
      obtain ⟨hchild, hr, parentId, hid, hderived⟩ := h
      exact ⟨hchild, (hrecord _ hchild).trans hr, parentId, hparent _ hid, hderived⟩
    | error e =>
      refine ⟨h.1, fun id hchild => ?_⟩
      obtain ⟨r, parentId, hr, hid, hderived⟩ := h.2 id hchild
      exact ⟨r, parentId, (hrecord _ hchild).trans hr, hparent _ hid, hderived⟩

variable {ι : Type} {tasks : ι → CommitTask}

/-- The commits that have succeeded, in the order in which the parent lists their children. -/
structure Listed (tasks : ι → CommitTask) (stage : ι → CommitStage) (child : ι → Option String)
    (order : List ι) (parent : Option Record) : Prop where
  /-- No commit stands twice. -/
  nodup : order.Nodup
  /-- These are the commits that have succeeded. -/
  mem_iff : ∀ i, i ∈ order ↔ (stage i).result?.isSome
  /-- The parent lists their children. -/
  related_eq : ∀ p, parent = some p →
    ((p.list? AttributeName.related).getD []).map some = order.map child
  /-- The parent starts with the first of them. -/
  start_eq : ∀ p, parent = some p →
    p.date? AttributeName.temporalStart = (order.map fun i => (tasks i).chunk.start).min?
  /-- The parent ends with the last of them. -/
  finish_eq : ∀ p, parent = some p →
    p.date? AttributeName.temporalEnd = (order.map fun i => (tasks i).chunk.finish).max?

namespace Listed

variable {stage : ι → CommitStage} {child child' : ι → Option String} {order : List ι}
  {parent : Option Record}

/-- The list stays when the children of the commits that have succeeded stay. -/
theorem of_eq (h : Listed tasks stage child order parent) (hchild : ∀ i ∈ order, child' i = child i) :
    Listed tasks stage child' order parent where
  nodup := h.nodup
  mem_iff := h.mem_iff
  related_eq p hp := by rw [h.related_eq p hp, List.map_congr_left hchild]
  start_eq := h.start_eq
  finish_eq := h.finish_eq

/-- The parent lasts as long as each of them. -/
theorem exists_bounds (h : Listed tasks stage child order parent) {p : Record}
    (hp : parent = some p) {i : ι} (hi : i ∈ order) :
    ∃ start finish, p.date? AttributeName.temporalStart = some start ∧
      p.date? AttributeName.temporalEnd = some finish ∧
      start ≤ (tasks i).chunk.start ∧ (tasks i).chunk.finish ≤ finish := by
  have hfirst : (tasks i).chunk.start ∈ order.map fun i => (tasks i).chunk.start :=
    List.mem_map_of_mem hi
  have hlast : (tasks i).chunk.finish ∈ order.map fun i => (tasks i).chunk.finish :=
    List.mem_map_of_mem hi
  obtain ⟨start, hstart⟩ := Option.isSome_iff_exists.1 (List.isSome_min?_of_mem hfirst)
  obtain ⟨finish, hfinish⟩ := Option.isSome_iff_exists.1 (List.isSome_max?_of_mem hlast)
  refine ⟨start, finish, ?_, ?_, ?_, ?_⟩
  · rw [h.start_eq p hp, hstart]
  · rw [h.finish_eq p hp, hfinish]
  · exact (min?_eq_some_iff_isLeast.1 hstart).2 hfirst
  · exact (max?_eq_some_iff_isGreatest.1 hfinish).2 hlast

variable [DecidableEq ι]

/-- The list stays when a commit moves, but neither to success nor from it. -/
theorem update (h : Listed tasks stage child order parent) {i : ι} {st : CommitStage}
    (hresult : st.result?.isSome = (stage i).result?.isSome) :
    Listed tasks (Function.update stage i st) child order parent where
  nodup := h.nodup
  mem_iff j := by
    have hsame := (Function.forall_update_iff stage fun j st =>
      st.result?.isSome = (stage j).result?.isSome).2 ⟨hresult, fun j _ => rfl⟩
    rw [hsame, h.mem_iff]
  related_eq := h.related_eq
  start_eq := h.start_eq
  finish_eq := h.finish_eq

/-- When a commit succeeds, a parent that takes account of its child lists the child last. -/
theorem concat {p q c : Record} (h : Listed tasks stage child order (some p)) {i : ι}
    (hresult : (stage i).result? = none) (hchild : child i = some c.id)
    (hrelated : q.list? AttributeName.related =
      some ((p.list? AttributeName.related).getD [] ++ [c.id]))
    (hstart : q.date? AttributeName.temporalStart =
      some ((p.date? AttributeName.temporalStart).elim (tasks i).chunk.start
        (min (tasks i).chunk.start)))
    (hfinish : q.date? AttributeName.temporalEnd =
      some ((p.date? AttributeName.temporalEnd).elim (tasks i).chunk.finish
        (max (tasks i).chunk.finish))) :
    Listed tasks (Function.update stage i (.finished (.ok c))) child (order ++ [i]) (some q) := by
  have hi : i ∉ order := by
    rw [h.mem_iff, hresult]
    exact Bool.false_ne_true
  constructor
  case nodup =>
    refine List.nodup_append.2 ⟨h.nodup, List.nodup_singleton i, ?_⟩
    rintro j hj k hk rfl
    rw [List.mem_singleton.1 hk] at hj
    exact hi hj
  case mem_iff =>
    intro j
    by_cases hji : j = i
    · rw [hji, Function.update_self]
      exact iff_of_true (List.mem_append_right _ (List.mem_singleton_self i)) rfl
    · rw [Function.update_of_ne hji, ← h.mem_iff, List.mem_append, List.mem_singleton,
        or_iff_left hji]
  case related_eq =>
    intro q' hq
    obtain rfl := Option.some.inj hq
    rw [hrelated, Option.getD_some, List.map_append, List.map_append, h.related_eq p rfl,
      List.map_singleton, List.map_singleton, hchild]
  case start_eq =>
    intro q' hq
    obtain rfl := Option.some.inj hq
    rw [hstart, h.start_eq p rfl, List.map_append, List.map_singleton, min?_concat]
  case finish_eq =>
    intro q' hq
    obtain rfl := Option.some.inj hq
    rw [hfinish, h.finish_eq p rfl, List.map_append, List.map_singleton, max?_concat]

end Listed

/-- What holds of commits that share a parent and a catalog, which had some records before. -/
structure Consistent (tasks : ι → CommitTask) (before : Records) (stage : ι → CommitStage)
    (child : ι → Option String) (v : CommitView) : Prop where
  /-- The parent is new, and is cached as it is stored. -/
  parent_spec : ∀ p, v.parent = some p →
    before[p.id]? = none ∧ v.records[p.id]? = some p ∧ p.kind = .parent
  /-- Other records stay. -/
  kept : ∀ (id : String) r, before[id]? = some r → v.records[id]? = some r
  /-- All new records are the parent and the children. -/
  eq_of_new : ∀ (id : String) r, v.records[id]? = some r →
    before[id]? = some r ∨ v.parentId? = some id ∨ ∃ i, child i = some id
  /-- Children are new, and are stored as such. -/
  child_spec : ∀ i (id : String), child i = some id → before[id]? = none ∧ v.parentId? ≠ some id ∧
    ∃ r, v.records[id]? = some r ∧ r.id = id ∧ (tasks i).Describes r
  /-- Each commit has its own child. -/
  child_inj : ∀ i j id, child i = some id → child j = some id → i = j
  /-- Each commit has come as far as its stage says. -/
  fits : ∀ i, (stage i).Fits (child i) v
  /-- The parent is up to date. -/
  listed : ∃ order, Listed tasks stage child order v.parent

namespace Consistent

variable {before : Records} {stage : ι → CommitStage} {child : ι → Option String} {v : CommitView}

/-- Before the first step. -/
theorem initial (tasks : ι → CommitTask) (before : Records) :
    Consistent tasks before (fun _ => .start) (fun _ => none) ⟨none, before⟩ where
  parent_spec p hp := by cases hp
  kept id r hr := hr
  eq_of_new id r hr := .inl hr
  child_spec i id hid := by cases hid
  child_inj i j id hi := by cases hi
  fits i := rfl
  listed := ⟨[], List.nodup_nil, fun i => by simp [CommitStage.result?], nofun, nofun, nofun⟩

/-- What is known of a commit that has succeeded. -/
theorem result_spec (h : Consistent tasks before stage child v) {i : ι} {c : Record}
    (hi : (stage i).result? = some c) :
    child i = some c.id ∧ v.records[c.id]? = some c ∧ (tasks i).Describes c ∧
      ∃ p, v.parent = some p ∧ c.list? AttributeName.derived = some [p.id] := by
  have hfits := h.fits i
  rw [CommitStage.eq_finished_of_result? hi] at hfits
  obtain ⟨hchild, hc, parentId, hid, hderived⟩ := hfits
  obtain ⟨-, -, r, hr, -, hdescribes⟩ := h.child_spec i _ hchild
  obtain rfl : c = r := Option.some.inj (hc.symm.trans hr)
  obtain ⟨p, hp, rfl⟩ := Option.map_eq_some_iff.1 hid
  exact ⟨hchild, hc, hdescribes, p, hp, hderived⟩

/-- A new record that is a child is that of a commit. -/
theorem exists_child (h : Consistent tasks before stage child v) {id : String} {r : Record}
    (hr : v.records[id]? = some r) (hnew : before[id]? = none) (hkind : r.kind = .child) :
    ∃ i, child i = some id := by
  rcases h.eq_of_new id r hr with hold | hid | hchild
  · cases hnew.symm.trans hold
  · obtain ⟨p, hp, rfl⟩ := Option.map_eq_some_iff.1 hid
    obtain ⟨-, hstored, hparent⟩ := h.parent_spec p hp
    obtain rfl : p = r := Option.some.inj (hstored.symm.trans hr)
    cases hkind.symm.trans hparent
  · exact hchild

/-- The children of the commits that have succeeded are those that the parent lists. -/
theorem mem_related_iff (h : Consistent tasks before stage child v) {order : List ι}
    (hlisted : Listed tasks stage child order v.parent) {p : Record}
    (hp : v.parent = some p) (id : String) :
    id ∈ (p.list? AttributeName.related).getD [] ↔
      ∃ i c, (stage i).result? = some c ∧ c.id = id := by
  have hmem : id ∈ (p.list? AttributeName.related).getD [] ↔ some id ∈ order.map child := by
    rw [← hlisted.related_eq p hp, List.mem_map_of_injective (Option.some_injective _)]
  rw [hmem, List.mem_map]
  constructor
  · rintro ⟨i, hi, hid⟩
    obtain ⟨c, hc⟩ := Option.isSome_iff_exists.1 ((hlisted.mem_iff i).1 hi)
    exact ⟨i, c, hc, Option.some.inj ((h.result_spec hc).1.symm.trans hid)⟩
  · rintro ⟨i, c, hc, rfl⟩
    exact ⟨i, (hlisted.mem_iff i).2 (by rw [hc]; rfl), (h.result_spec hc).1⟩

/-- The parent lists no child twice. -/
theorem nodup_related (h : Consistent tasks before stage child v) {order : List ι}
    (hlisted : Listed tasks stage child order v.parent) {p : Record}
    (hp : v.parent = some p) : ((p.list? AttributeName.related).getD []).Nodup := by
  apply List.Nodup.of_map some
  rw [hlisted.related_eq p hp]
  refine List.Nodup.map_on (fun i hi j hj hij => ?_) hlisted.nodup
  obtain ⟨c, hc⟩ := Option.isSome_iff_exists.1 ((hlisted.mem_iff i).1 hi)
  have hchild := (h.result_spec hc).1
  exact h.child_inj i j c.id hchild (hij.symm.trans hchild)

/-- The times of the commits that have succeeded are those of their children. -/
theorem mem_times_iff (h : Consistent tasks before stage child v) {order : List ι}
    (hlisted : Listed tasks stage child order v.parent) {name : String}
    (time : Chunk → Instant)
    (htime : ∀ i c, (tasks i).Describes c → c.date? name = some (time (tasks i).chunk))
    (u : Instant) :
    u ∈ order.map (fun i => time (tasks i).chunk) ↔
      ∃ i c, (stage i).result? = some c ∧ c.date? name = some u := by
  rw [List.mem_map]
  constructor
  · rintro ⟨i, hi, rfl⟩
    obtain ⟨c, hc⟩ := Option.isSome_iff_exists.1 ((hlisted.mem_iff i).1 hi)
    exact ⟨i, c, hc, htime i c (h.result_spec hc).2.2.1⟩
  · rintro ⟨i, c, hc, hu⟩
    refine ⟨i, (hlisted.mem_iff i).2 (by rw [hc]; rfl), ?_⟩
    exact Option.some.inj ((htime i c (h.result_spec hc).2.2.1).symm.trans hu)

/-- The child of a commit that is about to bring the parent up to date. -/
private theorem linked_spec (h : Consistent tasks before stage child v) {i : ι} {c : Record}
    (hstage : stage i = .linked c) :
    child i = some c.id ∧ v.records[c.id]? = some c ∧ (tasks i).Describes c := by
  have hfits := h.fits i
  rw [hstage] at hfits
  obtain ⟨hchild, hc, -⟩ := hfits
  obtain ⟨-, -, r, hr, -, hdescribes⟩ := h.child_spec i _ hchild
  obtain rfl : c = r := Option.some.inj (hc.symm.trans hr)
  exact ⟨hchild, hc, hdescribes⟩

/-- A child is not listed before the parent is brought up to date. -/
private theorem not_mem_related (h : Consistent tasks before stage child v) {i : ι} {c p : Record}
    (hstage : stage i = .linked c) (hp : v.parent = some p) :
    c.id ∉ (p.list? AttributeName.related).getD [] := by
  obtain ⟨order, hlisted⟩ := h.listed
  intro hmem
  have hmem' : some c.id ∈ order.map child := by
    rw [← hlisted.related_eq p hp]
    exact List.mem_map_of_mem hmem
  obtain ⟨j, hj, hchild⟩ := List.mem_map.1 hmem'
  obtain rfl := h.child_inj j i _ hchild (h.linked_spec hstage).1
  rw [hlisted.mem_iff, hstage] at hj
  cases hj

/-- There is always something to bring up to date. -/
private theorem changedSince_ne_empty [GeometryKernel]
    (h : Consistent tasks before stage child v) {i : ι} {c p : Record} (hcomplete : (tasks i).action.IsComplete) (hstage : stage i = .linked c)
    (hp : v.parent = some p) :
    ((ParentUpdate.updateAll (tasks i).action.updates p c).changedSince p).isEmpty = false := by
  rw [Bool.eq_false_iff]
  intro hempty
  have hnew := h.not_mem_related hstage hp
  have hlist := Record.get?_of_changedSince_isEmpty hempty
    (ParentUpdate.get?_related_updateAll hcomplete.association_mem hnew) trivial
  obtain ⟨ids, hids⟩ : ∃ ids, ids = (p.list? AttributeName.related).getD [] := ⟨_, rfl⟩
  rw [← hids] at hnew hlist
  rw [Record.list?, hlist] at hids
  have hlonger : ids = ids ++ [c.id] := hids
  apply hnew
  rw [hlonger]
  exact List.mem_append_right _ (List.mem_singleton_self _)

variable [DecidableEq ι]

omit [DecidableEq ι] in
/-- A record with an identifier that is free now was not there before. -/
private theorem new_of_fresh (h : Consistent tasks before stage child v) {id : String}
    (hfresh : v.records[id]? = none) : before[id]? = none := by
  cases hold : before[id]? with
  | none => rfl
  | some r => exact absurd rfl (Records.ne_of_fresh hfresh (h.kept id r hold))

/-- When one commit moves, its new stage has to fit, and those of the others have to go on fitting. -/
private theorem forall_fits_update {i : ι} {st : CommitStage} {w : CommitView}
    (hst : st.Fits (child i) w) (hothers : ∀ j, j ≠ i → (stage j).Fits (child j) w) (j : ι) :
    (Function.update stage i st j).Fits (child j) w :=
  (Function.forall_update_iff stage fun j st => st.Fits (child j) w).2 ⟨hst, hothers⟩ j

/-- A new child is the child of one commit only. -/
private theorem child_inj_update {i : ι} {new : String}
    (hinj : ∀ j k id, child j = some id → child k = some id → j = k)
    (hfresh : ∀ j, child j ≠ some new) (j k : ι) (id : String)
    (hj : Function.update child i (some new) j = some id)
    (hk : Function.update child i (some new) k = some id) : j = k := by
  by_cases hji : j = i <;> by_cases hki : k = i
  · rw [hji, hki]
  · rw [hji, Function.update_self] at hj
    rw [Function.update_of_ne hki, ← hj] at hk
    exact absurd hk (hfresh k)
  · rw [hki, Function.update_self] at hk
    rw [Function.update_of_ne hji, ← hk] at hj
    exact absurd hj (hfresh j)
  · rw [Function.update_of_ne hji] at hj
    rw [Function.update_of_ne hki] at hk
    exact hinj j k id hj hk

/-- A step that only brings a commit further, and neither to success nor from it. -/
private theorem stays (h : Consistent tasks before stage child v) {i : ι} {st : CommitStage}
    (hfits : st.Fits (child i) v) (hresult : st.result?.isSome = (stage i).result?.isSome) :
    Consistent tasks before (Function.update stage i st) child v := by
  obtain ⟨order, hlisted⟩ := h.listed
  exact { h with
    fits := forall_fits_update hfits fun j _ => h.fits j
    listed := ⟨order, hlisted.update hresult⟩ }

/-- A step that creates the child. -/
private theorem creates (h : Consistent tasks before stage child v) {i : ι} {parentId : String}
    {c : Record} (hstage : stage i = .resolved parentId) (hfresh : v.records[c.id]? = none)
    (hdescribes : (tasks i).Describes c)
    (hderived : c.list? AttributeName.derived = some [parentId] ∨
      c.list? AttributeName.derived = none) :
    Consistent tasks before (Function.update stage i (.created parentId c))
      (Function.update child i (some c.id)) ⟨v.parent, v.records.insert c.id c⟩ := by
  have hfits := h.fits i
  rw [hstage] at hfits
  obtain ⟨hnone, hparent⟩ := hfits
  have hstays : ∀ {id : String} {r}, v.records[id]? = some r →
      (v.records.insert c.id c)[id]? = some r :=
    fun hr => Records.getElem?_insert_fresh hfresh hr c
  constructor
  case parent_spec =>
    intro p hp
    obtain ⟨hnew, hstored, hkind⟩ := h.parent_spec p hp
    exact ⟨hnew, hstays hstored, hkind⟩
  case kept =>
    intro id r hr
    exact hstays (h.kept id r hr)
  case eq_of_new =>
    intro id r hr
    by_cases hid : c.id = id
    · exact .inr (.inr ⟨i, by rw [Function.update_self, hid]⟩)
    · rw [Records.getElem?_insert_of_ne hid] at hr
      rcases h.eq_of_new id r hr with hold | hold | ⟨j, hj⟩
      · exact .inl hold
      · exact .inr (.inl hold)
      · have hji : j ≠ i := by
          rintro rfl
          cases hnone.symm.trans hj
        exact .inr (.inr ⟨j, by rw [Function.update_of_ne hji, hj]⟩)
  case child_spec =>
    intro j id hj
    by_cases hji : j = i
    · subst hji
      rw [Function.update_self] at hj
      obtain rfl := Option.some.inj hj
      refine ⟨h.new_of_fresh hfresh, fun hid => ?_, c, Std.ExtTreeMap.getElem?_insert_self, rfl,
        hdescribes⟩
      obtain ⟨p, hp, hpid⟩ := Option.map_eq_some_iff.1 hid
      exact Records.ne_of_fresh hfresh (h.parent_spec p hp).2.1 hpid.symm
    · rw [Function.update_of_ne hji] at hj
      obtain ⟨hnew, hid, r, hr, hrid, hspec⟩ := h.child_spec j id hj
      exact ⟨hnew, hid, r, hstays hr, hrid, hspec⟩
  case child_inj =>
    refine child_inj_update h.child_inj fun j hj => ?_
    obtain ⟨_, _, r, hr, _⟩ := h.child_spec j c.id hj
    exact Records.ne_of_fresh hfresh hr rfl
  case fits =>
    refine forall_fits_update ?_ fun j hji => ?_
    · rw [Function.update_self]
      exact ⟨rfl, hparent, Std.ExtTreeMap.getElem?_insert_self, hderived⟩
    · rw [Function.update_of_ne hji]
      refine (h.fits j).of_eq (fun _ hid => hid) fun id hj => ?_
      obtain ⟨_, _, r, hr, _⟩ := h.child_spec j id hj
      rw [hstays hr, hr]
  case listed =>
    obtain ⟨order, hlisted⟩ := h.listed
    refine ⟨order, (hlisted.update (by rw [hstage]; rfl)).of_eq fun j hj => ?_⟩
    refine Function.update_of_ne ?_ _ _
    rintro rfl
    rw [hlisted.mem_iff, hstage] at hj
    cases hj

/-- A step that links the child. -/
private theorem relinks (h : Consistent tasks before stage child v) {i : ι} {parentId : String}
    {c r : Record} (hstage : stage i = .created parentId c) (hr : v.records[c.id]? = some r) :
    Consistent tasks before (Function.update stage i (.linked (r.overlaid (linkTo parentId))))
      child ⟨v.parent, v.records.insert c.id (r.overlaid (linkTo parentId))⟩ := by
  have hfits := h.fits i
  rw [hstage] at hfits
  obtain ⟨hchild, hparent, hc, -⟩ := hfits
  obtain rfl : r = c := Option.some.inj (hr.symm.trans hc)
  obtain ⟨hnew, hother, r', hr', -, hdescribes⟩ := h.child_spec i _ hchild
  obtain rfl : r = r' := Option.some.inj (hr.symm.trans hr')
  have hderived : (r.overlaid (linkTo parentId)).list? AttributeName.derived = some [parentId] := by
    rw [Record.list?, Record.get?_overlaid]
    rfl
  have hdates : ∀ name, name ≠ AttributeName.derived →
      (r.overlaid (linkTo parentId)).get? name = r.get? name := by
    intro name hname
    have hnone : (linkTo parentId)[name]? = none := by
      simp [linkTo, Attributes, hname.symm]
    rw [Record.get?_overlaid, hnone, Option.none_or]
  have hothers : ∀ {j : ι} {id : String}, j ≠ i → child j = some id → r.id ≠ id := by
    rintro j id hji hj rfl
    exact hji (h.child_inj j i _ hj hchild)
  constructor
  case parent_spec =>
    intro p hp
    obtain ⟨hnewp, hstored, hkind⟩ := h.parent_spec p hp
    have hne : r.id ≠ p.id := by
      intro heq
      exact hother (by rw [CommitView.parentId?, hp, heq]; rfl)
    exact ⟨hnewp, by rw [Records.getElem?_insert_of_ne hne, hstored], hkind⟩
  case kept =>
    intro id r' hr'
    rw [Records.getElem?_insert_of_ne (Records.ne_of_fresh hnew hr'), h.kept id r' hr']
  case eq_of_new =>
    intro id r' hr'
    by_cases hid : r.id = id
    · exact .inr (.inr ⟨i, by rw [hchild, hid]⟩)
    · rw [Records.getElem?_insert_of_ne hid] at hr'
      exact h.eq_of_new id r' hr'
  case child_spec =>
    intro j id hj
    by_cases hji : j = i
    · subst hji
      obtain rfl := Option.some.inj (hchild.symm.trans hj)
      refine ⟨hnew, hother, _, Std.ExtTreeMap.getElem?_insert_self, rfl, hdescribes.kind_eq, ?_, ?_⟩
      · rw [Record.date?, hdates _ (by decide)]
        exact hdescribes.start_eq
      · rw [Record.date?, hdates _ (by decide)]
        exact hdescribes.finish_eq
    · rw [Records.getElem?_insert_of_ne (hothers hji hj)]
      exact h.child_spec j id hj
  case child_inj => exact h.child_inj
  case fits =>
    refine forall_fits_update ?_ fun j hji => ?_
    · exact ⟨hchild, Std.ExtTreeMap.getElem?_insert_self, parentId, hparent, hderived⟩
    · refine (h.fits j).of_eq (fun _ hid => hid) fun id hj => ?_
      exact Records.getElem?_insert_of_ne (hothers hji hj) _ _
  case listed =>
    obtain ⟨order, hlisted⟩ := h.listed
    exact ⟨order, hlisted.update (by rw [hstage]; rfl)⟩

/-- A step that creates the parent. -/
private theorem createsParent (h : Consistent tasks before stage child v) {i : ι} {p : Record}
    (hstage : stage i = .start) (hnone : v.parent = none) (hfresh : v.records[p.id]? = none)
    (hasked : p = { (tasks i).action.settings.parentRecord (tasks i).now with id := p.id }) :
    Consistent tasks before (Function.update stage i (.resolved p.id)) child
      ⟨some p, v.records.insert p.id p⟩ := by
  have hfits := h.fits i
  rw [hstage] at hfits
  have hget : ∀ name, p.get? name =
      ((tasks i).action.settings.parentRecord (tasks i).now).get? name := by
    intro name
    rw [hasked]
    rfl
  have hnoParent : ∀ {parentId}, v.parentId? ≠ some parentId := by
    intro parentId hid
    rw [CommitView.parentId?, hnone] at hid
    cases hid
  constructor
  case parent_spec =>
    intro q hq
    obtain rfl := Option.some.inj hq
    exact ⟨h.new_of_fresh hfresh, Std.ExtTreeMap.getElem?_insert_self, by rw [hasked]; rfl⟩
  case kept =>
    intro id r hr
    exact Records.getElem?_insert_fresh hfresh (h.kept id r hr) p
  case eq_of_new =>
    intro id r hr
    by_cases hid : p.id = id
    · exact .inr (.inl (by rw [← hid]; rfl))
    · rw [Records.getElem?_insert_of_ne hid] at hr
      rcases h.eq_of_new id r hr with hold | hold | hold
      · exact .inl hold
      · exact absurd hold hnoParent
      · exact .inr (.inr hold)
  case child_spec =>
    intro j id hj
    obtain ⟨hnew, _, r, hr, hrid, hspec⟩ := h.child_spec j id hj
    refine ⟨hnew, ?_, r, Records.getElem?_insert_fresh hfresh hr p, hrid, hspec⟩
    intro hid
    exact Records.ne_of_fresh hfresh hr (Option.some.inj hid)
  case child_inj => exact h.child_inj
  case fits =>
    refine forall_fits_update ⟨hfits, rfl⟩ fun j _ => ?_
    refine (h.fits j).of_eq (fun _ hid => absurd hid hnoParent) fun id hj => ?_
    obtain ⟨_, _, r, hr, _⟩ := h.child_spec j id hj
    rw [Records.getElem?_insert_fresh hfresh hr, hr]
  case listed =>
    obtain ⟨order, hlisted⟩ := h.listed
    have hempty : order = [] := by
      refine List.eq_nil_iff_forall_not_mem.2 fun j hj => ?_
      obtain ⟨c, hc⟩ := Option.isSome_iff_exists.1 ((hlisted.mem_iff j).1 hj)
      obtain ⟨-, -, -, q, hq, -⟩ := h.result_spec hc
      cases hnone.symm.trans hq
    have hmoved : Listed tasks (Function.update stage i (.resolved p.id)) child order v.parent :=
      hlisted.update (by rw [hstage]; rfl)
    subst hempty
    refine ⟨[], hmoved.nodup, hmoved.mem_iff, ?_, ?_, ?_⟩
    · intro q hq
      obtain rfl := Option.some.inj hq
      rw [Record.list?, hget]
      rfl
    · intro q hq
      obtain rfl := Option.some.inj hq
      rw [Record.date?, hget]
      rfl
    · intro q hq
      obtain rfl := Option.some.inj hq
      rw [Record.date?, hget]
      rfl

/-- A step that brings the parent up to date. -/
private theorem updates [GeometryKernel] (h : Consistent tasks before stage child v) {i : ι}
    {c p r stored : Record} (hcomplete : (tasks i).action.IsComplete) (hstage : stage i = .linked c)
    (hp : v.parent = some p) (hr : v.records[p.id]? = some r)
    (hupdated : stored =
      r.overlaid ((ParentUpdate.updateAll (tasks i).action.updates p c).changedSince p)) :
    Consistent tasks before (Function.update stage i (.finished (.ok c))) child
      ⟨some stored, v.records.insert p.id stored⟩ := by
  have hfits := h.fits i
  rw [hstage] at hfits
  obtain ⟨hchild, -, hdescribes⟩ := h.linked_spec hstage
  obtain ⟨hnewp, hstoredp, hkindp⟩ := h.parent_spec p hp
  obtain rfl : p = r := Option.some.inj (hstoredp.symm.trans hr)
  have hid : stored.id = p.id := by rw [hupdated]; rfl
  have hparentId : v.parentId? = some p.id := by rw [CommitView.parentId?, hp]; rfl
  have hothers : ∀ {j : ι} {id : String}, child j = some id → p.id ≠ id := by
    rintro j id hj rfl
    exact (h.child_spec j _ hj).2.1 hparentId
  constructor
  case parent_spec =>
    intro q hq
    obtain rfl := Option.some.inj hq
    rw [hid]
    exact ⟨hnewp, Std.ExtTreeMap.getElem?_insert_self, by rw [hupdated]; exact hkindp⟩
  case kept =>
    intro id r hr
    rw [Records.getElem?_insert_of_ne (Records.ne_of_fresh hnewp hr), h.kept id r hr]
  case eq_of_new =>
    intro id r hr
    by_cases hpid : p.id = id
    · exact .inr (.inl (by rw [← hpid, ← hid]; rfl))
    · rw [Records.getElem?_insert_of_ne hpid] at hr
      rw [show (CommitView.mk (some stored) (v.records.insert p.id stored)).parentId? =
        v.parentId? by rw [hparentId, ← hid]; rfl]
      exact h.eq_of_new id r hr
  case child_spec =>
    intro j id hj
    obtain ⟨hnew, -, r, hr, hrid, hspec⟩ := h.child_spec j id hj
    refine ⟨hnew, fun hsome => hothers hj ?_, r, ?_, hrid, hspec⟩
    · rw [← hid]
      exact Option.some.inj hsome
    · rw [Records.getElem?_insert_of_ne (hothers hj), hr]
  case child_inj => exact h.child_inj
  case fits =>
    have hkeeps : ∀ parentId, v.parentId? = some parentId →
        (CommitView.mk (some stored) (v.records.insert p.id stored)).parentId? =
          some parentId := by
      intro parentId hsome
      rw [← hsome, hparentId, ← hid]
      rfl
    refine forall_fits_update ?_ fun j _ => ?_
    · have hlinked : (CommitStage.linked c).Fits (child i) v := hfits
      exact hlinked.of_eq hkeeps fun id hj => Records.getElem?_insert_of_ne (hothers hj) _ _
    · exact (h.fits j).of_eq hkeeps fun id hj =>
        Records.getElem?_insert_of_ne (hothers hj) _ _
  case listed =>
    obtain ⟨order, hlisted⟩ := h.listed
    have hupdate := @Record.get?_overlaid_changedSince_of_isExact
      (ParentUpdate.updateAll (tasks i).action.updates p c) p
    rw [hp] at hlisted
    refine ⟨order ++ [i], hlisted.concat (by rw [hstage]; rfl) hchild ?_ ?_ ?_⟩
    · rw [hupdated, Record.list?, hupdate (ParentUpdate.get?_related_updateAll
        hcomplete.association_mem (h.not_mem_related hstage hp)) trivial]
    · rw [hupdated, Record.date?, hupdate (ParentUpdate.get?_temporalStart_updateAll
        hcomplete.temporalStart_mem hdescribes.start_eq) trivial]
    · rw [hupdated, Record.date?, hupdate (ParentUpdate.get?_temporalEnd_updateAll
        hcomplete.temporalEnd_mem hdescribes.finish_eq) trivial]

/-- Every move of a commit keeps the commits consistent. -/
theorem move [GeometryKernel] (h : Consistent tasks before stage child v) {i : ι}
    (hcomplete : (tasks i).action.IsComplete) {st st' : CommitStage} {w : CommitView}
    (hstage : stage i = st) (hmove : CommitMove (tasks i) st v st' w) :
    Consistent tasks before (Function.update stage i st')
      (Function.update child i (st'.childId?.or (child i))) w := by
  have hfits := h.fits i
  rw [hstage] at hfits
  have hsame : ∀ {st' w}, st'.childId? = none ∨ st'.childId? = child i →
      Consistent tasks before (Function.update stage i st') child w →
      Consistent tasks before (Function.update stage i st')
        (Function.update child i (st'.childId?.or (child i))) w := by
    intro st' w hid hw
    have hchild : st'.childId?.or (child i) = child i := by
      rcases hid with hid | hid
      · rw [hid, Option.none_or]
      · rw [hid, Option.or_self]
    rwa [hchild, Function.update_eq_self]
  cases hmove with
  | parentRefused f rs =>
    refine hsame (.inl rfl) (h.stays ⟨by cases f <;> nofun, fun id hid => ?_⟩ (by rw [hstage]; rfl))
    cases hid.symm.trans hfits
  | parentKnown p rs =>
    exact hsame (.inl rfl) (h.stays ⟨hfits, rfl⟩ (by rw [hstage]; rfl))
  | parentCreated p rs fresh asked =>
    exact hsame (.inl rfl) (h.createsParent hstage rfl fresh asked)
  | childRefused parentId e =>
    refine hsame (.inl rfl) (h.stays ⟨nofun, fun id hid => ?_⟩ (by rw [hstage]; rfl))
    cases hid.symm.trans hfits.1
  | childCreated parentId parent rs c fresh describes derived =>
    rw [show (CommitStage.created parentId c).childId?.or (child i) = some c.id from rfl]
    exact h.creates hstage fresh describes derived
  | childLinked parentId c _ linked =>
    obtain ⟨hchild, hid, hc, hderived | hderived⟩ := hfits
    · exact hsame (.inr hchild.symm) (h.stays ⟨hchild, hc, parentId, hid, hderived⟩
        (by rw [hstage]; rfl))
    · rw [CommitTask.isLinked, hderived] at linked
      cases linked
  | linkRefused parentId c _ f unlinked =>
    obtain ⟨hchild, hid, hc, hderived | hderived⟩ := hfits
    · rw [CommitTask.isLinked, hderived, Option.any_some,
        List.contains_iff_mem.2 (List.mem_singleton_self _)] at unlinked
      cases unlinked
    · refine hsame (.inl rfl) (h.stays ⟨by cases f <;> nofun, fun id hsome => ?_⟩
        (by rw [hstage]; rfl))
      obtain rfl := Option.some.inj (hchild.symm.trans hsome)
      exact ⟨c, parentId, hc, hid, .inl hderived⟩
  | childRelinked parentId c parent rs r found =>
    obtain ⟨hchild, hid, hc, hderived⟩ := hfits
    obtain rfl : r = c := Option.some.inj (found.symm.trans hc)
    exact hsame (.inr hchild.symm) (h.relinks hstage found)
  | parentMissing c rs =>
    obtain ⟨-, -, parentId, hid, -⟩ := hfits
    cases hid
  | parentUnchanged c p rs same =>
    rw [h.changedSince_ne_empty hcomplete hstage rfl] at same
    cases same
  | updateRefused c p rs f =>
    obtain ⟨hchild, hc, parentId, hid, hderived⟩ := hfits
    refine hsame (.inl rfl) (h.stays ⟨by cases f <;> nofun, fun id hsome => ?_⟩
      (by rw [hstage]; rfl))
    obtain rfl := Option.some.inj (hchild.symm.trans hsome)
    exact ⟨c, parentId, hc, hid, .inr ⟨hderived, f, rfl⟩⟩
  | parentUpdated c p rs r stored found updated =>
    exact hsame (.inr hfits.1.symm) (h.updates hcomplete hstage rfl found updated)
  | ended result =>
    refine hsame ?_ (h.stays hfits (by rw [hstage]))
    cases result with
    | ok c => exact .inr hfits.1.symm
    | error e => exact .inl rfl

end Consistent

end StreamCatalog
