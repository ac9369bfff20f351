import StreamCatalog.Commit.Basic
import StreamCatalog.Proofs.Catalog.Keeper
import StreamCatalog.Proofs.Chunk.Rules
import StreamCatalog.Proofs.Commit.Attempts

/-!
# What a step of a commit can do

A step of a commit sees the cached parent and the records of the catalog.
`CommitMove` lists all that a step can do to them, and `Catalog.Keeper.step_spec`
says that it does nothing else, whatever the catalog refuses.
-/

namespace StreamCatalog

/-- What commits see of each other. -/
structure CommitView where
  /-- The cached parent. -/
  parent : Option Record
  /-- The records of the catalog. -/
  records : Records

/-- Whether a record is one of the chunk of a task: its kind and its times. -/
structure CommitTask.Describes (task : CommitTask) (child : Record) : Prop where
  /-- It is a child. -/
  kind_eq : child.kind = .child
  /-- It starts when the chunk does. -/
  start_eq : child.date? AttributeName.temporalStart = some task.chunk.start
  /-- It ends when the chunk does. -/
  finish_eq : child.date? AttributeName.temporalEnd = some task.chunk.finish

/-- The attributes that link a child to a parent. -/
def linkTo (parentId : String) : Attributes :=
  .ofList [(AttributeName.derived, Attribute.list [parentId])]

/-- What a step of a commit can do. -/
inductive CommitMove [GeometryKernel] (task : CommitTask) :
    CommitStage → CommitView → CommitStage → CommitView → Prop where
  /-- All requests for a parent are refused. -/
  | parentRefused (f : RetryFailure) (rs : Records) :
    CommitMove task .start ⟨none, rs⟩ (.finished (.error (.ofRetry .parentCreate f))) ⟨none, rs⟩
  /-- There is a parent. -/
  | parentKnown (p : Record) (rs : Records) :
    CommitMove task .start ⟨some p, rs⟩ (.resolved p.id) ⟨some p, rs⟩
  /-- A parent is created. -/
  | parentCreated (p : Record) (rs : Records) (fresh : rs[p.id]? = none)
      (asked : p = { task.action.settings.parentRecord task.now with id := p.id }) :
    CommitMove task .start ⟨none, rs⟩ (.resolved p.id) ⟨some p, rs.insert p.id p⟩
  /-- The request for the child is refused. -/
  | childRefused (parentId : String) (e : CatalogError) (v : CommitView) :
    CommitMove task (.resolved parentId) v
      (.finished (.error (.contentFailed task.chunk.sequence e))) v
  /-- The child is created, perhaps without its link. -/
  | childCreated (parentId : String) (parent : Option Record) (rs : Records) (child : Record)
      (fresh : rs[child.id]? = none) (describes : task.Describes child)
      (derived : child.list? AttributeName.derived = some [parentId] ∨
        child.list? AttributeName.derived = none) :
    CommitMove task (.resolved parentId) ⟨parent, rs⟩ (.created parentId child)
      ⟨parent, rs.insert child.id child⟩
  /-- The child has its link. -/
  | childLinked (parentId : String) (child : Record) (v : CommitView)
      (linked : CommitTask.isLinked child parentId = true) :
    CommitMove task (.created parentId child) v (.linked child) v
  /-- All requests for the link are refused. -/
  | linkRefused (parentId : String) (child : Record) (v : CommitView) (f : RetryFailure)
      (unlinked : CommitTask.isLinked child parentId = false) :
    CommitMove task (.created parentId child) v
      (.finished (.error (.ofRetry .childLink f))) v
  /-- The child gets its link. -/
  | childRelinked (parentId : String) (child : Record) (parent : Option Record) (rs : Records)
      (r : Record) (found : rs[child.id]? = some r) :
    CommitMove task (.created parentId child) ⟨parent, rs⟩ (.linked (r.overlaid (linkTo parentId)))
      ⟨parent, rs.insert child.id (r.overlaid (linkTo parentId))⟩
  /-- There is no parent. -/
  | parentMissing (child : Record) (rs : Records) :
    CommitMove task (.linked child) ⟨none, rs⟩ (.finished (.error .parentMissing)) ⟨none, rs⟩
  /-- The parent is up to date. -/
  | parentUnchanged (child p : Record) (rs : Records)
      (same : ((ParentUpdate.updateAll task.action.updates p child).changedSince p).isEmpty = true) :
    CommitMove task (.linked child) ⟨some p, rs⟩ (.finished (.ok child)) ⟨some p, rs⟩
  /-- All requests for the update are refused. -/
  | updateRefused (child p : Record) (rs : Records) (f : RetryFailure) :
    CommitMove task (.linked child) ⟨some p, rs⟩
      (.finished (.error (.ofRetry .parentUpdate f))) ⟨some p, rs⟩
  /-- The parent is brought up to date. -/
  | parentUpdated (child p : Record) (rs : Records) (r stored : Record)
      (found : rs[p.id]? = some r)
      (updated : stored =
        r.overlaid ((ParentUpdate.updateAll task.action.updates p child).changedSince p)) :
    CommitMove task (.linked child) ⟨some p, rs⟩ (.finished (.ok child))
      ⟨some stored, rs.insert p.id stored⟩
  /-- The commit has ended. -/
  | ended (result : Except CommitError Record) (v : CommitView) :
    CommitMove task (.finished result) v (.finished result) v

namespace Chunk

variable [GeometryKernel] (chunk : Chunk) (settings : CommitSettings) (parentId : String)
  (now : Instant)

theorem id_record : (chunk.record settings parentId now).id = "" := by
  simp only [record, Record.id_set?]
  rfl

theorem kind_record : (chunk.record settings parentId now).kind = .child := by
  simp only [record, Record.kind_set?]
  rfl

theorem get?_record_temporalStart :
    (chunk.record settings parentId now).get? AttributeName.temporalStart =
      some (.date chunk.start) := by
  simp only [record, Record.get?_set?, Record.get?_set]
  rfl

theorem get?_record_temporalEnd :
    (chunk.record settings parentId now).get? AttributeName.temporalEnd =
      some (.date chunk.finish) := by
  simp only [record, Record.get?_set?, Record.get?_set]
  rfl

theorem get?_record_derived :
    (chunk.record settings parentId now).get? AttributeName.derived =
      some (.list [parentId]) := by
  simp only [record, Record.get?_set?, Record.get?_set]
  rfl

end Chunk

namespace Catalog.Keeper

variable {σ : Type} {C : Catalog σ} (K : C.Keeper)

/-- What commits see of a state. -/
def view (s : CommitState σ) : CommitView := ⟨s.parent, K.records s.catalog⟩

variable {K}

/-- Requests that leave the records when they are refused: either all of them are, or one is
accepted on the same records. -/
theorem repeated_cases (task : CommitTask) (request : CommitRequest) {α : Type}
    {call : σ → Except CatalogError α × σ}
    (hcall : ∀ s, K.Sound s → K.Sound (call s).2 ∧
      ∀ e, (call s).1 = .error e → K.records (call s).2 = K.records s)
    {s : σ} (hs : K.Sound s) :
    (∃ f after, task.repeated request call s = (.error (.ofRetry request f), after) ∧
      K.Sound after ∧ K.records after = K.records s) ∨
    ∃ last a after, task.repeated request call s = (.ok a, after) ∧ call last = (.ok a, after) ∧
      K.Sound last ∧ K.records last = K.records s := by
  have hrefused : ∀ t e, K.Sound t ∧ K.records t = K.records s → (call t).1 = .error e →
      K.Sound (call t).2 ∧ K.records (call t).2 = K.records s :=
    fun t e ht he => ⟨(hcall t ht.1).1, ((hcall t ht.1).2 e he).trans ht.2⟩
  have hcases := retry_cases hrefused task.action.settings.maxAttempts ⟨hs, rfl⟩
  rcases hcases with ⟨f, after, hretry, hsound, hrecords⟩ |
    ⟨last, a, after, ⟨hsound, hrecords⟩, hlast, hretry⟩
  · exact .inl ⟨f, after, by rw [CommitTask.repeated, hretry]; rfl, hsound, hrecords⟩
  · exact .inr ⟨last, a, after, by rw [CommitTask.repeated, hretry]; rfl, hlast, hsound, hrecords⟩

/-- A request for changes that is repeated. -/
theorem repeated_update (task : CommitTask) (request : CommitRequest) (id : String)
    (changes : Attributes) {s : σ} (hs : K.Sound s) :
    (∃ f after, task.repeated request (C.update id changes) s = (.error (.ofRetry request f), after) ∧
      K.Sound after ∧ K.records after = K.records s) ∨
    ∃ r stored after, task.repeated request (C.update id changes) s = (.ok stored, after) ∧
      K.Sound after ∧ (K.records s)[id]? = some r ∧ stored = r.overlaid changes ∧
      K.records after = (K.records s).insert id stored := by
  have hcall : ∀ t, K.Sound t → K.Sound (C.update id changes t).2 ∧
      ∀ e, (C.update id changes t).1 = .error e →
        K.records (C.update id changes t).2 = K.records t :=
    fun t ht => ⟨(K.update_spec ht).1, fun e => (K.update_spec ht).2.eq_of_refused⟩
  rcases repeated_cases task request hcall hs with hrefused |
    ⟨last, stored, after, hrepeated, hlast, hsound, hrecords⟩
  · exact .inl hrefused
  · have hspec : K.Sound (C.update id changes last).2 ∧ Changed (K.records last) id changes
        (C.update id changes last).1 (K.records (C.update id changes last).2) :=
      K.update_spec hsound
    rw [hlast] at hspec
    obtain ⟨hafter, hchanged⟩ := hspec
    obtain ⟨r, hr, hstored, hinsert⟩ := hchanged.eq_of_ok rfl
    rw [hrecords] at hr hinsert
    exact .inr ⟨r, stored, after, hrepeated, hafter, hr, hstored, hinsert⟩

variable [GeometryKernel] (task : CommitTask) {s : CommitState σ}

/-- The step that finds the parent. -/
private theorem start_spec (hs : K.Sound s.catalog) :
    K.Sound (task.step C .start s).2.catalog ∧
      CommitMove task .start (K.view s) (task.step C .start s).1
        (K.view (task.step C .start s).2) := by
  rcases s with ⟨_ | parent, catalog⟩
  · let record := task.action.settings.parentRecord task.now
    have hspec : ∀ {t}, K.Sound t → K.Sound (C.create record t).2 ∧
        Stored (K.records t) (fun p => p = { record with id := p.id }) (C.create record t).1
          (K.records (C.create record t).2) := fun ht => K.create_spec ht rfl
    rcases repeated_cases task .parentCreate
        (fun t ht => ⟨(hspec ht).1, fun e => (hspec ht).2.eq_of_refused⟩) hs with
      ⟨f, after, hrepeated, hsound, hrecords⟩ |
      ⟨last, p, after, hrepeated, hlast, hsound, hrecords⟩
    · have hstep : task.step C .start ⟨none, catalog⟩ =
          (.finished (.error (.ofRetry .parentCreate f)), ⟨none, after⟩) := by
        simp only [CommitTask.step, CommitTask.resolveParent, record, hrepeated]
      rw [hstep, view, view, hrecords]
      exact ⟨hsound, .parentRefused f _⟩
    · obtain ⟨hafter, hstored⟩ := hspec hsound
      rw [hlast] at hafter hstored
      obtain ⟨hfresh, hasked, hinsert⟩ := hstored.eq_of_ok rfl
      rw [hrecords] at hfresh hinsert
      have hstep : task.step C .start ⟨none, catalog⟩ = (.resolved p.id, ⟨some p, after⟩) := by
        simp only [CommitTask.step, CommitTask.resolveParent, record, hrepeated]
      rw [hstep, view, view, hinsert]
      exact ⟨hafter, .parentCreated p _ hfresh hasked⟩
  · exact ⟨hs, .parentKnown parent _⟩

/-- The step that creates the child. -/
private theorem resolved_spec (hs : K.Sound s.catalog) (parentId : String) :
    K.Sound (task.step C (.resolved parentId) s).2.catalog ∧
      CommitMove task (.resolved parentId) (K.view s) (task.step C (.resolved parentId) s).1
        (K.view (task.step C (.resolved parentId) s).2) := by
  let record := task.chunk.record task.action.settings parentId task.now
  let request : ContentRequest := ⟨record, task.source, chunkMimeType⟩
  have hspec : K.Sound (C.createContent request s.catalog).2 ∧
      Stored (K.records s.catalog) (KeepsContent record) (C.createContent request s.catalog).1
        (K.records (C.createContent request s.catalog).2) :=
    K.createContent_spec hs (Chunk.id_record _ _ _ _)
  rw [CommitTask.step, CommitTask.createChild]
  rcases hcall : C.createContent request s.catalog with ⟨e | child, after⟩
  · rw [hcall] at hspec
    obtain ⟨hsound, hstored⟩ := hspec
    have hrecords := hstored.eq_of_refused rfl
    simp only [Except.mapError, view, hrecords]
    exact ⟨hsound, .childRefused _ e _⟩
  · rw [hcall] at hspec
    obtain ⟨hsound, hstored⟩ := hspec
    obtain ⟨hfresh, hkeeps, hinsert⟩ := hstored.eq_of_ok rfl
    simp only [Except.mapError, view, hinsert]
    refine ⟨hsound, .childCreated parentId _ _ child hfresh ⟨?_, ?_, ?_⟩ ?_⟩
    · exact hkeeps.kind_eq.trans (Chunk.kind_record _ _ _ _)
    · rw [Record.date?, hkeeps.get?_eq _ (by decide) (by decide) (by decide),
        Chunk.get?_record_temporalStart]
    · rw [Record.date?, hkeeps.get?_eq _ (by decide) (by decide) (by decide),
        Chunk.get?_record_temporalEnd]
    · rcases hkeeps.derived_eq with hderived | hderived
      · exact .inl (by rw [Record.list?, hderived, Chunk.get?_record_derived])
      · exact .inr (by rw [Record.list?, hderived])

/-- The step that links the child. -/
private theorem created_spec (hs : K.Sound s.catalog) (parentId : String) (child : Record) :
    K.Sound (task.step C (.created parentId child) s).2.catalog ∧
      CommitMove task (.created parentId child) (K.view s)
        (task.step C (.created parentId child) s).1
        (K.view (task.step C (.created parentId child) s).2) := by
  rw [CommitTask.step, CommitTask.linkChild]
  by_cases hlinked : CommitTask.isLinked child parentId = true
  · simp only [hlinked, if_true]
    exact ⟨hs, .childLinked parentId child _ hlinked⟩
  · rw [Bool.not_eq_true] at hlinked
    simp only [hlinked, Bool.false_eq_true, if_false]
    rcases repeated_update task .childLink child.id (linkTo parentId) hs with
      ⟨f, after, hrepeated, hsound, hrecords⟩ |
      ⟨r, stored, after, hrepeated, hsound, hr, rfl, hrecords⟩
    · rw [linkTo] at hrepeated
      simp only [hrepeated, view, hrecords]
      exact ⟨hsound, .linkRefused parentId child _ f hlinked⟩
    · rw [linkTo] at hrepeated
      simp only [hrepeated, view, hrecords]
      exact ⟨hsound, .childRelinked parentId child _ _ r hr⟩

/-- The step that brings the parent up to date. -/
private theorem linked_spec (hs : K.Sound s.catalog) (child : Record) :
    K.Sound (task.step C (.linked child) s).2.catalog ∧
      CommitMove task (.linked child) (K.view s) (task.step C (.linked child) s).1
        (K.view (task.step C (.linked child) s).2) := by
  rcases s with ⟨_ | p, catalog⟩
  · exact ⟨hs, .parentMissing child _⟩
  · rw [CommitTask.step, CommitTask.updateParent]
    dsimp only
    by_cases hsame :
        ((ParentUpdate.updateAll task.action.updates p child).changedSince p).isEmpty = true
    · simp only [hsame, if_true]
      exact ⟨hs, .parentUnchanged child p _ hsame⟩
    · rw [if_neg hsame]
      rcases repeated_update task .parentUpdate p.id
          ((ParentUpdate.updateAll task.action.updates p child).changedSince p) hs with
        ⟨f, after, hrepeated, hsound, hrecords⟩ |
        ⟨r, stored, after, hrepeated, hsound, hr, hstored, hrecords⟩
      · simp only [hrepeated, view, hrecords]
        exact ⟨hsound, .updateRefused child p _ f⟩
      · simp only [hrepeated, view, hrecords]
        exact ⟨hsound, .parentUpdated child p _ r stored hr hstored⟩

/-- A step of a commit on a sound catalog is one of the moves, and leaves the catalog sound. -/
theorem step_spec (hs : K.Sound s.catalog) (stage : CommitStage) :
    K.Sound (task.step C stage s).2.catalog ∧
      CommitMove task stage (K.view s) (task.step C stage s).1
        (K.view (task.step C stage s).2) := by
  cases stage with
  | start => exact start_spec task hs
  | resolved parentId => exact resolved_spec task hs parentId
  | created parentId child => exact created_spec task hs parentId child
  | linked child => exact linked_spec task hs child
  | finished result => exact ⟨hs, .ended result _⟩

end Catalog.Keeper

end StreamCatalog
