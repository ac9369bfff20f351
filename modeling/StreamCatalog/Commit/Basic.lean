import StreamCatalog.Chunk.ParentUpdate
import StreamCatalog.Commit.Child
import StreamCatalog.Commit.Retry

/-!
# Committing a chunk

A commit finds or creates the parent record of its stream, creates the child
record with the chunk as its content, links the child to the parent if the
catalog lost the link, and brings the parent up to date. Parent and catalog are
shared by all commits of a stream. Each step is a function on the shared state,
and commits may be interleaved between steps; `CommitTask.run` takes all steps of
one commit, one after the other (`CommitTask.steps_start`).

Requests for the parent, for the link and for the update are repeated after
transient failures. The request for the child is not: its failure loses the
chunk, and nothing else.
-/

namespace StreamCatalog

/-- The requests of a commit that are repeated. -/
inductive CommitRequest where
  /-- To create the parent. -/
  | parentCreate
  /-- To link the child to the parent. -/
  | childLink
  /-- To update the parent. -/
  | parentUpdate
deriving DecidableEq, Repr

/-- The name of a request. -/
def CommitRequest.name : CommitRequest → String
  | parentCreate => "parent create"
  | childLink => "child link update"
  | parentUpdate => "parent update"

/-- Why a commit fails. -/
inductive CommitError where
  /-- All attempts at a request failed. -/
  | exhausted (request : CommitRequest) (attempts : Nat) (last : CatalogError)
  /-- A request was rejected. -/
  | rejected (request : CommitRequest) (source : CatalogError)
  /-- The child could not be created. -/
  | contentFailed (sequence : Nat) (source : CatalogError)
  /-- There is no parent to update. -/
  | parentMissing
deriving DecidableEq, Repr

namespace CommitError

/-- What is said about a failure. -/
def message : CommitError → String
  | exhausted request attempts last =>
    request.name ++ " failed after " ++ toString attempts ++ " attempts: " ++ last.message
  | rejected request source => request.name ++ " rejected: " ++ source.message
  | contentFailed sequence source =>
    "Content create failed for chunk #" ++ toString sequence ++ ": " ++ source.message
  | parentMissing => "Parent record missing"

/-- The failure of a request that is repeated. -/
def ofRetry (request : CommitRequest) : RetryFailure → CommitError
  | .exhausted attempts last => exhausted request attempts last
  | .rejected source => rejected request source

end CommitError

/-- What the commits of a stream share. -/
structure CommitState (σ : Type) where
  /-- The parent record as the catalog last gave it. -/
  parent : Option Record
  /-- The state of the catalog. -/
  catalog : σ

/-- How chunks of a stream are committed. -/
structure CommitAction where
  /-- The settings of the stream. -/
  settings : CommitSettings
  /-- The rules that bring the parent up to date. -/
  updates : List ParentUpdate

/-- The action with the standard rules. -/
def CommitAction.standard (settings : CommitSettings) : CommitAction :=
  ⟨settings, ParentUpdate.standard settings.tolerances⟩

/-- The commit of one chunk. -/
structure CommitTask where
  /-- How it is committed. -/
  action : CommitAction
  /-- The chunk. -/
  chunk : Chunk
  /-- Its file. -/
  source : ContentSource
  /-- When its records are made. -/
  now : Instant

/-- How far a commit has come. -/
inductive CommitStage where
  /-- Nothing is done. -/
  | start
  /-- The parent is known. -/
  | resolved (parentId : String)
  /-- The child is created. -/
  | created (parentId : String) (child : Record)
  /-- The child is created and linked. -/
  | linked (child : Record)
  /-- The commit has ended. -/
  | finished (result : Except CommitError Record)

namespace CommitTask

variable [GeometryKernel] {σ : Type}

/-- A request that is repeated as often as the settings allow. -/
def repeated {α : Type} (task : CommitTask) (request : CommitRequest)
    (call : σ → Except CatalogError α × σ) (s : σ) : Except CommitError α × σ :=
  let (result, s) := retry task.action.settings.maxAttempts call s
  (result.mapError (.ofRetry request), s)

/-- Find the parent, or create it. -/
def resolveParent (C : Catalog σ) (task : CommitTask) (s : CommitState σ) :
    Except CommitError String × CommitState σ :=
  match s.parent with
  | some parent => (.ok parent.id, s)
  | none =>
    let record := task.action.settings.parentRecord task.now
    match task.repeated .parentCreate (C.create record) s.catalog with
    | (.error e, catalog) => (.error e, { s with catalog := catalog })
    | (.ok parent, catalog) => (.ok parent.id, ⟨some parent, catalog⟩)

/-- Create the child with the chunk as its content. -/
def createChild (C : Catalog σ) (task : CommitTask) (parentId : String) (s : CommitState σ) :
    Except CommitError Record × CommitState σ :=
  let record := task.chunk.record task.action.settings parentId task.now
  let (result, catalog) := C.createContent ⟨record, task.source, chunkMimeType⟩ s.catalog
  (result.mapError (.contentFailed task.chunk.sequence), { s with catalog := catalog })

/-- Whether a child names its parent. -/
def isLinked (child : Record) (parentId : String) : Bool :=
  (child.list? AttributeName.derived).any (·.contains parentId)

/-- Link the child to the parent, unless it is linked. -/
def linkChild (C : Catalog σ) (task : CommitTask) (parentId : String) (child : Record)
    (s : CommitState σ) : Except CommitError Record × CommitState σ :=
  if isLinked child parentId then (.ok child, s)
  else
    let link : Attributes := .ofList [(AttributeName.derived, Attribute.list [parentId])]
    let (result, catalog) := task.repeated .childLink (C.update child.id link) s.catalog
    (result, { s with catalog := catalog })

/-- Bring the parent up to date. Only the attributes that change are sent. -/
def updateParent (C : Catalog σ) (task : CommitTask) (child : Record) (s : CommitState σ) :
    Except CommitError Unit × CommitState σ :=
  match s.parent with
  | none => (.error .parentMissing, s)
  | some parent =>
    let updated := ParentUpdate.updateAll task.action.updates parent child
    let changes := updated.changedSince parent
    if changes.isEmpty then (.ok (), s)
    else
      match task.repeated .parentUpdate (C.update parent.id changes) s.catalog with
      | (.error e, catalog) => (.error e, { s with catalog := catalog })
      | (.ok stored, catalog) => (.ok (), ⟨some stored, catalog⟩)

/-- The next step of a commit. -/
def step (C : Catalog σ) (task : CommitTask) (stage : CommitStage) (s : CommitState σ) :
    CommitStage × CommitState σ :=
  match stage with
  | .start =>
    match task.resolveParent C s with
    | (.error e, s) => (.finished (.error e), s)
    | (.ok parentId, s) => (.resolved parentId, s)
  | .resolved parentId =>
    match task.createChild C parentId s with
    | (.error e, s) => (.finished (.error e), s)
    | (.ok child, s) => (.created parentId child, s)
  | .created parentId child =>
    match task.linkChild C parentId child s with
    | (.error e, s) => (.finished (.error e), s)
    | (.ok child, s) => (.linked child, s)
  | .linked child =>
    match task.updateParent C child s with
    | (.error e, s) => (.finished (.error e), s)
    | (.ok _, s) => (.finished (.ok child), s)
  | .finished result => (.finished result, s)

/-- The stage and the state after some steps. -/
def steps (C : Catalog σ) (task : CommitTask) :
    Nat → CommitStage → CommitState σ → CommitStage × CommitState σ
  | 0, stage, s => (stage, s)
  | n + 1, stage, s =>
    let (stage, s) := task.step C stage s
    steps C task n stage s

/-- Commit a chunk, and give the child record. -/
def run (C : Catalog σ) (task : CommitTask) (s : CommitState σ) :
    Except CommitError Record × CommitState σ :=
  match task.resolveParent C s with
  | (.error e, s) => (.error e, s)
  | (.ok parentId, s) =>
    match task.createChild C parentId s with
    | (.error e, s) => (.error e, s)
    | (.ok child, s) =>
      match task.linkChild C parentId child s with
      | (.error e, s) => (.error e, s)
      | (.ok child, s) =>
        match task.updateParent C child s with
        | (.error e, s) => (.error e, s)
        | (.ok _, s) => (.ok child, s)

/-- A commit is its four steps one after the other. -/
theorem steps_start (C : Catalog σ) (task : CommitTask) (s : CommitState σ) :
    task.steps C 4 .start s = (.finished (task.run C s).1, (task.run C s).2) := by
  simp only [steps, step, run]
  rcases task.resolveParent C s with ⟨_ | parentId, s₁⟩
  · rfl
  · simp only
    rcases task.createChild C parentId s₁ with ⟨_ | child, s₂⟩
    · rfl
    · simp only
      rcases task.linkChild C parentId child s₂ with ⟨_ | linked, s₃⟩
      · rfl
      · simp only
        rcases task.updateParent C linked s₃ with ⟨_ | _, s₄⟩ <;> rfl

end CommitTask

end StreamCatalog
