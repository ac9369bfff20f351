import StreamCatalog.Proofs.Catalog.Requests
import StreamCatalog.Proofs.Commit.Moves
import StreamCatalog.Proofs.Commit.Retries

/-!
# What a commit asks the catalog for

A catalog may be made to record every request with its answer, and answers as before
(`CommitTask.run_recorded`). The record of a commit tells how often it asked for each thing:
the requests that are repeated follow the law of retries on the answers that the catalog has for
them, and the child is asked for at most once (`CommitTask.requests_follow_law`).
-/

namespace StreamCatalog

variable {σ : Type}

/-- A request to a catalog, and the answer. -/
structure CatalogAnswer where
  /-- The request. -/
  request : CatalogRequest
  /-- The answer. -/
  outcome : Except CatalogError Record

/-- A state with the answers so far. -/
abbrev Recorded (σ : Type) := σ × List CatalogAnswer

/-- Make a call, and record it as a request. -/
def recording (request : CatalogRequest) (call : σ → Except CatalogError Record × σ)
    (s : Recorded σ) : Except CatalogError Record × Recorded σ :=
  let (outcome, after) := call s.1
  (outcome, after, s.2 ++ [⟨request, outcome⟩])

/-- The catalog that records what it is asked for, apart from records that it only gives. -/
def Catalog.recorded (C : Catalog σ) : Catalog (Recorded σ) where
  create r := recording (.create r) (C.create r)
  createContent request := recording (.createContent request) (C.createContent request)
  update id changes := recording (.update id changes) (C.update id changes)
  get id s := C.get id s.1

/-- The first answers to a request that is made again and again. -/
def answersTo (request : CatalogRequest) (outcomes : ℕ → Except CatalogError Record) (calls : ℕ) :
    List CatalogAnswer :=
  (List.range calls).map fun n => ⟨request, outcomes n⟩

section recording

variable (request : CatalogRequest) (call : σ → Except CatalogError Record × σ) (s : σ)
  (log : List CatalogAnswer)

theorem stateAfter_recording (n : ℕ) :
    stateAfter (recording request call) (s, log) n =
      (stateAfter call s n, log ++ answersTo request (outcomesOf call s) n) := by
  induction n with
  | zero => exact congrArg _ (List.append_nil log).symm
  | succ n ih =>
    rw [stateAfter, Function.iterate_succ_apply', ← stateAfter, ih, answersTo, answersTo,
      List.range_succ, List.map_append, ← List.append_assoc, stateAfter, stateAfter,
      Function.iterate_succ_apply']
    rfl

theorem outcomesOf_recording :
    outcomesOf (recording request call) (s, log) = outcomesOf call s := by
  funext n
  rw [outcomesOf, stateAfter_recording]
  rfl

end recording

/-! ## Requests that are repeated -/

namespace CommitTask

/-- How often a request is made at most. -/
def budget (task : CommitTask) : ℕ := max 1 task.action.settings.maxAttempts

/-- What happens when a request is repeated: the law holds for the outcomes that the catalog has for
it, and it answers with these, as many as there are calls. -/
def Repeats (task : CommitTask) (request : CatalogRequest)
    (call : σ → Except CatalogError Record × σ) (s : σ) (answers : List CatalogAnswer)
    (result : Except RetryFailure Record) (after : σ) : Prop :=
  ∃ calls, FollowsLaw task.budget (outcomesOf call s) calls result ∧
    answers = answersTo request (outcomesOf call s) calls ∧ after = stateAfter call s calls

/-- A request that is repeated, on any sequence of outcomes. -/
theorem repeated_scripted {α : Type} (task : CommitTask) (request : CommitRequest)
    (outcomes : ℕ → Except CatalogError α) :
    ∃ result,
      FollowsLaw task.budget outcomes (task.repeated request (scripted outcomes) 0).2 result ∧
      (task.repeated request (scripted outcomes) 0).1 = result.mapError (.ofRetry request) := by
  obtain ⟨calls, hlaw, hafter⟩ :=
    retry_followsLaw task.action.settings.maxAttempts (scripted outcomes) 0
  rw [outcomesOf_scripted] at hlaw
  rw [stateAfter_scripted] at hafter
  refine ⟨_, ?_, rfl⟩
  rw [repeated, hafter]
  exact hlaw

/-- A request that is repeated on a catalog that records: it comes out the same. -/
theorem repeated_recording (task : CommitTask) (request : CommitRequest) (asked : CatalogRequest)
    (call : σ → Except CatalogError Record × σ) (s : σ) (log : List CatalogAnswer) :
    ∃ answers result after, task.Repeats asked call s answers result after ∧
      task.repeated request call s = (result.mapError (.ofRetry request), after) ∧
      task.repeated request (recording asked call) (s, log) =
        (result.mapError (.ofRetry request), after, log ++ answers) := by
  obtain ⟨calls, hlaw, hafter⟩ := retry_followsLaw task.action.settings.maxAttempts call s
  -- Both calls have the same outcomes, and the law leaves no choice.
  obtain ⟨calls', hlaw', hafter'⟩ :=
    retry_followsLaw task.action.settings.maxAttempts (recording asked call) (s, log)
  rw [outcomesOf_recording] at hlaw'
  obtain ⟨rfl, hresult⟩ := hlaw.unique hlaw'
  rw [stateAfter_recording] at hafter'
  refine ⟨_, _, _, ⟨calls, hlaw, rfl, rfl⟩, ?_, ?_⟩
  · rw [repeated, ← hafter]
  · rw [repeated, hresult, ← hafter']

end CommitTask

/-! ## The steps of a commit -/

/-- The state of commits over a catalog that has recorded these answers. -/
def CommitState.withLog (s : CommitState σ) (log : List CatalogAnswer) :
    CommitState (Recorded σ) :=
  ⟨s.parent, s.catalog, log⟩

namespace CommitTask

variable (C : Catalog σ) (task : CommitTask) (s : CommitState σ)

/-- What is asked for to find the parent. -/
inductive Resolves : List CatalogAnswer → Except CommitError String → CommitState σ → Prop where
  /-- The parent is known. -/
  | known {parent : Record} (cached : s.parent = some parent) : Resolves [] (.ok parent.id) s
  /-- The parent is created. -/
  | created {answers : List CatalogAnswer} {parent : Record} {catalog : σ}
    (missing : s.parent = none)
    (repeats : task.Repeats (.create (task.action.settings.parentRecord task.now))
      (C.create (task.action.settings.parentRecord task.now)) s.catalog answers (.ok parent)
      catalog) :
    Resolves answers (.ok parent.id) ⟨some parent, catalog⟩
  /-- The parent is not created. -/
  | refused {answers : List CatalogAnswer} {f : RetryFailure} {catalog : σ}
    (missing : s.parent = none)
    (repeats : task.Repeats (.create (task.action.settings.parentRecord task.now))
      (C.create (task.action.settings.parentRecord task.now)) s.catalog answers (.error f)
      catalog) :
    Resolves answers (.error (.ofRetry .parentCreate f)) { s with catalog := catalog }

/-- The request for the child. -/
def contentRequest (parentId : String) : ContentRequest :=
  ⟨task.chunk.record task.action.settings parentId task.now, task.source, chunkMimeType⟩

/-- What is asked for to create the child: a single request. -/
inductive CreatesChild (parentId : String) :
    List CatalogAnswer → Except CommitError Record → CommitState σ → Prop where
  /-- The child is created or refused. -/
  | asked {outcome : Except CatalogError Record} {catalog : σ}
    (call_eq : C.createContent (task.contentRequest parentId) s.catalog = (outcome, catalog)) :
    CreatesChild parentId [⟨.createContent (task.contentRequest parentId), outcome⟩]
      (outcome.mapError (.contentFailed task.chunk.sequence)) { s with catalog := catalog }

/-- What is asked for to link the child. -/
inductive LinksChild (parentId : String) (child : Record) :
    List CatalogAnswer → Except CommitError Record → CommitState σ → Prop where
  /-- The child is linked. -/
  | linked (isLinked : isLinked child parentId = true) : LinksChild parentId child [] (.ok child) s
  /-- The link is set, or refused. -/
  | asked {answers : List CatalogAnswer} {result : Except RetryFailure Record} {catalog : σ}
    (unlinked : CommitTask.isLinked child parentId = false)
    (repeats : task.Repeats (.update child.id (linkTo parentId))
      (C.update child.id (linkTo parentId)) s.catalog answers result catalog) :
    LinksChild parentId child answers (result.mapError (.ofRetry .childLink))
      { s with catalog := catalog }

/-- What is asked for to bring the parent up to date. -/
inductive UpdatesParent (child : Record) :
    List CatalogAnswer → Except CommitError Unit → CommitState σ → Prop where
  /-- There is no parent. -/
  | missing (missing : s.parent = none) : UpdatesParent child [] (.error .parentMissing) s
  /-- Nothing changes. -/
  | unchanged {parent : Record} (cached : s.parent = some parent)
    (same : ((ParentUpdate.updateAll task.action.updates parent child).changedSince
      parent).isEmpty = true) :
    UpdatesParent child [] (.ok ()) s
  /-- The changes are sent. -/
  | updated {parent stored : Record} {answers : List CatalogAnswer} {catalog : σ}
    (cached : s.parent = some parent) {changes : Attributes}
    (changes_eq :
      changes = (ParentUpdate.updateAll task.action.updates parent child).changedSince parent)
    (differs : changes.isEmpty = false)
    (repeats : task.Repeats (.update parent.id changes) (C.update parent.id changes) s.catalog
      answers (.ok stored) catalog) :
    UpdatesParent child answers (.ok ()) ⟨some stored, catalog⟩
  /-- The changes are refused. -/
  | refused {parent : Record} {answers : List CatalogAnswer} {f : RetryFailure} {catalog : σ}
    (cached : s.parent = some parent) {changes : Attributes}
    (changes_eq :
      changes = (ParentUpdate.updateAll task.action.updates parent child).changedSince parent)
    (differs : changes.isEmpty = false)
    (repeats : task.Repeats (.update parent.id changes) (C.update parent.id changes) s.catalog
      answers (.error f) catalog) :
    UpdatesParent child answers (.error (.ofRetry .parentUpdate f)) { s with catalog := catalog }

/-- What a commit asks for, from the parent to its update. A step that fails is the last one. -/
inductive Commits : List CatalogAnswer → Except CommitError Record → CommitState σ → Prop where
  /-- There is no parent. -/
  | unresolved {parents : List CatalogAnswer} {e : CommitError} {after : CommitState σ}
    (resolving : Resolves C task s parents (.error e) after) : Commits parents (.error e) after
  /-- The child is not created. -/
  | uncreated {parents contents : List CatalogAnswer} {parentId : String} {e : CommitError}
    {resolved after : CommitState σ} (resolving : Resolves C task s parents (.ok parentId) resolved)
    (creating : CreatesChild C task resolved parentId contents (.error e) after) :
    Commits (parents ++ contents) (.error e) after
  /-- The child is not linked. -/
  | unlinked {parents contents links : List CatalogAnswer} {parentId : String} {child : Record}
    {e : CommitError} {resolved created after : CommitState σ}
    (resolving : Resolves C task s parents (.ok parentId) resolved)
    (creating : CreatesChild C task resolved parentId contents (.ok child) created)
    (linking : LinksChild C task created parentId child links (.error e) after) :
    Commits (parents ++ (contents ++ links)) (.error e) after
  /-- The parent is brought up to date, or not. -/
  | linked {parents contents links updates : List CatalogAnswer} {parentId : String}
    {child linked : Record} {result : Except CommitError Unit}
    {resolved created connected after : CommitState σ}
    (resolving : Resolves C task s parents (.ok parentId) resolved)
    (creating : CreatesChild C task resolved parentId contents (.ok child) created)
    (linking : LinksChild C task created parentId child links (.ok linked) connected)
    (updating : UpdatesParent C task connected linked updates result after) :
    Commits (parents ++ (contents ++ (links ++ updates))) (result.map fun _ => linked) after

variable (log : List CatalogAnswer)

theorem resolveParent_recorded :
    ∃ answers result after, Resolves C task s answers result after ∧
      task.resolveParent C s = (result, after) ∧
      task.resolveParent C.recorded (s.withLog log) = (result, after.withLog (log ++ answers)) := by
  rcases s with ⟨_ | parent, catalog⟩
  · obtain ⟨answers, result, after, hrepeats, hplain, hrecorded⟩ := task.repeated_recording
      .parentCreate (.create (task.action.settings.parentRecord task.now))
      (C.create (task.action.settings.parentRecord task.now)) catalog log
    cases result with
    | ok parent =>
      refine ⟨answers, _, _, .created rfl hrepeats, ?_, ?_⟩
      · simp only [resolveParent, hplain]
        rfl
      · simp only [resolveParent, CommitState.withLog, Catalog.recorded, hrecorded]
        rfl
    | error f =>
      refine ⟨answers, _, _, .refused rfl hrepeats, ?_, ?_⟩
      · simp only [resolveParent, hplain]
        rfl
      · simp only [resolveParent, CommitState.withLog, Catalog.recorded, hrecorded]
        rfl
  · refine ⟨[], _, _, .known rfl, rfl, ?_⟩
    rw [List.append_nil]
    rfl

theorem createChild_recorded (parentId : String) :
    ∃ answers result after, CreatesChild C task s parentId answers result after ∧
      task.createChild C parentId s = (result, after) ∧
      task.createChild C.recorded parentId (s.withLog log) =
        (result, after.withLog (log ++ answers)) :=
  ⟨_, _, _, .asked rfl, rfl, rfl⟩

theorem linkChild_recorded (parentId : String) (child : Record) :
    ∃ answers result after, LinksChild C task s parentId child answers result after ∧
      task.linkChild C parentId child s = (result, after) ∧
      task.linkChild C.recorded parentId child (s.withLog log) =
        (result, after.withLog (log ++ answers)) := by
  cases hlinked : isLinked child parentId with
  | true =>
    refine ⟨[], _, _, .linked hlinked, ?_, ?_⟩
    · rw [linkChild, if_pos hlinked]
    · rw [linkChild, if_pos hlinked, List.append_nil]
  | false =>
    obtain ⟨answers, result, after, hrepeats, hplain, hrecorded⟩ := task.repeated_recording
      .childLink (.update child.id (linkTo parentId)) (C.update child.id (linkTo parentId))
      s.catalog log
    refine ⟨answers, _, _, .asked hlinked hrepeats, ?_, ?_⟩
    · rw [linkTo] at hplain
      simp only [linkChild, hlinked, Bool.false_eq_true, if_false, hplain]
    · rw [linkTo] at hrecorded
      simp only [linkChild, hlinked, Bool.false_eq_true, if_false, CommitState.withLog,
        Catalog.recorded, hrecorded]

theorem updateParent_recorded (child : Record) :
    ∃ answers result after, UpdatesParent C task s child answers result after ∧
      task.updateParent C child s = (result, after) ∧
      task.updateParent C.recorded child (s.withLog log) =
        (result, after.withLog (log ++ answers)) := by
  rcases s with ⟨_ | parent, catalog⟩
  · refine ⟨[], _, _, .missing rfl, rfl, ?_⟩
    rw [List.append_nil]
    rfl
  · obtain ⟨changes, hchanges⟩ : ∃ changes,
        changes = (ParentUpdate.updateAll task.action.updates parent child).changedSince parent :=
      ⟨_, rfl⟩
    cases hempty : changes.isEmpty with
    | true =>
      refine ⟨[], _, _, .unchanged rfl (hchanges ▸ hempty), ?_, ?_⟩
      · simp only [updateParent, ← hchanges, hempty, if_true]
      · simp only [updateParent, CommitState.withLog, ← hchanges, hempty, if_true, List.append_nil]
    | false =>
      obtain ⟨answers, result, after, hrepeats, hplain, hrecorded⟩ := task.repeated_recording
        .parentUpdate (.update parent.id changes) (C.update parent.id changes) catalog log
      cases result with
      | ok stored =>
        refine ⟨answers, _, _, .updated rfl hchanges hempty hrepeats, ?_, ?_⟩
        · simp only [updateParent, ← hchanges, hempty, Bool.false_eq_true, if_false, hplain]
          rfl
        · simp only [updateParent, CommitState.withLog, Catalog.recorded, ← hchanges, hempty,
            Bool.false_eq_true, if_false, hrecorded]
          rfl
      | error f =>
        refine ⟨answers, _, _, .refused rfl hchanges hempty hrepeats, ?_, ?_⟩
        · simp only [updateParent, ← hchanges, hempty, Bool.false_eq_true, if_false, hplain]
          rfl
        · simp only [updateParent, CommitState.withLog, Catalog.recorded, ← hchanges, hempty,
            Bool.false_eq_true, if_false, hrecorded]
          rfl

/-- A commit over a catalog that records goes as it does over the catalog, and what is recorded is
what it asks for. -/
theorem run_recorded :
    ∃ answers result after, Commits C task s answers result after ∧
      task.run C s = (result, after) ∧
      task.run C.recorded (s.withLog log) = (result, after.withLog (log ++ answers)) := by
  obtain ⟨parents, _ | parentId, resolved, hresolves, hplain₁, hrecorded₁⟩ :=
    resolveParent_recorded C task s log
  · refine ⟨_, _, _, .unresolved hresolves, ?_, ?_⟩
    · simp only [run, hplain₁]
    · simp only [run, hrecorded₁]
  obtain ⟨contents, _ | child, created, hcreates, hplain₂, hrecorded₂⟩ :=
    createChild_recorded C task resolved (log ++ parents) parentId
  · refine ⟨_, _, _, .uncreated hresolves hcreates, ?_, ?_⟩
    · simp only [run, hplain₁, hplain₂]
    · simp only [run, hrecorded₁, hrecorded₂, ← List.append_assoc]
  obtain ⟨links, _ | linked, connected, hlinks, hplain₃, hrecorded₃⟩ :=
    linkChild_recorded C task created (log ++ parents ++ contents) parentId child
  · refine ⟨_, _, _, .unlinked hresolves hcreates hlinks, ?_, ?_⟩
    · simp only [run, hplain₁, hplain₂, hplain₃]
    · simp only [run, hrecorded₁, hrecorded₂, hrecorded₃, ← List.append_assoc]
  obtain ⟨updates, result, after, hupdates, hplain₄, hrecorded₄⟩ :=
    updateParent_recorded C task connected (log ++ parents ++ contents ++ links) linked
  refine ⟨_, _, _, .linked hresolves hcreates hlinks hupdates, ?_, ?_⟩
  · cases result <;> simp only [run, hplain₁, hplain₂, hplain₃, hplain₄] <;> rfl
  · cases result <;>
      simp only [run, hrecorded₁, hrecorded₂, hrecorded₃, hrecorded₄, ← List.append_assoc] <;> rfl

end CommitTask

/-! ## Requests for the child -/

/-- Whether the answer is to a request for a record with content. -/
def CatalogAnswer.isContent : CatalogAnswer → Bool
  | ⟨.createContent _, _⟩ => true
  | _ => false

/-- The number of requests for records with content. -/
def contentCount (answers : List CatalogAnswer) : ℕ := answers.countP CatalogAnswer.isContent

theorem contentCount_append (answers later : List CatalogAnswer) :
    contentCount (answers ++ later) = contentCount answers + contentCount later :=
  List.countP_append

namespace CommitTask

variable {C : Catalog σ} {task : CommitTask} {s after : CommitState σ}
  {answers : List CatalogAnswer}

/-- A request for something else is none for the child, however often it is made. -/
theorem Repeats.contentCount_eq {request : CatalogRequest}
    {call : σ → Except CatalogError Record × σ} {catalog catalog' : σ}
    {result : Except RetryFailure Record}
    (h : task.Repeats request call catalog answers result catalog')
    (hother : ∀ outcome, CatalogAnswer.isContent ⟨request, outcome⟩ = false) :
    contentCount answers = 0 := by
  obtain ⟨calls, -, rfl, -⟩ := h
  refine List.countP_eq_zero.2 fun answer hanswer => ?_
  obtain ⟨n, -, rfl⟩ := List.mem_map.1 hanswer
  rw [hother]
  exact Bool.false_ne_true

theorem Resolves.contentCount_eq {result : Except CommitError String}
    (h : Resolves C task s answers result after) : contentCount answers = 0 := by
  cases h with
  | known => rfl
  | created _ repeats => exact repeats.contentCount_eq fun _ => rfl
  | refused _ repeats => exact repeats.contentCount_eq fun _ => rfl

theorem CreatesChild.contentCount_eq {parentId : String} {result : Except CommitError Record}
    (h : CreatesChild C task s parentId answers result after) : contentCount answers = 1 := by
  cases h
  rfl

theorem LinksChild.contentCount_eq {parentId : String} {child : Record}
    {result : Except CommitError Record}
    (h : LinksChild C task s parentId child answers result after) : contentCount answers = 0 := by
  cases h with
  | linked => rfl
  | asked _ repeats => exact repeats.contentCount_eq fun _ => rfl

theorem UpdatesParent.contentCount_eq {child : Record} {result : Except CommitError Unit}
    (h : UpdatesParent C task s child answers result after) : contentCount answers = 0 := by
  cases h with
  | missing => rfl
  | unchanged => rfl
  | updated _ _ _ repeats => exact repeats.contentCount_eq fun _ => rfl
  | refused _ _ _ repeats => exact repeats.contentCount_eq fun _ => rfl

/-- The child is asked for once, unless there is no parent. -/
theorem Commits.contentCount_le {result : Except CommitError Record}
    (h : Commits C task s answers result after) : contentCount answers ≤ 1 := by
  cases h with
  | unresolved resolving => rw [resolving.contentCount_eq]; exact Nat.zero_le 1
  | uncreated resolving creating =>
    rw [contentCount_append, resolving.contentCount_eq, creating.contentCount_eq]
  | unlinked resolving creating linking =>
    rw [contentCount_append, contentCount_append, resolving.contentCount_eq,
      creating.contentCount_eq, linking.contentCount_eq]
  | linked resolving creating linking updating =>
    rw [contentCount_append, contentCount_append, contentCount_append, resolving.contentCount_eq,
      creating.contentCount_eq, linking.contentCount_eq, updating.contentCount_eq]

/-- A request that is repeated is made up to its first final outcome, within the budget, and comes
out as that says. A commit asks so for its parent, for the link of the child and for the update of
the parent; it asks at most once for the child. -/
theorem requests_follow_law :
    (∀ {α : Type} (task : CommitTask) (request : CommitRequest)
      (outcomes : ℕ → Except CatalogError α),
      ∃ result,
        FollowsLaw task.budget outcomes (task.repeated request (scripted outcomes) 0).2 result ∧
        (task.repeated request (scripted outcomes) 0).1 = result.mapError (.ofRetry request)) ∧
    (∀ {σ : Type} (C : Catalog σ) (task : CommitTask) (s : CommitState σ),
      ∃ answers, Commits C task s answers (task.run C s).1 (task.run C s).2 ∧
        task.run C.recorded (s.withLog []) =
          ((task.run C s).1, (task.run C s).2.withLog answers) ∧
        contentCount answers ≤ 1) := by
  refine ⟨repeated_scripted, fun C task s => ?_⟩
  obtain ⟨answers, result, after, hcommits, hplain, hrecorded⟩ := run_recorded C task s []
  rw [hplain]
  exact ⟨answers, hcommits, hrecorded, hcommits.contentCount_le⟩

end CommitTask

end StreamCatalog
