import Mathlib.Logic.Relation
import StreamCatalog.Proofs.Commit.Consistency

/-!
# Commits in any order of their steps

Commits of several chunks share a cached parent and a catalog, and their steps
come in any order, while the catalog may refuse whatever it likes between them.
No update of the parent is lost (`CommitPool.NothingLost`). When no commit is
running, a child that is linked to the parent is listed and lies within its
bounds, unless the update of its own commit was refused.
-/

namespace StreamCatalog

/-- Commits that share a cached parent and a catalog. -/
structure CommitPool (ι σ : Type) where
  /-- How far each commit has come. -/
  stage : ι → CommitStage
  /-- The identifier of the child that each commit has created. -/
  child : ι → Option String
  /-- What the commits share. -/
  shared : CommitState σ

namespace CommitPool

variable {ι σ : Type} [DecidableEq ι] {C : Catalog σ}

/-- Before the first step. -/
def initial (ι : Type) (catalog : σ) : CommitPool ι σ :=
  ⟨fun _ => .start, fun _ => none, ⟨none, catalog⟩⟩

/-- The next step of one commit. -/
def advance [GeometryKernel] (C : Catalog σ) (tasks : ι → CommitTask) (i : ι)
    (pool : CommitPool ι σ) : CommitPool ι σ :=
  let (stage, shared) := (tasks i).step C (pool.stage i) pool.shared
  ⟨Function.update pool.stage i stage,
    Function.update pool.child i (stage.childId?.or (pool.child i)), shared⟩

/-- Steps of several commits, one after the other. -/
def advanceAll [GeometryKernel] (C : Catalog σ) (tasks : ι → CommitTask) (is : List ι)
    (pool : CommitPool ι σ) : CommitPool ι σ :=
  is.foldl (fun pool i => pool.advance C tasks i) pool

/-- What can happen next: a commit takes a step, or the catalog changes in something other than its
records, such as in what it will refuse. -/
inductive Step [GeometryKernel] (K : C.Keeper) (tasks : ι → CommitTask) :
    CommitPool ι σ → CommitPool ι σ → Prop where
  /-- A commit takes a step. -/
  | advance (pool : CommitPool ι σ) (i : ι) : Step K tasks pool (pool.advance C tasks i)
  /-- The catalog changes, and keeps its records. -/
  | elsewhere (pool : CommitPool ι σ) (catalog : σ) (sound : K.Sound catalog)
      (same : K.records catalog = K.records pool.shared.catalog) :
    Step K tasks pool { pool with shared := { pool.shared with catalog := catalog } }

/-- The pools that steps in any order lead to. -/
abbrev Reaches [GeometryKernel] (K : C.Keeper) (tasks : ι → CommitTask) :
    CommitPool ι σ → CommitPool ι σ → Prop :=
  Relation.ReflTransGen (Step K tasks)

theorem reaches_advanceAll [GeometryKernel] (K : C.Keeper) (tasks : ι → CommitTask)
    (is : List ι) (pool : CommitPool ι σ) : Reaches K tasks pool (pool.advanceAll C tasks is) := by
  induction is generalizing pool with
  | nil => exact .refl
  | cons i is ih => exact .head (.advance pool i) (ih _)

/-- Whether no commit is running. -/
def IsIdle (pool : CommitPool ι σ) : Prop :=
  ∀ i, (pool.stage i).isRunning = false

variable {K : C.Keeper} {tasks : ι → CommitTask} {pool : CommitPool ι σ} {catalog : σ}

/-- Steps in any order keep the commits consistent and the catalog sound. -/
theorem Reaches.consistent [GeometryKernel] (hcomplete : ∀ i, (tasks i).action.IsComplete)
    (hsound : K.Sound catalog) (h : Reaches K tasks (initial ι catalog) pool) :
    K.Sound pool.shared.catalog ∧
      Consistent tasks (K.records catalog) pool.stage pool.child (K.view pool.shared) := by
  induction h with
  | refl => exact ⟨hsound, .initial tasks _⟩
  | tail _ hstep ih =>
    obtain ⟨hsound, hconsistent⟩ := ih
    cases hstep with
    | advance i =>
      obtain ⟨hafter, hmove⟩ := Catalog.Keeper.step_spec (tasks i) hsound (CommitPool.stage _ i)
      exact ⟨hafter, hconsistent.move (hcomplete i) rfl hmove⟩
    | elsewhere catalog' sound same =>
      refine ⟨sound, ?_⟩
      rw [Catalog.Keeper.view, same]
      exact hconsistent

/-! ## No lost update -/

/-- What commits keep true of parent and children. -/
structure NothingLost (K : C.Keeper) (tasks : ι → CommitTask) (before : Records)
    (pool : CommitPool ι σ) : Prop where
  /-- At most one parent record is created: the cached one. -/
  one_parent : ∀ (id : String) r, (K.records pool.shared.catalog)[id]? = some r →
    r.kind = .parent → before[id]? = some r ∨ pool.shared.parent = some r
  /-- No commit misses the parent. -/
  not_missing : ∀ i, pool.stage i ≠ .finished (.error .parentMissing)
  /-- The parent is cached as it is stored. -/
  cached : ∀ p, pool.shared.parent = some p →
    (K.records pool.shared.catalog)[p.id]? = some p
  /-- Each commit that has succeeded has its child, linked to the parent and stored so. -/
  result : ∀ i c, (pool.stage i).result? = some c → (tasks i).Describes c ∧
    (K.records pool.shared.catalog)[c.id]? = some c ∧
    ∃ p, pool.shared.parent = some p ∧ c.list? AttributeName.derived = some [p.id]
  /-- Different commits have different children. -/
  result_inj : ∀ i j c d, (pool.stage i).result? = some c → (pool.stage j).result? = some d →
    c.id = d.id → i = j
  /-- The parent lists no child twice. -/
  nodup : ∀ p, pool.shared.parent = some p → ((p.list? AttributeName.related).getD []).Nodup
  /-- The parent lists exactly the children of the commits that have succeeded. -/
  mem_related_iff : ∀ p, pool.shared.parent = some p → ∀ id,
    id ∈ (p.list? AttributeName.related).getD [] ↔
      ∃ i c, (pool.stage i).result? = some c ∧ c.id = id
  /-- The parent starts with the first of these children. -/
  start_iff : ∀ p, pool.shared.parent = some p → ∀ t,
    p.date? AttributeName.temporalStart = some t ↔
      IsLeast {u | ∃ i c, (pool.stage i).result? = some c ∧
        c.date? AttributeName.temporalStart = some u} t
  /-- The parent ends with the last of these children. -/
  finish_iff : ∀ p, pool.shared.parent = some p → ∀ t,
    p.date? AttributeName.temporalEnd = some t ↔
      IsGreatest {u | ∃ i c, (pool.stage i).result? = some c ∧
        c.date? AttributeName.temporalEnd = some u} t
  /-- The parent has bounds once there is a child. -/
  bounded : ∀ p, pool.shared.parent = some p → ∀ i, (pool.stage i).result?.isSome →
    (p.date? AttributeName.temporalStart).isSome ∧ (p.date? AttributeName.temporalEnd).isSome

/-- Commits with complete rules lose no update of their parent, in whatever order their steps come
and whatever the catalog refuses. -/
theorem nothing_lost [GeometryKernel] (hcomplete : ∀ i, (tasks i).action.IsComplete)
    (hsound : K.Sound catalog)
    (hreaches : Reaches K tasks (initial ι catalog) pool) :
    NothingLost K tasks (K.records catalog) pool := by
  obtain ⟨-, h⟩ := hreaches.consistent hcomplete hsound
  obtain ⟨order, hlisted⟩ := h.listed
  have hstart := fun u => h.mem_times_iff hlisted Chunk.start (fun _ _ hc => hc.start_eq) u
  have hfinish := fun u => h.mem_times_iff hlisted Chunk.finish (fun _ _ hc => hc.finish_eq) u
  constructor
  case one_parent =>
    intro id r hr hkind
    rcases h.eq_of_new id r hr with hold | hid | ⟨i, hi⟩
    · exact .inl hold
    · obtain ⟨p, hp, rfl⟩ := Option.map_eq_some_iff.1 hid
      obtain rfl : p = r := Option.some.inj ((h.parent_spec p hp).2.1.symm.trans hr)
      exact .inr hp
    · obtain ⟨-, -, r', hr', -, hdescribes⟩ := h.child_spec i id hi
      obtain rfl : r = r' := Option.some.inj (hr.symm.trans hr')
      cases hkind.symm.trans hdescribes.kind_eq
  case not_missing =>
    intro i hi
    have hfits := h.fits i
    rw [hi] at hfits
    exact hfits.1 rfl
  case cached => exact fun p hp => (h.parent_spec p hp).2.1
  case result =>
    intro i c hc
    obtain ⟨-, hr, hdescribes, hparent⟩ := h.result_spec hc
    exact ⟨hdescribes, hr, hparent⟩
  case result_inj =>
    intro i j c d hc hd hid
    exact h.child_inj i j c.id (h.result_spec hc).1 (hid ▸ (h.result_spec hd).1)
  case nodup => exact fun p hp => h.nodup_related hlisted hp
  case mem_related_iff => exact fun p hp => h.mem_related_iff hlisted hp
  case start_iff =>
    intro p hp t
    rw [hlisted.start_eq p hp, min?_eq_some_iff_isLeast]
    simp only [hstart]
  case finish_iff =>
    intro p hp t
    rw [hlisted.finish_eq p hp, max?_eq_some_iff_isGreatest]
    simp only [hfinish]
  case bounded =>
    intro p hp i hi
    have hne : order ≠ [] := List.ne_nil_of_mem ((hlisted.mem_iff i).2 hi)
    rw [hlisted.start_eq p hp, hlisted.finish_eq p hp, List.isSome_min?_iff, List.isSome_max?_iff]
    simpa using hne

/-- A commit of a chunk with a byte of content that lasts from the tenth second. -/
private def sampleTask (sequence : Nat) : CommitTask where
  action := .standard (.standard "Stream" "udp://127.0.0.1:50000")
  chunk := ⟨sequence, ⟨10, 0⟩, ⟨10 + sequence, 0⟩, 1, []⟩
  source := ⟨"chunk.ts", some [0x47]⟩
  now := ⟨30, 0⟩

/-- A catalog that fails with the first update, and perhaps drops links. -/
private def sampleCatalog (failure : CatalogError) (dropsLink : Bool) : MemoryCatalog :=
  { MemoryCatalog.empty with
    updateFailures := [failure]
    dropped := if dropsLink then some AttributeName.derived else none }

private theorem sampleCatalog_isSound (failure : CatalogError) (dropsLink : Bool) :
    (sampleCatalog failure dropsLink).IsSound where
  free _ _ _ := Std.ExtTreeMap.getElem?_empty
  dropped_eq _ h := by
    cases dropsLink with
    | true => exact (Option.some.inj h).symm
    | false => cases h

/-- Two commits that create their children before either updates the parent. -/
theorem nothing_lost_interleaved :
    let start : CommitPool Bool MemoryCatalog := initial Bool (sampleCatalog (.unavailable "busy") true)
    let tasks : Bool → CommitTask := fun second => sampleTask (if second then 2 else 1)
    NothingLost MemoryCatalog.keeper tasks ∅ (start.advanceAll MemoryCatalog.catalog tasks
      [false, true, false, true, true, false, true, false]) :=
  nothing_lost (K := MemoryCatalog.keeper) (fun _ => CommitAction.standard_isComplete _)
    (sampleCatalog_isSound _ _) (reaches_advanceAll _ _ _ _)

/-! ## Covered children -/

/-- When no commit is running, a child that is linked to the parent is listed there and lies within
its bounds, unless its own commit ended with a refused update of the parent. Then it is not
listed. -/
theorem children_covered [GeometryKernel] (hcomplete : ∀ i, (tasks i).action.IsComplete)
    (hsound : K.Sound catalog) (hreaches : Reaches K tasks (initial ι catalog) pool)
    (hidle : pool.IsIdle) {p r : Record} {id : String} (hp : pool.shared.parent = some p)
    (hr : (K.records pool.shared.catalog)[id]? = some r) (hnew : (K.records catalog)[id]? = none)
    (hkind : r.kind = .child) (hlink : p.id ∈ (r.list? AttributeName.derived).getD []) :
    (K.records pool.shared.catalog)[p.id]? = some p ∧ ∃ i, pool.child i = some id ∧
      ((id ∈ (p.list? AttributeName.related).getD [] ∧ ∃ start first last finish,
          p.date? AttributeName.temporalStart = some start ∧
          r.date? AttributeName.temporalStart = some first ∧
          r.date? AttributeName.temporalEnd = some last ∧
          p.date? AttributeName.temporalEnd = some finish ∧ start ≤ first ∧ last ≤ finish) ∨
        id ∉ (p.list? AttributeName.related).getD [] ∧
          ∃ f, pool.stage i = .finished (.error (.ofRetry .parentUpdate f))) := by
  obtain ⟨-, h⟩ := hreaches.consistent hcomplete hsound
  obtain ⟨order, hlisted⟩ := h.listed
  obtain ⟨-, hstored, hparent⟩ := h.parent_spec p hp
  refine ⟨hstored, ?_⟩
  obtain ⟨i, hi⟩ := h.exists_child hr hnew hkind
  obtain ⟨-, -, r', hr', rfl, hdescribes⟩ := h.child_spec i id hi
  obtain rfl : r = r' := Option.some.inj (hr.symm.trans hr')
  refine ⟨i, hi, ?_⟩
  have hfits := h.fits i
  have hended := hidle i
  rcases hstage : pool.stage i with _ | _ | _ | _ | e | c <;> rw [hstage] at hended
  case resolved | created | linked => cases hended
  case start =>
    rw [hstage] at hfits
    cases hfits.symm.trans hi
  case finished.error =>
    -- The commit knows its linked child, so only the update can have been refused.
    right
    constructor
    · intro hmem
      obtain ⟨j, c, hc, hid⟩ := (h.mem_related_iff hlisted hp r.id).1 hmem
      have hji : j = i := h.child_inj j i r.id (hid ▸ (h.result_spec hc).1) hi
      rw [hji, hstage] at hc
      cases hc
    · rw [hstage] at hfits
      obtain ⟨r', parentId, hr'', -, hderived⟩ := hfits.2 r.id hi
      obtain rfl : r = r' := Option.some.inj (hr.symm.trans hr'')
      rcases hderived with hderived | ⟨-, f, rfl⟩
      · rw [hderived] at hlink
        cases hlink
      · exact ⟨f, rfl⟩
  case finished.ok =>
    left
    have hc : (pool.stage i).result? = some c := by rw [hstage]; rfl
    obtain ⟨hci, hcr, -⟩ := h.result_spec hc
    have hid : c.id = r.id := Option.some.inj (hci.symm.trans hi)
    have hmem : i ∈ order := (hlisted.mem_iff i).2 (by rw [hc]; rfl)
    have hrelated := (h.mem_related_iff hlisted hp r.id).2 ⟨i, c, hc, hid⟩
    obtain ⟨start, finish, hstart, hfinish, hfirst, hlast⟩ := hlisted.exists_bounds hp hmem
    exact ⟨hrelated, start, (tasks i).chunk.start, (tasks i).chunk.finish, finish, hstart,
      hdescribes.start_eq, hdescribes.finish_eq, hfinish, hfirst, hlast⟩

/-- Two commits one after the other, of which the first has its update rejected. -/
private def rejectedPool : CommitPool Bool MemoryCatalog :=
  (initial Bool (sampleCatalog (.rejected "schema") false)).advanceAll MemoryCatalog.catalog
    (fun second => sampleTask (if second then 2 else 1))
    [false, false, false, false, true, true, true, true]

/-- The child of the first commit stays unlisted. -/
theorem children_covered_after_rejection :
    ∃ p r : Record, rejectedPool.shared.catalog.records[p.id]? = some p ∧
      ∃ i, rejectedPool.child i = some "child-2" ∧
      (("child-2" ∈ (p.list? AttributeName.related).getD [] ∧ ∃ start first last finish,
          p.date? AttributeName.temporalStart = some start ∧
          r.date? AttributeName.temporalStart = some first ∧
          r.date? AttributeName.temporalEnd = some last ∧
          p.date? AttributeName.temporalEnd = some finish ∧ start ≤ first ∧ last ≤ finish) ∨
        "child-2" ∉ (p.list? AttributeName.related).getD [] ∧
          ∃ f, rejectedPool.stage i = .finished (.error (.ofRetry .parentUpdate f))) := by
  have hidle : rejectedPool.IsIdle := by
    intro i
    cases i <;> decide +kernel
  obtain ⟨p, hp⟩ : ∃ p, rejectedPool.shared.parent = some p :=
    Option.isSome_iff_exists.1 (by decide +kernel)
  obtain ⟨r, hr⟩ : ∃ r, rejectedPool.shared.catalog.records["child-2"]? = some r :=
    Option.isSome_iff_exists.1 (by decide +kernel)
  have hkind : rejectedPool.shared.catalog.records["child-2"]?.map (·.kind) = some .child := by
    decide +kernel
  have hlink : rejectedPool.shared.catalog.records["child-2"]?.bind
      (·.list? AttributeName.derived) = rejectedPool.shared.parent.map fun p => [p.id] := by
    decide +kernel
  rw [hr] at hkind hlink
  rw [hp] at hlink
  refine ⟨p, r, children_covered (K := MemoryCatalog.keeper)
    (fun _ => CommitAction.standard_isComplete _) (sampleCatalog_isSound _ _)
    (reaches_advanceAll _ _ _ _) hidle hp hr Std.ExtTreeMap.getElem?_empty
    (Option.some.inj hkind) ?_⟩
  rw [show r.list? AttributeName.derived = some [p.id] from hlink]
  exact List.mem_singleton_self _

/-- A commit whose update of the parent is rejected leaves its child linked to the parent, which
neither lists it nor has bounds. -/
theorem rejected_update_leaves_child :
    let after := ((sampleTask 1).run MemoryCatalog.catalog
      ⟨none, sampleCatalog (.rejected "schema") false⟩).2
    let stored := after.catalog.records["parent-1"]?
    let child := after.catalog.records["child-2"]?
    after.parent.map (·.id) = some "parent-1" ∧ child.map (·.kind) = some .child ∧
      child.bind (·.list? AttributeName.derived) = some ["parent-1"] ∧
      stored.map (·.list? AttributeName.related) = some none ∧
      stored.map (·.date? AttributeName.temporalStart) = some none ∧
      stored.map (·.date? AttributeName.temporalEnd) = some none := by
  decide +kernel

end CommitPool

end StreamCatalog
