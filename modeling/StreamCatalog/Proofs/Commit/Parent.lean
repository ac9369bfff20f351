import StreamCatalog.Proofs.Commit.Consistency

/-!
# The parent keeps its identifier

The first commit that creates a parent gives it its identifier. From there every
step of every commit, begun at whatever stage, leaves a parent of the same
identifier (`Catalog.Keeper.keepsParent_step`), and so do whole commits
(`Catalog.Keeper.keepsParent_run`). What makes it so is that the catalog has under
the identifier of the parent no record of another identifier.
-/

namespace StreamCatalog

/-- Whether a record that is stored under an identifier has it. -/
def Records.Names (rs : Records) (id : String) : Prop :=
  ∀ r : Record, rs[id]? = some r → r.id = id

namespace Records

theorem Names.insert {rs : Records} {id : String} (h : rs.Names id) {key : String} {r : Record}
    (hr : key = id → r.id = id) : Records.Names (rs.insert key r) id := by
  intro stored hstored
  by_cases heq : key = id
  · subst heq
    rw [Std.ExtTreeMap.getElem?_insert_self] at hstored
    cases hstored
    exact hr rfl
  · rw [getElem?_insert_of_ne heq] at hstored
    exact h stored hstored

end Records

/-- Whether the cached parent is known to the catalog under no other identifier. -/
def CommitView.Names (v : CommitView) : Prop :=
  ∀ p, v.parent = some p → v.records.Names p.id

namespace CommitMove

variable [GeometryKernel] {task : CommitTask} {stage stage' : CommitStage} {v w : CommitView}

/-- No step stores a record under the identifier of another one. -/
theorem names {id : String} (hmove : CommitMove task stage v stage' w) (h : v.records.Names id) :
    w.records.Names id := by
  cases hmove with
  | parentCreated | childCreated => exact h.insert fun hid => hid
  | childRelinked _ c _ rs r found => exact h.insert fun hid => h r (hid ▸ found)
  | parentUpdated c p rs r stored found updated =>
    exact h.insert fun hid => updated ▸ h r (hid ▸ found)
  | _ => exact h

/-- A step leaves the parent its identifier. -/
theorem parentId?_eq (hmove : CommitMove task stage v stage' w) (h : v.Names) {id : String}
    (hid : v.parentId? = some id) : w.parentId? = some id := by
  cases hmove with
  | parentUpdated c p rs r stored found updated =>
    have hsame : stored.id = p.id := updated ▸ h p rfl r found
    exact (congrArg some hsame).trans hid
  | parentCreated => cases hid
  | _ => exact hid

/-- The catalog knows the parent after a step under no other identifier. -/
theorem names_parent (hmove : CommitMove task stage v stage' w) (h : v.Names) : w.Names := by
  intro q hq
  cases hmove with
  | parentCreated p rs fresh asked =>
    cases hq
    intro r hr
    rw [Std.ExtTreeMap.getElem?_insert_self] at hr
    cases hr
    rfl
  | parentUpdated c p rs r stored found updated =>
    cases hq
    have hsame : q.id = p.id := updated ▸ h p rfl r found
    rw [hsame]
    exact Records.Names.insert (h p rfl) fun _ => hsame
  | childCreated _ _ _ c => exact (h q hq).insert fun hid => hid
  | childRelinked _ c _ rs r found => exact (h q hq).insert fun hid => h q hq r (hid ▸ found)
  | _ => exact h q hq

end CommitMove

namespace Catalog.Keeper

variable {σ : Type} {C : Catalog σ}

/-- Whether a sound catalog knows the parent under no other identifier. -/
structure NamesParent (K : C.Keeper) (s : CommitState σ) : Prop where
  /-- The catalog is sound. -/
  sound : K.Sound s.catalog
  /-- It knows the parent under no other identifier. -/
  names : (K.view s).Names

/-- Whether something that was done to a stream left its parent the identifier. -/
structure KeepsParent (K : C.Keeper) (s t : CommitState σ) : Prop where
  /-- The catalog knows the parent under no other identifier. -/
  namesParent : K.NamesParent t
  /-- The identifier is the same. -/
  id_eq : ∀ id, (K.view s).parentId? = some id → (K.view t).parentId? = some id

variable {K : C.Keeper} {s t u : CommitState σ}

theorem NamesParent.keepsParent (h : K.NamesParent s) : K.KeepsParent s s := ⟨h, fun _ hid => hid⟩

theorem KeepsParent.trans (hst : K.KeepsParent s t) (htu : K.KeepsParent t u) :
    K.KeepsParent s u :=
  ⟨htu.namesParent, fun id hid => htu.id_eq id (hst.id_eq id hid)⟩

variable [GeometryKernel]

/-- Every step of a commit keeps the parent, whichever stage it begins at. -/
theorem keepsParent_step (task : CommitTask) (stage : CommitStage) (h : K.NamesParent s) :
    K.KeepsParent s (task.step C stage s).2 := by
  obtain ⟨hsound, hmove⟩ := step_spec task h.sound stage
  exact ⟨⟨hsound, hmove.names_parent h.names⟩, fun _ => hmove.parentId?_eq h.names⟩

theorem keepsParent_steps (task : CommitTask) (n : Nat) (stage : CommitStage)
    (h : K.NamesParent s) : K.KeepsParent s (task.steps C n stage s).2 := by
  induction n generalizing stage s with
  | zero => exact h.keepsParent
  | succ n ih =>
    have hstep := keepsParent_step task stage h
    exact hstep.trans (ih _ hstep.namesParent)

/-- So does a whole commit. -/
theorem keepsParent_run (task : CommitTask) (h : K.NamesParent s) :
    K.KeepsParent s (task.run C s).2 := by
  have hsteps := keepsParent_steps task 4 .start h
  rwa [CommitTask.steps_start] at hsteps

/-- The step of a commit for another stream leaves the parent, too. -/
theorem NamesParent.step_of_other (h : K.NamesParent s) (task : CommitTask) (stage : CommitStage)
    (parent : Option Record) :
    K.KeepsParent s { s with catalog := (task.step C stage ⟨parent, s.catalog⟩).2.catalog } := by
  obtain ⟨hsound, hmove⟩ := step_spec (s := ⟨parent, s.catalog⟩) task h.sound stage
  exact ⟨⟨hsound, fun p hp => hmove.names (h.names p hp)⟩, fun _ hid => hid⟩

end Catalog.Keeper

end StreamCatalog
