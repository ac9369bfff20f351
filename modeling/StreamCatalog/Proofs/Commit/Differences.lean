import StreamCatalog.Catalog.Stored
import StreamCatalog.Proofs.Commit.Moves
import StreamCatalog.Proofs.Database.Tables
import StreamCatalog.Proofs.Record.Equality

/-!
# Updates that send the changes only

A commit sends what its rules have changed of the parent, and keeps the answer as the
parent. If the catalog holds the parent that is kept, up to equality of values, what is
kept then is the parent that the rules make, and a catalog in memory holds it, too
(`CommitTask.updateParent_memory`). A catalog in a database stores it as text: it
holds it just when all its values are read back as equal ones
(`CommitTask.updateParent_stored`).
-/

namespace StreamCatalog

/-! ## What the rules make of the parent -/

namespace ParentUpdate

/-- Rules set attributes, and do nothing else. -/
theorem exists_setAll (us : List ParentUpdate) (parent child : Record) :
    ∃ sets, updateAll us parent child = parent.setAll sets := by
  induction us generalizing parent with
  | nil => exact ⟨[], rfl⟩
  | cons u us ih =>
    obtain ⟨sets, hsets⟩ := ih (u.update parent child)
    have hfirst : ∃ first, u.update parent child = parent.setAll first := by
      rw [update, update?_eq]
      cases u.outcome? (parent.get? u.target) child with
      | none => exact ⟨[], rfl⟩
      | some value =>
        cases value with
        | none => exact ⟨[], rfl⟩
        | some value => exact ⟨[(u.target, value)], rfl⟩
    obtain ⟨first, hfirst⟩ := hfirst
    refine ⟨first ++ sets, ?_⟩
    rw [updateAll_cons, hsets, hfirst, Record.setAll, Record.setAll, Record.setAll, List.foldl_append]

end ParentUpdate

namespace CommitTask

variable {σ : Type} (task : CommitTask) (parent child : Record)

/-- The parent as the rules of a commit make it of the one that is kept. -/
def updated : Record := ParentUpdate.updateAll task.action.updates parent child

/-- What is sent of it. -/
def sent : Attributes := (task.updated parent child).changedSince parent

/-- The rules keep the identifier, the kind and all names. -/
theorem updated_spec : (task.updated parent child).id = parent.id ∧
    (task.updated parent child).kind = parent.kind ∧
      ∀ name, (task.updated parent child).get? name = none → parent.get? name = none := by
  obtain ⟨sets, hsets⟩ := ParentUpdate.exists_setAll task.action.updates parent child
  rw [updated, hsets]
  exact parent.setAll_spec sets

variable {task parent child}

/-- What is sent makes the updated parent of a record that is equal to the one that is kept. -/
theorem overlaid_sent_equals {stored : Record} (hstored : stored.Equals parent)
    (hupdated : (task.updated parent child).IsNumeric) :
    (stored.overlaid (task.sent parent child)).Equals (task.updated parent child) := by
  obtain ⟨hid, hkind, hnames⟩ := task.updated_spec parent child
  refine Record.overlaid_changedSince_equals hupdated (hstored.id_eq.trans hid.symm)
    (hstored.kind_eq.trans hkind.symm) (fun name hnone => ?_)
    fun name value hequal => BEq.trans (hstored.beq name) hequal
  have hbeq := hstored.beq name
  rw [hnames name hnone] at hbeq
  cases hvalue : stored.get? name with
  | none => rfl
  | some value =>
    rw [hvalue] at hbeq
    cases hbeq

/-- Where nothing is sent, such a record is equal to the updated parent already. -/
theorem equals_updated_of_isEmpty {stored : Record} (hstored : stored.Equals parent)
    (hupdated : (task.updated parent child).IsNumeric)
    (hempty : (task.sent parent child).isEmpty = true) :
    stored.Equals (task.updated parent child) := by
  have h := overlaid_sent_equals hstored hupdated
  refine ⟨h.id_eq, h.kind_eq, fun name => ?_⟩
  have hbeq := h.beq name
  rwa [Record.get?_overlaid, Std.ExtTreeMap.isEmpty_iff.1 hempty, Std.ExtTreeMap.getElem?_empty,
    Option.none_or] at hbeq

/-! ## Requests -/

section requests

variable {C : Catalog σ} {s : CommitState σ}

theorem updateParent_of_isEmpty (hparent : s.parent = some parent)
    (hempty : (task.sent parent child).isEmpty = true) :
    task.updateParent C child s = (.ok (), s) := by
  rw [updateParent, hparent]
  exact if_pos hempty

theorem updateParent_of_error {e : CommitError} {after : σ} (hparent : s.parent = some parent)
    (hsent : ¬(task.sent parent child).isEmpty = true)
    (hrepeated : task.repeated .parentUpdate (C.update parent.id (task.sent parent child)) s.catalog =
      (.error e, after)) :
    task.updateParent C child s = (.error e, ⟨some parent, after⟩) := by
  rw [updateParent, hparent]
  refine (if_neg hsent).trans ?_
  rw [sent, updated] at hrepeated
  rw [hrepeated]

theorem updateParent_of_ok {stored : Record} {after : σ} (hparent : s.parent = some parent)
    (hsent : ¬(task.sent parent child).isEmpty = true)
    (hrepeated : task.repeated .parentUpdate (C.update parent.id (task.sent parent child)) s.catalog =
      (.ok stored, after)) :
    task.updateParent C child s = (.ok (), ⟨some stored, after⟩) := by
  rw [updateParent, hparent]
  refine (if_neg hsent).trans ?_
  rw [sent, updated] at hrepeated
  rw [hrepeated]

/-- A request that is accepted at once is made once. -/
theorem repeated_of_ok {α : Type} {request : CommitRequest} {call : σ → Except CatalogError α × σ}
    {s after : σ} {a : α} (h : call s = (.ok a, after)) :
    task.repeated request call s = (.ok a, after) := by
  rw [repeated, retry, retryFrom, h]
  rfl

end requests

end CommitTask

/-- Whether a catalog gives a record that is equal to this one. -/
def Catalog.Holds {σ : Type} (C : Catalog σ) (s : σ) (r : Record) : Prop :=
  ∃ stored, C.get r.id s = .ok (some stored) ∧ stored.Equals r

/-- A catalog that holds a record holds all equal ones. -/
theorem Catalog.holds_congr {σ : Type} {C : Catalog σ} {s : σ} {r r' : Record} (h : r.Equals r') :
    C.Holds s r ↔ C.Holds s r' := by
  rw [Holds, Holds, h.id_eq]
  exact exists_congr fun stored => and_congr_right fun _ =>
    ⟨fun hstored => hstored.trans h, fun hstored => hstored.trans h.symm⟩

/-! ## A catalog in memory -/

namespace CommitTask

variable {task : CommitTask} {parent child : Record}

/-- A catalog in memory that holds the parent holds the updated one after an update that succeeds,
and what it held after one that fails. -/
theorem updateParent_memory {s : CommitState MemoryCatalog} (hparent : s.parent = some parent)
    (hholds : MemoryCatalog.catalog.Holds s.catalog parent)
    (hupdated : (task.updated parent child).IsNumeric) :
    (∃ e after, task.updateParent MemoryCatalog.catalog child s = (.error e, ⟨some parent, after⟩) ∧
        after.records = s.catalog.records) ∨
      ∃ kept after, task.updateParent MemoryCatalog.catalog child s = (.ok (), ⟨some kept, after⟩) ∧
        kept.Equals (task.updated parent child) ∧
        MemoryCatalog.catalog.Holds after (task.updated parent child) := by
  obtain ⟨stored, hget, hstored⟩ := hholds
  have hid : (task.updated parent child).id = parent.id := (task.updated_spec parent child).1
  by_cases hempty : (task.sent parent child).isEmpty = true
  · refine .inr ⟨parent, s.catalog, ?_, ?_, stored, hid ▸ hget, ?_⟩
    · rw [updateParent_of_isEmpty hparent hempty, ← hparent]
    · exact equals_updated_of_isEmpty (hstored.symm.trans hstored) hupdated hempty
    · exact equals_updated_of_isEmpty hstored hupdated hempty
  · have hrefused : ∀ (c : MemoryCatalog) e, c.records = s.catalog.records →
        (c.update parent.id (task.sent parent child)).1 = .error e →
        (c.update parent.id (task.sent parent child)).2.records = s.catalog.records :=
      fun c e hc he => ((c.changed_update _ _).eq_of_refused he).trans hc
    rcases retry_cases hrefused task.action.settings.maxAttempts rfl with
      ⟨failure, after, hretry, hafter⟩ | ⟨last, kept, after, hlast, hcall, hretry⟩
    · refine .inl ⟨.ofRetry .parentUpdate failure, after, ?_, hafter⟩
      refine updateParent_of_error hparent hempty ?_
      rw [repeated, MemoryCatalog.catalog, hretry]
      rfl
    · have hchanged := last.changed_update parent.id (task.sent parent child)
      rw [hcall] at hchanged
      obtain ⟨r, hr, rfl, hrecords⟩ := hchanged.eq_of_ok rfl
      obtain rfl : r = stored := by
        rw [hlast] at hr
        exact Option.some.inj (hr.symm.trans (Except.ok.inj hget))
      have hkept := overlaid_sent_equals hstored hupdated
      refine .inr ⟨_, after, updateParent_of_ok hparent hempty ?_, hkept, _, ?_, hkept⟩
      · rw [repeated, MemoryCatalog.catalog, hretry]
        rfl
      · change Except.ok _ = _
        rw [hrecords, hid, Std.ExtTreeMap.getElem?_insert_self]

end CommitTask

/-! ## A catalog in a database -/

section AnyReader

variable [Json.NumberReader]

/-- Whether all values of a record are read back as equal ones. -/
structure Record.IsReadBack (r : Record) : Prop where
  /-- They do not nest too deep. -/
  height_le : r.attributes.toJson.height ≤ Json.maxDepth
  /-- Each is read back as an equal one. -/
  beq : ∀ name a, r.get? name = some a → ∃ b, a.reread? = some b ∧ (b == a) = true

theorem Record.get?_reread (r : Record) (name : String) :
    r.reread.get? name = (r.get? name).bind Attribute.reread? :=
  Attributes.getElem?_reread r.attributes name

/-- The record that is read for one is equal to it just when all its values are read back. -/
theorem Record.reread_equals_iff {r : Record} :
    Attributes.IsReadable r.attributes ∧ r.reread.Equals r ↔ r.IsReadBack := by
  constructor
  · rintro ⟨hreadable, hequals⟩
    refine ⟨hreadable.height_le, fun name a ha => ?_⟩
    obtain ⟨b, hb⟩ := Option.isSome_iff_exists.1 (hreadable.isSome_reread? name a ha)
    have hbeq := hequals.beq name
    rw [get?_reread, ha, Option.bind_some, hb] at hbeq
    exact ⟨b, hb, hbeq⟩
  · rintro ⟨hheight, hread⟩
    refine ⟨⟨hheight, fun name a ha => ?_⟩, rfl, rfl, fun name => ?_⟩
    · obtain ⟨b, hb, -⟩ := hread name a ha
      rw [hb]
      rfl
    · rw [get?_reread]
      cases ha : r.get? name with
      | none => rfl
      | some a =>
        obtain ⟨b, hb, hbeq⟩ := hread name a ha
        rw [Option.bind_some, hb]
        exact hbeq

namespace StoredCatalog

/-- The catalog with a record stored in the place of the one with its identifier. -/
def storing (c : StoredCatalog) (r : Record) : StoredCatalog :=
  { c with database := { c.database with records := c.database.records.insert r.id r.row } }

variable {c : StoredCatalog} {id : String} {r read : Record}

theorem get_eq_some_iff : c.get id = .ok (some r) ↔ c.database.get id = .ok (some r) := by
  rw [get]
  cases c.database.get id with
  | error e => exact iff_of_false nofun nofun
  | ok found => exact ⟨fun h => by cases h; rfl, fun h => by cases h; rfl⟩

/-- Changes are laid over the record that is read, and the outcome is stored. -/
theorem update_of_get (h : c.get id = .ok (some read)) (changes : Attributes) :
    c.update id changes = (.ok (read.overlaid changes), c.storing (read.overlaid changes)) := by
  obtain rfl : read.id = id := Database.id_eq_of_get (get_eq_some_iff.1 h)
  rw [update, Database.update, get_eq_some_iff.1 h]
  rfl

/-- A stored record is held just when all its values are read back. -/
theorem holds_storing_iff : catalog.Holds (c.storing r) r ↔ r.IsReadBack := by
  have hread {read : Record} : (c.storing r).get r.id = .ok (some read) ↔
      Attributes.IsReadable r.attributes ∧ read = r.reread :=
    get_eq_some_iff.trans (Database.get_eq_some_iff_of_stores (Database.stores_insert c.database r))
  rw [← Record.reread_equals_iff]
  constructor
  · rintro ⟨read, hget, hequals⟩
    obtain ⟨hreadable, rfl⟩ := hread.1 hget
    exact ⟨hreadable, hequals⟩
  · rintro ⟨hreadable, hequals⟩
    exact ⟨r.reread, hread.2 ⟨hreadable, rfl⟩, hequals⟩

end StoredCatalog

namespace CommitTask

variable {task : CommitTask} {parent child : Record}

/-- A catalog in a database that holds the parent answers with the updated one, and holds it just
when nothing is sent or all values of the answer are read back as equal ones. -/
theorem updateParent_stored {s : CommitState StoredCatalog} (hparent : s.parent = some parent)
    (hholds : StoredCatalog.catalog.Holds s.catalog parent)
    (hupdated : (task.updated parent child).IsNumeric) :
    ∃ kept after, task.updateParent StoredCatalog.catalog child s = (.ok (), ⟨some kept, after⟩) ∧
      kept.Equals (task.updated parent child) ∧
      (StoredCatalog.catalog.Holds after (task.updated parent child) ↔
        (task.sent parent child).isEmpty = true ∨ kept.IsReadBack) := by
  obtain ⟨stored, hget, hstored⟩ := hholds
  have hid : (task.updated parent child).id = parent.id := (task.updated_spec parent child).1
  by_cases hempty : (task.sent parent child).isEmpty = true
  · refine ⟨parent, s.catalog, ?_, ?_, iff_of_true ⟨stored, hid ▸ hget, ?_⟩ (.inl hempty)⟩
    · rw [updateParent_of_isEmpty hparent hempty, ← hparent]
    · exact equals_updated_of_isEmpty (hstored.symm.trans hstored) hupdated hempty
    · exact equals_updated_of_isEmpty hstored hupdated hempty
  · have hequals : (stored.overlaid (task.sent parent child)).Equals (task.updated parent child) :=
      overlaid_sent_equals hstored hupdated
    have hcall := StoredCatalog.update_of_get hget (task.sent parent child)
    refine ⟨_, _, updateParent_of_ok hparent hempty (repeated_of_ok hcall), hequals, ?_⟩
    rw [or_iff_right hempty, ← Catalog.holds_congr hequals]
    exact StoredCatalog.holds_storing_iff

/-- What is sent of a record that was made by setting attributes of an earlier one is what is not
equal there, and makes an equal record of the earlier one. So an update of the parent that succeeds
keeps the parent that the rules make; a catalog in memory holds it then, and one in a database just
when nothing was sent or all its values are read back as equal ones. -/
theorem differences_reproduce {task : CommitTask} {parent child : Record}
    (hupdated : (task.updated parent child).IsNumeric) :
    (∀ (before : Record) (sets : List (String × Attribute)), (before.setAll sets).IsNumeric →
      (before.overlaid ((before.setAll sets).changedSince before)).Equals (before.setAll sets)) ∧
    (∀ (before after : Record) (name : String) (value : Attribute),
      (after.changedSince before)[name]? = some value ↔
        after.get? name = some value ∧ (before.get? name == some value) = false) ∧
    (∀ s : CommitState MemoryCatalog,
      s.parent = some parent → MemoryCatalog.catalog.Holds s.catalog parent →
      (∃ e after, task.updateParent MemoryCatalog.catalog child s =
          (.error e, ⟨some parent, after⟩) ∧ after.records = s.catalog.records) ∨
        ∃ kept after, task.updateParent MemoryCatalog.catalog child s =
            (.ok (), ⟨some kept, after⟩) ∧
          kept.Equals (task.updated parent child) ∧
          MemoryCatalog.catalog.Holds after (task.updated parent child)) ∧
    ∀ s : CommitState StoredCatalog,
      s.parent = some parent → StoredCatalog.catalog.Holds s.catalog parent →
      ∃ kept after, task.updateParent StoredCatalog.catalog child s =
          (.ok (), ⟨some kept, after⟩) ∧
        kept.Equals (task.updated parent child) ∧
        (StoredCatalog.catalog.Holds after (task.updated parent child) ↔
          (task.sent parent child).isEmpty = true ∨ kept.IsReadBack) := by
  refine ⟨fun before sets hafter => ?_,
    fun before after name value => Record.getElem?_changedSince_eq_some_iff,
    fun s hparent hholds => updateParent_memory hparent hholds hupdated,
    fun s hparent hholds => updateParent_stored hparent hholds hupdated⟩
  obtain ⟨hid, hkind, hnames⟩ := before.setAll_spec sets
  exact Record.overlaid_changedSince_equals hafter hid.symm hkind.symm hnames fun _ _ h => h

end CommitTask

end AnyReader

namespace CommitTask

/-- A parent with a title. -/
private def pilot : Record :=
  ⟨"p1", .parent, (∅ : Attributes).insert AttributeName.title (.text "Pilot")⟩

/-- A child whose image has its centre at a latitude. -/
private def sighting (latitude : Float) : Record :=
  ⟨"c1", .child,
    (∅ : Attributes).insert AttributeName.frameCenter (.geometry (.point ⟨-70, latitude⟩))⟩

/-- A commit with the standard rules. -/
private def pilotTask : CommitTask :=
  ⟨.standard (CommitSettings.standard "Pilot" "udp://127.0.0.1:5000"), ⟨1, ⟨10, 0⟩, ⟨20, 0⟩, 1, []⟩,
    ⟨"chunk.ts", none⟩, ⟨30, 0⟩⟩

private theorem isNumeric_of_all {r : Record}
    (h : (r.attributes.toList.all fun p => p.2.doubles.all fun x => !x.isNaN) = true) :
    r.IsNumeric := by
  intro name a ha x hx
  have hmember := Std.ExtTreeMap.mem_toList_iff_getElem?_eq_some.2 ha
  simpa using List.all_eq_true.1 (List.all_eq_true.1 h _ hmember) x hx

/-- The catalogs after the parent was stored, with the parent that is kept. -/
private def pilotInMemory : CommitState MemoryCatalog :=
  ⟨some pilot, (MemoryCatalog.empty.store pilot).2⟩

private def pilotStored : CommitState StoredCatalog :=
  ⟨some pilot, (StoredCatalog.empty "content").storing pilot⟩

private theorem isNumeric_pilot : pilot.IsNumeric := isNumeric_of_all (by decide +kernel)

private theorem holds_pilotStored : StoredCatalog.catalog.Holds pilotStored.catalog pilot := by
  refine StoredCatalog.holds_storing_iff.2 ⟨by decide +kernel, fun name a ha => ?_⟩
  have htext : ∃ s, a = .text s := by
    rw [pilot, Record.get?, Std.ExtTreeMap.getElem?_insert] at ha
    split at ha
    · exact ⟨_, (Option.some.inj ha).symm⟩
    · simp at ha
  obtain ⟨s, rfl⟩ := htext
  exact ⟨.text s, rfl, beq_self_eq_true s⟩

/-- A parent with a title that is set again, a new altitude and a title of another type, and an image
centre that the parent gets in both catalogs. -/
theorem differences_of_pilot :
    let sets := [(AttributeName.title, Attribute.text "Pilot"),
      (AttributeName.altitude, Attribute.double 0.5), (AttributeName.title, Attribute.integer 1)]
    let updated := pilotTask.updated pilot (sighting 2)
    (pilot.overlaid ((pilot.setAll sets).changedSince pilot)).Equals (pilot.setAll sets) ∧
      (∃ kept after, pilotTask.updateParent MemoryCatalog.catalog (sighting 2) pilotInMemory =
          (.ok (), ⟨some kept, after⟩) ∧
        kept.Equals updated ∧ MemoryCatalog.catalog.Holds after updated) ∧
      ∃ kept after, pilotTask.updateParent StoredCatalog.catalog (sighting 2) pilotStored =
          (.ok (), ⟨some kept, after⟩) ∧
        kept.Equals updated ∧ (StoredCatalog.catalog.Holds after updated ↔
          (pilotTask.sent pilot (sighting 2)).isEmpty = true ∨ kept.IsReadBack) := by
  intro sets updated
  have hupdated : updated.IsNumeric := isNumeric_of_all (by decide +kernel)
  obtain ⟨hsets, -, hmemory, hstored⟩ := differences_reproduce hupdated
  have hinMemory : MemoryCatalog.catalog.Holds pilotInMemory.catalog pilot :=
    ⟨pilot, rfl, rfl, rfl, fun name => by
      cases ha : pilot.get? name with
      | none => rfl
      | some a => exact (isNumeric_pilot name a ha).beq_self⟩
  refine ⟨hsets pilot sets (isNumeric_of_all (by decide +kernel)), ?_,
    hstored pilotStored rfl holds_pilotStored⟩
  rcases hmemory pilotInMemory rfl hinMemory with
    ⟨e, after, hfails, -⟩ | hsucceeds
  · have hok : (pilotTask.updateParent MemoryCatalog.catalog (sighting 2) pilotInMemory).1.isOk =
      true := by decide +kernel
    rw [hfails] at hok
    cases hok
  · exact hsucceeds

/-- The image centre of a child is read back as a neighbour, once the parent with it was stored. -/
theorem centre_drifts :
    let child := sighting 42.104721556499996
    StoredCatalog.catalog.Holds pilotStored.catalog pilot ∧ (pilotTask.updated pilot child).IsNumeric ∧
      ∃ kept after, pilotTask.updateParent StoredCatalog.catalog child pilotStored =
          (.ok (), ⟨some kept, after⟩) ∧
        ¬StoredCatalog.catalog.Holds after (pilotTask.updated pilot child) := by
  intro child
  have hupdated : (pilotTask.updated pilot child).IsNumeric := isNumeric_of_all (by decide +kernel)
  refine ⟨holds_pilotStored, hupdated, ?_⟩
  obtain ⟨stored, hget, hstored⟩ := holds_pilotStored
  have hcentre : (pilotTask.sent pilot child)[AttributeName.frameCenter]? =
      some (.geometry (.point ⟨-70, 42.104721556499996⟩)) := by
    have hrule : ParentUpdate.frameCenter ∈ pilotTask.action.updates := by
      simp [pilotTask, CommitAction.standard, ParentUpdate.standard]
    exact Record.getElem?_changedSince_eq_some_iff.2
      ⟨ParentUpdate.get?_updateAll_of_nodup (by decide) hrule pilot child, rfl⟩
  have hempty : ¬(pilotTask.sent pilot child).isEmpty = true := by
    intro hempty
    rw [Std.ExtTreeMap.isEmpty_iff.1 hempty, Std.ExtTreeMap.getElem?_empty] at hcentre
    cases hcentre
  refine ⟨_, _, updateParent_of_ok rfl hempty (repeated_of_ok (StoredCatalog.update_of_get hget _)), ?_⟩
  rw [← Catalog.holds_congr (overlaid_sent_equals hstored hupdated), StoredCatalog.holds_storing_iff]
  rintro ⟨-, hread⟩
  obtain ⟨b, hb, hbeq⟩ := hread AttributeName.frameCenter _
    ((Record.get?_overlaid stored _ _).trans (by rw [hcentre]; rfl))
  have hlongitude : Json.rereadFloat? (-70) = some (-70) := by decide +kernel
  have hlatitude : Json.rereadFloat? 42.104721556499996 = some 42.1047215565 := by decide +kernel
  simp only [Attribute.reread?, Geometry.mapDoubles?, Coord.mapDoubles?, hlongitude, hlatitude] at hb
  cases hb
  exact absurd hbeq (by decide +kernel)

end CommitTask

end StreamCatalog
