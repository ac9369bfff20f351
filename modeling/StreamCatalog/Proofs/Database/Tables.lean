import StreamCatalog.Proofs.Database.Statements
import StreamCatalog.Proofs.Record.Stored

/-!
# The tables of records and contents

Every row is that of one record, with the title and the address of its attributes, and
every content belongs to a record, whatever calls there were and whichever of their
statements failed (`Database.Reachable.tables_sound`). An update reads a record, lays
changes over it and stores it again; so a double that is not read back as it was
written changes with every update of its record (`Database.altitude_drifts`).
-/

namespace StreamCatalog

/-- A record as it is listed. -/
def Record.summary (r : Record) : RecordSummary :=
  ⟨r.id, r.kind.name, r.title?, r.text? AttributeName.resourceUri⟩

section AnyReader

variable [Json.NumberReader]

/-- A record with its attributes read back. -/
def Record.reread (r : Record) : Record :=
  { r with attributes := r.attributes.reread }

/-- What is listed is what is read. -/
theorem Record.summary_reread (r : Record) : r.reread.summary = r.summary := by
  have htext (name : String) : r.reread.text? name = r.text? name := r.text?_reread name
  simp only [summary, title?, htext]
  rfl

/-- Whether the attributes of a record are such as there can be. -/
def Record.InRange (r : Record) : Prop :=
  ∀ name a, r.get? name = some a → a.InRange

/-- Whether all attributes of a record are read back as they are. -/
def Record.IsKept (r : Record) : Prop :=
  ∀ name a, r.get? name = some a → a.IsKept

namespace Database

/-- Whether a record is stored. -/
def Stores (db : Database) (r : Record) : Prop :=
  db.records[r.id]? = some r.row

/-! ## Listing -/

omit [Json.NumberReader] in
theorem mem_list_iff {db : Database} {kind : Option RecordKind} {s : RecordSummary} :
    s ∈ db.list kind ↔ ∃ row, db.records[s.id]? = some row ∧
      kind.all (·.name = row.kind) ∧ s = rowSummary s.id row := by
  simp only [list, List.mem_map, List.mem_filter, Prod.exists,
    Std.ExtTreeMap.mem_toList_iff_getElem?_eq_some]
  constructor
  · rintro ⟨id, row, ⟨hrow, hkind⟩, rfl⟩
    exact ⟨row, hrow, hkind, rfl⟩
  · rintro ⟨row, hrow, hkind, hs⟩
    exact ⟨s.id, row, ⟨hrow, hkind⟩, hs.symm⟩

omit [Json.NumberReader] in
/-- No record is listed twice. -/
theorem nodup_list (db : Database) (kind : Option RecordKind) :
    ((db.list kind).map (·.id)).Nodup := by
  have hkeys : (db.records.toList.map Prod.fst).Nodup := by
    rw [Std.ExtTreeMap.map_fst_toList_eq_keys]
    exact Std.ExtTreeMap.nodup_keys
  have hids : (db.list kind).map (·.id) =
      (db.records.toList.filter fun p => kind.all (·.name = p.2.kind)).map Prod.fst := by
    rw [list, List.map_map]
    rfl
  rw [hids]
  exact hkeys.sublist (List.filter_sublist.map Prod.fst)

/-! ## Reading -/

/-- A stored record is read with its attributes read back. -/
theorem get_eq_some_iff_of_stores {db : Database} {r read : Record} (h : db.Stores r) :
    db.get r.id = .ok (some read) ↔ Attributes.IsReadable r.attributes ∧ read = r.reread := by
  have hattributes : Attributes.ofStored? r.row.attributes = some read.attributes ↔
      Attributes.IsReadable r.attributes ∧ read.attributes = r.attributes.reread :=
    Attributes.ofStored?_stored_eq_some_iff
  rw [get_eq_some_iff, h]
  simp only [Option.some.injEq, exists_eq_left', RecordRow.record_eq_ok_iff, hattributes]
  constructor
  · rintro ⟨hid, hkind, hreadable, hread⟩
    refine ⟨hreadable, ?_⟩
    rw [Record.reread, ← hread, hid, RecordKind.name_inj.1 (show r.kind.name = _ from hkind)]
  · rintro ⟨hreadable, rfl⟩
    exact ⟨rfl, rfl, hreadable, rfl⟩

/-- A stored record is got back as it is just when its attributes are kept. -/
theorem get_eq_self_iff_of_stores {db : Database} {r : Record} (h : db.Stores r) :
    db.get r.id = .ok (some r) ↔ r.IsKept := by
  have hself : r = r.reread ↔ r.attributes = r.attributes.reread :=
    ⟨congrArg Record.attributes, fun h => by rw [Record.reread, ← h]⟩
  rw [get_eq_some_iff_of_stores h, hself, ← Attributes.ofStored?_stored_eq_some_iff]
  exact Attributes.ofStored?_stored_eq_self_iff_isKept

/-! ## Accepted calls -/

omit [Json.NumberReader] in
theorem stores_insert (db : Database) (r : Record) :
    Stores { db with records := db.records.insert r.id r.row } r :=
  Std.ExtTreeMap.getElem?_insert_self

/-- The record that an accepted call stores, and the tables after it. -/
inductive Accepted (db : Database) : DatabaseCall → Record → Database → Prop where
  /-- A new record. -/
  | inserted (r : Record) (fresh : r.id ∉ db.records) :
    Accepted db (.insert r) r { db with records := db.records.insert r.id r.row }
  /-- A new record with content. -/
  | insertedWithContent (r : Record) (row : ContentRow) (fresh : r.id ∉ db.records)
      (noContent : r.id ∉ db.contents) :
    Accepted db (.insertWithContent r row) r
      { db with
        records := db.records.insert r.id r.row
        contents := db.contents.insert r.id row }
  /-- A changed record. -/
  | updated (before : Record) (changes : Attributes) (found : db.get before.id = .ok (some before)) :
    Accepted db (.update before.id changes) (before.overlaid changes)
      { db with records := db.records.insert before.id (before.overlaid changes).row }

theorem accepted_of_apply {db after : Database} {call : DatabaseCall} {r : Record}
    (h : call.apply db = .ok (r, after)) : Accepted db call r after := by
  cases call with
  | insert r' =>
    rw [DatabaseCall.apply, insert] at h
    by_cases hfresh : r'.id ∈ db.records
    · rw [if_pos hfresh] at h
      cases h
    · rw [if_neg hfresh] at h
      cases h
      exact .inserted _ hfresh
  | insertWithContent r' row =>
    rw [DatabaseCall.apply, insertWithContent, insert] at h
    by_cases hfresh : r'.id ∈ db.records
    · rw [if_pos hfresh] at h
      cases h
    · rw [if_neg hfresh] at h
      simp only [bind, Except.bind, insertContentRow] at h
      cases hrefusal : db.refusal with
      | some reason => simp [hrefusal] at h
      | none =>
        by_cases hcontent : r'.id ∈ db.contents
        · simp [hrefusal, hcontent] at h
        · simp [hrefusal, hcontent, pure, Except.pure] at h
          obtain ⟨rfl, rfl⟩ := h
          exact hrefusal ▸ .insertedWithContent _ row hfresh hcontent
  | update id changes =>
    rw [DatabaseCall.apply, update] at h
    cases hget : db.get id with
    | error e =>
      rw [hget] at h
      cases h
    | ok found =>
      cases found with
      | none =>
        rw [hget] at h
        cases h
      | some before =>
        obtain rfl : before.id = id := id_eq_of_get hget
        rw [hget] at h
        cases h
        exact .updated before changes hget

namespace Accepted

variable {db after : Database} {call : DatabaseCall} {r : Record}

theorem id_eq (h : Accepted db call r after) : r.id = call.id := by
  cases h <;> rfl

theorem records_eq (h : Accepted db call r after) :
    after.records = db.records.insert r.id r.row := by
  cases h <;> rfl

theorem stores (h : Accepted db call r after) : after.Stores r := by
  rw [Stores, h.records_eq, Std.ExtTreeMap.getElem?_insert_self]

/-- Other records stay. -/
theorem records_of_ne (h : Accepted db call r after) {id : String} (hne : id ≠ call.id) :
    after.records[id]? = db.records[id]? := by
  rw [h.records_eq, Std.ExtTreeMap.getElem?_insert,
    if_neg (mt Std.LawfulEqCmp.eq_of_compare (h.id_eq ▸ hne.symm))]

theorem mem_contents (h : Accepted db call r after) {id : String} (hid : id ∈ after.contents) :
    id ∈ db.contents ∨ id = r.id := by
  cases h with
  | insertedWithContent r row fresh noContent =>
    rw [Std.ExtTreeMap.mem_insert] at hid
    exact hid.symm.imp_right fun h => (Std.LawfulEqCmp.eq_of_compare h).symm
  | _ => exact .inl hid

end Accepted

/-- What comes of a call: it fails and leaves the tables, or is accepted. -/
theorem run_cases (faults : DatabaseCall.Faults) (call : DatabaseCall) (db : Database) :
    (∃ e, call.run faults ⟨db, none⟩ = (.error e, ⟨db, none⟩)) ∨
      ∃ r after, Accepted db call r after ∧ call.run faults ⟨db, none⟩ = (.ok r, ⟨after, none⟩) := by
  have houtcome := call.outcome_run faults db
  generalize call.run faults ⟨db, none⟩ = answer at houtcome ⊢
  generalize hresult : call.apply db = result at houtcome
  cases houtcome with
  | failed _ e _ => exact .inl ⟨e, rfl⟩
  | done r after => exact .inr ⟨r, after, accepted_of_apply hresult, rfl⟩

/-! ## Tables that calls make -/

/-- Whether each row is that of a record, and each content belongs to a record. -/
structure IsConsistent (db : Database) : Prop where
  /-- Rows are those of records. -/
  exists_record : ∀ id row, db.records[id]? = some row →
    ∃ r : Record, r.id = id ∧ r.row = row ∧ r.InRange
  /-- Contents belong to records. -/
  mem_records : ∀ id, id ∈ db.contents → id ∈ db.records

theorem IsConsistent.stores_of_get {db : Database} (h : db.IsConsistent) {id : String}
    {before : Record} (hget : db.get id = .ok (some before)) :
    ∃ r : Record, db.Stores r ∧ r.InRange ∧ r.id = id ∧
      Attributes.IsReadable r.attributes ∧ before = r.reread := by
  obtain ⟨row, hrow, -⟩ := get_eq_some_iff.1 hget
  obtain ⟨r, rfl, rfl, hrange⟩ := h.exists_record id row hrow
  have hread := (get_eq_some_iff_of_stores hrow).1 hget
  exact ⟨r, hrow, hrange, rfl, hread.1, hread.2⟩

end Database

/-- The attributes that a call writes. -/
def DatabaseCall.attributes : DatabaseCall → Attributes
  | insert r => r.attributes
  | insertWithContent r _ => r.attributes
  | update _ changes => changes

/-- Whether the attributes that a call writes are such as there can be. -/
def DatabaseCall.InRange (call : DatabaseCall) : Prop :=
  ∀ (name : String) (a : Attribute), call.attributes[name]? = some a → a.InRange

theorem Record.InRange.reread {r : Record} (h : r.InRange) : r.reread.InRange := by
  intro name b hb
  have hread : r.reread.get? name = (r.get? name).bind Attribute.reread? :=
    Attributes.getElem?_reread _ _
  rw [hread] at hb
  obtain ⟨a, ha, hb⟩ := Option.bind_eq_some_iff.1 hb
  exact (h name a ha).reread? hb

namespace Database

theorem Accepted.inRange {db after : Database} {call : DatabaseCall} {r : Record}
    (h : Accepted db call r after) (hdb : db.IsConsistent) (hcall : call.InRange) : r.InRange := by
  cases h with
  | inserted r fresh => exact hcall
  | insertedWithContent r row fresh noContent => exact hcall
  | updated before changes found =>
    obtain ⟨r, -, hrange, -, -, rfl⟩ := hdb.stores_of_get found
    intro name a ha
    rw [Record.get?_overlaid] at ha
    cases hname : changes[name]? with
    | some b =>
      rw [hname] at ha
      cases ha
      exact hcall name _ hname
    | none =>
      rw [hname] at ha
      exact hrange.reread name a ha

theorem IsConsistent.accepted {db after : Database} {call : DatabaseCall} {r : Record}
    (hdb : db.IsConsistent) (h : Accepted db call r after) (hr : r.InRange) :
    after.IsConsistent where
  exists_record id row hrow := by
    by_cases hid : id = call.id
    · rw [hid, ← h.id_eq, h.stores] at hrow
      cases hrow
      exact ⟨r, h.id_eq.trans hid.symm, rfl, hr⟩
    · rw [h.records_of_ne hid] at hrow
      exact hdb.exists_record id row hrow
  mem_records id hid := by
    rw [h.records_eq, Std.ExtTreeMap.mem_insert]
    rcases h.mem_contents hid with hid | rfl
    · exact .inr (hdb.mem_records id hid)
    · exact .inl Std.ReflCmp.compare_self

/-- The tables that calls make of empty ones, whichever of their statements fail. -/
inductive Reachable : Database → Prop where
  /-- Empty tables, which may refuse contents. -/
  | empty (refusal : Option String) : Reachable { Database.empty with refusal := refusal }
  /-- A call. -/
  | call {db : Database} (h : Reachable db) (call : DatabaseCall) (inRange : call.InRange)
      (faults : DatabaseCall.Faults) : Reachable (call.run faults ⟨db, none⟩).2.tables

theorem Reachable.isConsistent {db : Database} (h : db.Reachable) : db.IsConsistent := by
  induction h with
  | empty refusal =>
    exact ⟨fun id row h => by simp [Database.empty] at h, fun id h => by simp [Database.empty] at h⟩
  | @call db h call inRange faults ih =>
    rcases run_cases faults call db with ⟨e, hrun⟩ | ⟨r, after, haccepted, hrun⟩
    · rw [hrun]
      exact ih
    · rw [hrun]
      exact ih.accepted haccepted (haccepted.inRange ih inRange)

/-! ## What the tables tell -/

/-- Each record is listed once, with its own title and address, under its kind. -/
def ListsRecords (db : Database) : Prop :=
  ∀ kind : Option RecordKind, ((db.list kind).map (·.id)).Nodup ∧
    ∀ s, s ∈ db.list kind ↔ ∃ r, db.Stores r ∧ (∀ k ∈ kind, r.kind = k) ∧ s = r.summary

omit [Json.NumberReader] in
theorem IsConsistent.listsRecords {db : Database} (h : db.IsConsistent) : db.ListsRecords := by
  refine fun kind => ⟨nodup_list db kind, fun s => ?_⟩
  have hkind (r : Record) : kind.all (·.name = r.row.kind) = true ↔ ∀ k ∈ kind, r.kind = k := by
    have hname (k : RecordKind) : k.name = r.row.kind ↔ r.kind = k :=
      RecordKind.name_inj.trans eq_comm
    cases kind <;> simp [hname]
  rw [mem_list_iff]
  constructor
  · rintro ⟨row, hrow, hall, hs⟩
    obtain ⟨r, hid, rfl, -⟩ := h.exists_record s.id row hrow
    rw [← hid] at hrow
    exact ⟨r, hrow, (hkind r).1 hall, by rw [hs, ← hid]; rfl⟩
  · rintro ⟨r, hstores, hall, rfl⟩
    exact ⟨r.row, hstores, (hkind r).2 hall, rfl⟩

/-- What an accepted update does: the record that was read, with the changes laid over it, takes
the place of the stored one, and nothing else changes. When the record is read again, an attribute
that is not named is read back from what it was read as before. -/
structure Updated (db : Database) (id : String) (changes : Attributes) (r : Record)
    (after : Database) : Prop where
  /-- The record is the one that was read, with the changes. -/
  exists_before : ∃ before, db.get id = .ok (some before) ∧ r = before.overlaid changes ∧
    ∀ name, name ∉ changes → ∀ read, after.get id = .ok (some read) →
      read.get? name = (before.get? name).bind Attribute.reread? ∧
        ((∀ a ∈ before.get? name, ∀ x ∈ a.doubles, Json.rereadFloat? x = some x) →
          read.get? name = before.get? name)
  /-- The record is stored. -/
  stores : after.Stores r
  /-- Other records stay. -/
  records_of_ne : ∀ other, other ≠ id → after.records[other]? = db.records[other]?
  /-- Contents stay. -/
  contents_eq : after.contents = db.contents

theorem IsConsistent.updated {db after : Database} {id : String} {changes : Attributes} {r : Record}
    (hdb : db.IsConsistent) (h : Accepted db (.update id changes) r after) :
    Updated db id changes r after := by
  refine ⟨?_, h.stores, fun other hne => h.records_of_ne hne, by cases h; rfl⟩
  have hstores := h.stores
  cases h with
  | updated before _ found =>
    refine ⟨before, found, rfl, fun name hname read hread => ?_⟩
    obtain ⟨-, rfl⟩ := (get_eq_some_iff_of_stores hstores).1 hread
    have hget : (before.overlaid changes).reread.get? name =
        (before.get? name).bind Attribute.reread? := by
      have hunnamed : (before.overlaid changes).get? name = before.get? name := by
        rw [Record.get?_overlaid, Std.ExtTreeMap.getElem?_eq_none hname, Option.none_or]
      rw [← hunnamed]
      exact Attributes.getElem?_reread _ _
    refine ⟨hget, fun hdoubles => ?_⟩
    rw [hget]
    cases ha : before.get? name with
    | none => rfl
    | some a =>
      -- The attribute was read before, so only its doubles can change when it is read once more.
      obtain ⟨r, -, hrange, -, -, rfl⟩ := hdb.stores_of_get found
      have hread : r.reread.get? name = (r.get? name).bind Attribute.reread? :=
        Attributes.getElem?_reread _ _
      obtain ⟨b, hb, hba⟩ := Option.bind_eq_some_iff.1 (hread.symm.trans ha)
      exact Attribute.reread?_of_reread? (hrange name b hb) hba (hdoubles a ha)

/-- In tables that calls have made of empty ones, whichever statements fail: every record is listed
once under its kind, with the title and the address of its attributes as they are stored and as
they are read; every content belongs to a record; a call that fails leaves the tables as they are;
and an update changes nothing but the named attributes of its record, and doubles that are not read
back. -/
theorem Reachable.tables_sound {db : Database} (h : db.Reachable) :
    db.ListsRecords ∧
      (∀ id read, db.get id = .ok (some read) → read.summary ∈ db.list none) ∧
      (∀ id, id ∈ db.contents → id ∈ db.records) ∧
      (∀ (call : DatabaseCall) faults e c, call.run faults ⟨db, none⟩ = (.error e, c) →
        c = ⟨db, none⟩) ∧
      ∀ id changes faults r c, (DatabaseCall.update id changes).run faults ⟨db, none⟩ = (.ok r, c) →
        Updated db id changes r c.tables := by
  have hdb := h.isConsistent
  refine ⟨hdb.listsRecords, fun id read hread => ?_, hdb.mem_records, ?_, ?_⟩
  · obtain ⟨r, hstores, -, rfl, -, rfl⟩ := hdb.stores_of_get hread
    exact ((hdb.listsRecords none).2 _).2 ⟨r, hstores, nofun, r.summary_reread⟩
  · intro call faults e c hrun
    rcases run_cases faults call db with ⟨e', hcase⟩ | ⟨r, after, -, hcase⟩
    · exact (congrArg Prod.snd (hrun.symm.trans hcase))
    · cases hrun.symm.trans hcase
  · intro id changes faults r c hrun
    rcases run_cases faults (.update id changes) db with ⟨e, hcase⟩ | ⟨r', after, haccepted, hcase⟩
    · cases hrun.symm.trans hcase
    · cases hrun.symm.trans hcase
      exact hdb.updated haccepted

end Database

end AnyReader

namespace Database

/-- A child with content. -/
def tile : Record := ⟨"c1", .child, (∅ : Attributes).insert AttributeName.title (.text "Tile")⟩

/-- The tables after a child with content was inserted. -/
def oneTile : Database :=
  ((DatabaseCall.insertWithContent tile ⟨"c1.ts", 188, "video/mp2t"⟩).run (fun _ => none)
    ⟨.empty, none⟩).2.tables

theorem reachable_oneTile : oneTile.Reachable := by
  refine (Reachable.empty none).call _ (fun name a ha => ?_) _
  rw [DatabaseCall.attributes, tile, Std.ExtTreeMap.getElem?_insert] at ha
  split at ha
  · cases ha
    trivial
  · simp at ha

theorem oneTile_sound : oneTile.ListsRecords ∧ (∀ id, id ∈ oneTile.contents → id ∈ oneTile.records) ∧
    oneTile.list (some .child) = [tile.summary] ∧ "c1" ∈ oneTile.contents :=
  have h := reachable_oneTile.tables_sound
  ⟨h.1, h.2.2.1, by decide +kernel, by decide +kernel⟩

/-- A parent with an altitude. -/
def skiff : Record :=
  ⟨"p1", .parent, (∅ : Attributes).insert AttributeName.altitude (.double (-8.674506775112357e-10))⟩

/-- A title for it. -/
def titled : Attributes := (∅ : Attributes).insert AttributeName.title (.text "Skiff")

/-- The tables after the parent was inserted. -/
def oneSkiff : Database := ((DatabaseCall.insert skiff).run (fun _ => none) ⟨.empty, none⟩).2.tables

theorem isReadable_skiff : Attributes.IsReadable skiff.attributes := by
  refine ⟨by decide +kernel, fun name a ha => ?_⟩
  rw [skiff, Std.ExtTreeMap.getElem?_insert] at ha
  split at ha
  · cases ha
    decide +kernel
  · simp at ha

theorem get_oneSkiff : oneSkiff.get "p1" = .ok (some skiff.reread) :=
  (get_eq_some_iff_of_stores (stores_insert .empty skiff)).2 ⟨isReadable_skiff, rfl⟩

theorem altitude_reread : skiff.reread.get? AttributeName.altitude =
    some (.double (-8.674506775112356e-10)) := by
  have hread : Json.rereadFloat? (-8.674506775112357e-10) = some (-8.674506775112356e-10) := by
    decide +kernel
  refine (Attributes.getElem?_reread skiff.attributes _).trans ?_
  rw [skiff, Std.ExtTreeMap.getElem?_insert_self, Option.bind_some, Attribute.reread?, hread,
    Option.map_some]

/-- What is stored after the title was set. -/
def titledSkiff : Record := skiff.reread.overlaid titled

theorem isReadable_titledSkiff : Attributes.IsReadable titledSkiff.attributes := by
  refine ⟨by decide +kernel, fun name a ha => ?_⟩
  have hget : (titled[name]?).or (skiff.reread.get? name) = some a :=
    (Record.get?_overlaid skiff.reread titled name).symm.trans ha
  rcases Option.or_eq_some_iff.1 hget with htitle | ⟨-, hunnamed⟩
  · rw [titled, Std.ExtTreeMap.getElem?_insert] at htitle
    split at htitle
    · cases htitle
      rfl
    · simp at htitle
  · by_cases hname : name = AttributeName.altitude
    · rw [hname, altitude_reread] at hunnamed
      cases hunnamed
      decide +kernel
    · have hnone : skiff.reread.get? name = none := by
        refine (Attributes.getElem?_reread skiff.attributes _).trans ?_
        rw [skiff, Std.ExtTreeMap.getElem?_insert,
          if_neg (mt Std.LawfulEqCmp.eq_of_compare (Ne.symm hname)), Std.ExtTreeMap.getElem?_empty]
        rfl
      cases hnone.symm.trans hunnamed

theorem apply_titled : (DatabaseCall.update "p1" titled).apply oneSkiff = .ok (titledSkiff,
    { oneSkiff with records := oneSkiff.records.insert titledSkiff.id titledSkiff.row }) := by
  rw [DatabaseCall.apply, update, get_oneSkiff]
  rfl

/-- An update of the title changes the altitude: it is read back as a neighbour each time. -/
theorem altitude_drifts :
    ∃ before after : Record, oneSkiff.get "p1" = .ok (some before) ∧
      ((DatabaseCall.update "p1" titled).run (fun _ => none) ⟨oneSkiff, none⟩).2.tables.get "p1" =
        .ok (some after) ∧
      before.get? AttributeName.altitude = some (.double (-8.674506775112356e-10)) ∧
      after.get? AttributeName.altitude = some (.double (-8.674506775112355e-10)) ∧
      (-8.674506775112356e-10 : Float) ≠ -8.674506775112355e-10 := by
  have hread : Json.rereadFloat? (-8.674506775112356e-10) = some (-8.674506775112355e-10) := by
    decide +kernel
  rw [DatabaseCall.run_of_apply apply_titled]
  refine ⟨skiff.reread, titledSkiff.reread, get_oneSkiff,
    (get_eq_some_iff_of_stores (stores_insert oneSkiff titledSkiff)).2
      ⟨isReadable_titledSkiff, rfl⟩, altitude_reread, ?_, by decide +kernel⟩
  refine (Attributes.getElem?_reread titledSkiff.attributes _).trans ?_
  rw [show titledSkiff.attributes[AttributeName.altitude]? = some (.double (-8.674506775112356e-10))
      from (Record.get?_overlaid skiff.reread titled _).trans altitude_reread,
    Option.bind_some, Attribute.reread?, hread, Option.map_some]

end Database

end StreamCatalog
