import StreamCatalog.Proofs.Database.Tables

/-!
# Getting back what was accepted

Attributes are stored as text. A record that a call has stored is read as it was, until
a call is about it, unless its attributes hold something that the text cannot say
(`Database.get_accepted_iff`). One that cannot be read is lost for good: it is in the
way of a new one, and no update finds it (`Database.get_afterCalls_of_not_isReadable`).
-/

namespace StreamCatalog

namespace Database

section AnyReader

variable [Json.NumberReader]

/-- The tables after some calls, each with the faults that its statements meet. -/
def afterCalls (db : Database) (calls : List (DatabaseCall × DatabaseCall.Faults)) : Database :=
  calls.foldl (fun db (call, faults) => (call.run faults ⟨db, none⟩).2.tables) db

theorem records_run_of_ne {call : DatabaseCall} {id : String} (hne : call.id ≠ id)
    (faults : DatabaseCall.Faults) (db : Database) :
    (call.run faults ⟨db, none⟩).2.tables.records[id]? = db.records[id]? := by
  rcases run_cases faults call db with ⟨e, hrun⟩ | ⟨r, after, haccepted, hrun⟩
  · rw [hrun]
  · rw [hrun]
    exact haccepted.records_of_ne hne.symm

/-- Calls about other records leave a record. -/
theorem records_afterCalls_of_ne {id : String} :
    (calls : List (DatabaseCall × DatabaseCall.Faults)) → (∀ p ∈ calls, p.1.id ≠ id) →
      ∀ db : Database, (db.afterCalls calls).records[id]? = db.records[id]?
  | [], _, _ => rfl
  | (_, faults) :: calls, h, db =>
    (records_afterCalls_of_ne calls (fun p hp => h p (List.mem_cons_of_mem _ hp)) _).trans
      (records_run_of_ne (h _ List.mem_cons_self) faults db)

/-- A record that a call has stored is got back as it is, until a call is about it, just when its
attributes do not nest too deep and each is written as what it is: its doubles are finite, and its
leap seconds stand at the end of a minute. Finite doubles are taken to be read back. -/
theorem get_accepted_iff {db : Database} {call : DatabaseCall} {faults : DatabaseCall.Faults}
    {r : Record} (haccepted : (call.run faults ⟨db, none⟩).1 = .ok r) (hrange : r.InRange)
    (hdoubles : ∀ name a, r.get? name = some a → ∀ x ∈ a.doubles, x.isFinite = true →
      Json.rereadFloat? x = some x)
    {later : List (DatabaseCall × DatabaseCall.Faults)} (hlater : ∀ p ∈ later, p.1.id ≠ call.id) :
    ((call.run faults ⟨db, none⟩).2.tables.afterCalls later).get call.id = .ok (some r) ↔
      r.attributes.toJson.height ≤ Json.maxDepth ∧
        ∀ name a, r.get? name = some a → a.IsWritable := by
  obtain ⟨after, hstores, hid, htables⟩ : ∃ after : Database, after.Stores r ∧ r.id = call.id ∧
      (call.run faults ⟨db, none⟩).2.tables = after := by
    rcases run_cases faults call db with ⟨e, hrun⟩ | ⟨r', after, hcase, hrun⟩
    · rw [hrun] at haccepted
      cases haccepted
    · rw [hrun] at haccepted ⊢
      cases haccepted
      exact ⟨after, hcase.stores, hcase.id_eq, rfl⟩
  have hlast : ((call.run faults ⟨db, none⟩).2.tables.afterCalls later).Stores r := by
    rw [Stores, records_afterCalls_of_ne later (hid ▸ hlater), htables]
    exact hstores
  rw [← hid, get_eq_some_iff_of_stores hlast]
  have hself : r = r.reread ↔ r.attributes = r.attributes.reread :=
    ⟨congrArg Record.attributes, fun h => by rw [Record.reread, ← h]⟩
  rw [hself, ← Attributes.ofStored?_stored_eq_some_iff, Attributes.ofStored?_stored_eq_self_iff]
  refine and_congr_right fun _ => forall_congr' fun name => forall_congr' fun a =>
    forall_congr' fun ha => ?_
  exact Attribute.reread?_eq_self_iff (hrange name a ha) (hdoubles name a ha)

end AnyReader

/-- A parent whose attributes are read back: the date has a leap second. -/
def coast : Record :=
  { id := "p1"
    kind := .parent
    attributes := (((∅ : Attributes).insert AttributeName.title (.text "Coast")).insert
      AttributeName.altitude (.double 0.5)).insert
      AttributeName.created (.date ⟨59, 1500000000⟩) }

theorem mem_coast {name : String} {a : Attribute} (h : coast.get? name = some a) :
    a = .text "Coast" ∨ a = .double 0.5 ∨ a = .date ⟨59, 1500000000⟩ := by
  simp only [Record.get?, coast, Std.ExtTreeMap.getElem?_insert] at h
  split at h
  · exact .inr (.inr (Option.some.inj h).symm)
  · split at h
    · exact .inr (.inl (Option.some.inj h).symm)
    · split at h
      · exact .inl (Option.some.inj h).symm
      · simp at h

theorem get_accepted_coast :
    (((DatabaseCall.insert coast).run (fun _ => none) ⟨.empty, none⟩).2.tables.afterCalls
      [(.insertWithContent { coast with id := "c1" } ⟨"c1.ts", 188, "video/mp2t"⟩, fun _ => none),
        (.update "c1" (∅ : Attributes), fun _ => some (.refused "disk full"))]).get "p1" =
      .ok (some coast) := by
  refine (get_accepted_iff (r := coast) rfl ?_ ?_ ?_).2 ⟨by decide +kernel, ?_⟩
  · intro name a ha
    rcases mem_coast ha with rfl | rfl | rfl
    · trivial
    · trivial
    · exact ⟨by decide, by decide, by decide⟩
  · intro name a ha x hx _
    rcases mem_coast ha with rfl | rfl | rfl
    · cases hx
    · obtain rfl := List.mem_singleton.1 hx
      decide +kernel
    · cases hx
  · decide
  · intro name a ha
    rcases mem_coast ha with rfl | rfl | rfl
    · exact ⟨nofun, nofun⟩
    · refine ⟨fun x hx => ?_, nofun⟩
      obtain rfl := List.mem_singleton.1 hx
      decide +kernel
    · refine ⟨nofun, ?_⟩
      rintro t ⟨⟩
      decide

/-! ## Records that are lost -/

section AnyReader

variable [Json.NumberReader]

/-- A record that is not read back cannot be read. -/
theorem get_of_not_isReadable {db : Database} {r : Record} (h : db.Stores r)
    (hread : ¬Attributes.IsReadable r.attributes) :
    db.get r.id = .error (.unreadable (Attributes.nullEnd? 0 false r.attributes.stored.toList)) := by
  have hstored : Attributes.ofStored? r.row.attributes = none := by
    cases hstored : Attributes.ofStored? r.row.attributes with
    | none => rfl
    | some read => exact absurd (Attributes.ofStored?_stored_eq_some_iff.1 hstored).1 hread
  have hkind : RecordKind.ofName? r.row.kind = some r.kind := RecordKind.ofName?_eq_some_iff.2 rfl
  rw [get, h]
  simp only [RecordRow.record, hkind, hstored]
  rfl

/-- A call leaves a record that cannot be read: there is no second one, and no change of it. -/
theorem stores_run_of_not_isReadable {db : Database} {r : Record} (h : db.Stores r)
    (hread : ¬Attributes.IsReadable r.attributes) (faults : DatabaseCall.Faults)
    (call : DatabaseCall) : (call.run faults ⟨db, none⟩).2.tables.Stores r := by
  have hmem : r.id ∈ db.records := Std.ExtTreeMap.mem_iff_isSome_getElem?.2 (by rw [h]; rfl)
  rcases run_cases faults call db with ⟨e, hrun⟩ | ⟨r', after, haccepted, hrun⟩
  · rw [hrun]
    exact h
  · rw [hrun]
    by_cases hid : r.id = call.id
    · cases haccepted with
      | inserted r' fresh => exact absurd ((show r.id = r'.id from hid) ▸ hmem) fresh
      | insertedWithContent r' row fresh noContent =>
        exact absurd ((show r.id = r'.id from hid) ▸ hmem) fresh
      | updated before changes found =>
        rw [show before.id = r.id from hid.symm, get_of_not_isReadable h hread] at found
        cases found
    · rw [Stores, haccepted.records_of_ne hid]
      exact h

/-- A record that cannot be read is lost for good, whatever calls there are. -/
theorem get_afterCalls_of_not_isReadable {r : Record} (hread : ¬Attributes.IsReadable r.attributes) :
    (calls : List (DatabaseCall × DatabaseCall.Faults)) → {db : Database} → db.Stores r →
      (db.afterCalls calls).get r.id =
        .error (.unreadable (Attributes.nullEnd? 0 false r.attributes.stored.toList))
  | [], _, h => get_of_not_isReadable h hread
  | (call, faults) :: calls, _, h =>
    get_afterCalls_of_not_isReadable hread calls (stores_run_of_not_isReadable h hread faults call)

end AnyReader

/-- A parent with an altitude that is no number. -/
def adrift : Record :=
  ⟨"p1", .parent, (∅ : Attributes).insert AttributeName.altitude (.double (0.0 / 0.0))⟩

theorem not_isReadable_adrift : ¬Attributes.IsReadable adrift.attributes := by
  intro h
  have hsome := h.isSome_reread? AttributeName.altitude (.double (0.0 / 0.0))
    Std.ExtTreeMap.getElem?_insert_self
  obtain ⟨a, ha⟩ := Option.isSome_iff_exists.1 hsome
  exact absurd (Attribute.isFinite_of_reread? ha _ (List.mem_singleton_self _)) (by decide +kernel)

/-- A record with a double that is not finite is accepted, and lost. -/
theorem adrift_accepted_and_lost :
    ((DatabaseCall.insert adrift).run (fun _ => none) ⟨.empty, none⟩).1 = .ok adrift ∧
      ((DatabaseCall.insert adrift).run (fun _ => none) ⟨.empty, none⟩).2.tables.get "p1" =
        .error (.unreadable (some 57)) := by
  refine ⟨rfl, ?_⟩
  have hstores : ((DatabaseCall.insert adrift).run (fun _ => none) ⟨.empty, none⟩).2.tables.Stores
      adrift := Std.ExtTreeMap.getElem?_insert_self
  have hend : Attributes.nullEnd? 0 false adrift.attributes.stored.toList = some 57 := by
    rw [Attributes.stored, Json.toList_compact]
    decide +kernel
  rw [← hend]
  exact get_of_not_isReadable hstores not_isReadable_adrift

end Database

end StreamCatalog
