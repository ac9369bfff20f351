import StreamCatalog.Catalog.Memory
import StreamCatalog.Proofs.Catalog.Contents
import StreamCatalog.Proofs.Catalog.Identifiers

/-!
# What catalogs answer

Requests as data, and what the catalog in memory and the one in a database answer where
nothing is scripted and nothing fails. Identifiers of the database are taken from a supply;
that of `StoredCatalog` is one of them (`StoredCatalog.catalogFrom_idText`).
-/

namespace StreamCatalog

/-- A request to a catalog. -/
inductive CatalogRequest where
  /-- Create a record. -/
  | create (r : Record)
  /-- Create a record with content. -/
  | createContent (request : ContentRequest)
  /-- Set attributes of the record of an identifier. -/
  | update (id : String) (changes : Attributes)
  /-- Give the record of an identifier. -/
  | get (id : String)

namespace Catalog

variable {σ : Type}

/-- Answer a request. -/
def answer (C : Catalog σ) (s : σ) :
    CatalogRequest → Except CatalogError (Option Record) × σ
  | .create r => let (result, s) := C.create r s; (result.map some, s)
  | .createContent request => let (result, s) := C.createContent request s; (result.map some, s)
  | .update id changes => let (result, s) := C.update id changes s; (result.map some, s)
  | .get id => (C.get id s, s)

theorem answer_create {C : Catalog σ} {s s' : σ} {r : Record} {result : Except CatalogError Record}
    (h : C.create r s = (result, s')) : C.answer s (.create r) = (result.map some, s') := by
  rw [answer, h]

theorem answer_createContent {C : Catalog σ} {s s' : σ} {request : ContentRequest}
    {result : Except CatalogError Record} (h : C.createContent request s = (result, s')) :
    C.answer s (.createContent request) = (result.map some, s') := by
  rw [answer, h]

theorem answer_update {C : Catalog σ} {s s' : σ} {id : String} {changes : Attributes}
    {result : Except CatalogError Record} (h : C.update id changes s = (result, s')) :
    C.answer s (.update id changes) = (result.map some, s') := by
  rw [answer, h]

/-- Answer requests, one after the other. -/
def answerAll (C : Catalog σ) (s : σ) :
    List CatalogRequest → List (Except CatalogError (Option Record)) × σ
  | [] => ([], s)
  | request :: requests =>
    let (result, s) := C.answer s request
    let (results, s) := answerAll C s requests
    (result :: results, s)

theorem answerAll_cons (C : Catalog σ) (s : σ) (request : CatalogRequest)
    (requests : List CatalogRequest) :
    C.answerAll s (request :: requests) =
      ((C.answer s request).1 :: (C.answerAll (C.answer s request).2 requests).1,
        (C.answerAll (C.answer s request).2 requests).2) := rfl

end Catalog

/-! ## In memory -/

namespace MemoryCatalog

/-- Whether no failure is scripted, and no attribute dropped. -/
structure IsPlain (c : MemoryCatalog) : Prop where
  /-- Records are created. -/
  createFailures_eq : c.createFailures = []
  /-- Records with content are created. -/
  contentFailures_eq : c.contentFailures = []
  /-- Records are updated. -/
  updateFailures_eq : c.updateFailures = []
  /-- Attributes stay. -/
  dropped_eq : c.dropped = none

theorem isPlain_empty : empty.IsPlain := ⟨rfl, rfl, rfl, rfl⟩

/-- A record with the next identifier. -/
def named (c : MemoryCatalog) (r : Record) : Record :=
  { r with id := idText r.kind (c.issued + 1) }

/-- What storing a new record does to a catalog. -/
structure Adds (c : MemoryCatalog) (r : Record) (d : MemoryCatalog) : Prop where
  /-- The catalog stays plain. -/
  isPlain : d.IsPlain
  /-- An identifier is given. -/
  issued_eq : d.issued = c.issued + 1
  /-- The record is stored. -/
  records_eq : d.records = c.records.insert r.id r

namespace IsPlain

variable {c : MemoryCatalog}

theorem create (h : c.IsPlain) {r : Record} (hid : r.id = "") :
    ∃ d, c.create r = (.ok (c.named r), d) ∧ c.Adds (c.named r) d := by
  simp only [MemoryCatalog.create, h.createFailures_eq, store, if_pos hid]
  exact ⟨_, rfl, ⟨rfl, h.contentFailures_eq, h.updateFailures_eq, h.dropped_eq⟩, rfl, rfl⟩

/-- A record with content gets its size. -/
theorem createContent (h : c.IsPlain) {request : ContentRequest} (hid : request.record.id = "")
    {bytes : Bytes} (hbytes : request.source.bytes? = some bytes) :
    ∃ d, c.createContent request =
        (.ok (c.named (request.record.set AttributeName.resourceSize (.integer bytes.length))), d) ∧
      c.Adds (c.named (request.record.set AttributeName.resourceSize (.integer bytes.length))) d := by
  simp only [MemoryCatalog.createContent, hbytes, h.contentFailures_eq, afterDrop, h.dropped_eq,
    Option.elim_none, store, Record.set, if_pos hid]
  exact ⟨_, rfl, ⟨h.createFailures_eq, rfl, h.updateFailures_eq, rfl⟩, rfl, rfl⟩

theorem update (h : c.IsPlain) {id : String} {r : Record} (hr : c.records[id]? = some r)
    (changes : Attributes) :
    ∃ d : MemoryCatalog, c.update id changes = (.ok (r.overlaid changes), d) ∧ d.IsPlain ∧
      d.issued = c.issued ∧ d.records = c.records.insert id (r.overlaid changes) := by
  simp only [MemoryCatalog.update, h.updateFailures_eq, hr]
  exact ⟨_, rfl, ⟨h.createFailures_eq, h.contentFailures_eq, rfl, h.dropped_eq⟩, rfl, rfl⟩

theorem update_of_missing (h : c.IsPlain) {id : String} (hr : c.records[id]? = none)
    (changes : Attributes) :
    ∃ (reason : String) (d : MemoryCatalog), c.update id changes = (.error (.rejected reason), d) ∧
      d.IsPlain ∧ d.issued = c.issued ∧ d.records = c.records := by
  simp only [MemoryCatalog.update, h.updateFailures_eq, hr]
  exact ⟨_, _, rfl, ⟨h.createFailures_eq, h.contentFailures_eq, rfl, h.dropped_eq⟩, rfl, rfl⟩

end IsPlain

/-- A content that is not there is refused. -/
theorem createContent_of_missing (c : MemoryCatalog) {request : ContentRequest}
    (hbytes : request.source.bytes? = none) :
    c.createContent request = (.error (.rejected FileFault.notFound.message), c) := by
  rw [createContent, hbytes]

end MemoryCatalog

/-! ## In a database -/

theorem Database.insertWithContent_of_fresh {db : Database} {r : Record}
    (hrefusal : db.refusal = none) (hfresh : r.id ∉ db.records) (hcontent : r.id ∉ db.contents)
    (row : ContentRow) :
    db.insertWithContent r row = .ok { db with
      records := db.records.insert r.id r.row
      contents := db.contents.insert r.id row } := by
  simp [insertWithContent, insert, insertContentRow, hfresh, hrefusal, hcontent, bind, Except.bind]

namespace StoredCatalog

/-- A record with an identifier, which is taken from `ids` if it has none. -/
def assignFrom (ids : Nat → String) (c : StoredCatalog) (r : Record) : Record × StoredCatalog :=
  if r.id = "" then ({ r with id := ids c.issued }, { c with issued := c.issued + 1 })
  else (r, c)

/-- Create a record that has an identifier by then. -/
def createFrom (ids : Nat → String) (r : Record) (c : StoredCatalog) :
    Except CatalogError Record × StoredCatalog :=
  let (r, c) := c.assignFrom ids r
  c.create r

/-- Create a record with content that has an identifier by then. -/
def createContentFrom (ids : Nat → String) (request : ContentRequest) (c : StoredCatalog) :
    Except CatalogError Record × StoredCatalog :=
  let (r, c) := c.assignFrom ids request.record
  c.createContent { request with record := r }

/-- A catalog in a database that takes its identifiers from `ids`. -/
def catalogFrom [Json.NumberReader] (ids : Nat → String) : Catalog StoredCatalog :=
  ⟨createFrom ids, createContentFrom ids, update, get⟩

theorem assignId_of_ne (c : StoredCatalog) {r : Record} (hid : r.id ≠ "") :
    c.assignId r = (r, c) := if_neg hid

theorem assignId_assignId (c : StoredCatalog) (r : Record) :
    (c.assignId r).2.assignId (c.assignId r).1 = c.assignId r := by
  by_cases hid : r.id = ""
  · have hassigned : c.assignId r =
        ({ r with id := idText c.issued }, { c with issued := c.issued + 1 }) := if_pos hid
    rw [hassigned]
    exact assignId_of_ne _ (isUsable_idText c.issued).ne_empty
  · rw [assignId_of_ne c hid]
    exact assignId_of_ne c hid

/-- The identifiers that the catalog itself gives are one supply. -/
theorem catalogFrom_idText [Json.NumberReader] : catalogFrom idText = catalog := by
  have hcreate : createFrom idText = create := by
    funext r c
    change create (c.assignId r).1 (c.assignId r).2 = create r c
    simp only [create, assignId_assignId]
  have hcontent : createContentFrom idText = createContent := by
    funext request c
    change createContent { request with record := (c.assignId request.record).1 }
      (c.assignId request.record).2 = createContent request c
    simp only [createContent, assignId_assignId, directory_assignId]
  rw [catalogFrom, catalog, hcreate, hcontent]

/-- Whether contents can be stored. -/
structure IsPlain (c : StoredCatalog) : Prop where
  /-- There is a directory. -/
  unblocked : c.directory.blocked = false
  /-- Contents are not refused. -/
  refusal_eq : c.database.refusal = none
  /-- Contents belong to records. -/
  mem_records : ∀ id, id ∈ c.database.contents → id ∈ c.database.records

theorem isPlain_empty (path : String) : (empty path).IsPlain :=
  ⟨rfl, rfl, fun id hid => by simp [empty, Database.empty] at hid⟩

/-- What storing a new record does to a catalog. -/
structure Adds (c : StoredCatalog) (r : Record) (d : StoredCatalog) : Prop where
  /-- The catalog stays plain. -/
  isPlain : d.IsPlain
  /-- An identifier is given. -/
  issued_eq : d.issued = c.issued + 1
  /-- The record is stored. -/
  records_eq : d.database.records = c.database.records.insert r.id r.row

/-- A record with the next identifier. -/
def named (ids : Nat → String) (c : StoredCatalog) (r : Record) : Record :=
  { r with id := ids c.issued }

/-- A record with what is said about its content. -/
def described (r : Record) (bytes : Bytes) : Record :=
  (r.set AttributeName.resourceUri (.text (contentUri r.id))).set AttributeName.resourceSize
    (.integer bytes.length)

variable {ids : Nat → String} {c : StoredCatalog}

theorem assignFrom_of_new {r : Record} (hid : r.id = "") :
    c.assignFrom ids r = (c.named ids r, { c with issued := c.issued + 1 }) := if_pos hid

theorem assignId_named (husable : IsUsable (ids c.issued)) (r : Record) :
    StoredCatalog.assignId { c with issued := c.issued + 1 } (c.named ids r) =
      (c.named ids r, { c with issued := c.issued + 1 }) :=
  assignId_of_ne _ husable.ne_empty

namespace IsPlain

theorem create (h : c.IsPlain) {r : Record} (hid : r.id = "") (husable : IsUsable (ids c.issued))
    (hfresh : ids c.issued ∉ c.database.records) :
    ∃ d, c.createFrom ids r = (.ok (c.named ids r), d) ∧ c.Adds (c.named ids r) d := by
  have hinsert : c.database.insert (c.named ids r) = .ok { c.database with
      records := c.database.records.insert (c.named ids r).id (c.named ids r).row } :=
    if_neg hfresh
  simp only [createFrom, assignFrom_of_new hid, StoredCatalog.create, assignId_named husable, hinsert]
  refine ⟨_, rfl, ⟨h.unblocked, h.refusal_eq, fun id hid => ?_⟩, rfl, rfl⟩
  exact Std.ExtTreeMap.mem_insert.2 (.inr (h.mem_records id hid))

/-- A content that is not there is refused. -/
theorem createContent_of_missing (h : c.IsPlain) {request : ContentRequest}
    (hid : request.record.id = "") (husable : IsUsable (ids c.issued))
    (hbytes : request.source.bytes? = none) :
    ∃ (reason : String) (d : StoredCatalog),
      c.createContentFrom ids request = (.error (.rejected reason), d) ∧ d.IsPlain ∧
      d.issued = c.issued + 1 ∧ d.database.records = c.database.records := by
  simp only [createContentFrom, assignFrom_of_new hid, StoredCatalog.createContent,
    assignId_named husable, copy, h.unblocked, hbytes, Bool.false_eq_true, if_false]
  exact ⟨_, _, rfl, ⟨h.unblocked, h.refusal_eq, h.mem_records⟩, rfl, rfl⟩

/-- A record with content gets its address and its size. -/
theorem createContent (h : c.IsPlain) {request : ContentRequest} (hid : request.record.id = "")
    (husable : IsUsable (ids c.issued)) (hfresh : ids c.issued ∉ c.database.records) {bytes : Bytes}
    (hbytes : request.source.bytes? = some bytes) :
    ∃ d, c.createContentFrom ids request =
        (.ok (described (c.named ids request.record) bytes), d) ∧
      c.Adds (described (c.named ids request.record) bytes) d := by
  have hcopy : copy (filePlace (fileName (c.named ids request.record).id)) none request.source
      { c with issued := c.issued + 1 } = (.ok (_, bytes), _) :=
    copy_none_eq_ok_iff.2 ⟨h.unblocked, hbytes, filePlace_eq husable.nameable, rfl⟩
  have hinsert := Database.insertWithContent_of_fresh h.refusal_eq
    (show (described (c.named ids request.record) bytes).id ∉ c.database.records from hfresh)
    (show (described (c.named ids request.record) bytes).id ∉ c.database.contents from
      mt (h.mem_records _) hfresh)
  rw [described] at hinsert
  simp only [createContentFrom, assignFrom_of_new hid, StoredCatalog.createContent,
    assignId_named husable, hcopy, hinsert]
  refine ⟨_, rfl, ⟨h.unblocked, h.refusal_eq, fun id hid => ?_⟩, rfl, rfl⟩
  rcases Std.ExtTreeMap.mem_insert.1 hid with heq | hid
  · exact Std.ExtTreeMap.mem_insert.2 (.inl heq)
  · exact Std.ExtTreeMap.mem_insert.2 (.inr (h.mem_records id hid))

theorem update [Json.NumberReader] (h : c.IsPlain) {r : Record} (hr : c.database.Stores r)
    (hkept : r.IsKept) (changes : Attributes) :
    ∃ d : StoredCatalog, c.update r.id changes = (.ok (r.overlaid changes), d) ∧ d.IsPlain ∧
      d.issued = c.issued ∧
      d.database.records = c.database.records.insert r.id (r.overlaid changes).row := by
  have hupdate : c.database.update r.id changes = .ok (r.overlaid changes, { c.database with
      records := c.database.records.insert r.id (r.overlaid changes).row }) := by
    rw [Database.update, (Database.get_eq_self_iff_of_stores hr).2 hkept]
    rfl
  rw [StoredCatalog.update, hupdate]
  refine ⟨_, rfl, ⟨h.unblocked, h.refusal_eq, fun id hid => ?_⟩, rfl, rfl⟩
  exact Std.ExtTreeMap.mem_insert.2 (.inr (h.mem_records id hid))

end IsPlain

theorem update_of_missing [Json.NumberReader] {c : StoredCatalog} {id : String}
    (hr : c.database.records[id]? = none) (changes : Attributes) :
    ∃ reason : String, c.update id changes = (.error (.rejected reason), c) := by
  have hupdate : c.database.update id changes = .error (.notFound id) := by
    rw [Database.update, Database.get, hr]
    rfl
  rw [update, hupdate]
  exact ⟨_, rfl⟩

end StoredCatalog

end StreamCatalog
