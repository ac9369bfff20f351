import StreamCatalog.Catalog.Stored
import StreamCatalog.Proofs.Database.Tables

/-!
# Contents that cannot be stored

A content is copied before its rows are inserted, and the copy is removed when they
cannot be. A creation that fails leaves the database and all other files as they were.
A file that had the place of the copy before is lost, and what a copy has written that
breaks off stays (`createContentBy_error`). So the content of a record is lost that is
created once more (`createContent_again`).
-/

namespace StreamCatalog

namespace ContentDirectory

/-- A directory with what is left of a file, in the place of one that has its name. -/
def withLeft (d : ContentDirectory) (name : String) (left : Option Bytes) : ContentDirectory :=
  left.elim (d.withoutFile name) (d.withFile name)

theorem getElem?_withLeft (d : ContentDirectory) (name other : String) (left : Option Bytes) :
    (d.withLeft name left).files[other]? = if name = other then left else d.files[other]? := by
  have hcompare : compare name other = .eq ↔ name = other := Std.LawfulEqCmp.compare_eq_iff_eq
  cases left with
  | none =>
    rw [withLeft, Option.elim_none, withoutFile, Std.ExtTreeMap.getElem?_erase]
    simp only [hcompare]
  | some bytes =>
    rw [withLeft, Option.elim_some, withFile, Std.ExtTreeMap.getElem?_insert]
    simp only [hcompare]

/-- What is left changes nothing just when it was there before. -/
theorem withLeft_eq_self_iff {d : ContentDirectory} {name : String} {left : Option Bytes} :
    d.withLeft name left = d ↔ d.files[name]? = left := by
  have hself := d.getElem?_withLeft name name left
  rw [if_pos rfl] at hself
  refine ⟨fun h => h ▸ hself, fun h => ?_⟩
  have hfiles : (d.withLeft name left).files = d.files := by
    refine Std.ExtTreeMap.ext_getElem? fun other => ?_
    rw [getElem?_withLeft]
    split
    case isTrue heq => rw [← heq, h]
    case isFalse => rfl
  cases left <;> exact congrArg (fun files => { d with files := files }) hfiles

/-- Putting a file into a directory and removing it removes what had its name. -/
theorem withoutFile_withFile (d : ContentDirectory) (name : String) (bytes : Bytes) :
    (d.withFile name bytes).withoutFile name = d.withoutFile name := by
  have hfiles : (d.files.insert name bytes).erase name = d.files.erase name := by
    refine Std.ExtTreeMap.ext_getElem? fun other => ?_
    simp only [Std.ExtTreeMap.getElem?_erase, Std.ExtTreeMap.getElem?_insert]
    split <;> rfl
  simp only [withoutFile, withFile, hfiles]

end ContentDirectory

/-- What a file system and a database make of the creation of a content. -/
structure CreationFaults where
  /-- The file of the directory that a path leads to, which links and outer directories may decide. -/
  place : String → Except FileFault String
  /-- How the copy breaks off, if it does. -/
  breaks : Option CopyBreak
  /-- The faults that the insertion of the rows meets. -/
  statements : DatabaseCall.Faults

/-- No faults, in a directory without directories. -/
def CreationFaults.none : CreationFaults := ⟨filePlace, .none, fun _ => .none⟩

/-- What a failed creation leaves where its copy went: what the copy has written, if it broke off. -/
def CreationFaults.left (faults : CreationFaults) (bytes : Bytes) : Option Bytes :=
  faults.breaks.map fun b => bytes.take b.written

namespace StoredCatalog

/-! ## Copying -/

/-- The path of the file that a request stores. -/
def contentPath (c : StoredCatalog) (request : ContentRequest) : String :=
  fileName (c.assignId request.record).1.id

/-- Whether the bytes of a request are copied to a file of the directory. -/
structure CopiesTo (c : StoredCatalog) (faults : CreationFaults) (request : ContentRequest)
    (name : String) (bytes : Bytes) : Prop where
  /-- There is a directory. -/
  unblocked : c.directory.blocked = false
  /-- There is a file to copy. -/
  bytes_eq : request.source.bytes? = some bytes
  /-- The path leads to the file. -/
  place_eq : faults.place (c.contentPath request) = .ok name

@[simp] theorem database_assignId (c : StoredCatalog) (r : Record) :
    (c.assignId r).2.database = c.database := by
  rw [assignId]
  split <;> rfl

@[simp] theorem directory_assignId (c : StoredCatalog) (r : Record) :
    (c.assignId r).2.directory = c.directory := by
  rw [assignId]
  split <;> rfl

/-- The copy that a request makes first. -/
def copyFor (c : StoredCatalog) (faults : CreationFaults) (request : ContentRequest) :
    Except CatalogError (String × Bytes) × StoredCatalog :=
  (c.assignId request.record).2.copy (faults.place (c.contentPath request)) faults.breaks
    request.source

/-- What comes of copying: it is refused, it breaks off, or the copy takes the place of what was
there. -/
theorem copyFor_cases (c : StoredCatalog) (faults : CreationFaults) (request : ContentRequest) :
    ((∀ name bytes, ¬c.CopiesTo faults request name bytes) ∧
      ∃ e, c.copyFor faults request = (.error e, (c.assignId request.record).2)) ∨
    ∃ name bytes, c.CopiesTo faults request name bytes ∧
      ((∃ b e, faults.breaks = some b ∧ c.copyFor faults request = (.error e,
          { (c.assignId request.record).2 with
            directory := c.directory.withFile name (bytes.take b.written) })) ∨
        (faults.breaks = .none ∧ c.copyFor faults request = (.ok (name, bytes),
          { (c.assignId request.record).2 with
            directory := c.directory.withFile name bytes }))) := by
  rw [copyFor, copy, directory_assignId]
  cases hblocked : c.directory.blocked with
  | true =>
    refine .inl ⟨fun name bytes h => ?_, _, rfl⟩
    cases h.unblocked.symm.trans hblocked
  | false =>
    simp only [Bool.false_eq_true, if_false]
    cases hbytes : request.source.bytes? with
    | none =>
      refine .inl ⟨fun name bytes h => ?_, _, rfl⟩
      cases h.bytes_eq.symm.trans hbytes
    | some bytes =>
      cases hplace : faults.place (c.contentPath request) with
      | error fault =>
        refine .inl ⟨fun name bytes h => ?_, _, rfl⟩
        cases h.place_eq.symm.trans hplace
      | ok name =>
        refine .inr ⟨name, bytes, ⟨hblocked, hbytes, hplace⟩, ?_⟩
        cases faults.breaks with
        | some b => exact .inl ⟨b, _, rfl, rfl⟩
        | none => exact .inr ⟨rfl, rfl⟩

/-! ## Creations that fail -/

/-- Create a record with content, where copying and the insertion of its rows may meet faults. -/
def createContentBy (faults : CreationFaults) (request : ContentRequest) (c : StoredCatalog) :
    Except CatalogError Record × StoredCatalog :=
  match c.copyFor faults request with
  | (.error e, c) => (.error e, c)
  | (.ok (name, bytes), stored) =>
    let r := (c.assignId request.record).1
    let r := r.set AttributeName.resourceUri (.text (contentUri r.id))
    let r := r.set AttributeName.resourceSize (.integer bytes.length)
    let row :=
      ⟨joinPath c.directory.path (c.contentPath request), bytes.length, request.mimeType⟩
    match (DatabaseCall.insertWithContent r row).run faults.statements ⟨stored.database, none⟩ with
    | (.error e, database) =>
      (.error (refusalOf e), { stored with
        database := database.tables
        directory := stored.directory.withoutFile name })
    | (.ok r, database) => (.ok r, { stored with database := database.tables })

/-- Where nothing meets faults, this is how contents are created. -/
theorem createContentBy_none (request : ContentRequest) (c : StoredCatalog) :
    c.createContentBy .none request = c.createContent request := by
  simp only [createContentBy, createContent, copyFor, CreationFaults.none, contentPath,
    directory_assignId]
  rcases (c.assignId request.record).2.copy (filePlace (fileName (c.assignId request.record).1.id))
      .none request.source with ⟨e | ⟨name, bytes⟩, stored⟩
  · rfl
  · simp only
    generalize ((c.assignId request.record).1.set _ _).set _ _ = r
    generalize (⟨_, _, _⟩ : ContentRow) = row
    cases hinsert : stored.database.insertWithContent r row with
    | error e =>
      have happly : (DatabaseCall.insertWithContent r row).apply stored.database = .error e := by
        rw [DatabaseCall.apply, hinsert]
        rfl
      rw [DatabaseCall.run_of_apply_error happly]
    | ok database =>
      have happly : (DatabaseCall.insertWithContent r row).apply stored.database =
          .ok (r, database) := by
        rw [DatabaseCall.apply, hinsert]
        rfl
      rw [DatabaseCall.run_of_apply happly]

/-- What a failed creation leaves: the database, and the directory but for the place of the copy. -/
theorem left_of_createContentBy_error {faults : CreationFaults} {request : ContentRequest}
    {c after : StoredCatalog} {e : CatalogError}
    (h : c.createContentBy faults request = (.error e, after)) :
    after.database = c.database ∧
      (((∀ name bytes, ¬c.CopiesTo faults request name bytes) ∧ after.directory = c.directory) ∨
        ∃ name bytes, c.CopiesTo faults request name bytes ∧
          after.directory = c.directory.withLeft name (faults.left bytes)) := by
  rw [createContentBy] at h
  rcases c.copyFor_cases faults request with
    ⟨hrefused, e', hcopy⟩ | ⟨name, bytes, hcopies, ⟨b, e', hbreaks, hcopy⟩ | ⟨hwhole, hcopy⟩⟩
  · rw [hcopy] at h
    cases h
    exact ⟨c.database_assignId _, .inl ⟨hrefused, c.directory_assignId _⟩⟩
  · rw [hcopy] at h
    cases h
    refine ⟨c.database_assignId _, .inr ⟨name, bytes, hcopies, ?_⟩⟩
    rw [CreationFaults.left, hbreaks]
    rfl
  · rw [hcopy] at h
    simp only at h
    generalize ((c.assignId request.record).1.set _ _).set _ _ = r at h
    generalize (⟨_, _, _⟩ : ContentRow) = row at h
    rcases Database.run_cases faults.statements (.insertWithContent r row)
      (c.assignId request.record).2.database with ⟨e', hrun⟩ | ⟨r', database, -, hrun⟩
    · -- The copy is removed, and takes along the file that it had replaced.
      rw [hrun] at h
      cases h
      refine ⟨c.database_assignId _, .inr ⟨name, bytes, hcopies, ?_⟩⟩
      rw [CreationFaults.left, hwhole]
      exact c.directory.withoutFile_withFile name bytes
    · rw [hrun] at h
      cases h

/-- A creation of content that fails, whether its copy breaks off or any of its statements fails,
leaves the records, the contents and all files but the one that it copied to. There it leaves what
a broken copy has written, and else nothing. So it leaves the directory just when nothing was
copied, or that was there before. -/
theorem createContentBy_error {faults : CreationFaults} {request : ContentRequest}
    {c after : StoredCatalog} {e : CatalogError}
    (h : c.createContentBy faults request = (.error e, after)) :
    after.database = c.database ∧
      (∀ other, (∀ bytes, ¬c.CopiesTo faults request other bytes) →
        after.directory.files[other]? = c.directory.files[other]?) ∧
      (∀ name bytes, c.CopiesTo faults request name bytes →
        after.directory.files[name]? = faults.left bytes) ∧
      (after.directory = c.directory ↔ ∀ name bytes, c.CopiesTo faults request name bytes →
        c.directory.files[name]? = faults.left bytes) := by
  obtain ⟨hdatabase, ⟨hrefused, hdirectory⟩ | ⟨name, bytes, hcopies, hdirectory⟩⟩ :=
    left_of_createContentBy_error h
  · rw [hdirectory]
    exact ⟨hdatabase, fun _ _ => rfl, fun name bytes hcan => absurd hcan (hrefused name bytes),
      iff_of_true rfl fun name bytes hcan => absurd hcan (hrefused name bytes)⟩
  · have hself : ∀ name' bytes', c.CopiesTo faults request name' bytes' →
        name' = name ∧ bytes' = bytes := fun name' bytes' h' =>
      ⟨Except.ok.inj (h'.place_eq.symm.trans hcopies.place_eq),
        Option.some.inj (h'.bytes_eq.symm.trans hcopies.bytes_eq)⟩
    rw [hdirectory]
    refine ⟨hdatabase, fun other hother => ?_, fun name' bytes' h' => ?_, ?_⟩
    · have hne : name ≠ other := fun heq => hother bytes (heq ▸ hcopies)
      rw [ContentDirectory.getElem?_withLeft, if_neg hne]
    · obtain ⟨rfl, rfl⟩ := hself name' bytes' h'
      rw [ContentDirectory.getElem?_withLeft, if_pos rfl]
    · rw [ContentDirectory.withLeft_eq_self_iff]
      refine ⟨fun hsame name' bytes' h' => ?_, fun hall => hall name bytes hcopies⟩
      obtain ⟨rfl, rfl⟩ := hself name' bytes' h'
      exact hsame

/-- A child that is stored with a packet of the stream. -/
def tileRequest : ContentRequest := ⟨Database.tile, ⟨"chunk.ts", some [0x47]⟩, chunkMimeType⟩

/-- The third of the statements that insert a record and its content fails. -/
def thirdFault : DatabaseCall.Faults := fun n => if n = 2 then some (.refused "disk full") else none

theorem tile_left :
    ∃ e after, (empty "content").createContentBy { CreationFaults.none with statements := thirdFault }
        tileRequest = (.error e, after) ∧
      after.database = (empty "content").database ∧
      after.directory = (empty "content").directory := by
  obtain ⟨hdatabase, -, -, hdirectory⟩ := createContentBy_error
    (show (empty "content").createContentBy { CreationFaults.none with statements := thirdFault }
      tileRequest = (.error _, _) from rfl)
  exact ⟨_, _, rfl, hdatabase, hdirectory.2 fun _ _ _ => Std.ExtTreeMap.getElem?_empty⟩

/-! ## Creating a content again -/

/-- A copy that does not break off is made where there is a directory, a file to copy and a place for
it. -/
theorem copy_none_eq_ok_iff {c after : StoredCatalog} {place : Except FileFault String}
    {source : ContentSource} {name : String} {bytes : Bytes} :
    c.copy place none source = (.ok (name, bytes), after) ↔
      c.directory.blocked = false ∧ source.bytes? = some bytes ∧ place = .ok name ∧
        after = { c with directory := c.directory.withFile name bytes } := by
  rw [copy]
  cases c.directory.blocked with
  | true => simp
  | false =>
    cases source.bytes? with
    | none => simp
    | some copied =>
      cases place with
      | error fault => simp
      | ok found =>
        simp only [Bool.false_eq_true, if_false, Prod.mk.injEq, Except.ok.injEq, true_and,
          Option.some.injEq]
        constructor
        · rintro ⟨⟨rfl, rfl⟩, rfl⟩
          exact ⟨rfl, rfl, rfl⟩
        · rintro ⟨rfl, rfl, rfl⟩
          exact ⟨⟨rfl, rfl⟩, rfl⟩

/-- What a creation of content leaves that is accepted. -/
theorem exists_of_createContent {request : ContentRequest} {c : StoredCatalog} {r : Record}
    (hid : request.record.id ≠ "") (h : (c.createContent request).1 = .ok r) :
    ∃ name bytes database, c.directory.blocked = false ∧ request.source.bytes? = some bytes ∧
      filePlace (fileName request.record.id) = .ok name ∧ request.record.id ∈ database.records ∧
      request.record.id ∈ database.contents ∧ (c.createContent request).2 =
        { c with database := database, directory := c.directory.withFile name bytes } := by
  have hassigned : c.assignId request.record = (request.record, c) := if_neg hid
  simp only [createContent, hassigned] at h ⊢
  rcases hcopy : c.copy (filePlace (fileName request.record.id)) none request.source with
    ⟨e | ⟨name, bytes⟩, stored⟩
  · rw [hcopy] at h
    cases h
  · obtain ⟨hunblocked, hbytes, hplace, rfl⟩ := copy_none_eq_ok_iff.1 hcopy
    rw [hcopy] at h
    simp only at h ⊢
    generalize hrow : (⟨_, _, _⟩ : ContentRow) = row at h ⊢
    generalize hr : (request.record.set _ _).set _ _ = stored at h ⊢
    have hstored : stored.id = request.record.id := hr ▸ rfl
    cases hinsert : c.database.insertWithContent stored row with
    | error e =>
      rw [hinsert] at h
      cases h
    | ok database =>
      have haccepted : Database.Accepted c.database (.insertWithContent stored row) stored database :=
        Database.accepted_of_apply (by rw [DatabaseCall.apply, hinsert]; rfl)
      refine ⟨name, bytes, database, hunblocked, hbytes, hplace, ?_, ?_, rfl⟩
      · rw [← hstored, haccepted.records_eq]
        exact Std.ExtTreeMap.mem_insert_self
      · rw [← hstored]
        cases haccepted
        exact Std.ExtTreeMap.mem_insert_self

/-- The creation of a content is refused when there is a record of its identifier. -/
theorem createContent_of_mem {request : ContentRequest} {c : StoredCatalog} {name : String}
    {bytes : Bytes} (hid : request.record.id ≠ "") (hcopies : c.CopiesTo .none request name bytes)
    (hmem : request.record.id ∈ c.database.records) :
    ∃ e, c.createContent request =
      (.error e, { c with directory := c.directory.withoutFile name }) := by
  have hassigned : c.assignId request.record = (request.record, c) := if_neg hid
  have hplace := hcopies.place_eq
  rw [contentPath, hassigned] at hplace
  have hcopy := copy_none_eq_ok_iff.2 ⟨hcopies.unblocked, hcopies.bytes_eq, hplace, rfl⟩
  rw [CreationFaults.none] at hcopy
  simp only [createContent, hassigned, hcopy]
  generalize hrow : (⟨_, _, _⟩ : ContentRow) = row
  generalize hr : (request.record.set _ _).set _ _ = stored
  have hstored : stored.id = request.record.id := hr ▸ rfl
  have hinsert : c.database.insertWithContent stored row = .error .duplicateRecord := by
    rw [Database.insertWithContent, Database.insert, if_pos (hstored ▸ hmem)]
    rfl
  rw [hinsert]
  have hfiles := c.directory.withoutFile_withFile name bytes
  exact ⟨_, Prod.ext rfl (congrArg (fun directory => { c with directory := directory }) hfiles)⟩

/-- A content that is created once more, under its own identifier, is lost: the second creation is
refused, and removes the file of the first, whose rows stay. -/
theorem createContent_again {request : ContentRequest} (c : StoredCatalog) {r : Record}
    (hid : request.record.id ≠ "") (h : (c.createContent request).1 = .ok r) :
    let once := (c.createContent request).2
    let again := once.createContent request
    ∃ name, filePlace (fileName request.record.id) = .ok name ∧ (∃ e, again.1 = .error e) ∧
      again.2.database = once.database ∧ request.record.id ∈ once.database.contents ∧
      request.source.bytes?.isSome ∧ once.directory.files[name]? = request.source.bytes? ∧
      again.2.directory.files[name]? = none := by
  obtain ⟨name, bytes, database, hunblocked, hbytes, hplace, hrecord, hcontent, honce⟩ :=
    exists_of_createContent hid h
  have hcopies : (c.createContent request).2.CopiesTo .none request name bytes := by
    rw [honce]
    refine ⟨hunblocked, hbytes, ?_⟩
    rw [contentPath, assignId, if_neg hid]
    exact hplace
  obtain ⟨e, hagain⟩ := createContent_of_mem hid hcopies (by rw [honce]; exact hrecord)
  rw [honce] at hagain ⊢
  simp only [hagain, hbytes]
  exact ⟨name, hplace, ⟨e, rfl⟩, trivial, hcontent, rfl, Std.ExtTreeMap.getElem?_insert_self,
    Std.ExtTreeMap.getElem?_erase_self⟩

/-- A refused creation leaves a content whose file is gone. -/
theorem tile_lost :
    let once := ((empty "content").createContent tileRequest).2
    let again := once.createContent tileRequest
    (∃ e, again.1 = .error e) ∧ "c1" ∈ again.2.database.contents ∧
      once.directory.files["c1.ts"]? = some [0x47] ∧ again.2.directory.files["c1.ts"]? = none := by
  obtain ⟨name, hplace, herror, hdatabase, hcontent, -, hstored, hlost⟩ :=
    createContent_again (empty "content") (show tileRequest.record.id ≠ "" by decide) rfl
  have hname : filePlace (fileName tileRequest.record.id) = .ok "c1.ts" := rfl
  cases hname.symm.trans hplace
  exact ⟨herror, hdatabase ▸ hcontent, hstored, hlost⟩

end StoredCatalog

end StreamCatalog
