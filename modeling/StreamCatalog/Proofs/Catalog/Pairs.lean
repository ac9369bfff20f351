import Mathlib.Data.List.Nodup
import Mathlib.Data.List.Forall2
import StreamCatalog.Proofs.Catalog.Keeper
import StreamCatalog.Proofs.Catalog.Requests

/-!
# Records of two catalogs

The records of the catalog in memory and of the one in a database are paired as they are
created. While all attributes are read back as they are, one request keeps the pairs, makes at
most one more, and is answered alike (`Simulates.answer`); so are many (`Simulates.answerAll`).
-/

namespace StreamCatalog

/-! ## What corresponds -/

/-- The identifiers of one record in the two catalogs. -/
structure Twin where
  /-- Its identifier in memory. -/
  inMemory : String
  /-- Its identifier in the database. -/
  inDatabase : String
  /-- Whether it was created with content. -/
  hasContent : Bool

/-- Whether no identifier is that of two records. -/
structure AreOneToOne (twins : List Twin) : Prop where
  /-- Not in memory. -/
  nodup_inMemory : (twins.map Twin.inMemory).Nodup
  /-- Not in the database. -/
  nodup_inDatabase : (twins.map Twin.inDatabase).Nodup

/-- Whether two identifiers are those of one record, or of none. -/
def SameId (twins : List Twin) (s t : String) : Prop :=
  ∀ w ∈ twins, w.inMemory = s ↔ w.inDatabase = t

/-- How attributes of the two catalogs correspond: as equal ones, or up to the identifiers in their
texts, or in whichever way the requests do. -/
abbrev Correspondence := Attribute → Attribute → Prop

section Agreement

variable (R : Correspondence)

/-- Whether two maps have corresponding attributes of the same names. -/
def AttributesAgree (m m' : Attributes) : Prop :=
  ∀ name : String, Option.Rel R m[name]? m'[name]?

/-- Whether two records are those of a pair: of one kind, with corresponding attributes. The address
of a content is left out. -/
structure RecordsAgree (w : Twin) (r r' : Record) : Prop where
  /-- The identifier in memory. -/
  id_eq : r.id = w.inMemory
  /-- The identifier in the database. -/
  id_eq' : r'.id = w.inDatabase
  /-- The kind. -/
  kind_eq : r.kind = r'.kind
  /-- The attributes. -/
  get?_rel : ∀ name, (w.hasContent = true → name ≠ AttributeName.resourceUri) →
    Option.Rel R (r.get? name) (r'.get? name)

/-- Whether two requests are the same: for a new record, or about the records of a pair. -/
inductive RequestsAgree (twins : List Twin) : CatalogRequest → CatalogRequest → Prop where
  /-- A new record. -/
  | create (r r' : Record) (id_eq : r.id = "") (id_eq' : r'.id = "") (kind_eq : r.kind = r'.kind)
      (attributes : AttributesAgree R r.attributes r'.attributes) :
      RequestsAgree twins (.create r) (.create r')
  /-- A new record with content. -/
  | createContent (q q' : ContentRequest) (id_eq : q.record.id = "") (id_eq' : q'.record.id = "")
      (kind_eq : q.record.kind = q'.record.kind)
      (attributes : AttributesAgree R q.record.attributes q'.record.attributes)
      (bytes_eq : q.source.bytes? = q'.source.bytes?) :
      RequestsAgree twins (.createContent q) (.createContent q')
  /-- Changes of a record. -/
  | update (id id' : String) (changes changes' : Attributes) (sameId : SameId twins id id')
      (attributes : AttributesAgree R changes changes') :
      RequestsAgree twins (.update id changes) (.update id' changes')
  /-- A record. -/
  | get (id id' : String) (sameId : SameId twins id id') :
      RequestsAgree twins (.get id) (.get id')

/-- Whether two answers are the same: the records of a pair, or none, or a rejection. -/
inductive AnswersAgree (twins : List Twin) :
    Except CatalogError (Option Record) → Except CatalogError (Option Record) → Prop where
  /-- Both are records. -/
  | record (w : Twin) (known : w ∈ twins) (r r' : Record) (agree : RecordsAgree R w r r') :
      AnswersAgree twins (.ok (some r)) (.ok (some r'))
  /-- There is no record. -/
  | none : AnswersAgree twins (.ok none) (.ok none)
  /-- Both are rejected. -/
  | rejected (reason reason' : String) :
      AnswersAgree twins (.error (.rejected reason)) (.error (.rejected reason'))

/-- Whether the records of two catalogs are those of the pairs. -/
structure StatesAgree [Json.NumberReader] (twins : List Twin) (c : MemoryCatalog)
    (d : StoredCatalog) : Prop where
  /-- There are no others in memory. -/
  exists_inMemory : ∀ id, id ∈ c.records → ∃ w ∈ twins, w.inMemory = id
  /-- There are no others in the database. -/
  exists_inDatabase : ∀ id, id ∈ d.database.records → ∃ w ∈ twins, w.inDatabase = id
  /-- Each pair is stored. -/
  exists_records : ∀ w ∈ twins, ∃ r r', c.records[w.inMemory]? = some r ∧
    d.database.get w.inDatabase = .ok (some r') ∧ RecordsAgree R w r r'

/-- The pair that a request makes, when so many identifiers were given in memory and in the
database. -/
def CatalogRequest.twin? (ids : Nat → String) (m n : Nat) : CatalogRequest → Option Twin
  | .create r => some ⟨MemoryCatalog.idText r.kind (m + 1), ids n, false⟩
  | .createContent q =>
    if q.source.bytes?.isSome then some ⟨MemoryCatalog.idText q.record.kind (m + 1), ids n, true⟩
    else none
  | _ => none

/-- How many identifiers a request takes in the database: one for a content that is not there, too. -/
def CatalogRequest.taken : CatalogRequest → Nat
  | .create _ | .createContent _ => 1
  | _ => 0

theorem CatalogRequest.taken_le (q : CatalogRequest) : q.taken ≤ 1 := by
  cases q <;> simp [taken]

/-- The pairs that requests make. -/
def twinsFrom (ids : Nat → String) : Nat → Nat → List CatalogRequest → List Twin
  | _, _, [] => []
  | m, n, q :: rest =>
    let made := (q.twin? ids m n).toList
    made ++ twinsFrom ids (m + made.length) (n + q.taken) rest

/-! ## Pairs as they are kept -/

/-- Whether the pairs are stored and read back, in catalogs that do what they are asked for. -/
structure Simulates [Json.NumberReader] (twins : List Twin) (c : MemoryCatalog)
    (d : StoredCatalog) : Prop where
  /-- No failure is scripted. -/
  isPlain : c.IsPlain
  /-- Contents can be stored. -/
  isPlain' : d.IsPlain
  /-- There are no other records in memory. -/
  exists_inMemory : ∀ id, id ∈ c.records → ∃ w ∈ twins, w.inMemory = id
  /-- There are no other records in the database. -/
  exists_inDatabase : ∀ id, id ∈ d.database.records → ∃ w ∈ twins, w.inDatabase = id
  /-- Each pair is stored. -/
  stores : ∀ w ∈ twins, ∃ r r', c.records[w.inMemory]? = some r ∧ d.database.Stores r' ∧
    r'.IsKept ∧ RecordsAgree R w r r'

end Agreement

variable {R : Correspondence} {twins : List Twin} {c c' : MemoryCatalog} {d d' : StoredCatalog}
  {w : Twin} {r r' : Record}

theorem AreOneToOne.eq_of_inMemory (h : AreOneToOne twins) {v : Twin} (hv : v ∈ twins)
    (hw : w ∈ twins) (heq : v.inMemory = w.inMemory) : v = w :=
  List.inj_on_of_nodup_map h.nodup_inMemory hv hw heq

theorem AreOneToOne.eq_of_inDatabase (h : AreOneToOne twins) {v : Twin} (hv : v ∈ twins)
    (hw : w ∈ twins) (heq : v.inDatabase = w.inDatabase) : v = w :=
  List.inj_on_of_nodup_map h.nodup_inDatabase hv hw heq

namespace Simulates

variable [Json.NumberReader]

theorem statesAgree (h : Simulates R twins c d) : StatesAgree R twins c d where
  exists_inMemory := h.exists_inMemory
  exists_inDatabase := h.exists_inDatabase
  exists_records w hw := by
    obtain ⟨r, r', hr, hstores, hkept, hagree⟩ := h.stores w hw
    refine ⟨r, r', hr, ?_, hagree⟩
    rw [← hagree.id_eq']
    exact (Database.get_eq_self_iff_of_stores hstores).2 hkept

/-- A pair is stored, in the place of what its identifiers stood for. -/
theorem store (h : Simulates R twins c d) {twins' : List Twin} (hone : AreOneToOne twins')
    (hw : w ∈ twins') (hsub : ∀ v ∈ twins, v ∈ twins') (hothers : ∀ v ∈ twins', v = w ∨ v ∈ twins)
    (hplain : c'.IsPlain) (hplain' : d'.IsPlain)
    (hrecords : c'.records = c.records.insert r.id r)
    (hrows : d'.database.records = d.database.records.insert r'.id r'.row)
    (hagree : RecordsAgree R w r r') (hkept : r'.IsKept) : Simulates R twins' c' d' where
  isPlain := hplain
  isPlain' := hplain'
  exists_inMemory id hid := by
    rw [hrecords, hagree.id_eq, Std.ExtTreeMap.mem_insert] at hid
    rcases hid with heq | hid
    · exact ⟨w, hw, Std.LawfulEqCmp.eq_of_compare heq⟩
    · obtain ⟨v, hv, hid⟩ := h.exists_inMemory id hid
      exact ⟨v, hsub v hv, hid⟩
  exists_inDatabase id hid := by
    rw [hrows, hagree.id_eq', Std.ExtTreeMap.mem_insert] at hid
    rcases hid with heq | hid
    · exact ⟨w, hw, Std.LawfulEqCmp.eq_of_compare heq⟩
    · obtain ⟨v, hv, hid⟩ := h.exists_inDatabase id hid
      exact ⟨v, hsub v hv, hid⟩
  stores v hv := by
    by_cases hvw : v = w
    · subst hvw
      refine ⟨r, r', ?_, ?_, hkept, hagree⟩
      · rw [hrecords, ← hagree.id_eq, Std.ExtTreeMap.getElem?_insert_self]
      · rw [Database.Stores, hrows, Std.ExtTreeMap.getElem?_insert_self]
    · -- The identifiers of another pair are others on both sides.
      obtain ⟨q, q', hq, hstores, hkept', hagree'⟩ :=
        h.stores v ((hothers v hv).resolve_left hvw)
      refine ⟨q, q', ?_, ?_, hkept', hagree'⟩
      · have hne : w.inMemory ≠ v.inMemory := fun heq => hvw (hone.eq_of_inMemory hv hw heq.symm)
        rw [hrecords, hagree.id_eq, Records.getElem?_insert_of_ne hne, hq]
      · have hne : r'.id ≠ q'.id := by
          rw [hagree.id_eq', hagree'.id_eq']
          exact fun heq => hvw (hone.eq_of_inDatabase hv hw heq.symm)
        rw [Database.Stores, hrows, Std.ExtTreeMap.getElem?_insert,
          if_neg (mt Std.LawfulEqCmp.eq_of_compare hne), hstores]

/-- What two identifiers of one record, or of none, stand for. -/
theorem lookup (h : Simulates R twins c d) {s t : String} (hsame : SameId twins s t) :
    (c.records[s]? = none ∧ d.database.records[t]? = none) ∨
      ∃ w ∈ twins, w.inMemory = s ∧ w.inDatabase = t := by
  by_cases hs : s ∈ c.records
  · obtain ⟨w, hw, hid⟩ := h.exists_inMemory s hs
    exact .inr ⟨w, hw, hid, (hsame w hw).1 hid⟩
  · by_cases ht : t ∈ d.database.records
    · obtain ⟨w, hw, hid⟩ := h.exists_inDatabase t ht
      exact .inr ⟨w, hw, (hsame w hw).2 hid, hid⟩
    · exact .inl ⟨Std.ExtTreeMap.getElem?_eq_none hs, Std.ExtTreeMap.getElem?_eq_none ht⟩

end Simulates

/-! ## Attributes -/

theorem rel_or {a a' b b' : Option Attribute} (ha : Option.Rel R a a') (hb : Option.Rel R b b') :
    Option.Rel R (a.or b) (a'.or b') := by
  cases ha with
  | none => exact hb
  | some h => exact .some h

theorem RecordsAgree.overlaid (h : RecordsAgree R w r r') {changes changes' : Attributes}
    (hchanges : AttributesAgree R changes changes') :
    RecordsAgree R w (r.overlaid changes) (r'.overlaid changes') where
  id_eq := h.id_eq
  id_eq' := h.id_eq'
  kind_eq := h.kind_eq
  get?_rel name hname := by
    rw [Record.get?_overlaid, Record.get?_overlaid]
    exact rel_or (hchanges name) (h.get?_rel name hname)

theorem Attribute.isKept_text [Json.NumberReader] (s : String) : (text s).IsKept :=
  ⟨show 1 < Json.maxDepth by decide, rfl⟩

theorem Attribute.isKept_size [Json.NumberReader] {n : Nat} (h : n < 1 <<< 63) :
    (integer n).IsKept := by
  have hleast : Json.leastInt ≤ 0 := by decide
  have hless : (n : ℤ) < (1 <<< 63 : Nat) := by exact_mod_cast h
  refine ⟨show 1 < Json.maxDepth by decide, ?_⟩
  rw [reread?, if_pos ⟨by omega, hless⟩]

theorem Record.IsKept.set [Json.NumberReader] (h : r.IsKept) (name : String) {a : Attribute}
    (ha : a.IsKept) : (r.set name a).IsKept := by
  intro other b hb
  rw [get?_set] at hb
  split at hb
  case isTrue => exact Option.some.inj hb ▸ ha
  case isFalse => exact h other b hb

theorem Record.IsKept.overlaid [Json.NumberReader] (h : r.IsKept) {changes : Attributes}
    (hchanges : ∀ (name : String) (a : Attribute), changes[name]? = some a → a.IsKept) :
    (r.overlaid changes).IsKept := by
  intro name a ha
  rw [get?_overlaid] at ha
  rcases Option.or_eq_some_iff.1 ha with ha | ⟨-, ha⟩
  · exact hchanges name a ha
  · exact h name a ha

/-! ## One request -/

/-- The attributes that a request brings. -/
def CatalogRequest.attributes : CatalogRequest → Attributes
  | .create r => r.attributes
  | .createContent request => request.record.attributes
  | .update _ changes => changes
  | .get _ => ∅

/-- Whether a request brings only such attributes, and no content beyond the sizes that files have. -/
structure CatalogRequest.Brings (allowed : Attribute → Prop) (q : CatalogRequest) : Prop where
  /-- Its attributes are such ones. -/
  allowed : ∀ (name : String) (a : Attribute), q.attributes[name]? = some a → allowed a
  /-- The size of its content is a whole number of 64 bits. -/
  length_lt : ∀ request bytes, q = .createContent request → request.source.bytes? = some bytes →
    bytes.length < 1 <<< 63

/-- What comes of a request and one that is the same. -/
structure Steps [Json.NumberReader] (R : Correspondence) (ids : Nat → String) (twins : List Twin)
    (c : MemoryCatalog) (d : StoredCatalog) (q : CatalogRequest)
    (result : Except CatalogError (Option Record) × MemoryCatalog)
    (result' : Except CatalogError (Option Record) × StoredCatalog) : Prop where
  /-- The answers are the same. -/
  answers : AnswersAgree R (twins ++ (q.twin? ids c.issued d.issued).toList) result.1 result'.1
  /-- The pairs are stored, with the one that is made. -/
  simulates : Simulates R (twins ++ (q.twin? ids c.issued d.issued).toList) result.2 result'.2
  /-- A pair takes an identifier in memory. -/
  issued_eq : result.2.issued = c.issued + (q.twin? ids c.issued d.issued).toList.length
  /-- What was asked for takes an identifier in the database. -/
  issued_eq' : result'.2.issued = d.issued + q.taken

namespace Simulates

variable [Json.NumberReader] {ids : Nat → String}

theorem adds (h : Simulates R twins c d) (hone : AreOneToOne (twins ++ [w])) (hc : c.Adds r c')
    (hd : d.Adds r' d') (hagree : RecordsAgree R w r r') (hkept : r'.IsKept) :
    Simulates R (twins ++ [w]) c' d' := by
  refine h.store hone (List.mem_append_right _ (List.mem_singleton_self w))
    (fun v hv => List.mem_append_left _ hv) ?_ hc.isPlain hd.isPlain hc.records_eq hd.records_eq
    hagree hkept
  intro v hv
  rcases List.mem_append.1 hv with hv | hv
  · exact .inr hv
  · exact .inl (List.mem_singleton.1 hv)

/-- The next identifier is free. -/
theorem fresh (h : Simulates R twins c d) (hone : AreOneToOne (twins ++ [w])) :
    w.inDatabase ∉ d.database.records := by
  intro hmem
  obtain ⟨v, hv, hid⟩ := h.exists_inDatabase _ hmem
  have hnodup := hone.nodup_inDatabase
  rw [List.map_append, List.nodup_append] at hnodup
  exact hnodup.2.2 _ (List.mem_map_of_mem hv) _ (List.mem_map_of_mem (List.mem_singleton_self w)) hid

theorem create (h : Simulates R twins c d) (hid : r.id = "") (hid' : r'.id = "")
    (hkind : r.kind = r'.kind) (hattributes : AttributesAgree R r.attributes r'.attributes)
    (hkept : r'.IsKept) (husable : IsUsable (ids d.issued))
    (hone : AreOneToOne
      (twins ++ ((CatalogRequest.create r).twin? ids c.issued d.issued).toList)) :
    Steps R ids twins c d (.create r) (MemoryCatalog.catalog.answer c (.create r))
      ((StoredCatalog.catalogFrom ids).answer d (.create r')) := by
  let w : Twin := ⟨MemoryCatalog.idText r.kind (c.issued + 1), ids d.issued, false⟩
  have hmade : ((CatalogRequest.create r).twin? ids c.issued d.issued).toList = [w] := rfl
  rw [hmade] at hone
  obtain ⟨c', hcreate, hc⟩ := h.isPlain.create hid
  obtain ⟨d', hcreate', hd⟩ := h.isPlain'.create hid' husable (h.fresh hone)
  have hanswer : MemoryCatalog.catalog.answer c (.create r) = (.ok (some (c.named r)), c') :=
    Catalog.answer_create (C := MemoryCatalog.catalog) hcreate
  have hanswer' : (StoredCatalog.catalogFrom ids).answer d (.create r') =
      (.ok (some (d.named ids r')), d') :=
    Catalog.answer_create (C := StoredCatalog.catalogFrom ids) hcreate'
  have hagree : RecordsAgree R w (c.named r) (d.named ids r') :=
    ⟨rfl, rfl, hkind, fun name _ => hattributes name⟩
  rw [hanswer, hanswer']
  refine ⟨?_, ?_, hc.issued_eq, hd.issued_eq⟩
  · exact .record w (List.mem_append_right _ (List.mem_singleton_self w)) _ _ hagree
  · exact h.adds hone hc hd hagree hkept

/-- A content that is not there makes no pair. -/
theorem createContent_of_missing (h : Simulates R twins c d) {q q' : ContentRequest}
    (hid' : q'.record.id = "") (hbytes : q.source.bytes? = none)
    (hbytes' : q'.source.bytes? = none) (husable : IsUsable (ids d.issued)) :
    Steps R ids twins c d (.createContent q)
      (MemoryCatalog.catalog.answer c (.createContent q))
      ((StoredCatalog.catalogFrom ids).answer d (.createContent q')) := by
  have hmade : ((CatalogRequest.createContent q).twin? ids c.issued d.issued).toList = [] := by
    rw [CatalogRequest.twin?, hbytes]
    rfl
  obtain ⟨reason, d', hcreate', hplain, hissued, hrecords⟩ :=
    h.isPlain'.createContent_of_missing hid' husable hbytes'
  have hanswer : MemoryCatalog.catalog.answer c (.createContent q) =
      (.error (.rejected FileFault.notFound.message), c) :=
    Catalog.answer_createContent (C := MemoryCatalog.catalog) (c.createContent_of_missing hbytes)
  have hanswer' : (StoredCatalog.catalogFrom ids).answer d (.createContent q') =
      (.error (.rejected reason), d') :=
    Catalog.answer_createContent (C := StoredCatalog.catalogFrom ids) hcreate'
  rw [hanswer, hanswer']
  refine ⟨.rejected _ _, ?_, by rw [hmade]; rfl, hissued⟩
  rw [hmade, List.append_nil]
  refine ⟨h.isPlain, hplain, h.exists_inMemory, ?_, ?_⟩
  · rw [hrecords]
    exact h.exists_inDatabase
  · simp only [Database.Stores, hrecords]
    exact h.stores

theorem createContent (h : Simulates R twins c d) (hsize : ∀ n, R (.integer n) (.integer n))
    {q q' : ContentRequest} (hid : q.record.id = "") (hid' : q'.record.id = "")
    (hkind : q.record.kind = q'.record.kind)
    (hattributes : AttributesAgree R q.record.attributes q'.record.attributes)
    {bytes : Bytes} (hbytes : q.source.bytes? = some bytes) (hbytes' : q'.source.bytes? = some bytes)
    (hkept : q'.record.IsKept) (hlength : bytes.length < 1 <<< 63) (husable : IsUsable (ids d.issued))
    (hone : AreOneToOne
      (twins ++ ((CatalogRequest.createContent q).twin? ids c.issued d.issued).toList)) :
    Steps R ids twins c d (.createContent q)
      (MemoryCatalog.catalog.answer c (.createContent q))
      ((StoredCatalog.catalogFrom ids).answer d (.createContent q')) := by
  let w : Twin := ⟨MemoryCatalog.idText q.record.kind (c.issued + 1), ids d.issued, true⟩
  have hmade : ((CatalogRequest.createContent q).twin? ids c.issued d.issued).toList = [w] := by
    rw [CatalogRequest.twin?, hbytes]
    rfl
  rw [hmade] at hone
  obtain ⟨c', hcreate, hc⟩ := h.isPlain.createContent hid hbytes
  obtain ⟨d', hcreate', hd⟩ := h.isPlain'.createContent hid' husable (h.fresh hone) hbytes'
  have hagree : RecordsAgree R w
      (c.named (q.record.set AttributeName.resourceSize (.integer bytes.length)))
      (StoredCatalog.described (d.named ids q'.record) bytes) := by
    refine ⟨rfl, rfl, hkind, fun name hname => ?_⟩
    have huri : AttributeName.resourceUri ≠ name := Ne.symm (hname rfl)
    have hget : (c.named (q.record.set AttributeName.resourceSize (.integer bytes.length))).get?
        name = (q.record.set AttributeName.resourceSize (.integer bytes.length)).get? name := rfl
    have hget' : (d.named ids q'.record).get? name = q'.record.get? name := rfl
    rw [hget, StoredCatalog.described, Record.get?_set, Record.get?_set, Record.get?_set,
      if_neg huri, hget']
    split
    · exact .some (hsize bytes.length)
    · exact hattributes name
  have hnamed : (d.named ids q'.record).IsKept := hkept
  have hdescribed : (StoredCatalog.described (d.named ids q'.record) bytes).IsKept :=
    (hnamed.set _ (Attribute.isKept_text _)).set _ (Attribute.isKept_size hlength)
  have hanswer : MemoryCatalog.catalog.answer c (.createContent q) = (.ok (some _), c') :=
    Catalog.answer_createContent (C := MemoryCatalog.catalog) hcreate
  have hanswer' : (StoredCatalog.catalogFrom ids).answer d (.createContent q') =
      (.ok (some _), d') :=
    Catalog.answer_createContent (C := StoredCatalog.catalogFrom ids) hcreate'
  rw [hanswer, hanswer']
  refine ⟨?_, ?_, ?_, hd.issued_eq⟩
  · rw [hmade]
    exact .record w (List.mem_append_right _ (List.mem_singleton_self w)) _ _ hagree
  · rw [hmade]
    exact h.adds hone hc hd hagree hdescribed
  · rw [hmade]
    exact hc.issued_eq

theorem update (h : Simulates R twins c d) (hone : AreOneToOne twins) {id id' : String}
    {changes changes' : Attributes} (hsame : SameId twins id id')
    (hattributes : AttributesAgree R changes changes')
    (hkept : ∀ (name : String) (a : Attribute), changes'[name]? = some a → a.IsKept) :
    Steps R ids twins c d (.update id changes)
      (MemoryCatalog.catalog.answer c (.update id changes))
      ((StoredCatalog.catalogFrom ids).answer d (.update id' changes')) := by
  have hnone : twins ++ ((CatalogRequest.update id changes).twin? ids c.issued d.issued).toList =
      twins := List.append_nil twins
  rcases h.lookup hsame with ⟨hmissing, hmissing'⟩ | ⟨w, hw, rfl, rfl⟩
  · obtain ⟨reason, c', hupdate, hplain, hissued, hrecords⟩ :=
      h.isPlain.update_of_missing hmissing changes
    obtain ⟨reason', hupdate'⟩ := StoredCatalog.update_of_missing hmissing' changes'
    have hanswer : MemoryCatalog.catalog.answer c (.update id changes) =
        (.error (.rejected reason), c') :=
      Catalog.answer_update (C := MemoryCatalog.catalog) hupdate
    have hanswer' : (StoredCatalog.catalogFrom ids).answer d (.update id' changes') =
        (.error (.rejected reason'), d) :=
      Catalog.answer_update (C := StoredCatalog.catalogFrom ids) hupdate'
    rw [hanswer, hanswer']
    refine ⟨.rejected _ _, ?_, hissued, rfl⟩
    rw [hnone]
    refine ⟨hplain, h.isPlain', ?_, h.exists_inDatabase, ?_⟩
    · rw [hrecords]
      exact h.exists_inMemory
    · rw [hrecords]
      exact h.stores
  · obtain ⟨r, r', hr, hstores, hkept', hagree⟩ := h.stores w hw
    obtain ⟨c', hupdate, hplain, hissued, hrecords⟩ := h.isPlain.update hr changes
    obtain ⟨d', hupdate', hplain', hissued', hrows⟩ := h.isPlain'.update hstores hkept' changes'
    have hagree' := hagree.overlaid hattributes
    have hanswer : MemoryCatalog.catalog.answer c (.update w.inMemory changes) =
        (.ok (some (r.overlaid changes)), c') :=
      Catalog.answer_update (C := MemoryCatalog.catalog) hupdate
    have hanswer' : (StoredCatalog.catalogFrom ids).answer d (.update w.inDatabase changes') =
        (.ok (some (r'.overlaid changes')), d') := by
      rw [← hagree.id_eq']
      exact Catalog.answer_update (C := StoredCatalog.catalogFrom ids) hupdate'
    rw [hanswer, hanswer']
    refine ⟨.record w (List.mem_append_left _ hw) _ _ hagree', ?_, hissued, hissued'⟩
    rw [hnone]
    refine h.store hone hw (fun v hv => hv) (fun v hv => .inr hv) hplain hplain' ?_ hrows hagree'
      (hkept'.overlaid hkept)
    rw [hrecords, hagree'.id_eq]

theorem get (h : Simulates R twins c d) {id id' : String} (hsame : SameId twins id id') :
    Steps R ids twins c d (.get id) (MemoryCatalog.catalog.answer c (.get id))
      ((StoredCatalog.catalogFrom ids).answer d (.get id')) := by
  have hnone : twins ++ ((CatalogRequest.get id).twin? ids c.issued d.issued).toList = twins :=
    List.append_nil twins
  refine ⟨?_, hnone.symm ▸ h, rfl, rfl⟩
  rw [hnone]
  change AnswersAgree R twins (.ok c.records[id]?)
    ((d.database.get id').mapError StoredCatalog.refusalOf)
  rcases h.lookup hsame with ⟨hmissing, hmissing'⟩ | ⟨w, hw, rfl, rfl⟩
  · rw [hmissing, Database.get, hmissing']
    exact .none
  · obtain ⟨r, r', hr, hget, hagree⟩ := h.statesAgree.exists_records w hw
    rw [hr, hget]
    exact .record w hw r r' hagree

/-- A request and one that is the same. -/
theorem answer (h : Simulates R twins c d) (hsize : ∀ n, R (.integer n) (.integer n))
    {q q' : CatalogRequest} (hq : RequestsAgree R twins q q') (hbrings : q'.Brings Attribute.IsKept)
    (husable : IsUsable (ids d.issued))
    (hone : AreOneToOne (twins ++ (q.twin? ids c.issued d.issued).toList)) :
    Steps R ids twins c d q (MemoryCatalog.catalog.answer c q)
      ((StoredCatalog.catalogFrom ids).answer d q') := by
  cases hq with
  | create r r' hid hid' hkind hattributes =>
    exact h.create hid hid' hkind hattributes hbrings.allowed husable hone
  | createContent q q' hid hid' hkind hattributes hbytes =>
    cases hcontent : q.source.bytes? with
    | none => exact h.createContent_of_missing hid' hcontent (hbytes ▸ hcontent) husable
    | some bytes =>
      have hcontent' : q'.source.bytes? = some bytes := hbytes ▸ hcontent
      exact h.createContent hsize hid hid' hkind hattributes hcontent hcontent' hbrings.allowed
        (hbrings.length_lt q' bytes rfl hcontent') husable hone
  | update id id' changes changes' hsame hattributes =>
    have htwins : AreOneToOne twins := List.append_nil twins ▸ hone
    exact h.update htwins hsame hattributes hbrings.allowed
  | get id id' hsame => exact h.get hsame

end Simulates

/-! ## Many requests -/

theorem AreOneToOne.of_append {later : List Twin} (h : AreOneToOne (twins ++ later)) :
    AreOneToOne twins where
  nodup_inMemory := (List.map_append ▸ h.nodup_inMemory).of_append_left
  nodup_inDatabase := (List.map_append ▸ h.nodup_inDatabase).of_append_left

theorem RequestsAgree.mono {twins' : List Twin} (hsub : ∀ w ∈ twins, w ∈ twins')
    {q q' : CatalogRequest} (h : RequestsAgree R twins' q q') : RequestsAgree R twins q q' := by
  cases h with
  | create r r' hid hid' hkind hattributes => exact .create r r' hid hid' hkind hattributes
  | createContent q q' hid hid' hkind hattributes hbytes =>
    exact .createContent q q' hid hid' hkind hattributes hbytes
  | update id id' changes changes' hsame hattributes =>
    exact .update id id' changes changes' (fun w hw => hsame w (hsub w hw)) hattributes
  | get id id' hsame => exact .get id id' fun w hw => hsame w (hsub w hw)

theorem AnswersAgree.mono {twins' : List Twin} (hsub : ∀ w ∈ twins, w ∈ twins')
    {a a' : Except CatalogError (Option Record)} (h : AnswersAgree R twins a a') :
    AnswersAgree R twins' a a' := by
  cases h with
  | record w known r r' agree => exact .record w (hsub w known) r r' agree
  | none => exact .none
  | rejected reason reason' => exact .rejected reason reason'

/-- Requests, and those that are the same. -/
theorem Simulates.answerAll [Json.NumberReader] {ids : Nat → String}
    {requests requests' : List CatalogRequest}
    (h : Simulates R twins c d) (hsize : ∀ n, R (.integer n) (.integer n))
    (hone : AreOneToOne (twins ++ twinsFrom ids c.issued d.issued requests))
    (hagree : List.Forall₂ (RequestsAgree R (twins ++ twinsFrom ids c.issued d.issued requests))
      requests requests')
    (hbrings : ∀ q ∈ requests', q.Brings Attribute.IsKept)
    (husable : ∀ n < d.issued + requests.length, IsUsable (ids n)) :
    List.Forall₂ (AnswersAgree R (twins ++ twinsFrom ids c.issued d.issued requests))
        (MemoryCatalog.catalog.answerAll c requests).1
        ((StoredCatalog.catalogFrom ids).answerAll d requests').1 ∧
      Simulates R (twins ++ twinsFrom ids c.issued d.issued requests)
        (MemoryCatalog.catalog.answerAll c requests).2
        ((StoredCatalog.catalogFrom ids).answerAll d requests').2 := by
  induction requests generalizing twins c d requests' with
  | nil =>
    cases hagree
    rw [twinsFrom, List.append_nil]
    exact ⟨.nil, h⟩
  | cons q requests ih =>
    cases hagree with
    | @cons _ q' _ requests' hq hrest =>
      rw [twinsFrom, ← List.append_assoc] at hone hq hrest ⊢
      have hstep : Steps R ids twins c d q _ _ := h.answer hsize
        (hq.mono fun w hw => List.mem_append_left _ (List.mem_append_left _ hw))
        (hbrings q' List.mem_cons_self) (husable d.issued (by simp)) hone.of_append
      rw [← hstep.issued_eq, ← hstep.issued_eq'] at hone hrest ⊢
      have husable' : ∀ n < ((StoredCatalog.catalogFrom ids).answer d q').2.issued + requests.length,
          IsUsable (ids n) := by
        intro n hn
        refine husable n (Nat.lt_of_lt_of_le hn ?_)
        have htaken := q.taken_le
        rw [hstep.issued_eq', List.length_cons]
        omega
      obtain ⟨hanswers, hsimulates⟩ := ih hstep.simulates hone hrest
        (fun q hq => hbrings q (List.mem_cons_of_mem _ hq)) husable'
      rw [Catalog.answerAll_cons, Catalog.answerAll_cons]
      exact ⟨.cons (hstep.answers.mono fun w hw => List.mem_append_left _ hw) hanswers, hsimulates⟩

end StreamCatalog
