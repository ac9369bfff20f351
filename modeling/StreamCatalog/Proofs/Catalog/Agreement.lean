import StreamCatalog.Proofs.Catalog.Pairs

/-!
# Two catalogs that agree

The catalog in memory and the one in a database give the same answers to the same requests,
and keep the same records, but for the identifiers and the addresses of contents, just when
all attributes are read back as they are (`catalogsAgree_iff`). A finite double may be read
as a neighbour; then the answers differ (`altitude_disagrees`).
-/

namespace StreamCatalog

/-! ## Identifiers of pairs -/

theorem CatalogRequest.twin?_eq_some {ids : Nat → String} {m n : Nat} {q : CatalogRequest} {w : Twin}
    (h : q.twin? ids m n = some w) :
    q.taken = 1 ∧ (∃ kind, w.inMemory = MemoryCatalog.idText kind (m + 1)) ∧
      w.inDatabase = ids n := by
  cases q with
  | create r =>
    cases h
    exact ⟨rfl, ⟨r.kind, rfl⟩, rfl⟩
  | createContent request =>
    rw [twin?] at h
    split at h
    · cases h
      exact ⟨rfl, ⟨request.record.kind, rfl⟩, rfl⟩
    · cases h
  | update id changes | get id => cases h

/-- Pairs take the identifiers that come next. -/
theorem exists_of_mem_twinsFrom {ids : Nat → String} {requests : List CatalogRequest} {m n : Nat}
    {w : Twin} (hw : w ∈ twinsFrom ids m n requests) :
    (∃ kind k, m < k ∧ w.inMemory = MemoryCatalog.idText kind k) ∧
      ∃ k, n ≤ k ∧ k < n + requests.length ∧ w.inDatabase = ids k := by
  induction requests generalizing m n with
  | nil => cases hw
  | cons q requests ih =>
    rw [twinsFrom, List.mem_append] at hw
    rw [List.length_cons]
    rcases hw with hw | hw
    · obtain ⟨-, ⟨kind, hkind⟩, hid⟩ := CatalogRequest.twin?_eq_some (Option.mem_toList.1 hw)
      exact ⟨⟨kind, m + 1, Nat.lt_succ_self m, hkind⟩, n, Nat.le_refl n, by omega, hid⟩
    · obtain ⟨⟨kind, k, hk, hkind⟩, k', hle, hlt, hid⟩ := ih hw
      have htaken := q.taken_le
      exact ⟨⟨kind, k, by omega, hkind⟩, k', by omega, by omega, hid⟩

/-- No identifier is given twice. -/
theorem Supplies.areOneToOne {ids : Nat → String} {count : Nat} (h : Supplies ids count)
    {requests : List CatalogRequest} {m n : Nat} (hcount : n + requests.length ≤ count) :
    AreOneToOne (twinsFrom ids m n requests) := by
  induction requests generalizing m n with
  | nil => exact ⟨List.nodup_nil, List.nodup_nil⟩
  | cons q requests ih =>
    rw [List.length_cons] at hcount
    have htaken := q.taken_le
    rw [twinsFrom]
    cases hmade : q.twin? ids m n with
    | none => exact ih (by omega)
    | some w =>
      obtain ⟨htaken, ⟨kind, hkind⟩, hid⟩ := CatalogRequest.twin?_eq_some hmade
      have hlater : AreOneToOne (twinsFrom ids (m + 1) (n + q.taken) requests) := ih (by omega)
      refine ⟨List.nodup_cons.2 ⟨fun hmem => ?_, hlater.nodup_inMemory⟩,
        List.nodup_cons.2 ⟨fun hmem => ?_, hlater.nodup_inDatabase⟩⟩
      · obtain ⟨v, hv, heq⟩ := List.mem_map.1 hmem
        obtain ⟨⟨kind', k, hk, hkind'⟩, -⟩ := exists_of_mem_twinsFrom hv
        rw [hkind, hkind'] at heq
        exact Nat.ne_of_gt hk (MemoryCatalog.eq_of_idText_eq heq)
      · obtain ⟨v, hv, heq⟩ := List.mem_map.1 hmem
        obtain ⟨-, k, hle, hlt, hid'⟩ := exists_of_mem_twinsFrom hv
        rw [hid, hid'] at heq
        have hlater : n ≠ k := by omega
        exact hlater (h.inj k (by omega) n (by omega) heq).symm

/-! ## Agreement -/

section AnyReader

variable [Json.NumberReader]

/-- Whether the two catalogs agree on all requests, up to so many, that bring only such attributes:
the records that they create are paired one to one, and to the same requests they give the same
answers and keep the same records, however attributes correspond. -/
def CatalogsAgree (ids : Nat → String) (count : Nat) (allowed : Attribute → Prop) : Prop :=
  ∀ requests : List CatalogRequest, requests.length ≤ count →
    let twins := twinsFrom ids 0 0 requests
    AreOneToOne twins ∧
      ∀ (R : Correspondence) (requests' : List CatalogRequest) (path : String),
        (∀ n, R (.integer n) (.integer n)) →
        List.Forall₂ (RequestsAgree R twins) requests requests' →
        (∀ q ∈ requests', q.Brings allowed) →
        let inMemory := MemoryCatalog.catalog.answerAll .empty requests
        let inDatabase := (StoredCatalog.catalogFrom ids).answerAll (.empty path) requests'
        List.Forall₂ (AnswersAgree R twins) inMemory.1 inDatabase.1 ∧
          StatesAgree R twins inMemory.2 inDatabase.2

theorem simulates_empty (R : Correspondence) (path : String) :
    Simulates R [] .empty (.empty path) where
  isPlain := MemoryCatalog.isPlain_empty
  isPlain' := StoredCatalog.isPlain_empty path
  exists_inMemory id hid := by simp [MemoryCatalog.empty] at hid
  exists_inDatabase id hid := by simp [StoredCatalog.empty, Database.empty] at hid
  stores w hw := by cases hw

/-- Catalogs agree while attributes are kept. -/
theorem Supplies.catalogsAgree {ids : Nat → String} {count : Nat} (h : Supplies ids count)
    {allowed : Attribute → Prop} (hkept : ∀ a, allowed a → a.IsKept) :
    CatalogsAgree ids count allowed := by
  intro requests hcount
  have hone : AreOneToOne (twinsFrom ids 0 0 requests) := h.areOneToOne (by omega)
  refine ⟨hone, fun R requests' path hsize hagree hbrings => ?_⟩
  obtain ⟨hanswers, hsimulates⟩ := (simulates_empty R path).answerAll hsize hone hagree
    (fun q hq => ⟨fun name a ha => hkept a ((hbrings q hq).allowed name a ha),
      (hbrings q hq).length_lt⟩)
    fun n hn => h.isUsable n (Nat.lt_of_lt_of_le hn (by simpa [StoredCatalog.empty] using hcount))
  exact ⟨hanswers, hsimulates.statesAgree⟩

/-! ## Where they do not agree -/

/-- A parent with an altitude, which has no identifier yet. -/
def draft (altitude : Attribute) : Record :=
  ⟨"", .parent, (∅ : Attributes).insert AttributeName.altitude altitude⟩

/-- Create a parent, and ask for it. -/
def draftRequests (altitude : Attribute) (id : String) : List CatalogRequest :=
  [.create (draft altitude), .get id]

omit [Json.NumberReader] in
theorem idText_parent_one : MemoryCatalog.idText .parent 1 = "parent-1" := by decide

/-- The parent is stored by both catalogs: one gives it as it is, the other as it is read back. -/
theorem answers_drafted {ids : Nat → String} (husable : IsUsable (ids 0)) (altitude : Attribute)
    (path : String) :
    ∃ database : Database, database.Stores { draft altitude with id := ids 0 } ∧
      (MemoryCatalog.catalog.answerAll .empty (draftRequests altitude "parent-1")).1 =
        [.ok (some { draft altitude with id := "parent-1" }),
          .ok (some { draft altitude with id := "parent-1" })] ∧
      ((StoredCatalog.catalogFrom ids).answerAll (.empty path) (draftRequests altitude (ids 0))).1 =
        [.ok (some { draft altitude with id := ids 0 }),
          (database.get (ids 0)).mapError StoredCatalog.refusalOf] := by
  have hnamed : MemoryCatalog.empty.named (draft altitude) =
      { draft altitude with id := "parent-1" } := by
    rw [← idText_parent_one]
    rfl
  obtain ⟨c, hcreate, hc⟩ := MemoryCatalog.isPlain_empty.create (r := draft altitude) rfl
  obtain ⟨d, hcreate', hd⟩ : ∃ d, StoredCatalog.createFrom ids (draft altitude) (.empty path) =
      (.ok { draft altitude with id := ids 0 }, d) ∧
      (StoredCatalog.empty path).Adds { draft altitude with id := ids 0 } d :=
    (StoredCatalog.isPlain_empty path).create rfl husable Std.ExtTreeMap.not_mem_empty
  rw [hnamed] at hcreate hc
  have hanswer : MemoryCatalog.catalog.answer .empty (.create (draft altitude)) =
      (.ok (some { draft altitude with id := "parent-1" }), c) :=
    Catalog.answer_create (C := MemoryCatalog.catalog) (r := draft altitude) (s := .empty) hcreate
  have hanswer' : (StoredCatalog.catalogFrom ids).answer (.empty path) (.create (draft altitude)) =
      (.ok (some { draft altitude with id := ids 0 }), d) :=
    Catalog.answer_create (C := StoredCatalog.catalogFrom ids) (r := draft altitude)
      (s := .empty path) hcreate'
  have hget : c.records["parent-1"]? = some { draft altitude with id := "parent-1" } := by
    rw [hc.records_eq]
    exact Std.ExtTreeMap.getElem?_insert_self
  refine ⟨d.database, ?_, ?_, ?_⟩
  · rw [Database.Stores, hd.records_eq]
    exact Std.ExtTreeMap.getElem?_insert_self
  · rw [draftRequests, Catalog.answerAll_cons, hanswer, ← hget]
    rfl
  · rw [draftRequests, Catalog.answerAll_cons, hanswer']
    rfl

omit [Json.NumberReader] in
theorem eq_of_rel_eq {α : Type} {a b : Option α} (h : Option.Rel Eq a b) : a = b := by
  cases h with
  | none => rfl
  | some h => exact congrArg some h

/-- What catalogs agree about is kept. -/
theorem isKept_of_catalogsAgree {ids : Nat → String} {count : Nat} (h : Supplies ids count)
    (hcount : 2 ≤ count) {allowed : Attribute → Prop} (hagree : CatalogsAgree ids count allowed)
    {a : Attribute} (ha : allowed a) : a.IsKept := by
  obtain ⟨database, hstores, hanswers, hanswers'⟩ :=
    answers_drafted (h.isUsable 0 (by omega)) a "content"
  obtain ⟨-, hagree⟩ := hagree (draftRequests a "parent-1") hcount
  have hsame : List.Forall₂
      (RequestsAgree Eq (twinsFrom ids 0 0 (draftRequests a "parent-1")))
      (draftRequests a "parent-1") (draftRequests a (ids 0)) := by
    refine .cons (.create _ _ rfl rfl rfl fun name => ?_) (.cons (.get _ _ fun w hw => ?_) .nil)
    · cases (draft a).attributes[name]? with
      | none => exact .none
      | some b => exact .some rfl
    · obtain rfl := List.mem_singleton.1 hw
      exact iff_of_true idText_parent_one rfl
  have hbrings : ∀ q ∈ draftRequests a (ids 0), q.Brings allowed := by
    intro q hq
    rcases List.mem_cons.1 hq with rfl | hq
    · refine ⟨fun name b hb => ?_, nofun⟩
      rw [CatalogRequest.attributes, draft, Std.ExtTreeMap.getElem?_insert] at hb
      split at hb
      · exact Option.some.inj hb ▸ ha
      · simp at hb
    · obtain rfl := List.mem_singleton.1 hq
      exact ⟨fun name b hb => by simp [CatalogRequest.attributes] at hb, nofun⟩
  obtain ⟨hall, -⟩ := hagree Eq _ "content" (fun _ => rfl) hsame hbrings
  rw [hanswers, hanswers'] at hall
  cases hall with
  | cons _ hlater =>
    cases hlater with
    | cons hget _ =>
      cases hread : database.get (ids 0) with
      | error e =>
        rw [hread] at hget
        cases hget
      | ok read =>
        rw [hread] at hget
        cases hget with
        | record w hw r r' hagree =>
          obtain rfl := List.mem_singleton.1 hw
          have hself : r'.attributes = (draft a).attributes := by
            refine Std.ExtTreeMap.ext_getElem? fun name => ?_
            exact (eq_of_rel_eq (hagree.get?_rel name nofun)).symm
          obtain ⟨-, rfl⟩ := (Database.get_eq_some_iff_of_stores hstores).1 hread
          rw [Record.reread, show Attributes.reread _ = _ from hself] at hread
          exact (Database.get_eq_self_iff_of_stores hstores).1 hread AttributeName.altitude a
            Std.ExtTreeMap.getElem?_insert_self

/-- The two catalogs agree, on all requests that bring only such attributes, just when these are
read back as they are: the doubles in them as doubles, leap seconds as dates, and none nested too
deep. -/
theorem catalogsAgree_iff {ids : Nat → String} {count : Nat} (h : Supplies ids count)
    (hcount : 2 ≤ count) {allowed : Attribute → Prop} :
    CatalogsAgree ids count allowed ↔ ∀ a, allowed a → a.IsKept :=
  ⟨fun hagree _ ha => isKept_of_catalogsAgree h hcount hagree ha, h.catalogsAgree⟩

end AnyReader

/-- Where attributes are texts, the catalogs agree. -/
theorem texts_agree :
    CatalogsAgree StoredCatalog.idText (2 ^ 128) fun a => ∃ s, a = .text s := by
  refine (catalogsAgree_iff StoredCatalog.supplies_idText (by decide)).2 ?_
  rintro _ ⟨s, rfl⟩
  exact Attribute.isKept_text s

/-- An altitude that is read back as a neighbour. -/
def driftingAltitude : Attribute := .double (-8.674506775112357e-10)

/-- Where doubles are finite, the catalogs may disagree: a parent is created with an altitude, and
given with another one by the catalog in a database. -/
theorem altitude_disagrees :
    (¬CatalogsAgree StoredCatalog.idText 2 fun a => ∀ x ∈ a.doubles, x.isFinite = true) ∧
      ∃ read : Record,
        (MemoryCatalog.catalog.answerAll .empty (draftRequests driftingAltitude "parent-1")).1[1]? =
          some (.ok (some { draft driftingAltitude with id := "parent-1" })) ∧
        (StoredCatalog.catalog.answerAll (.empty "content")
          (draftRequests driftingAltitude (StoredCatalog.idText 0))).1[1]? =
            some (.ok (some read)) ∧
        read.get? AttributeName.altitude = some (.double (-8.674506775112356e-10)) ∧
        (-8.674506775112356e-10 : Float) ≠ -8.674506775112357e-10 := by
  have hread : driftingAltitude.reread? = some (.double (-8.674506775112356e-10)) :=
    (Attributes.getElem?_reread Database.skiff.attributes _).symm.trans Database.altitude_reread
  have hne : (-8.674506775112356e-10 : Float) ≠ -8.674506775112357e-10 := by decide +kernel
  refine ⟨fun hagree => ?_, ?_⟩
  · have hsupplies := StoredCatalog.supplies_idText.mono (show 2 ≤ 2 ^ 128 by decide)
    have hkept : driftingAltitude.IsKept := by
      refine isKept_of_catalogsAgree hsupplies (Nat.le_refl 2) hagree fun x hx => ?_
      obtain rfl := List.mem_singleton.1 hx
      decide +kernel
    rw [hkept.reread?_eq] at hread
    exact hne (Attribute.double.inj (Option.some.inj hread)).symm
  · obtain ⟨database, hstores, hanswers, hanswers'⟩ :=
      answers_drafted (StoredCatalog.isUsable_idText 0) driftingAltitude "content"
    have hget := (Database.get_eq_some_iff_of_stores hstores).2 ⟨Database.isReadable_skiff, rfl⟩
    rw [StoredCatalog.catalogFrom_idText] at hanswers'
    refine ⟨Record.reread { draft driftingAltitude with id := StoredCatalog.idText 0 },
      by rw [hanswers]; rfl, ?_, Database.altitude_reread, hne⟩
    rw [hanswers']
    exact congrArg (fun answer => some (answer.mapError StoredCatalog.refusalOf)) hget

end StreamCatalog
