import StreamCatalog.Catalog.Memory
import StreamCatalog.Proofs.Record.Changes
import Std.Data.String.ToNat

/-!
# Catalogs that keep records

What commits rely on: a refused request leaves the records as they are, an
accepted one stores the record that it answers with, and a new record gets an
identifier that no other record has. A catalog may drop the link to the parent
from records with content. The catalog in memory is of this kind
(`MemoryCatalog.keeper`), whatever failures are scripted.
-/

namespace StreamCatalog

/-- Records by identifier. -/
abbrev Records := Std.ExtTreeMap String Record

theorem Records.getElem?_insert_of_ne {id other : String} (h : id ≠ other) (rs : Records)
    (r : Record) : (rs.insert id r)[other]? = rs[other]? := by
  rw [Std.ExtTreeMap.getElem?_insert, if_neg (mt Std.LawfulEqCmp.eq_of_compare h)]

theorem Records.ne_of_fresh {rs : Records} {id other : String} {r : Record}
    (hfresh : rs[id]? = none) (hr : rs[other]? = some r) : id ≠ other := by
  rintro rfl
  cases hfresh.symm.trans hr

/-- A new record leaves the others. -/
theorem Records.getElem?_insert_fresh {rs : Records} {id other : String} {r : Record}
    (hfresh : rs[id]? = none) (hr : rs[other]? = some r) (new : Record) :
    (rs.insert id new)[other]? = some r := by
  rw [getElem?_insert_of_ne (ne_of_fresh hfresh hr), hr]

/-- The answer to a request for a new record, and the records after it. -/
inductive Stored {ε : Type} (before : Records) (expected : Record → Prop) :
    Except ε Record → Records → Prop where
  /-- The request is refused. -/
  | refused (e : ε) : Stored before expected (.error e) before
  /-- The record is stored under a new identifier. -/
  | stored (r : Record) (fresh : before[r.id]? = none) (isExpected : expected r) :
    Stored before expected (.ok r) (before.insert r.id r)

theorem Stored.eq_of_refused {ε : Type} {before after : Records} {expected : Record → Prop}
    {answer : Except ε Record} {e : ε} (h : Stored before expected answer after)
    (he : answer = .error e) : after = before := by
  cases h with
  | refused e => rfl
  | stored r fresh isExpected => cases he

theorem Stored.eq_of_ok {ε : Type} {before after : Records} {expected : Record → Prop}
    {answer : Except ε Record} {r : Record} (h : Stored before expected answer after)
    (hr : answer = .ok r) : before[r.id]? = none ∧ expected r ∧ after = before.insert r.id r := by
  cases h with
  | refused e => cases hr
  | stored r fresh isExpected =>
    cases hr
    exact ⟨fresh, isExpected, rfl⟩

/-- The answer to a request for changes, and the records after it. -/
inductive Changed {ε : Type} (before : Records) (id : String) (changes : Attributes) :
    Except ε Record → Records → Prop where
  /-- The request is refused. -/
  | refused (e : ε) : Changed before id changes (.error e) before
  /-- The changes are laid over the record. -/
  | changed (r : Record) (found : before[id]? = some r) :
    Changed before id changes (.ok (r.overlaid changes)) (before.insert id (r.overlaid changes))

theorem Changed.eq_of_refused {ε : Type} {before after : Records} {id : String}
    {changes : Attributes} {answer : Except ε Record} {e : ε}
    (h : Changed before id changes answer after) (he : answer = .error e) : after = before := by
  cases h with
  | refused e => rfl
  | changed r found => cases he

theorem Changed.eq_of_ok {ε : Type} {before after : Records} {id : String}
    {changes : Attributes} {answer : Except ε Record} {stored : Record}
    (h : Changed before id changes answer after) (hstored : answer = .ok stored) :
    ∃ r, before[id]? = some r ∧ stored = r.overlaid changes ∧ after = before.insert id stored := by
  cases h with
  | refused e => cases hstored
  | changed r found =>
    cases hstored
    exact ⟨r, found, rfl, rfl⟩

/-- Whether a record with content is stored as it was asked for: but for its identifier, what is
said about the content, and perhaps the link to the parent. -/
structure KeepsContent (requested stored : Record) : Prop where
  /-- The kind stays. -/
  kind_eq : stored.kind = requested.kind
  /-- The link stays or is dropped. -/
  derived_eq : stored.get? AttributeName.derived = requested.get? AttributeName.derived ∨
    stored.get? AttributeName.derived = none
  /-- What says nothing about content or parent stays. -/
  get?_eq : ∀ name, name ≠ AttributeName.derived → name ≠ AttributeName.resourceSize →
    name ≠ AttributeName.resourceUri → stored.get? name = requested.get? name

/-- The records of a catalog, and what its requests do to them. -/
structure Catalog.Keeper {σ : Type} (C : Catalog σ) where
  /-- The records in a state. -/
  records : σ → Records
  /-- The states in which the requests do what they should. -/
  Sound : σ → Prop
  /-- A record without an identifier is stored, or the request is refused. -/
  create_spec : ∀ {s r}, Sound s → r.id = "" → Sound (C.create r s).2 ∧
    Stored (records s) (fun stored => stored = { r with id := stored.id }) (C.create r s).1
      (records (C.create r s).2)
  /-- A record without an identifier is stored with its content, or the request is refused. -/
  createContent_spec : ∀ {s request}, Sound s → request.record.id = "" →
    Sound (C.createContent request s).2 ∧
      Stored (records s) (KeepsContent request.record) (C.createContent request s).1
        (records (C.createContent request s).2)
  /-- A record is changed, or the request is refused. -/
  update_spec : ∀ {s id changes}, Sound s → Sound (C.update id changes s).2 ∧
    Changed (records s) id changes (C.update id changes s).1 (records (C.update id changes s).2)

namespace MemoryCatalog

/-- Whether identifiers that are given later are free, and at most the link to the parent is
dropped. -/
structure IsSound (c : MemoryCatalog) : Prop where
  /-- Later identifiers are free. -/
  free : ∀ kind n, c.issued < n → c.records[idText kind n]? = none
  /-- At most the link to the parent is dropped. -/
  dropped_eq : ∀ name, c.dropped = some name → name = AttributeName.derived

/-- Identifiers of different numbers differ. -/
theorem eq_of_idText_eq {kind kind' : RecordKind} {m n : Nat} (h : idText kind m = idText kind' n) :
    m = n := by
  have hchars := congrArg String.toList h
  simp only [idText, String.toList_append] at hchars
  cases kind with
  | parent =>
    cases kind' with
    | parent => exact Nat.repr_injective (String.toList_inj.1 (List.append_cancel_left hchars))
    | child => cases hchars
  | child =>
    cases kind' with
    | parent => cases hchars
    | child => exact Nat.repr_injective (String.toList_inj.1 (List.append_cancel_left hchars))

/-- What does not touch records, their numbers or what is dropped leaves a catalog sound. -/
theorem IsSound.of_eq {c d : MemoryCatalog} (h : c.IsSound) (hrecords : d.records = c.records)
    (hissued : d.issued = c.issued) (hdropped : d.dropped = c.dropped) : d.IsSound where
  free kind n hn := by
    rw [hissued] at hn
    rw [hrecords]
    exact h.free kind n hn
  dropped_eq name hname := h.dropped_eq name (hdropped ▸ hname)

/-- A record without an identifier is stored under the next one, which is free. -/
theorem IsSound.store_spec {c : MemoryCatalog} (h : c.IsSound) {r : Record} (hid : r.id = "")
    {expected : Record → Prop} (hexpected : ∀ id, expected { r with id := id }) :
    (c.store r).2.IsSound ∧
      Stored c.records expected (.ok (c.store r).1 : Except CatalogError Record)
        (c.store r).2.records := by
  rw [store, if_pos hid]
  refine ⟨⟨fun kind n hn => ?_, h.dropped_eq⟩,
    .stored _ (h.free r.kind _ (Nat.lt_succ_self _)) (hexpected _)⟩
  have hlater : c.issued + 1 < n := hn
  have hother : idText r.kind (c.issued + 1) ≠ idText kind n :=
    fun heq => Nat.ne_of_lt hlater (eq_of_idText_eq heq)
  have hfree := h.free kind n (Nat.lt_of_succ_lt hlater)
  simpa only [Std.ExtTreeMap.getElem?_insert, Std.LawfulEqCmp.compare_eq_iff_eq,
    if_neg hother] using hfree

/-- What is dropped is at most the link to the parent. -/
theorem IsSound.keepsContent {c : MemoryCatalog} (h : c.IsSound) (r : Record) (size : Attribute) :
    KeepsContent r ((c.afterDrop r).set AttributeName.resourceSize size) := by
  have hget : ∀ name, name ≠ AttributeName.resourceSize →
      ((c.afterDrop r).set AttributeName.resourceSize size).get? name =
        (c.afterDrop r).get? name := by
    intro name hname
    rw [Record.get?_set, if_neg hname.symm]
  cases hdropped : c.dropped with
  | none =>
    have hsame : c.afterDrop r = r := by
      rw [afterDrop, hdropped]
      rfl
    refine ⟨by rw [hsame]; rfl, .inl ?_, fun name _ hname _ => ?_⟩
    · rw [hget _ (by decide), hsame]
    · rw [hget _ hname, hsame]
  | some name =>
    obtain rfl := h.dropped_eq name hdropped
    have herased : ∀ name, (c.afterDrop r).get? name =
        if AttributeName.derived = name then none else r.get? name := by
      intro name
      simp only [afterDrop, hdropped, Option.elim_some, Record.get?,
        Std.ExtTreeMap.getElem?_erase, Std.LawfulEqCmp.compare_eq_iff_eq]
    refine ⟨rfl, .inr ?_, fun name hderived hsize _ => ?_⟩
    · rw [hget _ (by decide), herased, if_pos rfl]
    · rw [hget _ hsize, herased, if_neg hderived.symm]

/-- A record without an identifier is stored, or the request is refused. -/
theorem IsSound.create_spec {c : MemoryCatalog} (h : c.IsSound) {r : Record} (hid : r.id = "") :
    (c.create r).2.IsSound ∧
      Stored c.records (fun stored => stored = { r with id := stored.id }) (c.create r).1
        (c.create r).2.records := by
  rw [create]
  dsimp only
  split
  next e later hfailures => exact ⟨h.of_eq rfl rfl rfl, .refused e⟩
  next hfailures =>
    have hcounted : { c with createCalls := c.createCalls + 1 }.IsSound := h.of_eq rfl rfl rfl
    exact hcounted.store_spec hid fun _ => rfl

/-- A record without an identifier is stored with its content, or the request is refused. -/
theorem IsSound.createContent_spec {c : MemoryCatalog} (h : c.IsSound) {request : ContentRequest}
    (hid : request.record.id = "") :
    (c.createContent request).2.IsSound ∧
      Stored c.records (KeepsContent request.record) (c.createContent request).1
        (c.createContent request).2.records := by
  rw [createContent]
  split
  next => exact ⟨h, .refused _⟩
  next bytes hbytes =>
    dsimp only
    split
    next e later hfailures => exact ⟨h.of_eq rfl rfl rfl, .refused e⟩
    next hfailures =>
      have hcalled : { c with contentCalls := c.contentCalls + 1 }.IsSound := h.of_eq rfl rfl rfl
      have hkeeps := hcalled.keepsContent request.record (.integer bytes.length)
      have hcounted : { c with
          contentCalls := c.contentCalls + 1
          contentSizes := bytes.length :: c.contentSizes }.IsSound := h.of_eq rfl rfl rfl
      refine IsSound.store_spec hcounted ?_ fun _ => ?_
      · exact hid
      · exact ⟨hkeeps.kind_eq, hkeeps.derived_eq, hkeeps.get?_eq⟩

/-- A record is changed, or the request is refused. -/
theorem changed_update (c : MemoryCatalog) (id : String) (changes : Attributes) :
    Changed c.records id changes (c.update id changes).1 (c.update id changes).2.records := by
  rw [update]
  dsimp only
  split
  next e later hfailures => exact .refused e
  next hfailures =>
    split
    next => exact .refused _
    next r hr => exact .changed r hr

/-- A request for changes leaves later identifiers free. -/
theorem IsSound.update_spec {c : MemoryCatalog} (h : c.IsSound) {id : String}
    {changes : Attributes} :
    (c.update id changes).2.IsSound ∧
      Changed c.records id changes (c.update id changes).1 (c.update id changes).2.records := by
  refine ⟨?_, c.changed_update id changes⟩
  rw [update]
  dsimp only
  split
  next e later hfailures => exact h.of_eq rfl rfl rfl
  next hfailures =>
    split
    next => exact h.of_eq rfl rfl rfl
    next r hr =>
      refine ⟨fun kind n hn => ?_, h.dropped_eq⟩
      have hfree := h.free kind n hn
      have hother : id ≠ idText kind n := by
        rintro rfl
        cases hr.symm.trans hfree
      simpa only [Std.ExtTreeMap.getElem?_insert, Std.LawfulEqCmp.compare_eq_iff_eq,
        if_neg hother] using hfree

/-- The catalog in memory keeps its records. -/
def keeper : catalog.Keeper where
  records := MemoryCatalog.records
  Sound := IsSound
  create_spec h hid := h.create_spec hid
  createContent_spec h hid := h.createContent_spec hid
  update_spec h := h.update_spec

end MemoryCatalog

end StreamCatalog
