import StreamCatalog.Database
import StreamCatalog.Proofs.Record.Changes

/-!
# Statements and transactions

A statement changes the tables at once, or, while a transaction is open, a draft of
them that is committed or rolled back. Any statement may fail, and then changes
nothing. The calls that change the database are made of statements here: a call does
what `Database` says, or fails and leaves the tables as they were, whichever of its
statements fails (`DatabaseCall.outcome_run`).
-/

namespace StreamCatalog

/-- The tables, and what the open transaction has made of them, if one is open. -/
structure Connection where
  /-- The tables as everybody sees them. -/
  tables : Database
  /-- The tables as the open transaction sees them. -/
  draft : Option Database

namespace Connection

/-- Statements, which may fail. -/
abbrev Query (α : Type) := ExceptT DatabaseError (StateM Connection) α

variable {α β : Type}

/-- A statement, which fails if it meets a fault. -/
def statement (fault : Option DatabaseError)
    (f : Database → Except DatabaseError (α × Database)) : Query α := fun c =>
  match fault with
  | some e => (.error e, c)
  | none =>
    match c.draft with
    | none =>
      match f c.tables with
      | .error e => (.error e, c)
      | .ok (a, db) => (.ok a, { c with tables := db })
    | some draft =>
      match f draft with
      | .error e => (.error e, c)
      | .ok (a, db) => (.ok a, { c with draft := some db })

/-- Open a transaction. -/
def begin (fault : Option DatabaseError) : Query Unit := fun c =>
  match fault with
  | some e => (.error e, c)
  | none => (.ok (), { c with draft := some c.tables })

/-- Make the draft the tables. -/
def commit (fault : Option DatabaseError) : Query Unit := fun c =>
  match fault with
  | some e => (.error e, c)
  | none => (.ok (), ⟨c.draft.getD c.tables, none⟩)

/-- Drop the draft. -/
def rollback : Query Unit := fun c => (.ok (), { c with draft := none })

/-- Statements in one transaction, which is rolled back when one of them fails. -/
def transaction (opening closing : Option DatabaseError) (body : Query α) : Query α := do
  begin opening
  tryCatch (do
    let a ← body
    commit closing
    return a) fun e => do
      rollback
      throw e

/-! ## What comes of statements -/

/-- What comes of statements outside a transaction that should give `result`: they do, or fail
and leave the tables. If nothing is in their way, they fail only as they should. -/
inductive Outcome (clear : Prop) (tables : Database) :
    Except DatabaseError (α × Database) → Except DatabaseError α × Connection → Prop where
  /-- The statements fail. -/
  | failed (result : Except DatabaseError (α × Database)) (e : DatabaseError)
      (eq_error : clear → result = .error e) : Outcome clear tables result (.error e, ⟨tables, none⟩)
  /-- The statements do what they should. -/
  | done (a : α) (after : Database) :
      Outcome clear tables (.ok (a, after)) (.ok a, ⟨after, none⟩)

/-- What comes of statements within a transaction: nothing of it is in the tables yet. -/
inductive DraftOutcome (clear : Prop) (tables : Database) :
    Except DatabaseError (α × Database) → Except DatabaseError α × Connection → Prop where
  /-- The statements fail. -/
  | failed (result : Except DatabaseError (α × Database)) (e : DatabaseError) (draft : Database)
      (eq_error : clear → result = .error e) :
      DraftOutcome clear tables result (.error e, ⟨tables, some draft⟩)
  /-- The statements do what they should. -/
  | done (a : α) (draft : Database) :
      DraftOutcome clear tables (.ok (a, draft)) (.ok a, ⟨tables, some draft⟩)

theorem run_bind (q : Query α) (k : α → Query β) (c : Connection) :
    (q >>= k) c = match q c with
      | (.error e, c) => (.error e, c)
      | (.ok a, c) => k a c := by
  show (match q c with | (a, c) => ExceptT.bindCont k a c) = _
  rcases q c with ⟨e | a, c⟩ <;> rfl

theorem run_tryCatch (q : Query α) (handle : DatabaseError → Query α) (c : Connection) :
    (tryCatch q handle) c = match q c with
      | (.error e, c) => handle e c
      | (.ok a, c) => (.ok a, c) := by
  simp only [tryCatch, tryCatchThe, MonadExceptOf.tryCatch, ExceptT.tryCatch, ExceptT.mk, bind,
    StateT.bind]
  rcases q c with ⟨e | a, c⟩ <;> rfl

variable {clear : Prop} {tables db : Database} {fault : Option DatabaseError}

theorem outcome_statement (hclear : clear → fault = none)
    (f : Database → Except DatabaseError (α × Database)) :
    Outcome clear tables (f tables) (statement fault f ⟨tables, none⟩) := by
  cases fault with
  | some e => exact .failed _ e fun h => absurd (hclear h) (Option.some_ne_none e)
  | none =>
    simp only [statement]
    cases hf : f tables with
    | error e => exact .failed _ e fun _ => rfl
    | ok result => exact .done result.1 result.2

theorem draftOutcome_statement (hclear : clear → fault = none)
    (f : Database → Except DatabaseError (α × Database)) :
    DraftOutcome clear tables (f db) (statement fault f ⟨tables, some db⟩) := by
  cases fault with
  | some e => exact .failed _ e _ fun h => absurd (hclear h) (Option.some_ne_none e)
  | none =>
    simp only [statement]
    cases hf : f db with
    | error e => exact .failed _ e _ fun _ => rfl
    | ok result => exact .done result.1 result.2

/-- Statements in a row. -/
theorem DraftOutcome.bind {q : Query α} {k : α → Query β}
    {result : Except DatabaseError (α × Database)}
    {next : α → Database → Except DatabaseError (β × Database)}
    (hq : DraftOutcome clear tables result (q ⟨tables, some db⟩))
    (hk : ∀ a draft, DraftOutcome clear tables (next a draft) (k a ⟨tables, some draft⟩)) :
    DraftOutcome clear tables (do let (a, draft) ← result; next a draft)
      ((q >>= k) ⟨tables, some db⟩) := by
  rw [run_bind]
  generalize q ⟨tables, some db⟩ = after at hq
  cases hq with
  | failed _ e draft eq_error => exact .failed _ e draft fun h => by rw [eq_error h]; rfl
  | done a draft => exact hk a draft

/-- Statements behind one that only reads. -/
theorem Outcome.bind {q : Query α} {k : α → Query β}
    {result : Except DatabaseError α} {next : α → Except DatabaseError (β × Database)}
    (hq : Outcome clear tables (do return (← result, tables)) (q ⟨tables, none⟩))
    (hk : ∀ a, result = .ok a → Outcome clear tables (next a) (k a ⟨tables, none⟩)) :
    Outcome clear tables (do next (← result)) ((q >>= k) ⟨tables, none⟩) := by
  rw [run_bind]
  generalize q ⟨tables, none⟩ = after at hq
  cases result with
  | error e =>
    cases hq with
    | failed _ e' eq_error =>
      exact .failed _ e' fun h => congrArg Except.error (Except.error.inj (eq_error h))
  | ok a =>
    cases hq with
    | failed _ e eq_error => exact .failed _ e fun h => nomatch eq_error h
    | done => exact hk a rfl

/-- A transaction does all that it should or nothing. -/
theorem outcome_transaction {opening closing : Option DatabaseError} {body : Query α}
    {result : Except DatabaseError (α × Database)}
    (hopening : clear → opening = none) (hclosing : clear → closing = none)
    (hbody : DraftOutcome clear tables result (body ⟨tables, some tables⟩)) :
    Outcome clear tables result (transaction opening closing body ⟨tables, none⟩) := by
  rw [transaction, run_bind]
  cases opening with
  | some e => exact .failed _ e fun h => absurd (hopening h) (Option.some_ne_none e)
  | none =>
    show Outcome clear tables result ((tryCatch (do let a ← body; commit closing; return a)
      fun e => do rollback; throw e : Query α) ⟨tables, some tables⟩)
    rw [run_tryCatch, run_bind]
    generalize body ⟨tables, some tables⟩ = after at hbody
    cases hbody with
    | failed _ e draft eq_error => exact .failed _ e eq_error
    | done a draft =>
      cases closing with
      | some e => exact .failed _ e fun h => absurd (hclosing h) (Option.some_ne_none e)
      | none => exact .done a draft

end Connection

/-! ## Rows -/

theorem RecordKind.name_inj {kind other : RecordKind} : kind.name = other.name ↔ kind = other := by
  cases kind <;> cases other <;> decide

variable [Json.NumberReader]

/-- The record that a row stores. -/
theorem RecordRow.record_eq_ok_iff {row : RecordRow} {id : String} {r : Record} :
    row.record id = .ok r ↔ id = r.id ∧ row.kind = r.kind.name ∧
      Attributes.ofStored? row.attributes = some r.attributes := by
  obtain ⟨id', kind, attributes⟩ := r
  rw [record]
  cases hkind : RecordKind.ofName? row.kind with
  | none =>
    have hne : row.kind ≠ kind.name := fun h => by
      rw [RecordKind.ofName?_eq_some_iff.2 h] at hkind
      cases hkind
    simp [hne]
  | some kind' =>
    rw [RecordKind.ofName?_eq_some_iff.1 hkind, RecordKind.name_inj]
    cases Attributes.ofStored? row.attributes <;> simp

theorem Database.get_eq_some_iff {db : Database} {id : String} {r : Record} :
    db.get id = .ok (some r) ↔ ∃ row, db.records[id]? = some row ∧ row.record id = .ok r := by
  rw [get]
  cases db.records[id]? with
  | none => simp
  | some row => cases hrow : row.record id <;> simp [Except.map, hrow]

theorem Database.id_eq_of_get {db : Database} {id : String} {r : Record}
    (h : db.get id = .ok (some r)) : r.id = id := by
  obtain ⟨row, -, hrecord⟩ := get_eq_some_iff.1 h
  exact (RecordRow.record_eq_ok_iff.1 hrecord).1.symm

/-- A call that changes the tables. -/
inductive DatabaseCall where
  /-- Insert a record. -/
  | insert (r : Record)
  /-- Insert a record and its content. -/
  | insertWithContent (r : Record) (row : ContentRow)
  /-- Set attributes of a record. -/
  | update (id : String) (changes : Attributes)

namespace DatabaseCall

/-- The identifier that a call is about. -/
def id : DatabaseCall → String
  | insert r => r.id
  | insertWithContent r _ => r.id
  | update id _ => id

/-- The record that a call stores, and the tables after it. -/
def apply (db : Database) : DatabaseCall → Except DatabaseError (Record × Database)
  | insert r => do return (r, ← db.insert r)
  | insertWithContent r row => do return (r, ← db.insertWithContent r row)
  | update id changes => db.update id changes

/-- The faults that the statements of a call meet, in their order. -/
abbrev Faults := Nat → Option DatabaseError

open Connection

/-- The statement that inserts a record. -/
def insertRecord (fault : Option DatabaseError) (r : Record) : Query Record :=
  statement fault fun db => do return (r, ← db.insert r)

/-- The statement that sets all columns of a record but its kind. -/
def updateRecord (fault : Option DatabaseError) (r : Record) : Query Record :=
  statement fault fun db =>
    return (r, (db.modifyRow r.id fun row => { r.row with kind := row.kind }).2)

/-- The statements of a call. -/
def run (faults : Faults) : DatabaseCall → Query Record
  | insert r => insertRecord (faults 0) r
  | insertWithContent r row =>
    transaction (faults 0) (faults 3) do
      let r ← insertRecord (faults 1) r
      statement (faults 2) fun db => do return (r, ← db.insertContentRow r.id row)
  | update id changes => do
    let found ← statement (faults 0) fun db => do return (← db.get id, db)
    match found with
    | none => throw (.notFound id)
    | some r => updateRecord (faults 1) (r.overlaid changes)

/-- Setting the other columns of a row that was read sets the whole row. -/
theorem modifyRow_overlaid {db : Database} {id : String} {r : Record}
    (hget : db.get id = .ok (some r)) (changes : Attributes) :
    (db.modifyRow id fun row => { (r.overlaid changes).row with kind := row.kind }).2 =
      { db with records := db.records.insert id (r.overlaid changes).row } := by
  obtain ⟨row, hrow, hrecord⟩ := Database.get_eq_some_iff.1 hget
  have hkind : row.kind = (r.overlaid changes).row.kind := (RecordRow.record_eq_ok_iff.1 hrecord).2.1
  simp only [Database.modifyRow, hrow, hkind]

/-- A call does what the database says, or fails and leaves the tables as they were. If nothing
is in its way, it fails only as the database says. -/
theorem outcome_run (faults : Faults) (call : DatabaseCall) (db : Database) :
    Outcome (∀ n, faults n = none) db (call.apply db) (call.run faults ⟨db, none⟩) := by
  cases call with
  | insert r =>
    have hinsert : Outcome (∀ n, faults n = none) db (do return (r, ← db.insert r))
        (insertRecord (faults 0) r ⟨db, none⟩) :=
      outcome_statement (fun h => h 0) fun db => do return (r, ← db.insert r)
    exact hinsert
  | insertWithContent r row =>
    have hinsert : DraftOutcome (∀ n, faults n = none) db (do return (r, ← db.insert r))
        (insertRecord (faults 1) r ⟨db, some db⟩) :=
      draftOutcome_statement (fun h => h 1) fun db => do return (r, ← db.insert r)
    have hbody := hinsert.bind
      (k := fun r => statement (faults 2) fun db => do return (r, ← db.insertContentRow r.id row))
      fun r draft => draftOutcome_statement (fun h => h 2) _
    have hresult : (do
        let (r, draft) ← (do return (r, ← db.insert r) : Except DatabaseError (Record × Database))
        return (r, ← draft.insertContentRow r.id row)) = (insertWithContent r row).apply db := by
      rw [apply, Database.insertWithContent]
      cases db.insert r <;> rfl
    rw [← hresult]
    exact outcome_transaction (fun h => h 0) (fun h => h 3) hbody
  | update id changes =>
    have hread : Outcome (∀ n, faults n = none) db (do return (← db.get id, db))
        (statement (faults 0) (fun db => do return (← db.get id, db)) ⟨db, none⟩) :=
      outcome_statement (fun h => h 0) fun db => do return (← db.get id, db)
    refine hread.bind fun found hget => ?_
    cases found with
    | none => exact .failed _ _ fun _ => rfl
    | some r =>
      obtain rfl : r.id = id := Database.id_eq_of_get hget
      have hwrite : Outcome (∀ n, faults n = none) db
          (return (r.overlaid changes, (db.modifyRow r.id fun row =>
            { (r.overlaid changes).row with kind := row.kind }).2))
          (updateRecord (faults 1) (r.overlaid changes) ⟨db, none⟩) :=
        outcome_statement (fun h => h 1) fun db => return (r.overlaid changes,
          (db.modifyRow (r.overlaid changes).id fun row =>
            { (r.overlaid changes).row with kind := row.kind }).2)
      rw [modifyRow_overlaid hget] at hwrite
      exact hwrite

/-- Where nothing is in its way, a call does what the database says. -/
theorem run_of_apply {call : DatabaseCall} {db after : Database} {r : Record}
    (h : call.apply db = .ok (r, after)) :
    call.run (fun _ => none) ⟨db, none⟩ = (.ok r, ⟨after, none⟩) := by
  have houtcome := call.outcome_run (fun _ => none) db
  rw [h] at houtcome
  generalize call.run (fun _ => none) ⟨db, none⟩ = answer at houtcome ⊢
  cases houtcome with
  | failed _ e eq_error => cases eq_error fun _ => rfl
  | done => rfl

/-- Where nothing is in its way, a call fails as the database says. -/
theorem run_of_apply_error {call : DatabaseCall} {db : Database} {e : DatabaseError}
    (h : call.apply db = .error e) :
    call.run (fun _ => none) ⟨db, none⟩ = (.error e, ⟨db, none⟩) := by
  have houtcome := call.outcome_run (fun _ => none) db
  rw [h] at houtcome
  generalize call.run (fun _ => none) ⟨db, none⟩ = answer at houtcome ⊢
  cases houtcome with
  | failed _ e' eq_error =>
    cases eq_error fun _ => rfl
    rfl

end DatabaseCall

end StreamCatalog
