import Mathlib.Logic.Function.Basic
import StreamCatalog.Proofs.Monitor.Moves

/-!
# Operations that do not disturb each other keep the filing

A change of title takes three steps: the new title is checked, the monitor gets
it, and is filed under it. `RegistryOperation.IsDisturbedBy` says which other
operations must not run meanwhile. `Filing.Consistent` relates the filing, the
titles of the monitors, and how far each operation has come; every move of every
operation preserves it (`Filing.Consistent.move`), unless the operation ends
after its monitor got a new title and before it is filed under it.
-/

namespace StreamCatalog

/-! ## Operations that disturb each other -/

namespace RegistryOperation

/-- Whether an operation changes properties of a stream. -/
def isUpdate : RegistryOperation → Bool
  | update _ _ => true
  | add _ | start _ | stop _ | remove _ => false

/-- Whether an operation gives a stream another title. -/
def renames (op : RegistryOperation) : Bool := op.newTitle ≠ op.title

/-- The title under which an operation files a monitor. -/
def filesAs? : RegistryOperation → Option String
  | add config => some config.title
  | update title changes =>
    if (update title changes).renames then some (update title changes).newTitle else none
  | start _ | stop _ | remove _ => none

/-- Whether an operation gives a stream another title, and another one changes properties of the
same stream, or files one under the old title or the new one. -/
def IsDisturbedBy (op other : RegistryOperation) : Prop :=
  op.renames = true ∧ ((other.isUpdate = true ∧ other.title = op.title) ∨
    other.filesAs? = some op.title ∨ other.filesAs? = some op.newTitle)

instance (op other : RegistryOperation) : Decidable (op.IsDisturbedBy other) :=
  inferInstanceAs (Decidable (_ ∧ _))

theorem renames_iff {op : RegistryOperation} : op.renames = true ↔ op.newTitle ≠ op.title :=
  decide_eq_true_iff

theorem askedTitle?_of_renames {title : String} {changes : Properties}
    (h : (update title changes).renames = true) :
    askedTitle? changes = some (update title changes).newTitle := by
  have hne : (askedTitle? changes).getD title ≠ title := renames_iff.1 h
  cases hasked : askedTitle? changes with
  | none =>
    rw [hasked] at hne
    exact absurd rfl hne
  | some asked => rw [newTitle, hasked, Option.getD_some]

theorem isUpdate_of_renames {op : RegistryOperation} (h : op.renames = true) :
    op.isUpdate = true := by
  cases op with
  | update => rfl
  | add | start | stop | remove => exact absurd rfl (renames_iff.1 h)

theorem filesAs?_of_renames {op : RegistryOperation} (h : op.renames = true) :
    op.filesAs? = some op.newTitle := by
  cases op with
  | update title changes => exact if_pos h
  | add | start | stop | remove => exact absurd rfl (renames_iff.1 h)

theorem newTitle_eq_of_not_renames {op : RegistryOperation} (h : ¬ op.renames = true) :
    op.newTitle = op.title :=
  not_not.1 (mt renames_iff.2 h)

end RegistryOperation

/-! ## How far operations have come -/

/-- Whether the monitor has the new configuration. -/
def UpdatePhase.isChanged : UpdatePhase → Bool
  | unclaimed | moving _ | halted _ => false
  | renewed _ | updated _ => true

/-- The new configuration, once it is checked. -/
def UpdatePhase.config? : UpdatePhase → Option StreamConfig
  | unclaimed => none
  | moving config | halted config | renewed config | updated config => some config

namespace RegistryStage

/-- Whether an operation has begun and not ended. -/
def isRunning : RegistryStage → Bool
  | start | finished _ => false
  | found _ | updating _ _ | removed _ => true

/-- Whether nothing is done. -/
def isStart : RegistryStage → Bool
  | start => true
  | found _ | updating _ _ | removed _ | finished _ => false

/-- Whether the operation has ended. -/
def isFinished : RegistryStage → Bool
  | finished _ => true
  | start | found _ | updating _ _ | removed _ => false

/-- Whether a monitor that is stopped has got its configuration. -/
def isRenewed : RegistryStage → Bool
  | updating _ (.renewed _) => true
  | updating _ _ | start | found _ | removed _ | finished _ => false

/-- The number of the monitor that an operation has found. -/
def id? : RegistryStage → Option Nat
  | found id | updating id _ => some id
  | start | removed _ | finished _ => none

/-- Whether the title that is asked for was free. -/
def isClaimed : RegistryStage → Bool
  | updating _ _ => true
  | start | found _ | removed _ | finished _ => false

/-- Whether the monitor has the new configuration. -/
def isChanged : RegistryStage → Bool
  | updating _ phase => phase.isChanged
  | start | found _ | removed _ | finished _ => false

/-- The new configuration, once it is checked. -/
def config? : RegistryStage → Option StreamConfig
  | updating _ phase => phase.config?
  | start | found _ | removed _ | finished _ => none

theorem eq_renewed {stage : RegistryStage} (h : stage.isChanged = true)
    (hupdated : ∀ id config, stage ≠ .updating id (.updated config)) :
    ∃ id config, stage = .updating id (.renewed config) := by
  cases stage with
  | updating id phase =>
    cases phase with
    | renewed config => exact ⟨id, config, rfl⟩
    | updated config => exact absurd rfl (hupdated id config)
    | unclaimed | moving | halted => cases h
  | start | found | removed | finished => cases h

theorem exists_id?_of_isRenewed {stage : RegistryStage} (h : stage.isRenewed = true) :
    ∃ id, stage.id? = some id ∧ stage.isChanged = true := by
  cases stage with
  | updating id phase =>
    cases phase with
    | renewed => exact ⟨id, rfl, rfl⟩
    | unclaimed | moving | halted | updated => cases h
  | start | found | removed | finished => cases h

theorem isClaimed_of_isChanged {stage : RegistryStage} (h : stage.isChanged = true) :
    stage.isClaimed = true := by
  cases stage with
  | updating => rfl
  | start | found | removed | finished => cases h

theorem isRunning_of_id? {stage : RegistryStage} {id : Nat} (h : stage.id? = some id) :
    stage.isRunning = true := by
  cases stage with
  | found | updating => rfl
  | start | removed | finished => cases h

end RegistryStage

/-- A monitor that cannot be started again keeps its configuration, and its place. -/
theorem FilingMove.of_isRenewed {op : RegistryOperation} {before next : RegistryStage}
    {v w : FilingView} (h : FilingMove op before v next w) (hbefore : before.isRenewed = true)
    (hnext : next.isFinished = true) : w = v ∧ ∃ result, next = .finished result := by
  cases h with
  | ended _ _ _ result => exact ⟨rfl, result, rfl⟩
  | waited =>
    cases before with
    | finished => cases hbefore
    | start | found | updating | removed => cases hnext
  | added | found | removed | claimed | checked | halted | changed | renewed | refiled | settled =>
    cases hbefore
  | restarted => cases hnext

/-- How a stage of an update that has found a monitor fits to the filing. -/
structure RegistryOperation.Fits (op : RegistryOperation) (stage : RegistryStage) (id : Nat)
    (v : FilingView) : Prop where
  /-- The monitor has the old title, and then the new one. -/
  title_eq : v.titles[id]? = some (if stage.isChanged then op.newTitle else op.title)
  /-- It is filed under the old title, if at all. -/
  filed_eq : ∀ title : String, v.filed[title]? = some id → title = op.title
  /-- No other monitor takes its place. -/
  own : op.renames = true → ∀ other, v.filed[op.title]? = some other → other = id
  /-- The new title stays free. -/
  free : op.renames = true → stage.isClaimed = true → op.newTitle ∉ v.filed
  /-- The new configuration has the new title. -/
  gets : ∀ config, stage.config? = some config → config.title = op.newTitle

/-- What is said of an update stays true when others leave its monitor and its titles alone. -/
theorem RegistryOperation.Fits.of_eq {op : RegistryOperation} {stage : RegistryStage} {id : Nat}
    {v w : FilingView} (h : op.Fits stage id v)
    (htitles : ∀ title, v.titles[id]? = some title → w.titles[id]? = some title)
    (hfiled : ∀ title : String, w.filed[title]? = some id → v.filed[title]? = some id)
    (hold : op.renames = true → ∀ other, w.filed[op.title]? = some other →
      v.filed[op.title]? = some other)
    (hnew : op.renames = true → op.newTitle ∈ w.filed → op.newTitle ∈ v.filed) :
    op.Fits stage id w where
  title_eq := htitles _ h.title_eq
  filed_eq title htitle := h.filed_eq title (hfiled title htitle)
  own hrenames other hother := h.own hrenames other (hold hrenames other hother)
  free hrenames hclaimed hmem := h.free hrenames hclaimed (hnew hrenames hmem)
  gets := h.gets

namespace Filing

variable {ι : Type}

/-- What holds of operations on a registry of which none is disturbed. -/
structure Consistent (ops : ι → RegistryOperation) (stage : ι → RegistryStage)
    (v : FilingView) : Prop where
  /-- Each title has its own monitor. -/
  numbering : IsNumbering v.filed v.titles.length
  /-- A monitor is filed under its title, unless the update of that title has changed it. -/
  settled : ∀ (title : String) id, v.filed[title]? = some id → v.titles[id]? = some title ∨
    ∃ i, (ops i).isUpdate = true ∧ (stage i).id? = some id ∧ (stage i).isChanged = true ∧
      (ops i).title = title
  /-- Each update has come as far as its stage says. -/
  fits : ∀ i id, (ops i).isUpdate = true → (stage i).id? = some id →
    (ops i).Fits (stage i) id v
  /-- Updates that have found the same monitor have found it under the same title. -/
  same_title : ∀ i j id, (ops i).isUpdate = true → (ops j).isUpdate = true →
    (stage i).id? = some id → (stage j).id? = some id → (ops i).title = (ops j).title
  /-- No operation is disturbed. -/
  apart : ∀ i j, i ≠ j → (stage i).isRunning = true → (stage j).isRunning = true →
    ¬ (ops i).IsDisturbedBy (ops j)

namespace Consistent

variable {ops : ι → RegistryOperation} {stage : ι → RegistryStage} {v : FilingView}

/-- Before the first step. -/
theorem initial (ops : ι → RegistryOperation) : Consistent ops (fun _ => .start) ⟨∅, []⟩ where
  numbering := .empty
  settled title id h := by cases Std.ExtTreeMap.getElem?_empty.symm.trans h
  fits i id _ h := by cases h
  same_title i j id _ _ h := by cases h
  apart i j _ h := by cases h

/-- A monitor is filed under its title, or an operation that renames it has yet to file it under the
new one, which is free. -/
theorem title_cases {title current : String} {id : Nat} (h : Consistent ops stage v)
    (hfiled : v.filed[title]? = some id) (htitle : v.titles[id]? = some current) :
    current = title ∨ ∃ i, (ops i).renames = true ∧ (stage i).id? = some id ∧
      (stage i).isChanged = true ∧ (ops i).title = title ∧ current = (ops i).newTitle ∧
      (ops i).newTitle ∉ v.filed := by
  rcases h.settled title id hfiled with hsettled | ⟨i, hupdate, hid, hchanged, rfl⟩
  · exact .inl (Option.some.inj (htitle.symm.trans hsettled))
  · have hfits := h.fits i id hupdate hid
    have hnew := hfits.title_eq
    rw [hchanged, if_pos rfl, htitle] at hnew
    obtain rfl := Option.some.inj hnew
    by_cases hrenames : (ops i).renames = true
    · exact .inr ⟨i, hrenames, hid, hchanged, rfl, rfl,
        hfits.free hrenames (RegistryStage.isClaimed_of_isChanged hchanged)⟩
    · exact .inl (RegistryOperation.newTitle_eq_of_not_renames hrenames)

/-- Monitors that are filed have different titles. -/
theorem eq_of_title_eq {title other current : String} {id n : Nat} (h : Consistent ops stage v)
    (hfiled : v.filed[title]? = some id) (htitle : v.titles[id]? = some current)
    (hother : v.filed[other]? = some n) (hsame : v.titles[n]? = some current) : title = other := by
  rcases h.title_cases hfiled htitle with rfl | ⟨i, hirenames, hiid, -, rfl, hinew, hifree⟩ <;>
    rcases h.title_cases hother hsame with rfl | ⟨j, hjrenames, hjid, -, rfl, hjnew, hjfree⟩
  · rfl
  · rw [← hjnew] at hjfree
    exact absurd (mem_of_getElem?_eq_some hfiled) hjfree
  · rw [← hinew] at hifree
    exact absurd (mem_of_getElem?_eq_some hother) hifree
  · -- Two operations that give monitors the same title disturb each other.
    by_cases hij : i = j
    · rw [hij]
    · have hfiles := RegistryOperation.filesAs?_of_renames hjrenames
      rw [← hjnew, hinew] at hfiles
      exact absurd ⟨hirenames, .inr (.inr hfiles)⟩ (h.apart i j hij
        (RegistryStage.isRunning_of_id? hiid) (RegistryStage.isRunning_of_id? hjid))

/-- Two updates of one monitor keep its title. -/
theorem newTitle_eq_title {i j : ι} {id : Nat} (h : Consistent ops stage v) (hj : j ≠ i)
    (hupdate : (ops i).isUpdate = true) (hid : (stage i).id? = some id)
    (hjupdate : (ops j).isUpdate = true) (hjid : (stage j).id? = some id) :
    (ops j).newTitle = (ops j).title := by
  apply RegistryOperation.newTitle_eq_of_not_renames
  intro hrenames
  exact h.apart j i hj (RegistryStage.isRunning_of_id? hjid) (RegistryStage.isRunning_of_id? hid)
    ⟨hrenames, .inl ⟨hupdate, h.same_title i j id hupdate hjupdate hid hjid⟩⟩

/-- A monitor that an operation has not found under a title is filed under its own, or another
operation has changed that. -/
theorem settled_beside {i : ι} {title : String} {id : Nat} (h : Consistent ops stage v)
    (hfiled : v.filed[title]? = some id)
    (hbeside : (ops i).isUpdate = true → (stage i).id? = some id → (ops i).title ≠ title) :
    v.titles[id]? = some title ∨ ∃ j, j ≠ i ∧ (ops j).isUpdate = true ∧
      (stage j).id? = some id ∧ (stage j).isChanged = true ∧ (ops j).title = title := by
  rcases h.settled title id hfiled with htitle | ⟨j, hupdate, hid, hchanged, hold⟩
  · exact .inl htitle
  · right
    refine ⟨j, ?_, hupdate, hid, hchanged, hold⟩
    rintro rfl
    exact hbeside hupdate hid hold

variable {i : ι} {op : RegistryOperation} {before next : RegistryStage} {w : FilingView}

/-- A monitor that is filed stays so, unless it is the one that is removed. -/
theorem kept {title : String} {id : Nat} (h : Consistent ops stage v) (hop : ops i = op)
    (hstage : stage i = before) (hmove : FilingMove op before v next w)
    (hfiled : v.filed[title]? = some id) :
    op = .remove title ∨ ∃ other : String, w.filed[other]? = some id := by
  cases hmove with
  | added config _ free =>
    have hne : config.title ≠ title := by
      rintro rfl
      exact free (mem_of_getElem?_eq_some hfiled)
    exact .inr ⟨title, getElem?_insert_eq_some_iff.2 (.inr ⟨hne, hfiled⟩)⟩
  | removed forgotten =>
    by_cases hne : forgotten = title
    · exact .inl (congrArg _ hne)
    · exact .inr ⟨title, getElem?_erase_eq_some_iff.2 ⟨hne, hfiled⟩⟩
  | refiled old changes n other _ config renames filed =>
    right
    by_cases hold : old = title
    · subst hold
      obtain rfl : other = id := Option.some.inj (filed.symm.trans hfiled)
      exact ⟨config.title, getElem?_insert_eq_some_iff.2 (.inl ⟨rfl, rfl⟩)⟩
    · have hne : config.title ≠ title := by
        have hfits := h.fits i n (by rw [hop]; rfl) (by rw [hstage]; rfl)
        rw [hop, hstage] at hfits
        have hnew := hfits.gets config rfl
        have hrenames := RegistryOperation.renames_iff.2 (hnew ▸ renames)
        rintro rfl
        exact hfits.free hrenames rfl (hnew ▸ mem_of_getElem?_eq_some hfiled)
      exact ⟨title, getElem?_insert_eq_some_iff.2 (.inr ⟨hne,
        getElem?_erase_eq_some_iff.2 ⟨hold, hfiled⟩⟩)⟩
  | found | claimed | checked | halted | changed | renewed | restarted | settled | ended | waited =>
    exact .inr ⟨title, hfiled⟩

variable [DecidableEq ι]

/-- An operation that goes on: what has to be shown of the filing, and of the operations. -/
theorem advance (h : Consistent ops stage v)
    (hnumbering : IsNumbering w.filed w.titles.length)
    (hsettled : ∀ (title : String) id, w.filed[title]? = some id → w.titles[id]? = some title ∨
      (∃ j, j ≠ i ∧ (ops j).isUpdate = true ∧ (stage j).id? = some id ∧
        (stage j).isChanged = true ∧ (ops j).title = title) ∨
      ((ops i).isUpdate = true ∧ next.id? = some id ∧ next.isChanged = true ∧
        (ops i).title = title))
    (hothers : ∀ j id, j ≠ i → (ops j).isUpdate = true → (stage j).id? = some id →
      (ops j).Fits (stage j) id w)
    (hfits : ∀ id, (ops i).isUpdate = true → next.id? = some id → (ops i).Fits next id w)
    (hsame : ∀ j id, j ≠ i → (ops i).isUpdate = true → (ops j).isUpdate = true →
      next.id? = some id → (stage j).id? = some id → (ops i).title = (ops j).title)
    (hapart : ∀ j, j ≠ i → next.isRunning = true → (stage j).isRunning = true →
      ¬ (ops i).IsDisturbedBy (ops j) ∧ ¬ (ops j).IsDisturbedBy (ops i)) :
    Consistent ops (Function.update stage i next) w := by
  constructor
  case numbering => exact hnumbering
  case settled =>
    intro title id hfiled
    rcases hsettled title id hfiled with htitle | ⟨j, hj, hchanging⟩ | hchanging
    · exact .inl htitle
    · refine .inr ⟨j, ?_⟩
      rw [Function.update_of_ne hj]
      exact hchanging
    · refine .inr ⟨i, ?_⟩
      rw [Function.update_self]
      exact hchanging
  case fits =>
    intro j id hupdate hid
    by_cases hj : j = i
    · subst hj
      rw [Function.update_self] at hid ⊢
      exact hfits id hupdate hid
    · rw [Function.update_of_ne hj] at hid ⊢
      exact hothers j id hj hupdate hid
  case same_title =>
    intro j k id hjupdate hkupdate hjid hkid
    by_cases hj : j = i <;> by_cases hk : k = i
    · rw [hj, hk]
    · subst hj
      rw [Function.update_self] at hjid
      rw [Function.update_of_ne hk] at hkid
      exact hsame k id hk hjupdate hkupdate hjid hkid
    · subst hk
      rw [Function.update_self] at hkid
      rw [Function.update_of_ne hj] at hjid
      exact (hsame j id hj hkupdate hjupdate hkid hjid).symm
    · rw [Function.update_of_ne hj] at hjid
      rw [Function.update_of_ne hk] at hkid
      exact h.same_title j k id hjupdate hkupdate hjid hkid
  case apart =>
    intro j k hjk hjrunning hkrunning
    by_cases hj : j = i
    · subst hj
      rw [Function.update_self] at hjrunning
      rw [Function.update_of_ne hjk.symm] at hkrunning
      exact (hapart k hjk.symm hjrunning hkrunning).1
    · rw [Function.update_of_ne hj] at hjrunning
      by_cases hk : k = i
      · subst hk
        rw [Function.update_self] at hkrunning
        exact (hapart j hj hkrunning hjrunning).2
      · rw [Function.update_of_ne hk] at hkrunning
        exact h.apart j k hjk hjrunning hkrunning

/-- An operation that leaves the filing alone, and holds the monitor that it held before. -/
theorem advance_quietly (h : Consistent ops stage v)
    (hid : ∀ id, next.id? = some id → (stage i).id? = some id)
    (hrunning : next.isRunning = true → (stage i).isRunning = true)
    (hfits : ∀ id, (ops i).isUpdate = true → next.id? = some id → (ops i).Fits next id v)
    (hsettled : ∀ id, (ops i).isUpdate = true → (stage i).id? = some id →
      (stage i).isChanged = true → v.filed[(ops i).title]? = some id →
      v.titles[id]? = some (ops i).title ∨ next.id? = some id ∧ next.isChanged = true) :
    Consistent ops (Function.update stage i next) v := by
  refine h.advance h.numbering ?_ (fun j id _ => h.fits j id) hfits ?_ ?_
  · intro title id hfiled
    rcases h.settled title id hfiled with htitle | ⟨j, hupdate, hjid, hchanged, rfl⟩
    · exact .inl htitle
    · by_cases hj : j = i
      · subst hj
        rcases hsettled id hupdate hjid hchanged hfiled with htitle | ⟨hnext, hnextChanged⟩
        · exact .inl htitle
        · exact .inr (.inr ⟨hupdate, hnext, hnextChanged, rfl⟩)
      · exact .inr (.inl ⟨j, hj, hupdate, hjid, hchanged, rfl⟩)
  · intro j id hj hupdate hjupdate hnext hjid
    exact h.same_title i j id hupdate hjupdate (hid id hnext) hjid
  · intro j hj hnext hjrunning
    exact ⟨h.apart i j (Ne.symm hj) (hrunning hnext) hjrunning,
      h.apart j i hj hjrunning (hrunning hnext)⟩

/-- An operation ends that has not changed the title of a monitor that is filed. -/
theorem ends (h : Consistent ops stage v) (result : Except MonitorError Unit)
    (hsettled : ∀ id, (ops i).isUpdate = true → (stage i).id? = some id →
      (stage i).isChanged = true → v.filed[(ops i).title]? = some id →
      v.titles[id]? = some (ops i).title) :
    Consistent ops (Function.update stage i (.finished result)) v :=
  h.advance_quietly nofun nofun nofun fun id hupdate hid hchanged hfiled =>
    .inl (hsettled id hupdate hid hchanged hfiled)

/-- A monitor is registered. -/
theorem adds {config : StreamConfig} (h : Consistent ops stage v) (hop : ops i = .add config)
    (hcalm : ∀ j, (stage j).isRunning = true → ¬ (ops j).IsDisturbedBy (ops i))
    (result : Except MonitorError Unit) :
    Consistent ops (Function.update stage i (.finished result))
      ⟨v.filed.insert config.title v.titles.length, v.titles ++ [config.title]⟩ := by
  have htitles : ∀ (id : Nat) title, v.titles[id]? = some title →
      (v.titles ++ [config.title])[id]? = some title := by
    intro id title htitle
    obtain ⟨hid, -⟩ := List.getElem?_eq_some_iff.1 htitle
    rw [List.getElem?_append_left hid, htitle]
  have hnumbering : IsNumbering (v.filed.insert config.title v.titles.length)
      (v.titles ++ [config.title]).length := by
    rw [List.length_append]
    exact h.numbering.insert config.title
  refine h.advance hnumbering ?_ ?_ nofun nofun nofun
  · intro title id hfiled
    rcases getElem?_insert_eq_some_iff.1 hfiled with ⟨rfl, rfl⟩ | ⟨-, hfiled⟩
    · exact .inl List.getElem?_concat_length
    · rcases h.settled_beside (i := i) hfiled (by rw [hop]; exact nofun) with htitle | hother
      · exact .inl (htitles id title htitle)
      · exact .inr (.inl hother)
  · intro j id hj hupdate hid
    have hundisturbed := hcalm j (RegistryStage.isRunning_of_id? hid)
    have hfits := h.fits j id hupdate hid
    obtain ⟨hlt, -⟩ := List.getElem?_eq_some_iff.1 hfits.title_eq
    apply hfits.of_eq (htitles id)
    · intro title hfiled
      rcases getElem?_insert_eq_some_iff.1 hfiled with ⟨-, rfl⟩ | ⟨-, hfiled⟩
      · exact absurd hlt (Nat.lt_irrefl _)
      · exact hfiled
    · intro hrenames other hfiled
      rcases getElem?_insert_eq_some_iff.1 hfiled with ⟨htitle, -⟩ | ⟨-, hfiled⟩
      · refine absurd ⟨hrenames, .inr (.inl ?_)⟩ hundisturbed
        rw [hop, ← htitle]
        rfl
      · exact hfiled
    · intro hrenames hmem
      rcases Std.ExtTreeMap.mem_insert.1 hmem with htitle | hmem
      · refine absurd ⟨hrenames, .inr (.inr ?_)⟩ hundisturbed
        rw [hop, ← Std.LawfulEqCmp.compare_eq_iff_eq.1 htitle]
        rfl
      · exact hmem

/-- The monitor of a title is forgotten. -/
theorem removes {title : String} {id : Nat} (h : Consistent ops stage v)
    (hop : ops i = .remove title) :
    Consistent ops (Function.update stage i (.removed id)) ⟨v.filed.erase title, v.titles⟩ := by
  have hfiled : ∀ (other : String) n, (v.filed.erase title)[other]? = some n →
      v.filed[other]? = some n :=
    fun other n hother => (getElem?_erase_eq_some_iff.1 hother).2
  refine h.advance (h.numbering.erase title) ?_ ?_ nofun nofun ?_
  · intro other n hother
    have hsettled := h.settled_beside (i := i) (hfiled other n hother) (by rw [hop]; exact nofun)
    exact hsettled.imp_right .inl
  · intro j n hj hupdate hid
    refine (h.fits j n hupdate hid).of_eq (fun _ htitle => htitle) ?_ ?_ ?_
    · exact fun other => hfiled other n
    · exact fun _ => hfiled (ops j).title
    · exact fun _ hmem => (Std.ExtTreeMap.mem_erase.1 hmem).2
  · intro j hj _ _
    rw [hop]
    constructor
    · rintro ⟨hrenames, -⟩
      exact RegistryOperation.renames_iff.1 hrenames rfl
    · rintro ⟨-, ⟨hupdate, -⟩ | hfiles | hfiles⟩
      · cases hupdate
      · cases hfiles
      · cases hfiles

/-- A monitor is found under its title. -/
theorem finds {id : Nat} (h : Consistent ops stage v)
    (hfiled : v.filed[(ops i).title]? = some id)
    (hcalm : ∀ j, (stage j).isRunning = true →
      ¬ (ops i).IsDisturbedBy (ops j) ∧ ¬ (ops j).IsDisturbedBy (ops i))
    (hstart : stage i = .start) :
    Consistent ops (Function.update stage i (.found id)) v := by
  refine h.advance h.numbering ?_ (fun j id _ => h.fits j id) ?_ ?_ ?_
  · intro title n hn
    have hsettled := h.settled_beside (i := i) hn (by rw [hstart]; exact nofun)
    exact hsettled.imp_right .inl
  · intro n hupdate hn
    cases hn
    constructor
    case title_eq =>
      rcases h.settled _ id hfiled with htitle | ⟨j, hjupdate, hjid, hchanged, htitle⟩
      · exact htitle
      · -- An update that has changed the title of this monitor would be disturbed.
        have hrenames : ¬ (ops j).renames = true := fun hrenames =>
          (hcalm j (RegistryStage.isRunning_of_id? hjid)).2
            ⟨hrenames, .inl ⟨hupdate, htitle.symm⟩⟩
        have hjtitle := (h.fits j id hjupdate hjid).title_eq
        rw [hchanged, if_pos rfl, RegistryOperation.newTitle_eq_of_not_renames hrenames,
          htitle] at hjtitle
        exact hjtitle
    case filed_eq => exact fun title htitle => h.numbering.title_inj title _ id htitle hfiled
    case own =>
      intro _ other hother
      exact Option.some.inj (hother.symm.trans hfiled)
    case free => exact fun _ hclaimed => nomatch hclaimed
    case gets => exact nofun
  · intro j n _ _ hjupdate hn hjid
    cases hn
    exact (h.fits j id hjupdate hjid).filed_eq _ hfiled
  · intro j _ _ hjrunning
    exact hcalm j hjrunning

/-- A monitor gets its new configuration. -/
theorem changes {id : Nat} {config : StreamConfig} (h : Consistent ops stage v)
    (hop : ops i = op) (hstage : stage i = before)
    (hupdate : op.isUpdate = true) (hid : before.id? = some id)
    (hclaimed : before.isClaimed = true) (htitle : config.title = op.newTitle)
    (hnext : next.id? = some id) (hchanged : next.isChanged = true)
    (hkept : next.config? = some config) :
    Consistent ops (Function.update stage i next) ⟨v.filed, v.titles.set id config.title⟩ := by
  subst hop hstage
  have hfits := h.fits i id hupdate hid
  obtain ⟨hlt, -⟩ := List.getElem?_eq_some_iff.1 hfits.title_eq
  have hrunning := RegistryStage.isRunning_of_id? hid
  have hnumbering : IsNumbering v.filed (v.titles.set id config.title).length := by
    rw [List.length_set]
    exact h.numbering
  refine h.advance hnumbering ?_ ?_ ?_ ?_ ?_
  · intro title n hfiled
    by_cases hn : id = n
    · subst hn
      exact .inr (.inr ⟨hupdate, hnext, hchanged, (hfits.filed_eq title hfiled).symm⟩)
    · rw [List.getElem?_set_ne hn]
      have hsettled := h.settled_beside (i := i) hfiled fun _ hother =>
        absurd (Option.some.inj (hid.symm.trans hother)) hn
      exact hsettled.imp_right .inl
  · intro j n hj hjupdate hjid
    refine (h.fits j n hjupdate hjid).of_eq ?_ (fun _ hfiled => hfiled) (fun _ _ hfiled => hfiled)
      (fun _ hmem => hmem)
    intro title hn
    by_cases hne : id = n
    · -- Neither update gives the monitor another title.
      subst hne
      have hsame : config.title = title := by
        have hjtitle := (h.fits j id hjupdate hjid).title_eq
        rw [h.newTitle_eq_title hj hupdate hid hjupdate hjid, ite_self, hn] at hjtitle
        rw [htitle, h.newTitle_eq_title hj.symm hjupdate hjid hupdate hid,
          Option.some.inj hjtitle]
        exact h.same_title i j id hupdate hjupdate hid hjid
      rw [List.getElem?_set_self hlt, hsame]
    · rw [List.getElem?_set_ne hne, hn]
  · intro n _ hn
    obtain rfl : id = n := Option.some.inj (hnext.symm.trans hn)
    constructor
    case title_eq =>
      rw [hchanged, if_pos rfl, List.getElem?_set_self hlt, htitle]
    case filed_eq => exact hfits.filed_eq
    case own => exact hfits.own
    case free => exact fun hrenames _ => hfits.free hrenames hclaimed
    case gets =>
      intro other hother
      obtain rfl : config = other := Option.some.inj (hkept.symm.trans hother)
      exact htitle
  · intro j n hj _ hjupdate hn hjid
    obtain rfl : id = n := Option.some.inj (hnext.symm.trans hn)
    exact h.same_title i j id hupdate hjupdate hid hjid
  · intro j hj _ hjrunning
    exact ⟨h.apart i j hj.symm hrunning hjrunning, h.apart j i hj hjrunning hrunning⟩

/-- A monitor is filed under its new title. -/
theorem refiles {id : Nat} (h : Consistent ops stage v)
    (hop : ops i = op) (hstage : stage i = before)
    (hupdate : op.isUpdate = true) (hid : before.id? = some id)
    (hchanged : before.isChanged = true) (hrenames : op.renames = true)
    (hfiled : v.filed[op.title]? = some id) (result : Except MonitorError Unit) :
    Consistent ops (Function.update stage i (.finished result))
      ⟨(v.filed.erase op.title).insert op.newTitle id, v.titles⟩ := by
  subst hop hstage
  have hfits := h.fits i id hupdate hid
  have hrunning := RegistryStage.isRunning_of_id? hid
  have hcases : ∀ (title : String) n,
      ((v.filed.erase (ops i).title).insert (ops i).newTitle id)[title]? = some n →
      (ops i).newTitle = title ∧ id = n ∨
        (ops i).newTitle ≠ title ∧ (ops i).title ≠ title ∧ v.filed[title]? = some n := by
    intro title n hn
    rcases getElem?_insert_eq_some_iff.1 hn with hnew | ⟨hne, hold⟩
    · exact .inl hnew
    · exact .inr ⟨hne, getElem?_erase_eq_some_iff.1 hold⟩
  refine h.advance (h.numbering.refile hfiled _) ?_ ?_ nofun nofun nofun
  · intro title n hn
    rcases hcases title n hn with ⟨rfl, rfl⟩ | ⟨-, hne, hold⟩
    · left
      have htitle := hfits.title_eq
      rw [hchanged, if_pos rfl] at htitle
      exact htitle
    · exact (h.settled_beside hold fun _ _ => hne).imp_right .inl
  · intro j n hj hjupdate hjid
    have hjrunning := RegistryStage.isRunning_of_id? hjid
    have hundisturbed := h.apart j i hj hjrunning hrunning
    have hfiles := RegistryOperation.filesAs?_of_renames hrenames
    refine (h.fits j n hjupdate hjid).of_eq (fun _ htitle => htitle) ?_ ?_ ?_
    · intro title hn
      rcases hcases title n hn with ⟨-, rfl⟩ | ⟨-, -, hold⟩
      · exact absurd (h.newTitle_eq_title hj.symm hjupdate hjid hupdate hid)
          (RegistryOperation.renames_iff.1 hrenames)
      · exact hold
    · intro hjrenames other hother
      rcases hcases _ other hother with ⟨htitle, -⟩ | ⟨-, -, hold⟩
      · exact absurd ⟨hjrenames, .inr (.inl (htitle ▸ hfiles))⟩ hundisturbed
      · exact hold
    · intro hjrenames hmem
      rcases Std.ExtTreeMap.mem_insert.1 hmem with htitle | hmem
      · refine absurd ⟨hjrenames, .inr (.inr ?_)⟩ hundisturbed
        rw [hfiles, Std.LawfulEqCmp.compare_eq_iff_eq.1 htitle]
      · exact (Std.ExtTreeMap.mem_erase.1 hmem).2

/-- An update comes closer to the change of the configuration, or to the filing after it. -/
theorem goes_on {id : Nat} (h : Consistent ops stage v)
    (hop : ops i = op) (hstage : stage i = before)
    (hupdate : op.isUpdate = true) (hid : before.id? = some id) (hnext : next.id? = some id)
    (hchanged : next.isChanged = before.isChanged)
    (hfree : op.renames = true → op.newTitle ∉ v.filed)
    (hgets : ∀ config, next.config? = some config → config.title = op.newTitle) :
    Consistent ops (Function.update stage i next) v := by
  subst hop hstage
  have hfits := h.fits i id hupdate hid
  apply h.advance_quietly
  · intro n hn
    rw [hid, ← hnext, hn]
  · exact fun _ => RegistryStage.isRunning_of_id? hid
  · intro n _ hn
    obtain rfl : id = n := Option.some.inj (hnext.symm.trans hn)
    constructor
    case title_eq =>
      rw [hchanged]
      exact hfits.title_eq
    case filed_eq => exact hfits.filed_eq
    case own => exact hfits.own
    case free => exact fun hrenames _ => hfree hrenames
    case gets => exact hgets
  · intro n _ hn hbefore _
    exact .inr ⟨hnext.trans (hid.symm.trans hn), hchanged.trans hbefore⟩

/-- Every move of an operation keeps the filing consistent, if the operation is not disturbed when
it begins, and does not end between the change of a title and the filing under it. -/
theorem move (h : Consistent ops stage v) (hop : ops i = op) (hstage : stage i = before)
    (hmove : FilingMove op before v next w)
    (hcalm : before = .start → ∀ j, (stage j).isRunning = true →
      ¬ op.IsDisturbedBy (ops j) ∧ ¬ (ops j).IsDisturbedBy op)
    (hlands : ∀ id config result, before = .updating id (.renewed config) →
      next = .finished result → op.renames = true → op.title ∉ v.filed) :
    Consistent ops (Function.update stage i next) w := by
  have hfits : ∀ id, op.isUpdate = true → before.id? = some id → op.Fits before id v := by
    rw [← hop, ← hstage]
    exact h.fits i
  cases hmove with
  | added config free =>
    exact h.adds hop (fun j hj => hop ▸ (hcalm rfl j hj).2) _
  | found _ id _ filed =>
    subst hop
    exact h.finds filed (hcalm rfl) hstage
  | removed title id filed => exact h.removes hop
  | claimed title changes id _ free =>
    have hfree : (RegistryOperation.update title changes).renames = true →
        (RegistryOperation.update title changes).newTitle ∉ v.filed := fun hrenames =>
      free _ (RegistryOperation.askedTitle?_of_renames hrenames)
        (RegistryOperation.renames_iff.1 hrenames)
    exact h.goes_on hop hstage rfl rfl rfl rfl hfree nofun
  | checked title changes id _ current config had gets =>
    have hfits := hfits id rfl rfl
    obtain rfl : title = current := Option.some.inj (hfits.title_eq.symm.trans had)
    refine h.goes_on hop hstage rfl rfl rfl rfl (fun hrenames => hfits.free hrenames rfl) ?_
    rintro _ ⟨⟩
    exact gets
  | halted title changes id _ config =>
    have hfits := hfits id rfl rfl
    exact h.goes_on hop hstage rfl rfl rfl rfl (fun hrenames => hfits.free hrenames rfl) hfits.gets
  | changed title changes id _ current config had gets =>
    have hfits := hfits id rfl rfl
    obtain rfl : title = current := Option.some.inj (hfits.title_eq.symm.trans had)
    exact h.changes hop hstage rfl rfl rfl gets rfl rfl rfl
  | renewed title changes id _ config =>
    have htitle := (hfits id rfl rfl).gets config rfl
    exact h.changes hop hstage rfl rfl rfl htitle rfl rfl rfl
  | restarted title changes id _ config =>
    have hfits := hfits id rfl rfl
    exact h.goes_on hop hstage rfl rfl rfl rfl (fun hrenames => hfits.free hrenames rfl) hfits.gets
  | refiled title changes id other _ config renames filed =>
    have hfits := hfits id rfl rfl
    have hnew := hfits.gets config rfl
    rw [hnew] at renames ⊢
    have hrenames := RegistryOperation.renames_iff.2 renames
    obtain rfl := hfits.own hrenames other filed
    exact h.refiles hop hstage rfl rfl rfl hrenames filed _
  | settled title changes id _ config settled =>
    have hfits := hfits id rfl rfl
    apply h.ends
    intro n _ hn _ hfiled
    rw [hstage] at hn
    cases hn
    rw [hop] at hfiled ⊢
    rcases settled with htitle | hnone
    · rw [hfits.title_eq, ← hfits.gets config rfl, ← htitle]
      rfl
    · cases hnone.symm.trans hfiled
  | ended _ _ _ result notUpdated =>
    apply h.ends
    intro n hupdate hn hchanged hfiled
    have htitle := (h.fits i n hupdate hn).title_eq
    rw [hchanged, if_pos rfl] at htitle
    rw [hstage] at hchanged
    obtain ⟨id, config, rfl⟩ := RegistryStage.eq_renewed hchanged notUpdated
    have hrenames : ¬ op.renames = true := fun hrenames =>
      hlands id config result rfl rfl hrenames (hop ▸ mem_of_getElem?_eq_some hfiled)
    rw [htitle, hop, RegistryOperation.newTitle_eq_of_not_renames hrenames]
  | waited =>
    rw [← hstage, Function.update_eq_self]
    exact h

end Consistent

end Filing

end StreamCatalog
