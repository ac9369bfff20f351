import StreamCatalog.Proofs.Monitor.Configuration

/-!
# What a step of an operation can do to the filing

Operations see of each other which monitor is filed under which title, and the
titles that the monitors have. `FilingMove` lists all that a step of an operation
can do to them, and `RegistryOperation.step_spec` says that it does nothing else,
whatever becomes of sockets, chunks and the catalog.
-/

namespace StreamCatalog

/-! ## Numbers by title -/

section Filed

variable {filed : Std.ExtTreeMap String Nat} {title other : String} {id n : Nat}

theorem getElem?_insert_eq_some_iff :
    (filed.insert title n)[other]? = some id ↔
      title = other ∧ n = id ∨ title ≠ other ∧ filed[other]? = some id := by
  rw [Std.ExtTreeMap.getElem?_insert]
  simp only [Std.LawfulEqCmp.compare_eq_iff_eq]
  by_cases h : title = other
  · simp [h]
  · simp [h]

theorem getElem?_erase_eq_some_iff :
    (filed.erase title)[other]? = some id ↔ title ≠ other ∧ filed[other]? = some id := by
  rw [Std.ExtTreeMap.getElem?_erase]
  simp only [Std.LawfulEqCmp.compare_eq_iff_eq]
  by_cases h : title = other
  · simp [h]
  · simp [h]

theorem exists_getElem?_of_mem (h : title ∈ filed) : ∃ id, filed[title]? = some id :=
  Option.isSome_iff_exists.1 (Std.ExtTreeMap.mem_iff_isSome_getElem?.1 h)

theorem mem_of_getElem?_eq_some (h : filed[title]? = some id) : title ∈ filed := by
  rw [Std.ExtTreeMap.mem_iff_isSome_getElem?, h]
  rfl

/-- Whether titles have numbers below a bound, and each its own. -/
structure IsNumbering (filed : Std.ExtTreeMap String Nat) (count : Nat) : Prop where
  /-- The numbers are below the bound. -/
  lt_count : ∀ (title : String) id, filed[title]? = some id → id < count
  /-- No number stands twice. -/
  title_inj : ∀ (title other : String) id, filed[title]? = some id → filed[other]? = some id →
    title = other

namespace IsNumbering

variable {count : Nat}

theorem empty : IsNumbering ∅ count where
  lt_count title id h := by cases Std.ExtTreeMap.getElem?_empty.symm.trans h
  title_inj title other id h := by cases Std.ExtTreeMap.getElem?_empty.symm.trans h

/-- The next number is given to a title. -/
theorem insert (h : IsNumbering filed count) (title : String) :
    IsNumbering (filed.insert title count) (count + 1) := by
  constructor
  case lt_count =>
    intro other id hid
    rcases getElem?_insert_eq_some_iff.1 hid with ⟨-, rfl⟩ | ⟨-, hid⟩
    · exact Nat.lt_succ_self _
    · exact Nat.lt_succ_of_lt (h.lt_count other id hid)
  case title_inj =>
    intro other another id hother hanother
    rcases getElem?_insert_eq_some_iff.1 hother with ⟨rfl, rfl⟩ | ⟨-, hother⟩ <;>
      rcases getElem?_insert_eq_some_iff.1 hanother with ⟨rfl, hn⟩ | ⟨-, hanother⟩
    · rfl
    · exact absurd (h.lt_count another _ hanother) (Nat.lt_irrefl _)
    · rw [← hn] at hother
      exact absurd (h.lt_count other _ hother) (Nat.lt_irrefl _)
    · exact h.title_inj other another id hother hanother

/-- A title is taken out. -/
theorem erase (h : IsNumbering filed count) (title : String) :
    IsNumbering (filed.erase title) count where
  lt_count other id hid := h.lt_count other id (getElem?_erase_eq_some_iff.1 hid).2
  title_inj other another id hother hanother := h.title_inj other another id
    (getElem?_erase_eq_some_iff.1 hother).2 (getElem?_erase_eq_some_iff.1 hanother).2

/-- The number of a title that is taken out is given to no other title. -/
theorem getElem?_erase_ne (h : IsNumbering filed count) (hid : filed[title]? = some id)
    (other : String) : (filed.erase title)[other]? ≠ some id := by
  intro hother
  obtain ⟨hne, hother⟩ := getElem?_erase_eq_some_iff.1 hother
  exact hne (h.title_inj title other id hid hother)

/-- The number of a title is given to another one. -/
theorem refile (h : IsNumbering filed count) (hid : filed[title]? = some id) (newTitle : String) :
    IsNumbering ((filed.erase title).insert newTitle id) count := by
  constructor
  case lt_count =>
    intro other n hn
    rcases getElem?_insert_eq_some_iff.1 hn with ⟨-, rfl⟩ | ⟨-, hn⟩
    · exact h.lt_count title id hid
    · exact (h.erase title).lt_count other n hn
  case title_inj =>
    intro other another n hother hanother
    rcases getElem?_insert_eq_some_iff.1 hother with ⟨rfl, rfl⟩ | ⟨-, hother⟩ <;>
      rcases getElem?_insert_eq_some_iff.1 hanother with ⟨rfl, hn⟩ | ⟨-, hanother⟩
    · rfl
    · exact absurd hanother (h.getElem?_erase_ne hid another)
    · rw [← hn] at hother
      exact absurd hother (h.getElem?_erase_ne hid other)
    · exact (h.erase title).title_inj other another n hother hanother

end IsNumbering

end Filed

/-! ## Moves -/

/-- What operations on a registry see of each other. -/
structure FilingView where
  /-- The number of the monitor that is filed under a title. -/
  filed : Std.ExtTreeMap String Nat
  /-- The titles of all monitors, in the order of their numbers. -/
  titles : List String

/-- The title that an operation is about. -/
def RegistryOperation.title : RegistryOperation → String
  | add config => config.title
  | start title | stop title | update title _ | remove title => title

/-- The title that a stream has after an operation that succeeds. -/
def RegistryOperation.newTitle : RegistryOperation → String
  | update title changes => (askedTitle? changes).getD title
  | op => op.title

/-- What a step of an operation can do. -/
inductive FilingMove :
    RegistryOperation → RegistryStage → FilingView → RegistryStage → FilingView → Prop where
  /-- A monitor is registered. -/
  | added (config : StreamConfig) (v : FilingView) (free : config.title ∉ v.filed) :
    FilingMove (.add config) .start v (.finished (.ok ()))
      ⟨v.filed.insert config.title v.titles.length, v.titles ++ [config.title]⟩
  /-- A monitor is found under its title. -/
  | found (op : RegistryOperation) (id : Nat) (v : FilingView)
      (filed : v.filed[op.title]? = some id) : FilingMove op .start v (.found id) v
  /-- A monitor is forgotten. -/
  | removed (title : String) (id : Nat) (v : FilingView) (filed : v.filed[title]? = some id) :
    FilingMove (.remove title) .start v (.removed id) ⟨v.filed.erase title, v.titles⟩
  /-- The title that is asked for is free. -/
  | claimed (title : String) (changes : Properties) (id : Nat) (v : FilingView)
      (free : ∀ asked, askedTitle? changes = some asked → asked ≠ title → asked ∉ v.filed) :
    FilingMove (.update title changes) (.found id) v (.updating id .unclaimed) v
  /-- The configuration is checked, and the monitor is to be stopped for it. -/
  | checked (title : String) (changes : Properties) (id : Nat) (v : FilingView)
      (current : String) (config : StreamConfig) (had : v.titles[id]? = some current)
      (gets : config.title = (askedTitle? changes).getD current) :
    FilingMove (.update title changes) (.updating id .unclaimed) v
      (.updating id (.moving config)) v
  /-- The reception has ended. -/
  | halted (title : String) (changes : Properties) (id : Nat) (v : FilingView)
      (config : StreamConfig) :
    FilingMove (.update title changes) (.updating id (.moving config)) v
      (.updating id (.halted config)) v
  /-- The configuration is checked, and the monitor goes on with it. -/
  | changed (title : String) (changes : Properties) (id : Nat) (v : FilingView)
      (current : String) (config : StreamConfig) (had : v.titles[id]? = some current)
      (gets : config.title = (askedTitle? changes).getD current) :
    FilingMove (.update title changes) (.updating id .unclaimed) v
      (.updating id (.updated config)) ⟨v.filed, v.titles.set id config.title⟩
  /-- A monitor that is stopped gets its configuration. -/
  | renewed (title : String) (changes : Properties) (id : Nat) (v : FilingView)
      (config : StreamConfig) :
    FilingMove (.update title changes) (.updating id (.halted config)) v
      (.updating id (.renewed config)) ⟨v.filed, v.titles.set id config.title⟩
  /-- A monitor is started again. -/
  | restarted (title : String) (changes : Properties) (id : Nat) (v : FilingView)
      (config : StreamConfig) :
    FilingMove (.update title changes) (.updating id (.renewed config)) v
      (.updating id (.updated config)) v
  /-- The monitor that is filed under the title is filed under the new one. -/
  | refiled (title : String) (changes : Properties) (id other : Nat) (v : FilingView)
      (config : StreamConfig) (renames : config.title ≠ title)
      (filed : v.filed[title]? = some other) :
    FilingMove (.update title changes) (.updating id (.updated config)) v (.finished (.ok ()))
      ⟨(v.filed.erase title).insert config.title other, v.titles⟩
  /-- Nothing is left to be filed. -/
  | settled (title : String) (changes : Properties) (id : Nat) (v : FilingView)
      (config : StreamConfig) (settled : config.title = title ∨ v.filed[title]? = none) :
    FilingMove (.update title changes) (.updating id (.updated config)) v (.finished (.ok ())) v
  /-- An operation that does not change the filing any more ends. -/
  | ended (op : RegistryOperation) (stage : RegistryStage) (v : FilingView)
      (result : Except MonitorError Unit)
      (before : ∀ id config, stage ≠ .updating id (.updated config)) :
    FilingMove op stage v (.finished result) v
  /-- Nothing is done. -/
  | waited (op : RegistryOperation) (stage : RegistryStage) (v : FilingView) :
    FilingMove op stage v stage v

/-- Every move leaves each title its own monitor. -/
theorem FilingMove.numbering {op : RegistryOperation} {stage next : RegistryStage}
    {v w : FilingView} (h : FilingMove op stage v next w)
    (hv : IsNumbering v.filed v.titles.length) : IsNumbering w.filed w.titles.length := by
  cases h with
  | added config =>
    rw [List.length_append]
    exact hv.insert config.title
  | removed title => exact hv.erase title
  | changed | renewed =>
    rw [List.length_set]
    exact hv
  | refiled _ _ _ _ _ config _ filed => exact hv.refile filed config.title
  | found | claimed | checked | halted | restarted | settled | ended | waited => exact hv

/-! ## Monitors that work and are put back -/

theorem set_eq_self_of_getElem? {α : Type} {l : List α} {i : Nat} {a : α} (h : l[i]? = some a) :
    l.set i a = l := by
  obtain ⟨hi, rfl⟩ := List.getElem?_eq_some_iff.1 h
  exact List.set_getElem_self hi

namespace SharedRegistry

variable {σ : Type} {s : SharedRegistry σ} {id : Nat} {title : String} {m : Monitor}

/-- The monitor that is filed under a title. -/
def get? (s : SharedRegistry σ) (title : String) : Option Monitor :=
  s.filed[title]?.bind (s.monitors[·]?)

/-- What the monitor of a number works on. -/
def site? (s : SharedRegistry σ) (id : Nat) : Option (MonitorSite σ) :=
  s.monitors[id]?.map fun m => ⟨m, s.directory, s.catalog⟩

/-- The registry after the monitor of a number has worked. -/
def put (s : SharedRegistry σ) (id : Nat) (w : MonitorSite σ) : SharedRegistry σ :=
  ⟨s.filed, s.monitors.set id w.monitor, w.directory, w.catalog⟩

variable {w v : MonitorSite σ}
  {act : MonitorSite σ → Except MonitorError Unit × MonitorSite σ}

theorem getElem?_monitors (h : s.site? id = some w) : s.monitors[id]? = some w.monitor := by
  obtain ⟨m, hm, rfl⟩ := Option.map_eq_some_iff.1 h
  exact hm

theorem visit_eq (h : s.site? id = some w) : s.visit id act = ((act w).1, s.put id (act w).2) := by
  obtain ⟨m, hm, rfl⟩ := Option.map_eq_some_iff.1 h
  unfold visit
  rw [hm]
  rfl

theorem put_eq_self (h : s.site? id = some w) : s.put id w = s := by
  obtain ⟨m, hm, rfl⟩ := Option.map_eq_some_iff.1 h
  unfold put
  rw [set_eq_self_of_getElem? hm]

theorem put_put : (s.put id v).put id w = s.put id w := by
  unfold put
  rw [List.set_set]

theorem site?_put (h : s.site? id = some v) : (s.put id w).site? id = some w := by
  obtain ⟨m, hm, -⟩ := Option.map_eq_some_iff.1 h
  obtain ⟨hid, -⟩ := List.getElem?_eq_some_iff.1 hm
  unfold site? put
  rw [List.getElem?_set_self hid]
  rfl

/-- What operations see of a registry. -/
def view (s : SharedRegistry σ) : FilingView := ⟨s.filed, s.monitors.map (·.config.title)⟩

theorem getElem?_titles (s : SharedRegistry σ) (id : Nat) :
    s.view.titles[id]? = s.monitors[id]?.map (·.config.title) :=
  List.getElem?_map

/-- Others see only the filing and the configurations. -/
theorem view_eq_of_configs {t : SharedRegistry σ} (hfiled : t.filed = s.filed)
    (hconfigs : t.monitors.map (·.config) = s.monitors.map (·.config)) : t.view = s.view := by
  have htitles := congrArg (List.map (·.title)) hconfigs
  rw [List.map_map, List.map_map] at htitles
  unfold view
  rw [hfiled]
  exact congrArg _ htitles

/-- A monitor that keeps its configuration does not change what others see. -/
theorem view_visit (s : SharedRegistry σ) (id : Nat)
    {act : MonitorSite σ → Except MonitorError Unit × MonitorSite σ}
    (hact : ∀ w, (act w).2.monitor.config = w.monitor.config) :
    (s.visit id act).2.view = s.view := by
  cases h : s.site? id with
  | none =>
    have hm : s.monitors[id]? = none := Option.map_eq_none_iff.1 h
    rw [visit, hm]
  | some w =>
    have htitle : (s.monitors.map (·.config.title))[id]? =
        some (act w).2.monitor.config.title := by
      rw [List.getElem?_map, getElem?_monitors h, hact]
      rfl
    rw [visit_eq h]
    unfold view put
    rw [List.map_set, set_eq_self_of_getElem? htitle]

/-- A monitor that gets a configuration gets its title. -/
theorem view_visit_configure (s : SharedRegistry σ) (id : Nat) (config : StreamConfig)
    (act : MonitorSite σ → Except MonitorError Unit × MonitorSite σ)
    (hact : ∀ w, (act w).2.monitor.config = config) :
    (s.visit id act).2.view = ⟨s.view.filed, s.view.titles.set id config.title⟩ := by
  cases h : s.site? id with
  | none =>
    have hm : s.monitors[id]? = none := Option.map_eq_none_iff.1 h
    have hlength : s.view.titles.length ≤ id := by
      unfold view
      rw [List.length_map]
      exact List.getElem?_eq_none_iff.1 hm
    rw [visit, hm, List.set_eq_of_length_le hlength]
  | some w =>
    rw [visit_eq h]
    unfold view put
    rw [List.map_set, hact]

end SharedRegistry

namespace UpdatePhase

variable {σ : Type} {E : Environment σ} {bound : List SocketAddress} {s : SharedRegistry σ}

/-- A step of a change of properties is one of the moves. -/
theorem step_spec (title : String) (changes : Properties) (id : Nat) (phase : UpdatePhase) :
    FilingMove (.update title changes) (.updating id phase) s.view
      (phase.step E bound title changes id s).1 (phase.step E bound title changes id s).2.view := by
  cases phase with
  | unclaimed =>
    simp only [step]
    cases hm : s.monitors[id]? with
    | none => exact .ended _ _ _ _ nofun
    | some m =>
      have had : s.view.titles[id]? = some m.config.title := by
        rw [SharedRegistry.getElem?_titles, hm]
        rfl
      cases hmerged : m.config.merged changes with
      | error e =>
        simp only [hmerged]
        exact .ended _ _ _ _ nofun
      | ok config =>
        have hgets := StreamConfig.title_merged hmerged
        simp only [hmerged]
        split
        · exact .checked _ _ _ _ _ config had hgets
        · rw [s.view_visit_configure id config _ fun w => MonitorSite.config_happen ..]
          exact .changed _ _ _ _ _ config had hgets
  | moving config =>
    have hview := s.view_visit id (MonitorSite.config_stop E)
    simp only [step]
    rcases hstop : s.visit id (MonitorSite.stop E) with ⟨e | _, t⟩
    · rw [hstop] at hview
      rw [← hview]
      exact .ended _ _ _ _ nofun
    · rw [hstop] at hview
      rw [← hview]
      exact .halted ..
  | halted config =>
    have hview := s.view_visit_configure id config (fun w => (.ok (), w.withConfig config))
      fun _ => rfl
    simp only [step]
    rw [hview]
    exact .renewed ..
  | renewed config =>
    have hview := s.view_visit id (MonitorSite.config_start E bound)
    simp only [step]
    rcases hstart : s.visit id (MonitorSite.start E bound) with ⟨e | _, t⟩
    · rw [hstart] at hview
      rw [← hview]
      exact .ended _ _ _ _ nofun
    · rw [hstart] at hview
      rw [← hview]
      exact .restarted ..
  | updated config =>
    simp only [step]
    split
    · next htitle => exact .settled _ _ _ _ _ (.inl htitle)
    · next htitle =>
      unfold SharedRegistry.refile
      cases hfiled : s.filed[title]? with
      | none => exact .settled _ _ _ _ _ (.inr hfiled)
      | some other => exact .refiled _ _ _ _ _ _ htitle hfiled

end UpdatePhase

namespace RegistryOperation

variable {σ : Type} {E : Environment σ} {bound : List SocketAddress} {s : SharedRegistry σ}

/-- The step that finds a monitor. -/
private theorem find_spec (op : RegistryOperation) :
    FilingMove op .start s.view (s.find op.title).1 (s.find op.title).2.view := by
  unfold SharedRegistry.find
  cases h : s.filed[op.title]? with
  | none => exact .ended _ _ _ _ nofun
  | some id => exact .found _ _ _ h

/-- The first step of an operation is one of the moves. -/
private theorem first_spec (op : RegistryOperation) :
    FilingMove op .start s.view (op.first s).1 (op.first s).2.view := by
  cases op with
  | add config =>
    simp only [first, SharedRegistry.add]
    split
    · exact .ended _ _ _ _ nofun
    · next hfree =>
      have hadded := FilingMove.added config s.view hfree
      unfold SharedRegistry.view at hadded ⊢
      rw [List.length_map] at hadded
      rw [List.map_append]
      exact hadded
  | start title => exact find_spec (.start title)
  | stop title => exact find_spec (.stop title)
  | update title changes => exact find_spec (.update title changes)
  | remove title =>
    simp only [first]
    cases h : s.filed[title]? with
    | none => exact .ended _ _ _ _ nofun
    | some id => exact .removed _ _ _ h

/-- The step after the monitor is found is one of the moves. -/
private theorem serve_spec (op : RegistryOperation) (id : Nat) :
    FilingMove op (.found id) s.view (op.serve E bound id s).1 (op.serve E bound id s).2.view := by
  cases op with
  | add config => exact .waited ..
  | start title =>
    simp only [serve]
    rw [s.view_visit id (MonitorSite.config_start E bound)]
    exact .ended _ _ _ _ nofun
  | stop title =>
    simp only [serve]
    rw [s.view_visit id (MonitorSite.config_stop E)]
    exact .ended _ _ _ _ nofun
  | update title changes =>
    simp only [serve]
    cases h : s.takenTitle? title changes with
    | some asked => exact .ended _ _ _ _ nofun
    | none =>
      refine .claimed _ _ _ _ fun asked hasked hne hmem => ?_
      rw [SharedRegistry.takenTitle?, hasked, Option.filter_eq_none_iff] at h
      exact h asked rfl (decide_eq_true ⟨hne, hmem⟩)
  | remove title => exact .waited ..

/-- A step of an operation is one of the moves. -/
theorem step_spec (E : Environment σ) (bound : List SocketAddress) (op : RegistryOperation)
    (stage : RegistryStage) (s : SharedRegistry σ) :
    FilingMove op stage s.view (op.step E bound stage s).1 (op.step E bound stage s).2.view := by
  cases stage with
  | start => exact first_spec op
  | found id => exact serve_spec op id
  | updating id phase =>
    cases op with
    | update title changes => exact phase.step_spec title changes id
    | add | start | stop | remove => exact .waited ..
  | removed id =>
    simp only [step]
    split
    · rw [s.view_visit id (MonitorSite.config_stop E)]
      exact .ended _ _ _ _ nofun
    · exact .ended _ _ _ _ nofun
  | finished result => exact .waited ..

end RegistryOperation

end StreamCatalog
