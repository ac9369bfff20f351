import StreamCatalog.Proofs.Monitor.Moves

/-!
# Operations that run alone

An operation whose steps follow one another, with no step of another one between
them, is the operation of `Registry` (`RegistryOperation.stepsAlone_eq_run`): it has
the same result, and leaves the same monitors under the same titles.
-/

namespace StreamCatalog

/-! ## What an operation does on its own -/

/-- An operation of which no step is seen. -/
def RegistryOperation.run {σ : Type} (E : Environment σ) (op : RegistryOperation)
    (r : Registry σ) : Except MonitorError Unit × Registry σ :=
  match op with
  | add config =>
    match r.add config with
    | .error e => (.error e, r)
    | .ok r => (.ok (), r)
  | start title =>
    let (result, r) := r.start E title
    (result.map fun _ => (), r)
  | stop title =>
    let (result, r) := r.stop E title
    (result.map fun _ => (), r)
  | update title changes =>
    let (result, r) := r.update E title changes
    (result.map fun _ => (), r)
  | remove title => r.remove E title

namespace SharedRegistry

variable {σ : Type} {s : SharedRegistry σ} {title : String} {id : Nat} {m : Monitor}
  {w : MonitorSite σ} {act : MonitorSite σ → Except MonitorError Unit × MonitorSite σ}

/-- The registry without the numbers. -/
def toRegistry (s : SharedRegistry σ) : Registry σ :=
  ⟨s.filed.filterMap fun _ id => s.monitors[id]?, s.directory, s.catalog⟩

/-- Whether each title has its own monitor. -/
def IsSound (s : SharedRegistry σ) : Prop := IsNumbering s.filed s.monitors.length

theorem get?_toRegistry (s : SharedRegistry σ) (title : String) :
    s.toRegistry.get? title = s.get? title := by
  unfold Registry.get? toRegistry get?
  rw [Std.ExtTreeMap.getElem?_filterMap']

/-- A registry is what it shows of its monitors, directory and catalog. -/
theorem toRegistry_eq {r : Registry σ} (hget : ∀ title, s.get? title = r.get? title)
    (hdirectory : s.directory = r.directory) (hcatalog : s.catalog = r.catalog) :
    s.toRegistry = r := by
  obtain ⟨monitors, directory, catalog⟩ := r
  subst hdirectory hcatalog
  have hmonitors : s.toRegistry.monitors = monitors := by
    apply Std.ExtTreeMap.ext_getElem?
    intro title
    exact (s.get?_toRegistry title).trans (hget title)
  rw [← hmonitors]
  rfl

theorem get?_toRegistry_eq_none (h : s.filed[title]? = none) :
    s.toRegistry.get? title = none := by
  rw [get?_toRegistry, get?, h]
  rfl

theorem IsSound.exists_monitor (hs : s.IsSound) (h : s.filed[title]? = some id) :
    ∃ m, s.monitors[id]? = some m :=
  ⟨_, List.getElem?_eq_getElem (hs.lt_count title id h)⟩

theorem IsSound.mem_toRegistry (hs : s.IsSound) :
    title ∈ s.toRegistry.monitors ↔ title ∈ s.filed := by
  rw [Std.ExtTreeMap.mem_iff_isSome_getElem?, Std.ExtTreeMap.mem_iff_isSome_getElem?]
  have hget := s.get?_toRegistry title
  unfold Registry.get? get? at hget
  rw [hget]
  cases h : s.filed[title]? with
  | none => rfl
  | some id =>
    obtain ⟨m, hm⟩ := hs.exists_monitor h
    simp [hm]

theorem IsSound.takenTitle?_toRegistry (hs : s.IsSound) (title : String) (changes : Properties) :
    s.toRegistry.takenTitle? title changes = s.takenTitle? title changes := by
  unfold Registry.takenTitle? takenTitle? askedTitle?
  rcases changes[PropertyName.title]? with _ | asked | asked | asked | asked
  case some.text => simp only [hs.mem_toRegistry, Option.filter_some, decide_eq_true_eq]
  all_goals rfl

/-- A monitor that is put back does not show under titles of others. -/
theorem get?_put_of_ne (h : s.filed[title]? ≠ some id) :
    (s.put id w).get? title = s.get? title := by
  unfold get? put
  cases hfiled : s.filed[title]? with
  | none => rfl
  | some n =>
    have hne : id ≠ n := by
      rintro rfl
      exact h hfiled
    rw [Option.bind_some, Option.bind_some, List.getElem?_set_ne hne]

/-- A monitor that is put back is put under its title. -/
theorem IsSound.toRegistry_put (hs : s.IsSound) (h : s.filed[title]? = some id) :
    (s.put id w).toRegistry =
      ⟨s.toRegistry.monitors.insert title w.monitor, w.directory, w.catalog⟩ := by
  refine toRegistry_eq (fun other => ?_) rfl rfl
  rw [Registry.get?, Std.ExtTreeMap.getElem?_insert]
  simp only [Std.LawfulEqCmp.compare_eq_iff_eq]
  split
  case isTrue htitle =>
    subst htitle
    rw [get?, put, h, Option.bind_some, List.getElem?_set_self (hs.lt_count title id h)]
  case isFalse htitle =>
    rw [get?_put_of_ne fun hother => htitle (hs.title_inj title other id h hother)]
    exact (s.get?_toRegistry other).symm

/-- A monitor that is not filed does not show. -/
theorem toRegistry_put_of_not_filed (h : ∀ title : String, s.filed[title]? ≠ some id) :
    (s.put id w).toRegistry = ⟨s.toRegistry.monitors, w.directory, w.catalog⟩ := by
  refine toRegistry_eq (fun title => ?_) rfl rfl
  rw [get?_put_of_ne (h title)]
  exact (s.get?_toRegistry title).symm

theorem IsSound.exists_site (hs : s.IsSound) (h : s.filed[title]? = some id) :
    ∃ w, s.site? id = some w ∧ s.toRegistry.get? title = some w.monitor ∧
      w = ⟨w.monitor, s.toRegistry.directory, s.toRegistry.catalog⟩ := by
  obtain ⟨m, hm⟩ := hs.exists_monitor h
  refine ⟨⟨m, s.directory, s.catalog⟩, ?_, ?_, rfl⟩
  · rw [site?, hm]
    rfl
  · rw [get?_toRegistry, get?, h]
    exact hm

theorem IsSound.toRegistry_visit (hs : s.IsSound) (h : s.filed[title]? = some id)
    (act : MonitorSite σ → Except MonitorError Unit × MonitorSite σ) :
    (s.visit id act).1 = (s.toRegistry.visit title act).1.map (fun _ => ()) ∧
      (s.visit id act).2.toRegistry = (s.toRegistry.visit title act).2 := by
  obtain ⟨w, hw, hget, hsite⟩ := hs.exists_site h
  rw [visit_eq hw, Registry.visit, hget]
  simp only [← hsite]
  constructor
  · cases (act w).1 <;> rfl
  · exact hs.toRegistry_put h

/-- A monitor that is filed under another title. -/
theorem toRegistry_refile {newTitle : String} (h : s.filed[title]? = some id)
    (hm : s.monitors[id]? = some m) (htitle : m.config.title = newTitle) :
    (s.refile title newTitle).toRegistry = s.toRegistry.refile title m := by
  subst htitle
  unfold refile
  rw [h]
  refine toRegistry_eq (fun other => ?_) rfl rfl
  simp only [Registry.get?, Registry.refile, get?, Std.ExtTreeMap.getElem?_insert,
    Std.ExtTreeMap.getElem?_erase, Std.LawfulEqCmp.compare_eq_iff_eq]
  split
  · exact hm
  · split
    · rfl
    · exact (s.get?_toRegistry other).symm

/-- A stream that is registered. -/
theorem IsSound.toRegistry_register (hs : s.IsSound) (config : StreamConfig) :
    (SharedRegistry.mk (s.filed.insert config.title s.monitors.length)
      (s.monitors ++ [.new config]) s.directory s.catalog).toRegistry =
      { s.toRegistry with
        monitors := s.toRegistry.monitors.insert config.title (.new config) } := by
  refine toRegistry_eq (fun other => ?_) rfl rfl
  simp only [Registry.get?, get?, Std.ExtTreeMap.getElem?_insert, Std.LawfulEqCmp.compare_eq_iff_eq]
  split
  · rw [Option.bind_some, List.getElem?_concat_length]
  · refine Eq.trans ?_ (s.get?_toRegistry other).symm
    rw [get?]
    cases hother : s.filed[other]? with
    | none => rfl
    | some n =>
      rw [Option.bind_some, Option.bind_some,
        List.getElem?_append_left (hs.lt_count other n hother)]

/-- A stream that is forgotten. -/
theorem toRegistry_forget (title : String) :
    { s with filed := s.filed.erase title : SharedRegistry σ }.toRegistry =
      { s.toRegistry with monitors := s.toRegistry.monitors.erase title } := by
  refine toRegistry_eq (fun other => ?_) rfl rfl
  simp only [Registry.get?, get?, Std.ExtTreeMap.getElem?_erase, Std.LawfulEqCmp.compare_eq_iff_eq]
  split
  · rfl
  · exact (s.get?_toRegistry other).symm

end SharedRegistry

/-! ## All steps of an operation -/

namespace RegistryOperation

variable {σ : Type} {E : Environment σ} {bound : List SocketAddress} {s t : SharedRegistry σ}
  {title : String} {changes : Properties} {id : Nat} {w : MonitorSite σ} {config : StreamConfig}
  {op : RegistryOperation} {stage next : RegistryStage}

theorem steps_of_step (h : op.step E bound stage s = (next, t)) (n : Nat) :
    op.steps E bound (n + 1) stage s = op.steps E bound n next t := by
  rw [steps, h]

theorem steps_finished (op : RegistryOperation) (result : Except MonitorError Unit) (n : Nat) :
    op.steps E bound n (.finished result) s = (.finished result, s) := by
  induction n with
  | zero => rfl
  | succ n ih => exact ih

/-- The steps that stop a monitor and start it under another configuration. -/
theorem steps_moving (h : s.site? id = some w) :
    (update title changes).steps E bound 4 (.updating id (.moving config)) s =
      match w.stop E with
      | (.error e, w) => (.finished (.error e), s.put id w)
      | (.ok _, w) =>
        match (w.withConfig config).start E bound with
        | (.error e, w) => (.finished (.error e), s.put id w)
        | (.ok _, w) => (.finished (.ok ()),
          if config.title = title then s.put id w else (s.put id w).refile title config.title) := by
  rcases hstop : w.stop E with ⟨e | _, v⟩
  · have hfirst : (update title changes).step E bound (.updating id (.moving config)) s =
        (.finished (.error e), s.put id v) := by
      simp only [step, UpdatePhase.step, SharedRegistry.visit_eq h, hstop]
    rw [steps_of_step hfirst, steps_finished]
  · have hfirst : (update title changes).step E bound (.updating id (.moving config)) s =
        (.updating id (.halted config), s.put id v) := by
      simp only [step, UpdatePhase.step, SharedRegistry.visit_eq h, hstop]
    have hsecond : (update title changes).step E bound (.updating id (.halted config))
        (s.put id v) = (.updating id (.renewed config), s.put id (v.withConfig config)) := by
      simp only [step, UpdatePhase.step, SharedRegistry.visit_eq (SharedRegistry.site?_put h),
        SharedRegistry.put_put]
    rw [steps_of_step hfirst, steps_of_step hsecond]
    rcases hstart : (v.withConfig config).start E bound with ⟨e | _, u⟩
    · have hthird : (update title changes).step E bound (.updating id (.renewed config))
          (s.put id (v.withConfig config)) = (.finished (.error e), s.put id u) := by
        simp only [step, UpdatePhase.step, SharedRegistry.visit_eq (SharedRegistry.site?_put h),
          SharedRegistry.put_put, hstart]
      rw [steps_of_step hthird, steps_finished]
      simp only [hstart]
    · have hthird : (update title changes).step E bound (.updating id (.renewed config))
          (s.put id (v.withConfig config)) = (.updating id (.updated config), s.put id u) := by
        simp only [step, UpdatePhase.step, SharedRegistry.visit_eq (SharedRegistry.site?_put h),
          SharedRegistry.put_put, hstart]
      rw [steps_of_step hthird]
      simp only [hstart]
      rfl

/-- The steps of a change of properties, once the title that is asked for is free. -/
theorem steps_unclaimed (h : s.site? id = some w) :
    (update title changes).steps E bound 5 (.updating id .unclaimed) s =
      match w.update E bound changes with
      | (.error e, w) => (.finished (.error e), s.put id w)
      | (.ok _, w) => (.finished (.ok ()),
          if w.monitor.config.title = title then s.put id w
          else (s.put id w).refile title w.monitor.config.title) := by
  have hm := SharedRegistry.getElem?_monitors h
  cases hmerged : w.monitor.config.merged changes with
  | error e =>
    have hfirst : (update title changes).step E bound (.updating id .unclaimed) s =
        (.finished (.error (.config e)), s) := by
      simp only [step, UpdatePhase.step, hm, hmerged]
    rw [steps_of_step hfirst, steps_finished]
    simp only [MonitorSite.update, hmerged]
    rw [s.put_eq_self h]
  | ok config =>
    rw [MonitorSite.update_eq hmerged]
    by_cases hmoves : (w.monitor.receiving && w.monitor.config.addressChanged config) = true
    · have hfirst : (update title changes).step E bound (.updating id .unclaimed) s =
          (.updating id (.moving config), s) := by
        simp only [step, UpdatePhase.step, hm, hmerged, if_pos hmoves]
      rw [steps_of_step hfirst, steps_moving h, if_pos hmoves]
      rcases w.stop E with ⟨e | _, v⟩
      · rfl
      · have hconfig := v.withConfig config |>.config_start E bound
        rcases hstart : (v.withConfig config).start E bound with ⟨e | _, u⟩
        · simp only [hstart]
        · rw [hstart] at hconfig
          have hsame : u.monitor.config = config := hconfig
          simp only [hstart, hsame]
    · have hfirst : (update title changes).step E bound (.updating id .unclaimed) s =
          (.updating id (.updated config),
            s.put id ((w.withConfig config).happen (.configure config) E.now)) := by
        simp only [step, UpdatePhase.step, hm, hmerged, if_neg hmoves, SharedRegistry.visit_eq h]
      rw [steps_of_step hfirst, if_neg hmoves]
      simp only [MonitorSite.config_happen, MonitorSite.config_withConfig]
      rfl

/-- The steps of an operation that finds a monitor and lets it do something. -/
theorem steps_visit (hs : s.IsSound) (op : RegistryOperation)
    (act : MonitorSite σ → Except MonitorError Unit × MonitorSite σ)
    (hfirst : op.step E bound .start s = s.find title)
    (hserve : ∀ id, op.step E bound (.found id) s =
      (.finished (s.visit id act).1, (s.visit id act).2)) (n : Nat) :
    let (stage, after) := op.steps E bound (n + 2) .start s
    stage = .finished ((s.toRegistry.visit title act).1.map fun _ => ()) ∧
      after.toRegistry = (s.toRegistry.visit title act).2 := by
  cases h : s.filed[title]? with
  | none =>
    have hfind : s.find title = (.finished (.error (.notFound title)), s) := by
      rw [SharedRegistry.find, h]
    rw [steps_of_step (hfirst.trans hfind), steps_finished, Registry.visit,
      SharedRegistry.get?_toRegistry_eq_none h]
    exact ⟨rfl, rfl⟩
  | some id =>
    have hfind : s.find title = (.found id, s) := by
      rw [SharedRegistry.find, h]
    rw [steps_of_step (hfirst.trans hfind), steps_of_step (hserve id), steps_finished]
    obtain ⟨hresult, hregistry⟩ := hs.toRegistry_visit h act
    exact ⟨congrArg RegistryStage.finished hresult, hregistry⟩

/-- The steps of a change of properties. -/
theorem steps_update (hs : s.IsSound) (title : String) (changes : Properties) :
    let (stage, after) :=
      (update title changes).steps E (s.toRegistry.boundBeside title) 7 .start s
    stage = .finished ((s.toRegistry.update E title changes).1.map fun _ => ()) ∧
      after.toRegistry = (s.toRegistry.update E title changes).2 := by
  unfold Registry.update
  cases h : s.filed[title]? with
  | none =>
    have hmem : title ∉ s.toRegistry.monitors := by
      intro hmem
      obtain ⟨id, hid⟩ := exists_getElem?_of_mem (hs.mem_toRegistry.1 hmem)
      cases h.symm.trans hid
    have hfirst : (update title changes).step E (s.toRegistry.boundBeside title) .start s =
        (.finished (.error (.notFound title)), s) := by
      simp only [step, first, SharedRegistry.find, h]
    rw [steps_of_step hfirst, steps_finished, if_neg hmem]
    exact ⟨rfl, rfl⟩
  | some id =>
    have hmem : title ∈ s.toRegistry.monitors :=
      hs.mem_toRegistry.2 (mem_of_getElem?_eq_some h)
    have hfirst : (update title changes).step E (s.toRegistry.boundBeside title) .start s =
        (.found id, s) := by
      simp only [step, first, SharedRegistry.find, h]
    rw [steps_of_step hfirst, if_pos hmem, hs.takenTitle?_toRegistry]
    cases htaken : s.takenTitle? title changes with
    | some asked =>
      have hsecond : (update title changes).step E (s.toRegistry.boundBeside title) (.found id) s =
          (.finished (.error (.alreadyExists asked)), s) := by
        simp only [step, serve, htaken]
      rw [steps_of_step hsecond, steps_finished]
      exact ⟨rfl, rfl⟩
    | none =>
      have hsecond : (update title changes).step E (s.toRegistry.boundBeside title) (.found id) s =
          (.updating id .unclaimed, s) := by
        simp only [step, serve, htaken]
      obtain ⟨w, hw, hget, hsite⟩ := hs.exists_site h
      rw [steps_of_step hsecond, steps_unclaimed hw]
      simp only [Registry.visit, hget, ← hsite]
      rcases hupdate : w.update E (s.toRegistry.boundBeside title) changes with ⟨e | _, v⟩
      · exact ⟨rfl, hs.toRegistry_put h⟩
      · simp only [Except.map, true_and]
        have hput := hs.toRegistry_put (w := v) h
        split
        · exact hput
        · rw [← hput]
          have hv : (s.put id v).monitors[id]? = some v.monitor :=
            SharedRegistry.getElem?_monitors (SharedRegistry.site?_put hw)
          exact SharedRegistry.toRegistry_refile h hv rfl

/-- The steps that stop and forget a stream. -/
theorem steps_remove (hs : s.IsSound) (title : String) :
    let (stage, after) := (remove title).steps E bound 7 .start s
    stage = .finished (s.toRegistry.remove E title).1 ∧
      after.toRegistry = (s.toRegistry.remove E title).2 := by
  unfold Registry.remove
  cases h : s.filed[title]? with
  | none =>
    have hfirst : (remove title).step E bound .start s =
        (.finished (.error (.notFound title)), s) := by
      simp only [step, first, h]
    rw [steps_of_step hfirst, steps_finished, SharedRegistry.get?_toRegistry_eq_none h]
    exact ⟨rfl, rfl⟩
  | some id =>
    obtain ⟨w, hw, hget, hsite⟩ := hs.exists_site h
    have hm := SharedRegistry.getElem?_monitors hw
    let forgotten : SharedRegistry σ := { s with filed := s.filed.erase title }
    have hfirst : (remove title).step E bound .start s = (.removed id, forgotten) := by
      simp only [step, first, h, forgotten]
    rw [steps_of_step hfirst, hget]
    by_cases hbound : w.monitor.localAddress.isSome = true
    · have hsecond : (remove title).step E bound (.removed id) forgotten =
          (.finished (w.stop E).1, forgotten.put id (w.stop E).2) := by
        have hw' : forgotten.site? id = some w := hw
        simp only [step, SharedRegistry.getElem?_monitors hw', Option.any_some, hbound, if_true,
          SharedRegistry.visit_eq hw']
      have hput : (forgotten.put id (w.stop E).2).toRegistry =
          ⟨forgotten.toRegistry.monitors, (w.stop E).2.directory, (w.stop E).2.catalog⟩ :=
        SharedRegistry.toRegistry_put_of_not_filed (hs.getElem?_erase_ne h)
      rw [steps_of_step hsecond, steps_finished]
      simp only [if_pos hbound, ← hsite, hput, true_and, forgotten]
      rw [SharedRegistry.toRegistry_forget]
    · have hsecond : (remove title).step E bound (.removed id) forgotten =
          (.finished (.ok ()), forgotten) := by
        have hm' : forgotten.monitors[id]? = some w.monitor := hm
        simp only [step, hm', Option.any_some, if_neg hbound]
      rw [steps_of_step hsecond, steps_finished]
      simp only [if_neg hbound, true_and]
      exact SharedRegistry.toRegistry_forget title

/-- All steps of an operation, with no step of another one between them. -/
def stepsAlone (E : Environment σ) (op : RegistryOperation) (s : SharedRegistry σ) :
    RegistryStage × SharedRegistry σ :=
  op.steps E (s.toRegistry.boundBeside op.title) 7 .start s

/-- The steps of an operation that runs alone give the result of the operation, and its registry. -/
theorem stepsAlone_eq_run (op : RegistryOperation) (E : Environment σ) (hs : s.IsSound) :
    (op.stepsAlone E s).1 = .finished (op.run E s.toRegistry).1 ∧
      (op.stepsAlone E s).2.toRegistry = (op.run E s.toRegistry).2 := by
  unfold stepsAlone
  cases op with
  | add config =>
    simp only [steps, step, first, SharedRegistry.add, run, Registry.add, hs.mem_toRegistry]
    split
    · exact ⟨rfl, rfl⟩
    · exact ⟨rfl, hs.toRegistry_register config⟩
  | start title =>
    exact steps_visit hs (.start title) (MonitorSite.start E (s.toRegistry.boundBeside title)) rfl
      (fun _ => rfl) 5
  | stop title => exact steps_visit hs (.stop title) (MonitorSite.stop E) rfl (fun _ => rfl) 5
  | update title changes => exact steps_update hs title changes
  | remove title => exact steps_remove hs title

/-- Operations of which none begins before the one before it has ended. -/
def runAll (calls : List (Environment σ × RegistryOperation)) (r : Registry σ) : Registry σ :=
  calls.foldl (fun r (E, op) => (op.run E r).2) r

end RegistryOperation

namespace SharedRegistry

variable {σ : Type} {E : Environment σ} {bound : List SocketAddress} {s : SharedRegistry σ}

theorem isSound_iff : s.IsSound ↔ IsNumbering s.view.filed s.view.titles.length := by
  unfold view
  rw [List.length_map]
  exact Iff.rfl

theorem isSound_empty (catalog : σ) : (empty catalog).IsSound :=
  IsNumbering.empty

/-- A step of an operation leaves each title its own monitor. -/
theorem IsSound.step (hs : s.IsSound) (op : RegistryOperation) (stage : RegistryStage) :
    (op.step E bound stage s).2.IsSound :=
  isSound_iff.2 ((op.step_spec E bound stage s).numbering (isSound_iff.1 hs))

theorem IsSound.steps (hs : s.IsSound) (op : RegistryOperation) (n : Nat) (stage : RegistryStage) :
    (op.steps E bound n stage s).2.IsSound := by
  induction n generalizing stage s with
  | zero => exact hs
  | succ n ih => exact ih (hs.step op stage) _

theorem IsSound.stepsAlone (hs : s.IsSound) (E : Environment σ) (op : RegistryOperation) :
    (op.stepsAlone E s).2.IsSound :=
  hs.steps op 7 .start

/-- All steps of operations, one operation after the other. -/
def runAll (calls : List (Environment σ × RegistryOperation)) (s : SharedRegistry σ) :
    SharedRegistry σ :=
  calls.foldl (fun s (E, op) => (op.stepsAlone E s).2) s

/-- Operations one after the other are those of `Registry`. -/
theorem IsSound.toRegistry_runAll (hs : s.IsSound)
    (calls : List (Environment σ × RegistryOperation)) :
    (s.runAll calls).toRegistry = RegistryOperation.runAll calls s.toRegistry := by
  induction calls generalizing s with
  | nil => rfl
  | cons call calls ih =>
    obtain ⟨E, op⟩ := call
    have hrest := ih (hs.stepsAlone E op)
    rw [(op.stepsAlone_eq_run E hs).2] at hrest
    exact hrest

end SharedRegistry

end StreamCatalog
