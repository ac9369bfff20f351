import StreamCatalog.Proofs.Monitor.Lifecycle
import StreamCatalog.Proofs.Monitor.Sharing

/-!
# Operations on a registry that fail

What is registered under a title is a configuration, and a stream that is received
or not (`Registry.standing?`). Most operations that fail leave that as it is for all
titles. A change of properties does not when it moves a stream that is received
to an address on which the system refuses to receive it: the stream is stopped by
then, and has its new configuration (`Registry.update_error`).
-/

namespace StreamCatalog

namespace Registry

variable {σ : Type}

/-! ## Coherent registries -/

/-- Whether all registered monitors are coherent. -/
def IsCoherent (r : Registry σ) : Prop :=
  ∀ title m, r.get? title = some m → m.IsCoherent

section coherent

variable {r : Registry σ} {title : String} {m : Monitor}

theorem isCoherent_empty (catalog : σ) : (empty catalog).IsCoherent := by
  intro title m h
  cases Std.ExtTreeMap.getElem?_empty.symm.trans h

theorem IsCoherent.insert (h : r.IsCoherent) (hm : m.IsCoherent) (directory : ChunkDirectory)
    (catalog : σ) : IsCoherent ⟨r.monitors.insert title m, directory, catalog⟩ := by
  intro other n hn
  rw [get?, Std.ExtTreeMap.getElem?_insert] at hn
  split at hn
  · cases hn
    exact hm
  · exact h other n hn

theorem IsCoherent.erase (h : r.IsCoherent) (title : String) (directory : ChunkDirectory)
    (catalog : σ) : IsCoherent ⟨r.monitors.erase title, directory, catalog⟩ := by
  intro other n hn
  rw [get?, Std.ExtTreeMap.getElem?_erase] at hn
  split at hn
  · cases hn
  · exact h other n hn

end coherent

/-! ## Operations keep monitors coherent -/

section operations

variable {r : Registry σ} {E : Environment σ} {title : String} {m : Monitor}
  {act : MonitorSite σ → Except MonitorError Unit × MonitorSite σ}

theorem visit_of_none (h : r.get? title = none) :
    r.visit title act = (.error (.notFound title), r) := by
  rw [visit, h]

theorem visit_of_some (h : r.get? title = some m) :
    r.visit title act =
      (((act ⟨m, r.directory, r.catalog⟩).1.map fun _ =>
          (act ⟨m, r.directory, r.catalog⟩).2.monitor),
        ⟨r.monitors.insert title (act ⟨m, r.directory, r.catalog⟩).2.monitor,
          (act ⟨m, r.directory, r.catalog⟩).2.directory,
          (act ⟨m, r.directory, r.catalog⟩).2.catalog⟩) := by
  rw [visit, h]

/-- A visit fails as the monitor does. -/
theorem error_of_visit {e : MonitorError} (hm : r.get? title = some m)
    (h : (r.visit title act).1 = .error e) : (act ⟨m, r.directory, r.catalog⟩).1 = .error e := by
  rw [visit_of_some hm] at h
  cases hresult : (act ⟨m, r.directory, r.catalog⟩).1 with
  | error fault =>
    rw [hresult] at h
    exact congrArg _ (Except.error.inj h)
  | ok _ =>
    rw [hresult] at h
    cases h

/-- A visit that keeps monitors coherent leaves a coherent registry, and answers with a coherent
monitor. -/
theorem IsCoherent.visit (h : r.IsCoherent) (title : String)
    (hact : ∀ w, w.monitor.IsCoherent → (act w).2.monitor.IsCoherent) :
    (r.visit title act).2.IsCoherent ∧
      ∀ m, (r.visit title act).1 = .ok m → m.IsCoherent := by
  cases hm : r.get? title with
  | none =>
    rw [visit_of_none hm]
    refine ⟨h, fun n hn => ?_⟩
    cases hn
  | some m =>
    have hafter := hact ⟨m, r.directory, r.catalog⟩ (h title m hm)
    rw [visit_of_some hm]
    refine ⟨h.insert hafter _ _, fun n hn => ?_⟩
    cases hresult : (act ⟨m, r.directory, r.catalog⟩).1 with
    | error e =>
      rw [hresult] at hn
      cases hn
    | ok _ =>
      rw [hresult] at hn
      exact Except.ok.inj hn ▸ hafter

theorem IsCoherent.start (h : r.IsCoherent) : (r.start E title).2.IsCoherent := by
  rw [Registry.start]
  exact (h.visit title fun _ hw => MonitorSite.isCoherent_start hw E _).1

theorem IsCoherent.stop (h : r.IsCoherent) : (r.stop E title).2.IsCoherent := by
  rw [Registry.stop]
  exact (h.visit title fun _ hw => MonitorSite.isCoherent_stop hw E).1

theorem IsCoherent.update (h : r.IsCoherent) (changes : Properties) :
    (r.update E title changes).2.IsCoherent := by
  rw [Registry.update]
  split
  next =>
    split
    next => exact h
    next =>
      have hvisit := h.visit title fun _ hw =>
        MonitorSite.isCoherent_update hw E (r.boundBeside title) changes
      split
      next e r' hresult =>
        rw [hresult] at hvisit
        exact hvisit.1
      next m r' hresult =>
        rw [hresult] at hvisit
        dsimp only
        split
        next => exact hvisit.1
        next => exact (hvisit.1.erase title r'.directory r'.catalog).insert (hvisit.2 m rfl) _ _
  next => exact h

theorem IsCoherent.remove (h : r.IsCoherent) : (r.remove E title).2.IsCoherent := by
  rw [Registry.remove]
  split
  next => exact h
  next =>
    dsimp only
    split
    next => exact h.erase title _ _
    next => exact h.erase title _ _

theorem IsCoherent.run (h : r.IsCoherent) (op : RegistryOperation) :
    (op.run E r).2.IsCoherent := by
  cases op with
  | add config =>
    rw [RegistryOperation.run, add]
    by_cases htaken : config.title ∈ r.monitors
    · rw [if_pos htaken]
      exact h
    · rw [if_neg htaken]
      exact h.insert (Monitor.isCoherent_new config) _ _
  | start title => exact h.start
  | stop title => exact h.stop
  | update title changes => exact h.update changes
  | remove title => exact h.remove

end operations

/-! ## What can become of a registry -/

/-- What can happen next to a registry: an operation, or something that the session of a monitor and
its commits do, which neither starts nor stops it. -/
inductive Step : Registry σ → Registry σ → Prop where
  /-- An operation runs. -/
  | operation (r : Registry σ) (E : Environment σ) (op : RegistryOperation) :
    Step r (op.run E r).2
  /-- A monitor goes on. -/
  | works (r : Registry σ) (title : String) (m n : Monitor) (directory : ChunkDirectory)
      (catalog : σ) (found : r.get? title = some m) (config_eq : n.config = m.config)
      (localAddress_eq : n.localAddress = m.localAddress) (receiving_eq : n.receiving = m.receiving)
      (state_iff : n.state = .stopped ↔ m.state = .stopped) :
    Step r ⟨r.monitors.insert title n, directory, catalog⟩

/-- The registries that such steps lead to. -/
abbrev Reaches : Registry σ → Registry σ → Prop := Relation.ReflTransGen Step

/-- Any number of steps keeps all monitors coherent. -/
theorem Reaches.isCoherent {r r' : Registry σ} (hreaches : Reaches r r') (h : r.IsCoherent) :
    r'.IsCoherent := by
  induction hreaches with
  | refl => exact h
  | tail _ hstep ih =>
    cases hstep with
    | operation E op => exact ih.run op
    | works title m n directory catalog found config_eq localAddress_eq receiving_eq state_iff =>
      exact ih.insert ((ih title m found).of_eq localAddress_eq receiving_eq state_iff) _ _

/-! ## What is registered -/

/-- The configuration under a title, and whether its stream is received. -/
def standing? (r : Registry σ) (title : String) : Option (StreamConfig × Bool) :=
  (r.get? title).map fun m => (m.config, m.receiving)

/-- Whether the same is registered as before. -/
def SameStanding (r r' : Registry σ) : Prop := ∀ title, r'.standing? title = r.standing? title

/-- Whether all monitors but that of a title are the same as before. -/
def AgreesExcept (title : String) (r r' : Registry σ) : Prop :=
  ∀ other, other ≠ title → r'.get? other = r.get? other

section failures

variable {r r' : Registry σ} {E : Environment σ} {title : String} {m n : Monitor}
  {directory : ChunkDirectory} {catalog : σ} {e : MonitorError}

theorem sameStanding_refl (r : Registry σ) : SameStanding r r := fun _ => rfl

theorem AgreesExcept.standing?_eq (h : AgreesExcept title r r') {other : String}
    (hother : other ≠ title) : r'.standing? other = r.standing? other := by
  rw [standing?, standing?, h other hother]

theorem standing?_insert_self :
    standing? ⟨r.monitors.insert title m, directory, catalog⟩ title =
      some (m.config, m.receiving) := by
  rw [standing?, get?, Std.ExtTreeMap.getElem?_insert_self]
  rfl

theorem agreesExcept_insert :
    AgreesExcept title r ⟨r.monitors.insert title m, directory, catalog⟩ := by
  intro other hother
  rw [get?, Std.ExtTreeMap.getElem?_insert,
    if_neg fun heq => hother (Std.LawfulEqCmp.eq_of_compare heq).symm]
  rfl

/-- A monitor that keeps its configuration, and is received or not as before, is the same to see. -/
theorem sameStanding_insert (h : r.get? title = some m) (hconfig : n.config = m.config)
    (hreceiving : n.receiving = m.receiving) :
    SameStanding r ⟨r.monitors.insert title n, directory, catalog⟩ := by
  intro other
  by_cases hother : other = title
  · rw [hother, standing?_insert_self, standing?, h, hconfig, hreceiving]
    rfl
  · exact agreesExcept_insert.standing?_eq hother

/-! ## Operations that fail -/

/-- A visit touches no other stream. -/
theorem agreesExcept_visit (r : Registry σ) (title : String)
    (act : MonitorSite σ → Except MonitorError Unit × MonitorSite σ) :
    AgreesExcept title r (r.visit title act).2 := by
  cases hm : r.get? title with
  | none =>
    rw [visit_of_none hm]
    exact fun _ _ => rfl
  | some m =>
    rw [visit_of_some hm]
    exact agreesExcept_insert

/-- A start that fails changes nothing. If the stream was not received, the system refuses to
receive it. -/
theorem start_error (h : (r.start E title).1 = .error e) :
    SameStanding r (r.start E title).2 ∧
      ∀ m, r.get? title = some m → m.receiving = false →
        (MonitorSite.bind E.network (r.boundBeside title) m.config.address r.directory).1 =
          .error e := by
  rw [start] at h ⊢
  cases hm : r.get? title with
  | none =>
    rw [visit_of_none hm]
    refine ⟨sameStanding_refl r, fun m hsome => ?_⟩
    cases hsome
  | some m =>
    let w : MonitorSite σ := ⟨m, r.directory, r.catalog⟩
    have herror : (w.start E (r.boundBeside title)).1 = .error e := error_of_visit hm h
    rw [visit_of_some hm]
    have hconfig := w.config_start E (r.boundBeside title)
    rcases MonitorSite.start_error herror with
      ⟨hidle, hbind, hafter, -⟩ | ⟨hreceiving, -, hsame⟩
    · refine ⟨sameStanding_insert hm hconfig (hafter.trans hidle.symm), ?_⟩
      rintro _ ⟨⟩ -
      exact hbind
    · refine ⟨sameStanding_insert hm hconfig (by rw [hsame]), ?_⟩
      rintro _ ⟨⟩ hidle
      cases hreceiving.symm.trans hidle

/-- A stop that fails changes nothing. -/
theorem stop_error (h : (r.stop E title).1 = .error e) : SameStanding r (r.stop E title).2 := by
  rw [stop] at h ⊢
  cases hm : r.get? title with
  | none =>
    rw [visit_of_none hm]
    exact sameStanding_refl r
  | some m =>
    let w : MonitorSite σ := ⟨m, r.directory, r.catalog⟩
    have herror : (w.stop E).1 = .error e := error_of_visit hm h
    have hidle : w.monitor.receiving = false := by
      rw [← Bool.not_eq_true]
      intro hreceiving
      cases (w.stop_of_receiving E hreceiving).1.symm.trans herror
    rw [visit_of_some hm, w.stop_of_idle E hidle]
    exact sameStanding_insert hm rfl rfl

/-- A stream that is known is removed. -/
theorem remove_error (hcoherent : r.IsCoherent) (h : (r.remove E title).1 = .error e) :
    (r.remove E title).2 = r := by
  rw [remove] at h ⊢
  cases hm : r.get? title with
  | none => rfl
  | some m =>
    rw [hm] at h
    dsimp only at h
    split at h
    next hbound =>
      let w : MonitorSite σ := ⟨m, r.directory, r.catalog⟩
      have hreceiving : w.monitor.receiving = true :=
        (hcoherent title m hm).bound_eq.symm.trans hbound
      cases (w.stop_of_receiving E hreceiving).1.symm.trans h
    next => cases h

/-- A change of properties that fails changes nothing, unless it was to move a stream that was
received: if the system refuses to receive it at the new address, the stream is not received any
more, and has the new configuration. -/
theorem update_error {changes : Properties} (h : (r.update E title changes).1 = .error e) :
    SameStanding r (r.update E title changes).2 ∨
      ∃ old config, r.standing? title = some (old, true) ∧
        old.merged changes = .ok config ∧ old.addressChanged config = true ∧
        (MonitorSite.bind E.network (r.boundBeside title) config.address r.directory).1 = .error e ∧
        (r.update E title changes).2.standing? title = some (config, false) ∧
        AgreesExcept title r (r.update E title changes).2 := by
  rw [update] at h ⊢
  split at h
  next hmem =>
    rw [if_pos hmem]
    split at h
    next => exact .inl (sameStanding_refl r)
    next =>
      obtain ⟨m, hm⟩ : ∃ m, r.get? title = some m :=
        ⟨_, Std.ExtTreeMap.getElem?_eq_some_getElem hmem⟩
      let w : MonitorSite σ := ⟨m, r.directory, r.catalog⟩
      have herror : (w.update E (r.boundBeside title) changes).1 = .error e := by
        refine error_of_visit hm ?_
        split at h
        next e' r' hvisit =>
          rw [hvisit]
          exact h
        next => cases h
      rw [visit_of_some hm, herror]
      rcases MonitorSite.update_error herror with
        ⟨config, hreceiving, hmerged, hchanged, hbind, hconfig, hafter, -⟩ | ⟨-, -, hsame⟩
      · refine .inr ⟨m.config, config, ?_, hmerged, hchanged, hbind, ?_, agreesExcept_insert⟩
        · rw [standing?, hm, ← hreceiving]
          rfl
        · exact standing?_insert_self.trans (by rw [hconfig, hafter])
      · exact .inl (sameStanding_insert hm (by rw [hsame]) (by rw [hsame]))
  next hmem =>
    rw [if_neg hmem]
    exact .inl (sameStanding_refl r)

end failures

end Registry

end StreamCatalog
