import StreamCatalog.Stream.Config

/-!
# What a checked configuration says

A configuration has the title that its properties give, and its thresholds are
positive: a chunk without bytes is never full, and one that was just written is
never idle.
-/

namespace StreamCatalog

/-- A computation that succeeds succeeds in its first part. -/
theorem exists_of_bind_eq_ok {ε α β : Type} {x : Except ε α} {f : α → Except ε β} {b : β}
    (h : (x >>= f) = .ok b) : ∃ a, x = .ok a ∧ f a = .ok b := by
  cases x with
  | error e => cases h
  | ok a => exact ⟨a, rfl, h⟩

namespace StreamConfig

/-- A text that is read is that of the property. -/
theorem eq_text_of_read? {ps : Properties} {name t : String}
    (h : read? ps name PropertyValue.readText = .ok (some t)) : ps[name]? = some (.text t) := by
  unfold read? at h
  split at h
  · cases h
  · next v hv =>
    cases v with
    | text s =>
      cases h
      exact hv
    | bool | integer | float => cases h

/-- A value that is needed is there. -/
theorem eq_some_of_need {α : Type} {name : String} {value : Option α} {a : α}
    (h : need name value = .ok a) : value = some a := by
  cases value with
  | none => cases h
  | some b =>
    cases h
    rfl

/-- A configuration has the title that is among its properties. -/
theorem title_ofProperties {ps : Properties} {c : StreamConfig} (h : ofProperties ps = .ok c) :
    ps[PropertyName.title]? = some (.text c.title) := by
  unfold ofProperties at h
  obtain ⟨read, hread, h⟩ := exists_of_bind_eq_ok h
  obtain ⟨title, htitle, h⟩ := exists_of_bind_eq_ok h
  have hc : c.title = title := by
    iterate 10 obtain ⟨_, -, h⟩ := exists_of_bind_eq_ok h
    cases h
    rfl
  obtain ⟨hread', -⟩ := Option.filter_eq_some_iff.1 (eq_some_of_need htitle)
  rw [hread'] at hread
  rw [hc, eq_text_of_read? hread]

theorem title_toProperties (c : StreamConfig) :
    c.toProperties[PropertyName.title]? = some (.text c.title) := by
  unfold toProperties
  refine Std.ExtTreeMap.getElem?_ofList_of_mem (k := PropertyName.title) Std.ReflCmp.compare_self
    ?_ ?_
  · -- The names of the properties differ, with and without a title of the parent.
    cases c.parentTitle <;> simp <;> decide
  · simp

/-- A number that is positive, or else the standard one, is positive if that is. -/
theorem pos_of_readOr {ps : Properties} {name : String} {standard n : Nat} (hstandard : 0 < standard)
    (h : readOr ps name PropertyValue.readPositive standard = .ok n) : 0 < n := by
  unfold readOr read? at h
  split at h
  · cases h
    exact hstandard
  · next v _ =>
    cases hread : v.readPositive with
    | error fault =>
      rw [hread] at h
      cases h
    | ok m =>
      rw [hread] at h
      cases h
      unfold PropertyValue.readPositive at hread
      obtain ⟨m', -, hread⟩ := exists_of_bind_eq_ok hread
      split at hread
      · cases hread
      · next hne =>
        cases hread
        exact Nat.pos_of_ne_zero hne

/-- The thresholds of a configuration are positive. -/
theorem thresholds_pos {ps : Properties} {c : StreamConfig} (h : ofProperties ps = .ok c) :
    0 < c.byteCount ∧ 0 < c.elapsedTime ∧ 0 < c.idleTimeout := by
  unfold ofProperties at h
  iterate 5 obtain ⟨_, -, h⟩ := exists_of_bind_eq_ok h
  obtain ⟨byteCount, hbyteCount, h⟩ := exists_of_bind_eq_ok h
  obtain ⟨elapsedTime, helapsedTime, h⟩ := exists_of_bind_eq_ok h
  obtain ⟨idleTimeout, hidleTimeout, h⟩ := exists_of_bind_eq_ok h
  iterate 4 obtain ⟨_, -, h⟩ := exists_of_bind_eq_ok h
  cases h
  exact ⟨pos_of_readOr (by decide) hbyteCount, pos_of_readOr (by decide) helapsedTime,
    pos_of_readOr (by decide) hidleTimeout⟩

/-- The condition of a configuration holds of a chunk with bytes that has reached a threshold. -/
theorem isSatisfied_condition (c : StreamConfig) (p : Progress) :
    c.condition.isSatisfied p = true ↔ p.bytes ≠ 0 ∧
      (c.byteCount ≤ p.bytes ∨ ofMillis c.elapsedTime ≤ p.elapsed ∨
        ofMillis c.idleTimeout ≤ p.idle) := by
  simp [condition, Condition.isSatisfied, Condition.holds, Condition.anyHolds]

end StreamConfig

end StreamCatalog
