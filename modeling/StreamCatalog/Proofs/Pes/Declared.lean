import StreamCatalog.Proofs.Pes.Provenance

/-!
# Units with a declared length

A unit that is being collected has not reached its declared length (`Assembler.Unfinished`),
so a packet that goes on with it gives the whole unit or nothing. A packet that starts
something cuts the unit before it: that is the one way in which a packet gives a unit short of
its declared length (`Assembler.declared_units`).
-/

namespace StreamCatalog.Pes

open Transport (Packet Fragment bodySize privateUnit)

/-! ## Declared lengths -/

namespace Trail

variable {t : Trail}

/-- The length that the start packet declares. -/
def declared? (t : Trail) : Option Nat := declaredLength? t.start.packet.payload

theorem expected_collected (t : Trail) : t.collected.expected = t.declared? := by
  show t.header.expected = declaredLength? t.start.packet.payload
  exact expected_of_startUnit t.header_eq

/-- A unit that is complete has its declared length. -/
theorem exists_declared_of_isComplete (h : t.collected.isComplete = true) :
    ∃ size, t.declared? = some size ∧ t.unit.payload.length = size := by
  rw [Partial.isComplete, Option.any_eq_true] at h
  obtain ⟨size, hexpected, hsize⟩ := h
  refine ⟨size, t.expected_collected ▸ hexpected, ?_⟩
  simp only [unit, Partial.toUnit, hexpected, List.length_take]
  exact Nat.min_eq_left (of_decide_eq_true hsize)

/-- A unit that is not complete is shorter than it declares, and given as it is. -/
theorem payload_unit_of_not_isComplete (h : t.collected.isComplete = false) :
    t.unit.payload = t.data ∧ ∀ size, t.declared? = some size → t.data.length < size := by
  have hshort (size : Nat) (hsize : t.declared? = some size) : t.data.length < size := by
    rw [Partial.isComplete, t.expected_collected, hsize, Option.any_some] at h
    exact Nat.lt_of_not_le (of_decide_eq_false h)
  refine ⟨?_, hshort⟩
  simp only [unit, Partial.toUnit]
  split
  · next size hexpected =>
    exact List.take_of_length_le (hshort size (t.expected_collected ▸ hexpected)).le
  · rfl

end Trail

namespace Assembler

/-! ## What is collected is unfinished -/

/-- Whether no unit that is being collected has reached its declared length. -/
def Unfinished (a : Assembler) : Prop :=
  ∀ (pid : Nat) u, a.partials[pid]? = some u → u.isComplete = false

theorem unfinished_initial : initial.Unfinished := by
  intro pid u hu
  simp [initial] at hu

theorem Unfinished.cleared {a : Assembler} (h : a.Unfinished) (pid : Nat) :
    (a.cleared pid).Unfinished := by
  intro other u hu
  rw [getElem?_cleared] at hu
  split at hu
  · cases hu
  · exact h other u hu

theorem Unfinished.collecting {a : Assembler} (h : a.Unfinished) (pid : Nat) {u : Partial}
    (hu : u.isComplete = false) : (a.collecting pid u).Unfinished := by
  intro other v hv
  rw [getElem?_collecting] at hv
  split at hv
  · cases hv
    exact hu
  · exact h other v hv

/-- A packet leaves only unfinished units. -/
theorem Unfinished.push {a : Assembler} (h : a.Unfinished) (p : Packet) : (a.push p).2.Unfinished := by
  have hpushed := a.pushed p
  generalize a.push p = result at hpushed
  cases hpushed with
  | passed => exact h
  | replaced | whole | completed => exact h.cleared p.pid
  | dropped => exact h.cleared p.pid
  | opened u _ _ incomplete => exact (h.cleared p.pid).collecting p.pid incomplete
  | extended u _ _ _ incomplete => exact h.collecting p.pid incomplete

/-- Nothing is left at the end. -/
theorem Unfinished.flush (a : Assembler) : a.flush.2.Unfinished := by
  intro pid u hu
  simp [Assembler.flush] at hu

theorem Unfinished.callAll {a : Assembler} (h : a.Unfinished) (calls : List Call) :
    (a.callAll calls).2.Unfinished := by
  induction calls generalizing a with
  | nil => exact h
  | cons c calls ih =>
    rw [callAll_cons]
    cases c with
    | push p => exact ih (h.push p)
    | flush => exact ih (Unfinished.flush a)

/-! ## Where a run has come -/

theorem callAll_concat (a : Assembler) (calls : List Call) (c : Call) :
    a.callAll (calls ++ [c]) =
      ((a.callAll calls).1 ++ ((a.callAll calls).2.call c).1, ((a.callAll calls).2.call c).2) := by
  induction calls generalizing a with
  | nil => simp [callAll]
  | cons d calls ih => rw [List.cons_append, callAll_cons, callAll_cons, ih, List.append_assoc]

/-- There is a ledger of the calls so far, whatever calls come later. -/
theorem exists_ledger (before more : List Call) :
    ∃ l : Ledger, Tracks (before ++ more) before.length before.length
      (openings (before ++ more) before.length) (initial.callAll before).2
      (initial.callAll before).1 l := by
  induction before using List.reverseRecOn generalizing more with
  | nil => exact ⟨.empty, Tracks.initial more⟩
  | append_singleton before c ih =>
    obtain ⟨l, h⟩ := ih (c :: more)
    obtain ⟨l', h'⟩ := h.call (c := c) (by simp)
    rw [callAll_concat, List.append_assoc, List.singleton_append, List.length_append]
    exact ⟨l', h'⟩

/-! ## How a packet ends units -/

/-- Whether a packet starts something before the declared unit of its identifier is complete. -/
structure Cuts (a : Assembler) (p : Packet) : Prop where
  /-- The packet starts something. -/
  starts : Starts p
  /-- A unit of its identifier is being collected, with a declared length and some content. -/
  declared : ∃ u, a.partials[p.pid]? = some u ∧ u.expected.isSome = true ∧ u.data ≠ []

/-- Whether a packet goes on with the unit of its identifier, and comes behind a gap. -/
structure Breaks (a : Assembler) (p : Packet) : Prop where
  /-- The packet goes on with something. -/
  continues : Continues p
  /-- It is not the last packet again, and does not follow on it. -/
  gap : ∃ u, a.partials[p.pid]? = some u ∧ p.continuity ≠ u.lastCounter ∧
    ¬Follows u.lastCounter p

/-- A packet behind a gap drops the unit, which is counted. -/
theorem Breaks.push_eq {a : Assembler} {p : Packet} (h : a.Breaks p) :
    a.push p = ([], { a.cleared p.pid with discarded := a.discarded + 1 }) := by
  obtain ⟨u, hu, hother, hgap⟩ := h.gap
  have hunannounced : p.discontinuity = false := by
    refine Bool.eq_false_iff.2 fun hannounced => ?_
    exact hgap (.inr ⟨hother, hannounced⟩)
  have hnot : p.continuity ≠ (u.lastCounter + 1) % 16 ∧ p.discontinuity = false :=
    ⟨fun hnext => hgap (.inl hnext), hunannounced⟩
  rw [push_of_getElem?_eq_some h.continues.carries h.continues.unitStart hu, extend,
    if_neg hother, if_pos hnot]
  rfl

/-- A packet behind up to 14 lost ones comes behind a gap. Behind 15 it has the counter of the last
packet, behind 16 the next one. -/
theorem breaks_of_lost {a : Assembler} {p : Packet} {u : Partial} {lost : Nat} (hp : Continues p)
    (hu : a.partials[p.pid]? = some u) (hunannounced : p.discontinuity = false)
    (hcounter : p.continuity = (u.lastCounter + 1 + lost) % 16) (hsome : 0 < lost)
    (hfew : lost < 15) : a.Breaks p := by
  refine ⟨hp, u, hu, by omega, ?_⟩
  rintro (hnext | ⟨-, hannounced⟩)
  · omega
  · exact Bool.false_ne_true (hunannounced.symm.trans hannounced)

/-- Only a packet behind a gap has a unit counted as dropped. -/
theorem discarded_push_of_not_breaks {a : Assembler} {p : Packet} (h : ¬a.Breaks p) :
    (a.push p).2.discarded = a.discarded := by
  have hpushed := a.pushed p
  generalize a.push p = result at hpushed
  cases hpushed with
  | passed | replaced | opened | whole | extended | completed => rfl
  | dropped u continues found other gap => exact absurd ⟨continues, u, found, other, gap⟩ h

end Assembler

/-- How a packet that comes at a place ends the unit of a trail. -/
inductive Trail.EndsAt (a : Assembler) (place : Nat) (p : Packet) (t : Trail) : Prop where
  /-- It is the last packet of the unit, which then has its declared length. -/
  | completed (last_eq : t.last = ⟨place, p⟩)
      (whole : ∃ size, t.declared? = some size ∧ t.unit.payload.length = size)
  /-- It starts something on the identifier, and the unit before it is given as it is, short of any
  length that it declares. -/
  | cut (starts : Starts p) (collected : a.partials[p.pid]? = some t.collected)
      (before : t.last.place < place) (nonempty : t.data ≠ []) (payload_eq : t.unit.payload = t.data)
      (short : ∀ size, t.declared? = some size → t.data.length < size)

namespace Tracks

variable {calls : List Call} {free : Nat} {opened : List Nat} {a : Assembler} {units : List Unit}
  {l : Ledger} {p : Packet}

/-- The unit that ends where a packet starts something is cut, unless it has no content. -/
theorem exists_cut (h : Tracks calls free free opened a units l) (hunfinished : a.Unfinished)
    (hp : Starts p) :
    ∃ ts : List Trail, a.ended p.pid = ts.map Trail.unit ∧
      (∀ t ∈ ts, t.Among calls ∧ t.EndsAt a free p) ∧
      ∀ u, a.partials[p.pid]? = some u → u.data ≠ [] → ∃ t ∈ ts, t.collected = u := by
  rw [Assembler.ended]
  cases hu : a.partials[p.pid]? with
  | none => exact ⟨[], by simp⟩
  | some u =>
    obtain ⟨t, ht, hpid, rfl⟩ := h.keeps.exists_trail hu
    have hdata : t.collected.data = t.data := rfl
    rw [Option.bind_some, Assembler.closing, hdata]
    by_cases hempty : t.data = []
    · refine ⟨[], by simp [hempty], by simp, ?_⟩
      intro v hv hnonempty
      cases hv
      exact absurd hempty hnonempty
    · obtain ⟨hpayload, hshort⟩ := Trail.payload_unit_of_not_isComplete (hunfinished _ _ hu)
      refine ⟨[t], ?_, ?_, ?_⟩
      · simp [hempty, Trail.unit, hpid]
      · intro t' ht'
        obtain rfl := List.mem_singleton.1 ht'
        exact ⟨h.accounts.among _ (mem_trails ht),
          .cut hp hu (h.last_lt ht) hempty hpayload hshort⟩
      · intro v hv _
        cases hv
        exact ⟨t, List.mem_singleton_self t, rfl⟩

/-- The unit that a packet completes is whole. -/
theorem exists_completed (h : Tracks calls free free opened a units l)
    (hc : calls[free]? = some (.push p)) {u : Partial} (hp : Continues p)
    (hu : a.partials[p.pid]? = some u) (hfollows : Follows u.lastCounter p)
    (hcomplete : (u.extended p).isComplete = true) :
    ∃ t : Trail, (u.extended p).toUnit p.pid = t.unit ∧ t.Among calls ∧ t.EndsAt a free p := by
  obtain ⟨t, ht, hpid, rfl⟩ := h.keeps.exists_trail hu
  let t' := t.extended ⟨free, p⟩ hp hpid.symm hfollows (h.accounts.place_lt t (mem_trails ht))
  have hcollected : t'.collected = t.collected.extended p := Trail.collected_extended
  have haccounts := h.accounts.perm (Ledger.trails_perm_cons ht).symm
  refine ⟨t', ?_, ?_, ?_⟩
  · rw [Trail.unit, hcollected, ← hpid]
    rfl
  · exact (haccounts.extended hc rfl (h.keeps.undisturbed _ t ht)).among t' List.mem_cons_self
  · exact .completed Trail.last_extended
      (Trail.exists_declared_of_isComplete (hcollected ▸ hcomplete))

/-- A unit that is complete in the packet that starts it is whole. -/
theorem exists_whole (h : Tracks calls free free opened a units l)
    (hc : calls[free]? = some (.push p)) {u : Partial} (hp : Starts p)
    (hu : startUnit p.payload p.continuity = some u) (hcomplete : u.isComplete = true) :
    ∃ t : Trail, u.toUnit p.pid = t.unit ∧ t.Among calls ∧ t.EndsAt a free p := by
  let t := Trail.begun ⟨free, p⟩ u hp hu
  have hcollected : t.collected = u := Trail.collected_begun hp hu
  refine ⟨t, ?_, ?_, ?_⟩
  · rw [Trail.unit, hcollected]
    rfl
  · exact (h.accounts.begun hc rfl).among t List.mem_cons_self
  · exact .completed rfl (Trail.exists_declared_of_isComplete (hcollected ▸ hcomplete))

/-- The units that a packet gives are whole, or cut where it starts something. -/
theorem exists_endsAt (h : Tracks calls free free opened a units l) (hunfinished : a.Unfinished)
    (hc : calls[free]? = some (.push p)) :
    ∃ ts : List Trail, (a.push p).1 = ts.map Trail.unit ∧
      (∀ t ∈ ts, t.Among calls ∧ t.EndsAt a free p) ∧
      (Starts p → ∀ u, a.partials[p.pid]? = some u → u.data ≠ [] →
        ∃ t ∈ ts, t.collected = u) := by
  have hpushed := a.pushed p
  generalize a.push p = result at hpushed
  cases hpushed with
  | passed hp => exact ⟨[], rfl, by simp, fun hstarts => absurd hstarts hp⟩
  | dropped _ hp | extended _ hp =>
    exact ⟨[], rfl, by simp, fun hstarts => absurd hp hstarts.not_continues⟩
  | replaced hp | opened _ hp =>
    obtain ⟨ts, hunits, hends, hall⟩ := h.exists_cut hunfinished hp
    exact ⟨ts, hunits, hends, fun _ => hall⟩
  | whole u hp hu hcomplete =>
    obtain ⟨ts, hunits, hends, hall⟩ := h.exists_cut hunfinished hp
    obtain ⟨t, hunit, ht⟩ := h.exists_whole hc hp hu hcomplete
    refine ⟨ts ++ [t], by simp [hunits, hunit], ?_, fun _ v hv hnonempty => ?_⟩
    · intro t' ht'
      rcases List.mem_append.1 ht' with ht' | ht'
      · exact hends t' ht'
      · exact List.mem_singleton.1 ht' ▸ ht
    · obtain ⟨t', ht', hcollected⟩ := hall v hv hnonempty
      exact ⟨t', List.mem_append_left [t] ht', hcollected⟩
  | completed u hp hu hfollows hcomplete =>
    obtain ⟨t, hunit, ht⟩ := h.exists_completed hc hp hu hfollows hcomplete
    refine ⟨[t], by simp [hunit], ?_, fun hstarts => absurd hp hstarts.not_continues⟩
    intro t' ht'
    exact List.mem_singleton.1 ht' ▸ ht

end Tracks

/-- A packet gives a declared unit short exactly if it cuts one. -/
theorem Assembler.Unfinished.exists_short_iff {a : Assembler} (h : a.Unfinished) {place : Nat}
    {p : Packet} {ts : List Trail} (hends : ∀ t ∈ ts, t.EndsAt a place p)
    (hall : Starts p → ∀ u, a.partials[p.pid]? = some u → u.data ≠ [] →
      ∃ t ∈ ts, t.collected = u) :
    (∃ t ∈ ts, ∃ size, t.declared? = some size ∧ t.unit.payload.length ≠ size) ↔ a.Cuts p := by
  constructor
  · rintro ⟨t, ht, size, hsize, hother⟩
    cases hends t ht with
    | completed _ whole =>
      obtain ⟨size', hsize', hlength⟩ := whole
      exact absurd (hlength.trans (Option.some.inj (hsize'.symm.trans hsize))) hother
    | cut starts collected _ nonempty =>
      refine ⟨starts, t.collected, collected, ?_, nonempty⟩
      rw [t.expected_collected, hsize]
      rfl
  · rintro ⟨starts, u, hu, hdeclared, hnonempty⟩
    obtain ⟨t, ht, rfl⟩ := hall starts u hu hnonempty
    obtain ⟨size, hsize⟩ := Option.isSome_iff_exists.1 hdeclared
    rw [t.expected_collected] at hsize
    obtain ⟨hpayload, hshort⟩ := Trail.payload_unit_of_not_isComplete (h _ _ hu)
    exact ⟨t, ht, size, hsize, hpayload ▸ (hshort size hsize).ne⟩

/-- The units that a packet gives after any calls are those of trails among them. The packet
completes each of them, which then has the length that it declares, or cuts it. It cuts a declared
unit exactly if it starts something on its identifier before it is complete, and that is not
counted. A packet behind a gap gives nothing, drops its unit and has it counted; a gap is what up
to 14 lost packets leave. -/
theorem Assembler.declared_units (before : List Call) (p : Packet) :
    let a := (initial.callAll before).2
    (∃ ts : List Trail, (a.push p).1 = ts.map Trail.unit ∧
      (∀ t ∈ ts, t.Among (before ++ [.push p]) ∧ t.EndsAt a before.length p) ∧
      ((∃ t ∈ ts, ∃ size, t.declared? = some size ∧ t.unit.payload.length ≠ size) ↔ a.Cuts p)) ∧
    (a.Breaks p → a.push p = ([], { a.cleared p.pid with discarded := a.discarded + 1 })) ∧
    (¬a.Breaks p → (a.push p).2.discarded = a.discarded) ∧
    (∀ (u : Partial) (lost : Nat), Continues p → a.partials[p.pid]? = some u →
      p.discontinuity = false → p.continuity = (u.lastCounter + 1 + lost) % 16 → 0 < lost →
      lost < 15 → a.Breaks p) := by
  intro a
  obtain ⟨l, h⟩ := exists_ledger before [.push p]
  have hunfinished : a.Unfinished := unfinished_initial.callAll before
  obtain ⟨ts, hunits, hends, hall⟩ := h.exists_endsAt (p := p) hunfinished (by simp)
  refine ⟨⟨ts, hunits, hends, ?_⟩, Breaks.push_eq, discarded_push_of_not_breaks,
    fun u lost => breaks_of_lost⟩
  exact hunfinished.exists_short_iff (fun t ht => (hends t ht).2) hall

/-- Of three packets with a unit in two and one in the last, the second is lost: the first unit is
given without what that brings, and nothing is counted. -/
theorem Assembler.lost_tail_given_short :
    let long := List.replicate 256 0x11
    let short := List.replicate 175 0x22
    let first := Fragment.packet ⟨0x100, 0, true, (privateUnit long).take bodySize⟩
    let second := Fragment.packet ⟨0x100, 1, false, (privateUnit long).drop bodySize⟩
    let third := Fragment.packet ⟨0x100, 2, true, privateUnit short⟩
    declaredLength? first.payload = some 256 ∧
      (initial.pushAll [first, second, third]).1.map Unit.payload = [long, short] ∧
      (initial.pushAll [first, third]).1.map Unit.payload = [long.take 175, short] ∧
      (initial.pushAll [first, third]).2.discarded = 0 := by
  decide +kernel

end StreamCatalog.Pes
