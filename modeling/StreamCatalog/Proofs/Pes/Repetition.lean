import StreamCatalog.Proofs.Pes.Assembly

/-!
# Packets that come twice

A transport stream may carry a packet twice in a row. The second copy of a
packet that goes on with a unit, ends one, or breaks one off is recognised and
changes nothing; the second copy of a packet that starts a unit ends what its
first copy has started. `echo` is the unit that a second copy completes, and
`run_repeat` says that this is all it does.
-/

namespace StreamCatalog.Pes

open Transport (Packet)

/-- The unit that the second of two copies of a packet completes: what the packet itself holds of a
unit that starts in it, unless it holds nothing of a unit that goes on. -/
def echo (p : Packet) : Option Unit :=
  if Assembler.ignores p || !p.unitStart then none
  else (startUnit p.payload p.continuity).bind fun u =>
    if u.isComplete then some (u.toUnit p.pid) else Assembler.closing p.pid u

/-- Whether a packet starts a unit that it also completes, or of which it holds some content. -/
def StartsContent (p : Packet) : Prop :=
  Assembler.ignores p = false ∧ p.unitStart = true ∧
    ∃ u, startUnit p.payload p.continuity = some u ∧ (u.isComplete = true ∨ u.data ≠ [])

/-- Packets that start a unit and hold something of it are those that have an echo. -/
theorem echo_eq_none_iff (p : Packet) : echo p = none ↔ ¬StartsContent p := by
  cases hignored : Assembler.ignores p with
  | true => simp [echo, StartsContent, hignored]
  | false =>
    cases hstart : p.unitStart with
    | false => simp [echo, StartsContent, hstart]
    | true =>
      cases hunit : startUnit p.payload p.continuity with
      | none => simp [echo, StartsContent, hignored, hstart, hunit]
      | some u =>
        by_cases hcomplete : u.isComplete = true
        · simp [echo, StartsContent, hignored, hstart, hunit, hcomplete]
        · simp [echo, StartsContent, hignored, hstart, hunit, hcomplete, Assembler.closing]

namespace Assembler

/-- The second copy of a packet that starts a unit ends what the first copy has started, and starts
it anew. -/
theorem start_repeat (a : Assembler) (p : Packet) :
    (a.start p).2.start p =
      (((startUnit p.payload p.continuity).bind fun u =>
          if u.isComplete then some (u.toUnit p.pid) else closing p.pid u).toList,
        (a.start p).2) := by
  have hcleared : (a.partials.erase p.pid)[p.pid]? = none := Std.ExtTreeMap.getElem?_erase_self
  have hagain := erase_of_getElem?_eq_none hcleared
  cases hunit : startUnit p.payload p.continuity with
  | none => simp [start, hunit, hagain]
  | some u =>
    by_cases hcomplete : u.isComplete = true
    · simp [start, hunit, hcomplete, hagain]
    · have hopen := erase_insert_of_getElem?_eq_none hcleared u
      simp [start, hunit, hcomplete, hopen]

/-- The second copy of a packet that goes on with a unit, ends it or breaks it off is passed
over. -/
theorem extend_repeat (a : Assembler) {p : Packet} {u : Partial} (hcarries : ignores p = false)
    (hstart : p.unitStart = false) (hu : a.partials[p.pid]? = some u) :
    (a.extend p u).2.push p = ([], (a.extend p u).2) := by
  by_cases hsame : p.continuity = u.lastCounter
  · have hagain : (a.extend p u).2 = a := by simp [extend, hsame]
    rw [hagain, push_of_getElem?_eq_some hcarries hstart hu]
    simp [extend, hsame]
  · let v : Partial := { u with lastCounter := p.continuity, data := u.data ++ p.payload }
    by_cases hgap : p.continuity ≠ (u.lastCounter + 1) % 16 ∧ p.discontinuity = false
    · -- The unit was dropped at a gap.
      apply push_of_getElem?_eq_none hcarries hstart
      simp [extend, hsame, hgap]
    · by_cases hcomplete : v.isComplete = true
      · -- The unit is complete, and no longer collected.
        apply push_of_getElem?_eq_none hcarries hstart
        simp [extend, hsame, hgap, hcomplete, v]
      · -- The unit goes on, and its last counter is that of the packet.
        have hopen : (a.extend p u).2.partials[p.pid]? = some v := by
          simp [extend, hsame, hgap, hcomplete, v]
        rw [push_of_getElem?_eq_some hcarries hstart hopen, extend, if_pos rfl]

/-- The second copy of a packet completes the echo of the packet, and nothing else changes. -/
theorem push_repeat (a : Assembler) (p : Packet) :
    (a.push p).2.push p = ((echo p).toList, (a.push p).2) := by
  by_cases hignored : ignores p = true
  · rw [push_of_ignores hignored, push_of_ignores hignored, echo, hignored]
    rfl
  · have hcarries : ignores p = false := by simpa using hignored
    by_cases hstart : p.unitStart = true
    · rw [push_of_unitStart hcarries hstart, push_of_unitStart hcarries hstart, start_repeat, echo,
        hcarries, hstart]
      rfl
    · have hgoes : p.unitStart = false := by simpa using hstart
      have hecho : echo p = none := by simp [echo, hgoes]
      rw [hecho]
      cases hu : a.partials[p.pid]? with
      | none =>
        have hpassed := push_of_getElem?_eq_none hcarries hgoes hu
        rw [hpassed, hpassed]
        rfl
      | some u =>
        rw [push_of_getElem?_eq_some hcarries hgoes hu]
        exact extend_repeat a hcarries hgoes hu

/-- A second copy adds the echo of its packet to the units of a run, at its place. -/
theorem run_repeat (a : Assembler) (ps qs : List Packet) (p : Packet) :
    ∃ units later, a.run (ps ++ p :: qs) = units ++ later ∧
      a.run (ps ++ p :: p :: qs) = units ++ ((echo p).toList ++ later) := by
  induction ps generalizing a with
  | nil =>
    refine ⟨(a.push p).1, (a.push p).2.run qs, run_cons .., ?_⟩
    rw [List.nil_append, run_cons, run_cons, push_repeat]
  | cons q ps ih =>
    obtain ⟨units, later, honce, htwice⟩ := ih (a.push q).2
    refine ⟨(a.push q).1 ++ units, later, ?_, ?_⟩
    · rw [List.cons_append, run_cons, honce, List.append_assoc]
    · rw [List.cons_append, run_cons, htwice, List.append_assoc]

end Assembler

end StreamCatalog.Pes
