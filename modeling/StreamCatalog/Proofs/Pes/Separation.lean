import Mathlib.Algebra.BigOperators.Group.Finset.Basic
import StreamCatalog.Proofs.Pes.Pushes

/-!
# Streams do not interfere

What an assembler makes of the packets of one identifier does not depend on the packets
between them (`Assembler.streams_separate`): the units of each identifier are those of its
own packets alone, and what is dropped is the sum of what is dropped of each.
-/

namespace StreamCatalog.Pes

open Transport (Packet)

/-- The packets of an identifier. -/
def onPid (pid : Nat) (ps : List Packet) : List Packet :=
  ps.filter fun p => p.pid = pid

/-- The units of an identifier. -/
def unitsOf (pid : Nat) (units : List Unit) : List Unit :=
  units.filter fun u => u.pid = pid

theorem onPid_cons_of_eq {p : Packet} {pid : Nat} (h : p.pid = pid) (ps : List Packet) :
    onPid pid (p :: ps) = p :: onPid pid ps :=
  List.filter_cons_of_pos (by simpa using h)

theorem onPid_cons_of_ne {p : Packet} {pid : Nat} (h : p.pid ≠ pid) (ps : List Packet) :
    onPid pid (p :: ps) = onPid pid ps :=
  List.filter_cons_of_neg (by simpa using h)

theorem unitsOf_append (pid : Nat) (us vs : List Unit) :
    unitsOf pid (us ++ vs) = unitsOf pid us ++ unitsOf pid vs :=
  List.filter_append ..

theorem unitsOf_eq_self {pid : Nat} {units : List Unit} (h : ∀ u ∈ units, u.pid = pid) :
    unitsOf pid units = units :=
  List.filter_eq_self.2 fun u hu => by simpa using h u hu

theorem unitsOf_eq_nil {pid : Nat} {units : List Unit} (h : ∀ u ∈ units, u.pid ≠ pid) :
    unitsOf pid units = [] :=
  List.filter_eq_nil_iff.2 fun u hu => by simpa using h u hu

namespace Assembler

/-! ## Ending what is collected -/

/-- What is collected on an identifier is one entry of all that is collected. -/
theorem filter_toList_eq {β : Type} (m : Std.ExtTreeMap Nat β) (k : Nat) :
    m.toList.filter (fun entry => entry.1 = k) = (m[k]?.map (k, ·)).toList := by
  have hothers (m : Std.ExtTreeMap Nat β) (h : m[k]? = none) :
      m.toList.filter (fun entry => entry.1 = k) = [] := by
    refine List.filter_eq_nil_iff.2 fun entry hentry hkey => ?_
    rw [Std.ExtTreeMap.mem_toList_iff_getElem?_eq_some, of_decide_eq_true hkey, h] at hentry
    cases hentry
  cases h : m[k]? with
  | none => exact hothers m h
  | some v =>
    have hperm := (toList_perm_of_getElem? h).filter fun entry => entry.1 = k
    rw [List.filter_cons_of_pos (by simp), hothers _ Std.ExtTreeMap.getElem?_erase_self] at hperm
    exact List.perm_singleton.1 hperm

/-- At the end, each identifier gives the unit that is collected on it. -/
theorem unitsOf_flush (a : Assembler) (pid : Nat) : unitsOf pid a.flush.1 = a.ended pid := by
  have hentry (entry : Nat × Partial) :
      (closing entry.1 entry.2).filter (fun u => u.pid = pid) =
        if entry.1 = pid then closing entry.1 entry.2 else none := by
    cases hclosing : closing entry.1 entry.2 with
    | none => simp
    | some u =>
      rw [Option.filter_some, pid_of_closing hclosing]
      simp only [decide_eq_true_eq]
  have hkeys : unitsOf pid a.flush.1 =
      (a.partials.toList.filter fun entry => entry.1 = pid).filterMap fun entry =>
        closing entry.1 entry.2 := by
    rw [unitsOf, flush, List.filter_filterMap, List.filterMap_filter]
    refine List.filterMap_congr fun entry _ => ?_
    rw [hentry]
    simp only [decide_eq_true_eq]
  rw [hkeys, filter_toList_eq, ended]
  cases a.partials[pid]? with
  | none => rfl
  | some u => cases hclosing : closing pid u <;> simp [hclosing]

/-! ## Packets of one identifier among others -/

/-- Where the same is collected on an identifier, its packets alone complete the same units as among
others, and leave the same collected. -/
theorem pushAll_onPid {a b : Assembler} {pid : Nat} (h : a.partials[pid]? = b.partials[pid]?)
    (ps : List Packet) :
    unitsOf pid (a.pushAll ps).1 = unitsOf pid (b.pushAll (onPid pid ps)).1 ∧
      (a.pushAll ps).2.partials[pid]? = (b.pushAll (onPid pid ps)).2.partials[pid]? := by
  induction ps generalizing a b with
  | nil => exact ⟨rfl, h⟩
  | cons p ps ih =>
    by_cases hp : p.pid = pid
    · subst hp
      obtain ⟨hunits, hleft, -⟩ := push_congr h
      obtain ⟨hlater, hend⟩ := ih hleft
      rw [onPid_cons_of_eq rfl, pushAll_cons, pushAll_cons, unitsOf_append, unitsOf_append, hunits,
        hlater]
      exact ⟨rfl, hend⟩
    · have hnone : unitsOf pid (a.push p).1 = [] :=
        unitsOf_eq_nil fun u hu hpid => hp ((pid_of_mem_push hu).symm.trans hpid)
      obtain ⟨hlater, hend⟩ := ih ((push_of_ne a hp).trans h)
      rw [onPid_cons_of_ne hp, pushAll_cons, unitsOf_append, hnone, hlater]
      exact ⟨rfl, hend⟩

/-- Packets of one identifier complete units of it only. -/
theorem pid_of_mem_pushAll {a : Assembler} {pid : Nat} {ps : List Packet}
    (h : ∀ p ∈ ps, p.pid = pid) : ∀ u ∈ (a.pushAll ps).1, u.pid = pid := by
  induction ps generalizing a with
  | nil => exact fun u hu => nomatch hu
  | cons p ps ih =>
    intro u hu
    rcases List.mem_append.1 hu with hu | hu
    · exact (pid_of_mem_push hu).trans (h p List.mem_cons_self)
    · exact ih (fun q hq => h q (List.mem_cons_of_mem p hq)) u hu

/-- Packets of one identifier leave nothing collected on others. -/
theorem pushAll_of_ne (a : Assembler) {pid other : Nat} {ps : List Packet}
    (h : ∀ p ∈ ps, p.pid = pid) (hne : pid ≠ other) :
    (a.pushAll ps).2.partials[other]? = a.partials[other]? := by
  induction ps generalizing a with
  | nil => rfl
  | cons p ps ih =>
    have hp : p.pid ≠ other := (h p List.mem_cons_self).symm ▸ hne
    exact (ih _ fun q hq => h q (List.mem_cons_of_mem p hq)).trans (push_of_ne a hp)

theorem pid_of_mem_onPid {pid : Nat} {ps : List Packet} : ∀ p ∈ onPid pid ps, p.pid = pid :=
  fun _ hp => of_decide_eq_true (List.mem_filter.1 hp).2

/-- A run of the packets of one identifier gives units of it only. -/
theorem unitsOf_run_onPid (pid : Nat) (ps : List Packet) :
    unitsOf pid (initial.run (onPid pid ps)) = initial.run (onPid pid ps) := by
  refine unitsOf_eq_self fun u hu => ?_
  rcases List.mem_append.1 hu with hu | hu
  · exact pid_of_mem_pushAll pid_of_mem_onPid u hu
  · by_contra hne
    have hmem : u ∈ unitsOf u.pid (initial.pushAll (onPid pid ps)).2.flush.1 :=
      List.mem_filter.2 ⟨hu, by simp⟩
    have hnone : (initial.pushAll (onPid pid ps)).2.partials[u.pid]? = none :=
      (pushAll_of_ne initial pid_of_mem_onPid (Ne.symm hne)).trans Std.ExtTreeMap.getElem?_empty
    rw [unitsOf_flush, ended, hnone] at hmem
    cases hmem

/-- The units of an identifier are those of its packets alone. -/
theorem unitsOf_run (pid : Nat) (ps : List Packet) :
    unitsOf pid (initial.run ps) = initial.run (onPid pid ps) := by
  obtain ⟨hunits, hleft⟩ := @pushAll_onPid initial initial pid rfl ps
  rw [← unitsOf_run_onPid, run, run, unitsOf_append, unitsOf_append, hunits, unitsOf_flush,
    unitsOf_flush, ended, ended, hleft]

/-- Where the assemblers of a family each collect on their identifier what one assembler collects,
they drop together what it drops. -/
theorem discarded_pushAll {a : Assembler} {b : Nat → Assembler} {pids : Finset Nat}
    (h : ∀ pid, a.partials[pid]? = (b pid).partials[pid]?) {ps : List Packet}
    (hpids : ∀ p ∈ ps, p.pid ∈ pids) :
    (a.pushAll ps).2.discarded + ∑ pid ∈ pids, (b pid).discarded =
      a.discarded + ∑ pid ∈ pids, ((b pid).pushAll (onPid pid ps)).2.discarded := by
  induction ps generalizing a b with
  | nil => rfl
  | cons p ps ih =>
    let after : Nat → Assembler := fun pid => if p.pid = pid then ((b pid).push p).2 else b pid
    obtain ⟨-, hleft, hdropped⟩ := push_congr (h p.pid)
    have hagree (pid : Nat) : (a.push p).2.partials[pid]? = (after pid).partials[pid]? := by
      by_cases hp : p.pid = pid
      · subst hp
        simpa only [after, if_true] using hleft
      · simpa only [after, if_neg hp] using (push_of_ne a hp).trans (h pid)
    have hrest (pid : Nat) : ((b pid).pushAll (onPid pid (p :: ps))).2 =
        ((after pid).pushAll (onPid pid ps)).2 := by
      by_cases hp : p.pid = pid
      · rw [onPid_cons_of_eq hp, pushAll_cons]
        simp only [after, if_pos hp]
      · rw [onPid_cons_of_ne hp]
        simp only [after, if_neg hp]
    have hmem : p.pid ∈ pids := hpids p List.mem_cons_self
    have hothers : ∑ pid ∈ pids.erase p.pid, (after pid).discarded =
        ∑ pid ∈ pids.erase p.pid, (b pid).discarded :=
      Finset.sum_congr rfl fun pid hpid => by
        simp only [after, if_neg (Finset.ne_of_mem_erase hpid).symm]
    have hlast := ih hagree fun q hq => hpids q (List.mem_cons_of_mem p hq)
    have hafter := Finset.add_sum_erase pids (fun pid => (after pid).discarded) hmem
    have hbefore := Finset.add_sum_erase pids (fun pid => (b pid).discarded) hmem
    simp only [after, if_true] at hafter
    simp only [hrest, pushAll_cons]
    simp only [after] at hlast hothers ⊢
    omega

/-! ## All identifiers -/

/-- The units of each identifier are those that its packets alone give, the units open at the end
included; what is dropped is the sum of what is dropped of each identifier. So the order in which
the packets of different identifiers come does not matter. -/
theorem streams_separate (ps : List Packet) :
    (∀ pid, unitsOf pid (initial.pushAll ps).1 = (initial.pushAll (onPid pid ps)).1 ∧
      unitsOf pid (initial.run ps) = initial.run (onPid pid ps)) ∧
    (∀ pids : Finset Nat, (∀ p ∈ ps, p.pid ∈ pids) →
      (initial.pushAll ps).2.discarded =
        ∑ pid ∈ pids, (initial.pushAll (onPid pid ps)).2.discarded) ∧
    ∀ qs : List Packet, (∀ pid, onPid pid qs = onPid pid ps) →
      (∀ pid, unitsOf pid (initial.pushAll qs).1 = unitsOf pid (initial.pushAll ps).1 ∧
        unitsOf pid (initial.run qs) = unitsOf pid (initial.run ps)) ∧
      (initial.pushAll qs).2.discarded = (initial.pushAll ps).2.discarded := by
  have hpushed (ps : List Packet) (pid : Nat) :
      unitsOf pid (initial.pushAll ps).1 = (initial.pushAll (onPid pid ps)).1 :=
    (pushAll_onPid rfl ps).1.trans (unitsOf_eq_self (pid_of_mem_pushAll pid_of_mem_onPid))
  have hsum (ps : List Packet) (pids : Finset Nat) (hpids : ∀ p ∈ ps, p.pid ∈ pids) :
      (initial.pushAll ps).2.discarded =
        ∑ pid ∈ pids, (initial.pushAll (onPid pid ps)).2.discarded := by
    simpa [initial] using
      discarded_pushAll (a := initial) (b := fun _ => initial) (fun _ => rfl) hpids
  refine ⟨fun pid => ⟨hpushed ps pid, unitsOf_run pid ps⟩, hsum ps, fun qs hqs => ⟨fun pid => ?_, ?_⟩⟩
  · rw [hpushed, hpushed, unitsOf_run, unitsOf_run, hqs]
    exact ⟨rfl, rfl⟩
  · let pids : Finset Nat := (ps.map (·.pid)).toFinset ∪ (qs.map (·.pid)).toFinset
    rw [hsum qs pids fun q hq => ?_, hsum ps pids fun p hp => ?_]
    · simp only [hqs]
    · exact Finset.mem_union_left _ (List.mem_toFinset.2 (List.mem_map_of_mem hp))
    · exact Finset.mem_union_right _ (List.mem_toFinset.2 (List.mem_map_of_mem hq))

/-- A packet of an identifier, which starts a unit of open length or goes on with one. -/
def stretch (pid counter : Nat) (unitStart : Bool) (content : Bytes) : Packet where
  transportError := false
  unitStart := unitStart
  pid := pid
  scrambling := 0
  adaptationControl := 1
  continuity := counter
  discontinuity := false
  payload := if unitStart then [0, 0, 1, 0xBD, 0, 0, 0x80, 0, 0] ++ content else content

/-- The start of a unit on each of two identifiers, and what follows on each: on the second one,
behind a gap. -/
def twoStreams : List Packet :=
  [stretch 256 0 true [7], stretch 257 4 true [8], stretch 256 1 false [9],
    stretch 257 6 false [10]]

/-- The same, but the second identifier comes first. -/
def twoStreamsTurned : List Packet :=
  [stretch 257 4 true [8], stretch 257 6 false [10], stretch 256 0 true [7],
    stretch 256 1 false [9]]

theorem onPid_twoStreamsTurned (pid : Nat) :
    onPid pid twoStreamsTurned = onPid pid twoStreams := by
  by_cases h : pid = 256
  · subst h
    rfl
  · by_cases h' : pid = 257
    · subst h'
      rfl
    · simp [onPid, twoStreamsTurned, twoStreams, stretch, Ne.symm h, Ne.symm h']

theorem streams_separate_turned :
    unitsOf 256 (initial.run twoStreamsTurned) = [⟨256, 0xBD, [7, 9]⟩] ∧
      (initial.pushAll twoStreamsTurned).2.discarded = 1 ∧
      ∑ pid ∈ {256, 257}, (initial.pushAll (onPid pid twoStreams)).2.discarded = 1 := by
  obtain ⟨-, hsum, hturned⟩ := streams_separate twoStreams
  obtain ⟨hunits, hdropped⟩ := hturned twoStreamsTurned onPid_twoStreamsTurned
  refine ⟨(hunits 256).2.trans (by decide +kernel), hdropped.trans (by decide +kernel), ?_⟩
  rw [← hsum {256, 257} (by decide)]
  decide +kernel

end Assembler

end StreamCatalog.Pes
