import StreamCatalog.Proofs.Pes.Assembly

/-!
# What a packet does to the units being collected

A packet concerns only what is collected on its own identifier (`Assembler.push_of_ne`,
`Assembler.push_congr`). It is passed over, starts a unit, goes on with one, ends one or
breaks one off; `Assembler.Pushed` says when it does which.
-/

namespace StreamCatalog.Pes

open Transport (Packet)

/-- Whether a packet ends what is collected on its identifier, and may start a unit. -/
structure Starts (p : Packet) : Prop where
  /-- It has something to collect. -/
  carries : Assembler.ignores p = false
  /-- It has the unit start flag. -/
  unitStart : p.unitStart = true

/-- Whether a packet may go on with a unit. -/
structure Continues (p : Packet) : Prop where
  /-- It has something to collect. -/
  carries : Assembler.ignores p = false
  /-- It has no unit start flag. -/
  unitStart : p.unitStart = false

/-- Whether a packet goes on where one with this counter has ended: with the next counter, or with
any other one and an announced discontinuity. -/
def Follows (counter : Nat) (p : Packet) : Prop :=
  p.continuity = (counter + 1) % 16 ∨ (p.continuity ≠ counter ∧ p.discontinuity = true)

/-- A packet that starts something does not go on with anything. -/
theorem Starts.not_continues {p : Packet} (h : Starts p) : ¬Continues p := fun hcontinues =>
  Bool.false_ne_true (hcontinues.unitStart.symm.trans h.unitStart)

/-- A packet is passed over, or starts something, or goes on with something. -/
theorem carries_cases (p : Packet) : Assembler.ignores p = true ∨ Starts p ∨ Continues p := by
  cases hignores : Assembler.ignores p with
  | true => exact .inl rfl
  | false =>
    cases hstart : p.unitStart with
    | true => exact .inr (.inl ⟨hignores, hstart⟩)
    | false => exact .inr (.inr ⟨hignores, hstart⟩)

/-- The unit with the content of one more packet. -/
def Partial.extended (u : Partial) (p : Packet) : Partial :=
  { u with lastCounter := p.continuity, data := u.data ++ p.payload }

namespace Assembler

/-- The unit that ends where a packet starts something. -/
def ended (a : Assembler) (pid : Nat) : List Unit :=
  (a.partials[pid]?.bind (closing pid)).toList

/-- An assembler that collects nothing on an identifier. -/
def cleared (a : Assembler) (pid : Nat) : Assembler :=
  { a with partials := a.partials.erase pid }

/-- An assembler that collects a unit on an identifier. -/
def collecting (a : Assembler) (pid : Nat) (u : Partial) : Assembler :=
  { a with partials := a.partials.insert pid u }

/-- What comes of a packet. -/
inductive Pushed (a : Assembler) (p : Packet) : List Unit × Assembler → Prop where
  /-- The packet is passed over. -/
  | passed (not_starts : ¬Starts p) : Pushed a p ([], a)
  /-- The packet ends a unit, and starts none that is collected. -/
  | replaced (starts : Starts p) (header : startUnit p.payload p.continuity = none) :
    Pushed a p (a.ended p.pid, a.cleared p.pid)
  /-- The packet ends a unit, and starts one that goes on. -/
  | opened (u : Partial) (starts : Starts p) (header : startUnit p.payload p.continuity = some u)
      (incomplete : u.isComplete = false) :
    Pushed a p (a.ended p.pid, (a.cleared p.pid).collecting p.pid u)
  /-- The packet ends a unit, and holds the whole of another one. -/
  | whole (u : Partial) (starts : Starts p) (header : startUnit p.payload p.continuity = some u)
      (complete : u.isComplete = true) :
    Pushed a p (a.ended p.pid ++ [u.toUnit p.pid], a.cleared p.pid)
  /-- The packet comes behind a gap, and the unit is dropped. -/
  | dropped (u : Partial) (continues : Continues p) (found : a.partials[p.pid]? = some u)
      (other : p.continuity ≠ u.lastCounter) (gap : ¬Follows u.lastCounter p) :
    Pushed a p ([], { a.cleared p.pid with discarded := a.discarded + 1 })
  /-- The packet goes on with a unit. -/
  | extended (u : Partial) (continues : Continues p) (found : a.partials[p.pid]? = some u)
      (follows : Follows u.lastCounter p) (incomplete : (u.extended p).isComplete = false) :
    Pushed a p ([], a.collecting p.pid (u.extended p))
  /-- The packet completes a unit. -/
  | completed (u : Partial) (continues : Continues p) (found : a.partials[p.pid]? = some u)
      (follows : Follows u.lastCounter p) (complete : (u.extended p).isComplete = true) :
    Pushed a p ([(u.extended p).toUnit p.pid], a.cleared p.pid)

theorem pushed_start (a : Assembler) {p : Packet} (h : Starts p) : Pushed a p (a.start p) := by
  rw [start]
  cases hheader : startUnit p.payload p.continuity with
  | none => exact .replaced h hheader
  | some u =>
    cases hcomplete : u.isComplete with
    | true =>
      simp only [hcomplete, if_true]
      exact .whole u h hheader hcomplete
    | false =>
      simp only [hcomplete, Bool.false_eq_true, if_false]
      exact .opened u h hheader hcomplete

theorem pushed_extend {a : Assembler} {p : Packet} {u : Partial} (h : Continues p)
    (hu : a.partials[p.pid]? = some u) : Pushed a p (a.extend p u) := by
  rw [extend]
  by_cases hsame : p.continuity = u.lastCounter
  · rw [if_pos hsame]
    exact .passed fun hstarts => hstarts.not_continues h
  · rw [if_neg hsame]
    by_cases hgap : p.continuity ≠ (u.lastCounter + 1) % 16 ∧ p.discontinuity = false
    · rw [if_pos hgap]
      refine .dropped u h hu hsame ?_
      rintro (hnext | ⟨-, hannounced⟩)
      · exact hgap.1 hnext
      · exact Bool.false_ne_true (hgap.2.symm.trans hannounced)
    · have hfollows : Follows u.lastCounter p := by
        by_cases hnext : p.continuity = (u.lastCounter + 1) % 16
        · exact .inl hnext
        · exact .inr ⟨hsame, by simpa [hnext] using hgap⟩
      rw [if_neg hgap]
      cases hcomplete : (u.extended p).isComplete with
      | true => exact (if_pos hcomplete) ▸ .completed u h hu hfollows hcomplete
      | false =>
        exact (if_neg (Bool.eq_false_iff.1 hcomplete)) ▸ .extended u h hu hfollows hcomplete

/-- What comes of a packet is one of these. -/
theorem pushed (a : Assembler) (p : Packet) : Pushed a p (a.push p) := by
  rcases carries_cases p with hignores | hstarts | hcontinues
  · rw [push_of_ignores hignores]
    exact .passed fun h => Bool.false_ne_true (h.carries.symm.trans hignores)
  · rw [push_of_unitStart hstarts.carries hstarts.unitStart]
    exact pushed_start a hstarts
  · cases hu : a.partials[p.pid]? with
    | none =>
      rw [push_of_getElem?_eq_none hcontinues.carries hcontinues.unitStart hu]
      exact .passed fun h => h.not_continues hcontinues
    | some u =>
      rw [push_of_getElem?_eq_some hcontinues.carries hcontinues.unitStart hu]
      exact pushed_extend hcontinues hu

/-! ## One identifier and the others -/

theorem getElem?_cleared (a : Assembler) (pid other : Nat) :
    (a.cleared pid).partials[other]? = if pid = other then none else a.partials[other]? := by
  simp only [cleared, Std.ExtTreeMap.getElem?_erase, compare_eq_iff_eq]

theorem getElem?_collecting (a : Assembler) (pid other : Nat) (u : Partial) :
    (a.collecting pid u).partials[other]? =
      if pid = other then some u else a.partials[other]? := by
  simp only [collecting, Std.ExtTreeMap.getElem?_insert, compare_eq_iff_eq]

theorem pid_of_closing {pid : Nat} {u : Partial} {unit : Unit} (h : closing pid u = some unit) :
    unit.pid = pid := by
  rw [closing] at h
  split at h
  · cases h
  · cases h
    rfl

theorem pid_of_mem_ended {a : Assembler} {pid : Nat} {unit : Unit} (h : unit ∈ a.ended pid) :
    unit.pid = pid := by
  rw [ended, Option.mem_toList, Option.bind_eq_some_iff] at h
  obtain ⟨u, -, hclosing⟩ := h
  exact pid_of_closing hclosing

/-- A packet completes units of its own identifier only. -/
theorem pid_of_mem_push {a : Assembler} {p : Packet} {unit : Unit} (h : unit ∈ (a.push p).1) :
    unit.pid = p.pid := by
  have hpushed := a.pushed p
  generalize a.push p = result at hpushed h
  cases hpushed with
  | passed | dropped | extended => cases h
  | replaced | opened => exact pid_of_mem_ended h
  | whole u =>
    rcases List.mem_append.1 h with h | h
    · exact pid_of_mem_ended h
    · rw [List.mem_singleton.1 h]
      rfl
  | completed u =>
    rw [List.mem_singleton.1 h]
    rfl

/-- A packet leaves what is collected on other identifiers. -/
theorem push_of_ne (a : Assembler) {p : Packet} {pid : Nat} (hne : p.pid ≠ pid) :
    (a.push p).2.partials[pid]? = a.partials[pid]? := by
  have hpushed := a.pushed p
  generalize a.push p = result at hpushed
  cases hpushed with
  | passed => rfl
  | replaced | whole | dropped | completed => exact (getElem?_cleared ..).trans (if_neg hne)
  | opened u =>
    exact (getElem?_collecting ..).trans
      ((if_neg hne).trans ((getElem?_cleared ..).trans (if_neg hne)))
  | extended u => exact (getElem?_collecting ..).trans (if_neg hne)

/-- What comes of a packet depends only on what is collected on its identifier. -/
theorem push_congr {a b : Assembler} {p : Packet} (h : a.partials[p.pid]? = b.partials[p.pid]?) :
    (a.push p).1 = (b.push p).1 ∧
      (a.push p).2.partials[p.pid]? = (b.push p).2.partials[p.pid]? ∧
      (a.push p).2.discarded + b.discarded = (b.push p).2.discarded + a.discarded := by
  rcases carries_cases p with hignores | hstarts | hcontinues
  · rw [push_of_ignores hignores, push_of_ignores hignores]
    exact ⟨rfl, h, Nat.add_comm ..⟩
  · rw [push_of_unitStart hstarts.carries hstarts.unitStart,
      push_of_unitStart hstarts.carries hstarts.unitStart, start, start, h]
    cases startUnit p.payload p.continuity with
    | none => exact ⟨rfl, by simp, Nat.add_comm ..⟩
    | some u => cases hcomplete : u.isComplete <;> simp [hcomplete, Nat.add_comm]
  · cases hu : a.partials[p.pid]? with
    | none =>
      rw [push_of_getElem?_eq_none hcontinues.carries hcontinues.unitStart hu,
        push_of_getElem?_eq_none hcontinues.carries hcontinues.unitStart (h ▸ hu)]
      exact ⟨rfl, h, Nat.add_comm ..⟩
    | some u =>
      rw [push_of_getElem?_eq_some hcontinues.carries hcontinues.unitStart hu,
        push_of_getElem?_eq_some hcontinues.carries hcontinues.unitStart (h ▸ hu), extend, extend]
      split
      case isTrue => exact ⟨rfl, h, Nat.add_comm ..⟩
      case isFalse =>
        split
        case isTrue => exact ⟨rfl, by simp, by dsimp only; omega⟩
        case isFalse =>
          dsimp only
          split <;> simp [Nat.add_comm]

end Assembler

end StreamCatalog.Pes
