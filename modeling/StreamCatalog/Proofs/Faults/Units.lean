import Mathlib.Algebra.GroupWithZero.Nat
import StreamCatalog.Proofs.Faults.Packets
import StreamCatalog.Proofs.Pes.Assembly

/-!
# Elementary stream units without faults

Reading the header of a unit index by index and collecting its content in a buffer
faults nowhere and gives what `Assembler.push` gives: a header is read only from
nine bytes or more, and a continuity counter has four bits. What is collected
comes from the packets that were fed, each byte at most once.
-/

namespace StreamCatalog.Pes

open Checked
open Transport (Packet packetSize)

/-- Read the header of a unit at the front of a payload, index by index. -/
def startUnitChecked (payload : Bytes) (counter : Nat) : Checked (Option Partial) := do
  if payload.length < 9 then
    return none
  else
    let code ← slice payload 0 3
    if code ≠ [0x00, 0x00, 0x01] then
      return none
    else
      let streamId ← index payload 3
      if metadataStreams.contains streamId then
        let high ← index payload 4
        let low ← index payload 5
        let headerSize ← index payload 8
        let start ← sum 9 headerSize.toNat
        if payload.length < start then
          return none
        else
          let declared := high.toNat * 256 + low.toNat
          let header ← sum 3 headerSize.toNat
          let data ← slice payload start payload.length
          return some
            { streamId
              data
              expected := if declared = 0 then none else some (declared - header)
              lastCounter := counter }
      else
        return none

namespace Assembler

/-- Feed a packet with the unit start flag. -/
def startChecked (a : Assembler) (p : Packet) : Checked (List Unit × Assembler) := do
  let ended := (a.partials[p.pid]?.bind (closing p.pid)).toList
  let others := a.partials.erase p.pid
  match ← startUnitChecked p.payload p.continuity with
  | none => return (ended, { a with partials := others })
  | some u =>
    if u.isComplete then
      return (ended ++ [u.toUnit p.pid], { a with partials := others })
    else
      return (ended, { a with partials := others.insert p.pid u })

/-- Feed a packet that goes on with the unit `u`. -/
def extendChecked (a : Assembler) (p : Packet) (u : Partial) :
    Checked (List Unit × Assembler) := do
  if p.continuity = u.lastCounter then
    return ([], a)
  else
    let following ← word 8 (u.lastCounter + 1)
    if p.continuity ≠ following % 16 ∧ p.discontinuity = false then
      return ([], ⟨a.partials.erase p.pid, ← next a.discarded⟩)
    else
      let data ← Checked.extend u.data p.payload
      let u := { u with lastCounter := p.continuity, data := data }
      if u.isComplete then
        return ([u.toUnit p.pid], { a with partials := a.partials.erase p.pid })
      else
        return ([], { a with partials := a.partials.insert p.pid u })

/-- Feed a packet; the answer holds the units it completes. -/
def pushChecked (a : Assembler) (p : Packet) : Checked (List Unit × Assembler) := do
  if ignores p then
    return ([], a)
  else if p.unitStart then
    a.startChecked p
  else
    match a.partials[p.pid]? with
    | none => return ([], a)
    | some u => a.extendChecked p u

end Assembler

/-- A unit starts with its code. -/
theorem startUnit_eq_none {payload : Bytes} (h : payload.take 3 ≠ [0x00, 0x00, 0x01])
    (counter : Nat) : startUnit payload counter = none := by
  unfold startUnit
  split
  next => exact absurd rfl h
  next => rfl

/-- The header takes nine bytes. -/
theorem startUnit_of_short {payload : Bytes} (h : payload.length < 9) (counter : Nat) :
    startUnit payload counter = none := by
  unfold startUnit
  split
  next =>
    simp only [List.length_cons] at h
    omega
  next => rfl

/-- Reading a header faults nowhere. -/
theorem startUnitChecked_eq (payload : Bytes) (counter : Nat) :
    startUnitChecked payload counter = .ok (startUnit payload counter) := by
  by_cases hshort : payload.length < 9
  · rw [startUnitChecked, if_pos hshort, startUnit_of_short hshort]
    rfl
  · rw [startUnitChecked, if_neg hshort, slice_zero (by omega), ok_bind]
    by_cases hcode : payload.take 3 = [0x00, 0x00, 0x01]
    · rw [if_neg (not_not.2 hcode)]
      obtain ⟨rest, rfl⟩ : ∃ rest, payload = 0x00 :: 0x00 :: 0x01 :: rest := by
        have happend := List.take_append_drop 3 payload
        rw [hcode] at happend
        exact ⟨payload.drop 3, happend.symm⟩
      have hrest : 6 ≤ rest.length := by
        simp only [List.length_cons] at hshort
        omega
      obtain ⟨streamId, afterId, rfl, hafterId⟩ := exists_cons_of_le hrest
      obtain ⟨high, afterHigh, rfl, hafterHigh⟩ := exists_cons_of_le hafterId
      obtain ⟨low, afterLow, rfl, hafterLow⟩ := exists_cons_of_le hafterHigh
      obtain ⟨first, afterFirst, rfl, hafterFirst⟩ := exists_cons_of_le hafterLow
      obtain ⟨second, afterFlags, rfl, hafterFlags⟩ := exists_cons_of_le hafterFirst
      obtain ⟨headerSize, content, rfl, -⟩ := exists_cons_of_le hafterFlags
      have hsize := headerSize.toNat_lt
      simp only [index_cons_zero, index_cons_succ, ok_bind, startUnit]
      split
      next =>
        rw [sum_of_lt (by omega), ok_bind]
        by_cases hover : content.length < headerSize.toNat
        · rw [if_pos (by simp only [List.length_cons]; omega),
            Bytes.splitAt?_eq_none_iff.2 hover]
          rfl
        · have hsplit : Bytes.splitAt? headerSize.toNat content =
              some (content.take headerSize.toNat, content.drop headerSize.toNat) :=
            Bytes.splitAt?_eq_some_iff.2
              ⟨List.length_take_of_le (by omega), (List.take_append_drop _ _).symm⟩
          rw [if_neg (by simp only [List.length_cons]; omega), sum_of_lt (by omega), ok_bind,
            slice_length (by simp only [List.length_cons]; omega), ok_bind, hsplit,
            Nat.add_comm 9]
          rfl
      next => rfl
    · rw [if_pos hcode, startUnit_eq_none hcode]
      rfl

/-! ## What is collected -/

/-- What the values of a table weigh together. -/
def totalWeight {β : Type} (weight : β → Nat) (m : Std.ExtTreeMap Nat β) : Nat :=
  (m.toList.map fun entry => weight entry.2).sum

section weight

variable {β : Type} (weight : β → Nat) {m : Std.ExtTreeMap Nat β} {k : Nat} {v : β}

theorem totalWeight_of_getElem? (h : m[k]? = some v) :
    totalWeight weight m = weight v + totalWeight weight (m.erase k) := by
  rw [totalWeight, ((toList_perm_of_getElem? h).map _).sum_nat, List.map_cons, List.sum_cons]
  rfl

theorem totalWeight_insert :
    totalWeight weight (m.insert k v) = weight v + totalWeight weight (m.erase k) := by
  rw [totalWeight_of_getElem? weight Std.ExtTreeMap.getElem?_insert_self, erase_insert_same]

theorem totalWeight_erase_le : totalWeight weight (m.erase k) ≤ totalWeight weight m := by
  cases h : m[k]? with
  | none => rw [erase_of_getElem?_eq_none h]
  | some v => rw [totalWeight_of_getElem? weight h]; exact Nat.le_add_left _ _

end weight

namespace Assembler

section weight

variable (weight : Partial → Nat) (unitWeight : Unit → Nat) {a : Assembler} {p : Packet}
  {added : Nat}

/-- A unit that stops being collected at a new start is no longer there. -/
theorem sum_closing_le (hunit : ∀ u pid, unitWeight (u.toUnit pid) ≤ weight u) (pid : Nat) :
    (((a.partials[pid]?.bind (closing pid)).toList.map unitWeight).sum) +
        totalWeight weight (a.partials.erase pid) ≤
      totalWeight weight a.partials := by
  cases hu : a.partials[pid]? with
  | none =>
    rw [erase_of_getElem?_eq_none hu]
    exact Nat.le_of_eq (Nat.zero_add _)
  | some u =>
    have hle := hunit u pid
    rw [totalWeight_of_getElem? weight hu, Option.bind_some, closing]
    split
    next => exact Nat.le_trans (Nat.le_of_eq (Nat.zero_add _)) (Nat.le_add_left _ _)
    next =>
      simp only [Option.toList_some, List.map_cons, List.map_nil, List.sum_cons, List.sum_nil]
      omega

theorem sum_start_le (hunit : ∀ u pid, unitWeight (u.toUnit pid) ≤ weight u)
    (hstart : ∀ u, startUnit p.payload p.continuity = some u → weight u ≤ added) :
    ((a.start p).1.map unitWeight).sum + totalWeight weight (a.start p).2.partials ≤
      totalWeight weight a.partials + added := by
  have hended := sum_closing_le weight unitWeight (a := a) hunit p.pid
  rw [start]
  cases hu : startUnit p.payload p.continuity with
  | none =>
    dsimp only
    omega
  | some u =>
    have hle := hstart u hu
    have htoUnit := hunit u p.pid
    dsimp only
    split
    next =>
      simp only [List.map_append, List.sum_append, List.map_cons, List.map_nil, List.sum_cons,
        List.sum_nil]
      omega
    next =>
      have herase := totalWeight_erase_le weight (m := a.partials.erase p.pid) (k := p.pid)
      rw [totalWeight_insert]
      dsimp only
      omega

theorem sum_extend_le (hunit : ∀ u pid, unitWeight (u.toUnit pid) ≤ weight u) {u : Partial}
    (hu : a.partials[p.pid]? = some u)
    (hextend : weight { u with lastCounter := p.continuity, data := u.data ++ p.payload } ≤
      weight u + added) :
    ((a.extend p u).1.map unitWeight).sum + totalWeight weight (a.extend p u).2.partials ≤
      totalWeight weight a.partials + added := by
  have hpartials := totalWeight_of_getElem? weight hu
  rw [extend]
  split
  next =>
    simp only [List.map_nil, List.sum_nil]
    omega
  next =>
    split
    next =>
      simp only [List.map_nil, List.sum_nil]
      omega
    next =>
      dsimp only
      split
      next =>
        have htoUnit := hunit
          { u with lastCounter := p.continuity, data := u.data ++ p.payload } p.pid
        simp only [List.map_cons, List.map_nil, List.sum_cons, List.sum_nil]
        omega
      next =>
        simp only [List.map_nil, List.sum_nil, totalWeight_insert]
        omega

/-- What a packet completes and leaves to be collected was there before, or comes from the
packet. -/
theorem sum_push_le (hunit : ∀ u pid, unitWeight (u.toUnit pid) ≤ weight u)
    (hstart : ∀ u, startUnit p.payload p.continuity = some u → weight u ≤ added)
    (hextend : ∀ u : Partial,
      weight { u with lastCounter := p.continuity, data := u.data ++ p.payload } ≤
        weight u + added) :
    ((a.push p).1.map unitWeight).sum + totalWeight weight (a.push p).2.partials ≤
      totalWeight weight a.partials + added := by
  have hnothing : ([] : List Unit).map unitWeight = [] := rfl
  rw [push]
  split
  next =>
    dsimp only
    rw [hnothing, List.sum_nil]
    omega
  next =>
    split
    next => exact sum_start_le weight unitWeight hunit hstart
    next =>
      cases hu : a.partials[p.pid]? with
      | none =>
        dsimp only
        rw [hnothing, List.sum_nil]
        omega
      | some u => exact sum_extend_le weight unitWeight hunit hu (hextend u)

/-- Everything that is flushed was there. -/
theorem sum_flush_le (hunit : ∀ u pid, unitWeight (u.toUnit pid) ≤ weight u) :
    (a.flush.1.map unitWeight).sum ≤ totalWeight weight a.partials := by
  rw [flush, totalWeight]
  dsimp only
  induction a.partials.toList with
  | nil => exact le_rfl
  | cons entry entries ih =>
    obtain ⟨pid, u⟩ := entry
    have hle := hunit u pid
    rw [List.filterMap_cons, List.map_cons, List.sum_cons, closing]
    split
    next => omega
    next =>
      next hclosing =>
        split at hclosing
        next => cases hclosing
        next =>
          cases hclosing
          rw [List.map_cons, List.sum_cons]
          dsimp only
          omega

end weight

end Assembler

/-! ## Feeding packets -/

/-- A unit is not longer than what was collected for it. -/
theorem Partial.length_toUnit_le (u : Partial) (pid : Nat) :
    (u.toUnit pid).payload.length ≤ u.data.length := by
  rw [toUnit]
  dsimp only
  split
  next => exact List.length_take_le' ..
  next => exact le_rfl

/-- What is known of a unit that is being collected. -/
structure Partial.IsBounded (u : Partial) : Prop where
  /-- The continuity counter has four bits. -/
  lastCounter_lt : u.lastCounter < 16
  /-- The content fits in a buffer. -/
  data_lt : u.data.length < capacity

theorem Partial.IsBounded.toUnit_lt {u : Partial} (h : u.IsBounded) (pid : Nat) :
    (u.toUnit pid).payload.length < capacity :=
  (u.length_toUnit_le pid).trans_lt h.data_lt

/-- The content that starts in a packet is a part of its payload. -/
theorem startUnit_bounds {payload : Bytes} {counter : Nat} {u : Partial}
    (h : startUnit payload counter = some u) :
    u.lastCounter = counter ∧ u.data.length ≤ payload.length := by
  unfold startUnit at h
  split at h
  next =>
    split at h
    next =>
      split at h
      next => cases h
      next hsplit =>
        cases h
        refine ⟨rfl, ?_⟩
        rw [(Bytes.splitAt?_eq_some_iff.1 hsplit).2]
        simp only [List.length_cons, List.length_append]
        omega
    next => cases h
  next => cases h

namespace Assembler

/-- Whether all units being collected are within their bounds. -/
def IsBounded (a : Assembler) : Prop :=
  ∀ ⦃pid : Nat⦄ ⦃u : Partial⦄, a.partials[pid]? = some u → u.IsBounded

variable {a : Assembler} {p : Packet} {received : Nat}

theorem IsBounded.erase (h : a.IsBounded) (pid discarded : Nat) :
    IsBounded ⟨a.partials.erase pid, discarded⟩ := by
  intro other u hu
  dsimp only at hu
  rw [Std.ExtTreeMap.getElem?_erase] at hu
  split at hu
  next => cases hu
  next => exact h hu

theorem IsBounded.insert (h : a.IsBounded) (pid : Nat) {u : Partial} (hu : u.IsBounded) :
    IsBounded { a with partials := a.partials.insert pid u } := by
  intro other v hv
  dsimp only at hv
  rw [Std.ExtTreeMap.getElem?_insert] at hv
  split at hv
  next =>
    cases hv
    exact hu
  next => exact h hv

/-- What feeding a packet comes to. -/
def Fed (result : List Unit × Assembler) : Prop :=
  result.2.IsBounded ∧ ∀ u ∈ result.1, u.payload.length < capacity

theorem gives_startChecked (h : a.IsBounded) (hp : p.IsBounded) :
    Gives received (a.startChecked p) (a.start p) (Fed (a.start p)) := by
  have hothers : IsBounded { a with partials := a.partials.erase p.pid } := h.erase p.pid _
  have hended : ∀ u ∈ (a.partials[p.pid]?.bind (closing p.pid)).toList,
      u.payload.length < capacity := by
    intro unit hunit
    obtain ⟨u, hu, hclosing⟩ := Option.bind_eq_some_iff.1 (Option.mem_toList.1 hunit)
    rw [closing] at hclosing
    split at hclosing
    next => cases hclosing
    next =>
      cases hclosing
      exact (h hu).toUnit_lt p.pid
  rw [startChecked, startUnitChecked_eq, ok_bind, start]
  cases hu : startUnit p.payload p.continuity with
  | none => exact .ok _ ⟨hothers, hended⟩
  | some u =>
    obtain ⟨hcounter, hdata⟩ := startUnit_bounds hu
    have hpacket : packetSize < capacity := by decide
    have hbounded : u.IsBounded :=
      ⟨hcounter ▸ hp.continuity_lt, (hdata.trans_lt hp.payload_lt).trans hpacket⟩
    dsimp only
    split
    next =>
      refine .ok _ ⟨hothers, ?_⟩
      intro unit hunit
      rcases List.mem_append.1 hunit with hunit | hunit
      · exact hended unit hunit
      · rw [List.mem_singleton.1 hunit]
        exact hbounded.toUnit_lt p.pid
    next => exact .ok _ ⟨hothers.insert p.pid hbounded, hended⟩

theorem gives_extendChecked (h : a.IsBounded) (hp : p.IsBounded) {u : Partial}
    (hu : a.partials[p.pid]? = some u) (hdiscarded : a.discarded < received)
    (hdata : u.data.length + p.payload.length ≤ received) :
    Gives received (a.extendChecked p u) (a.extend p u) (Fed (a.extend p u)) := by
  have hcounter := (h hu).lastCounter_lt
  rw [extendChecked, extend]
  split
  next => exact .ok _ ⟨h, List.forall_mem_nil _⟩
  next =>
    rw [word_of_lt (by omega), ok_bind]
    split
    next =>
      exact (gives_next hdiscarded).bind fun _ =>
        .ok _ ⟨h.erase p.pid _, List.forall_mem_nil _⟩
    next =>
      refine (gives_extend hdata).bind fun hlt => ?_
      have hbounded : Partial.IsBounded
          { u with lastCounter := p.continuity, data := u.data ++ p.payload } :=
        ⟨hp.continuity_lt, hlt⟩
      dsimp only
      split
      next =>
        refine .ok _ ⟨h.erase p.pid _, ?_⟩
        intro unit hunit
        rw [List.mem_singleton.1 hunit]
        exact hbounded.toUnit_lt p.pid
      next => exact .ok _ ⟨h.insert p.pid hbounded, List.forall_mem_nil _⟩

/-- Feeding a packet faults nowhere, unless the buffer of a unit or the count of units that were
dropped is full. -/
theorem gives_pushChecked (h : a.IsBounded) (hp : p.IsBounded) (hdiscarded : a.discarded < received)
    (hdata : totalWeight (·.data.length) a.partials + p.payload.length ≤ received) :
    Gives received (a.pushChecked p) (a.push p) (Fed (a.push p)) := by
  rw [pushChecked, push]
  split
  next => exact .ok _ ⟨h, List.forall_mem_nil _⟩
  next =>
    split
    next => exact gives_startChecked h hp
    next =>
      cases hu : a.partials[p.pid]? with
      | none => exact .ok _ ⟨h, List.forall_mem_nil _⟩
      | some u =>
        have hheld := totalWeight_of_getElem? (·.data.length) hu
        exact gives_extendChecked h hp hu hdiscarded (by omega)

/-- Everything that is flushed is within its bounds. -/
theorem IsBounded.flush (h : a.IsBounded) : ∀ u ∈ a.flush.1, u.payload.length < capacity := by
  intro unit hunit
  obtain ⟨⟨pid, u⟩, hmem, hclosing⟩ := List.mem_filterMap.1 hunit
  simp only [closing] at hclosing
  split at hclosing
  next => cases hclosing
  next =>
    cases hclosing
    exact (h (Std.ExtTreeMap.mem_toList_iff_getElem?_eq_some.1 hmem)).toUnit_lt pid

/-- A packet drops one unit at most. -/
theorem discarded_push_le (a : Assembler) (p : Packet) :
    (a.push p).2.discarded ≤ a.discarded + 1 := by
  rw [push]
  split
  next => exact Nat.le_succ _
  next =>
    split
    next =>
      rw [start]
      split
      next => exact Nat.le_succ _
      next => split <;> exact Nat.le_succ _
    next =>
      split
      next => exact Nat.le_succ _
      next =>
        rw [extend]
        split
        next => exact Nat.le_succ _
        next =>
          split
          next => exact le_rfl
          next =>
            dsimp only
            split <;> exact Nat.le_succ _

end Assembler

end StreamCatalog.Pes
