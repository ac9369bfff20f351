import StreamCatalog.Proofs.Faults.Basic
import StreamCatalog.Proofs.Transport.Alignment
import StreamCatalog.Transport.Quality

/-!
# Packets without faults

Reading a packet index by index, cutting packets out of a buffer that is moved
forward, and counting continuity counters in words of eight bits fault nowhere
and give what `Packet.parse`, `Aligner.push` and `Analyzer.observe` give. A packet
is read only when its 188 bytes are there, and less than one packet is ever left
pending.
-/

namespace StreamCatalog.Transport

open Checked

/-! ## Reading a packet -/

namespace Packet

/-- Where the payload starts behind an adaptation field, and whether that announces a
discontinuity. -/
def adaptationChecked (data : Bytes) : Checked (Except PacketFault (Nat × Bool)) := do
  let size ← index data 4
  let offset ← sum 5 size.toNat
  if packetSize < offset then
    return .error .adaptationOverflow
  else if 0 < size.toNat then
    let flags ← index data 5
    return .ok (offset, 0x80 ≤ flags.toNat)
  else
    return .ok (offset, false)

/-- The packet whose payload starts at an offset. -/
def fromOffsetChecked (data : Bytes) (offset : Nat) (discontinuity : Bool) : Checked Packet := do
  let flags ← index data 1
  let pidLow ← index data 2
  let control ← index data 3
  let adaptationControl := control.toNat / 16 % 4
  let payload ←
    if adaptationControl % 2 = 1 ∧ offset < packetSize then slice data offset packetSize
    else pure []
  return {
    transportError := 128 ≤ flags.toNat
    unitStart := 64 ≤ flags.toNat % 128
    pid := flags.toNat % 32 * 256 + pidLow.toNat
    scrambling := control.toNat / 64
    adaptationControl
    continuity := control.toNat % 16
    discontinuity
    payload }

/-- The packet in the first 188 bytes of `data`, index by index. -/
def parseChecked (data : Bytes) : Checked (Except PacketFault Packet) := do
  if data.length < packetSize then
    return .error .tooShort
  else
    let sync ← index data 0
    if sync ≠ syncByte then
      return .error .missingSync
    else
      let control ← index data 3
      if 2 ≤ control.toNat / 16 % 4 then
        match ← adaptationChecked data with
        | .error fault => return .error fault
        | .ok (offset, discontinuity) =>
          return .ok (← fromOffsetChecked data offset discontinuity)
      else
        return .ok (← fromOffsetChecked data 4 false)

section

variable {sync flags pidLow control size : UInt8} {rest : Bytes}

/-- The adaptation field at the front of what follows the header. -/
theorem adaptationChecked_eq (h : 183 ≤ rest.length) :
    adaptationChecked (sync :: flags :: pidLow :: control :: size :: rest) =
      .ok (if 183 < size.toNat then .error .adaptationOverflow
        else .ok (5 + size.toNat, ((rest.take 183).take size.toNat).head?.any (0x80 ≤ ·.toNat))) := by
  have hsize := size.toNat_lt
  obtain ⟨first, rest, rfl⟩ := List.exists_cons_of_length_pos (show 0 < rest.length by omega)
  simp only [adaptationChecked, index_cons_succ, index_cons_zero, ok_bind, pure_eq_ok,
    sum_of_lt (show 5 + size.toNat < 2 ^ 64 by omega)]
  by_cases hover : 183 < size.toNat
  · rw [if_pos (show packetSize < _ by rw [packetSize]; omega), if_pos hover]
  · rw [if_neg (show ¬packetSize < _ by rw [packetSize]; omega), if_neg hover]
    by_cases hpos : 0 < size.toNat
    · obtain ⟨n, hn⟩ : ∃ n, size.toNat = n + 1 := ⟨size.toNat - 1, by omega⟩
      rw [if_pos hpos, hn, List.take_succ_cons, List.take_succ_cons]
      rfl
    · obtain hzero : size.toNat = 0 := by omega
      rw [if_neg hpos, hzero, List.take_zero]
      rfl

/-- The payload is what is left of the packet. -/
theorem fromOffsetChecked_eq (h : 183 ≤ rest.length) {offset : Nat} (hlow : 4 ≤ offset)
    (hhigh : offset ≤ packetSize) (discontinuity : Bool) :
    fromOffsetChecked (sync :: flags :: pidLow :: control :: size :: rest) offset discontinuity =
      .ok {
        transportError := 128 ≤ flags.toNat
        unitStart := 64 ≤ flags.toNat % 128
        pid := flags.toNat % 32 * 256 + pidLow.toNat
        scrambling := control.toNat / 64
        adaptationControl := control.toNat / 16 % 4
        continuity := control.toNat % 16
        discontinuity
        payload := if control.toNat / 16 % 4 % 2 = 1 then
            (size :: rest.take 183).drop (offset - 4) else [] } := by
  have hlength : packetSize ≤ (sync :: flags :: pidLow :: control :: size :: rest).length := by
    simp only [List.length_cons, packetSize]
    omega
  have hslice : slice (sync :: flags :: pidLow :: control :: size :: rest) offset packetSize =
      .ok ((size :: rest.take 183).drop (offset - 4)) := by
    obtain ⟨n, rfl⟩ : ∃ n, offset = n + 4 := ⟨offset - 4, by omega⟩
    rw [slice_of_le hhigh hlength, ← List.take_succ_cons, Nat.add_sub_cancel, List.drop_take,
      packetSize, show 188 - (n + 4) = 183 + 1 - n by omega]
    rfl
  simp only [fromOffsetChecked, index_cons_succ, index_cons_zero, ok_bind]
  by_cases hpayload : control.toNat / 16 % 4 % 2 = 1
  · by_cases hoffset : offset < packetSize
    · simp only [hpayload, hoffset, and_self, if_true, hslice, ok_bind, pure_eq_ok]
    · have hnone : (size :: rest.take 183).drop (offset - 4) = [] := by
        apply List.drop_of_length_le
        simp only [List.length_cons, List.length_take, packetSize] at hoffset ⊢
        omega
      simp only [hpayload, hoffset, and_false, if_false, if_true, ok_bind, pure_eq_ok, hnone]
  · simp only [hpayload, false_and, if_false, ok_bind, pure_eq_ok]

end

/-- Reading a packet faults nowhere. -/
theorem parseChecked_eq (data : Bytes) : parseChecked data = .ok (parse data) := by
  by_cases hshort : data.length < packetSize
  · rw [parseChecked, if_pos hshort, parse, Bytes.splitAt?_eq_none_iff.2 hshort]
    rfl
  · have hdata : 183 + 5 ≤ data.length := by
      rw [packetSize] at hshort
      omega
    obtain ⟨sync, afterSync, rfl, hafterSync⟩ := exists_cons_of_le hdata
    obtain ⟨flags, afterFlags, rfl, hafterFlags⟩ := exists_cons_of_le hafterSync
    obtain ⟨pidLow, afterPid, rfl, hafterPid⟩ := exists_cons_of_le hafterFlags
    obtain ⟨control, body, rfl, hbody⟩ := exists_cons_of_le hafterPid
    obtain ⟨size, rest, rfl, hrest⟩ := exists_cons_of_le hbody
    have hsplit : Bytes.splitAt? packetSize (sync :: flags :: pidLow :: control :: size :: rest) =
        some (sync :: flags :: pidLow :: control :: size :: rest.take 183, rest.drop 183) := by
      rw [Bytes.splitAt?_eq_some_iff]
      constructor
      · simp only [List.length_cons, List.length_take, packetSize]
        omega
      · simp only [List.cons_append, List.take_append_drop]
    rw [parseChecked, if_neg hshort, parse, hsplit]
    simp only [index_cons_zero, index_cons_succ, ok_bind, pure_eq_ok]
    by_cases hsync : sync = syncByte
    · rw [if_neg (not_not.2 hsync), if_neg (not_not.2 hsync)]
      by_cases hfield : 2 ≤ control.toNat / 16 % 4
      · rw [if_pos hfield, if_pos hfield, adaptationChecked_eq hrest, ok_bind, splitAdaptation,
          List.length_take_of_le hrest]
        by_cases hover : 183 < size.toNat
        · rw [if_pos hover, if_pos hover]
          rfl
        · rw [if_neg hover, if_neg hover]
          dsimp only
          rw [fromOffsetChecked_eq hrest (by omega) (by rw [packetSize]; omega), ok_bind,
            show 5 + size.toNat - 4 = size.toNat + 1 by omega, List.drop_succ_cons]
          rfl
      · rw [if_neg hfield, if_neg hfield, fromOffsetChecked_eq hrest le_rfl (by decide), ok_bind]
        rfl
    · rw [if_pos hsync, if_pos hsync]

end Packet

/-! ## Cutting packets -/

/-- Drop what stands before the first sync byte, unless there is none. -/
def huntChecked (pending : Bytes) : Checked (Option Bytes) := do
  if pending.isEmpty then
    return some pending
  else
    let first ← index pending 0
    if first = syncByte then
      return some pending
    else
      match pending.findIdx? (· = syncByte) with
      | some position => return some (← slice pending position pending.length)
      | none => return none

/-- How far cutting has come. -/
structure Cutting where
  /-- The packets that were cut. -/
  packets : List Bytes
  /-- How many they are. -/
  emitted : Nat
  /-- What is left. -/
  pending : Bytes

namespace Cutting

/-- Cut a packet, or end. -/
def stepChecked (c : Cutting) : Checked (Cutting ⊕ Cutting) := do
  match ← huntChecked c.pending with
  | none => return .inr { c with pending := [] }
  | some pending =>
    if pending.length < packetSize then
      return .inr { c with pending := pending }
    else
      let packet ← slice pending 0 packetSize
      let rest ← slice pending packetSize pending.length
      return .inl ⟨c.packets ++ [packet], ← sum c.emitted 1, rest⟩

/-- What cutting comes to. -/
def finished (c : Cutting) : Cutting where
  packets := c.packets ++ (cutPackets c.pending).1
  emitted := c.emitted + (cutPackets c.pending).1.length
  pending := (cutPackets c.pending).2

end Cutting

/-- Every packet of `bs` and an incomplete one at the end. Each round takes one packet. -/
def cutChecked (bs : Bytes) : Checked Cutting :=
  loop Cutting.stepChecked (bs.length + 1) ⟨[], 0, bs⟩

/-- What is passed ends where the first sync byte is found. -/
theorem seekSync_eq_drop (bs : Bytes) : seekSync bs = bs.drop (bs.findIdx (· = syncByte)) := by
  rw [seekSync, List.dropWhile_eq_drop_findIdx_not]
  simp

/-- Only bytes without a sync byte are dropped as a whole. -/
theorem huntChecked_eq (pending : Bytes) :
    huntChecked pending = .ok (some (seekSync pending)) ∨
      huntChecked pending = .ok none ∧ seekSync pending = [] := by
  cases pending with
  | nil => exact .inl rfl
  | cons first rest =>
    rw [huntChecked, if_neg (by simp), index_cons_zero, ok_bind]
    by_cases hfirst : first = syncByte
    · rw [if_pos hfirst, hfirst, seekSync_cons_sync]
      exact .inl rfl
    · rw [if_neg hfirst]
      cases hposition : (first :: rest).findIdx? (· = syncByte) with
      | none =>
        refine .inr ⟨rfl, ?_⟩
        rw [seekSync_eq_drop, List.findIdx?_eq_none_iff_findIdx_eq.1 hposition, List.drop_length]
      | some position =>
        obtain ⟨hlt, hfound⟩ := List.findIdx?_eq_some_iff_findIdx_eq.1 hposition
        dsimp only
        rw [seekSync_eq_drop, hfound, slice_length hlt.le]
        exact .inl rfl

/-- A round ends with what cutting comes to, or makes the rest shorter. -/
theorem Cutting.stepChecked_cases (c : Cutting) (h : c.emitted + c.pending.length < 2 ^ 63) :
    c.stepChecked = .ok (.inr c.finished) ∨
      ∃ next, c.stepChecked = .ok (.inl next) ∧
        next.emitted + next.pending.length < 2 ^ 63 ∧
        next.pending.length < c.pending.length ∧ next.finished = c.finished := by
  rw [stepChecked]
  rcases huntChecked_eq c.pending with hhunt | ⟨hhunt, hnone⟩
  · rw [hhunt, ok_bind]
    dsimp only
    rcases seekSync_cases c.pending with hshort | ⟨packet, rest, hsize, hseek, hless⟩
    · rw [if_pos hshort, finished, cutPackets_of_short hshort, List.append_nil]
      exact .inl rfl
    · have hlength : (seekSync c.pending).length = packetSize + rest.length := by
        rw [hseek, List.length_append, hsize]
      have hle := length_seekSync_le c.pending
      have hpos : 0 < packetSize := by decide
      refine .inr ⟨⟨c.packets ++ [packet], c.emitted + 1, rest⟩, ?_, ?_, hless, ?_⟩
      · rw [if_neg (by omega), slice_zero (by omega), ok_bind, slice_length (by omega), ok_bind,
          sum_of_lt (by omega), hseek, ← hsize, List.take_left, List.drop_left]
        rfl
      · dsimp only
        omega
      · rw [finished, finished, cutPackets_of_packet hsize hseek, List.append_assoc,
          List.length_cons]
        dsimp only
        rw [List.singleton_append, Nat.add_assoc, Nat.add_comm 1]
  · have hshort : (seekSync c.pending).length < packetSize := by
      rw [hnone]
      decide
    rw [hhunt, ok_bind, finished, cutPackets_of_short hshort, hnone, List.append_nil]
    exact .inl rfl

/-- Cutting ends, and faults nowhere in a buffer. -/
theorem cutChecked_eq {bs : Bytes} (h : bs.length < capacity) :
    cutChecked bs = .ok ⟨(cutPackets bs).1, (cutPackets bs).1.length, (cutPackets bs).2⟩ := by
  have hloop : loop Cutting.stepChecked (bs.length + 1) ⟨[], 0, bs⟩ =
      .ok (Cutting.finished ⟨[], 0, bs⟩) := by
    refine loop_eq (fun c : Cutting => c.emitted + c.pending.length < 2 ^ 63)
      (fun c => c.pending.length) Cutting.finished Cutting.stepChecked_cases ?_
      (Nat.lt_succ_self _)
    dsimp only
    rwa [Nat.zero_add]
  rw [cutChecked, hloop, Cutting.finished, List.nil_append, Nat.zero_add]

/-- Packets and the rest take no more bytes than there are. -/
theorem length_cutPackets_le (bs : Bytes) :
    packetSize * (cutPackets bs).1.length + (cutPackets bs).2.length ≤ bs.length := by
  induction bs using packet_induction with
  | short bs hshort =>
    rw [cutPackets_of_short hshort, List.length_nil, Nat.mul_zero, Nat.zero_add]
    exact length_seekSync_le bs
  | packet bs packet rest hsize hseek ih =>
    have hlength : (seekSync bs).length = packetSize + rest.length := by
      rw [hseek, List.length_append, hsize]
    have hle := length_seekSync_le bs
    rw [cutPackets_of_packet hsize hseek, List.length_cons, Nat.mul_succ]
    dsimp only
    omega

namespace Aligner

/-- What becomes of a datagram: less than a packet is left pending, and packets that are given and
what is pending were pending before or come with the datagram. -/
theorem push_sizes {a : Aligner} (h : a.pending.length < packetSize) (datagram : Bytes) :
    (a.push datagram).2.pending.length < packetSize ∧
      (∀ packets, (a.push datagram).1 = .ok packets →
        packetSize * packets.length + (a.push datagram).2.pending.length ≤
          a.pending.length + datagram.length) ∧
      ∀ fault, (a.push datagram).1 = .error fault →
        (a.push datagram).2.pending.length ≤ a.pending.length := by
  rw [push]
  cases a.refusal? datagram with
  | some fault =>
    cases fault with
    | empty =>
      refine ⟨h, ?_, fun _ _ => le_rfl⟩
      intro packets hok
      cases hok
    | misaligned offset found =>
      refine ⟨(by decide : 0 < packetSize), ?_, fun _ _ => Nat.zero_le _⟩
      intro packets hok
      cases hok
  | none =>
    have hle := length_cutPackets_le (a.pending ++ datagram)
    rw [List.length_append] at hle
    refine ⟨length_pending_lt _, ?_, ?_⟩
    · rintro packets ⟨⟩
      exact hle
    · intro fault herror
      cases herror

/-- What is wrong with a datagram, with the position of the packet boundary computed in words. -/
def refusalChecked (a : Aligner) (datagram : Bytes) : Checked (Option DatagramFault) := do
  if datagram.isEmpty then
    return some .empty
  else if a.synced then
    let missing ← difference packetSize a.pending.length
    let offset := missing % packetSize
    if offset < datagram.length then
      let found ← index datagram offset
      return if found = syncByte then none else some (.misaligned offset found)
    else
      return none
  else
    return none

/-- Accept a datagram and give the packets it completes, or refuse it. -/
def pushChecked (a : Aligner) (datagram : Bytes) :
    Checked (Except DatagramFault (List Bytes) × Aligner) := do
  match ← a.refusalChecked datagram with
  | some .empty => return (.error .empty, a)
  | some fault => return (.error fault, initial)
  | none =>
    let buffer ← extend a.pending datagram
    let cut ← cutChecked buffer
    return (.ok cut.packets,
      { pending := cut.pending, synced := 0 < cut.emitted || !cut.pending.isEmpty })

theorem refusalChecked_eq {a : Aligner} (h : a.pending.length < packetSize) (datagram : Bytes) :
    a.refusalChecked datagram = .ok (a.refusal? datagram) := by
  rw [refusalChecked, refusal?]
  by_cases hempty : datagram.isEmpty = true
  · rw [if_pos hempty, if_pos hempty]
    rfl
  · rw [if_neg hempty, if_neg hempty]
    cases hsynced : a.synced with
    | false => rfl
    | true =>
      rw [if_pos rfl, if_pos rfl, difference_of_le h.le, ok_bind]
      dsimp only
      rw [← boundary]
      by_cases hoffset : a.boundary < datagram.length
      · rw [if_pos hoffset, index_of_getElem? (List.getElem?_eq_getElem hoffset), ok_bind,
          List.getElem?_eq_getElem hoffset]
        rfl
      · rw [if_neg hoffset, List.getElem?_eq_none (Nat.not_lt.1 hoffset)]
        rfl

/-- The boundary would be below zero behind a whole packet and more. -/
example : refusalChecked ⟨List.replicate 189 0x00, true⟩ [0x00] = .error .underflow := by
  cbv

/-- Taking a datagram faults nowhere, unless the buffer gets full. -/
theorem gives_pushChecked {a : Aligner} {datagram : Bytes} {received : Nat}
    (hpending : a.pending.length < packetSize)
    (hreceived : a.pending.length + datagram.length ≤ received) :
    Gives received (a.pushChecked datagram) (a.push datagram) True := by
  rw [pushChecked, refusalChecked_eq hpending, ok_bind, push]
  cases a.refusal? datagram with
  | some fault => cases fault <;> exact .ok _ trivial
  | none =>
    refine (gives_extend hreceived).bind fun hlt => .of_eq ?_ trivial
    rw [cutChecked_eq hlt, ok_bind]
    obtain ⟨packets, pending⟩ := cutPackets (a.pending ++ datagram)
    cases packets <;> rfl

end Aligner

/-! ## Counting packets -/

/-- What is known of a packet that was read. -/
structure Packet.IsBounded (p : Packet) : Prop where
  /-- The continuity counter has four bits. -/
  continuity_lt : p.continuity < 16
  /-- The payload is a part of the packet. -/
  payload_lt : p.payload.length < packetSize

theorem Packet.length_splitAdaptation_le {body rest : Bytes} {discontinuity : Bool}
    (h : splitAdaptation body = .ok (discontinuity, rest)) : rest.length ≤ body.length := by
  cases body with
  | nil =>
    cases h
    rfl
  | cons size content =>
    rw [splitAdaptation] at h
    split at h
    next => cases h
    next =>
      cases h
      rw [List.length_drop, List.length_cons]
      omega

theorem Packet.isBounded_of_parse {bs : Bytes} {p : Packet} (h : parse bs = .ok p) :
    p.IsBounded := by
  rw [parse] at h
  split at h
  next sync flags pidLow control body rest hsplit =>
    obtain ⟨hsize, -⟩ := Bytes.splitAt?_eq_some_iff.1 hsplit
    simp only [List.length_cons] at hsize
    split at h
    next => cases h
    next =>
      dsimp only at h
      generalize hbody : (if 2 ≤ control.toNat / 16 % 4 then splitAdaptation body
        else .ok (false, body)) = result at h
      cases result with
      | error fault => cases h
      | ok result =>
        obtain ⟨discontinuity, payload⟩ := result
        have hle : payload.length ≤ body.length := by
          split at hbody
          next => exact length_splitAdaptation_le hbody
          next =>
            cases hbody
            exact le_rfl
        cases h
        refine ⟨Nat.mod_lt _ (by decide), ?_⟩
        dsimp only
        split
        next => omega
        next => exact (by decide : 0 < packetSize)
  next => cases h

namespace Analyzer

/-- What is known after so many packets. -/
structure IsBounded (packets : Nat) (a : Analyzer) : Prop where
  /-- No packet is counted twice. -/
  total_le : a.quality.total ≤ packets
  /-- No gap is counted twice. -/
  dropped_le : a.quality.dropped ≤ packets
  /-- No scrambled packet is counted twice. -/
  scrambled_le : a.quality.scrambled ≤ packets
  /-- No damaged packet is counted twice. -/
  damaged_le : a.quality.damaged ≤ packets
  /-- The continuity counters have four bits. -/
  lastCounter_lt : ∀ {pid last : Nat}, a.lastCounter[pid]? = some last → last < 16

theorem isBounded_initial (packets : Nat) : initial.IsBounded packets where
  total_le := Nat.zero_le _
  dropped_le := Nat.zero_le _
  scrambled_le := Nat.zero_le _
  damaged_le := Nat.zero_le _
  lastCounter_lt h := by simp [initial] at h

/-- The counter that is due next, in words of eight bits. -/
def expectedChecked (a : Analyzer) (pid : Nat) : Checked (Option Nat) := do
  match a.lastCounter[pid]? with
  | none => return none
  | some last =>
    let following ← word 8 (last + 1)
    return some (following % 16)

/-- Count an event that may have happened. -/
def nextIf (happened : Bool) (count : Nat) : Checked Nat :=
  if happened then next count else .ok count

/-- Count a packet; the answer says whether it shows a gap. -/
def observeChecked (a : Analyzer) (p : Packet) : Checked (Bool × Analyzer) := do
  let total ← next a.quality.total
  let damaged ← nextIf p.transportError a.quality.damaged
  let scrambled ← nextIf p.isScrambled a.quality.scrambled
  if exempt p then
    return (false, ⟨⟨total, a.quality.dropped, scrambled, damaged⟩, a.lastCounter⟩)
  else
    let expected ← a.expectedChecked p.pid
    let gap := expected.any (· ≠ p.continuity) && !p.discontinuity
    let dropped ← nextIf gap a.quality.dropped
    return (gap, ⟨⟨total, dropped, scrambled, damaged⟩, a.lastCounter.insert p.pid p.continuity⟩)

theorem gives_nextIf {received count : Nat} (happened : Bool) (h : count < received) :
    Gives received (nextIf happened count) (count + if happened then 1 else 0) True := by
  cases happened with
  | true => exact gives_next h
  | false => exact .ok count trivial

theorem expectedChecked_eq {packets : Nat} {a : Analyzer} (h : a.IsBounded packets) (pid : Nat) :
    a.expectedChecked pid = .ok (a.lastCounter[pid]?.map fun last => (last + 1) % 16) := by
  rw [expectedChecked]
  cases hlast : a.lastCounter[pid]? with
  | none => rfl
  | some last =>
    have hlt := h.lastCounter_lt hlast
    dsimp only
    rw [word_of_lt (by omega)]
    rfl

/-- Counting a packet faults nowhere, unless a count is at its end. -/
theorem gives_observeChecked {packets received : Nat} {a : Analyzer} (h : a.IsBounded packets)
    (hreceived : packets < received) (p : Packet) :
    Gives received (a.observeChecked p) (a.observe p) True := by
  have hlt {count : Nat} (hle : count ≤ packets) : count < received := by omega
  rw [observeChecked]
  refine (gives_next (hlt h.total_le)).bind fun _ => ?_
  refine (gives_nextIf _ (hlt h.damaged_le)).bind fun _ => ?_
  refine (gives_nextIf _ (hlt h.scrambled_le)).bind fun _ => ?_
  cases hexempt : exempt p with
  | true =>
    refine .of_eq ?_ trivial
    simp [observe, gap, hexempt]
  | false =>
    rw [expectedChecked_eq h, ok_bind]
    refine (gives_nextIf _ (hlt h.dropped_le)).bind fun _ => .of_eq ?_ trivial
    have hgap : ((a.lastCounter[p.pid]?.map fun last => (last + 1) % 16).any
        (· ≠ p.continuity) && !p.discontinuity) = a.gap p := by
      rw [gap, hexempt, Option.any_map, Bool.and_comm]
      rfl
    rw [hgap, observe, hexempt]
    rfl

theorem IsBounded.observe {packets : Nat} {a : Analyzer} (h : a.IsBounded packets) {p : Packet}
    (hp : p.IsBounded) : (a.observe p).2.IsBounded (packets + 1) := by
  have hif {count : Nat} (happened : Bool) (hle : count ≤ packets) :
      (count + if happened then 1 else 0) ≤ packets + 1 := by
    split <;> omega
  refine ⟨Nat.add_le_add_right h.total_le 1, hif _ h.dropped_le, hif _ h.scrambled_le,
    hif _ h.damaged_le, ?_⟩
  intro pid last hlast
  simp only [Analyzer.observe] at hlast
  split at hlast
  next => exact h.lastCounter_lt hlast
  next =>
    rw [Std.ExtTreeMap.getElem?_insert] at hlast
    split at hlast
    next =>
      cases hlast
      exact hp.continuity_lt
    next => exact h.lastCounter_lt hlast

end Analyzer

end StreamCatalog.Transport
