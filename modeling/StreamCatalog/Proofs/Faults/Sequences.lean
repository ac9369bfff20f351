import StreamCatalog.Proofs.Faults.Packets
import StreamCatalog.Proofs.Transport.Resync

/-!
# Reading a whole buffer without faults

Reading the packets of a buffer in sequence goes from offset to offset: behind a
packet that was read, or to the next sync byte where none can be read. Both loops
end, neither reads behind the end, and together they give what `Packet.sequence`
gives (`sequenceChecked_eq`).
-/

namespace StreamCatalog.Transport.Packet

open Checked

/-! ## Looking for a sync byte -/

/-- Go on by a byte that is no sync byte. -/
def seekChecked (data : Bytes) (offset : Nat) : Checked (Nat ⊕ Nat) := do
  if offset < data.length then
    let b ← index data offset
    if b ≠ syncByte then return .inl (← sum offset 1) else return .inr offset
  else
    return .inr offset

/-- The offset of the next sync byte, or the end. -/
def resyncChecked (data : Bytes) (offset : Nat) : Checked Nat := do
  loop (seekChecked data) (data.length + 1) (← sum offset 1)

/-- Where the next sync byte stands, from an offset on. -/
def seekOffset (data : Bytes) (offset : Nat) : Nat :=
  offset + (data.drop offset).findIdx (· = syncByte)

theorem seekOffset_le {data : Bytes} {offset : Nat} (h : offset ≤ data.length) :
    seekOffset data offset ≤ data.length := by
  have hle : (data.drop offset).findIdx (· = syncByte) ≤ (data.drop offset).length :=
    List.findIdx_le_length
  rw [List.length_drop] at hle
  rw [seekOffset]
  omega

theorem drop_seekOffset (data : Bytes) (offset : Nat) :
    data.drop (seekOffset data offset) = seekSync (data.drop offset) := by
  rw [seekOffset, ← List.drop_drop, ← seekSync_eq_drop]

/-- A step ends at a sync byte or the end, or goes one byte nearer. -/
theorem seekChecked_advances {data : Bytes} (hdata : data.length < capacity) (offset : Nat) :
    Advances (seekChecked data) id data.length (seekOffset data) offset := by
  rw [capacity] at hdata
  rw [Advances, seekChecked]
  by_cases hlt : offset < data.length
  · have hdrop := List.drop_eq_getElem_cons hlt
    rw [if_pos hlt, index_of_getElem? (List.getElem?_eq_getElem hlt), ok_bind]
    by_cases hsync : data[offset] = syncByte
    · left
      rw [if_neg (not_not.2 hsync), seekOffset, hdrop, List.findIdx_cons, hsync]
      rfl
    · right
      refine ⟨offset + 1, ?_, Nat.lt_succ_self offset, hlt, ?_⟩
      · rw [if_pos hsync, sum_of_lt (by omega)]
        rfl
      · rw [seekOffset, seekOffset, hdrop, List.findIdx_cons, decide_eq_false hsync, cond_false]
        omega
  · left
    rw [if_neg hlt, seekOffset, List.drop_of_length_le (Nat.not_lt.1 hlt)]
    rfl

/-- Looking for a sync byte ends, and faults nowhere in a buffer. -/
theorem resyncChecked_eq {data : Bytes} (hdata : data.length < capacity) {offset : Nat}
    (h : offset < data.length) :
    resyncChecked data offset = .ok (seekOffset data (offset + 1)) := by
  have hcapacity : capacity = 2 ^ 63 := rfl
  rw [resyncChecked, sum_of_lt (by omega), ok_bind]
  exact loop_eq_of_advances (fun offset _ => seekChecked_advances hdata offset) h

/-! ## Reading packets -/

/-- How far reading has come. -/
structure Reading where
  /-- The packets that were read. -/
  packets : List Packet
  /-- Where reading goes on. -/
  offset : Nat

namespace Reading

/-- Read a packet, pass what is none, or end. -/
def stepChecked (data : Bytes) (r : Reading) : Checked (Reading ⊕ List Packet) := do
  let stop ← sum r.offset packetSize
  if data.length < stop then
    return .inr r.packets
  else
    let first ← index data r.offset
    if first ≠ syncByte then
      return .inl { r with offset := ← resyncChecked data r.offset }
    else
      match ← parseChecked (← slice data r.offset data.length) with
      | .ok p => return .inl ⟨r.packets ++ [p], ← sum r.offset packetSize⟩
      | .error _ => return .inl { r with offset := ← resyncChecked data r.offset }

/-- What reading comes to. -/
def finished (data : Bytes) (r : Reading) : List Packet :=
  r.packets ++ sequence (data.drop r.offset)

/-- Nothing is missed where no packet can be read. -/
theorem finished_resync {data : Bytes} {r : Reading} (hlt : r.offset < data.length)
    (hnone : ∀ p, parse (data.drop r.offset) ≠ .ok p) :
    finished data { r with offset := seekOffset data (r.offset + 1) } = r.finished data := by
  rw [finished, finished, drop_seekOffset, sequence_seekSync]
  dsimp only
  rw [List.drop_eq_getElem_cons hlt] at hnone ⊢
  rw [sequence_cons_of_error hnone]

/-- Reading goes on behind a packet. -/
theorem finished_packet {data : Bytes} {r : Reading} {p : Packet}
    (hle : r.offset + packetSize ≤ data.length) (hparse : parse (data.drop r.offset) = .ok p) :
    finished data ⟨r.packets ++ [p], r.offset + packetSize⟩ = r.finished data := by
  have hpacket : ((data.drop r.offset).take packetSize).length = packetSize := by
    rw [List.length_take, List.length_drop]
    omega
  have hsplit := List.take_append_drop packetSize (data.drop r.offset)
  rw [← hsplit, parse_append hpacket] at hparse
  rw [finished, finished, ← hsplit, sequence_append_of_ok hpacket hparse, List.drop_drop,
    List.append_assoc]
  rfl

/-- A step ends, or goes on behind what was read or passed. -/
theorem stepChecked_advances {data : Bytes} (hdata : data.length < capacity) (r : Reading)
    (h : r.offset ≤ data.length) :
    Advances (stepChecked data) offset data.length (finished data) r := by
  have hcapacity : capacity = 2 ^ 63 := rfl
  have hsize : packetSize = 188 := rfl
  rw [Advances, stepChecked, sum_of_lt (by omega), ok_bind]
  by_cases hshort : data.length < r.offset + packetSize
  · have hdrop : (data.drop r.offset).length < packetSize := by
      rw [List.length_drop]
      omega
    rw [if_pos hshort, finished, sequence_of_short hdrop, List.append_nil]
    exact .inl rfl
  · right
    have hlt : r.offset < data.length := by omega
    have hless : r.offset < seekOffset data (r.offset + 1) := Nat.le_add_right _ _
    have hle : seekOffset data (r.offset + 1) ≤ data.length := seekOffset_le hlt
    rw [if_neg hshort, index_of_getElem? (List.getElem?_eq_getElem hlt), resyncChecked_eq hdata hlt,
      slice_length h]
    simp only [ok_bind, parseChecked_eq]
    by_cases hsync : data[r.offset] = syncByte
    · rw [if_neg (not_not.2 hsync)]
      cases hparse : parse (data.drop r.offset) with
      | ok p =>
        have hend : r.offset + packetSize ≤ data.length := Nat.not_lt.1 hshort
        exact ⟨⟨r.packets ++ [p], r.offset + packetSize⟩, rfl, Nat.lt_add_of_pos_right (by decide),
          hend, finished_packet hend hparse⟩
      | error fault =>
        refine ⟨_, rfl, hless, hle, finished_resync hlt fun p hp => ?_⟩
        rw [hparse] at hp
        cases hp
    · rw [if_pos hsync]
      refine ⟨_, rfl, hless, hle, finished_resync hlt fun p hp => ?_⟩
      obtain ⟨-, rest, hrest⟩ := of_parse_eq_ok hp
      rw [List.drop_eq_getElem_cons hlt] at hrest
      exact hsync (List.cons.inj hrest).1

end Reading

/-- Every packet of a buffer, in order. -/
def sequenceChecked (data : Bytes) : Checked (List Packet) :=
  loop (Reading.stepChecked data) (data.length + 1) ⟨[], 0⟩

/-- Reading a buffer in sequence ends, and faults nowhere. -/
theorem sequenceChecked_eq {data : Bytes} (h : data.length < capacity) :
    sequenceChecked data = .ok (sequence data) :=
  loop_eq_of_advances (Reading.stepChecked_advances h) (Nat.zero_le _)

end StreamCatalog.Transport.Packet
