import StreamCatalog.Proofs.Faults.LocalSets
import StreamCatalog.Proofs.Klv.Completeness

/-!
# Looking for units without faults

A scanner that keeps a position in a buffer, looks for the next key from there and
cuts units out between offsets ends, faults nowhere and finds what `scan` finds.
Each round leaves at least the bytes of a key behind.
-/

namespace StreamCatalog.Klv

open Checked

/-- Where the universal key stands first. -/
def keyPosition? : Bytes → Option Nat
  | [] => none
  | b :: rest =>
    if universalKey.isPrefixOf (b :: rest) then some 0 else (keyPosition? rest).map (· + 1)

/-- How far a scanner has come. -/
structure ScanCursor where
  /-- The units and faults that were found. -/
  found : List (Except Error Unit)
  /-- Where the search goes on. -/
  offset : Nat

namespace ScanCursor

/-- Frame the unit whose key starts at an offset. -/
def frameChecked (data : Bytes) (c : ScanCursor) (start : Nat) : Checked ScanCursor := do
  let lengthOffset ← sum start keySize
  match ← Ber.decodeLengthChecked data lengthOffset with
  | .error fault =>
    return ⟨c.found ++ [.error (.ofLengthFault lengthOffset fault)], lengthOffset⟩
  | .ok (length, lengthSize) =>
    let valueStart ← sum lengthOffset lengthSize
    let stop ← sum valueStart length
    if data.length < stop then
      let actual ← difference data.length valueStart
      return ⟨c.found ++ [.error (.truncatedUnit length actual)], lengthOffset⟩
    else
      let bytes ← slice data start stop
      let value ← slice data valueStart stop
      return ⟨c.found ++ [.ok ⟨bytes.take (valueStart - start), value⟩], stop⟩

/-- Find the next unit, or end. -/
def stepChecked (data : Bytes) (c : ScanCursor) :
    Checked (ScanCursor ⊕ List (Except Error Unit)) := do
  match keyPosition? (data.drop c.offset) with
  | none => return .inr c.found
  | some position => return .inl (← c.frameChecked data (← sum c.offset position))

/-- What scanning comes to. -/
def finished (data : Bytes) (c : ScanCursor) : List (Except Error Unit) :=
  c.found ++ scanFrom c.offset (data.drop c.offset)

end ScanCursor

/-- The units and framing faults of a buffer. Each round finds one. -/
def scanChecked (data : Bytes) : Checked (List (Except Error Unit)) :=
  loop (ScanCursor.stepChecked data) (data.length + 1) ⟨[], 0⟩

theorem scanFrom_of_keyPosition?_eq_none {offset : Nat} {bs : Bytes}
    (h : keyPosition? bs = none) : scanFrom offset bs = [] := by
  induction bs generalizing offset with
  | nil => rw [scanFrom]
  | cons b rest ih =>
    rw [keyPosition?] at h
    split at h
    next => cases h
    next hnone =>
      rw [scanFrom, if_neg hnone]
      exact ih (Option.map_eq_none_iff.1 h)

/-- The search goes on at the first key. -/
theorem scanFrom_of_keyPosition?_eq_some (offset : Nat) {position : Nat} {bs : Bytes}
    (h : keyPosition? bs = some position) :
    universalKey <+: bs.drop position ∧
      scanFrom offset bs = scanFrom (offset + position) (bs.drop position) := by
  induction bs generalizing offset position with
  | nil => cases h
  | cons b rest ih =>
    rw [keyPosition?] at h
    split at h
    next hkey =>
      cases h
      exact ⟨List.isPrefixOf_iff_prefix.1 hkey, rfl⟩
    next hnone =>
      obtain ⟨later, hlater, rfl⟩ := Option.map_eq_some_iff.1 h
      obtain ⟨hfound, hscan⟩ := ih (offset + 1) hlater
      rw [scanFrom, if_neg hnone, hscan, Nat.add_assoc, Nat.add_comm 1]
      exact ⟨hfound, rfl⟩

/-- The unit at a key, or why there is none, and where the search goes on. -/
theorem ScanCursor.frameChecked_eq {data : Bytes} (h : data.length < capacity) {start : Nat}
    (hkey : universalKey <+: data.drop start) (c : ScanCursor) :
    c.frameChecked data start =
      .ok (match frameUnit (start + keySize) (data.drop (start + keySize)) with
        | .error e => ⟨c.found ++ [.error e], start + keySize⟩
        | .ok (unit, n) => ⟨c.found ++ [.ok unit], start + keySize + n⟩) := by
  have hcapacity : capacity = 2 ^ 63 := rfl
  have hle := add_keySize_le_length hkey
  rw [frameChecked, sum_of_lt (by omega), ok_bind, Ber.decodeLengthChecked_eq h, ok_bind,
    frameUnit]
  cases hlength : Ber.decodeLength (data.drop (start + keySize)) with
  | error fault => rfl
  | ok result =>
    obtain ⟨length, lengthSize⟩ := result
    have hlengthSize := (Ber.decodeLength_consumed hlength).2
    have hlt := Ber.decodeLength_lt hlength
    rw [List.length_drop] at hlengthSize
    dsimp only
    rw [sum_of_lt (by omega), ok_bind, sum_of_lt (by omega), ok_bind, List.drop_drop,
      List.length_drop]
    by_cases hlong : data.length < start + keySize + lengthSize + length
    · rw [if_pos hlong, difference_of_le (by omega), ok_bind,
        Bytes.splitAt?_eq_none_iff.2 (by rw [List.length_drop]; omega), Nat.sub_sub]
      rfl
    · obtain ⟨body, hbody⟩ := hkey
      have hdrop : data.drop (start + keySize) = body := by
        rw [← List.drop_drop, ← hbody, keySize, List.drop_left]
      have hsplit : Bytes.splitAt? length (data.drop (start + keySize + lengthSize)) =
          some ((data.drop (start + keySize + lengthSize)).take length,
            (data.drop (start + keySize + lengthSize)).drop length) := by
        refine Bytes.splitAt?_eq_some_iff.2 ⟨?_, (List.take_append_drop _ _).symm⟩
        rw [List.length_take, List.length_drop]
        omega
      have hheader : ((data.drop start).take (start + keySize + lengthSize + length - start)).take
          (start + keySize + lengthSize - start) = universalKey ++ body.take lengthSize := by
        rw [List.take_take, Nat.min_eq_left (by omega), Nat.add_assoc, Nat.add_sub_cancel_left,
          ← hbody, keySize, List.take_length_add_append]
      rw [if_neg hlong, slice_of_le (by omega) (by omega), ok_bind,
        slice_of_le (by omega) (by omega), ok_bind, hsplit, hheader, hdrop,
        Nat.add_sub_cancel_left]
      dsimp only
      rw [← Nat.add_assoc]
      rfl

/-- What is framed is within the buffer. -/
theorem frameUnit_size_le {offset n : Nat} {bs : Bytes} {unit : Unit}
    (h : frameUnit offset bs = .ok (unit, n)) :
    unit.bytes.length = keySize + n ∧ n ≤ bs.length := by
  obtain ⟨_, _, _, _, hle, hbytes⟩ := frameUnit_eq_ok h
  rw [hbytes, List.length_append, List.length_take_of_le hle]
  exact ⟨rfl, hle⟩

/-- A round ends, or goes on behind what was found. -/
theorem ScanCursor.stepChecked_advances {data : Bytes} (h : data.length < capacity)
    (c : ScanCursor) : Advances (stepChecked data) offset data.length (finished data) c := by
  have hcapacity : capacity = 2 ^ 63 := rfl
  have hpos : 0 < keySize := by decide
  rw [Advances, stepChecked, finished]
  cases hposition : keyPosition? (data.drop c.offset) with
  | none =>
    rw [scanFrom_of_keyPosition?_eq_none hposition, List.append_nil]
    exact .inl rfl
  | some position =>
    obtain ⟨hkey, hscan⟩ := scanFrom_of_keyPosition?_eq_some c.offset hposition
    rw [List.drop_drop] at hkey hscan
    have hkeySize := add_keySize_le_length hkey
    obtain ⟨body, hbody⟩ := hkey
    have hdrop : data.drop (c.offset + position + keySize) = body := by
      rw [← List.drop_drop, ← hbody, keySize, List.drop_left]
    dsimp only
    rw [sum_of_lt (by omega), ok_bind, frameChecked_eq h ⟨body, hbody⟩, ok_bind, hscan, ← hbody,
      scanFrom_key, hdrop]
    refine .inr ⟨_, rfl, ?_⟩
    cases hframe : frameUnit (c.offset + position + keySize) body with
    | error e =>
      refine ⟨?_, hkeySize, ?_⟩
      · dsimp only
        omega
      · rw [finished, hdrop, List.append_assoc]
        rfl
    | ok result =>
      obtain ⟨unit, n⟩ := result
      have hn := (frameUnit_size_le hframe).2
      rw [← hdrop, List.length_drop] at hn
      refine ⟨?_, ?_, ?_⟩
      · dsimp only
        omega
      · dsimp only
        omega
      · rw [finished, ← List.drop_drop, hdrop, List.append_assoc]
        rfl

/-- Scanning ends, and faults nowhere in a buffer. -/
theorem scanChecked_eq {data : Bytes} (h : data.length < capacity) :
    scanChecked data = .ok (scan data) := by
  rw [scanChecked,
    loop_eq_of_advances (fun c _ => ScanCursor.stepChecked_advances h c) (Nat.zero_le _),
    ScanCursor.finished, scan, List.drop_zero, List.nil_append]

/-- Everything that is found takes at least one byte. -/
theorem length_scanFrom_le (offset : Nat) (bs : Bytes) :
    (scanFrom offset bs).length ≤ bs.length := by
  have hpos : 0 < keySize := by decide
  fun_induction scanFrom offset bs with
  | case1 => exact Nat.le_refl _
  | case2 offset b rest hkey body e hframe ih =>
    simp only [body, List.length_cons, List.length_drop] at ih ⊢
    omega
  | case3 offset b rest hkey body unit n hframe ih =>
    simp only [body, List.length_cons, List.length_drop] at ih ⊢
    omega
  | case4 offset b rest hkey ih =>
    rw [List.length_cons]
    omega

/-- A unit that is found is within the buffer. -/
theorem length_bytes_le_of_mem_scanFrom {offset : Nat} {bs : Bytes} {unit : Unit}
    (h : .ok unit ∈ scanFrom offset bs) : unit.bytes.length ≤ bs.length := by
  fun_induction scanFrom offset bs with
  | case1 => cases h
  | case2 offset b rest hkey body e hframe ih =>
    have hle := ih (List.mem_of_ne_of_mem (by simp) h)
    simp only [body, List.length_drop] at hle
    omega
  | case3 offset b rest hkey body found n hframe ih =>
    obtain ⟨hsize, hn⟩ := frameUnit_size_le hframe
    have hfound := (List.isPrefixOf_iff_prefix.1 hkey).length_le
    simp only [body, List.length_drop] at hn
    rcases List.mem_cons.1 h with hfound | hlater
    · cases hfound
      rw [keySize] at hsize hn
      omega
    · have hle := ih hlater
      simp only [body, List.length_drop] at hle
      omega
  | case4 offset b rest hkey ih =>
    exact Nat.le_succ_of_le (ih h)

end StreamCatalog.Klv
