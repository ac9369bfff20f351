import StreamCatalog.Pes
import StreamCatalog.Proofs.Transport.Fragments

/-!
# Units put together again

The packets that carry a unit give back exactly that unit, at the last of them,
and leave an assembler that collects nothing on their identifier as it was
(`Assembler.pushAll_carriedFragments`). Packets that carry nothing to collect
may stand anywhere between them (`Assembler.pushAll_filter`).
-/

namespace StreamCatalog

/-- Removing an entry that was put in where there was none. -/
theorem erase_insert_of_getElem?_eq_none {β : Type} {m : Std.ExtTreeMap Nat β} {k : Nat}
    (h : m[k]? = none) (v : β) : (m.insert k v).erase k = m := by
  apply Std.ExtTreeMap.ext_getElem?
  intro i
  rw [Std.ExtTreeMap.getElem?_erase, Std.ExtTreeMap.getElem?_insert]
  by_cases hi : compare k i = .eq
  · rw [if_pos hi, ← compare_eq_iff_eq.1 hi, h]
  · rw [if_neg hi, if_neg hi]

/-- Removing an entry that is put in anew. -/
theorem erase_insert_same {β : Type} (m : Std.ExtTreeMap Nat β) (k : Nat) (v : β) :
    (m.insert k v).erase k = m.erase k := by
  apply Std.ExtTreeMap.ext_getElem?
  intro i
  simp only [Std.ExtTreeMap.getElem?_erase, Std.ExtTreeMap.getElem?_insert]
  by_cases hi : compare k i = .eq
  · rw [if_pos hi, if_pos hi]
  · rw [if_neg hi, if_neg hi, if_neg hi]

/-- Removing an entry that is not there. -/
theorem erase_of_getElem?_eq_none {β : Type} {m : Std.ExtTreeMap Nat β} {k : Nat}
    (h : m[k]? = none) : m.erase k = m := by
  apply Std.ExtTreeMap.ext_getElem?
  intro i
  rw [Std.ExtTreeMap.getElem?_erase]
  by_cases hi : compare k i = .eq
  · rw [if_pos hi, ← compare_eq_iff_eq.1 hi, h]
  · rw [if_neg hi]

/-- An entry of a map, and the others. -/
theorem toList_perm_of_getElem? {β : Type} {m : Std.ExtTreeMap Nat β} {k : Nat} {v : β}
    (h : m[k]? = some v) : m.toList.Perm ((k, v) :: (m.erase k).toList) := by
  have hnodup : ∀ m : Std.ExtTreeMap Nat β, m.toList.Nodup := fun m =>
    Std.ExtTreeMap.ordered_keys_toList.imp fun hlt heq => by
      rw [heq] at hlt
      simp at hlt
  refine (List.perm_ext_iff_of_nodup (hnodup m) (List.nodup_cons.2 ⟨?_, hnodup _⟩)).2 ?_
  · rw [Std.ExtTreeMap.mem_toList_iff_getElem?_eq_some]
    simp
  · rintro ⟨key, value⟩
    rw [List.mem_cons, Std.ExtTreeMap.mem_toList_iff_getElem?_eq_some,
      Std.ExtTreeMap.mem_toList_iff_getElem?_eq_some, Std.ExtTreeMap.getElem?_erase,
      Prod.mk.injEq]
    by_cases hkey : k = key
    · subst hkey
      simp [h, eq_comm]
    · simp [hkey, Ne.symm hkey]

namespace Pes

open Transport (Packet Fragment nullPid bodySize privateStream privateUnit carriedFragments)

namespace Assembler

/-- Feed packets one after the other. -/
def pushAll (a : Assembler) : List Packet → List Unit × Assembler
  | [] => ([], a)
  | p :: ps =>
    let (units, a) := a.push p
    let (later, a) := pushAll a ps
    (units ++ later, a)

theorem pushAll_cons (a : Assembler) (p : Packet) (ps : List Packet) :
    a.pushAll (p :: ps) =
      ((a.push p).1 ++ ((a.push p).2.pushAll ps).1, ((a.push p).2.pushAll ps).2) := rfl

theorem pushAll_append (a : Assembler) (ps qs : List Packet) :
    a.pushAll (ps ++ qs) =
      ((a.pushAll ps).1 ++ ((a.pushAll ps).2.pushAll qs).1, ((a.pushAll ps).2.pushAll qs).2) := by
  induction ps generalizing a with
  | nil => rfl
  | cons p ps ih =>
    rw [List.cons_append, pushAll_cons, pushAll_cons, ih, List.append_assoc]

/-- Every unit of a run of packets: those that packets complete, then those open at the end. -/
def run (a : Assembler) (ps : List Packet) : List Unit :=
  (a.pushAll ps).1 ++ (a.pushAll ps).2.flush.1

theorem run_cons (a : Assembler) (p : Packet) (ps : List Packet) :
    a.run (p :: ps) = (a.push p).1 ++ (a.push p).2.run ps := by
  simp only [run, pushAll_cons, List.append_assoc]

/-- What is not passed over has no transport error, is not scrambled, is no null packet and carries
something. -/
theorem ignores_eq_false_iff {p : Packet} :
    ignores p = false ↔ p.transportError = false ∧ p.isScrambled = false ∧ p.pid ≠ nullPid ∧
      p.payload ≠ [] := by
  simp only [ignores, Bool.or_eq_false_iff, decide_eq_false_iff_not, List.isEmpty_eq_false_iff,
    and_assoc, ne_eq]

theorem push_of_ignores {a : Assembler} {p : Packet} (h : ignores p = true) :
    a.push p = ([], a) := by
  rw [push, if_pos h]

theorem push_of_unitStart {a : Assembler} {p : Packet} (hcarries : ignores p = false)
    (hstart : p.unitStart = true) : a.push p = a.start p := by
  rw [push, if_neg (by simp [hcarries]), if_pos hstart]

theorem push_of_getElem?_eq_none {a : Assembler} {p : Packet} (hcarries : ignores p = false)
    (hstart : p.unitStart = false) (hu : a.partials[p.pid]? = none) : a.push p = ([], a) := by
  rw [push, if_neg (by simp [hcarries]), if_neg (by simp [hstart]), hu]

theorem push_of_getElem?_eq_some {a : Assembler} {p : Packet} {u : Partial}
    (hcarries : ignores p = false) (hstart : p.unitStart = false)
    (hu : a.partials[p.pid]? = some u) : a.push p = a.extend p u := by
  rw [push, if_neg (by simp [hcarries]), if_neg (by simp [hstart]), hu]

/-- Packets that carry nothing to collect may be left out. -/
theorem pushAll_filter (a : Assembler) (ps : List Packet) :
    a.pushAll (ps.filter fun p => !ignores p) = a.pushAll ps := by
  induction ps generalizing a with
  | nil => rfl
  | cons p ps ih =>
    by_cases h : ignores p = true
    · rw [List.filter_cons_of_neg (by simpa using h), pushAll_cons, push_of_ignores h, ih]
      rfl
    · rw [List.filter_cons_of_pos (by simpa using h), pushAll_cons, pushAll_cons, ih]

/-! ## Carried units -/

/-- The packet of a fragment has something to collect. -/
theorem ignores_packet {f : Fragment} (hpid : f.pid ≠ nullPid) (hpart : f.part ≠ []) :
    ignores f.packet = false := by
  simp [ignores, Fragment.packet, Packet.isScrambled, hpid, hpart]

/-- A fragment that follows on the last one is added to the unit, which ends when it is complete. -/
theorem push_following {a : Assembler} {f : Fragment} {u : Partial} (hpid : f.pid ≠ nullPid)
    (hpart : f.part ≠ []) (hstart : f.unitStart = false) (hu : a.partials[f.pid]? = some u)
    (hcounter : f.counter % 16 = (u.lastCounter + 1) % 16) :
    a.push f.packet =
      let v : Partial := { u with lastCounter := f.counter % 16, data := u.data ++ f.part }
      if v.isComplete then ([v.toUnit f.pid], { a with partials := a.partials.erase f.pid })
      else ([], { a with partials := a.partials.insert f.pid v }) := by
  have hnew : ¬f.counter % 16 = u.lastCounter := by omega
  have hfollows : ¬(f.packet.continuity ≠ (u.lastCounter + 1) % 16 ∧
      f.packet.discontinuity = false) := by
    intro h
    exact h.1 hcounter
  rw [push_of_getElem?_eq_some (ignores_packet hpid hpart) hstart hu, extend,
    if_neg (show ¬f.packet.continuity = u.lastCounter from hnew), if_neg hfollows]
  rfl

/-- The fragments of what is missing of a unit complete it. -/
theorem pushAll_missing {pid counter : Nat} {missing : Bytes} {a : Assembler} {u : Partial}
    {size : Nat} (hpid : pid ≠ nullPid) (hmissing : missing ≠ [])
    (hu : a.partials[pid]? = some u) (hexpected : u.expected = some size)
    (hsize : u.data.length + missing.length = size) (hcounter : u.lastCounter = counter % 16) :
    a.pushAll ((Fragment.ofBytes pid (counter + 1) false missing).map Fragment.packet) =
      ([⟨pid, u.streamId, u.data ++ missing⟩], { a with partials := a.partials.erase pid }) := by
  induction hn : missing.length using Nat.strongRecOn generalizing missing a u counter with
  | ind n ih =>
    subst hn
    have hpart : missing.take bodySize ≠ [] := by
      rw [Ne, List.take_eq_nil_iff]
      rintro (h | h)
      · cases h
      · exact hmissing h
    let f : Fragment := ⟨pid, counter + 1, false, missing.take bodySize⟩
    let v : Partial :=
      { u with lastCounter := (counter + 1) % 16, data := u.data ++ missing.take bodySize }
    have hpush : a.push f.packet =
        if v.isComplete then ([v.toUnit pid], { a with partials := a.partials.erase pid })
        else ([], { a with partials := a.partials.insert pid v }) :=
      push_following (f := f) hpid hpart rfl hu (by simp only [f]; omega)
    have hlength : v.data.length = u.data.length + min bodySize missing.length := by
      simp only [v, List.length_append, List.length_take]
    have hcomplete : v.isComplete = decide (size ≤ v.data.length) := by
      simp only [Partial.isComplete, show v.expected = some size from hexpected, Option.any_some]
    rw [Fragment.ofBytes_of_ne_nil _ _ _ hmissing, List.map_cons, pushAll_cons, hpush, hcomplete,
      hlength]
    by_cases hlast : missing.length ≤ bodySize
    · -- The last fragment: it brings all that is missing.
      have hall : missing.take bodySize = missing := List.take_of_length_le hlast
      have hnone : missing.drop bodySize = [] := List.drop_eq_nil_of_le hlast
      have hunit : v.toUnit pid = ⟨pid, u.streamId, u.data ++ missing⟩ := by
        have hwhole : (u.data ++ missing).take size = u.data ++ missing :=
          List.take_of_length_le (by rw [List.length_append]; omega)
        simp only [Partial.toUnit, v, hall, hexpected, hwhole]
      rw [if_pos (by simp; omega), hnone, Fragment.ofBytes_nil, hunit]
      rfl
    · have hmore : missing.drop bodySize ≠ [] := by
        rw [Ne, List.drop_eq_nil_iff]
        omega
      have hleft : (missing.drop bodySize).length < missing.length := by
        rw [List.length_drop]
        simp only [bodySize] at hlast ⊢
        omega
      have hcounter' : v.lastCounter = (counter + 1) % 16 := rfl
      have hrest := ih _ hleft (a := { a with partials := a.partials.insert pid v }) (u := v)
        hmore (by simp) hexpected (by rw [hlength, List.length_drop]; omega) hcounter' rfl
      rw [if_neg (by simp; omega), hrest]
      simp only [List.nil_append, erase_insert_same, v, List.append_assoc, List.take_append_drop]

/-- The header of the unit that carries some content is read back, and the rest of the packet is
the beginning of the content. -/
theorem startUnit_privateUnit {content : Bytes} (h : content.length ≤ 65532) (counter : Nat) :
    startUnit ((privateUnit content).take bodySize) counter =
      some ⟨privateStream, content.take (bodySize - 9), some content.length, counter⟩ := by
  have hhigh : (UInt8.ofNat ((content.length + 3) / 256)).toNat =
      (content.length + 3) / 256 := by
    rw [UInt8.toNat_ofNat']
    omega
  have hlow : (UInt8.ofNat (content.length + 3)).toNat = (content.length + 3) % 256 :=
    UInt8.toNat_ofNat' ..
  have hunit : (privateUnit content).take bodySize =
      0x00 :: 0x00 :: 0x01 :: privateStream :: UInt8.ofNat ((content.length + 3) / 256) ::
        UInt8.ofNat (content.length + 3) :: 0x80 :: 0x00 :: 0x00 ::
          content.take (bodySize - 9) := by
    simp [privateUnit, Bytes.ofNat, bodySize]
  have hmetadata : metadataStreams.contains privateStream = true := by decide
  have hsplit : Bytes.splitAt? (0x00 : UInt8).toNat (content.take (bodySize - 9)) =
      some ([], content.take (bodySize - 9)) := Bytes.splitAt?_append [] _
  have hdeclared : (content.length + 3) / 256 * 256 + (content.length + 3) % 256 =
      content.length + 3 := by omega
  rw [hunit, startUnit]
  simp only [hmetadata, if_true, hsplit, hhigh, hlow, hdeclared]
  simp

/-- What the first of the packets that carry some content leaves to be collected. -/
def carriedPartial (content : Bytes) (counter : Nat) : Partial :=
  ⟨privateStream, content.take (bodySize - 9), some content.length, counter % 16⟩

/-- The first of the packets that carry some content completes the unit if it holds all of it. -/
theorem push_first {a : Assembler} {pid : Nat} {content : Bytes} (counter : Nat)
    (hpid : pid ≠ nullPid) (hsize : content.length ≤ 65532) (ha : a.partials[pid]? = none) :
    a.push (Fragment.packet ⟨pid, counter, true, (privateUnit content).take bodySize⟩) =
      if content.length ≤ bodySize - 9 then ([⟨pid, privateStream, content⟩], a)
      else ([], { a with partials := a.partials.insert pid (carriedPartial content counter) }) := by
  let f : Fragment := ⟨pid, counter, true, (privateUnit content).take bodySize⟩
  have hpart : f.part ≠ [] := by
    simp [f, privateUnit, bodySize]
  have hended : a.partials[f.packet.pid]? = none := ha
  have hothers : a.partials.erase f.packet.pid = a.partials := erase_of_getElem?_eq_none ha
  have hstart : startUnit f.packet.payload f.packet.continuity =
      some (carriedPartial content counter) := startUnit_privateUnit hsize _
  have hcomplete : (carriedPartial content counter).isComplete =
      decide (content.length ≤ bodySize - 9) := by
    simp only [Partial.isComplete, carriedPartial, Option.any_some, List.length_take,
      decide_eq_decide]
    omega
  show a.push f.packet = _
  rw [push_of_unitStart (ignores_packet hpid hpart) rfl, start, hstart, hended, hothers]
  by_cases hshort : content.length ≤ bodySize - 9
  · have hall : (carriedPartial content counter).toUnit pid = ⟨pid, privateStream, content⟩ := by
      simp [Partial.toUnit, carriedPartial, List.take_of_length_le hshort]
    rw [if_pos hshort, ← hall]
    simp [hcomplete, hshort]
    rfl
  · rw [if_neg hshort]
    simp [hcomplete, hshort]
    rfl

/-- Where nothing is collected, the packets that carry a unit give that unit and leave nothing. -/
theorem pushAll_carriedFragments {a : Assembler} {pid : Nat} {content : Bytes} (counter : Nat)
    (hpid : pid ≠ nullPid) (hsize : content.length ≤ 65532) (ha : a.partials[pid]? = none) :
    a.pushAll ((carriedFragments pid content counter).map Fragment.packet) =
      ([⟨pid, privateStream, content⟩], a) := by
  have hunit : privateUnit content ≠ [] := by simp [privateUnit]
  have hdrop : (privateUnit content).drop bodySize = content.drop (bodySize - 9) := by
    simp [privateUnit, Bytes.ofNat, bodySize]
  rw [carriedFragments, Fragment.ofBytes_of_ne_nil _ _ _ hunit, List.map_cons, pushAll_cons,
    push_first counter hpid hsize ha, hdrop]
  by_cases hshort : content.length ≤ bodySize - 9
  · rw [if_pos hshort, List.drop_eq_nil_of_le hshort, Fragment.ofBytes_nil]
    rfl
  · have hmore : content.drop (bodySize - 9) ≠ [] := by
      rw [Ne, List.drop_eq_nil_iff]
      exact hshort
    let u : Partial := carriedPartial content counter
    have hexpected : u.expected = some content.length := rfl
    have hcounter : u.lastCounter = counter % 16 := rfl
    have hrest := pushAll_missing (a := { a with partials := a.partials.insert pid u }) (u := u)
      hpid hmore (by simp) hexpected
      (by simp only [u, carriedPartial, List.length_take, List.length_drop]; omega) hcounter
    rw [if_neg hshort, hrest]
    simp only [List.nil_append, erase_insert_of_getElem?_eq_none ha, u, carriedPartial,
      List.take_append_drop]

end Assembler

end Pes

end StreamCatalog
