import Mathlib.Data.List.Basic
import StreamCatalog.Proofs.Pes.Pushes

/-!
# Carried units and what becomes of them

The packets that carry a content are whole packets, of which the first alone starts a unit,
with counters that follow on each other. Wherever nothing is collected on their identifier,
they give one unit with that content, the last of them gives it, and nothing is left
(`Assembler.carry_reassembled`).
-/

namespace StreamCatalog

namespace Transport.Fragment

theorem getElem?_ofBytes {pid counter : Nat} {unitStart : Bool} {bs : Bytes} {i : Nat}
    {f : Fragment} (h : (ofBytes pid counter unitStart bs)[i]? = some f) :
    f.pid = pid ∧ f.counter = counter + i ∧ f.unitStart = (unitStart && decide (i = 0)) := by
  fun_induction ofBytes pid counter unitStart bs generalizing i with
  | case1 => cases h
  | case2 counter unitStart bs hbs ih =>
    cases i with
    | zero =>
      cases h
      simp
    | succ i =>
      obtain ⟨hpid, hcounter, hstart⟩ := ih (by simpa using h)
      refine ⟨hpid, by omega, ?_⟩
      simpa using hstart

/-- The parts of all fragments make up the bytes. -/
theorem flatMap_part_ofBytes (pid counter : Nat) (unitStart : Bool) (bs : Bytes) :
    (ofBytes pid counter unitStart bs).flatMap Fragment.part = bs := by
  fun_induction ofBytes pid counter unitStart bs with
  | case1 counter unitStart bs hbs => simpa using hbs.symm
  | case2 counter unitStart bs hbs ih => rw [List.flatMap_cons, ih, List.take_append_drop]

end Transport.Fragment

namespace Pes

open Transport (Packet Fragment nullPid bodySize packetSize privateStream privateUnit carry
  carriedFragments)

namespace Assembler

/-- Packets that may go on with a unit, and bring less than it lacks, complete nothing. -/
theorem pushAll_of_short {a : Assembler} {pid room : Nat} {ps : List Packet}
    (hps : ∀ p ∈ ps, p.pid = pid ∧ p.unitStart = false)
    (hroom : (ps.flatMap Packet.payload).length < room)
    (hshort : ∀ u, a.partials[pid]? = some u →
      ∃ size, u.expected = some size ∧ u.data.length + room ≤ size) :
    (a.pushAll ps).1 = [] := by
  induction ps generalizing a room with
  | nil => rfl
  | cons p ps ih =>
    obtain ⟨rfl, hgoes⟩ := hps p List.mem_cons_self
    have hthose := fun q hq => hps q (List.mem_cons_of_mem p hq)
    rw [List.flatMap_cons, List.length_append] at hroom
    have hpushed := a.pushed p
    rw [pushAll_cons]
    generalize a.push p = result at hpushed ⊢
    cases hpushed with
    | passed => exact ih hthose (by omega) hshort
    | replaced hstarts | opened _ hstarts | whole _ hstarts =>
      exact absurd (hgoes.symm.trans hstarts.unitStart) Bool.false_ne_true
    | dropped =>
      refine @ih _ room hthose (by omega) fun u hu => ?_
      rw [show (a.cleared p.pid).partials[p.pid]? = none from
        (getElem?_cleared ..).trans (if_pos rfl)] at hu
      cases hu
    | extended u _ found =>
      obtain ⟨size, hexpected, hsize⟩ := hshort u found
      refine ih hthose (show _ < room - p.payload.length by omega) fun v hv => ?_
      rw [getElem?_collecting, if_pos rfl, Option.some.injEq] at hv
      subst hv
      refine ⟨size, hexpected, ?_⟩
      simp only [Partial.extended, List.length_append]
      omega
    | completed u _ found _ complete =>
      obtain ⟨size, hexpected, hsize⟩ := hshort u found
      simp only [Partial.isComplete, Partial.extended, hexpected, Option.any_some,
        decide_eq_true_eq, List.length_append] at complete
      omega

/-- All packets that carry a content, but the last one, complete nothing where nothing was
collected. -/
theorem pushAll_dropLast_carriedFragments {a : Assembler} {pid : Nat} {content : Bytes}
    (counter : Nat) (hpid : pid < 2 ^ 13) (hnull : pid ≠ nullPid) (hsize : content.length ≤ 65532)
    (ha : a.partials[pid]? = none) :
    (a.pushAll ((carriedFragments pid content counter).map Fragment.packet).dropLast).1 = [] := by
  have hunit : privateUnit content ≠ [] := by simp [privateUnit]
  have hdrop : (privateUnit content).drop bodySize = content.drop (bodySize - 9) := by
    simp [privateUnit, Bytes.ofNat, bodySize]
  have hfits (f : Fragment)
      (hf : f ∈ Fragment.ofBytes pid (counter + 1) false (content.drop (bodySize - 9))) : f.Fits :=
    Fragment.fits_of_mem_ofBytes hpid hf
  have hfollowing {i : Nat} {f : Fragment} := @Fragment.getElem?_ofBytes pid (counter + 1) false
    (content.drop (bodySize - 9)) i f
  have hparts := Fragment.flatMap_part_ofBytes pid (counter + 1) false (content.drop (bodySize - 9))
  rw [carriedFragments, Fragment.ofBytes_of_ne_nil _ _ _ hunit, hdrop]
  generalize Fragment.ofBytes pid (counter + 1) false (content.drop (bodySize - 9)) = following
    at hfits hfollowing hparts
  rcases List.eq_nil_or_concat following with rfl | ⟨others, last, rfl⟩
  · rfl
  · -- Without the last packet, what follows is shorter than what is left of the content.
    rw [List.concat_eq_append] at *
    have hlast : 0 < last.part.length := List.length_pos_iff.2 (hfits last (by simp)).part_ne_nil
    have hlength := congrArg List.length hparts
    simp only [List.flatMap_append, List.flatMap_cons, List.flatMap_nil, List.append_nil,
      List.length_append, List.length_drop] at hlength
    have hlong : ¬content.length ≤ bodySize - 9 := by omega
    rw [List.map_cons, List.map_append, List.map_singleton, ← List.cons_append,
      List.dropLast_concat, pushAll_cons, push_first counter hnull hsize ha, if_neg hlong]
    refine @pushAll_of_short _ pid (content.length - (bodySize - 9)) _ ?_ ?_ ?_
    · intro p hp
      obtain ⟨f, hf, rfl⟩ := List.mem_map.1 hp
      obtain ⟨i, hi⟩ := List.getElem?_of_mem (List.mem_append_left [last] hf)
      obtain ⟨hfpid, -, hfstart⟩ := hfollowing hi
      rw [Bool.false_and] at hfstart
      exact ⟨hfpid, hfstart⟩
    · rw [List.flatMap_map]
      show (others.flatMap Fragment.part).length < _
      omega
    · intro u hu
      rw [Std.ExtTreeMap.getElem?_insert_self] at hu
      cases hu
      exact ⟨content.length, rfl, by simp only [carriedPartial, List.length_take]; omega⟩

/-- The packets that carry a content are packets of 188 bytes, the first of which alone starts a
unit, with counters that follow on each other. Where nothing is collected on their identifier, all
but the last complete nothing, and all together give one unit, that of the content, and leave what
there was. -/
theorem carry_reassembled {pid : Nat} {content : Bytes} (counter : Nat) (hpid : pid < 2 ^ 13)
    (hnull : pid ≠ nullPid) (hsize : content.length ≤ 65532) :
    ∃ (parts : List Bytes) (packets : List Packet),
      carry pid content counter = parts.flatten ∧
      (∀ part ∈ parts, part.length = packetSize) ∧
      parts.map Packet.parse = packets.map Except.ok ∧
      (∀ (i : Nat) (p : Packet), packets[i]? = some p →
        p.pid = pid ∧ p.unitStart = decide (i = 0) ∧ p.continuity = (counter + i) % 16) ∧
      ∀ a : Assembler, a.partials[pid]? = none →
        (a.pushAll packets.dropLast).1 = [] ∧
          a.pushAll packets = ([⟨pid, privateStream, content⟩], a) := by
  have hfits (f : Fragment) (hf : f ∈ carriedFragments pid content counter) : f.Fits :=
    Fragment.fits_of_mem_ofBytes hpid hf
  refine ⟨(carriedFragments pid content counter).map Fragment.bytes,
    (carriedFragments pid content counter).map Fragment.packet, Transport.carry_eq .., ?_, ?_, ?_,
    fun a ha => ⟨pushAll_dropLast_carriedFragments counter hpid hnull hsize ha,
      pushAll_carriedFragments counter hnull hsize ha⟩⟩
  · intro part hpart
    obtain ⟨f, hf, rfl⟩ := List.mem_map.1 hpart
    exact Fragment.length_bytes (hfits f hf)
  · rw [List.map_map, List.map_map]
    refine List.map_congr_left fun f hf => ?_
    have hparse := Fragment.parse_bytes (hfits f hf) []
    rwa [List.append_nil] at hparse
  · intro i p hp
    rw [List.getElem?_map, Option.map_eq_some_iff] at hp
    obtain ⟨f, hf, rfl⟩ := hp
    obtain ⟨hfpid, hcounter, hstart⟩ := Fragment.getElem?_ofBytes hf
    rw [Bool.true_and] at hstart
    exact ⟨hfpid, hstart, by rw [← hcounter]; rfl⟩

/-- A content of which the second packet holds all but the first 175 bytes, behind one byte of
stuffing. -/
def stuffedContent : Bytes := List.replicate 358 0x06

theorem carry_reassembled_stuffed :
    ∃ (parts : List Bytes) (packets : List Packet),
      carry 0x1ABC stuffedContent 15 = parts.flatten ∧
      parts.map Packet.parse = packets.map Except.ok ∧
      (∀ p, packets[1]? = some p → p.unitStart = false ∧ p.continuity = 0) ∧
      (initial.pushAll packets.dropLast).1 = [] ∧
      initial.pushAll packets = ([⟨0x1ABC, privateStream, stuffedContent⟩], initial) := by
  obtain ⟨parts, packets, hbytes, -, hparse, hplaces, hpushed⟩ :=
    @carry_reassembled 0x1ABC stuffedContent 15 (by decide) (by decide)
      (by rw [stuffedContent, List.length_replicate]; decide)
  exact ⟨parts, packets, hbytes, hparse, fun p hp => (hplaces 1 p hp).2,
    hpushed initial Std.ExtTreeMap.getElem?_empty⟩

end Assembler

end Pes

end StreamCatalog
