import Mathlib.Algebra.Group.Nat.Defs
import StreamCatalog.Proofs.Transport.Alignment
import StreamCatalog.Transport.Carriage

/-!
# The packets that carry a unit

A unit is spread over fragments, one for each packet (`packetsFrom_eq`). The
bytes of a fragment are a packet that is read back with the fragment's part of
the unit as its payload (`Fragment.parse_bytes`), whatever stuffing it needs.
-/

namespace StreamCatalog.Transport

/-- One packet's share of a unit. -/
structure Fragment where
  /-- The packet identifier. -/
  pid : Nat
  /-- The continuity counter before it is cut to four bits. -/
  counter : Nat
  /-- The unit starts here. -/
  unitStart : Bool
  /-- The bytes of the unit. -/
  part : Bytes

namespace Fragment

/-- The packet as it is written. -/
def bytes (f : Fragment) : Bytes :=
  packetOf f.pid f.counter f.unitStart f.part

/-- The packet as it is read. -/
def packet (f : Fragment) : Packet where
  transportError := false
  unitStart := f.unitStart
  pid := f.pid
  scrambling := 0
  adaptationControl := if f.part.length = bodySize then 1 else 3
  continuity := f.counter % 16
  discontinuity := false
  payload := f.part

/-- Whether a fragment has an identifier of 13 bits and a part that fits into a packet. -/
structure Fits (f : Fragment) : Prop where
  /-- The identifier has 13 bits. -/
  pid_lt : f.pid < 2 ^ 13
  /-- There is something to carry. -/
  part_ne_nil : f.part ≠ []
  /-- There is room for it. -/
  length_part_le : f.part.length ≤ bodySize

@[simp] theorem length_stuffing (n : Nat) : (stuffing n).length = n := by
  match n with
  | 0 => rfl
  | 1 => rfl
  | n + 2 => simp [stuffing]

/-- Stuffing is an adaptation field without a discontinuity, and the payload follows it. -/
theorem splitAdaptation_stuffing {n : Nat} (hpos : 0 < n) (hn : n ≤ bodySize) (part : Bytes) :
    Packet.splitAdaptation (stuffing n ++ part) = .ok (false, part) := by
  match n with
  | 1 => simp [stuffing, Packet.splitAdaptation]
  | n + 2 =>
    have hsize : (UInt8.ofNat (n + 1)).toNat = n + 1 := by
      rw [UInt8.toNat_ofNat']
      simp only [bodySize] at hn
      omega
    have hfield : (stuffing (n + 2)).tail.length = n + 1 := by simp [stuffing]
    have hcons : stuffing (n + 2) ++ part =
        UInt8.ofNat (n + 1) :: ((stuffing (n + 2)).tail ++ part) := rfl
    have hroom : ¬((stuffing (n + 2)).tail ++ part).length < n + 1 := by
      rw [List.length_append, hfield]
      omega
    rw [hcons, Packet.splitAdaptation, hsize, if_neg hroom, List.drop_left' hfield,
      List.take_left' hfield]
    rfl

theorem length_bytes {f : Fragment} (h : f.Fits) : f.bytes.length = packetSize := by
  have := h.length_part_le
  simp only [bytes, packetOf, List.length_append, length_stuffing, List.length_cons,
    List.length_nil, packetSize, bodySize] at *
  omega

@[simp] theorem head?_bytes (f : Fragment) : f.bytes.head? = some syncByte := rfl

/-- A written fragment is read back as a packet, whatever follows. -/
theorem parse_bytes {f : Fragment} (h : f.Fits) (rest : Bytes) :
    Packet.parse (f.bytes ++ rest) = .ok f.packet := by
  have hpid := h.pid_lt
  have hpart := h.length_part_le
  have hsplit : Bytes.splitAt? packetSize (f.bytes ++ rest) = some (f.bytes, rest) := by
    rw [← length_bytes h, Bytes.splitAt?_append]
  have hflags : (UInt8.ofNat (f.pid / 256 % 32 + if f.unitStart then 0x40 else 0)).toNat =
      f.pid / 256 + if f.unitStart then 0x40 else 0 := by
    rw [UInt8.toNat_ofNat']
    split <;> omega
  have hlow : (UInt8.ofNat f.pid).toNat = f.pid % 256 := UInt8.toNat_ofNat' ..
  have hstart : decide (64 ≤ (f.pid / 256 + if f.unitStart then 0x40 else 0) % 128) =
      f.unitStart := by
    cases f.unitStart <;> simp <;> omega
  have herror : decide (128 ≤ f.pid / 256 + if f.unitStart then 0x40 else 0) = false := by
    cases f.unitStart <;> simp <;> omega
  have hpidRead : (f.pid / 256 + if f.unitStart then 0x40 else 0) % 32 * 256 + f.pid % 256 =
      f.pid := by
    cases f.unitStart <;> simp <;> omega
  by_cases hfull : f.part.length = bodySize
  · have hcontrol : (UInt8.ofNat (0x10 + f.counter % 16)).toNat = 0x10 + f.counter % 16 := by
      rw [UInt8.toNat_ofNat']
      omega
    have hbytes : f.bytes = [syncByte,
        UInt8.ofNat (f.pid / 256 % 32 + if f.unitStart then 0x40 else 0), UInt8.ofNat f.pid,
        UInt8.ofNat (0x10 + f.counter % 16)] ++ f.part := by
      simp [bytes, packetOf, hfull, stuffing]
    rw [Packet.parse, hsplit, hbytes]
    simp only [List.cons_append, List.nil_append, hflags, hlow, hcontrol, hstart, herror, hpidRead,
      show (0x10 + f.counter % 16) / 16 % 4 = 1 by omega,
      show (0x10 + f.counter % 16) / 64 = 0 by omega,
      show (0x10 + f.counter % 16) % 16 = f.counter % 16 by omega]
    simp [packet, hfull, Except.map]
  · have hroom : 0 < bodySize - f.part.length := by omega
    have hfiller : (stuffing (bodySize - f.part.length)).isEmpty = false := by
      rw [List.isEmpty_eq_false_iff, ← List.length_pos_iff, length_stuffing]
      exact hroom
    have hcontrol : (UInt8.ofNat (0x30 + f.counter % 16)).toNat = 0x30 + f.counter % 16 := by
      rw [UInt8.toNat_ofNat']
      omega
    have hbytes : f.bytes = [syncByte,
        UInt8.ofNat (f.pid / 256 % 32 + if f.unitStart then 0x40 else 0), UInt8.ofNat f.pid,
        UInt8.ofNat (0x30 + f.counter % 16)] ++
          (stuffing (bodySize - f.part.length) ++ f.part) := by
      simp [bytes, packetOf, hfiller]
    rw [Packet.parse, hsplit, hbytes]
    simp only [List.cons_append, List.nil_append, hflags, hlow, hcontrol, hstart, herror, hpidRead,
      show (0x30 + f.counter % 16) / 16 % 4 = 3 by omega,
      show (0x30 + f.counter % 16) / 64 = 0 by omega,
      show (0x30 + f.counter % 16) % 16 = f.counter % 16 by omega,
      splitAdaptation_stuffing hroom (Nat.sub_le ..)]
    simp [packet, hfull, Except.map]

/-- The fragments of a byte string, the first of which has the given counter. -/
def ofBytes (pid counter : Nat) (unitStart : Bool) (bs : Bytes) : List Fragment :=
  if bs.isEmpty then []
  else
    ⟨pid, counter, unitStart, bs.take bodySize⟩ ::
      ofBytes pid (counter + 1) false (bs.drop bodySize)
termination_by bs.length
decreasing_by
  cases bs with
  | nil => contradiction
  | cons => simp only [List.length_drop, List.length_cons, bodySize]; omega

theorem ofBytes_nil (pid counter : Nat) (unitStart : Bool) :
    ofBytes pid counter unitStart [] = [] := by
  rw [ofBytes]
  rfl

theorem ofBytes_of_ne_nil (pid counter : Nat) (unitStart : Bool) {bs : Bytes} (h : bs ≠ []) :
    ofBytes pid counter unitStart bs =
      ⟨pid, counter, unitStart, bs.take bodySize⟩ ::
        ofBytes pid (counter + 1) false (bs.drop bodySize) := by
  rw [ofBytes, if_neg (by simpa using h)]

/-- Every fragment fits. -/
theorem fits_of_mem_ofBytes {pid counter : Nat} {unitStart : Bool} {bs : Bytes} {f : Fragment}
    (hpid : pid < 2 ^ 13) (hf : f ∈ ofBytes pid counter unitStart bs) : f.Fits := by
  fun_induction ofBytes pid counter unitStart bs with
  | case1 => cases hf
  | case2 counter unitStart bs hbs ih =>
    rcases List.mem_cons.1 hf with rfl | hf
    · have hne : bs.take bodySize ≠ [] := by
        rw [Ne, List.take_eq_nil_iff]
        rintro (h | h)
        · cases h
        · exact hbs (by simpa using h)
      exact ⟨hpid, hne, List.length_take_le ..⟩
    · exact ih hf

end Fragment

/-- The packets of a unit are the bytes of its fragments. -/
theorem packetsFrom_eq (pid counter : Nat) (unitStart : Bool) (bs : Bytes) :
    packetsFrom pid counter unitStart bs =
      ((Fragment.ofBytes pid counter unitStart bs).map Fragment.bytes).flatten := by
  fun_induction Fragment.ofBytes pid counter unitStart bs with
  | case1 counter unitStart bs hbs =>
    rw [packetsFrom, if_pos hbs]
    rfl
  | case2 counter unitStart bs hbs ih =>
    rw [packetsFrom, if_neg hbs, ih]
    rfl

/-- The fragments of the unit that carries `content`. -/
def carriedFragments (pid : Nat) (content : Bytes) (counter : Nat) : List Fragment :=
  Fragment.ofBytes pid counter true (privateUnit content)

theorem carry_eq (pid : Nat) (content : Bytes) (counter : Nat) :
    carry pid content counter =
      ((carriedFragments pid content counter).map Fragment.bytes).flatten :=
  packetsFrom_eq ..

end StreamCatalog.Transport
