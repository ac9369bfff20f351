import Mathlib.Data.List.Chain
import StreamCatalog.Proofs.Pes.Pushes

/-!
# The packets used for a unit

A `Trail` is a start packet and the packets that go on with its unit, each with its place
among the calls of an assembler. It carries what makes its packets fit together: none is
passed over, all have one identifier, and each follows on the one before.
-/

namespace StreamCatalog.Pes

open Transport (Packet nullPid)

/-- What an assembler is asked for. -/
inductive Call where
  /-- To take a packet. -/
  | push (p : Packet)
  /-- To end all that is collected. -/
  | flush

/-- What ends a unit of an identifier, complete or not. -/
inductive Interrupts (pid : Nat) : Call → Prop where
  /-- All units end. -/
  | flush : Interrupts pid .flush
  /-- A packet of the identifier starts something. -/
  | start (p : Packet) (pid_eq : p.pid = pid) (starts : Starts p) : Interrupts pid (.push p)

/-- Whether a call starts a unit that is collected. -/
def Call.opens : Call → Bool
  | .push p => !Assembler.ignores p && p.unitStart && (startUnit p.payload p.continuity).isSome
  | .flush => false

/-- The places of the first `n` calls that start a unit. -/
def openings (calls : List Call) (n : Nat) : List Nat :=
  (List.range n).filter fun k => calls[k]?.any Call.opens

theorem opens_iff {p : Packet} :
    (Call.push p).opens = true ↔
      Starts p ∧ ∃ u, startUnit p.payload p.continuity = some u := by
  simp only [Call.opens, Bool.and_eq_true, Bool.not_eq_true', Option.isSome_iff_exists]
  exact and_congr_left fun _ => ⟨fun h => ⟨h.1, h.2⟩, fun h => ⟨h.carries, h.unitStart⟩⟩

theorem openings_succ {calls : List Call} {n : Nat} {c : Call} (hc : calls[n]? = some c) :
    openings calls (n + 1) = openings calls n ++ if c.opens then [n] else [] := by
  rw [openings, List.range_succ, List.filter_append, openings]
  cases h : c.opens <;> simp [hc, h]

theorem openings_of_opens {calls : List Call} {n : Nat} {p : Packet} {u : Partial}
    (hc : calls[n]? = some (.push p)) (hp : Starts p)
    (hu : startUnit p.payload p.continuity = some u) :
    openings calls (n + 1) = openings calls n ++ [n] := by
  rw [openings_succ hc, if_pos (opens_iff.2 ⟨hp, u, hu⟩)]

theorem openings_of_not_opens {calls : List Call} {n : Nat} {p : Packet}
    (hc : calls[n]? = some (.push p))
    (hp : ¬(Starts p ∧ ∃ u, startUnit p.payload p.continuity = some u)) :
    openings calls (n + 1) = openings calls n := by
  rw [openings_succ hc, if_neg (mt opens_iff.1 hp), List.append_nil]

/-- The counter of a unit is that of the packet that starts it. -/
theorem lastCounter_of_startUnit {payload : Bytes} {counter : Nat} {u : Partial}
    (h : startUnit payload counter = some u) : u.lastCounter = counter := by
  unfold startUnit at h
  split at h
  · split at h
    · split at h
      · cases h
      · cases h
        rfl
    · cases h
  · cases h

/-- The length of the content that the header at the front of a payload declares. The declared
number counts the rest of the header, and zero leaves the length open. -/
def declaredLength? (payload : Bytes) : Option Nat := do
  let high ← payload[4]?
  let low ← payload[5]?
  let headerSize ← payload[8]?
  let declared := high.toNat * 256 + low.toNat
  if declared = 0 then none else some (declared - 3 - headerSize.toNat)

/-- A unit expects what its header declares. -/
theorem expected_of_startUnit {payload : Bytes} {counter : Nat} {u : Partial}
    (h : startUnit payload counter = some u) : u.expected = declaredLength? payload := by
  unfold startUnit at h
  split at h
  · split at h
    · split at h
      · cases h
      · cases h
        simp [declaredLength?, Nat.sub_sub]
    · cases h
  · cases h

/-- What is behind the header at the front of a payload. -/
def headedContent? (payload : Bytes) : Option Bytes := do
  let headerSize ← payload[8]?
  return payload.drop (9 + headerSize.toNat)

/-- A unit starts with what is behind its header. -/
theorem data_of_startUnit {payload : Bytes} {counter : Nat} {u : Partial}
    (h : startUnit payload counter = some u) : headedContent? payload = some u.data := by
  unfold startUnit at h
  split at h
  · split at h
    · split at h
      · cases h
      · next hsplit =>
        cases h
        obtain ⟨hsize, hcontent⟩ := Bytes.splitAt?_eq_some_iff.1 hsplit
        simp [headedContent?, hcontent, Nat.add_comm 9, ← hsize]
    · cases h
  · cases h

/-- A packet and its place among the calls. -/
structure Arrival where
  /-- How many calls there were before. -/
  place : Nat
  /-- The packet. -/
  packet : Packet

/-- The packets used for a unit. -/
structure Trail where
  /-- The packet that starts the unit. -/
  start : Arrival
  /-- What its header says, and the content behind the header. -/
  header : Partial
  /-- The packets that go on with the unit. -/
  later : List Arrival
  /-- The first packet starts something. -/
  starts : Starts start.packet
  /-- It starts this unit. -/
  header_eq : startUnit start.packet.payload start.packet.continuity = some header
  /-- The others go on with something, on the same identifier. -/
  continues : ∀ a ∈ later, Continues a.packet ∧ a.packet.pid = start.packet.pid
  /-- They come in this order. -/
  ordered : (start :: later).Pairwise fun a b => a.place < b.place
  /-- Each follows on the one before. -/
  follows : (start :: later).IsChain fun a b => Follows a.packet.continuity b.packet

namespace Trail

/-- All packets of a trail. -/
def arrivals (t : Trail) : List Arrival := t.start :: t.later

/-- The places of its packets. -/
def places (t : Trail) : List Nat := t.arrivals.map Arrival.place

/-- Its last packet. -/
def last (t : Trail) : Arrival := t.arrivals.getLast (List.cons_ne_nil _ _)

/-- Its identifier. -/
def pid (t : Trail) : Nat := t.start.packet.pid

/-- The content of the start packet, and all that the other packets carry. -/
def data (t : Trail) : Bytes := t.header.data ++ t.later.flatMap (·.packet.payload)

/-- The unit as it is collected from its packets. -/
def collected (t : Trail) : Partial :=
  { t.header with data := t.data, lastCounter := t.last.packet.continuity }

/-- The unit, cut to its declared length. -/
def unit (t : Trail) : Unit := t.collected.toUnit t.pid

/-- The trail of a unit that has just started. -/
def begun (start : Arrival) (header : Partial) (starts : Starts start.packet)
    (header_eq : startUnit start.packet.payload start.packet.continuity = some header) : Trail where
  start := start
  header := header
  later := []
  starts := starts
  header_eq := header_eq
  continues := fun _ h => nomatch h
  ordered := List.pairwise_singleton ..
  follows := List.isChain_singleton _

/-- A trail with one more packet. -/
def extended (t : Trail) (a : Arrival) (continues : Continues a.packet) (pid_eq : a.packet.pid = t.pid)
    (follows : Follows t.last.packet.continuity a.packet)
    (after : ∀ place ∈ t.places, place < a.place) : Trail where
  start := t.start
  header := t.header
  later := t.later ++ [a]
  starts := t.starts
  header_eq := t.header_eq
  continues := by
    intro b hb
    rcases List.mem_append.1 hb with hb | hb
    · exact t.continues b hb
    · obtain rfl := List.mem_singleton.1 hb
      exact ⟨continues, pid_eq⟩
  ordered := by
    rw [← List.cons_append]
    refine List.pairwise_append.2 ⟨t.ordered, List.pairwise_singleton .., fun b hb c hc => ?_⟩
    obtain rfl := List.mem_singleton.1 hc
    exact after _ (List.mem_map_of_mem hb)
  follows := by
    rw [← List.cons_append]
    refine t.follows.append (List.isChain_singleton a) fun b hb c hc => ?_
    obtain rfl : a = c := Option.some.inj hc
    obtain rfl : t.last = b :=
      Option.some.inj ((List.getLast?_eq_some_getLast (List.cons_ne_nil _ _)).symm.trans hb)
    exact follows

variable {t : Trail} {a : Arrival}

theorem collected_begun {start : Arrival} {header : Partial} (starts : Starts start.packet)
    (header_eq : startUnit start.packet.payload start.packet.continuity = some header) :
    (begun start header starts header_eq).collected = header := by
  have hcounter : start.packet.continuity = header.lastCounter :=
    (lastCounter_of_startUnit header_eq).symm
  have hdata : (begun start header starts header_eq).data = header.data := List.append_nil _
  rw [collected, hdata]
  exact congrArg (fun counter => { header with lastCounter := counter }) hcounter

section extended

variable {continues : Continues a.packet} {pid_eq : a.packet.pid = t.pid}
  {follows : Follows t.last.packet.continuity a.packet}
  {after : ∀ place ∈ t.places, place < a.place}

theorem arrivals_extended :
    (t.extended a continues pid_eq follows after).arrivals = t.arrivals ++ [a] := rfl

theorem places_extended :
    (t.extended a continues pid_eq follows after).places = t.places ++ [a.place] := by
  rw [places, arrivals_extended, List.map_append]
  rfl

theorem last_extended : (t.extended a continues pid_eq follows after).last = a := by
  simp only [last, arrivals_extended, List.getLast_append_singleton]

theorem collected_extended :
    (t.extended a continues pid_eq follows after).collected = t.collected.extended a.packet := by
  have hdata : (t.extended a continues pid_eq follows after).data = t.data ++ a.packet.payload := by
    simp [data, extended]
  rw [collected, hdata, last_extended]
  rfl

end extended

/-- A unit has a beginning of what its packets carry. -/
theorem payload_unit_prefix (t : Trail) : t.unit.payload <+: t.data := by
  simp only [unit, Partial.toUnit, collected]
  split
  · exact List.take_prefix ..
  · exact List.prefix_rfl

/-- A unit does not exceed its declared length. -/
theorem length_payload_unit_le {size : Nat}
    (h : declaredLength? t.start.packet.payload = some size) : t.unit.payload.length ≤ size := by
  rw [← expected_of_startUnit t.header_eq] at h
  simp only [unit, Partial.toUnit, collected, h]
  exact List.length_take_le ..

/-- Whether the packets of a trail can be used, fit together and carry its content. -/
structure IsCarried (t : Trail) : Prop where
  /-- No packet has a transport error. -/
  transportError_eq : ∀ a ∈ t.arrivals, a.packet.transportError = false
  /-- No packet is scrambled. -/
  isScrambled_eq : ∀ a ∈ t.arrivals, a.packet.isScrambled = false
  /-- All have one identifier. -/
  pid_eq : ∀ a ∈ t.arrivals, a.packet.pid = t.pid
  /-- It is not that of null packets. -/
  pid_ne_nullPid : t.pid ≠ nullPid
  /-- The first packet, and no other, has the unit start flag. -/
  unitStart_eq : t.start.packet.unitStart = true ∧ ∀ a ∈ t.later, a.packet.unitStart = false
  /-- Each packet has the counter that is next, or another one with the discontinuity flag. -/
  counters : t.arrivals.IsChain fun a b => b.packet.continuity = (a.packet.continuity + 1) % 16 ∨
    (b.packet.continuity ≠ a.packet.continuity ∧ b.packet.discontinuity = true)
  /-- The content is what is behind the header, and all that the other packets carry. -/
  data_eq : ∃ content, headedContent? t.start.packet.payload = some content ∧
    t.data = content ++ t.later.flatMap (·.packet.payload)

theorem isCarried (t : Trail) : t.IsCarried := by
  have hcarries : ∀ a ∈ t.arrivals, Assembler.ignores a.packet = false := by
    intro a ha
    rcases List.mem_cons.1 ha with rfl | ha
    · exact t.starts.carries
    · exact (t.continues a ha).1.carries
  refine ⟨fun a ha => (Assembler.ignores_eq_false_iff.1 (hcarries a ha)).1,
    fun a ha => (Assembler.ignores_eq_false_iff.1 (hcarries a ha)).2.1, fun a ha => ?_,
    (Assembler.ignores_eq_false_iff.1 t.starts.carries).2.2.1,
    ⟨t.starts.unitStart, fun a ha => (t.continues a ha).1.unitStart⟩, t.follows,
    t.header.data, data_of_startUnit t.header_eq, rfl⟩
  rcases List.mem_cons.1 ha with rfl | ha
  · rfl
  · exact (t.continues a ha).2

/-- Whether the packets of a trail are among the calls, and nothing between them ended the unit. -/
structure Among (calls : List Call) (t : Trail) : Prop where
  /-- The packets have come. -/
  happened : ∀ a ∈ t.arrivals, calls[a.place]? = some (.push a.packet)
  /-- No call between them interrupts the unit. -/
  undisturbed : ∀ k c, t.start.place < k → k < t.last.place → calls[k]? = some c →
    ¬Interrupts t.pid c

/-- Whether a call behind the last packet of a trail interrupts its unit. -/
def IsInterrupted (calls : List Call) (t : Trail) : Prop :=
  ∃ k c, t.last.place < k ∧ calls[k]? = some c ∧ Interrupts t.pid c

/-- Whether the packet of its identifier behind a trail comes behind a gap: it would go on with the
unit, and does not follow on the last packet. -/
def IsBroken (calls : List Call) (t : Trail) : Prop :=
  ∃ k p, t.last.place < k ∧ calls[k]? = some (.push p) ∧ Continues p ∧ p.pid = t.pid ∧
    p.continuity ≠ t.last.packet.continuity ∧ ¬Follows t.last.packet.continuity p

end Trail

end StreamCatalog.Pes
