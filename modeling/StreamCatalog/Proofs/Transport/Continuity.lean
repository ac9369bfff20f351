import Mathlib.Data.List.Chain
import Mathlib.Data.List.Induction
import StreamCatalog.Transport.Quality

/-!
# Which packets show a gap

The analyzer compares a packet with the last one that counts on its identifier, whatever
came between them (`Analyzer.lastCounter_observeEach`). A stream is continuous when, on each
identifier, every packet has the counter after that of the packet before it, announces a
discontinuity, or is the one repetition of the packet before it. On a continuous stream the
analyzer shows a gap at every repetition that announces no discontinuity, and nowhere else
(`Arrival.IsContinuous.gaps_at_repeats`).
-/

namespace StreamCatalog.Transport

namespace Analyzer

/-- The answers to packets, one after the other, and the state after them. -/
def observeEach (a : Analyzer) : List Packet → List Bool × Analyzer
  | [] => ([], a)
  | p :: ps =>
    let (gap, a) := a.observe p
    let (gaps, a) := observeEach a ps
    (gap :: gaps, a)

theorem observeEach_concat (a : Analyzer) (ps : List Packet) (p : Packet) :
    a.observeEach (ps ++ [p]) =
      ((a.observeEach ps).1 ++ [(a.observeEach ps).2.gap p],
        ((a.observeEach ps).2.observe p).2) := by
  induction ps generalizing a with
  | nil => rfl
  | cons q ps ih => simp only [List.cons_append, observeEach, ih]

/-- Whether a packet counts on an identifier. -/
def countsOn (pid : Nat) (p : Packet) : Bool :=
  !exempt p && p.pid = pid

theorem countsOn_self {p : Packet} (h : exempt p = false) : countsOn p.pid p = true := by
  simp [countsOn, h]

theorem lastCounter_observe (a : Analyzer) (p : Packet) (pid : Nat) :
    (a.observe p).2.lastCounter[pid]? =
      if countsOn pid p then some p.continuity else a.lastCounter[pid]? := by
  cases hexempt : exempt p with
  | true => simp [observe, countsOn, hexempt]
  | false => simp [observe, countsOn, hexempt, Std.ExtTreeMap.getElem?_insert]

/-- What is known of an identifier is the counter of its last packet that counts. -/
theorem lastCounter_observeEach (ps : List Packet) (pid : Nat) :
    (initial.observeEach ps).2.lastCounter[pid]? =
      ((ps.filter (countsOn pid)).getLast?).map (·.continuity) := by
  induction ps using List.reverseRecOn with
  | nil => exact Std.ExtTreeMap.getElem?_empty
  | append_singleton ps p ih =>
    rw [observeEach_concat, lastCounter_observe, List.filter_append]
    cases hcounts : countsOn pid p with
    | true => simp [List.filter_cons_of_pos hcounts]
    | false => simp [hcounts, ih]

/-- Every gap that is shown is counted. -/
theorem dropped_observeEach (a : Analyzer) (ps : List Packet) :
    (a.observeEach ps).2.quality.dropped =
      a.quality.dropped + (a.observeEach ps).1.count true := by
  induction ps using List.reverseRecOn with
  | nil => rfl
  | append_singleton ps p ih =>
    rw [observeEach_concat, List.count_append, ← Nat.add_assoc, ← ih, observe]
    cases (a.observeEach ps).2.gap p <;> rfl

end Analyzer

open Analyzer (countsOn exempt initial)

/-- A packet as it comes in. -/
structure Arrival where
  /-- The packet. -/
  packet : Packet
  /-- Whether it is sent a second time. -/
  isRepeat : Bool

namespace Arrival

/-- Whether `b` may be the next packet that counts on an identifier after `a`. -/
def Precedes (a b : Arrival) : Prop :=
  if b.isRepeat then a.isRepeat = false ∧ b.packet = a.packet
  else b.packet.discontinuity = true ∨ b.packet.continuity = (a.packet.continuity + 1) % 16

instance : DecidableRel Precedes := fun _ _ => inferInstanceAs (Decidable (ite ..))

/-- The arrivals that count on an identifier. -/
def onPid (pid : Nat) (arrivals : List Arrival) : List Arrival :=
  arrivals.filter (countsOn pid ·.packet)

theorem onPid_concat (pid : Nat) (arrivals : List Arrival) (a : Arrival) :
    onPid pid (arrivals ++ [a]) =
      onPid pid arrivals ++ if countsOn pid a.packet then [a] else [] := by
  rw [onPid, List.filter_append, List.filter_singleton, cond_eq_ite]
  rfl

/-- Whether the packets that count on an identifier begin with one that is no repetition, and each
may follow on the one before it. -/
structure GoesOn (arrivals : List Arrival) (pid : Nat) : Prop where
  /-- There is nothing to repeat at first. -/
  begins : ∀ a ∈ (onPid pid arrivals).head?, a.isRepeat = false
  /-- Each may be the next after the one before it. -/
  isChain : (onPid pid arrivals).IsChain Precedes

/-- Whether the packets of every identifier go on without loss. Packets that do not count may
stand anywhere. -/
def IsContinuous (arrivals : List Arrival) : Prop :=
  ∀ pid, GoesOn arrivals pid

instance (arrivals : List Arrival) (pid : Nat) : Decidable (GoesOn arrivals pid) :=
  decidable_of_iff ((∀ a ∈ (onPid pid arrivals).head?, a.isRepeat = false) ∧
      (onPid pid arrivals).IsChain Precedes)
    ⟨fun h => ⟨h.1, h.2⟩, fun h => ⟨h.1, h.2⟩⟩

/-- An identifier without packets goes on. -/
theorem goesOn_of_eq_nil {arrivals : List Arrival} {pid : Nat} (h : onPid pid arrivals = []) :
    GoesOn arrivals pid := by
  constructor
  · simp [h]
  · rw [h]
    exact .nil

instance (arrivals : List Arrival) : Decidable (IsContinuous arrivals) :=
  decidable_of_iff (∀ a ∈ arrivals, GoesOn arrivals a.packet.pid) <| by
    refine ⟨fun h pid => ?_, fun h a _ => h a.packet.pid⟩
    by_cases hnil : onPid pid arrivals = []
    · exact goesOn_of_eq_nil hnil
    · obtain ⟨a, ha⟩ := List.exists_mem_of_ne_nil _ hnil
      obtain ⟨hmem, hcounts⟩ := List.mem_filter.1 ha
      simp only [countsOn, Bool.and_eq_true, decide_eq_true_eq] at hcounts
      exact hcounts.2 ▸ h a hmem

/-- Whether an arrival repeats a packet that counts and announces no discontinuity. -/
def isPlainRepeat (a : Arrival) : Bool :=
  a.isRepeat && !exempt a.packet && !a.packet.discontinuity

namespace IsContinuous

variable {arrivals : List Arrival} {a : Arrival}

/-- What has come in so far is continuous. -/
theorem of_concat (h : IsContinuous (arrivals ++ [a])) : IsContinuous arrivals := by
  intro pid
  obtain ⟨hbegins, hchain⟩ := h pid
  rw [onPid_concat] at hbegins hchain
  refine ⟨fun b hb => hbegins b ?_, hchain.left_of_append⟩
  rw [List.head?_append, Option.mem_def.1 hb]
  rfl

/-- An arrival on a continuous stream shows a gap exactly if it is a plain repetition. -/
theorem gap_concat (h : IsContinuous (arrivals ++ [a])) :
    (initial.observeEach (arrivals.map (·.packet))).2.gap a.packet = a.isPlainRepeat := by
  cases hexempt : exempt a.packet with
  | true => simp [Analyzer.gap, isPlainRepeat, hexempt]
  | false =>
    obtain ⟨hbegins, hchain⟩ := h a.packet.pid
    have hcounts := Analyzer.countsOn_self hexempt
    rw [onPid_concat, if_pos hcounts] at hbegins hchain
    have hbefore : (arrivals.map (·.packet)).filter (countsOn a.packet.pid) =
        (onPid a.packet.pid arrivals).map (·.packet) := List.filter_map
    rw [Analyzer.gap, Analyzer.lastCounter_observeEach, hbefore]
    rcases List.eq_nil_or_concat (onPid a.packet.pid arrivals) with hnil | ⟨before, last, hlast⟩
    · have hfirst : a.isRepeat = false := hbegins a (by simp [hnil])
      simp [hnil, isPlainRepeat, hfirst]
    · -- The last packet that counted on the identifier precedes this one.
      rw [hlast] at hchain
      have hprecedes : Precedes last a := by
        simpa using (List.isChain_append.1 hchain).2.2 last (by simp) a (by simp)
      rw [hlast]
      simp only [Precedes] at hprecedes
      split at hprecedes
      next hrepeat =>
        have hother : (last.packet.continuity + 1) % 16 ≠ last.packet.continuity := by omega
        simp [isPlainRepeat, hrepeat, hprecedes.2, hother]
      next hrepeat =>
        rcases hprecedes with hannounced | hnext
        · simp [isPlainRepeat, hrepeat, hannounced]
        · simp [isPlainRepeat, hrepeat, hnext]

/-- The answers on a continuous stream. -/
theorem observeEach_eq (h : IsContinuous arrivals) :
    (initial.observeEach (arrivals.map (·.packet))).1 = arrivals.map isPlainRepeat := by
  induction arrivals using List.reverseRecOn with
  | nil => rfl
  | append_singleton arrivals a ih =>
    rw [List.map_append, List.map_singleton, Analyzer.observeEach_concat, ih h.of_concat,
      h.gap_concat, List.map_append, List.map_singleton]

/-- On a continuous stream a gap is shown at each repetition of a packet that announces no
discontinuity, and nowhere else, and these are counted as dropped. So the analyzer shows no gap and
counts none as dropped exactly if there is no such repetition. -/
theorem gaps_at_repeats (h : IsContinuous arrivals) :
    let (gaps, after) := initial.observeEach (arrivals.map (·.packet))
    gaps = arrivals.map isPlainRepeat ∧ after.quality.dropped = arrivals.countP isPlainRepeat ∧
      ((∀ gap ∈ gaps, gap = false) ∧ after.quality.dropped = 0 ↔
        ∀ a ∈ arrivals, a.isPlainRepeat = false) := by
  have hgaps := h.observeEach_eq
  have hdropped : (initial.observeEach (arrivals.map (·.packet))).2.quality.dropped =
      arrivals.countP isPlainRepeat := by
    rw [Analyzer.dropped_observeEach, hgaps, List.count, List.countP_map]
    exact (Nat.zero_add _).trans (List.countP_congr fun _ _ => by simp)
  refine ⟨hgaps, hdropped, ?_⟩
  rw [hgaps, hdropped, List.countP_eq_zero, List.forall_mem_map]
  simp

/-- A packet of an identifier with a counter, with an adaptation field that may announce a
discontinuity. -/
private def counting (pid counter : Nat) (announces : Bool) : Packet :=
  ⟨false, false, pid, 0, 3, counter, announces, []⟩

/-- Two identifiers interleaved, a counter that starts over, announced jumps, repetitions, a
filler packet and a packet without a payload. -/
theorem gaps_at_repeats_interleaved :
    let arrivals : List Arrival := [
      ⟨counting 0x100 15 false, false⟩, ⟨counting 0x101 7 false, false⟩,
      ⟨counting 0x100 15 false, true⟩, ⟨counting nullPid 3 false, false⟩,
      ⟨counting 0x100 0 false, false⟩, ⟨counting 0x101 12 true, false⟩,
      ⟨{ counting 0x100 9 false with adaptationControl := 2 }, false⟩,
      ⟨counting 0x101 12 true, true⟩, ⟨counting 0x100 1 false, false⟩,
      ⟨counting 0x101 13 false, false⟩]
    let (gaps, after) := initial.observeEach (arrivals.map (·.packet))
    IsContinuous arrivals ∧
      (gaps = arrivals.map isPlainRepeat ∧ after.quality.dropped = arrivals.countP isPlainRepeat ∧
        ((∀ gap ∈ gaps, gap = false) ∧ after.quality.dropped = 0 ↔
          ∀ a ∈ arrivals, a.isPlainRepeat = false)) :=
  have h : IsContinuous _ := by decide +kernel
  ⟨h, gaps_at_repeats h⟩

/-- A packet that is sent twice, on a stream without loss, is taken for a lost one. -/
theorem repeat_shown_as_gap :
    let arrivals : List Arrival :=
      [⟨counting 0x100 0 false, false⟩, ⟨counting 0x100 0 false, true⟩]
    let (gaps, after) := initial.observeEach (arrivals.map (·.packet))
    IsContinuous arrivals ∧ gaps = [false, true] ∧ after.quality.dropped = 1 := by
  decide +kernel

end IsContinuous

end Arrival

end StreamCatalog.Transport
