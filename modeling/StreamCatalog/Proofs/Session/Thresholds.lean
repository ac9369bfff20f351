import Mathlib.Algebra.Order.Floor.Div
import StreamCatalog.Proofs.Session.Conservation
import StreamCatalog.Proofs.Stream.Config

/-!
# When chunks are closed

A session looks at its condition after each datagram that it accepts, and when
time has passed. What it leaves open then has not reached any threshold, and a
datagram never finds its chunk idle (`Session.receive_fst_iff`). Where no chunk is
closed for its time, each is closed by the first datagram with which it is full
(`SessionRun.Filled`), so that the number of chunks follows from the number of
bytes.
-/

namespace StreamCatalog

open Telemetry (Sample)

/-- Any of several conditions is satisfied when one of them is. -/
theorem Condition.isSatisfied_any (p : Progress) (cs : List Condition) :
    (any cs).isSatisfied p = cs.any (·.isSatisfied p) := by
  have hany : anyHolds p cs = cs.any (holds p) := by
    induction cs with
    | nil => rfl
    | cons c cs ih => rw [anyHolds, ih, List.any_cons]
  rw [isSatisfied, holds, hany]
  cases hbytes : decide (p.bytes ≠ 0) <;> simp [isSatisfied, hbytes]

/-! ## What a session leaves open -/

namespace Session

/-- Whether a session looks at its condition in an event. -/
def LooksIn (s : Session) : SessionEvent → Prop
  | .datagram bytes => ∃ packets, (s.aligner.push bytes).1 = .ok packets
  | .tick => True
  | .rollover | .configure _ | .shutdown => False

/-- Whether a session that looks at its condition in an event finds that the time of its chunk is
over. A datagram ends the time without bytes. -/
def TimesOut (now : Moment) (s : Session) : SessionEvent → Prop
  | .datagram _ => ∃ chunk ∈ s.chunk,
      ofMillis s.config.elapsedTime ≤ (chunk.progress now).elapsed
  | .tick => ∃ chunk ∈ s.chunk,
      ofMillis s.config.elapsedTime ≤ (chunk.progress now).elapsed ∨
        ofMillis s.config.idleTimeout ≤ (chunk.progress now).idle
  | .rollover | .configure _ | .shutdown => False

instance (now : Moment) (s : Session) (e : SessionEvent) : Decidable (s.TimesOut now e) :=
  match e with
  | .datagram _ | .tick => inferInstanceAs (Decidable (∃ chunk ∈ s.chunk, _))
  | .rollover | .configure _ | .shutdown => inferInstanceAs (Decidable False)

theorem isDue_of_chunk_eq {s : Session} {chunk : OpenChunk} (h : s.chunk = some chunk)
    (now : Moment) : s.isDue now = s.config.condition.isSatisfied (chunk.progress now) := by
  rw [isDue, h, Option.any_some]

/-- What is left open was not due. -/
theorem chunk_closedIfDue {now : Moment} {s : Session} {chunk : OpenChunk}
    (h : (s.closedIfDue now).chunk = some chunk) :
    s.chunk = some chunk ∧ s.config.condition.isSatisfied (chunk.progress now) = false := by
  rw [closedIfDue] at h
  split at h
  · rw [chunk_closed] at h
    cases h
  · next hdue =>
    rw [isDue_of_chunk_eq h, Bool.not_eq_true] at hdue
    exact ⟨h, hdue⟩

/-- What a session leaves open when it has looked at its condition does not satisfy it. -/
theorem not_isSatisfied_after {s : Session} {e : SessionEvent} {now : Moment} (he : s.LooksIn e)
    {chunk : OpenChunk} (h : (s.after e now).chunk = some chunk) :
    s.config.condition.isSatisfied (chunk.progress now) = false := by
  cases e with
  | tick => exact (chunk_closedIfDue h).2
  | datagram bytes =>
    obtain ⟨packets, hpush⟩ := he
    rw [after, received] at h
    rcases hresult : s.aligner.push bytes with ⟨result, aligner⟩
    rw [hresult] at h hpush
    obtain rfl : result = .ok packets := hpush
    have hchunk := (chunk_closedIfDue h).2
    rwa [config_written] at hchunk
  | rollover | configure | shutdown => exact he.elim

/-- The chunk that a datagram comes into has the bytes of the open one, and its time is over if that
of the open one is. -/
theorem exists_chunk_opened (s : Session) (now : Moment) (helapsed : 0 < s.config.elapsedTime)
    (bytes : Bytes) :
    ∃ chunk, (s.opened now).chunk = some chunk ∧ chunk.byteLength = s.chunkBytes ∧
      (ofMillis s.config.elapsedTime ≤ (chunk.progress now).elapsed ↔
        s.TimesOut now (.datagram bytes)) := by
  rw [opened, chunkBytes, TimesOut]
  cases hchunk : s.chunk with
  | none =>
    refine ⟨_, rfl, rfl, ?_⟩
    simp [OpenChunk.progress, OpenChunk.start, Nat.ne_of_gt (ofMillis_pos.2 helapsed)]
  | some chunk => exact ⟨chunk, hchunk, rfl, by simp⟩

/-- A chunk to which a datagram was just written is due if it is full, or its time is over. It is not
idle. -/
theorem isDue_written_iff {s : Session} (helapsed : 0 < s.config.elapsedTime)
    (hidle : 0 < s.config.idleTimeout) {datagram : Bytes} (hne : datagram ≠ [])
    (packets : List Bytes) (aligner : Transport.Aligner) (samples : List Sample) (now : Moment) :
    ((s.hasRead datagram packets aligner).written datagram samples now).isDue now = true ↔
      s.config.byteCount ≤ s.chunkBytes + datagram.length ∨
        s.TimesOut now (.datagram datagram) := by
  obtain ⟨chunk, hchunk, hbytes, htime⟩ := s.exists_chunk_opened now helapsed datagram
  have hprogress : (((chunk.write datagram now).addSamples samples).progress now) =
      ⟨s.chunkBytes + datagram.length, (chunk.progress now).elapsed, 0⟩ := by
    rw [← hbytes, ← Nat.sub_self now.nanos]
    rfl
  have hlength : 0 < datagram.length := List.length_pos_of_ne_nil hne
  rw [isDue_of_chunk_eq (s.chunk_written datagram packets aligner samples now hchunk),
    config_written, hprogress, StreamConfig.isSatisfied_condition, ← htime]
  have hspan : 0 < ofMillis s.config.idleTimeout := ofMillis_pos.2 hidle
  simp only
  omega

/-- A datagram that is accepted closes its chunk if the chunk is full with it, or its time is over,
and never because no bytes have come. -/
theorem receive_fst_iff {s : Session} (helapsed : 0 < s.config.elapsedTime)
    (hidle : 0 < s.config.idleTimeout) {bytes : Bytes} {now : Moment} {d : ChunkDirectory}
    (hlost : (s.receive bytes now d).2.1.lost = s.lost) (hlooks : s.LooksIn (.datagram bytes)) :
    (s.receive bytes now d).1 = true ↔
      s.config.byteCount ≤ s.chunkBytes + bytes.length ∨ s.TimesOut now (.datagram bytes) := by
  obtain ⟨packets, hpush⟩ := hlooks
  rcases hresult : s.aligner.push bytes with ⟨result, aligner⟩
  rw [hresult] at hpush
  obtain rfl : result = .ok packets := hpush
  have hne : bytes ≠ [] := by
    rintro rfl
    cases hresult
  rw [receive_eq_write hresult] at hlost ⊢
  rcases write_eq_tick bytes (s.extractor.pushAll packets).1 now
    (s.hasRead bytes packets aligner) d with ⟨d', hwrite⟩ | hlost'
  · rw [hwrite, tick, ← isDue_written_iff helapsed hidle hne packets aligner
      (s.extractor.pushAll packets).1]
    split <;> simp [*]
  · exact absurd (hlost.symm.trans hlost') (Nat.succ_ne_self _).symm

end Session

/-! ## Chunks that are closed for their bytes -/

/-- Whether an input prescribes what becomes of the open chunk. -/
def SessionInput.isCommand : SessionInput → Bool
  | .event .rollover _ _ | .event (.configure _) _ _ | .event .shutdown _ _ => true
  | .event (.datagram _) _ _ | .event .tick _ _ | .ended _ _ _ | .counted => false

/-- How many bytes there are in datagrams. -/
def Accepted.size (group : List Accepted) : Nat := (group.flatMap (·.datagram)).length

namespace Accepted

theorem size_append (a b : List Accepted) : size (a ++ b) = size a + size b := by
  rw [size, List.flatMap_append, List.length_append]
  rfl

theorem size_concat (group : List Accepted) (a : Accepted) :
    size (group ++ [a]) = size group + a.datagram.length := by
  rw [size_append]
  simp [size]

/-- The last datagram aside, a group has hardly fewer bytes. -/
theorem size_le_dropLast_add {group : List Accepted} {most : Nat}
    (h : ∀ a ∈ group, a.datagram.length ≤ most) : size group ≤ size group.dropLast + most := by
  rcases List.eq_nil_or_concat group with rfl | ⟨group, a, rfl⟩
  · exact Nat.zero_le _
  · rw [List.concat_eq_append, List.dropLast_concat, size_concat]
    exact Nat.add_le_add_left (h a (by simp)) _

end Accepted

/-- Whether datagrams fill a chunk that is closed at a number of bytes, the last of them being the
first with which it is full. -/
structure Fills (byteCount : Nat) (group : List Accepted) : Prop where
  /-- The chunk is full. -/
  full : byteCount ≤ Accepted.size group
  /-- Before the last datagram it was not. -/
  size_dropLast_lt : Accepted.size group.dropLast < byteCount

namespace SessionRun

/-- Whether the session finds that the time of its chunk is over when it looks at its condition in an
input. -/
def RunsOut (r : SessionRun) : SessionInput → Prop
  | .event e now _ => r.session.LooksIn e ∧ r.session.TimesOut now e
  | .ended _ _ _ | .counted => False

/-- Whether no chunk has its time over in any input. -/
def KeepsTime (r : SessionRun) : List SessionInput → Prop
  | [] => True
  | i :: is => ¬ r.RunsOut i ∧ (r.step i).KeepsTime is

/-- What the chunks of a run hold when they are closed for their bytes only. -/
structure Filled (config : StreamConfig) (log : List Accepted) (r : SessionRun) : Prop where
  /-- The configuration is the first one. -/
  config_eq : r.session.config = config
  /-- The datagrams go into chunks as they fill them. -/
  groups : ∃ (groups : List (List Accepted)) (rest : List Accepted),
    log = groups.flatten ++ rest ∧
      List.Forall₂ (fun group handover => handover.Holds group ∧ Fills config.byteCount group)
        groups r.handed ∧
      (r.session.chunk = none → rest = []) ∧
      ∀ chunk, r.session.chunk = some chunk →
        chunk.Holds rest config ∧ 0 < Accepted.size rest ∧
          Accepted.size rest < config.byteCount

namespace Filled

variable {config : StreamConfig} {log : List Accepted} {s : Session} {handed : List Handover}

theorem initial (config : StreamConfig) (report : StreamReport) :
    Filled config [] (start config report) where
  config_eq := rfl
  groups := ⟨[], [], rfl, .nil, fun _ => rfl, nofun⟩

/-- What the chunks hold does not depend on the rest of the session. -/
theorem of_eq (h : Filled config log ⟨s, handed⟩) {t : Session} (hconfig : t.config = s.config)
    (hchunk : t.chunk = s.chunk) : Filled config log ⟨t, handed⟩ where
  config_eq := hconfig.trans h.config_eq
  groups := by
    rw [hchunk]
    exact h.groups

/-- The open chunk is not due as long as its time is not over. -/
theorem not_isDue (h : Filled config log ⟨s, handed⟩) {now : Moment}
    (htime : ¬ s.TimesOut now .tick) : s.isDue now = false := by
  have hconfig : s.config = config := h.config_eq
  obtain ⟨-, rest, -, -, -, hsome⟩ := h.groups
  cases hchunk : s.chunk with
  | none => rw [Session.isDue, hchunk, Option.any_none]
  | some chunk =>
    obtain ⟨hholds, -, hsize⟩ := hsome chunk hchunk
    rw [Session.isDue_of_chunk_eq hchunk, ← Bool.not_eq_true, StreamConfig.isSatisfied_condition]
    have hbytes : chunk.byteLength = Accepted.size rest := by
      rw [hholds.byteLength_eq, hholds.content_eq]
      rfl
    rintro ⟨-, hfull | hover⟩
    · change s.config.byteCount ≤ chunk.byteLength at hfull
      rw [hconfig, hbytes] at hfull
      exact hfull.not_gt hsize
    · exact htime ⟨chunk, hchunk, hover⟩

/-- A datagram comes into a chunk with the datagrams since the last chunk was closed. -/
theorem opened (h : Filled config log ⟨s, handed⟩) (hpos : 0 < config.byteCount) (now : Moment) :
    ∃ (groups : List (List Accepted)) (rest : List Accepted) (chunk : OpenChunk),
      log = groups.flatten ++ rest ∧
        List.Forall₂ (fun group handover => handover.Holds group ∧ Fills config.byteCount group)
          groups handed ∧
        (s.opened now).chunk = some chunk ∧ chunk.Holds rest config ∧
        Accepted.size rest = s.chunkBytes ∧ Accepted.size rest < config.byteCount := by
  have hconfig : s.config = config := h.config_eq
  obtain ⟨groups, rest, hlog, hgroups, hnone, hsome⟩ := h.groups
  rw [Session.opened, Session.chunkBytes]
  cases hchunk : s.chunk with
  | none =>
    obtain rfl := hnone hchunk
    exact ⟨groups, [], _, hlog, hgroups, rfl, hconfig ▸ .start _ _ _, rfl, hpos⟩
  | some chunk =>
    obtain ⟨hholds, -, hsize⟩ := hsome chunk hchunk
    refine ⟨groups, rest, chunk, hlog, hgroups, hchunk, hholds, ?_, hsize⟩
    change _ = chunk.byteLength
    rw [hholds.byteLength_eq, hholds.content_eq]
    rfl

/-- A datagram fills its chunk, which is closed then, or leaves it open. -/
theorem received (h : Filled config log ⟨s, handed⟩) (hpos : 0 < config.byteCount)
    (helapsed : 0 < config.elapsedTime) (hidle : 0 < config.idleTimeout) {datagram : Bytes}
    (hne : datagram ≠ []) (packets : List Bytes) (aligner : Transport.Aligner) (now : Moment)
    (htime : ¬ s.TimesOut now (.datagram datagram)) :
    let samples := (s.extractor.pushAll packets).1
    let t := (s.hasRead datagram packets aligner).written datagram samples now
    Filled config (log ++ [⟨s.config, datagram, packets, samples⟩]) ⟨t.closedIfDue now,
      handed ++ ((t.closedIfDue now).running.drop t.running.length).map (Handover.mk t.config)⟩ := by
  intro samples t
  obtain rfl : s.config = config := h.config_eq
  let a : Accepted := ⟨s.config, datagram, packets, samples⟩
  obtain ⟨groups, rest, chunk, hlog, hgroups, hopened, hholds, hbytes, hsize⟩ := h.opened hpos now
  have hchunk : t.chunk = some ((chunk.write datagram now).addSamples samples) :=
    s.chunk_written datagram packets aligner samples now hopened
  have hconfig : t.config = s.config := s.config_written datagram packets aligner samples now
  have hwritten := hholds.write (a := a) now
  have hdue : t.isDue now = true ↔ s.config.byteCount ≤ Accepted.size (rest ++ [a]) := by
    rw [Session.isDue_written_iff helapsed hidle hne, or_iff_left htime, ← hbytes,
      Accepted.size_concat]
  rw [Session.closedIfDue]
  split
  case isTrue hclosed =>
    have hcontent : ((chunk.write datagram now).addSamples samples).content ≠ [] := by
      change (chunk.write datagram now).content ≠ []
      rw [OpenChunk.content_write]
      exact List.append_ne_nil_of_right_ne_nil _ hne
    rw [handed_closed, hchunk, Option.toList_some, List.map_singleton]
    constructor
    case config_eq => exact (t.config_closed now).trans hconfig
    case groups =>
      refine ⟨groups ++ [rest ++ [a]], [], ?_, ?_, fun _ => rfl, fun c hc => ?_⟩
      · rw [hlog, List.flatten_append, List.flatten_singleton, List.append_nil, List.append_assoc]
      · refine List.rel_append hgroups (.cons ⟨?_, hdue.1 hclosed, ?_⟩ .nil)
        · exact OpenChunk.Holds.handover (hconfig ▸ hwritten) hcontent now
        · rwa [List.dropLast_concat]
      · rw [Session.chunk_closed] at hc
        cases hc
  case isFalse hopen =>
    rw [List.drop_length, List.map_nil, List.append_nil]
    constructor
    case config_eq => exact hconfig
    case groups =>
      refine ⟨groups, rest ++ [a], ?_, hgroups, fun hc => ?_, fun c hc => ?_⟩
      · rw [hlog, List.append_assoc]
      · cases hchunk.symm.trans hc
      · obtain rfl := Option.some.inj (hchunk.symm.trans hc)
        refine ⟨hwritten, ?_, Nat.lt_of_not_le fun hfull => hopen (hdue.2 hfull)⟩
        rw [Accepted.size_concat]
        exact Nat.add_pos_right _ (List.length_pos_of_ne_nil hne)

/-- Every datagram and every tick keeps the chunks filled. -/
theorem step {r : SessionRun} (h : Filled config log r) (hpos : 0 < config.byteCount)
    (helapsed : 0 < config.elapsedTime) (hidle : 0 < config.idleTimeout) {i : SessionInput}
    (hi : r.Admits i) (hcommand : i.isCommand = false)
    (htime : ¬ r.RunsOut i) :
    Filled config (log ++ (r.session.listener.step i).1) (r.step i) := by
  obtain ⟨s, handed⟩ := r
  cases i with
  | ended i result d =>
    simp only [Listener.step, List.append_nil, SessionRun.step]
    rw [Session.endCommit]
    split
    · exact h
    · exact h.of_eq rfl rfl
  | counted =>
    simp only [Listener.step, List.append_nil]
    exact h.of_eq rfl rfl
  | event e now d =>
    rw [step_event_eq hi]
    cases e with
    | rollover | configure | shutdown => cases hcommand
    | tick =>
      simp only [Listener.step, List.append_nil]
      have hdue := h.not_isDue fun hover => htime ⟨trivial, hover⟩
      rw [Session.after, Session.closedIfDue, hdue, if_neg Bool.false_ne_true, List.drop_length,
        List.map_nil, List.append_nil]
      exact h
    | datagram bytes =>
      simp only [Session.after, Session.received, Listener.step, Session.listener]
      cases hpush : s.aligner.push bytes with
      | mk result aligner =>
        cases result with
        | error fault =>
          dsimp only
          rw [List.append_nil, List.drop_length, List.map_nil, List.append_nil]
          exact h.of_eq rfl rfl
        | ok packets =>
          have hne : bytes ≠ [] := by
            rintro rfl
            cases hpush
          have hreceived := h.received hpos helapsed hidle hne packets aligner now
            fun hover => htime ⟨⟨packets, congrArg Prod.fst hpush⟩, hover⟩
          dsimp only at hreceived ⊢
          rwa [Session.running_written, Session.config_written] at hreceived

/-- Datagrams and ticks keep the chunks filled as long as no time is over. -/
theorem stepAll {start : StreamCounts} {r : SessionRun} (haccounted : Accounted start log r)
    (h : Filled config log r) (hpos : 0 < config.byteCount) (helapsed : 0 < config.elapsedTime)
    (hidle : 0 < config.idleTimeout) {is : List SessionInput} (his : r.AdmitsAll is)
    (hcommands : ∀ i ∈ is, i.isCommand = false) (htime : r.KeepsTime is) :
    Filled config (log ++ r.session.listener.accepted is) (r.stepAll is) := by
  induction is generalizing log r with
  | nil =>
    rw [Listener.accepted, List.append_nil]
    exact h
  | cons i is ih =>
    obtain ⟨hnext, hlistener⟩ := haccounted.step his.1
    have hstep := h.step hpos helapsed hidle his.1 (hcommands i List.mem_cons_self) htime.1
    rw [Listener.accepted, ← hlistener, ← List.append_assoc]
    exact ih hnext hstep his.2 (fun i hi => hcommands i (List.mem_cons_of_mem _ hi)) htime.2

/-! ### How many chunks there are -/

variable {groups : List (List Accepted)} {byteCount : Nat}

/-- Chunks that are full have as many bytes together. -/
theorem mul_length_le (h : List.Forall₂
    (fun group handover => Handover.Holds group handover ∧ Fills byteCount group) groups handed) :
    byteCount * handed.length ≤ Accepted.size groups.flatten := by
  induction h with
  | nil => exact Nat.zero_le _
  | @cons group handover groups handed hgroup _ ih =>
    have hfull := hgroup.2.full
    rw [List.flatten_cons, Accepted.size_append, List.length_cons, Nat.mul_succ]
    omega

/-- Chunks exceed the number of bytes at which they are closed by less than a datagram. -/
theorem size_flatten_le (h : List.Forall₂
    (fun group handover => Handover.Holds group handover ∧ Fills byteCount group) groups handed)
    {most : Nat} (hmost : ∀ a ∈ groups.flatten, a.datagram.length ≤ most) :
    Accepted.size groups.flatten ≤ (byteCount + most - 1) * handed.length := by
  induction h with
  | nil => exact Nat.zero_le _
  | @cons group handover groups handed hgroup _ ih =>
    have hlast := Accepted.size_le_dropLast_add fun a ha =>
      hmost a (List.mem_append_left _ ha)
    have hbefore := hgroup.2.size_dropLast_lt
    have hgroups := ih fun a ha => hmost a (List.mem_append_right _ ha)
    rw [List.flatten_cons, Accepted.size_append, List.length_cons, Nat.mul_succ]
    omega

/-- The number of bytes gives the number of chunks between two bounds. -/
theorem count_bounds {r : SessionRun} (h : Filled config log r) (hpos : 0 < config.byteCount) :
    (∀ most, (∀ a ∈ log, a.datagram.length ≤ most) →
        Accepted.size log ⌈/⌉ (config.byteCount + most - 1) ≤
          r.handed.length + r.session.chunk.toList.length) ∧
      r.handed.length + r.session.chunk.toList.length ≤
        Accepted.size log ⌈/⌉ config.byteCount := by
  obtain ⟨groups, rest, rfl, hgroups, hnone, hsome⟩ := h.groups
  have hfull := mul_length_le hgroups
  have hrest : (r.session.chunk.toList.length = 0 ∧ Accepted.size rest = 0) ∨
      (r.session.chunk.toList.length = 1 ∧ 0 < Accepted.size rest ∧
        Accepted.size rest < config.byteCount) := by
    cases hchunk : r.session.chunk with
    | none => exact .inl ⟨rfl, congrArg Accepted.size (hnone hchunk)⟩
    | some chunk => exact .inr ⟨rfl, (hsome chunk hchunk).2⟩
  rw [Accepted.size_append]
  constructor
  · intro most hmost
    have hsize := size_flatten_le hgroups fun a ha => hmost a (List.mem_append_left _ ha)
    rcases Nat.eq_zero_or_pos (config.byteCount + most - 1) with hzero | hstep
    · rw [hzero, ceilDiv_zero]
      exact Nat.zero_le _
    · rw [ceilDiv_le_iff_le_smul hstep, smul_eq_mul, Nat.mul_add]
      refine Nat.add_le_add hsize ?_
      rcases hrest with ⟨hchunk, hnil⟩ | ⟨hchunk, -, hopen⟩ <;> rw [hchunk] <;> omega
  · rw [Nat.ceilDiv_eq_add_pred_div, Nat.le_div_iff_mul_le hpos, Nat.mul_comm, Nat.mul_add]
    rcases hrest with ⟨hchunk, hnil⟩ | ⟨hchunk, hopen, -⟩ <;> rw [hchunk] <;> omega

end Filled

/-- A run without commands goes on under its configuration. -/
theorem config_stepAll {start : StreamCounts} {log : List Accepted} {r : SessionRun}
    (h : Accounted start log r) {is : List SessionInput} (his : r.AdmitsAll is)
    (hcommands : ∀ i ∈ is, i.isCommand = false) :
    (r.stepAll is).session.config = r.session.config := by
  induction is generalizing log r with
  | nil => rfl
  | cons i is ih =>
    obtain ⟨hnext, hlistener⟩ := h.step his.1
    have hconfig : (r.session.listener.step i).2.config = r.session.config := by
      have hi := hcommands i List.mem_cons_self
      cases i with
      | ended | counted => rfl
      | event e now d =>
        cases e with
        | tick | rollover | shutdown => rfl
        | configure => cases hi
        | datagram bytes =>
          rw [Listener.step]
          split <;> rfl
    refine (ih hnext his.2 fun i hi => hcommands i (List.mem_cons_of_mem _ hi)).trans ?_
    rw [← hconfig, ← hlistener]
    rfl

/-- What a session leaves open has bytes, and satisfies no condition. -/
theorem Accounted.chunk_of_looksIn {start : StreamCounts} {log : List Accepted} {r : SessionRun}
    (h : Accounted start log r) {e : SessionEvent} {now : Moment} {d : ChunkDirectory}
    (hi : r.Admits (.event e now d)) (he : r.session.LooksIn e) {chunk : OpenChunk}
    (hchunk : (r.step (.event e now d)).session.chunk = some chunk) :
    0 < chunk.byteLength ∧
      r.session.config.condition.isSatisfied (chunk.progress now) = false := by
  constructor
  · obtain ⟨hnext, -⟩ := h.step hi
    obtain ⟨_, _, -, -, -, hsome⟩ := hnext.groups
    rw [(hsome chunk hchunk).byteLength_eq]
    exact List.length_pos_of_ne_nil (hnext.content_ne_nil chunk hchunk)
  · rw [step_event_eq hi] at hchunk
    exact Session.not_isSatisfied_after he hchunk

/-- A session closes its chunks promptly: after each accepted datagram and each tick the open chunk
has bytes and satisfies no condition, and a datagram closes the chunk that is full with it or whose
time is over, never an idle one. As long as no time is over, each chunk is closed by the first
datagram with which it is full, and the number of chunks lies between two bounds. -/
theorem closed_at_thresholds {properties : Properties} {config : StreamConfig}
    (hconfig : StreamConfig.ofProperties properties = .ok config) (report : StreamReport)
    {is : List SessionInput} (his : (start config report).AdmitsAll is)
    (hcommands : ∀ i ∈ is, i.isCommand = false) :
    let r := (start config report).stepAll is
    let log := (Session.start config report).listener.accepted is
    let count := r.handed.length + r.session.chunk.toList.length
    (∀ e now d, r.Admits (.event e now d) → r.session.LooksIn e →
      ∀ chunk, (r.step (.event e now d)).session.chunk = some chunk →
        0 < chunk.byteLength ∧
          ∀ condition ∈ [Condition.bytes config.byteCount,
              .elapsed (ofMillis config.elapsedTime), .idle (ofMillis config.idleTimeout)],
            condition.isSatisfied (chunk.progress now) = false) ∧
      (∀ bytes now d, r.Admits (.event (.datagram bytes) now d) →
        r.session.LooksIn (.datagram bytes) →
          ((r.session.step (.datagram bytes) now d).1 = true ↔
            config.byteCount ≤ r.session.chunkBytes + bytes.length ∨
              ∃ chunk ∈ r.session.chunk,
                ofMillis config.elapsedTime ≤ (chunk.progress now).elapsed)) ∧
      ((start config report).KeepsTime is →
        (∃ (groups : List (List Accepted)) (rest : List Accepted),
          log = groups.flatten ++ rest ∧
            List.Forall₂ (fun group handover =>
              handover.Holds group ∧ Fills config.byteCount group) groups r.handed ∧
            ∀ chunk ∈ r.session.chunk, chunk.Holds rest config ∧
              Accepted.size rest < config.byteCount) ∧
          (∀ most, (∀ a ∈ log, a.datagram.length ≤ most) →
            Accepted.size log ⌈/⌉ (config.byteCount + most - 1) ≤ count) ∧
          count ≤ Accepted.size log ⌈/⌉ config.byteCount) := by
  intro r log count
  obtain ⟨hpos, helapsed, hidle⟩ := StreamConfig.thresholds_pos hconfig
  have haccounted : Accounted report.counts log r :=
    (Accounted.initial config report).stepAll his
  have hr : r.session.config = config :=
    config_stepAll (Accounted.initial config report) his hcommands
  refine ⟨?_, ?_, ?_⟩
  · intro e now d hi he chunk hchunk
    obtain ⟨hbytes, hcondition⟩ := haccounted.chunk_of_looksIn hi he hchunk
    refine ⟨hbytes, ?_⟩
    rw [hr, StreamConfig.condition, Condition.isSatisfied_any, List.any_eq_false] at hcondition
    exact fun condition hmem => Bool.eq_false_iff.2 (hcondition condition hmem)
  · intro bytes now d hi hlooks
    rw [← hr] at helapsed hidle
    have hanswer := Session.receive_fst_iff helapsed hidle hi.2 hlooks
    rw [hr, Session.TimesOut, hr] at hanswer
    exact hanswer
  · intro htime
    have hfilled : Filled config log r := (Filled.initial config report).stepAll
      (Accounted.initial config report) hpos helapsed hidle his hcommands htime
    obtain ⟨groups, rest, hlog, hgroups, -, hsome⟩ := hfilled.groups
    refine ⟨⟨groups, rest, hlog, hgroups, fun chunk hchunk => ?_⟩, hfilled.count_bounds hpos⟩
    exact ⟨(hsome chunk hchunk).1, (hsome chunk hchunk).2.2⟩

/-- A stream of which only the bytes of a chunk are prescribed. -/
def fourByteProperties : Properties :=
  Std.ExtTreeMap.ofList [(PropertyName.title, PropertyValue.text "old"),
    (PropertyName.monitoredAddress, PropertyValue.text "udp://127.0.0.1:5000"),
    (PropertyName.byteCount, PropertyValue.integer 4)]

/-- Two chunks hold six bytes. The first is closed by its second datagram, and the other is still open
when time has passed. -/
theorem closed_at_four_bytes :
    let config := { sampleConfig "old" 4 with
      elapsedTime := 15000, idleTimeout := 5000, distanceTolerance := 0.0001 }
    let is := [sampleInput (.datagram [1, 2, 3]) 0, sampleInput .tick (ofMillis 2000),
      sampleInput (.datagram [4, 5]) (ofMillis 14000), sampleInput (.datagram [6]) (ofMillis 14000)]
    let r := (start config .initial).stepAll is
    let log := (Session.start config .initial).listener.accepted is
    let count := r.handed.length + r.session.chunk.toList.length
    r.handed.map (·.commit.content) = [[1, 2, 3, 4, 5]] ∧ count = 2 ∧
      Accepted.size log ⌈/⌉ (4 + 3 - 1) ≤ count ∧ count ≤ Accepted.size log ⌈/⌉ 4 ∧
      ∀ chunk, (r.step (sampleInput .tick (ofMillis 18000))).session.chunk = some chunk →
        (Condition.idle (ofMillis 5000)).isSatisfied
          (chunk.progress ⟨⟨0, 0⟩, ofMillis 18000⟩) = false := by
  intro config is r log count
  have hconfig : StreamConfig.ofProperties fourByteProperties = .ok config := rfl
  have hadmits : (start config .initial).AdmitsAll is := by
    refine ⟨⟨nofun, ?_⟩, ⟨nofun, ?_⟩, ⟨nofun, ?_⟩, ⟨nofun, ?_⟩, trivial⟩ <;> decide +kernel
  have htime : (start config .initial).KeepsTime is := by
    refine ⟨fun h => ?_, fun h => ?_, fun h => ?_, fun h => ?_, trivial⟩ <;>
      exact absurd h.2 (by decide +kernel)
  obtain ⟨hopen, -, hfilled⟩ := closed_at_thresholds hconfig .initial hadmits (by decide)
  obtain ⟨-, hleast, hmost⟩ := hfilled htime
  refine ⟨by decide +kernel, by decide +kernel, hleast 3 (by decide +kernel), hmost, ?_⟩
  intro chunk hchunk
  exact (hopen .tick _ .empty ⟨nofun, by decide +kernel⟩ trivial chunk hchunk).2 _ (by simp [config])

end SessionRun

end StreamCatalog
