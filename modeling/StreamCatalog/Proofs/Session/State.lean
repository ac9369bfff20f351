import StreamCatalog.Monitor.Basic

/-!
# The state of a stream that is stopped while a chunk is closed

A stop announces itself in the state, and the closing of a chunk marks and restores
the state, each without a look at the other. A stop that begins when the closing has
read the state and not yet restored it is overwritten: the state then says that the
stream is monitored, until the stop has ended. Any other stop can be read in the
state from its beginning to its end (`SharedState.state_while_stopping`).
-/

namespace StreamCatalog

/-- The state of a stream, with those that write it. -/
structure SharedState where
  /-- The state. -/
  state : StreamState
  /-- The command that is being carried out; there is no other meanwhile. -/
  command : Option MonitorCommand
  /-- Whether the stream is received. -/
  receiving : Bool
  /-- How far the closing of the last chunk has come. -/
  rollover : RolloverPhase
deriving DecidableEq

/-- What those that write the state of a stream may do next. -/
inductive StateMove where
  /-- A start begins. -/
  | start
  /-- The socket cannot be bound, and the start ends. -/
  | failStart
  /-- The start ends, and the stream is received. -/
  | receive
  /-- A chunk is to be closed. -/
  | rollOver
  /-- The closing of the chunk takes a step. -/
  | advance
  /-- A stop begins. -/
  | stop
  /-- The reception ends, as the stop wants it. -/
  | endReception
  /-- The stop ends. -/
  | finishStop
deriving DecidableEq

namespace SharedState

/-- A stream that was never started. -/
def initial : SharedState := ⟨.stopped, none, false, .done⟩

/-- The state after a move, if the move is possible. -/
def move (w : SharedState) : StateMove → Option SharedState
  | .start =>
    if w.command = none ∧ w.receiving = false then
      some { w with state := .starting, command := some .start }
    else none
  | .failStart =>
    if w.command = some .start then some { w with state := .stopped, command := none } else none
  | .receive =>
    if w.command = some .start then some ⟨.monitoring, none, true, .done⟩ else none
  | .rollOver =>
    if w.receiving = true ∧ w.rollover = .done then some { w with rollover := .start } else none
  | .advance =>
    if w.receiving = true ∧ w.rollover ≠ .done then
      let (rollover, state) := w.rollover.step w.state
      some { w with state := state, rollover := rollover }
    else none
  | .stop =>
    if w.command = none ∧ w.receiving = true then
      some { w with state := .stopping, command := some .stop }
    else none
  | .endReception =>
    if w.command = some .stop ∧ w.receiving = true ∧ w.rollover = .done then
      some { w with receiving := false }
    else none
  | .finishStop =>
    if w.command = some .stop ∧ w.receiving = false then
      some { w with state := .stopped, command := none }
    else none

/-- The state after some moves, if they are possible. -/
def run (w : SharedState) : List StateMove → Option SharedState
  | [] => some w
  | m :: moves => (w.move m).bind fun v => v.run moves

theorem run_append (w : SharedState) (moves more : List StateMove) :
    w.run (moves ++ more) = (w.run moves).bind fun v => v.run more := by
  induction moves generalizing w with
  | nil => rfl
  | cons m moves ih =>
    simp only [List.cons_append, run, ih]
    cases w.move m <;> rfl

/-- When nothing comes between the steps in which a chunk is closed, the state is restored. -/
theorem run_rollOver {w : SharedState} (hreceiving : w.receiving = true)
    (hrollover : w.rollover = .done) : w.run [.rollOver, .advance, .advance, .advance] = some w := by
  obtain ⟨state, command, receiving, rollover⟩ := w
  cases hreceiving
  cases hrollover
  cases state <;> rfl

end SharedState

namespace RolloverPhase

/-- Whether the closing of a chunk has found the stream monitored, and is yet to say so again. -/
def isPending : RolloverPhase → Bool
  | seen monitored => monitored
  | closing monitored => monitored
  | _ => false

/-- What can be read of a stream that is monitored, but for the closing of chunks. -/
inductive Shows : RolloverPhase → StreamState → Prop where
  /-- Nothing is being closed. -/
  | done : Shows done .monitoring
  /-- The state is not yet read. -/
  | start : Shows start .monitoring
  /-- The state is not yet marked. -/
  | seen : Shows (seen true) .monitoring
  /-- The state is marked. -/
  | closing : Shows (closing true) .rollingOver

end RolloverPhase

namespace SharedState

/-! ## What a move leads to -/

/-- Whether the stream is being stopped, and no closing of a chunk is to write the state. -/
inductive IsCalm : SharedState → Prop where
  /-- The stop can be read. -/
  | stopping {receiving : Bool} {phase : RolloverPhase} (calm : phase.isPending = false)
      (ended : receiving = false → phase = .done) :
    IsCalm ⟨.stopping, some .stop, receiving, phase⟩

/-- Whether the stream is being stopped, and the closing of a chunk is to write the state. -/
inductive IsOvertaking : SharedState → Prop where
  /-- The stop can still be read. -/
  | stopping {phase : RolloverPhase} (pending : phase.isPending = true) :
    IsOvertaking ⟨.stopping, some .stop, true, phase⟩

/-- Whether the stream is being stopped, and the closing of a chunk has written the state. -/
inductive IsOvertaken : SharedState → Prop where
  /-- The stream seems to be monitored. -/
  | shows {state : StreamState} {receiving : Bool} {phase : RolloverPhase}
      (shows : phase.Shows state) (ended : receiving = false → phase = .done) :
    IsOvertaken ⟨state, some .stop, receiving, phase⟩

/-- What those that write a state can be at. -/
inductive Situation : SharedState → Prop where
  /-- The stream is stopped. -/
  | stopped : Situation initial
  /-- The stream is being started. -/
  | starting : Situation ⟨.starting, some .start, false, .done⟩
  /-- The stream is received. -/
  | monitored {state : StreamState} {phase : RolloverPhase} (shows : phase.Shows state) :
    Situation ⟨state, none, true, phase⟩
  /-- The stream is being stopped. -/
  | calm {w : SharedState} (h : w.IsCalm) : Situation w
  /-- The stop is about to be overwritten. -/
  | overtaking {w : SharedState} (h : w.IsOvertaking) : Situation w
  /-- The stop is overwritten. -/
  | overtaken {w : SharedState} (h : w.IsOvertaken) : Situation w

variable {w v : SharedState} {m : StateMove}

/-- A stop that can be read stays so until it ends. -/
theorem IsCalm.move (h : w.IsCalm) (hmove : w.move m = some v) :
    (m = .finishStop ∧ v = initial) ∨ (m ≠ .finishStop ∧ v.IsCalm) := by
  obtain @⟨receiving, phase, calm, ended⟩ := h
  cases m with
  | rollOver =>
    cases receiving <;> cases phase <;> cases hmove
    exact .inr ⟨nofun, .stopping rfl nofun⟩
  | advance =>
    cases receiving
    · cases hmove
    · cases phase with
      | start =>
        cases hmove
        exact .inr ⟨nofun, .stopping rfl nofun⟩
      | seen monitored | closing monitored =>
        cases calm
        cases hmove
        exact .inr ⟨nofun, .stopping rfl nofun⟩
      | done => cases hmove
  | endReception =>
    cases receiving <;> cases phase <;> cases hmove
    exact .inr ⟨nofun, .stopping rfl fun _ => rfl⟩
  | finishStop =>
    cases receiving
    · cases ended rfl
      cases hmove
      exact .inl ⟨rfl, rfl⟩
    · cases hmove
  | _ => cases hmove

/-- All that can happen when the closing of a chunk is to write the state is that it does. -/
theorem IsOvertaking.move (h : w.IsOvertaking) (hmove : w.move m = some v) :
    m ≠ .finishStop ∧ v.IsOvertaken := by
  obtain @⟨phase, pending⟩ := h
  cases phase with
  | seen monitored | closing monitored =>
    cases pending
    cases m with
    | advance =>
      cases hmove
      exact ⟨nofun, .shows (by constructor) nofun⟩
    | _ => cases hmove
  | _ => cases pending

/-- A stop that is overwritten stays so until it ends. -/
theorem IsOvertaken.move (h : w.IsOvertaken) (hmove : w.move m = some v) :
    (m = .finishStop ∧ v = initial) ∨ (m ≠ .finishStop ∧ v.IsOvertaken) := by
  obtain @⟨state, receiving, phase, shows, ended⟩ := h
  cases m with
  | rollOver =>
    cases receiving <;> cases shows <;> cases hmove
    exact .inr ⟨nofun, .shows .start nofun⟩
  | advance =>
    cases receiving <;> cases shows <;> cases hmove
    · exact .inr ⟨nofun, .shows .seen nofun⟩
    · exact .inr ⟨nofun, .shows .closing nofun⟩
    · exact .inr ⟨nofun, .shows .done nofun⟩
  | endReception =>
    cases receiving <;> cases shows <;> cases hmove
    exact .inr ⟨nofun, .shows .done fun _ => rfl⟩
  | finishStop =>
    cases receiving
    · cases ended rfl
      cases hmove
      exact .inl ⟨rfl, rfl⟩
    · cases hmove
  | _ => cases hmove

/-- Moves lead from one situation to another. -/
theorem Situation.move (h : w.Situation) (hmove : w.move m = some v) : v.Situation := by
  cases h with
  | stopped =>
    cases m with
    | start =>
      cases hmove
      exact .starting
    | _ => cases hmove
  | starting =>
    cases m with
    | failStart =>
      cases hmove
      exact .stopped
    | receive =>
      cases hmove
      exact .monitored .done
    | _ => cases hmove
  | monitored shows =>
    cases m with
    | rollOver =>
      cases shows <;> cases hmove
      exact .monitored .start
    | advance =>
      cases shows <;> cases hmove
      · exact .monitored .seen
      · exact .monitored .closing
      · exact .monitored .done
    | stop =>
      cases shows <;> cases hmove
      · exact .calm (.stopping rfl nofun)
      · exact .calm (.stopping rfl nofun)
      · exact .overtaking (.stopping rfl)
      · exact .overtaking (.stopping rfl)
    | _ => cases hmove
  | calm h =>
    rcases h.move hmove with ⟨-, rfl⟩ | ⟨-, h⟩
    · exact .stopped
    · exact .calm h
  | overtaking h => exact .overtaken (h.move hmove).2
  | overtaken h =>
    rcases h.move hmove with ⟨-, rfl⟩ | ⟨-, h⟩
    · exact .stopped
    · exact .overtaken h

/-! ## What moves in any order lead to -/

theorem Situation.run {moves : List StateMove} (h : w.Situation) (hrun : w.run moves = some v) :
    v.Situation := by
  induction moves generalizing w with
  | nil =>
    cases hrun
    exact h
  | cons m moves ih =>
    obtain ⟨u, hmove, hrun⟩ := Option.bind_eq_some_iff.1 hrun
    exact ih (h.move hmove) hrun

/-- Whether moves lead from one to the other while a stop goes on. -/
def Proceeds (w v : SharedState) : Prop :=
  ∃ moves, .finishStop ∉ moves ∧ w.run moves = some v

theorem Proceeds.refl (w : SharedState) : w.Proceeds w :=
  ⟨[], List.not_mem_nil, rfl⟩

theorem Proceeds.trans {u : SharedState} (h : w.Proceeds v) (h' : v.Proceeds u) :
    w.Proceeds u := by
  obtain ⟨moves, hmoves, hrun⟩ := h
  obtain ⟨more, hmore, hrun'⟩ := h'
  refine ⟨moves ++ more, by simp [hmoves, hmore], ?_⟩
  rw [run_append, hrun]
  exact hrun'

/-- What moves keep while a stop goes on holds as long as it goes on. -/
theorem Proceeds.keeps {P : SharedState → Prop}
    (step : ∀ {w v m}, P w → m ≠ .finishStop → w.move m = some v → P v) (h : w.Proceeds v)
    (hw : P w) : P v := by
  obtain ⟨moves, hmoves, hrun⟩ := h
  induction moves generalizing w with
  | nil =>
    cases hrun
    exact hw
  | cons m moves ih =>
    obtain ⟨u, hmove, hrun⟩ := Option.bind_eq_some_iff.1 hrun
    obtain ⟨hm, hmoves⟩ := not_or.1 (mt List.mem_cons.2 hmoves)
    exact ih (step hw (Ne.symm hm) hmove) hmoves hrun

theorem IsCalm.proceeds (h : w.IsCalm) (hproceeds : w.Proceeds v) : v.IsCalm :=
  hproceeds.keeps (fun h hm hmove => ((h.move hmove).resolve_left fun h => hm h.1).2) h

theorem IsOvertaken.proceeds (h : w.IsOvertaken) (hproceeds : w.Proceeds v) : v.IsOvertaken :=
  hproceeds.keeps (fun h hm hmove => ((h.move hmove).resolve_left fun h => hm h.1).2) h

/-- A stop can end whatever the closing of a chunk is at. -/
theorem exists_finishStop (state : StreamState) (phase : RolloverPhase) :
    ∃ last, Proceeds ⟨state, some .stop, true, phase⟩ last ∧
      last.move .finishStop = some initial := by
  cases phase with
  | start => exact ⟨_, ⟨[.advance, .advance, .advance, .endReception], by decide, rfl⟩, rfl⟩
  | seen => exact ⟨_, ⟨[.advance, .advance, .endReception], by decide, rfl⟩, rfl⟩
  | closing => exact ⟨_, ⟨[.advance, .endReception], by decide, rfl⟩, rfl⟩
  | done => exact ⟨_, ⟨[.endReception], by decide, rfl⟩, rfl⟩

theorem IsCalm.exists_finishStop (h : w.IsCalm) :
    ∃ last, w.Proceeds last ∧ last.move .finishStop = some initial := by
  obtain @⟨receiving, phase, -, ended⟩ := h
  cases receiving with
  | true => exact SharedState.exists_finishStop _ phase
  | false =>
    cases ended rfl
    exact ⟨_, .refl _, rfl⟩

theorem IsOvertaken.exists_finishStop (h : w.IsOvertaken) :
    ∃ last, w.Proceeds last ∧ last.move .finishStop = some initial := by
  obtain @⟨state, receiving, phase, -, ended⟩ := h
  cases receiving with
  | true => exact SharedState.exists_finishStop state phase
  | false =>
    cases ended rfl
    exact ⟨_, .refl _, rfl⟩

theorem IsOvertaken.state_eq (h : w.IsOvertaken) :
    w.state = .monitoring ∨ w.state = .rollingOver := by
  obtain ⟨shows, -⟩ := h
  cases shows with
  | closing => exact .inr rfl
  | _ => exact .inl rfl

theorem IsOvertaken.state_ne (h : w.IsOvertaken) : w.state ≠ .stopping := by
  rcases h.state_eq with hstate | hstate <;> rw [hstate] <;> exact nofun

/-- What a stop that begins finds, and what comes of it. -/
theorem Situation.stop (h : w.Situation) (hstop : w.move .stop = some v) :
    (w.rollover.isPending = false ∧ v.IsCalm) ∨
      (w.rollover.isPending = true ∧ v.IsOvertaking) := by
  cases h with
  | monitored shows =>
    cases shows <;> cases hstop
    · exact .inl ⟨rfl, .stopping rfl nofun⟩
    · exact .inl ⟨rfl, .stopping rfl nofun⟩
    · exact .inr ⟨rfl, .stopping rfl⟩
    · exact .inr ⟨rfl, .stopping rfl⟩
  | stopped | starting => cases hstop
  | calm h | overtaking h | overtaken h =>
    cases h
    cases hstop

theorem IsOvertaking.proceeds (h : w.IsOvertaking) (hproceeds : w.Proceeds v) :
    v = w ∨ v.IsOvertaken := by
  obtain ⟨moves, hmoves, hrun⟩ := hproceeds
  cases moves with
  | nil =>
    cases hrun
    exact .inl rfl
  | cons m moves =>
    obtain ⟨u, hmove, hrun⟩ := Option.bind_eq_some_iff.1 hrun
    exact .inr ((h.move hmove).2.proceeds ⟨moves, fun h => hmoves (List.mem_cons_of_mem m h), hrun⟩)

/-- The closing of a chunk that is to write the state does so in its next step. -/
theorem IsOvertaking.exists_overtaken (h : w.IsOvertaking) : ∃ v, w.Proceeds v ∧ v.IsOvertaken := by
  obtain ⟨v, hmove⟩ : ∃ v, w.move .advance = some v := by
    obtain @⟨phase, pending⟩ := h
    cases phase with
    | seen | closing => exact ⟨_, rfl⟩
    | _ => cases pending
  exact ⟨v, ⟨[.advance], by decide, by rw [SharedState.run, hmove]; rfl⟩, (h.move hmove).2⟩

/-- While a stop goes on, nothing but it can be read, just when no closing of a chunk had found the
stream monitored as the stop began, and was yet to say so again. Else the closing overwrites the
stop, which cannot be read again. In any case the stop can end, and does so in a stopped stream. -/
theorem state_while_stopping {before : List StateMove} (hrun : initial.run before = some w)
    (hstop : w.move .stop = some v) :
    v.state = .stopping ∧
      ((∀ u, v.Proceeds u → u.state = .stopping) ↔ w.rollover.isPending = false) ∧
      ∀ u, v.Proceeds u →
        (u.state ≠ .stopping → ∀ later, u.Proceeds later →
          later.state = .monitoring ∨ later.state = .rollingOver) ∧
        (∀ ended, u.move .finishStop = some ended → ended = initial) ∧
        ∃ last, u.Proceeds last ∧ last.move .finishStop = some initial := by
  rcases (Situation.stopped.run hrun).stop hstop with ⟨hpending, hcalm⟩ | ⟨hpending, hovertaking⟩
  · -- The closing writes the state no more, so the stop is left alone.
    have hread (u : SharedState) (hu : v.Proceeds u) : u.state = .stopping := by
      cases hcalm.proceeds hu
      rfl
    refine ⟨hread v (.refl v), iff_of_true hread hpending, fun u hu => ?_⟩
    have hu' := hcalm.proceeds hu
    refine ⟨absurd (hread u hu), fun ended hended => ?_, hu'.exists_finishStop⟩
    rcases hu'.move hended with ⟨-, hended⟩ | ⟨hne, -⟩
    · exact hended
    · exact absurd rfl hne
  · -- The next step of the closing overwrites the stop, and no other step can come before it.
    obtain ⟨x, hx, hovertaken⟩ := hovertaking.exists_overtaken
    have hstate : v.state = .stopping := by
      cases hovertaking
      rfl
    refine ⟨hstate, iff_of_false (fun h => hovertaken.state_ne (h x hx)) (by simp [hpending]),
      fun u hu => ?_⟩
    rcases hovertaking.proceeds hu with rfl | hu'
    · refine ⟨absurd hstate, fun ended hended => absurd rfl (hovertaking.move hended).1, ?_⟩
      obtain ⟨last, hlast, hfinish⟩ := hovertaken.exists_finishStop
      exact ⟨last, hx.trans hlast, hfinish⟩
    · refine ⟨fun _ later hlater => (hu'.proceeds hlater).state_eq, fun ended hended => ?_,
        hu'.exists_finishStop⟩
      rcases hu'.move hended with ⟨-, hended⟩ | ⟨hne, -⟩
      · exact hended
      · exact absurd rfl hne

theorem stop_before_reading :
    ∃ w v, initial.run [.start, .receive, .rollOver] = some w ∧ w.move .stop = some v ∧
      ∀ u, v.Proceeds u → u.state = .stopping :=
  have h := state_while_stopping
    (show initial.run [.start, .receive, .rollOver] = some _ from rfl) rfl
  ⟨_, _, rfl, rfl, h.2.1.2 rfl⟩

/-- A stop between the first two steps of the closing of a chunk is overwritten. -/
theorem stop_overwritten :
    (initial.run [.start, .receive, .rollOver, .advance, .stop]).map (·.state) = some .stopping ∧
      (initial.run [.start, .receive, .rollOver, .advance, .stop, .advance]).map (·.state) =
        some .rollingOver ∧
      (initial.run [.start, .receive, .rollOver, .advance, .stop, .advance, .advance]).map
        (·.state) = some .monitoring := by
  decide

end SharedState

end StreamCatalog
