/-!
# The state of a stream

The state of a stream is one word that is shown to everybody and is written from
two sides: by those who start and stop the stream, and by the reception of the
stream while it closes a chunk. Closing a chunk reads the state, marks it, and
restores it at the end; `RolloverPhase.step` takes these steps one at a time.
-/

namespace StreamCatalog

/-- The state of a stream. -/
inductive StreamState where
  /-- The stream is not received. -/
  | stopped
  /-- The stream is about to be received. -/
  | starting
  /-- The stream is received. -/
  | monitoring
  /-- A chunk is being closed. -/
  | rollingOver
  /-- The reception is about to end. -/
  | stopping
deriving DecidableEq, Repr, Inhabited

/-- The name of a state. -/
def StreamState.name : StreamState → String
  | stopped => "STOPPED"
  | starting => "STARTING"
  | monitoring => "MONITORING"
  | rollingOver => "ROLLING_OVER"
  | stopping => "STOPPING"

/-- How far the closing of a chunk has come, with whether the stream was monitored then. -/
inductive RolloverPhase where
  /-- The state is not yet read. -/
  | start
  /-- The state is read. -/
  | seen (monitored : Bool)
  /-- The state is marked, and the file is being closed. -/
  | closing (monitored : Bool)
  /-- The state is restored. -/
  | done
deriving DecidableEq, Repr

namespace RolloverPhase

/-- The next step of closing a chunk, and the state after it. -/
def step : RolloverPhase → StreamState → RolloverPhase × StreamState
  | start, state => (seen (state = .monitoring), state)
  | seen monitored, state => (closing monitored, if monitored then .rollingOver else state)
  | closing monitored, state => (done, if monitored then .monitoring else state)
  | done, state => (done, state)

/-- The state after the steps that precede the closing of the file. -/
def mark (state : StreamState) : RolloverPhase × StreamState :=
  let (phase, state) := step start state
  step phase state

/-- When nobody else writes the state, it is restored at the end. -/
theorem step_mark (state : StreamState) :
    step (mark state).1 (mark state).2 = (done, state) := by
  cases state <;> rfl

end RolloverPhase

end StreamCatalog
