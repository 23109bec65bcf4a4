import ExchangeLoad.Run.Control

/-!
The timed loop of a run: the start, then a tick at every interval, until the time is up, the run is
aborted, somebody asks it to stop, or a call fails. A call under way is given up at that moment.

The first tick is due when the start is over. A tick that comes more than five milliseconds late
moves all later ones.
-/

namespace ExchangeLoad.Run

/-- Why the timed loop ends while no call has failed. -/
inductive Cause where
  | deadline
  | abort
  | signal
deriving DecidableEq, Repr, Inhabited

/-- What the run ends with for a cause. -/
def Cause.outcome : Cause → Outcome
  | deadline => .completed
  | abort => .errorBudgetExceeded
  | signal => .interrupted

/-- Whether the timed loop is under way. -/
def driving (r : Run) : Bool :=
  match r.loop with
  | .unstarted => false
  | .ended .. => false
  | _ => true

/-- Whether a cause holds. -/
def holds (r : Run) : Cause → Bool
  | .deadline => r.deadline ≤ r.now
  | .abort => r.aborted
  | .signal => r.signalled

/-- The call that the timed loop waits for. -/
def drivenCall (r : Run) : Option Nat :=
  match r.loop with
  | .starting c => some c
  | .ticking c _ => some c
  | _ => none

/-- The timed loop begins. -/
def drive (r : Run) (scene : Scene) : Option Run :=
  match r.loop with
  | .unstarted =>
    let c := r.controls.size
    some { r.enter .start true with
      loop := .starting c
      deadline := r.now + 1000 * scene.schedule.duration }
  | _ => none

/-- The result of a call that is over. -/
def resultOf (r : Run) (c : Nat) : Option (Except RunError (List Task)) :=
  match (r.controls[c]?).map Control.stand with
  | some (.ended result) => some result
  | _ => none

/-- The timed loop takes note of a call that is over: it goes on to the next tick, or ends with what
    the failure implies. -/
def collect (r : Run) : Option Run := do
  let c ← r.drivenCall
  match ← r.resultOf c with
  | .error e => return { r with loop := .ended (.ofError e) r.now }
  | .ok _ =>
    match r.loop with
    | .ticking _ due => return { r with loop := .resting due }
    | _ => return { r with loop := .resting r.now }

/-- When the tick after one that was due is due. -/
def nextDue (scene : Scene) (due now : Nat) : Nat :=
  if due + 5 < now then now + scene.schedule.tickInterval else due + scene.schedule.tickInterval

/-- A tick that is due is made. -/
def tick (r : Run) (scene : Scene) : Option Run :=
  match r.loop with
  | .resting due =>
    if due ≤ r.now then
      let c := r.controls.size
      some { r.enter .tick true with loop := .ticking c (nextDue scene due r.now) }
    else none
  | _ => none

/-- The timed loop ends for a cause that holds, and gives up the call under way. -/
def leave (r : Run) (cause : Cause) : Option Run :=
  if r.driving && r.holds cause then
    let stopped := (r.drivenCall.bind r.giveUp).getD r
    some { stopped with loop := .ended cause.outcome r.now }
  else none

end ExchangeLoad.Run
