import ExchangeLoad.Run.State

/-!
The execution of tasks. A task waits for its delay, during which an abort drops it, and then its body
starts. A job that fails counts an error, and the error that uses up the budget aborts the run; what
becomes of a deposit changes nothing but the record of it.
-/

namespace ExchangeLoad.Run

/-- The execution with a number ends now, with or without a failure. -/
def endExecution (r : Run) (e : Nat) (failure : Option Fault) : Run :=
  r.close e (.ended r.now failure)

/-- Counts the failure of a job; the run is aborted when that uses up the budget. -/
def countFailure (r : Run) : Run :=
  let tracker := r.tracker.countError
  { r with
    tracker
    failures := r.failures.push tracker
    aborted := r.aborted || decide tracker.Spent }

/-- A job came to its end. -/
def conclude (r : Run) (e : Nat) (failure : Option Fault) : Run :=
  match failure with
  | none => r.endExecution e none
  | some why => (r.endExecution e (some why)).countFailure

/-- Takes a trader's job as far as a stretch brought it. -/
def advance (r : Run) (e i : Nat) (after : Investor × Progress) : Run :=
  let r := r.withInvestor i after.1
  match after.2 with
  | .waits point => r.withPhase e (.asking point)
  | .ended failure => r.conclude e failure

/-- Notes down what a scripted job does. -/
def note (r : Run) (label what : String) : Run :=
  { r with notes := r.notes.push ⟨label, what, r.now⟩ }

/-- A scripted job is done with its work: it scores, changes its investor, and fails if it is to. -/
def perform (r : Run) (e : Nat) (s : Script) : Run :=
  let r := { r with tracker := r.tracker.addScore s.score }
  let r := match s.change with
    | some c => (r.investors[c.investor]?).elim r fun v => r.withInvestor c.investor (v.change c)
    | none => r
  r.conclude e (s.failure.map Fault.plain)

/-- A scripted job starts. -/
def beginScript (r : Run) (e : Nat) (label : String) (s : Script) : Run :=
  let r := r.note label (if r.aborted then "run-cancelled" else "run")
  match s.work with
  | none => r.perform e s
  | some ms =>
    if r.aborted && !s.stubborn then (r.note label "stopped").conclude e none
    else r.withPhase e (.working (r.now + ms))

/-- The body of a task starts. -/
def beginBody (r : Run) (e : Nat) : Run :=
  let r := { r with executions := r.executions.modify e fun x => { x with began := some r.now } }
  match (r.executions[e]?).map Execution.task with
  | some (.exec label _ job) =>
    match job with
    | .signIn i => (r.investors[i]?).elim r fun v => r.advance e i (v.beginSignIn r.aborted)
    | .trade i price => (r.investors[i]?).elim r fun v => r.advance e i (v.beginTrade price)
    | .scripted s => r.beginScript e label s
  | some (.enrol i credit) =>
    { r with deposits := r.deposits.push ⟨r.identity i, credit, none⟩ }.withPhase e
      (.depositing r.deposits.size)
  | none => r

/-- The execution with a number is looked at for the first time: a task without delay starts, and one
    with a delay waits for it, unless the run has been aborted. -/
def look (r : Run) (e : Nat) : Option Run := do
  let x ← r.executions[e]?
  match x.phase with
  | .waiting =>
    if x.task.delay = 0 then return r.beginBody e
    else if r.aborted then return r.close e (.dropped r.now)
    else return r.withPhase e (.delayed (r.now + x.task.delay))
  | _ => none

/-- The delay of a task is over. -/
def elapse (r : Run) (e : Nat) : Option Run := do
  let x ← r.executions[e]?
  match x.phase with
  | .delayed wake => if wake ≤ r.now then some (r.beginBody e) else none
  | _ => none

/-- A task in its delay is dropped because the run has been aborted. -/
def forgo (r : Run) (e : Nat) : Option Run := do
  let x ← r.executions[e]?
  match x.phase with
  | .delayed _ => if r.aborted then some (r.close e (.dropped r.now)) else none
  | _ => none

/-- The trader whose job a task is. -/
def traderOf : Task → Option Nat
  | .exec _ _ (.signIn i) => some i
  | .exec _ _ (.trade i _) => some i
  | _ => none

/-- A trader's job is answered. -/
def hear (r : Run) (e : Nat) (reply : Reply) : Option Run := do
  let x ← r.executions[e]?
  match x.phase with
  | .asking point => do
    let i ← traderOf x.task
    let v ← r.investors[i]?
    let (v, gain, progress) ← v.resume point reply r.aborted
    return { r with tracker := r.tracker.addScore gain }.advance e i (v, progress)
  | _ => none

/-- A scripted job has worked for as long as it was to. -/
def finish (r : Run) (e : Nat) : Option Run := do
  let x ← r.executions[e]?
  match x.phase, x.task with
  | .working wake, .exec label _ (.scripted s) =>
    if wake ≤ r.now then some ((r.note label "done").perform e s) else none
  | _, _ => none

/-- A scripted job stops working because the run has been aborted; that is no failure. -/
def stop (r : Run) (e : Nat) : Option Run := do
  let x ← r.executions[e]?
  match x.phase, x.task with
  | .working _, .exec label _ (.scripted s) =>
    if r.aborted && !s.stubborn then some ((r.note label "stopped").conclude e none) else none
  | _, _ => none

/-- A deposit is decided. -/
def settleDeposit (r : Run) (deposit : Nat) (accepted : Bool) : Run :=
  { r with deposits := r.deposits.modify deposit fun d => { d with outcome := some accepted } }

/-- The deposit of an enrolment is decided; whatever became of it, the investor is registered. -/
def enrol (r : Run) (e : Nat) (accepted : Bool) : Option Run := do
  let x ← r.executions[e]?
  match x.phase, x.task with
  | .depositing deposit, .enrol i _ =>
    let r := r.settleDeposit deposit accepted
    return { r with registry := r.registry.add i }.endExecution e none
  | _, _ => none

end ExchangeLoad.Run
