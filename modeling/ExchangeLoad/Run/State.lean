import ExchangeLoad.Batch
import ExchangeLoad.Investor.Jobs
import ExchangeLoad.Pipeline
import ExchangeLoad.Registry
import ExchangeLoad.Report
import ExchangeLoad.Settings
import ExchangeLoad.Threshold

/-!
The state of a run. What happened is kept beside what is: every request and answer of a client, every
registration and deposit, every level reached and every job that failed, and of each task when it was
handed over, when its body began and when it ended. Nothing is taken out of these histories.

`Scene` holds what is fixed before a run begins: its settings and the sources of everything drawn at
random.
-/

namespace ExchangeLoad

/-- What is fixed before a run begins. -/
structure Scene where
  settings : Settings
  /-- The pause after a registration that failed, in milliseconds. -/
  retryDelay : Nat
  schedule : Config.Schedule
  /-- The identities that are drawn, in order. -/
  identity : Nat → Identity
  /-- The names that are drawn, in order. -/
  displayName : Nat → String
  /-- The secrets that are drawn, in order. -/
  secret : Nat → String
  /-- What is drawn for trades, in order. -/
  draw : Nat → Draw
  /-- How the investor with a number goes about things. -/
  manner : Nat → Params → Manner

/-- What the controller can be called to do. -/
inductive Command where
  /-- Makes the exchange ready and creates the founding batch. -/
  | start
  /-- Hands out work for one tick, and raises the level as far as the score allows. -/
  | tick
deriving DecidableEq, Repr, Inhabited

/-- How far a tick has come with raising the level. -/
structure Climb where
  /-- The score that the tick goes by. -/
  score : Int
  /-- The price of the day for the batch under way. -/
  price : Int
  /-- What the tick hands out, so far. -/
  tasks : List Task
deriving DecidableEq, Repr, Inhabited

/-- Where a call of the controller stands. Only the first call in the controller's line goes on. -/
inductive Stand where
  /-- It waits for the controller. -/
  | queued
  /-- It waits for the exchange to be made ready by a guest. -/
  | booting (guest : Nat)
  /-- It waits for the identity of a founding slot. -/
  | founding (slot ticket : Nat) (tasks : List Task)
  /-- It waits for the deposit for the investor of a founding slot. -/
  | funding (slot investor deposit : Nat) (tasks : List Task)
  /-- It waits for the identity of a slot of the batch that the level brings. -/
  | raising (climb : Climb) (slot ticket : Nat)
  /-- It raised the level by an empty batch, and is to look at the score again. It waits for nothing, but
      others may go on before it does. -/
  | weighing (climb : Climb)
  | ended (result : Except RunError (List Task))
  /-- Its caller gave it up. -/
  | dropped
deriving Repr, Inhabited

/-- What a tick set out from. -/
structure Outset where
  /-- The score that it found. -/
  score : Int
  /-- The work that it started and collected. -/
  tasks : List Task
deriving DecidableEq, Repr, Inhabited

/-- A call of the controller. -/
structure Control where
  command : Command
  /-- Whether the timed loop made the call, which submits at once what the call hands out. -/
  driven : Bool
  /-- The guest of a start, once there is one. -/
  guest : Option Nat
  /-- What a tick set out from, once it has the controller. -/
  outset : Option Outset
  stand : Stand
deriving Repr, Inhabited

/-- Where the execution of a task stands. -/
inductive Phase where
  /-- It was handed over, and nobody has looked at it. -/
  | waiting
  /-- Its delay ends at a time. -/
  | delayed (wake : Nat)
  /-- Its job waits for an answer. -/
  | asking (point : Point)
  /-- Its scripted job works until a time. -/
  | working (wake : Nat)
  /-- Its deposit is to be decided. -/
  | depositing (deposit : Nat)
  | ended (time : Nat) (failure : Option Fault)
  /-- The run was aborted during its delay. -/
  | dropped (time : Nat)
deriving DecidableEq, Repr, Inhabited

/-- The execution of a task. -/
structure Execution where
  task : Task
  /-- Whether it was submitted; otherwise its caller waits for it. -/
  submitted : Bool
  /-- When it was handed over. -/
  since : Nat
  /-- When its body began. -/
  began : Option Nat
  phase : Phase
deriving DecidableEq, Repr, Inhabited

namespace Execution

/-- Whether a scripted job goes on working when the run is aborted. -/
def stubborn (e : Execution) : Bool :=
  match e.task with
  | .exec _ _ (.scripted s) => s.stubborn
  | _ => false

/-- Whether an execution is over. -/
def finished (e : Execution) : Bool :=
  match e.phase with
  | .ended .. => true
  | .dropped _ => true
  | _ => false

/-- Whether a submitted task is neither finished nor dropped. -/
def underWay (e : Execution) : Bool := e.submitted && !e.finished

/-- The moment for which an execution waits. -/
def moment (e : Execution) : Option Nat :=
  match e.phase with
  | .delayed wake => some wake
  | .working wake => some wake
  | _ => none

end Execution

/-- A deposit and what became of it. -/
structure Deposit where
  id : Identity
  amount : Int
  /-- Whether it succeeded, once that is known. -/
  outcome : Option Bool
deriving DecidableEq, Repr, Inhabited

/-- A tick looked at the level. -/
structure Weighing where
  /-- The call that looked. -/
  control : Nat
  /-- The level that it found. -/
  level : Nat
  /-- The score that the call goes by. -/
  score : Int
  /-- The errors counted at that moment. -/
  errors : Int
  /-- The price of the day, if it raised the level. -/
  rose : Option Int
deriving DecidableEq, Repr, Inhabited

/-- Why an investor was built. -/
inductive Origin where
  /-- For a slot of the founding batch of a start. -/
  | founding (control slot : Nat)
  /-- For a slot of the batch that a level brought, at the price of the day. -/
  | rising (control level : Nat) (price : Int) (slot : Nat)
deriving DecidableEq, Repr, Inhabited

/-- Somebody waits for the tasks under way, for so long at most. -/
structure Shutdown where
  begun : Nat
  grace : Nat
  /-- Whether they all ended, and when that was answered. -/
  answer : Option (Bool × Nat)
deriving DecidableEq, Repr, Inhabited

/-- Whose client was created. -/
inductive Session where
  | guest (number : Nat)
  | investor (number : Nat)
deriving DecidableEq, Repr, Inhabited

/-- Something that a scripted job noted down. -/
structure Note where
  label : String
  what : String
  time : Nat
deriving DecidableEq, Repr, Inhabited

/-- Where the timed loop stands. -/
inductive Loop where
  | unstarted
  /-- It waits for the start. -/
  | starting (control : Nat)
  /-- It waits for the next tick, due at a time. -/
  | resting (due : Nat)
  /-- It waits for a tick; the next one is due at a time. -/
  | ticking (control due : Nat)
  | ended (outcome : Outcome) (time : Nat)
deriving DecidableEq, Repr, Inhabited

/-- The state of a run. -/
structure Run where
  /-- The time, in milliseconds. -/
  now : Nat
  tracker : Tracker
  /-- The tracker as each failed job left it, oldest first. -/
  failures : Array Tracker
  pipeline : Pipeline
  /-- In the order of building. -/
  investors : Array Investor
  /-- Why each investor was built. -/
  origins : Array Origin
  /-- The investors that were started, oldest first. -/
  starts : Array Nat
  registry : Registry Nat
  /-- The clients that make the exchange ready. -/
  guests : Array Client
  /-- Whose clients were created, oldest first. -/
  sessions : Array Session
  /-- How many names and secrets have been drawn. -/
  named : Nat
  /-- How many trades have been drawn for. -/
  drawn : Nat
  level : Nat
  /-- Every look at the level, oldest first. -/
  weighings : Array Weighing
  controls : Array Control
  /-- The calls that wait for the controller; the first one holds it. -/
  line : List Nat
  /-- The tasks handed out to callers, oldest first. -/
  held : List Task
  executions : Array Execution
  /-- How many submitted tasks are under way. -/
  inFlight : Nat
  deposits : Array Deposit
  /-- The budget is used up, or somebody else ended the run. -/
  aborted : Bool
  /-- Those who waited for the tasks under way, oldest first. -/
  shutdowns : Array Shutdown
  /-- Somebody asked the run to stop. -/
  signalled : Bool
  loop : Loop
  /-- When the timed loop ends. -/
  deadline : Nat
  notes : Array Note
deriving Repr, Inhabited

namespace Run

/-- A run that has not begun; `drawn` identities were drawn from the source before. -/
def fresh (floor ceiling : Int) (capacity drawn : Nat) : Run where
  now := 0
  tracker := .fresh floor ceiling
  failures := #[]
  pipeline := .fresh capacity drawn
  investors := #[]
  origins := #[]
  starts := #[]
  registry := .empty
  guests := #[]
  sessions := #[]
  named := 0
  drawn := 0
  level := 0
  weighings := #[]
  controls := #[]
  line := []
  held := []
  executions := #[]
  inFlight := 0
  deposits := #[]
  aborted := false
  shutdowns := #[]
  signalled := false
  loop := .unstarted
  deadline := 0
  notes := #[]

/-- Where the investor with a number is in its life. -/
def life (r : Run) (i : Nat) : Lifecycle := (r.investors[i]?).elim .retired Investor.life

/-- The identity of the investor with a number. -/
def identity (r : Run) (i : Nat) : Identity := (r.investors[i]?).elim ⟨""⟩ Investor.identity

/-- Changes the investor with a number. -/
def withInvestor (r : Run) (i : Nat) (v : Investor) : Run :=
  { r with investors := r.investors.set! i v }

/-- Changes where the execution with a number stands. -/
def withPhase (r : Run) (e : Nat) (phase : Phase) : Run :=
  { r with executions := r.executions.modify e fun x => { x with phase } }

/-- Changes where the call with a number stands. -/
def withStand (r : Run) (c : Nat) (stand : Stand) : Run :=
  { r with controls := r.controls.modify c fun x => { x with stand } }

/-- Ends the execution with a number, in a phase that is over. -/
def close (r : Run) (e : Nat) (phase : Phase) : Run :=
  let submitted := (r.executions[e]?).elim false Execution.submitted
  { r with inFlight := if submitted then r.inFlight - 1 else r.inFlight }.withPhase e phase

/-- Hands a task over for execution. -/
def launch (r : Run) (task : Task) (submitted : Bool) : Run :=
  { r with
    executions := r.executions.push ⟨task, submitted, r.now, none, .waiting⟩
    inFlight := if submitted then r.inFlight + 1 else r.inFlight }

/-- Submits tasks in order. -/
def submitAll (r : Run) (tasks : List Task) : Run := tasks.foldl (·.launch · true) r

/-- The price of the day: that of the latest trade that the earliest registered investor saw. -/
def marketPrice (r : Run) : Int :=
  let price := (r.registry.first?.bind (r.investors[·]?)).elim 0 Investor.price
  if price = 0 then Batch.initialPrice else price

/-- The summary of the run. -/
def report? (r : Run) (outcome : Outcome) : Option Report :=
  Report.collect? outcome r.level r.tracker r.registry r.life

end Run

end ExchangeLoad
