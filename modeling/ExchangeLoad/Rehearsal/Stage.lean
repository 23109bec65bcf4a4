import ExchangeLoad.Rehearsal.Script
import ExchangeLoad.Run.Step

/-!
A rehearsal performs a run by a fixed schedule against a scripted bank and exchange, under a clock
that jumps to the next moment for which anything waits.

What somebody waits for in the foreground goes first. In its shadow, actors take turns in the order in
which they became ready; after a burst of them, or when none is ready, the foreground is looked at
again. Everything an actor can do without waiting it does in one turn.
-/

namespace ExchangeLoad

/-- Somebody who takes turns in the background. -/
inductive Actor where
  /-- Somebody who runs the producer of the pipeline. -/
  | runner (k : Nat)
  /-- The execution of a submitted task. -/
  | execution (e : Nat)
  /-- Something that happens from outside. -/
  | event (k : Nat)
deriving DecidableEq, Repr, Inhabited

/-- Somebody is to become ready at a time. -/
structure Alarm where
  due : Nat
  actor : Actor
deriving DecidableEq, Repr, Inhabited

/-- What happens from outside. -/
inductive Event where
  | signal
  | abort
  | cancelProducer
  | score (delta : Int)
  | errors (times : Nat)
  /-- The exchange follows another script from now on. -/
  | exchange (script : ExchangeScript)
deriving DecidableEq, Repr, Inhabited

/-- A run on the stage. -/
structure Rehearsal where
  scene : Scene
  run : Run
  bank : BankScript
  exchange : ExchangeScript
  /-- Who is ready, in the order of turns. -/
  ready : List Actor
  /-- In the order in which they were set. -/
  alarms : List Alarm
  /-- The executions whose scripted jobs work; an abort reaches them from the back. -/
  bodies : List Nat
  /-- The executions that wait for their delay; an abort reaches them from the front. -/
  delays : List Nat
  /-- When the registration under way is decided. -/
  verdict : Option Nat
  /-- Of everybody who runs the producer in the background, whether their run is over. -/
  runners : Array Bool
  /-- Who of them is the producer. -/
  producer : Option Nat
  events : Array Event

namespace Rehearsal

/-- The stage before anything happened. -/
def empty (scene : Scene) (run : Run) (bank : BankScript) (exchange : ExchangeScript) : Rehearsal :=
  ⟨scene, run, bank, exchange, [], [], [], [], none, #[], none, #[]⟩

/-- The time. -/
def now (s : Rehearsal) : Nat := s.run.now

/-- Makes somebody ready, after everybody who is. -/
def call (s : Rehearsal) (a : Actor) : Rehearsal :=
  if s.ready.contains a then s else { s with ready := s.ready ++ [a] }

/-- Makes somebody ready at a time. -/
def alarm (s : Rehearsal) (due : Nat) (a : Actor) : Rehearsal :=
  { s with alarms := s.alarms ++ [⟨due, a⟩] }

/-- The list without an element, whose place is taken by the last one. -/
def swapOut (xs : List Nat) (x : Nat) : List Nat :=
  match xs.getLast? with
  | none => []
  | some last => if last = x then xs.dropLast else xs.dropLast.map fun y => if y = x then last else y

/-- The execution that a step concerns. -/
def executionOf : Run.Step → Option Nat
  | .look e => some e
  | .elapse e => some e
  | .forgo e => some e
  | .hear e _ => some e
  | .finish e => some e
  | .stop e => some e
  | .enrol e _ => some e
  | _ => none

/-- The phase of the execution with a number. -/
def phase (r : Run) (e : Nat) : Phase := (r.executions[e]?).elim default Execution.phase

/-- Whether the execution with a number takes turns in the background. -/
def background (r : Run) (e : Nat) : Bool := (r.executions[e]?).elim false Execution.submitted

/-- Keeps the books on an execution whose phase changed. -/
def follow (s : Rehearsal) (e : Nat) (before : Phase) : Rehearsal :=
  let after := phase s.run e
  let s := match before with
    | .delayed _ => { s with delays := s.delays.erase e }
    | .working _ => { s with bodies := swapOut s.bodies e }
    | _ => s
  let s := match after with
    | .delayed _ => { s with delays := s.delays ++ [e] }
    | .working _ => { s with bodies := s.bodies ++ [e] }
    | _ => s
  match after with
  | .delayed wake => if background s.run e then s.alarm wake (.execution e) else s
  | .working wake => if background s.run e then s.alarm wake (.execution e) else s
  | _ => s

/-- Makes everybody ready whom an abort reaches. -/
def spread (s : Rehearsal) : Rehearsal :=
  let heeding := fun e => !(s.run.executions[e]?).elim false Execution.stubborn
  let reached := (s.bodies.reverse.filter heeding ++ s.delays).filter (background s.run)
  reached.foldl (fun s e => s.call (.execution e)) s

/-- Makes the producer ready if it could go on. -/
def nudge (s : Rehearsal) : Rehearsal :=
  match s.producer with
  | some k => if s.run.pipeline.canWake s.now then s.call (.runner k) else s
  | none => s

/-- Takes a step, if it can be taken, and makes everybody ready whom it concerns. -/
def act (s : Rehearsal) (a : Run.Step) : Rehearsal :=
  match s.run.step s.scene a with
  | none => s
  | some r =>
    let before := s.run
    let s := { s with run := r }
    let s := match executionOf a with
      | some e => s.follow e (phase before e)
      | none => s
    let handed := (List.range r.executions.size).drop before.executions.size
    let s := (handed.filter (background r)).foldl (fun s e => s.call (.execution e)) s
    let s := if r.aborted && !before.aborted then s.spread else s
    s.nudge

/-- Lets the producer go on as far as it can without waiting. -/
def produce (s : Rehearsal) : Nat → Rehearsal
  | 0 => s
  | fuel + 1 =>
    let decided := s.run.pipeline.decided.size
    let accepted := s.bank.accepts decided s.run.pipeline.registered.length
    match s.run.pipeline.producer with
    | .registering _ =>
      match s.verdict, s.bank.delay with
      | none, some (ms + 1) =>
        let s := { s with verdict := some (s.now + (ms + 1)) }
        s.producer.elim s fun k => s.alarm (s.now + (ms + 1)) (.runner k)
      | none, _ => (s.act (.decide accepted)).produce fuel
      | some due, _ =>
        if due ≤ s.now then ({ s with verdict := none }.act (.decide accepted)).produce fuel else s
    | .pausing wake =>
      if s.run.pipeline.canWake s.now then (s.act .wake).produce fuel
      else s.producer.elim s fun k => s.alarm wake (.runner k)
    | .offering _ =>
      if s.run.pipeline.canWake s.now then (s.act .wake).produce fuel else s
    | _ => s

/-- More stretches than the producer has between two waits. -/
def plenty : Nat := 1000000

/-- A turn of somebody who runs the producer. Only the first one is the producer. -/
def turnRunner (s : Rehearsal) (k : Nat) : Rehearsal :=
  let first := s.run.pipeline.producer == .unstarted
  let s := if first then { s with producer := some k }.act .produce else s
  if s.producer = some k then
    let s := s.produce plenty
    if s.run.pipeline.producer == .stopped then { s with runners := s.runners.set! k true } else s
  else { s with runners := s.runners.set! k true }

/-- A turn of the execution with a number: it goes on as far as it can without waiting. -/
def turnExecution (s : Rehearsal) (e : Nat) : Nat → Rehearsal
  | 0 => s
  | fuel + 1 =>
    match phase s.run e with
    | .waiting => (s.act (.look e)).turnExecution e fuel
    | .delayed wake =>
      if wake ≤ s.now then (s.act (.elapse e)).turnExecution e fuel
      else if s.run.aborted then s.act (.forgo e)
      else s
    | .asking point =>
      match (s.run.executions[e]?).bind fun x => Run.traderOf x.task with
      | none => s
      | some i =>
        match s.run.investors[i]? with
        | none => s
        | some v =>
          let request := v.request point
          let s := if s.exchange.retires request then s.act (.retire i) else s
          (s.act (.hear e (s.exchange.reply request))).turnExecution e fuel
    | .working wake =>
      if wake ≤ s.now then s.act (.finish e)
      else if s.run.aborted then s.act (.stop e)
      else s
    | .depositing deposit => s.act (.enrol e (!s.bank.depositFail.has deposit))
    | _ => s

/-- Something happens from outside. -/
def happen (s : Rehearsal) : Event → Rehearsal
  | .signal => s.act .signal
  | .abort => s.act .abort
  | .cancelProducer => s.act .cancelProducer
  | .score delta => s.act (.score delta)
  | .errors times => (List.replicate times ()).foldl (fun s _ => s.act .error) s
  | .exchange script => { s with exchange := script }

/-- A turn of somebody in the background; more stretches than an execution has are allowed for. -/
def turn (s : Rehearsal) : Actor → Rehearsal
  | .runner k => s.turnRunner k
  | .execution e => s.turnExecution e 16
  | .event k => (s.events[k]?).elim s s.happen

/-- How many turns are taken before the foreground is looked at again. -/
def burstLength : Nat := 61

/-- Turns in the background, as many as there are and not more than a number. -/
def burst (s : Rehearsal) : Nat → Rehearsal
  | 0 => s
  | n + 1 =>
    match s.ready with
    | [] => s
    | a :: rest => ({ s with ready := rest }.turn a).burst n

/-- Everybody in the background takes turns until nobody is ready. -/
def settle (s : Rehearsal) : Nat → Rehearsal
  | 0 => s
  | fuel + 1 => if s.ready.isEmpty then s else (s.burst burstLength).settle fuel

/-- The next moment for which anybody waits, where the foreground waits until `due` at most. -/
def nextMoment (s : Rehearsal) (due : Option Nat) : Option Nat :=
  let alarms := s.alarms.foldl (fun a x => Run.earlier a (some x.due)) none
  Run.earlier (Run.earlier due s.verdict) (Run.earlier alarms s.run.horizon)

/-- Lets time pass until a moment, and makes everybody ready whose alarm is due, in the order in which
    the alarms were set among those due at the same time. -/
def passUntil (s : Rehearsal) (time : Nat) : Rehearsal :=
  let s := s.act (.wait (time - s.now))
  let due := s.alarms.filter (·.due ≤ s.now)
  let ordered := due.mergeSort fun a b => a.due ≤ b.due
  ordered.foldl (fun s x => s.call x.actor) { s with alarms := s.alarms.filter (s.now < ·.due) }

end Rehearsal

end ExchangeLoad
