import ExchangeLoad.Dice
import ExchangeLoad.Rehearsal.Foreground

/-!
What can be asked of a rehearsal: to set the stage, to run the producer, to call the controller, to
deal with the tasks that were handed out, to fetch identities, to let time pass, to drain the
executor and to perform the timed loop.

In a rehearsal, identities, names and secrets are numbered.
-/

namespace ExchangeLoad

/-- The scene of a rehearsal. -/
def Scene.numbered (settings : Settings) (retryDelay : Nat) (schedule : Config.Schedule)
    (manner : Nat → Params → Manner) : Scene where
  settings
  retryDelay
  schedule
  identity n := ⟨"id-" ++ toString n⟩
  displayName n := "Name " ++ toString n
  secret n := "secret-" ++ toString n
  draw := (Dice.mk 1).draw
  manner

namespace Rehearsal

/-- The stage for a configuration: the exchange is known to the bank and to the log service by the
    first two identities. -/
def ofConfig (c : Config) (manner : Nat → Params → Manner) (bank : BankScript)
    (exchange : ExchangeScript) : Rehearsal :=
  let settings := Settings.ofConfig c ⟨"id-0"⟩ ⟨"id-1"⟩
  let scene := Scene.numbered settings c.prefetch.retryDelay c.schedule manner
  let run := Run.fresh c.limits.errorMin c.limits.errorMax c.prefetch.capacity 2
  empty scene run bank exchange

/-- Somebody runs the producer in the background. -/
def spawn (s : Rehearsal) : Rehearsal :=
  { s with runners := s.runners.push false }.call (.runner s.runners.size)

/-- Something is to happen at a time. -/
def schedule (s : Rehearsal) (time : Nat) (event : Event) : Rehearsal :=
  { s with events := s.events.push event }.alarm time (.event s.events.size)

/-- What became of a call: nothing if it was given up. -/
def outcome (s : Rehearsal) (c : Nat) : Option (Except RunError (List Task)) := s.run.resultOf c

/-- Calls the controller, several times at once, and waits until all calls are over or given up. -/
def control (s : Rehearsal) (commands : List Command) (timeout : Nat) :
    Rehearsal × List (Option (Except RunError (List Task))) :=
  let cs := (List.range commands.length).map (s.run.controls.size + ·)
  let s := commands.foldl (fun s command => s.act (.enter command)) s
  let s := s.await (.calls cs (s.now + timeout))
  (s, cs.map s.outcome)

/-- Whether a task is meant by a label; the empty one means all. -/
def meant (label : String) (task : Task) : Bool := label.isEmpty || task.label == label

/-- How many of the tasks held are meant by a label. -/
def countHeld (s : Rehearsal) (label : String) : Nat := (s.run.held.filter (meant label)).length

/-- Does something with the place of the first task that is meant by a label, a number of times. -/
def eachHeld (label : String) (work : Rehearsal → Nat → Rehearsal) (s : Rehearsal) : Nat → Rehearsal
  | 0 => s
  | n + 1 => eachHeld label work (work s (s.run.held.findIdx (meant label))) n

/-- Submits tasks that are held. -/
def submitHeld (s : Rehearsal) (label : String) : Rehearsal :=
  eachHeld label (fun s place => s.act (.submit place)) s (s.countHeld label)

/-- Forgets tasks that are held. -/
def discardHeld (s : Rehearsal) (label : String) : Rehearsal :=
  eachHeld label (fun s place => s.act (.discard place)) s (s.countHeld label)

/-- Executes the task at a place among those held, and waits for it. -/
def execute (s : Rehearsal) (place : Nat) : Rehearsal :=
  let e := s.run.executions.size
  (s.act (.execute place)).await (.execution e)

/-- Executes tasks that are held, one after the other. -/
def executeHeld (s : Rehearsal) (label : String) : Rehearsal :=
  eachHeld label execute s (s.countHeld label)

/-- Does something with the first task that is held, a number of times. -/
def eachFirst (work : Rehearsal → Nat → Rehearsal) (s : Rehearsal) : Nat → Rehearsal
  | 0 => s
  | n + 1 => eachFirst work (work s 0) n

/-- Lets time pass. -/
def rest (s : Rehearsal) (ms : Nat) : Rehearsal := s.await (.time (s.now + ms))

/-- Waits for tasks under way, but not longer than `grace`; the answer tells whether they all ended. -/
def drain (s : Rehearsal) (grace : Nat) : Rehearsal × Bool :=
  let k := s.run.shutdowns.size
  let s := (s.act (.shutdown grace)).await (.shutdown k (s.now + grace))
  (s, ((s.run.shutdowns[k]?).bind Shutdown.answer).any Prod.fst)

/-- What became of a caller with a ticket: an identity, the closing of the pipeline, or neither. -/
def handed (s : Rehearsal) (ticket : Nat) : Option (Except RunError Identity) :=
  match s.run.pipeline.granted.toList.find? (·.1 == ticket) with
  | some (_, id) => some (.ok id)
  | none => if s.run.pipeline.refused.contains ticket then some (.error .pipelineClosed) else none

/-- Several callers want an identity at once. -/
def fetch (s : Rehearsal) (callers timeout : Nat) :
    Rehearsal × List (Option (Except RunError Identity)) :=
  let tickets := (List.range callers).map (s.run.pipeline.tickets + ·)
  let s := tickets.foldl (fun s _ => s.act .fetch) s
  let s := s.await (.identities tickets (s.now + timeout))
  (s, tickets.map s.handed)

/-- One caller after the other wants an identity. -/
def fetchEach (s : Rehearsal) (timeout : Nat) : Nat →
    Rehearsal × List (Option (Except RunError Identity))
  | 0 => (s, [])
  | n + 1 =>
    let (s, first) := s.fetch 1 timeout
    let (s, rest) := s.fetchEach timeout n
    (s, first ++ rest)

/-- Runs the producer in the foreground, and ends it if it has not ended in time; the answer tells
    whether it has. -/
def runProducer (s : Rehearsal) (timeout : Nat) : Rehearsal × Bool :=
  if s.run.pipeline.producer == .unstarted then
    let s := (s.act .produce).await (.producer (s.now + timeout))
    if s.run.pipeline.producer == .stopped then (s, true)
    else ({ s with verdict := none }.act .abandonProducer, false)
  else (s, true)

/-- Performs the timed loop to its end. -/
def performLoop (s : Rehearsal) : Rehearsal := s.await .loop

/-- The clients that were created, in order. -/
def clients (s : Rehearsal) : List Client :=
  s.run.sessions.toList.filterMap fun
    | .guest i => s.run.guests[i]?
    | .investor i => (s.run.investors[i]?).map Investor.client

/-- The client with a number retires. -/
def retireClient (s : Rehearsal) (number : Nat) : Rehearsal :=
  match s.run.sessions[number]? with
  | some (.guest i) => s.act (.retireGuest i)
  | some (.investor i) => s.act (.retire i)
  | none => s

end Rehearsal

end ExchangeLoad
