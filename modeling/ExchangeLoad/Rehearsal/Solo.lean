import ExchangeLoad.Rehearsal.Play

/-!
One trader alone on the stage: its jobs are run one at a time, and every request is answered at once.
-/

namespace ExchangeLoad

/-- One trader, the score it made, and the tasks it handed out. -/
structure Solo where
  trader : Investor
  tracker : Tracker
  exchange : ExchangeScript
  held : List Task
  /-- How many trades have been drawn for. -/
  drawn : Nat

namespace Solo

/-- A trader that has not been started. -/
def fresh (credentials : Credentials) (params : Params) (exchange : ExchangeScript) : Solo :=
  ⟨.fresh (.fresh "" credentials ⟨0, 0⟩) params (.newTrader params), .fresh 50 200, exchange, [], 0⟩

/-- The trader is started. -/
def start (s : Solo) : Solo × Task :=
  let (trader, task) := s.trader.start 0
  ({ s with trader, held := s.held ++ [task] }, task)

/-- The trader is asked for work. -/
def next (s : Solo) (dice : Dice) : Solo × Option Task :=
  match s.trader.next 0 (dice.draw s.drawn) with
  | none => (s, none)
  | some (trader, task) =>
    ({ s with trader, held := s.held ++ [task], drawn := s.drawn + 1 }, some task)

/-- Answers a job until it ends; the answer tells what it failed with. -/
def play (s : Solo) (aborted : Bool) : Progress → Nat → Solo × Option Fault
  | .ended failure, _ => (s, failure)
  | .waits _, 0 => (s, none)
  | .waits point, fuel + 1 =>
    let request := s.trader.request point
    let trader :=
      if s.exchange.retires request then { s.trader with client := s.trader.client.retire } else s.trader
    match trader.resume point (s.exchange.reply request) aborted with
    | none => (s, none)
    | some (trader, gain, progress) =>
      { s with trader, tracker := s.tracker.addScore gain }.play aborted progress fuel

/-- Runs the task at a place among those held, which is none afterwards. -/
def run (s : Solo) (place : Nat) (aborted : Bool) : Option (Solo × Option Fault) := do
  let task ← s.held[place]?
  let s := { s with held := s.held.eraseIdx place }
  match task with
  | .exec _ _ (.signIn _) =>
    let (trader, progress) := s.trader.beginSignIn aborted
    return { s with trader }.play aborted progress 4
  | .exec _ _ (.trade _ price) =>
    let (trader, progress) := s.trader.beginTrade price
    return { s with trader }.play aborted progress 4
  | _ => none

/-- Asks for work and does it, a number of times; the tasks obtained, in order. -/
def trades (s : Solo) (dice : Dice) : Nat → Solo × List Task
  | 0 => (s, [])
  | n + 1 =>
    let (s, task) := s.next dice
    let s := ((s.run 0 false).map Prod.fst).getD s
    let (s, rest) := s.trades dice n
    (s, task.toList ++ rest)

end Solo

end ExchangeLoad
