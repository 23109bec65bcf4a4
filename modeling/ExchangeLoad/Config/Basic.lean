import ExchangeLoad.Credentials
import ExchangeLoad.RunError

/-!
The configuration of a run, what each part is where nothing is said, and the combinations that cannot
be run with.
-/

namespace ExchangeLoad

namespace Config

/-- Where the exchange and the services around it are found. -/
structure Target where
  /-- The exchange that investors talk to. -/
  app : String
  /-- The bank, as the exchange is told. -/
  bank : String
  /-- The log service, as the exchange is told. -/
  log : String
  /-- The bank's inner side, where identities are registered and credit is deposited. -/
  internalBank : String
deriving DecidableEq, Repr, Inhabited

/-- The bounds of the error limit and the size of a batch. -/
structure Limits where
  /-- The least error limit, and the most errors with which the level still rises. -/
  errorMin : Int
  /-- The greatest error limit. -/
  errorMax : Int
  /-- How many investors the start and every level bring. -/
  workers : Nat
deriving DecidableEq, Repr, Inhabited

/-- How long clients wait, in milliseconds. -/
structure Waits where
  /-- For one request of an investor. -/
  client : Nat
  /-- A request of an investor that takes this long retires it. -/
  retire : Nat
  /-- For the request that makes the exchange ready. -/
  init : Nat
deriving DecidableEq, Repr, Inhabited

/-- How identities are registered ahead of need. -/
structure Prefetch where
  /-- How many are held ready. -/
  capacity : Nat
  /-- The pause after a registration that failed, in milliseconds. -/
  retryDelay : Nat
deriving DecidableEq, Repr, Inhabited

/-- The times of a run. -/
structure Schedule where
  /-- How long it lasts, in seconds. -/
  duration : Nat
  /-- The time between two ticks, in milliseconds. -/
  tickInterval : Nat
  /-- How long tasks under way are waited for in the end, in milliseconds. -/
  shutdownGrace : Nat
deriving DecidableEq, Repr, Inhabited

end Config

/-- The configuration of a run. -/
structure Config where
  target : Config.Target
  limits : Config.Limits
  waits : Config.Waits
  prefetch : Config.Prefetch
  schedule : Config.Schedule
deriving DecidableEq, Repr, Inhabited

namespace Config

/-- The targets on the local machine. -/
def Target.default : Target :=
  ⟨"http://localhost:12510", "http://localhost:5515", "http://localhost:5516",
    "http://localhost:5515"⟩

/-- The limits of a run that says nothing of them. -/
def Limits.default : Limits := ⟨50, 200, 10⟩

/-- The waits of a run that says nothing of them. -/
def Waits.default : Waits := ⟨5000, 10000, 30000⟩

/-- The prefetching of a run that says nothing of it. -/
def Prefetch.default : Prefetch := ⟨10, 100⟩

/-- The times of a run that says nothing of them. -/
def Schedule.default : Schedule := ⟨60, 1000, 5000⟩

/-- The configuration of a run that says nothing. -/
def default : Config :=
  ⟨Target.default, Limits.default, Waits.default, Prefetch.default, Schedule.default⟩

/-- A combination that cannot be run with. -/
inductive Violation where
  /-- The bounds of the error limit are out of order. -/
  | boundsInverted (errorMin errorMax : Int)
  | noErrorsAllowed
  | emptyBatches
  | noCapacity
  | noTickInterval
deriving DecidableEq, Repr, Inhabited

/-- What is said of a combination. -/
def Violation.text : Violation → String
  | boundsInverted lo hi => s!"allow_error_min ({lo}) exceeds allow_error_max ({hi})"
  | noErrorsAllowed => "allow_error_max must be positive"
  | emptyBatches => "add_workers_by_level must be positive"
  | noCapacity => "prefetch capacity must be positive"
  | noTickInterval => "tick_interval_ms must be positive"

/-- The first thing wrong with a configuration, in the order of its parts. -/
def violation? (c : Config) : Option Violation :=
  if c.limits.errorMax < c.limits.errorMin then
    some (.boundsInverted c.limits.errorMin c.limits.errorMax)
  else if c.limits.errorMax ≤ 0 then some .noErrorsAllowed
  else if c.limits.workers = 0 then some .emptyBatches
  else if c.prefetch.capacity = 0 then some .noCapacity
  else if c.schedule.tickInterval = 0 then some .noTickInterval
  else none

/-- Refuses a configuration that cannot be run with. -/
def validate (c : Config) : Except RunError Unit :=
  match c.violation? with
  | some v => .error (.config v.text)
  | none => .ok ()

end Config

end ExchangeLoad
