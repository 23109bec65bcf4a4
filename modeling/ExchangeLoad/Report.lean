import ExchangeLoad.Json.Value
import ExchangeLoad.Registry
import ExchangeLoad.RunError
import ExchangeLoad.Tracker

/-!
How a run ended, and the summary that is written then.
-/

namespace ExchangeLoad

/-- Why a run ended. -/
inductive Outcome where
  /-- It ran for as long as it was meant to. -/
  | completed
  /-- Too many errors were counted. -/
  | errorBudgetExceeded
  /-- The exchange could not be made ready, or a client not be provided. -/
  | provisioningFailed
  /-- Somebody asked it to stop. -/
  | interrupted
deriving DecidableEq, Repr, Inhabited

namespace Outcome

/-- The outcome that an error implies. -/
def ofError (e : RunError) : Outcome := if e.fatal then errorBudgetExceeded else provisioningFailed

/-- Whether the run did what it was meant to. -/
def success (o : Outcome) : Bool := o == completed

/-- The word for an outcome in messages. -/
def text : Outcome → String
  | completed => "COMPLETED"
  | errorBudgetExceeded => "ERROR BUDGET EXCEEDED"
  | provisioningFailed => "PROVISIONING FAILED"
  | interrupted => "INTERRUPTED"

/-- The name of an outcome in documents. -/
def name : Outcome → String
  | completed => "completed"
  | errorBudgetExceeded => "error_budget_exceeded"
  | provisioningFailed => "provisioning_failed"
  | interrupted => "interrupted"

end Outcome

/-- The summary of a run. -/
structure Report where
  outcome : Outcome
  level : Nat
  score : Int
  errors : Int
  total : Int
  investors : Nat
  active : Nat
deriving DecidableEq, Repr, Inhabited

namespace Report

/-- Reads the summary off a run's state; a ceiling of zero allows none. -/
def collect? {α : Type} (outcome : Outcome) (level : Nat) (tracker : Tracker) (registry : Registry α)
    (life : α → Lifecycle) : Option Report := do
  let total ← tracker.total?
  return ⟨outcome, level, tracker.score, tracker.errors, total, registry.count,
    registry.activeCount life⟩

/-- The summary as one line. -/
def text (r : Report) : String :=
  r.outcome.text ++ s!" | level={r.level} | score={r.score} | errors={r.errors} | total={r.total}" ++
    s!" | investors={r.investors} (active {r.active})"

/-- The document of a summary. -/
def toJson (r : Report) : Json :=
  .obj [("outcome", .str r.outcome.name), ("level", .ofNat r.level), ("score", .int r.score),
    ("errors", .int r.errors), ("total_score", .int r.total), ("investors", .ofNat r.investors),
    ("active_investors", .ofNat r.active)]

end Report

end ExchangeLoad
