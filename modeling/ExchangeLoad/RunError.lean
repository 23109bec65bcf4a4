/-!
What can go wrong with a run as a whole, and how a failure of one request is told.
-/

namespace ExchangeLoad

/-- A failure as it is told: the outermost message, then what lies below it, outermost first. -/
structure Fault where
  text : String
  causes : List String
deriving DecidableEq, Repr, Inhabited

namespace Fault

/-- A failure with nothing below it. -/
def plain (text : String) : Fault := ⟨text, []⟩

/-- The same failure, told by a caller that knows what it was doing. -/
def within (doing : String) (fault : Fault) : Fault := ⟨doing, fault.text :: fault.causes⟩

/-- All messages of a failure, outermost first. -/
def chain (fault : Fault) : String := ": ".intercalate (fault.text :: fault.causes)

end Fault

/-- A failure that concerns the run as a whole. -/
inductive RunError where
  /-- As many errors were counted as the budget allows, or more. -/
  | budgetExceeded (errors limit : Int)
  /-- No client could be provided for a new investor. -/
  | provisioning (why : String)
  /-- The exchange could not be made ready. -/
  | bootstrap (why : String)
  /-- No identity will be handed out any more. -/
  | pipelineClosed
  /-- The configuration cannot be run with. -/
  | config (why : String)
deriving DecidableEq, Repr, Inhabited

namespace RunError

/-- The message of an error. -/
def message : RunError → String
  | budgetExceeded errors limit => s!"Error budget exceeded: {errors} errors against a limit of {limit}"
  | provisioning why => s!"Client provisioning failed: {why}"
  | bootstrap why => s!"Target bootstrap failed: {why}"
  | pipelineClosed => "Identity prefetch pipeline is closed"
  | config why => s!"Configuration error: {why}"

/-- Whether an error means that the whole run has to stop for its errors. -/
def fatal : RunError → Bool
  | budgetExceeded .. => true
  | _ => false

end RunError

end ExchangeLoad
