import ExchangeLoad.Identity
import ExchangeLoad.Lifecycle
import ExchangeLoad.Text.Quoted
import ExchangeLoad.Text.Span

/-!
Work that has been handed out: jobs to be run after a delay, and investors to be enrolled. Investors
are named by their place in the order of building.
-/

namespace ExchangeLoad

/-- What a scripted job does to its investor in the end. -/
structure Change where
  investor : Nat
  life : Option Lifecycle
  price : Option Int
deriving DecidableEq, Repr, Inhabited

/-- A job that follows a script instead of talking to the exchange. -/
structure Script where
  /-- How long it works, in milliseconds; nothing is waited for where it does not. -/
  work : Option Nat
  /-- Whether it goes on working when the run is aborted. -/
  stubborn : Bool
  score : Int
  change : Option Change
  /-- What it fails with in the end. -/
  failure : Option String
deriving DecidableEq, Repr, Inhabited

/-- The body of a task. -/
inductive Job where
  /-- Signs an investor up and in. -/
  | signIn (investor : Nat)
  /-- Looks at the market and places an order near a price. -/
  | trade (investor : Nat) (price : Int)
  | scripted (script : Script)
deriving DecidableEq, Repr, Inhabited

/-- Work that has been handed out. -/
inductive Task where
  /-- Runs a job after a delay in milliseconds. -/
  | exec (label : String) (delay : Nat) (job : Job)
  /-- Deposits an investor's credit, then adds the investor to the registry. -/
  | enrol (investor : Nat) (credit : Int)
deriving DecidableEq, Repr, Inhabited

namespace Task

/-- How long a task waits before its body starts, in milliseconds. -/
def delay : Task → Nat
  | exec _ delay _ => delay
  | enrol .. => 0

/-- The name of a task. -/
def label : Task → String
  | exec label _ _ => label
  | enrol .. => "enroll"

/-- A task as it is shown to people who look for faults. -/
def debugText (identity : Nat → Identity) : Task → String
  | exec label delay _ =>
    "Exec \x7b label: " ++ Text.quoted label ++ ", delay: " ++ Text.span delay ++ ", .. \x7d"
  | enrol investor credit =>
    "Enroll \x7b investor: Identity(" ++ Text.quoted (identity investor).token ++ "), credit: " ++
      toString credit ++ " \x7d"

end Task

end ExchangeLoad
