/-!
The life of an investor: not started, started, signed in, retired, in this order.
-/

namespace ExchangeLoad

/-- Where an investor is in its life. -/
inductive Lifecycle where
  | notStarted
  /-- Its sign-in work has been handed out and has not succeeded. -/
  | started
  | signedIn
  | retired
deriving DecidableEq, Repr, Inhabited

namespace Lifecycle

/-- The position of a state in an investor's life. -/
def rank : Lifecycle → Nat
  | notStarted => 0
  | started => 1
  | signedIn => 2
  | retired => 3

/-- The state at a position; every position past the last is `retired`. -/
def ofRank : Nat → Lifecycle
  | 0 => notStarted
  | 1 => started
  | 2 => signedIn
  | _ => retired

/-- One state is not later in life than another. -/
instance : LE Lifecycle := ⟨fun a b => a.rank ≤ b.rank⟩

/-- One state is earlier in life than another. -/
instance : LT Lifecycle := ⟨fun a b => a.rank < b.rank⟩

instance (a b : Lifecycle) : Decidable (a ≤ b) := inferInstanceAs (Decidable (a.rank ≤ b.rank))
instance (a b : Lifecycle) : Decidable (a < b) := inferInstanceAs (Decidable (a.rank < b.rank))
instance : Ord Lifecycle := ⟨fun a b => compare a.rank b.rank⟩

/-- The word for a state in messages. -/
def text : Lifecycle → String
  | notStarted => "not-started"
  | started => "started"
  | signedIn => "signed-in"
  | retired => "retired"

/-- The name of a state in documents. -/
def name : Lifecycle → String
  | notStarted => "NotStarted"
  | started => "Started"
  | signedIn => "SignedIn"
  | retired => "Retired"

/-- All states, in the order of an investor's life. -/
def all : List Lifecycle := [notStarted, started, signedIn, retired]

end Lifecycle

end ExchangeLoad
