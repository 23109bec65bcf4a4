import ExchangeLoad.Identity
import ExchangeLoad.Lifecycle

/-!
The population of a run: investors in the order in which they were added, perhaps the same one more
than once. The registry stores no lives: whoever asks tells how an entry's life and identity are
looked up now.
-/

namespace ExchangeLoad

/-- Investors in the order in which they were added. -/
structure Registry (α : Type) where
  entries : List α
deriving DecidableEq, Repr, Inhabited

namespace Registry

variable {α : Type}

/-- Nobody has been added. -/
def empty : Registry α := ⟨[]⟩

/-- Adds an investor after all others. -/
def add (r : Registry α) (a : α) : Registry α := ⟨r.entries ++ [a]⟩

/-- How many entries there are. -/
def count (r : Registry α) : Nat := r.entries.length

/-- Takes out every entry with the identity, and tells how many there were. -/
def remove (r : Registry α) (identity : α → Identity) (id : Identity) : Registry α × Nat :=
  let kept := r.entries.filter (identity · != id)
  (⟨kept⟩, r.count - kept.length)

/-- How many entries have not retired. -/
def activeCount (r : Registry α) (life : α → Lifecycle) : Nat :=
  (r.entries.filter (life · != .retired)).length

/-- The earliest entry with an identity. -/
def find? (r : Registry α) (identity : α → Identity) (id : Identity) : Option α :=
  r.entries.find? (identity · == id)

/-- The earliest entry. -/
def first? (r : Registry α) : Option α := r.entries.head?

/-- The earliest entry that has not been started. -/
def firstNotStarted? (r : Registry α) (life : α → Lifecycle) : Option α :=
  r.entries.find? (life · == .notStarted)

/-- The entries that are signed in, in order. -/
def signedIn (r : Registry α) (life : α → Lifecycle) : List α :=
  r.entries.filter (life · == .signedIn)

end Registry

end ExchangeLoad
