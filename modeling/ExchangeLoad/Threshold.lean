import ExchangeLoad.Word

/-!
The score a level has to be left with: `threshold` doubles for ever, `requiredScore` is the same
number held in a counter, which stays at the largest counter value once the doubling leaves it.
-/

namespace ExchangeLoad

/-- The score needed to rise above a level, with no bound on the level. -/
def threshold (level : Nat) : Int := 100 * Int.pow 2 level

/-- The score needed to rise above a level; from level 57 on, the largest counter value. -/
def requiredScore (level : Nat) : Int :=
  if level < 63 ∧ threshold level ≤ Word.largest then threshold level else Word.largest

end ExchangeLoad
