import ExchangeLoad.Params
import ExchangeLoad.Word

/-!
Who is created: the parameters of the founding batch and of the batch that a level brings. Even slots
are sellers and odd slots buyers, so that a batch of even size has as many of each.
-/

namespace ExchangeLoad.Batch

/-- The price assumed before any trade was seen. -/
def initialPrice : Int := 100

/-- The parameters for a slot of the founding batch: neighbours share a price. -/
def founding (slot : Nat) : Params :=
  let base : Int := 100 + (slot / 2 : Nat)
  if slot % 2 = 1 then .creditHeavy 10000 2 base else .coinHeavy 1 5 2 base

/-- The amount of each order of the investors that a level brings. -/
def unit (level : Nat) : Int := level * 5

/-- The parameters for a slot of the batch that a level brings, where `price` is the price of the day:
    buyers stay below it and sellers above. What is computed from the price wraps around at the ends of the
    range of counters. -/
def rising (level : Nat) (price : Int) (slot : Nat) : Params :=
  if slot % 2 = 1 then .creditHeavy (Word.wrap (price * 1000)) (unit level) (Word.wrap (price - 2))
  else .coinHeavy 1 (unit level * 100) (unit level) (Word.wrap (price + 5))

end ExchangeLoad.Batch
