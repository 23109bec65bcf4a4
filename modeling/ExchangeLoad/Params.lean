/-!
What an investor is built from: which side of the market it takes and how much it holds.
-/

namespace ExchangeLoad

/-- The two sides of the market. -/
inductive OrderKind where
  | buy
  | sell
deriving DecidableEq, Repr, Inhabited

namespace OrderKind

/-- The word for an order's side, in messages, requests and documents alike. -/
def text : OrderKind → String
  | buy => "buy"
  | sell => "sell"

end OrderKind

/-- What an investor holds much of, which decides the orders it places. -/
inductive StrategyKind where
  /-- Much credit and no coins: it buys. -/
  | creditHeavy
  /-- Little credit and a stock of coins: it sells. -/
  | coinHeavy
deriving DecidableEq, Repr, Inhabited

namespace StrategyKind

/-- The word for a strategy in messages. -/
def text : StrategyKind → String
  | creditHeavy => "credit-heavy"
  | coinHeavy => "coin-heavy"

/-- The name of a strategy in documents. -/
def name : StrategyKind → String
  | creditHeavy => "CreditHeavy"
  | coinHeavy => "CoinHeavy"

/-- The side of the market a strategy takes. -/
def orderKind : StrategyKind → OrderKind
  | creditHeavy => .buy
  | coinHeavy => .sell

end StrategyKind

/-- What an investor is built from. -/
structure Params where
  kind : StrategyKind
  /-- The credit deposited for it. -/
  credit : Int
  /-- The coins it starts with. -/
  coins : Int
  /-- The amount of each order. -/
  unit : Int
  /-- The price its orders are placed around. -/
  base : Int
deriving DecidableEq, Repr, Inhabited

namespace Params

/-- A buyer, which starts without coins. -/
def creditHeavy (credit unit base : Int) : Params := ⟨.creditHeavy, credit, 0, unit, base⟩

/-- A seller. -/
def coinHeavy (credit coins unit base : Int) : Params := ⟨.coinHeavy, credit, coins, unit, base⟩

end Params

end ExchangeLoad
