/-!
What one look at the market tells an investor.
-/

namespace ExchangeLoad

/-- What one look at the market tells an investor. -/
structure Market where
  /-- What the next look has to be asked with. -/
  cursor : Int
  lowestAsk : Option Int
  highestBid : Option Int
  /-- The prices at which the investor's own orders traded since the last look, oldest first. -/
  traded : List Int
deriving DecidableEq, Repr, Inhabited

namespace Market

/-- A market in which nothing is known. -/
def blank : Market := ⟨0, none, none, []⟩

/-- The price of the latest trade seen. -/
def latest? (m : Market) : Option Int := m.traded.getLast?

end Market

end ExchangeLoad
