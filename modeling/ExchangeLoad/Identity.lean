/-!
Identities: the tokens by which investors are known to the exchange and to the bank.
-/

namespace ExchangeLoad

/-- The token by which one investor is known to the exchange and to the bank. The empty token stands
    for an investor whose client has none. -/
structure Identity where
  token : String
deriving DecidableEq, Repr, Inhabited, Hashable

instance : ToString Identity := ⟨Identity.token⟩

end ExchangeLoad
