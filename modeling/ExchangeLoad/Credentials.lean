import ExchangeLoad.Identity
import ExchangeLoad.Json.Value
import ExchangeLoad.Text.Quoted

/-!
What a client is given: whom it acts for, how long it waits, and what the exchange is told when it
is made ready.
-/

namespace ExchangeLoad

/-- Whom a client acts for. The client that makes the exchange ready is a guest without identity. -/
structure Credentials where
  identity : Option Identity
  displayName : String
  secret : String
deriving DecidableEq, Repr, Inhabited

namespace Credentials

/-- Credentials of an investor. -/
def investor (id : Identity) (displayName secret : String) : Credentials :=
  ⟨some id, displayName, secret⟩

/-- Credentials of nobody. -/
def guest : Credentials := ⟨none, "", ""⟩

/-- Credentials as they are shown to people who look for faults: the secret is not. -/
def debugText (c : Credentials) : String :=
  let identity := match c.identity with
    | some id => "Some(Identity(" ++ Text.quoted id.token ++ "))"
    | none => "None"
  "Credentials \x7b identity: " ++ identity ++ ", display_name: " ++ Text.quoted c.displayName ++
    ", secret: Secret([REDACTED alloc::string::String]) \x7d"

end Credentials

/-- How long a client waits, in milliseconds. -/
structure Timeouts where
  /-- The longest that one request may take. -/
  operation : Nat
  /-- A request that takes this long retires the client. -/
  retire : Nat
deriving DecidableEq, Repr, Inhabited

/-- Where the exchange finds the bank and the log service, and who it is to them. -/
structure Bootstrap where
  bankEndpoint : String
  bankAppId : String
  logEndpoint : String
  logAppId : String
deriving DecidableEq, Repr, Inhabited

/-- The document of what the exchange is told. -/
def Bootstrap.toJson (b : Bootstrap) : Json :=
  .obj [("bank_endpoint", .str b.bankEndpoint), ("bank_app_id", .str b.bankAppId),
    ("log_endpoint", .str b.logEndpoint), ("log_app_id", .str b.logAppId)]

end ExchangeLoad
