import ExchangeLoad.Config.Basic

/-!
What the controller of a run needs to know: where the exchange is, what it is told, how many
investors a batch has, and how long clients wait.
-/

namespace ExchangeLoad

/-- What the controller of a run needs to know. -/
structure Settings where
  app : String
  bootstrap : Bootstrap
  /-- How many investors a batch has. -/
  workers : Nat
  /-- For the clients of investors. -/
  client : Timeouts
  /-- For the client that makes the exchange ready. -/
  init : Timeouts
deriving DecidableEq, Repr, Inhabited

/-- The settings that a configuration implies; the two identities are those by which the exchange is
    known to the bank and to the log service in this run. -/
def Settings.ofConfig (c : Config) (bankApp logApp : Identity) : Settings where
  app := c.target.app
  bootstrap := ⟨c.target.bank, bankApp.token, c.target.log, logApp.token⟩
  workers := c.limits.workers
  client := ⟨c.waits.client, c.waits.retire⟩
  init := ⟨c.waits.init, c.waits.init⟩

end ExchangeLoad
