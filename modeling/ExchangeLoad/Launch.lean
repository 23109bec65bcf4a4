import ExchangeLoad.Config.Load
import ExchangeLoad.EnvFile
import ExchangeLoad.Http.Bank
import ExchangeLoad.Http.Session
import ExchangeLoad.Rehearsal.Play

/-!
The command line: which configuration is loaded, how the run that it describes goes, and what is
printed in the end.
-/

namespace ExchangeLoad.Launch

/-- Where the program is started. -/
structure Surroundings where
  /-- The variables of the environment. -/
  env : String → Option String
  /-- The bytes of the files that can be read. -/
  file : String → Option ByteArray

/-- The configuration file that is read where nothing is said. -/
def defaultPath : String := "config.toml"

/-- The file of variables that is read first. -/
def envPath : String := ".env"

/-- The path of the configuration file: the environment may name one, and so may the file of
    variables. -/
def configPath (s : Surroundings) : String :=
  let env := EnvFile.load s.env ((s.file envPath).bind String.fromUTF8?)
  (env "SWARMBENCH_CONFIG").getD defaultPath

/-- The configuration that is run. -/
def configuration (s : Surroundings) : Except Config.Refusal Config :=
  let path := configPath s
  Config.ofFile path (s.file path)

/-- What the program leaves behind. -/
structure Conclusion where
  /-- What is printed. -/
  report : Option Report
  /-- The first thing said about what went wrong. -/
  complaint : Option String
deriving Repr, Inhabited

/-- The exit code of the program. -/
def Conclusion.exitCode (c : Conclusion) : Nat := if c.complaint.isSome then 1 else 0

/-- What is left behind when no run took place. -/
def refused (r : Config.Refusal) : Conclusion := ⟨none, r.messages.head?⟩

/-- What is left behind after a run. -/
def finished (report : Report) : Conclusion :=
  ⟨some report,
    if report.outcome.success then none else some ("Run did not complete: " ++ report.outcome.text)⟩

/-- A bank that nothing reaches. -/
def silentBank : BankScript := ⟨none, .every, none, .every⟩

/-- An exchange that nothing reaches. -/
def silentExchange : ExchangeScript :=
  ⟨none, ["initialize", "signup", "signin", "info", "order"], none, none, none, [], none⟩

/-- The stage for a run of traders. -/
def stage (c : Config) (bank : BankScript) (exchange : ExchangeScript) : Rehearsal :=
  .ofConfig c (fun _ params => .newTrader params) bank exchange

/-- Performs a run from its start to the end of its last task. -/
def perform (s : Rehearsal) (grace : Nat) : Rehearsal :=
  (((s.spawn.performLoop).act .cancelProducer).act .abort |>.drain grace).1

/-- What a run ended with. -/
def outcome (s : Rehearsal) : Outcome :=
  match s.run.loop with
  | .ended outcome _ => outcome
  | _ => .interrupted

/-- Loads a configuration and runs it against a bank and an exchange. -/
def launch (s : Surroundings) (bank : BankScript) (exchange : ExchangeScript) : Conclusion :=
  match configuration s with
  | .error r => refused r
  | .ok c =>
    let after := perform (stage c bank exchange) c.schedule.shutdownGrace
    match after.run.report? (outcome after) with
    | some report => finished report
    | none => ⟨none, none⟩

end ExchangeLoad.Launch
