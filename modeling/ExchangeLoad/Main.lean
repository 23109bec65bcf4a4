import ExchangeLoad.Launch

/-!
The program: looks at the environment and the files of the directory it is started in, runs, prints
the report, and tells by its exit code whether the run was completed.
-/

open ExchangeLoad

/-- The bytes of a file, if it can be read. -/
def readBytes (path : String) : IO (Option ByteArray) := do
  try
    return some (← IO.FS.readBinFile path)
  catch _ => return none

/-- Runs the configuration of the directory; nothing outside the program is reached. -/
def main : IO UInt32 := do
  let named ← IO.getEnv "SWARMBENCH_CONFIG"
  let envVars : String → Option String := fun key => if key == "SWARMBENCH_CONFIG" then named else none
  let envFile ← readBytes Launch.envPath
  let first : Launch.Surroundings := ⟨envVars, fun path => if path == Launch.envPath then envFile else none⟩
  let path := Launch.configPath first
  let config ← readBytes path
  let here : Launch.Surroundings :=
    ⟨envVars, fun p => if p == path then config else if p == Launch.envPath then envFile else none⟩
  let conclusion := Launch.launch here Launch.silentBank Launch.silentExchange
  if let some report := conclusion.report then
    IO.println report.toJson.indented
  if let some complaint := conclusion.complaint then
    IO.eprintln ("Error: " ++ complaint)
  return conclusion.exitCode.toUInt32
