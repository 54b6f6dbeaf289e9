import Reckoner.Terminal.Run
import Std.Time.DateTime.Timestamp

/-!
The command line of the calculator.
-/

namespace Reckoner

def settingNames : List String :=
  ["CALCAPI_ENV", "CALCAPI_HOST", "CALCAPI_PORT", "PORT", "CALCAPI_LOG_LEVEL", "CALCAPI_LOG_DIR",
    "CALCAPI_HISTORY_BACKEND", "CALCAPI_DATABASE_PATH", "CALCAPI_MAX_EXPRESSION_LENGTH",
    "CALCAPI_MAX_NESTING_DEPTH"]

def readVariables : IO Variables :=
  settingNames.filterMapM fun name => do
    let value ← IO.getEnv name
    return value.map fun v => (name, v)

def recordAt (seconds : Int) (e : Log.Entry) : Log.Record :=
  e.record "Main.lean" 1 "main" (.whole seconds)

end Reckoner

open Reckoner in
def main (args : List String) : IO UInt32 := do
  let now ← Std.Time.Timestamp.now
  match Terminal.run (recordAt now.toSecondsSinceUnixEpoch.val) (← readVariables) args with
  | .error f =>
    IO.eprintln f.message
    return 1
  | .ok o =>
    IO.print o.output
    IO.eprint o.errors
    return UInt32.ofNat o.exitCode
