import Reckoner.Terminal.Arguments
import Reckoner.Terminal.Server

/-!
Running command lines.
-/

namespace Reckoner.Terminal

def Command.run (record : Log.Entry → Log.Record) (vars : Variables) :
    Command → Except Server.Fault Outcome
  | .version => .ok .version
  | .help => .ok { Outcome.usage with exitCode := 0 }
  | .evaluate source withTree => .ok (.evaluate source withTree)
  | .tokens source => .ok (.tokens source)
  | .tree source asJson => .ok (.tree source asJson)
  | .serve host port reload => Server.start record vars host port reload

def run (record : Log.Entry → Log.Record) (vars : Variables) (args : List String) :
    Except Server.Fault Outcome :=
  match Command.ofArgs args with
  | none => .ok .usage
  | some c => c.run record vars

end Reckoner.Terminal
