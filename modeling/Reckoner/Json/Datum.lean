import Reckoner.Json.Display
import Reckoner.Text.Path

/-!
Values that come from outside: JSON, or the path of a file.
-/

namespace Reckoner
open Text

inductive Datum where
  | value (v : Json)
  | path (p : String)

namespace Datum

def display : Datum → String
  | .value v => v.display
  | .path p => p

def inspect : Datum → String
  | .value v => v.inspect
  | .path p => "PosixPath(" ++ quote p ++ ")"

def kindName : Datum → String
  | .value v => v.kindName
  | .path _ => "PosixPath"

inductive Number where
  | whole (n : Int)
  | real (x : Binary64)

/-- The number that a value is; truth values are one and zero. -/
def number? : Datum → Option Number
  | .value (.bool b) => some (.whole (if b then 1 else 0))
  | .value (.int n) => some (.whole n)
  | .value (.float x) => some (.real x)
  | _ => none

end Datum
end Reckoner
