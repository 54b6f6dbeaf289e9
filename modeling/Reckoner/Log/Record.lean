import Reckoner.Log.Level
import Reckoner.Log.Raised
import Reckoner.Log.Template
import Reckoner.Timestamp.Epoch
import Reckoner.Timestamp.Text

/-!
Log records, and what the two log formats say of them alike.
-/

namespace Reckoner.Log
open Text

structure Record where
  logger : String
  level : Level
  template : String
  args : List Datum
  file : String
  line : Int
  function : String
  created : Timestamp.Seconds
  context : Json
  component : Json
  raised : Option Raised

namespace Record

def lastPart (name : String) : String :=
  String.ofList ((name.toList.reverse.takeWhile (· != '.')).reverse)

/-- The part of the program that a record comes from: the last part of the logger's name, unless
the record tells. -/
def origin (r : Record) : String :=
  if r.component.isVoid then lastPart r.logger else r.component.display

inductive Fault where
  | template (fault : Template.Fault)
  | time (fault : Timestamp.Fault)

def message (r : Record) : Except Fault String :=
  (Template.fill r.template r.args).mapError .template

def timeBefore (micros : Int) (r : Record) : Except Fault Timestamp :=
  ((Timestamp.microsOf r.created).bind fun m => Timestamp.ofMicros (m - micros)).mapError .time

def time (r : Record) : Except Fault Timestamp :=
  r.timeBefore 0

/-- The time of creation on the wall clock. The day before has to exist as well, since the clock
may have been turned back. -/
def wallTime (r : Record) : Except Fault Timestamp := do
  let t ← r.time
  let _ ← r.timeBefore Timestamp.microsPerDay
  .ok t

end Record
end Reckoner.Log
