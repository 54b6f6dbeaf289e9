import Reckoner.Log.Record

/-!
What the parts of the program have to say: entries that become log records.
-/

namespace Reckoner.Log

structure Entry where
  logger : String
  level : Level
  message : String
  context : List (String × Json)

namespace Entry

/-- Later members of a context replace earlier ones of the same name. -/
def withMembers (more : List (String × Json)) (e : Entry) : Entry :=
  { e with context := more.foldl (fun ms m => Json.insert m.1 m.2 ms) e.context }

def record (file : String) (line : Int) (function : String) (created : Timestamp.Seconds)
    (e : Entry) : Record :=
  ⟨e.logger, e.level, e.message, [], file, line, function, created, .object e.context, .null,
    none⟩

end Entry
end Reckoner.Log
