import Reckoner.Text.Case
import Reckoner.Text.Numeral

/-!
Levels of log records: the higher, the more urgent.
-/

namespace Reckoner.Log
open Text

abbrev Level := Int

namespace Level

def debug : Level := 10

def info : Level := 20

def warning : Level := 30

def error : Level := 40

def critical : Level := 50

def name (l : Level) : String :=
  if l = 0 then "NOTSET"
  else if l = debug then "DEBUG"
  else if l = info then "INFO"
  else if l = warning then "WARNING"
  else if l = error then "ERROR"
  else if l = critical then "CRITICAL"
  else "Level " ++ intText l

def names : List (String × Level) :=
  [("NOTSET", 0), ("DEBUG", debug), ("INFO", info), ("WARNING", warning), ("WARN", warning),
    ("ERROR", error), ("CRITICAL", critical), ("FATAL", critical)]

/-- The level of a name in upper or lower case; unknown names mean the level of information. -/
def ofName (s : String) : Level :=
  (names.lookup (toUpper s)).getD info

end Level
end Reckoner.Log
