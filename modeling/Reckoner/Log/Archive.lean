import Reckoner.Files
import Reckoner.Text.Numeral

/-!
A log file with its backups. When a line would not fit, the file becomes the newest backup and a
new file is begun.
-/

namespace Reckoner.Log
open Text

/-- The lines of the file and of its backups, the newest backup first. -/
structure Archive where
  current : List String
  backups : List (List String)
deriving DecidableEq

/-- How large a file may grow, where the size is positive, and how many backups are kept. -/
structure Rotation where
  maxBytes : Int
  backupCount : Int
deriving DecidableEq

namespace Archive

def empty : Archive :=
  ⟨[], []⟩

def size (lines : List String) : Nat :=
  lines.foldr (fun line n => line.utf8ByteSize + 1 + n) 0

def isFull (r : Rotation) (a : Archive) (line : String) : Bool :=
  0 < r.maxBytes && r.maxBytes ≤ (size a.current : Int) + line.length + 1

/-- Makes the file the newest backup. The oldest backup within the count goes; what older
settings left beyond the count stays. Without backups the file goes on. -/
def rollOver (r : Rotation) (a : Archive) : Archive :=
  if 0 < r.backupCount then
    let n := r.backupCount.toNat
    ⟨[], a.current :: a.backups.take (n - 1) ++ a.backups.drop n⟩
  else a

def append (r : Rotation) (a : Archive) (line : String) : Archive :=
  let b := if isFull r a line then rollOver r a else a
  ⟨b.current ++ [line], b.backups⟩

def text (lines : List String) : String :=
  String.join (lines.map (· ++ "\n"))

def files (place : Place) (a : Archive) : List (Place × String) :=
  (place, text a.current) ::
    a.backups.mapIdx fun i lines => (place.extended ('.' :: digits (i + 1)), text lines)

end Archive
end Reckoner.Log
