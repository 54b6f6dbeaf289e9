import Reckoner.Text.Split

/-!
File paths in normal form: no empty parts and no parts that name the folder itself.
-/

namespace Reckoner.Text

def pathParts (s : List Char) : List (List Char) :=
  (splitAtEach '/' s).filter fun p => !p.isEmpty && p != ['.']

/-- One slash for an absolute path, and two where the path starts with exactly two. -/
def pathRoot : List Char → List Char
  | '/' :: '/' :: '/' :: _ => ['/']
  | '/' :: '/' :: _ => ['/', '/']
  | '/' :: _ => ['/']
  | _ => []

def normalPath (s : String) : String :=
  let cs := s.toList
  match pathRoot cs ++ ['/'].intercalate (pathParts cs) with
  | [] => "."
  | p => String.ofList p

end Reckoner.Text
