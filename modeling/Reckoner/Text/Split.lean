/-!
Texts in pieces, divided by a mark.
-/

namespace Reckoner.Text

def cutAt (mark : Char) (cs : List Char) : List Char × List Char :=
  (cs.takeWhile (· != mark), (cs.dropWhile (· != mark)).drop 1)

def splitAtEach (mark : Char) : List Char → List (List Char)
  | [] => [[]]
  | c :: cs =>
    if c == mark then [] :: splitAtEach mark cs
    else match splitAtEach mark cs with
      | [] => [[c]]
      | p :: ps => (c :: p) :: ps

end Reckoner.Text
