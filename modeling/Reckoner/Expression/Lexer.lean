import Reckoner.Expression.Failure

/-!
Splitting a source into tokens. A number is a maximal run of ASCII digits and points with at most
one point and at least one digit.
-/

namespace Reckoner
open Text

namespace Token

def isNumeric (c : Char) : Bool :=
  isDigit c || c == '.'

/-- The offset of the first point that cannot stand in a run of digits and points: the second one,
or one without digits. -/
def misplacedPoint? (run : List Char) : Option Nat :=
  if run = ['.'] then some 0
  else
    let first := (run.takeWhile (· != '.')).length
    ((run.drop (first + 1)).findIdx? (· == '.')).map (first + 1 + ·)

/-- The tokens of a text that starts at the given position, and the end behind them. -/
def scanFrom (position : Nat) : List Char → Except Invalid (List Token)
  | [] => .ok [⟨.eof, "", position⟩]
  | c :: cs =>
    if isBlank c then scanFrom (position + 1) cs
    else if isNumeric c then
      let run := c :: cs.takeWhile isNumeric
      match misplacedPoint? run with
      | some i => .error (.point (position + i))
      | none => do
        let ts ← scanFrom (position + run.length) (cs.dropWhile isNumeric)
        .ok (⟨.number, String.ofList run, position⟩ :: ts)
    else
      match TokenKind.ofChar? c with
      | none => .error (.character c position)
      | some kind => do
        let ts ← scanFrom (position + 1) cs
        .ok (⟨kind, c.toString, position⟩ :: ts)
termination_by cs => cs.length
decreasing_by
  · exact Nat.lt_succ_self _
  · exact Nat.lt_succ_of_le (List.dropWhile_sublist _).length_le
  · exact Nat.lt_succ_self _

def scan (source : String) : Except Invalid (List Token) :=
  scanFrom 0 source.toList

end Token
end Reckoner
