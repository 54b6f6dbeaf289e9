import Reckoner.Expression.Evaluation
import Reckoner.Expression.Json
import Reckoner.Json.Writer
import Reckoner.Settings
import Reckoner.Release
import Reckoner.Terminal.Table

/-!
What a command of the calculator comes to, and the commands that calculate.
-/

namespace Reckoner.Terminal
open Text

/-- A start of the web interface. With `reload` it takes its settings from the environment
itself. -/
structure Launch where
  settings : Settings
  reload : Bool
deriving DecidableEq

def Launch.logLevel (l : Launch) : String :=
  toLower l.settings.logLevel

structure Outcome where
  exitCode : Nat
  output : String
  errors : String
  files : List String
  launch : Option Launch

namespace Outcome

def printed (s : String) : Outcome :=
  ⟨0, s ++ "\n", "", [], none⟩

def usage : Outcome :=
  ⟨2, "", "Usage: calcapi [--version] eval | tokens | ast | serve\n", [], none⟩

/-! Control sequences are not written. -/

def isParameter (c : Char) : Bool :=
  c == ';' || c == '?' || isDigit c

/-- What follows a control sequence whose first two characters have been read. -/
def afterSequence? (cs : List Char) : Option (List Char) :=
  match cs.dropWhile isParameter with
  | c :: rest => if c.isAlpha then some rest else none
  | [] => none

theorem length_of_afterSequence? {cs rest : List Char} (h : afterSequence? cs = some rest) :
    rest.length < cs.length := by
  unfold afterSequence? at h
  split at h
  · rename_i c r hd
    split at h
    · cases h
      have := (List.dropWhile_sublist (l := cs) isParameter).length_le
      rw [hd] at this
      exact this
    · simp at h
  · simp at h

def withoutSequences (cs : List Char) : List Char :=
  match cs with
  | [] => []
  | [c] => [c]
  | c :: d :: cs =>
    if c.toNat == 0x1B && d == '[' then
      match h : afterSequence? cs with
      | some rest =>
        have := length_of_afterSequence? h
        withoutSequences rest
      | none => c :: withoutSequences (d :: cs)
    else c :: withoutSequences (d :: cs)
termination_by cs.length
decreasing_by all_goals (simp only [List.length_cons]; omega)

def echoed (s : String) : String :=
  String.ofList (withoutSequences s.toList) ++ "\n"

def caret (source : String) (i : Invalid) : String :=
  echoed ("  " ++ source) ++
    echoed (String.ofList (Table.blanks (2 + i.position.toNat)) ++ "^")

def failed (source : String) (f : Failure) : Outcome :=
  let mark := match f with
    | .invalid i => caret source i
    | _ => ""
  ⟨1, "", echoed ("Error: " ++ f.message) ++ mark, [], none⟩

def version : Outcome :=
  printed ("calcapi " ++ Release.current)

def maxDepth : Option Int :=
  some Settings.defaultMaxDepth

def evaluate (source : String) (withTree : Bool) : Outcome :=
  match Expression.evaluated maxDepth source with
  | .error f => failed source f
  | .ok (e, x) =>
    printed (x.resultText ++ if withTree then "\n" ++ e.json.indentedText else "")

def tree (source : String) (asJson : Bool) : Outcome :=
  match Expression.ofText maxDepth source with
  | .error f => failed source f
  | .ok e => printed (if asJson then e.json.indentedText else e.render)

def tokenColumns (ts : List Token) : List Column :=
  [⟨"Kind".toList, false, ts.map (·.kind.name.toList)⟩,
    ⟨"Lexeme".toList, false, ts.map (·.lexeme.toList)⟩,
    ⟨"Position".toList, true, ts.map fun t => (intText t.position).toList⟩]

def tokens (source : String) : Outcome :=
  match Token.scan source with
  | .error i => failed source (.invalid i)
  | .ok ts => ⟨0, Table.render "Tokens" (tokenColumns ts), "", [], none⟩

end Outcome
end Reckoner.Terminal
