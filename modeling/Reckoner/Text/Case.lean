import Reckoner.Text.Printable
import Reckoner.Text.Case.Table

/-!
Upper and lower case of whole texts. A character may become several, and a capital sigma becomes
its final form at the end of a word.
-/

namespace Reckoner.Text

def shifted (runs : List CaseRun) (c : Char) : Char :=
  match runs.find? fun r => r.covers c.toNat with
  | some r => Char.ofNat (c.toNat + r.offset).toNat
  | none => c

def upperChars (c : Char) : List Char :=
  match upperSpellings.find? fun s => s.1 == c.toNat with
  | some s => s.2.map Char.ofNat
  | none => [shifted upperRuns c]

def toUpper (s : String) : String :=
  String.ofList (s.toList.flatMap upperChars)

def isCased (c : Char) : Bool :=
  inRanges casedRanges c.toNat

def isCaseIgnorable (c : Char) : Bool :=
  inRanges caseIgnorableRanges c.toNat

def startsCased (s : List Char) : Bool :=
  match s.dropWhile isCaseIgnorable with
  | c :: _ => isCased c
  | [] => false

def lowerChars (before after : List Char) (c : Char) : List Char :=
  if c == 'Σ' then
    if startsCased before && !startsCased after then ['ς'] else ['σ']
  else if c == 'İ' then ['i', Char.ofNat 0x307]
  else [shifted lowerRuns c]

def lowerFrom (before : List Char) : List Char → List Char
  | [] => []
  | c :: cs => lowerChars before cs c ++ lowerFrom (c :: before) cs

def toLower (s : String) : String :=
  String.ofList (lowerFrom [] s.toList)

end Reckoner.Text
