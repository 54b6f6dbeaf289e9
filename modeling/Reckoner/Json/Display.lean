import Reckoner.Json.Basic
import Reckoner.Binary64.Text
import Reckoner.Text.Quoted

/-!
JSON values as messages show them.
-/

namespace Reckoner
open Text

namespace Json

mutual

/-- A value inside another one: texts stand in quotes. -/
def inspect : Json → String
  | .null => "None"
  | .bool b => if b then "True" else "False"
  | .int n => intText n
  | .float x => x.text
  | .string s => quote s
  | .unpaired => "'\\ud800'"
  | .array items => "[" ++ ", ".intercalate (inspectItems items) ++ "]"
  | .object members => "\x7b" ++ ", ".intercalate (inspectMembers members) ++ "\x7d"

def inspectItems : List Json → List String
  | [] => []
  | v :: vs => inspect v :: inspectItems vs

def inspectMembers : List (String × Json) → List String
  | [] => []
  | (k, v) :: ms => (quote k ++ ": " ++ inspect v) :: inspectMembers ms

end

/-- A value on its own: a text stands for itself. -/
def display : Json → String
  | .string s => s
  | v => inspect v

def kindName : Json → String
  | .null => "NoneType"
  | .bool _ => "bool"
  | .int _ => "int"
  | .float _ => "float"
  | .string _ | .unpaired => "str"
  | .array _ => "list"
  | .object _ => "dict"

end Json
end Reckoner
