import Reckoner.Binary64.Basic

/-!
JSON values. Whole numbers and floating-point numbers are told apart, and an object keeps its
members in the order in which their names came.

A string in which half of a surrogate pair stands alone is no text. All such strings are one value
here, `unpaired`, so that it is not told which half it is, where it stands and what stands around it;
that two of them are equal says nothing about the strings. As the name of a member such a string has
no counterpart.
-/

namespace Reckoner

inductive Json where
  | null
  | bool (value : Bool)
  | int (value : Int)
  | float (value : Binary64)
  | string (value : String)
  | unpaired
  | array (items : List Json)
  | object (members : List (String × Json))

namespace Json

def insert (name : String) (value : Json) : List (String × Json) → List (String × Json)
  | [] => [(name, value)]
  | m :: ms => if m.1 == name then (name, value) :: ms else m :: insert name value ms

/-- The members that pairs give in turn: of a repeated name the last value counts. -/
def ofPairs (pairs : List (String × Json)) : List (String × Json) :=
  pairs.foldl (fun members p => insert p.1 p.2 members) []

def get? (name : String) : Json → Option Json
  | .object members => members.lookup name
  | _ => none

/-- Whether a value says nothing: null, false, a zero or something empty. -/
def isVoid : Json → Bool
  | .null => true
  | .bool b => !b
  | .int n => n == 0
  | .float x => x.isZero
  | .string s => s.isEmpty
  | .unpaired => false
  | .array items => items.isEmpty
  | .object members => members.isEmpty

end Json
end Reckoner
