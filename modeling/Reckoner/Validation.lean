import Reckoner.Json.Display

/-!
What is wrong with a value from outside, and where in it.
-/

namespace Reckoner
open Text

inductive Problem where
  | missing
  | floatType
  | floatParsing
  | stringType
  | stringUnpaired
  | stringTooShort (least : Nat)
  | objectType
  | choice (choices : String)
  | notAnObject
  | tagNotFound
  | tagInvalid (tag : String)
  | jsonInvalid (reason : String)
  | intParsing
  | intTooLong
  | below (least : Int)
  | above (most : Int)
deriving DecidableEq

namespace Problem

def code : Problem → String
  | .missing => "missing"
  | .floatType => "float_type"
  | .floatParsing => "float_parsing"
  | .stringType => "string_type"
  | .stringUnpaired => "string_unicode"
  | .stringTooShort _ => "string_too_short"
  | .objectType => "dict_type"
  | .choice _ => "enum"
  | .notAnObject => "model_attributes_type"
  | .tagNotFound => "union_tag_not_found"
  | .tagInvalid _ => "union_tag_invalid"
  | .jsonInvalid _ => "json_invalid"
  | .intParsing => "int_parsing"
  | .intTooLong => "int_parsing_size"
  | .below _ => "greater_than_equal"
  | .above _ => "less_than_equal"

def message : Problem → String
  | .missing => "Field required"
  | .floatType => "Input should be a valid number"
  | .floatParsing => "Input should be a valid number, unable to parse string as a number"
  | .stringType => "Input should be a valid string"
  | .stringUnpaired =>
    "Input should be a valid string, unable to parse raw data as a unicode string"
  | .stringTooShort least =>
    "String should have at least " ++ natText least ++
      (if least = 1 then " character" else " characters")
  | .objectType => "Input should be a valid dictionary"
  | .choice choices => "Input should be " ++ choices
  | .notAnObject => "Input should be a valid dictionary or object to extract fields from"
  | .tagNotFound => "Unable to extract tag using discriminator 'type'"
  | .tagInvalid tag =>
    "Input tag '" ++ tag ++ "' found using 'type' does not match any of the expected tags: " ++
      "'number', 'unary', 'binary'"
  | .jsonInvalid _ => "JSON decode error"
  | .intParsing => "Input should be a valid integer, unable to parse string as an integer"
  | .intTooLong => "Unable to parse input string as an integer, exceeded maximum size"
  | .below least => "Input should be greater than or equal to " ++ intText least
  | .above most => "Input should be less than or equal to " ++ intText most

def context : Problem → List (String × String)
  | .stringTooShort least => [("min_length", natText least)]
  | .jsonInvalid reason => [("error", reason)]
  | .below least => [("ge", intText least)]
  | .above most => [("le", intText most)]
  | _ => []

end Problem

inductive Step where
  | field (name : String)
  | index (offset : Nat)
deriving DecidableEq

structure Issue where
  problem : Problem
  location : List Step
deriving DecidableEq

/-- The issue as seen from outside the named field. -/
def Issue.within (name : String) (i : Issue) : Issue :=
  { i with location := .field name :: i.location }

/-- A value, or all that is wrong with what it was read from. -/
abbrev Checked (α : Type) := Except (List Issue) α

namespace Checked

def fail {α : Type} (p : Problem) : Checked α :=
  .error [⟨p, []⟩]

def within {α : Type} (name : String) (c : Checked α) : Checked α :=
  c.mapError (·.map (·.within name))

/-- Both values, or the issues of the first and then those of the second. -/
def both {α β : Type} (a : Checked α) (b : Checked β) : Checked (α × β) :=
  match a, b with
  | .ok x, .ok y => .ok (x, y)
  | .ok _, .error js => .error js
  | .error is, .ok _ => .error is
  | .error is, .error js => .error (is ++ js)

/-- A member that has to be there. The reader is told that it reads the member. -/
def field {α : Type} (members : List (String × Json)) (name : String)
    (read : (v : Json) → members.lookup name = some v → Checked α) : Checked α :=
  within name <|
    match h : members.lookup name with
    | none => fail .missing
    | some v => read v h

/-- Numbers, truth values as one and zero, and numerals. -/
def float : Json → Checked Binary64
  | .float x => .ok x
  | .int n =>
    match Binary64.ofInt n with
    | .infinite _ => fail .floatType
    | x => .ok x
  | .bool b => .ok (.ofInt (if b then 1 else 0))
  | .string s =>
    match Binary64.ofLooseText? s with
    | some x => .ok x
    | none => fail .floatParsing
  | _ => fail .floatType

def string : Json → Checked String
  | .string s => .ok s
  | .unpaired => fail .stringUnpaired
  | _ => fail .stringType

def members : Json → Checked (List (String × Json))
  | .object members => .ok members
  | _ => fail .objectType

end Checked
end Reckoner
