import Reckoner.Json.Basic
import Reckoner.Binary64.Text
import Reckoner.Text.Quoted

/-!
JSON as ASCII text, on one line or indented. Numbers without a finite value are written as
`NaN`, `Infinity` and `-Infinity`.
-/

namespace Reckoner
open Text

namespace Json

def unitEscape (n : Nat) : List Char :=
  '\\' :: 'u' :: hex 4 n

/-- Beyond the first plane a character is written as its two UTF-16 units. -/
def charText (c : Char) : List Char :=
  if c == '"' || c == '\\' then ['\\', c]
  else if ' ' ≤ c ∧ c ≤ '~' then [c]
  else if c == '\n' then ['\\', 'n']
  else if c == '\r' then ['\\', 'r']
  else if c == '\t' then ['\\', 't']
  else if c.toNat == 0x08 then ['\\', 'b']
  else if c.toNat == 0x0C then ['\\', 'f']
  else if c.toNat < 0x10000 then unitEscape c.toNat
  else
    let n := c.toNat - 0x10000
    unitEscape (0xD800 + n / 0x400) ++ unitEscape (0xDC00 + n % 0x400)

def stringText (s : String) : List Char :=
  '"' :: (s.toList.flatMap charText ++ ['"'])

def floatText : Binary64 → String
  | .infinite negative => Binary64.signed negative "Infinity"
  | .nan => "NaN"
  | x => x.text

mutual

def chars : Json → List Char
  | .null => "null".toList
  | .bool b => if b then "true".toList else "false".toList
  | .int n => (intText n).toList
  | .float x => (floatText x).toList
  | .string s => stringText s
  | .unpaired => '"' :: (unitEscape 0xD800 ++ ['"'])
  | .array items => '[' :: (itemChars items ++ [']'])
  | .object members => '{' :: (memberChars members ++ ['}'])

def itemChars : List Json → List Char
  | [] => []
  | [v] => chars v
  | v :: vs => chars v ++ ',' :: ' ' :: itemChars vs

def memberChars : List (String × Json) → List Char
  | [] => []
  | [(k, v)] => stringText k ++ ':' :: ' ' :: chars v
  | (k, v) :: ms => stringText k ++ ':' :: ' ' :: (chars v ++ ',' :: ' ' :: memberChars ms)

end

def text (v : Json) : String :=
  String.ofList (chars v)

def newline (indent : Nat) : List Char :=
  '\n' :: List.replicate indent ' '

mutual

def indentedChars (indent : Nat) : Json → List Char
  | .array (v :: vs) =>
    '[' :: (indentedItems (indent + 2) (v :: vs) ++ newline indent ++ [']'])
  | .object (m :: ms) =>
    '{' :: (indentedMembers (indent + 2) (m :: ms) ++ newline indent ++ ['}'])
  | v => chars v

def indentedItems (indent : Nat) : List Json → List Char
  | [] => []
  | [v] => newline indent ++ indentedChars indent v
  | v :: vs => newline indent ++ indentedChars indent v ++ ',' :: indentedItems indent vs

def indentedMembers (indent : Nat) : List (String × Json) → List Char
  | [] => []
  | [(k, v)] => newline indent ++ stringText k ++ ':' :: ' ' :: indentedChars indent v
  | (k, v) :: ms =>
    newline indent ++ stringText k ++ ':' :: ' ' ::
      (indentedChars indent v ++ ',' :: indentedMembers indent ms)

end

def indentedText (v : Json) : String :=
  String.ofList (indentedChars 0 v)

end Json
end Reckoner
