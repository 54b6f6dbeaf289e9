import Reckoner.Text.Blank

/-!
The version of the program, found in the description of its package.
-/

namespace Reckoner.Release
open Text

def plainLines : List Char → List Char
  | [] => []
  | '\r' :: '\n' :: cs => '\n' :: plainLines cs
  | '\r' :: cs => '\n' :: plainLines cs
  | c :: cs => c :: plainLines cs

def isQuoteMark (c : Char) : Bool :=
  c == '"' || c == '\''

def quoted? : List Char → Option (List Char)
  | [] => none
  | c :: cs =>
    let inner := cs.takeWhile (!isQuoteMark ·)
    if isQuoteMark c && !inner.isEmpty && cs.any isQuoteMark then some inner else none

def assigned? (cs : List Char) : Option (List Char) :=
  if "version".toList.isPrefixOf cs then
    match (cs.drop "version".length).dropWhile isBlank with
    | '=' :: rest => quoted? (rest.dropWhile isBlank)
    | _ => none
  else none

/-- The first assignment at the start of a line; `atStart` tells whether one starts here. -/
def find? (atStart : Bool) : List Char → Option (List Char)
  | [] => none
  | c :: cs => ((if atStart then assigned? (c :: cs) else none)).or (find? (c == '\n') cs)

/-- The version of the package that a text describes. Without a text, or a version in it, the
version is not known. -/
def version (description : Option String) : String :=
  match description.bind fun s => find? true (plainLines s.toList) with
  | some v => String.ofList v
  | none => "0.0.0"

def current : String := "0.1.0"

end Reckoner.Release
