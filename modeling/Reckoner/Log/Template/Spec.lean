import Reckoner.Text.Numeral

/-!
The marks in a message template that stand for arguments: a percent sign, and behind it perhaps a
name, flags, a width, a precision and a size, and at last the letter of the conversion.
-/

namespace Reckoner.Log
open Text

structure Flags where
  left : Bool
  plus : Bool
  blank : Bool
  alternate : Bool
  zeros : Bool
deriving DecidableEq

def Flags.ofChars (cs : List Char) : Flags :=
  ⟨cs.contains '-', cs.contains '+', cs.contains ' ', cs.contains '#', cs.contains '0'⟩

/-- A width or precision is given, or is the next argument. -/
inductive Extent where
  | given (n : Nat)
  | argument
deriving DecidableEq

/-- The name of an argument; it may lack its end. -/
inductive Key where
  | name (s : String)
  | unfinished
deriving DecidableEq

/-- A mark without a conversion is incomplete. -/
structure Spec where
  key : Option Key
  flags : Flags
  width : Option Extent
  precision : Option Extent
  conversion : Option Char
deriving DecidableEq

namespace Spec

/-- A name up to the parenthesis that closes it, `depth` levels deep in further ones. -/
def keyFrom (depth : Nat) : List Char → Option (List Char × List Char)
  | [] => none
  | c :: cs =>
    if c == ')' then
      match depth with
      | 0 => some ([], cs)
      | d + 1 => (keyFrom d cs).map fun (k, rest) => (c :: k, rest)
    else (keyFrom (if c == '(' then depth + 1 else depth) cs).map fun (k, rest) => (c :: k, rest)

def readKey : List Char → Option Key × List Char
  | '(' :: cs =>
    match keyFrom 0 cs with
    | some (k, rest) => (some (.name (String.ofList k)), rest)
    | none => (some .unfinished, [])
  | cs => (none, cs)

def isFlag (c : Char) : Bool :=
  c == '-' || c == '+' || c == ' ' || c == '#' || c == '0'

def readExtent : List Char → Option Extent × List Char
  | '*' :: cs => (some .argument, cs)
  | cs =>
    let ds := cs.takeWhile isDigit
    (if ds.isEmpty then none else some (.given (ofDigits ds)), cs.dropWhile isDigit)

/-- A point alone means zero. -/
def readPrecision : List Char → Option Extent × List Char
  | '.' :: cs =>
    let (extent, rest) := readExtent cs
    (some (extent.getD (.given 0)), rest)
  | cs => (none, cs)

/-- The size of an argument does not count. -/
def withoutSize : List Char → List Char
  | c :: cs => if c == 'h' || c == 'l' || c == 'L' then cs else c :: cs
  | [] => []

def read (cs : List Char) : Spec × List Char :=
  let (key, cs) := readKey cs
  let flags := Flags.ofChars (cs.takeWhile isFlag)
  let (width, cs) := readExtent (cs.dropWhile isFlag)
  let (precision, cs) := readPrecision cs
  let cs := withoutSize cs
  (⟨key, flags, width, precision, cs.head?⟩, cs.tail)

end Spec
end Reckoner.Log
