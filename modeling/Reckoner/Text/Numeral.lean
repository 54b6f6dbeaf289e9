import Reckoner.Text.Blank

/-!
Whole numbers as decimal text. Numbers are written in ASCII digits and read in the decimal digits
of any script.
-/

namespace Reckoner.Text

def digitChar (d : Nat) : Char :=
  Char.ofNat (0x30 + d)

def digits (n : Nat) : List Char :=
  if n < 10 then [digitChar n] else digits (n / 10) ++ [digitChar (n % 10)]
decreasing_by omega

def natText (n : Nat) : String :=
  String.ofList (digits n)

def intText : Int → String
  | .ofNat n => natText n
  | .negSucc n => "-" ++ natText (n + 1)

def padded (width n : Nat) : String :=
  let ds := digits n
  String.ofList (List.replicate (width - ds.length) '0' ++ ds)

def isDigit (c : Char) : Bool :=
  '0' ≤ c && c ≤ '9'

def digitValue (c : Char) : Nat :=
  c.toNat - 0x30

def ofDigits (ds : List Char) : Nat :=
  ds.foldl (fun n c => 10 * n + digitValue c) 0

/-- The zeros of the scripts of Unicode 14; the digits from one to nine follow each of them. -/
def zeros : List Nat := [
  0x30, 0x660, 0x6F0, 0x7C0, 0x966, 0x9E6, 0xA66, 0xAE6, 0xB66, 0xBE6, 0xC66, 0xCE6, 0xD66,
  0xDE6, 0xE50, 0xED0, 0xF20, 0x1040, 0x1090, 0x17E0, 0x1810, 0x1946, 0x19D0, 0x1A80, 0x1A90,
  0x1B50, 0x1BB0, 0x1C40, 0x1C50, 0xA620, 0xA8D0, 0xA900, 0xA9D0, 0xA9F0, 0xAA50, 0xABF0, 0xFF10,
  0x104A0, 0x10D30, 0x11066, 0x110F0, 0x11136, 0x111D0, 0x112F0, 0x11450, 0x114D0, 0x11650,
  0x116C0, 0x11730, 0x118E0, 0x11950, 0x11C50, 0x11D50, 0x11DA0, 0x16A60, 0x16AC0, 0x16B50,
  0x1D7CE, 0x1D7D8, 0x1D7E2, 0x1D7EC, 0x1D7F6, 0x1E140, 0x1E2F0, 0x1E950, 0x1FBF0]

/-- The ASCII digit of the same value, for a decimal digit of any script. -/
def plainDigit (c : Char) : Char :=
  match zeros.find? fun z => z ≤ c.toNat && c.toNat < z + 10 with
  | some z => digitChar (c.toNat - z)
  | none => c

/-- A numeral ready to be read: no space around it, and its digits in ASCII. -/
def plainNumeral (s : String) : List Char :=
  (trim isSpace s.toList).map plainDigit

/-- Removes underscores, each of which has to stand between two digits. -/
def dropUnderscores : List Char → Option (List Char)
  | [] => some []
  | '_' :: _ => none
  | [c] => some [c]
  | c :: '_' :: d :: cs =>
    if isDigit c && isDigit d then (dropUnderscores (d :: cs)).map (c :: ·) else none
  | c :: d :: cs => (dropUnderscores (d :: cs)).map (c :: ·)

def singleUnderscores : List Char → Bool
  | [] => true
  | ['_'] => false
  | '_' :: '_' :: _ => false
  | _ :: cs => singleUnderscores cs

/-- Whether underscores stand alone and not at an end, whatever their neighbours are. -/
def looseUnderscores (cs : List Char) : Bool :=
  cs.head? != some '_' && singleUnderscores cs

def splitSign : List Char → Bool × List Char
  | '-' :: cs => (true, cs)
  | '+' :: cs => (false, cs)
  | cs => (false, cs)

/-- A numeral of more digits is not read as a whole number. -/
def maxDigits : Nat := 4300

/-- The whole number that a text denotes: an optional sign and digits of any script, with space
around them and single underscores between them. -/
def integer? (s : String) : Option Int :=
  let (negative, body) := splitSign (plainNumeral s)
  match dropUnderscores body with
  | none => none
  | some ds =>
    if ds.isEmpty || !ds.all isDigit || maxDigits < ds.length then none
    else some (if negative then -(ofDigits ds : Int) else ofDigits ds)

end Reckoner.Text
