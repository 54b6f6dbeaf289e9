import Reckoner.Binary64.Rounded
import Reckoner.Json.Datum
import Reckoner.Log.Template.Spec

/-!
Arguments of message templates as text.
-/

namespace Reckoner.Log
open Text

namespace Template

inductive Fault where
  | tooFew
  | tooMany
  | mappingNeeded
  | missingKey (name : String)
  | incompleteKey
  | incomplete
  | extentNotWhole
  | extentTooLarge (kind : String)
  | widthTooBig
  | precisionTooBig
  | memory
  | notNumeric (conversion : Char) (kind : String)
  | notWhole (conversion : Char) (kind : String)
  | notReal (kind : String)
  | notACharacter
  | characterRange
  | notANumber
  | infinite
  | tooLarge
  | unsupported (conversion : Char) (offset : Nat)
deriving DecidableEq

def Fault.message : Fault → String
  | .tooFew => "not enough arguments for format string"
  | .tooMany => "not all arguments converted during string formatting"
  | .mappingNeeded => "format requires a mapping"
  | .missingKey name => quote name
  | .incompleteKey => "incomplete format key"
  | .incomplete => "incomplete format"
  | .extentNotWhole => "* wants int"
  | .extentTooLarge kind => "Python int too large to convert to C " ++ kind
  | .widthTooBig => "width too big"
  | .precisionTooBig => "precision too big"
  | .memory => ""
  | .notNumeric c kind =>
    "%" ++ c.toString ++ " format: a real number is required, not " ++ kind
  | .notWhole c kind => "%" ++ c.toString ++ " format: an integer is required, not " ++ kind
  | .notReal kind => "must be real number, not " ++ kind
  | .notACharacter => "%c requires int or char"
  | .characterRange => "%c arg not in range(0x110000)"
  | .notANumber => "cannot convert float NaN to integer"
  | .infinite => "cannot convert float infinity to integer"
  | .tooLarge => "int too large to convert to float"
  | .unsupported c offset =>
    let shown := if 0x1F ≤ c.toNat ∧ c.toNat ≤ 0x7E then c else '?'
    "unsupported format character '" ++ shown.toString ++ "' (0x" ++
      String.ofList (Nat.toDigits 16 c.toNat) ++ ") at index " ++ natText offset

structure Layout where
  numeric : Bool
  negative : Bool
  base : List Char
  body : List Char

def Layout.plain (cs : List Char) : Layout :=
  ⟨false, false, [], cs⟩

def Layout.sign (f : Flags) (l : Layout) : List Char :=
  if !l.numeric then []
  else if l.negative then ['-']
  else if f.plus then ['+']
  else if f.blank then [' ']
  else []

def Layout.text (f : Flags) (width : Nat) (l : Layout) : List Char :=
  let front := l.sign f ++ l.base
  let missing := width - (front.length + l.body.length)
  if f.left then front ++ l.body ++ List.replicate missing ' '
  else if f.zeros && l.numeric then front ++ List.replicate missing '0' ++ l.body
  else List.replicate missing ' ' ++ front ++ l.body

/-! Whole numbers. -/

/-- A number without its fraction. -/
def wholePart (conversion : Char) (a : Datum) : Except Fault Int :=
  match a.number? with
  | some (.whole n) => .ok n
  | some (.real (.finite negative code)) =>
    let n : Int := Binary64.units code / Binary64.unitsPerOne
    .ok (if negative then -n else n)
  | some (.real (.infinite _)) => .error .infinite
  | some (.real .nan) => .error .notANumber
  | none => .error (.notNumeric conversion a.kindName)

def whole (conversion : Char) (a : Datum) : Except Fault Int :=
  match a.number? with
  | some (.whole n) => .ok n
  | _ => .error (.notWhole conversion a.kindName)

/-- The digits of a number of any base up to 16. -/
def wholeLayout (base : Nat) (mark : List Char) (precision : Nat) (n : Int) : Layout :=
  let ds := Nat.toDigits base n.natAbs
  ⟨true, n < 0, mark, List.replicate (precision - ds.length) '0' ++ ds⟩

/-! Floating-point numbers. -/

def real (a : Datum) : Except Fault Binary64 :=
  match a.number? with
  | some (.real x) => .ok x
  | some (.whole n) => if (Binary64.ofInt n).isFinite then .ok (.ofInt n) else .error .tooLarge
  | none => .error (.notReal a.kindName)

def realLayout (f : Flags) (style : Char) (precision : Nat) : Binary64 → Layout
  | .nan => ⟨true, false, [], ['n', 'a', 'n']⟩
  | .infinite s => ⟨true, s, [], ['i', 'n', 'f']⟩
  | .finite s code =>
    let u := Binary64.units code
    let body :=
      if style == 'f' then Binary64.fixedText f.alternate precision u
      else if style == 'e' then
        let (mantissa, exponent) := Binary64.scientificText f.alternate precision u
        mantissa ++ exponent
      else Binary64.generalText f.alternate precision u
    ⟨true, s, [], body⟩

def maxDigits : Nat := 0x10000000

def places (default : Nat) (precision : Option Nat) : Except Fault Nat :=
  let n := precision.getD default
  if maxDigits < n then .error .memory else .ok n

/-! Characters and texts. -/

def character (a : Datum) : Except Fault (List Char) :=
  match a, a.number? with
  | .value (.string s), _ => if s.length = 1 then .ok s.toList else .error .notACharacter
  | _, some (.whole n) =>
    if n < 0 ∨ 0x110000 ≤ n then .error .characterRange else .ok [Char.ofNat n.toNat]
  | _, _ => .error .notACharacter

def asciiText (cs : List Char) : List Char :=
  cs.flatMap fun c => if c.toNat < 0x80 then [c] else codeEscape c.toNat

def cut (precision : Option Nat) (cs : List Char) : List Char :=
  match precision with
  | some n => cs.take n
  | none => cs

def upper (l : Layout) : Layout :=
  { l with base := l.base.map Char.toUpper, body := l.body.map Char.toUpper }

def isUpper (c : Char) : Bool :=
  'A' ≤ c && c ≤ 'Z'

def convert (f : Flags) (precision : Option Nat) (c : Char) (offset : Nat) (a : Datum) :
    Except Fault Layout :=
  let style := c.toLower
  let cased := fun l => if isUpper c then upper l else l
  if c == 's' then .ok (.plain (cut precision a.display.toList))
  else if c == 'r' then .ok (.plain (cut precision a.inspect.toList))
  else if c == 'a' then .ok (.plain (cut precision (asciiText a.inspect.toList)))
  else if c == 'c' then (character a).map .plain
  else if c == 'd' || c == 'i' || c == 'u' then do
    let n ← wholePart c a
    .ok (wholeLayout 10 [] (← places 0 precision) n)
  else if c == 'o' then do
    let n ← whole c a
    .ok (wholeLayout 8 (if f.alternate then ['0', 'o'] else []) (← places 0 precision) n)
  else if style == 'x' then do
    let n ← whole c a
    .ok (cased (wholeLayout 16 (if f.alternate then ['0', 'x'] else []) (← places 0 precision) n))
  else if style == 'e' || style == 'f' || style == 'g' then do
    let x ← real a
    .ok (cased (realLayout f style (← places 6 precision) x))
  else .error (.unsupported c offset)

end Template
end Reckoner.Log
