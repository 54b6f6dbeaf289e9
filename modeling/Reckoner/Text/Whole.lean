import Reckoner.Text.Numeral
import Reckoner.Text.Split

/-!
Whole numbers as people hand them in: in ASCII digits, with space around them, a sign, zeros in
front, single underscores and a fraction of zeros.
-/

namespace Reckoner.Text
namespace Whole

inductive Fault where
  | malformed
  | tooLong
deriving DecidableEq

/-- A plus may stand in front, but not before a minus. -/
def withoutPlus? : List Char → Option (List Char)
  | '+' :: '-' :: _ => none
  | '+' :: cs => some cs
  | cs => some cs

def splitMinus : List Char → Bool × List Char
  | '-' :: cs => (true, cs)
  | cs => (false, cs)

/-- Passes over zeros and underscores behind a zero; the last of them stays unless another digit or
a minus follows. -/
def afterZero? (last : Char) : List Char → Option (List Char)
  | [] => some [last]
  | c :: cs =>
    if c == '0' || c == '_' then afterZero? c cs
    else if isDigit c || c == '-' then some (c :: cs)
    else if c == '.' then some (last :: c :: cs)
    else none

def withoutZeros? : List Char → Option (List Char)
  | [] => none
  | c :: cs =>
    if c == '0' then afterZero? c cs
    else if isDigit c then some (c :: cs)
    else none

/-- Cuts off a point and the zeros behind it. -/
def withoutFraction (cs : List Char) : List Char :=
  let (whole, fraction) := cutAt '.' cs
  if !fraction.isEmpty && fraction.all (· == '0') then whole else cs

def withoutUnderscores (cs : List Char) : List Char :=
  if looseUnderscores cs then cs.filter (· != '_') else cs

def magnitude (cs : List Char) : Except Fault Nat :=
  let digits := cs.takeWhile isDigit
  if digits.isEmpty || (digits.head? == some '0' && digits.length ≠ 1) then .error .malformed
  else if maxDigits < digits.length then .error .tooLong
  else if digits.length ≠ cs.length then .error .malformed
  else .ok (ofDigits digits)

/-- A minus may stand on either side of the zeros in front, but not on both. -/
def value (negative : Bool) (cs : List Char) : Except Fault Int :=
  match splitMinus cs with
  | (true, ds) =>
    if negative then .error .malformed else (magnitude ds).map fun n => -(n : Int)
  | (false, ds) => (magnitude ds).map fun n => if negative then -(n : Int) else n

def ofText (s : String) : Except Fault Int :=
  match withoutPlus? (trim isSpace s.toList) with
  | none => .error .malformed
  | some cs =>
    let (negative, body) := splitMinus cs
    match withoutZeros? body with
    | none => .error .malformed
    | some ds => value negative (withoutUnderscores (withoutFraction ds))

end Whole
end Reckoner.Text
