import Reckoner.Binary64.Basic
import Reckoner.Text.Numeral

/-!
Decimal numbers, and the reading of decimal text as the nearest floating-point number.
-/

namespace Reckoner
open Text

structure Decimal where
  digits : Nat
  exponent : Int
deriving DecidableEq

namespace Decimal

def unitRatio (d : Decimal) : Nat × Nat :=
  if 0 ≤ d.exponent then (d.digits * Nat.pow 10 d.exponent.toNat * Binary64.unitsPerOne, 1)
  else (d.digits * Binary64.unitsPerOne, Nat.pow 10 (-d.exponent).toNat)

/-- The nearest floating-point number. Where the exponent decides for zero or infinity, whatever the
digits are, no power of ten is computed: there are at most `digits.log2 + 1` digits, and numbers
below `10 ^ -324` or from `10 ^ 310` on are out of reach. -/
def toBinary64 (negative : Bool) (d : Decimal) : Binary64 :=
  if d.digits = 0 ∨ d.exponent + d.digits.log2 + 1 ≤ -324 then .zero negative
  else if 310 ≤ d.exponent then .infinite negative
  else .ofUnits negative d.unitRatio.1 d.unitRatio.2

def ofFixed? (cs : List Char) : Option Decimal :=
  let whole := cs.takeWhile isDigit
  let fraction := match cs.dropWhile isDigit with
    | [] => some []
    | c :: rest => if c == '.' && rest.all isDigit then some rest else none
  fraction.bind fun fraction =>
    if whole.isEmpty && fraction.isEmpty then none
    else some ⟨ofDigits (whole ++ fraction), -(fraction.length : Int)⟩

def isExponentMark (c : Char) : Bool :=
  c == 'e' || c == 'E'

def exponent? : List Char → Option Int
  | [] => some 0
  | _ :: cs =>
    let (negative, ds) := splitSign cs
    if ds.isEmpty || !ds.all isDigit then none
    else some (if negative then -(ofDigits ds : Int) else ofDigits ds)

def ofNumeral? (cs : List Char) : Option Decimal :=
  match ofFixed? (cs.takeWhile (!isExponentMark ·)),
      exponent? (cs.dropWhile (!isExponentMark ·)) with
  | some d, some e => some ⟨d.digits, d.exponent + e⟩
  | _, _ => none

end Decimal

namespace Binary64

def ofNumeral? (cs : List Char) : Option Binary64 :=
  let (negative, body) := splitSign cs
  let word := String.ofList (body.map Char.toLower)
  if word = "inf" ∨ word = "infinity" then some (.infinite negative)
  else if word = "nan" then some .nan
  else (Decimal.ofNumeral? body).map (·.toBinary64 negative)

/-- Reads digits of any script, with space around the numeral and single underscores between
digits. -/
def ofText? (s : String) : Option Binary64 :=
  (dropUnderscores (plainNumeral s)).bind ofNumeral?

/-- Reads ASCII digits, either with space around the numeral or with loose underscores in it. -/
def ofLooseText? (s : String) : Option Binary64 :=
  let cs := s.toList
  match ofNumeral? (trim isSpace cs) with
  | some x => some x
  | none => if looseUnderscores cs then ofNumeral? (cs.filter (· != '_')) else none

end Binary64
end Reckoner
