import Reckoner.Binary64.Shortest

/-!
Floating-point numbers as text: in their shortest form, as literals of the expression language, and
as results.
-/

namespace Reckoner
open Text

namespace Decimal

def zerosText (n : Nat) : String :=
  String.ofList (List.replicate n '0')

def plain (d : Decimal) : String :=
  let ds := Text.digits d.digits
  if 0 ≤ d.exponent then String.ofList ds ++ zerosText d.exponent.toNat
  else
    let places := (-d.exponent).toNat
    let whole := if places < ds.length then ds.take (ds.length - places) else ['0']
    let fraction := List.replicate (places - ds.length) '0' ++ ds.drop (ds.length - places)
    String.ofList (whole ++ '.' :: fraction)

def leading (d : Decimal) : Int :=
  d.exponent + (Text.digits d.digits).length - 1

/-- One digit before the point, and an exponent of at least two digits with its sign. -/
def scientific (d : Decimal) : String :=
  let ds := Text.digits d.digits
  let fraction := if ds.length ≤ 1 then [] else '.' :: ds.drop 1
  let sign := if d.leading < 0 then "e-" else "e+"
  String.ofList (ds.take 1 ++ fraction) ++ sign ++ padded 2 d.leading.natAbs

/-- Numbers from `0.0001` to below `10 ^ 16` are written out, with a fraction in any case; the
others have an exponent. -/
def natural (d : Decimal) : String :=
  if -4 ≤ d.leading ∧ d.leading < 16 then
    if 0 ≤ d.exponent then d.plain ++ ".0" else d.plain
  else d.scientific

end Decimal

namespace Binary64

def signed (negative : Bool) (s : String) : String :=
  if negative then "-" ++ s else s

/-- The shortest text that reads back as the number. -/
def text : Binary64 → String
  | .finite s code => signed s (shortest code).natural
  | .infinite s => signed s "inf"
  | .nan => "nan"

/-- A literal of the expression language: whole numbers without a point, and never an exponent. -/
def literal (x : Binary64) : String :=
  match x.toInt?, x with
  | some n, _ => intText n
  | none, .finite s code => signed s (shortest code).plain
  | none, x => x.text

/-- A result for a reader: whole numbers without a point. -/
def resultText (x : Binary64) : String :=
  match x.toInt? with
  | some n => intText n
  | none => x.text

end Binary64
end Reckoner
