import Reckoner.Binary64.Shortest

/-!
Magnitudes as decimal text with a given number of digits. The exact value is rounded once, with ties
to even.
-/

namespace Reckoner
open Text

namespace Binary64

def multiples (u : Nat) (e : Int) : Nat :=
  roundHalfEven (u * Nat.pow 10 (-e).toNat) (unitsPerOne * Nat.pow 10 e.toNat)

def paddedDigits (width n : Nat) : List Char :=
  let ds := digits n
  List.replicate (width - ds.length) '0' ++ ds

/-- Puts a point before the last digits; with no digit behind it, it may be left out. -/
def pointed (point : Bool) (places : Nat) (ds : List Char) : List Char :=
  let n := ds.length - places
  ds.take n ++ if places = 0 ∧ !point then [] else '.' :: ds.drop n

/-- No magnitude has more digits than these, on either side of the point or in all; only zeros
follow. -/
def maxPlaces : Nat := 1100

def zerosFor (places : Nat) : List Char :=
  List.replicate (places - maxPlaces) '0'

def fixedText (point : Bool) (places u : Nat) : List Char :=
  let k := min places maxPlaces
  pointed point k (paddedDigits (k + 1) (multiples u (-(k : Int)))) ++ zerosFor places

def significant (n u : Nat) : Decimal :=
  if u = 0 then ⟨0, 1 - n⟩
  else
    let e := decimalBound u - n
    let q := multiples u e
    if q = Nat.pow 10 n then ⟨q / 10, e + 1⟩ else ⟨q, e⟩

def exponentText (e : Int) : List Char :=
  'e' :: (if e < 0 then '-' else '+') :: paddedDigits 2 e.natAbs

/-- One digit before the point and `places` behind it, and the exponent. -/
def scientificText (point : Bool) (places u : Nat) : List Char × List Char :=
  let k := min places maxPlaces
  let d := significant (k + 1) u
  (pointed point k (paddedDigits (k + 1) d.digits) ++ zerosFor places,
    exponentText (d.exponent + k))

def withoutZeros (ds : List Char) : List Char :=
  if ds.contains '.' then
    match ds.reverse.dropWhile (· == '0') with
    | '.' :: cs => cs.reverse
    | cs => cs.reverse
  else ds

/-- With `n` digits: written out from `0.0001` on while they reach the point, and with an exponent
otherwise. Zeros at the end of a fraction may be kept. -/
def generalText (keepZeros : Bool) (n u : Nat) : List Char :=
  let n := max n 1
  let k := min n maxPlaces
  let shown := fun cs => if keepZeros then cs ++ zerosFor n else withoutZeros cs
  let e := (significant k u).exponent + k - 1
  if -4 ≤ e ∧ e < k then shown (fixedText keepZeros (k - 1 - e).toNat u)
  else
    let (mantissa, exponent) := scientificText keepZeros (k - 1) u
    shown mantissa ++ exponent

end Binary64
end Reckoner
