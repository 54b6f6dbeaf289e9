/-!
Floating-point numbers of 64 bits. Every operation gives the exact result rounded once, to the
nearest number and with ties to the even one.
-/

namespace Reckoner

/-- How many magnitudes have the same exponent: two to the power of 52. -/
abbrev binadeSize : Nat := 0x10000000000000

abbrev magnitudeCount : Nat := 0x7FF0000000000000

/-- A finite number is a sign and a magnitude. The magnitudes are numbered in ascending order from
zero, so that neighbours have neighbouring codes. -/
inductive Binary64 where
  | finite (negative : Bool) (code : Fin magnitudeCount)
  | infinite (negative : Bool)
  | nan
deriving DecidableEq

namespace Binary64

/-- The number one in units of the least positive magnitude. -/
def unitsPerOne : Nat := Nat.pow 2 1074

/-- The magnitude of a code in units: the first two binades have a step of one unit, and each
further binade doubles it. -/
def units (code : Nat) : Nat :=
  if code < 2 * binadeSize then code
  else (binadeSize + code % binadeSize) * Nat.pow 2 (code / binadeSize - 1)

/-- The whole number nearest to `n / d`, the even one of two. -/
def roundHalfEven (n d : Nat) : Nat :=
  let q := n / d
  let r := n % d
  if 2 * r < d || (2 * r == d && q % 2 == 0) then q else q + 1

/-- The code of the magnitude nearest to `n / d` units, as if the magnitudes had no end. -/
def nearest (n d : Nat) : Nat :=
  let binade := (n / d).log2 - 52
  roundHalfEven n (d * Nat.pow 2 binade) + binade * binadeSize

def ofUnits (negative : Bool) (n d : Nat) : Binary64 :=
  if h : nearest n d < magnitudeCount then .finite negative ⟨nearest n d, h⟩
  else .infinite negative

def zero (negative : Bool) : Binary64 :=
  .finite negative ⟨0, by decide⟩

def ofInt (n : Int) : Binary64 :=
  ofUnits (n < 0) (n.natAbs * unitsPerOne) 1

def scaled (negative : Bool) (code : Nat) : Int :=
  if negative then -(units code : Int) else units code

def isFinite : Binary64 → Bool
  | .finite _ _ => true
  | _ => false

def isZero : Binary64 → Bool
  | .finite _ code => code.val == 0
  | _ => false

def neg : Binary64 → Binary64
  | .finite s code => .finite (!s) code
  | .infinite s => .infinite (!s)
  | .nan => .nan

/-- An exact sum of zero is positive unless both terms are negative. -/
def add : Binary64 → Binary64 → Binary64
  | .nan, _ | _, .nan => .nan
  | .infinite s, .infinite t => if s == t then .infinite s else .nan
  | .infinite s, .finite _ _ => .infinite s
  | .finite _ _, .infinite t => .infinite t
  | .finite s a, .finite t b =>
    let sum := scaled s a + scaled t b
    if sum = 0 then zero (s && t) else ofUnits (sum < 0) sum.natAbs 1

def sub (x y : Binary64) : Binary64 :=
  add x (neg y)

def mul : Binary64 → Binary64 → Binary64
  | .nan, _ | _, .nan => .nan
  | .infinite s, .infinite t => .infinite (s ^^ t)
  | .infinite s, .finite t b => if b.val = 0 then .nan else .infinite (s ^^ t)
  | .finite s a, .infinite t => if a.val = 0 then .nan else .infinite (s ^^ t)
  | .finite s a, .finite t b => ofUnits (s ^^ t) (units a * units b) unitsPerOne

def div : Binary64 → Binary64 → Binary64
  | .nan, _ | _, .nan => .nan
  | .infinite _, .infinite _ => .nan
  | .infinite s, .finite t _ => .infinite (s ^^ t)
  | .finite s _, .infinite t => zero (s ^^ t)
  | .finite s a, .finite t b =>
    if b.val = 0 then if a.val = 0 then .nan else .infinite (s ^^ t)
    else ofUnits (s ^^ t) (units a * unitsPerOne) (units b)

/-- Equality of values: the two zeros are equal, and NaN equals nothing. -/
def same : Binary64 → Binary64 → Bool
  | .finite s a, .finite t b => a == b && (s == t || a.val == 0)
  | .infinite s, .infinite t => s == t
  | _, _ => false

def toInt? : Binary64 → Option Int
  | .finite s code =>
    if units code % unitsPerOne = 0 then
      let n : Int := units code / unitsPerOne
      some (if s then -n else n)
    else none
  | _ => none

end Binary64
end Reckoner
