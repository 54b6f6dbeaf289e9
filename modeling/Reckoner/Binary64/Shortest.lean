import Reckoner.Binary64.Decimal

/-!
The shortest decimal that reads back as a given magnitude.
-/

namespace Reckoner

def digitCount (n : Nat) : Nat :=
  if n < 10 then 1 else digitCount (n / 10) + 1
decreasing_by omega

namespace Decimal

def trimmed (d : Decimal) : Decimal :=
  if h : d.digits ≠ 0 ∧ d.digits % 10 = 0 then trimmed ⟨d.digits / 10, d.exponent + 1⟩ else d
termination_by d.digits
decreasing_by omega

end Decimal

namespace Binary64

def decimalBound (u : Nat) : Int :=
  if unitsPerOne ≤ u then digitCount (u / unitsPerOne)
  else 1 - digitCount ((unitsPerOne - 1) / u)

def readsBack (code : Fin magnitudeCount) (d : Decimal) : Bool :=
  d.toBinary64 false == .finite false code

/-- The multiple of `10 ^ e` that reads back as the magnitude. Only the two that enclose it are
tried; the nearer one wins, and the even one of two equally near. -/
def onGrid? (code : Fin magnitudeCount) (e : Int) : Option Decimal :=
  let n := units code * Nat.pow 10 (-e).toNat
  let d := unitsPerOne * Nat.pow 10 e.toNat
  let below := n / d
  match readsBack code ⟨below, e⟩, readsBack code ⟨below + 1, e⟩ with
  | true, true =>
    let twice := 2 * n
    let middle := (2 * below + 1) * d
    if twice < middle || (twice == middle && below % 2 == 0) then some ⟨below, e⟩
    else some ⟨below + 1, e⟩
  | true, false => some ⟨below, e⟩
  | false, true => some ⟨below + 1, e⟩
  | false, false => none

def exactDecimal (code : Nat) : Decimal :=
  ⟨units code * Nat.pow 5 1074, -1074⟩

/-- The decimal with the fewest digits that reads back as the magnitude. Seventeen digits are
enough; the exact value stands behind them so that what is written always reads back. -/
def shortest (code : Fin magnitudeCount) : Decimal :=
  if code.val = 0 then ⟨0, 0⟩
  else
    let bound := decimalBound (units code)
    let found := (List.range 17).findSome? fun i => onGrid? code (bound - (i + 1 : Nat))
    (found.getD (exactDecimal code)).trimmed

end Binary64
end Reckoner
