import Reckoner.Expression.Tree
import Reckoner.Json.Datum

/-!
The operators on values of any kind. Whole numbers stay whole but for division, texts and lists are
joined and repeated, and a path is extended by a division.
-/

namespace Reckoner
open Text

namespace Datum

inductive Fault where
  | operand (kind : String)
  | operands (op : Operator) (left right : String)
  | joined (kind other : String)
  | repeated (kind : String)
  | conversion
  | quotient
  | count
  | length
  | memory
deriving DecidableEq

def Fault.message : Fault → String
  | .operand kind => "bad operand type for unary -: '" ++ kind ++ "'"
  | .operands op left right =>
    "unsupported operand type(s) for " ++ op.symbol ++ ": '" ++ left ++ "' and '" ++ right ++ "'"
  | .joined kind other =>
    "can only concatenate " ++ kind ++ " (not \"" ++ other ++ "\") to " ++ kind
  | .repeated kind => "can't multiply sequence by non-int of type '" ++ kind ++ "'"
  | .conversion => "int too large to convert to float"
  | .quotient => "integer division result too large for a float"
  | .count => "cannot fit 'int' into an index-sized integer"
  | .length => "repeated string is too long"
  | .memory => ""

/-! Numbers. -/

def isZero (a : Datum) : Bool :=
  match a.number? with
  | some (.whole n) => n == 0
  | some (.real x) => x.isZero
  | none => false

namespace Number

def datum : Number → Datum
  | .whole n => .value (.int n)
  | .real x => .value (.float x)

def neg : Number → Number
  | .whole n => .whole (-n)
  | .real x => .real x.neg

def toReal : Number → Except Fault Binary64
  | .real x => .ok x
  | .whole n => if (Binary64.ofInt n).isFinite then .ok (Binary64.ofInt n) else .error .conversion

def quotient (m n : Int) : Except Fault Binary64 :=
  let x := Binary64.ofUnits ((m < 0) != (n < 0)) (m.natAbs * Binary64.unitsPerOne) n.natAbs
  if x.isFinite then .ok x else .error .quotient

def apply (op : Operator) (a b : Number) : Except Fault Number :=
  match op, a, b with
  | .add, .whole m, .whole n => .ok (.whole (m + n))
  | .sub, .whole m, .whole n => .ok (.whole (m - n))
  | .mul, .whole m, .whole n => .ok (.whole (m * n))
  | .div, .whole m, .whole n => (quotient m n).map .real
  | op, a, b => do
    let x ← a.toReal
    let y ← b.toReal
    .ok (.real (op.apply x y))

end Number

/-! Texts and lists. -/

def isSequence : Datum → Bool
  | .value (.string _) | .value (.array _) => true
  | _ => false

def join : Datum → Datum → Except Fault Datum
  | .value (.string s), .value (.string t) => .ok (.value (.string (s ++ t)))
  | .value (.array vs), .value (.array ws) => .ok (.value (.array (vs ++ ws)))
  | a, b => .error (.joined a.kindName b.kindName)

/-- The greatest length that a list of bytes may have. -/
def maxLength : Nat := 0x7FFFFFFFFFFFFFFF

def memory : Nat := 0x100000000

/-- How often something may be repeated: a negative count means never. -/
def count (n : Int) : Except Fault Nat :=
  if n < -0x8000000000000000 ∨ 0x7FFFFFFFFFFFFFFF < n then .error .count else .ok n.toNat

def repeated (sequence times : Datum) : Except Fault Datum :=
  match times.number? with
  | some (.whole n) => do
    let k ← count n
    match sequence with
    | .value (.string s) =>
      if maxLength < s.length * k then .error .length
      else if memory < s.length * k then .error .memory
      else .ok (.value (.string (String.join (List.replicate (if s.isEmpty then 0 else k) s))))
    | .value (.array vs) =>
      if memory < vs.length * k then .error .memory
      else .ok (.value (.array (List.replicate (if vs.isEmpty then 0 else k) vs).flatten))
    | a => .error (.operands .mul a.kindName times.kindName)
  | _ => .error (.repeated times.kindName)

/-! Paths. -/

def extended (first second : String) : Datum :=
  if first.isEmpty || second.toList.head? == some '/' then .path (normalPath second)
  else .path (normalPath (first ++ "/" ++ second))

/-! The operators. -/

def neg (a : Datum) : Except Fault Datum :=
  match a.number? with
  | some x => .ok x.neg.datum
  | none => .error (.operand a.kindName)

def applyOther (op : Operator) (a b : Datum) : Except Fault Datum :=
  match op, a, b with
  | .div, .path p, .path q => .ok (extended p q)
  | .div, .path p, .value (.string q) => .ok (extended p q)
  | .div, .value (.string p), .path q => .ok (extended p q)
  | op, a, b =>
    if op = .add ∧ a.isSequence then join a b
    else if op = .mul ∧ a.isSequence then repeated a b
    else if op = .mul ∧ b.isSequence then repeated b a
    else .error (.operands op a.kindName b.kindName)

def apply (op : Operator) (a b : Datum) : Except Fault Datum :=
  match a.number?, b.number? with
  | some x, some y => (Number.apply op x y).map (·.datum)
  | _, _ => applyOther op a b

end Datum
end Reckoner
