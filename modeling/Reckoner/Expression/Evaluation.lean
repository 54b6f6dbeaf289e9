import Reckoner.Expression.Parser

/-!
The value of an expression. Operands are evaluated from left to right; a division by zero of either
sign has no value, and all else is floating-point arithmetic.
-/

namespace Reckoner

namespace Expression

def evaluate : Expression → Except DivisionByZero Binary64
  | .number x => .ok x
  | .negation e => do
    let x ← e.evaluate
    .ok x.neg
  | .operation op l r => do
    let x ← l.evaluate
    let y ← r.evaluate
    if op = .div ∧ y.isZero then .error ⟨r⟩ else .ok (op.apply x y)

def evaluated (limit : Option Int) (source : String) : Except Failure (Expression × Binary64) := do
  let e ← ofText limit source
  match e.evaluate with
  | .ok x => .ok (e, x)
  | .error d => .error (.divisionByZero d)

def calculate (limit : Option Int) (source : String) : Except Failure Binary64 :=
  (evaluated limit source).map (·.2)

end Expression
end Reckoner
