import Reckoner.Expression.Arithmetic
import Reckoner.Expression.Failure

/-!
Expression trees that nobody has checked: operators are arbitrary texts, literals are values of any
kind, and something else may stand in the place of a node.
-/

namespace Reckoner

inductive Draft where
  | number (value : Datum)
  | unary (op : String) (operand : Draft)
  | binary (op : String) (left right : Draft)
  | foreign (kind : String)
deriving Inhabited

namespace Draft

def literal : Datum → String
  | .value (.float x) => x.literal
  | v => v.display

def render : Draft → String
  | .number v => literal v
  | .unary op d => op ++ d.render
  | .binary op l r => "(" ++ l.render ++ " " ++ op ++ " " ++ r.render ++ ")"
  | .foreign kind => kind

inductive Fault where
  | foreign (kind : String)
  | unaryOperator (op : String)
  | binaryOperator (op : String)
  | divisionByZero (operand : Draft)
  | operation (cause : Datum.Fault)

def Fault.message : Fault → String
  | .foreign kind => "Unknown expression type: " ++ kind
  | .unaryOperator op => "Unknown unary op: " ++ op
  | .binaryOperator op => "Unknown binary op: " ++ op
  | .divisionByZero _ => DivisionByZero.message
  | .operation f => f.message

/-- The operands come first, from left to right, and then the operator. -/
def evaluate : Draft → Except Fault Datum
  | .number v => .ok v
  | .unary op d => do
    let a ← d.evaluate
    if op = "-" then a.neg.mapError .operation else .error (.unaryOperator op)
  | .binary op l r => do
    let a ← l.evaluate
    let b ← r.evaluate
    match Operator.ofSymbol? op with
    | none => .error (.binaryOperator op)
    | some o =>
      if o = .div ∧ b.isZero then .error (.divisionByZero r)
      else (Datum.apply o a b).mapError .operation
  | .foreign kind => .error (.foreign kind)

end Draft

/-- An expression as an unchecked tree. -/
def Expression.draft : Expression → Draft
  | .number x => .number (.value (.float x))
  | .negation e => .unary "-" e.draft
  | .operation op l r => .binary op.symbol l.draft r.draft

end Reckoner
