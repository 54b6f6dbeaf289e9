import Reckoner.Binary64.Text

/-!
Arithmetic expressions as trees, and their fully parenthesized text.
-/

namespace Reckoner

inductive Operator where
  | add
  | sub
  | mul
  | div
deriving DecidableEq

namespace Operator

def symbol : Operator → String
  | .add => "+"
  | .sub => "-"
  | .mul => "*"
  | .div => "/"

def ofSymbol? (s : String) : Option Operator :=
  [add, sub, mul, div].find? (·.symbol == s)

def apply : Operator → Binary64 → Binary64 → Binary64
  | .add => .add
  | .sub => .sub
  | .mul => .mul
  | .div => .div

end Operator

inductive Expression where
  | number (value : Binary64)
  | negation (operand : Expression)
  | operation (op : Operator) (left right : Expression)
deriving DecidableEq

namespace Expression

def height : Expression → Nat
  | .number _ => 0
  | .negation e => e.height + 1
  | .operation _ l r => max l.height r.height + 1

def render : Expression → String
  | .number x => x.literal
  | .negation e => "-" ++ e.render
  | .operation op l r => "(" ++ l.render ++ " " ++ op.symbol ++ " " ++ r.render ++ ")"

def same : Expression → Expression → Bool
  | .number x, .number y => x.same y
  | .negation d, .negation e => d.same e
  | .operation op l r, .operation op' l' r' => op == op' && l.same l' && r.same r'
  | _, _ => false

end Expression
end Reckoner
