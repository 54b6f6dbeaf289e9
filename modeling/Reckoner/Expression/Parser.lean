import Reckoner.Expression.Lexer
import Reckoner.Binary64.Decimal

/-!
Reading expressions off tokens. A sum is a chain of products, a product a chain of factors, and a
factor is a negated factor, a sum in parentheses or a number; chains group to the left. A limit
bounds both the number of open parentheses and minuses and the height of the tree.
-/

namespace Reckoner

inductive Rank where
  | product
  | sum
deriving DecidableEq

def Rank.operator? : Rank → TokenKind → Option Operator
  | .sum, .plus => some .add
  | .sum, .minus => some .sub
  | .product, .star => some .mul
  | .product, .slash => some .div
  | _, _ => none

/-- Orders the rules that hand the same tokens on. -/
def Rank.weight : Rank → Nat
  | .product => 1
  | .sum => 3

namespace Expression

/-- A tree with its height, and fewer than `bound` tokens behind it. -/
structure Parsed (bound : Nat) where
  tree : Expression
  height : Nat
  rest : List Token
  shorter : rest.length < bound

def withinLimit (limit : Option Int) (n : Nat) (blamed : Token) : Except Failure Unit :=
  match limit with
  | some m => if m < n then .error (.invalid (.tooDeep m blamed)) else .ok ()
  | none => .ok ()

/-- The tokens behind a closing parenthesis; `last` stands behind all tokens. -/
def closing (last : Token) {bound : Nat} (inner : Parsed bound) :
    Except Failure (Parsed bound) :=
  match h : inner.rest with
  | [] => .error (.invalid (.expectedClosing last))
  | t :: rest =>
    if t.kind = .rparen then
      .ok ⟨inner.tree, inner.height, rest, by
        have := inner.shorter
        rw [h] at this
        exact Nat.lt_of_succ_lt this⟩
    else .error (.invalid (.expectedClosing t))

mutual

def chain (limit : Option Int) (last : Token) (depth : Nat) (rank : Rank) (ts : List Token) :
    Except Failure (Parsed ts.length) := do
  let first ← operand limit last depth rank ts
  let all ← links limit last depth rank first.tree first.height first.rest
  .ok ⟨all.tree, all.height, all.rest,
    Nat.lt_of_le_of_lt (Nat.le_of_lt_succ all.shorter) first.shorter⟩
termination_by (ts.length, rank.weight + 1)
decreasing_by
  · exact Prod.Lex.right _ (Nat.lt_succ_self _)
  · exact Prod.Lex.left _ _ first.shorter

def operand (limit : Option Int) (last : Token) (depth : Nat) (rank : Rank) (ts : List Token) :
    Except Failure (Parsed ts.length) :=
  match rank with
  | .sum => chain limit last depth .product ts
  | .product => factor limit last depth ts
termination_by (ts.length, rank.weight)
decreasing_by
  · exact Prod.Lex.right _ (by decide)
  · exact Prod.Lex.right _ (by decide)

def links (limit : Option Int) (last : Token) (depth : Nat) (rank : Rank) (left : Expression)
    (height : Nat) (ts : List Token) : Except Failure (Parsed (ts.length + 1)) :=
  match ts with
  | [] => .ok ⟨left, height, [], Nat.lt_succ_self _⟩
  | t :: rest =>
    match rank.operator? t.kind with
    | none => .ok ⟨left, height, t :: rest, Nat.lt_succ_self _⟩
    | some op => do
      let right ← operand limit last depth rank rest
      withinLimit limit (max height right.height + 1) t
      let all ← links limit last depth rank (.operation op left right.tree)
        (max height right.height + 1) right.rest
      .ok ⟨all.tree, all.height, all.rest,
        Nat.lt_succ_of_lt (Nat.lt_succ_of_lt
          (Nat.lt_of_le_of_lt (Nat.le_of_lt_succ all.shorter) right.shorter))⟩
termination_by (ts.length, 0)
decreasing_by
  · exact Prod.Lex.left _ _ (Nat.lt_succ_self _)
  · exact Prod.Lex.left _ _ (Nat.lt_succ_of_lt right.shorter)

def factor (limit : Option Int) (last : Token) (depth : Nat) (ts : List Token) :
    Except Failure (Parsed ts.length) :=
  match ts with
  | [] => .error (.invalid (.expectedOperand last))
  | t :: rest =>
    match t.kind with
    | .minus => do
      withinLimit limit (depth + 1) t
      let inner ← factor limit last (depth + 1) rest
      withinLimit limit (inner.height + 1) t
      .ok ⟨.negation inner.tree, inner.height + 1, inner.rest, Nat.lt_succ_of_lt inner.shorter⟩
    | .lparen => do
      withinLimit limit (depth + 1) t
      let inner ← chain limit last (depth + 1) .sum rest
      let all ← closing last inner
      .ok ⟨all.tree, all.height, all.rest, Nat.lt_succ_of_lt all.shorter⟩
    | .number =>
      match Binary64.ofText? t.lexeme with
      | some x => .ok ⟨.number x, 0, rest, Nat.lt_succ_self _⟩
      | none => .error (.unreadable ⟨t.lexeme⟩)
    | _ => .error (.invalid (.expectedOperand t))
termination_by (ts.length, 0)
decreasing_by
  · exact Prod.Lex.left _ _ (Nat.lt_succ_self _)
  · exact Prod.Lex.left _ _ (Nat.lt_succ_self _)

end

/-- The expression that the tokens before an end of input form. -/
def ofTokens (limit : Option Int) (ts : List Token) : Except Failure Expression :=
  match ts.getLast? with
  | none => .error (.invalid (.unterminated 0))
  | some last =>
    if last.kind = .eof then do
      let all ← chain limit last 0 .sum ts.dropLast
      let next := all.rest.headD last
      if next.kind = .eof then .ok all.tree else .error (.invalid (.trailing next))
    else .error (.invalid (.unterminated (last.position + last.lexeme.length)))

def ofText (limit : Option Int) (source : String) : Except Failure Expression :=
  match Token.scan source with
  | .error i => .error (.invalid i)
  | .ok ts => ofTokens limit ts

end Expression
end Reckoner
