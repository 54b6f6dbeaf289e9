import Reckoner.Expression.Token
import Reckoner.Expression.Tree

/-!
Why an expression has no value.
-/

namespace Reckoner
open Text

inductive Invalid where
  | character (c : Char) (position : Nat)
  | point (position : Nat)
  | unterminated (position : Int)
  | expectedOperand (found : Token)
  | expectedClosing (found : Token)
  | trailing (found : Token)
  | tooDeep (limit : Int) (blamed : Token)
  | tooLong (limit : Int)
deriving DecidableEq

namespace Invalid

def position : Invalid → Int
  | .character _ p => p
  | .point p => p
  | .unterminated p => p
  | .expectedOperand t => t.position
  | .expectedClosing t => t.position
  | .trailing t => t.position
  | .tooDeep _ t => t.position
  | .tooLong limit => limit

def place (position : Int) : String :=
  " at position " ++ intText position

def detail : Invalid → String
  | .character c p => "unexpected character " ++ quote c.toString ++ place p
  | .point p => "unexpected '.'" ++ place p
  | .unterminated _ => "token sequence is not terminated by end of input"
  | .expectedOperand t =>
    "expected number, '-' or '(' but got " ++ t.description ++ place t.position
  | .expectedClosing t => "expected ')' but got " ++ t.description ++ place t.position
  | .trailing t => "unexpected " ++ t.description ++ place t.position
  | .tooDeep limit t =>
    "nesting deeper than " ++ intText limit ++ " levels" ++ place t.position
  | .tooLong limit => "expression longer than " ++ intText limit ++ " characters"

def message (i : Invalid) : String :=
  "Invalid expression: " ++ i.detail

end Invalid

/-- A division whose divisor, the given operand, has the value zero. -/
structure DivisionByZero where
  operand : Expression
deriving DecidableEq

def DivisionByZero.message : String :=
  "Division by zero"

/-- A number token whose lexeme is no numeral. -/
structure Unreadable where
  lexeme : String
deriving DecidableEq

def Unreadable.message (u : Unreadable) : String :=
  "could not convert string to float: " ++ quote u.lexeme

inductive Failure where
  | invalid (cause : Invalid)
  | divisionByZero (cause : DivisionByZero)
  | unreadable (cause : Unreadable)
deriving DecidableEq

def Failure.message : Failure → String
  | .invalid i => i.message
  | .divisionByZero _ => DivisionByZero.message
  | .unreadable u => u.message

end Reckoner
