import Reckoner.Text.Numeral
import Reckoner.Text.Quoted

/-!
The tokens of the expression language.
-/

namespace Reckoner
open Text

inductive TokenKind where
  | number
  | plus
  | minus
  | star
  | slash
  | lparen
  | rparen
  | eof
deriving DecidableEq

namespace TokenKind

def name : TokenKind → String
  | .number => "number"
  | .plus => "plus"
  | .minus => "minus"
  | .star => "star"
  | .slash => "slash"
  | .lparen => "lparen"
  | .rparen => "rparen"
  | .eof => "eof"

def ofName? (s : String) : Option TokenKind :=
  [number, plus, minus, star, slash, lparen, rparen, eof].find? (·.name == s)

def ofChar? : Char → Option TokenKind
  | '+' => some .plus
  | '-' => some .minus
  | '*' => some .star
  | '/' => some .slash
  | '(' => some .lparen
  | ')' => some .rparen
  | _ => none

end TokenKind

/-- The position is the offset of the first character in the source. -/
structure Token where
  kind : TokenKind
  lexeme : String
  position : Int
deriving DecidableEq

namespace Token

def description (t : Token) : String :=
  match t.kind with
  | .eof => "end of input"
  | .number => "number " ++ quote t.lexeme
  | _ => quote t.lexeme

def inspect (t : Token) : String :=
  "Token(" ++ t.kind.name ++ ", " ++ quote t.lexeme ++ ", pos=" ++ intText t.position ++ ")"

end Token
end Reckoner
