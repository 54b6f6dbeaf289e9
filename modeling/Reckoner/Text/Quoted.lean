import Reckoner.Text.Hex
import Reckoner.Text.Printable

/-!
Texts in quotes, as messages show them: on one line, with every character told apart.
-/

namespace Reckoner.Text

def codeEscape (n : Nat) : List Char :=
  if n < 0x100 then '\\' :: 'x' :: hex 2 n
  else if n < 0x10000 then '\\' :: 'u' :: hex 4 n
  else '\\' :: 'U' :: hex 8 n

def quoteEscape (mark c : Char) : List Char :=
  if c == mark || c == '\\' then ['\\', c]
  else if c == '\n' then ['\\', 'n']
  else if c == '\r' then ['\\', 'r']
  else if c == '\t' then ['\\', 't']
  else if isPrintable c then [c]
  else codeEscape c.toNat

/-- Single quotes, unless they occur in the text and double quotes do not. -/
def quoteMark (s : List Char) : Char :=
  if s.contains '\'' && !s.contains '"' then '"' else '\''

def quoted (s : List Char) : List Char :=
  let mark := quoteMark s
  mark :: (s.flatMap (quoteEscape mark) ++ [mark])

def quote (s : String) : String :=
  String.ofList (quoted s.toList)

end Reckoner.Text
