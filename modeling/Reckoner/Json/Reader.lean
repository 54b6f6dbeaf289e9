import Reckoner.Json.Basic
import Reckoner.Binary64.Decimal
import Reckoner.Text.Hex

/-!
Reading JSON. Besides the standard grammar `NaN`, `Infinity` and `-Infinity` are accepted. A fault
tells what was expected and where. There may be limits to how deep values are nested and how many
digits a whole number has.
-/

namespace Reckoner
open Text

namespace Json

inductive Problem where
  | expectedValue
  | expectedName
  | expectedColon
  | expectedComma
  | unterminatedString
  | controlCharacter
  | badEscape
  | badUnitEscape
  | extraData
  | tooDeep
  | tooLong
deriving DecidableEq

def Problem.message : Problem → String
  | .expectedValue => "Expecting value"
  | .expectedName => "Expecting property name enclosed in double quotes"
  | .expectedColon => "Expecting ':' delimiter"
  | .expectedComma => "Expecting ',' delimiter"
  | .unterminatedString => "Unterminated string starting at"
  | .controlCharacter => "Invalid control character at"
  | .badEscape => "Invalid \\escape"
  | .badUnitEscape => "Invalid \\uXXXX escape"
  | .extraData => "Extra data"
  | .tooDeep => "Too many levels"
  | .tooLong => "Too many digits"

/-- A problem, and the number of characters from there to the end of the text. -/
structure Fault where
  problem : Problem
  left : Nat
deriving DecidableEq

/-- Something read from the front of a text, with a shorter rest behind it. -/
structure Read (α : Type) (cs : List Char) where
  value : α
  rest : List Char
  shorter : rest.length < cs.length

/-- How many levels there may be, and how many digits of a whole number. -/
structure Limits where
  levels : Option Nat
  digits : Option Nat

namespace Limits

def unlimited : Limits :=
  ⟨none, none⟩

def inner? (l : Limits) : Option Limits :=
  match l.levels with
  | none => some l
  | some 0 => none
  | some (n + 1) => some ⟨some n, l.digits⟩

def admits (l : Limits) (digits : Nat) : Bool :=
  match l.digits with
  | none => true
  | some n => digits ≤ n

end Limits

def isWhite (c : Char) : Bool :=
  c == ' ' || c == '\t' || c == '\n' || c == '\r'

def skipWhite (cs : List Char) : List Char :=
  cs.dropWhile isWhite

theorem length_dropWhile_le {α : Type} (p : α → Bool) (xs : List α) :
    (xs.dropWhile p).length ≤ xs.length :=
  (List.dropWhile_sublist p).length_le

theorem length_skipWhite_le (cs : List Char) : (skipWhite cs).length ≤ cs.length :=
  length_dropWhile_le isWhite cs

/-- A UTF-16 unit in four hexadecimal digits, and something behind them. -/
def unit? : List Char → Option (Nat × List Char)
  | a :: b :: c :: d :: e :: rest =>
    match hexValue? a, hexValue? b, hexValue? c, hexValue? d with
    | some a, some b, some c, some d => some (((a * 16 + b) * 16 + c) * 16 + d, e :: rest)
    | _, _, _, _ => none
  | _ => none

theorem length_of_unit? {cs rest : List Char} {n : Nat} (h : unit? cs = some (n, rest)) :
    rest.length + 4 = cs.length := by
  unfold unit? at h
  split at h
  · split at h
    · simp only [Option.some.injEq, Prod.mk.injEq] at h
      simp [← h.2]
    · simp at h
  · simp at h

def lowUnit? : List Char → Option (Nat × List Char)
  | '\\' :: 'u' :: cs => (unit? cs).filter fun u => 0xDC00 ≤ u.1 && u.1 < 0xE000
  | _ => none

theorem length_of_lowUnit? {cs rest : List Char} {n : Nat} (h : lowUnit? cs = some (n, rest)) :
    rest.length < cs.length := by
  unfold lowUnit? at h
  split at h
  · have := length_of_unit? (Option.filter_eq_some_iff.1 h).1
    simp only [List.length_cons]
    omega
  · simp at h

def char? (n : Nat) : Option Char :=
  if 0xD800 ≤ n ∧ n < 0xE000 then none else some (Char.ofNat n)

/-- The character of a unit and, where the two form a pair, of the unit behind it. -/
def unitChar (n : Nat) (cs : List Char) : Option Char × List Char :=
  match lowUnit? cs with
  | some (low, rest) =>
    if 0xD800 ≤ n ∧ n < 0xDC00 then
      (some (Char.ofNat (0x10000 + (n - 0xD800) * 0x400 + (low - 0xDC00))), rest)
    else (char? n, cs)
  | none => (char? n, cs)

theorem length_unitChar_le (n : Nat) (cs : List Char) : (unitChar n cs).2.length ≤ cs.length := by
  unfold unitChar
  split
  · rename_i low rest h
    have := length_of_lowUnit? h
    split
    · simp only
      omega
    · exact Nat.le_refl _
  · exact Nat.le_refl _

def escaped? : Char → Option Char
  | '"' => some '"'
  | '\\' => some '\\'
  | '/' => some '/'
  | 'b' => some (Char.ofNat 0x08)
  | 'f' => some (Char.ofNat 0x0C)
  | 'n' => some '\n'
  | 'r' => some '\r'
  | 't' => some '\t'
  | _ => none

/-- The rest of a string whose opening quote stood `opening` characters before the end: its
characters, and `none` for half of a pair. -/
def stringFrom (opening : Nat) (cs : List Char) : Except Fault (Read (List (Option Char)) cs) :=
  match cs with
  | [] => .error ⟨.unterminatedString, opening⟩
  | '"' :: rest => .ok ⟨[], rest, by simp⟩
  | ['\\'] => .error ⟨.unterminatedString, opening⟩
  | '\\' :: 'u' :: rest =>
    match h : unit? rest with
    | none => .error ⟨.badUnitEscape, rest.length + 1⟩
    | some (n, after) =>
      have := length_of_unit? h
      have := length_unitChar_le n after
      do
        let r ← stringFrom opening (unitChar n after).2
        .ok ⟨(unitChar n after).1 :: r.value, r.rest, by
          have := r.shorter
          simp only [List.length_cons]
          omega⟩
  | '\\' :: c :: rest =>
    match escaped? c with
    | none => .error ⟨.badEscape, rest.length + 2⟩
    | some d => do
      let r ← stringFrom opening rest
      .ok ⟨some d :: r.value, r.rest, by
        have := r.shorter
        simp only [List.length_cons]
        omega⟩
  | c :: rest =>
    if c.toNat < 0x20 then .error ⟨.controlCharacter, rest.length + 1⟩
    else do
      let r ← stringFrom opening rest
      .ok ⟨some c :: r.value, r.rest, by
        have := r.shorter
        simp only [List.length_cons]
        omega⟩
termination_by cs.length
decreasing_by all_goals (simp only [List.length_cons]; omega)

def ofString (s : List (Option Char)) : Json :=
  if s.all (·.isSome) then .string (String.ofList (s.filterMap id)) else .unpaired

/-- Half of a pair becomes the replacement character. -/
def nameOf (s : List (Option Char)) : String :=
  String.ofList (s.map (·.getD (Char.ofNat 0xFFFD)))

/-- The whole part of a number: a zero, or digits without one in front. -/
def wholePart : List Char → List Char
  | '0' :: _ => ['0']
  | cs => cs.takeWhile isDigit

def fractionPart : List Char → List Char
  | '.' :: cs => if (cs.takeWhile isDigit).isEmpty then [] else '.' :: cs.takeWhile isDigit
  | _ => []

def exponentSign : List Char → List Char
  | '+' :: _ => ['+']
  | '-' :: _ => ['-']
  | _ => []

def exponentPart : List Char → List Char
  | [] => []
  | c :: cs =>
    let sign := exponentSign cs
    let ds := (cs.drop sign.length).takeWhile isDigit
    if Decimal.isExponentMark c && !ds.isEmpty then c :: (sign ++ ds) else []

def numeralParts (cs : List Char) : List Char × List Char × List Char :=
  let whole := wholePart cs
  let fraction := fractionPart (cs.drop whole.length)
  (whole, fraction, exponentPart ((cs.drop whole.length).drop fraction.length))

def numberValue (negative : Bool) (whole fraction exponent : List Char) : Json :=
  if fraction.isEmpty && exponent.isEmpty then
    .int (if negative then -(ofDigits whole : Int) else ofDigits whole)
  else
    match Decimal.ofNumeral? (whole ++ fraction ++ exponent) with
    | some d => .float (d.toBinary64 negative)
    | none => .null

def minusSign : List Char → List Char
  | '-' :: _ => ['-']
  | _ => []

def number (limits : Limits) (cs : List Char) : Except Problem (Json × List Char) :=
  let sign := minusSign cs
  let body := cs.drop sign.length
  let (whole, fraction, exponent) := numeralParts body
  if whole.isEmpty then .error .expectedValue
  else if fraction.isEmpty && exponent.isEmpty && !limits.admits whole.length then
    .error .tooLong
  else
    .ok (numberValue (!sign.isEmpty) whole fraction exponent,
      body.drop (whole.length + fraction.length + exponent.length))

def words : List (List Char × Json) :=
  [("null".toList, .null), ("true".toList, .bool true), ("false".toList, .bool false),
    ("NaN".toList, .float .nan), ("Infinity".toList, .float (.infinite false)),
    ("-Infinity".toList, .float (.infinite true))]

def word? (cs : List Char) : Option (Json × List Char) :=
  (words.find? fun w => w.1.isPrefixOf cs).map fun w => (w.2, cs.drop w.1.length)

def wordOrNumber (limits : Limits) (cs : List Char) : Except Problem (Json × List Char) :=
  match word? cs with
  | some r => .ok r
  | none => number limits cs

def scalar (limits : Limits) (cs : List Char) : Except Fault (Read Json cs) :=
  match wordOrNumber limits cs with
  | .error p => .error ⟨p, cs.length⟩
  | .ok (v, rest) =>
    if h : rest.length < cs.length then .ok ⟨v, rest, h⟩ else .error ⟨.expectedValue, cs.length⟩

/-- The text behind a closing mark, where nothing but white space stands before the mark. -/
def closed? (closing : Char) (cs : List Char) : Option (Read Unit cs) :=
  match h : skipWhite cs with
  | [] => none
  | c :: rest =>
    if c == closing then
      some ⟨(), rest, by
        have := length_skipWhite_le cs
        rw [h] at this
        exact this⟩
    else none

/-- What follows an item: a comma, which announces another one, or the closing mark. -/
def separator (closing : Char) (cs : List Char) : Except Fault (Read Bool cs) :=
  match h : skipWhite cs with
  | [] => .error ⟨.expectedComma, 0⟩
  | c :: rest =>
    have shorter : rest.length < cs.length := by
      have := length_skipWhite_le cs
      rw [h] at this
      exact this
    if c == closing then .ok ⟨false, rest, shorter⟩
    else if c == ',' then
      .ok ⟨true, skipWhite rest, Nat.lt_of_le_of_lt (length_skipWhite_le rest) shorter⟩
    else .error ⟨.expectedComma, rest.length + 1⟩

def colon (cs : List Char) : Except Fault (Read Unit cs) :=
  match h : skipWhite cs with
  | [] => .error ⟨.expectedColon, 0⟩
  | c :: rest =>
    if c == ':' then
      .ok ⟨(), skipWhite rest, by
        have := length_skipWhite_le cs
        rw [h] at this
        exact Nat.lt_of_le_of_lt (length_skipWhite_le rest) this⟩
    else .error ⟨.expectedColon, rest.length + 1⟩

def memberName (cs : List Char) : Except Fault (Read String cs) :=
  match cs with
  | [] => .error ⟨.expectedName, 0⟩
  | c :: rest =>
    if c == '"' then do
      let name ← stringFrom (rest.length + 1) rest
      let mark ← colon name.rest
      .ok ⟨nameOf name.value, mark.rest, by
        have := name.shorter
        have := mark.shorter
        simp only [List.length_cons]
        omega⟩
    else .error ⟨.expectedName, rest.length + 1⟩

mutual

def value (limits : Limits) (cs : List Char) : Except Fault (Read Json cs) :=
  match cs with
  | [] => .error ⟨.expectedValue, 0⟩
  | c :: rest =>
    have white := length_skipWhite_le rest
    if c == '"' then do
      let s ← stringFrom (rest.length + 1) rest
      .ok ⟨ofString s.value, s.rest, Nat.lt_succ_of_lt s.shorter⟩
    else if c == '[' then
      match limits.inner? with
      | none => .error ⟨.tooDeep, rest.length + 1⟩
      | some inner =>
        match closed? ']' rest with
        | some r => .ok ⟨.array [], r.rest, Nat.lt_succ_of_lt r.shorter⟩
        | none => do
          let r ← items inner (skipWhite rest)
          .ok ⟨.array r.value, r.rest, Nat.lt_succ_of_lt (Nat.lt_of_lt_of_le r.shorter white)⟩
    else if c == '\x7b' then
      match limits.inner? with
      | none => .error ⟨.tooDeep, rest.length + 1⟩
      | some inner =>
        match closed? '\x7d' rest with
        | some r => .ok ⟨.object [], r.rest, Nat.lt_succ_of_lt r.shorter⟩
        | none => do
          let r ← members inner (skipWhite rest)
          .ok ⟨.object (ofPairs r.value), r.rest,
            Nat.lt_succ_of_lt (Nat.lt_of_lt_of_le r.shorter white)⟩
    else scalar limits (c :: rest)
termination_by (cs.length, 0)
decreasing_by all_goals exact Prod.Lex.left _ _ (Nat.lt_succ_of_le white)

def items (limits : Limits) (cs : List Char) : Except Fault (Read (List Json) cs) := do
  let first ← value limits cs
  let mark ← separator ']' first.rest
  have shorter := Nat.lt_trans mark.shorter first.shorter
  if mark.value then do
    let r ← items limits mark.rest
    .ok ⟨first.value :: r.value, r.rest, Nat.lt_trans r.shorter shorter⟩
  else .ok ⟨[first.value], mark.rest, shorter⟩
termination_by (cs.length, 1)
decreasing_by
  · exact Prod.Lex.right _ Nat.one_pos
  · exact Prod.Lex.left _ _ shorter

def members (limits : Limits) (cs : List Char) :
    Except Fault (Read (List (String × Json)) cs) := do
  let name ← memberName cs
  let v ← value limits name.rest
  let mark ← separator '\x7d' v.rest
  have shorter := Nat.lt_trans mark.shorter (Nat.lt_trans v.shorter name.shorter)
  if mark.value then do
    let r ← members limits mark.rest
    .ok ⟨(name.value, v.value) :: r.value, r.rest, Nat.lt_trans r.shorter shorter⟩
  else .ok ⟨[(name.value, v.value)], mark.rest, shorter⟩
termination_by (cs.length, 1)
decreasing_by
  · exact Prod.Lex.left _ _ name.shorter
  · exact Prod.Lex.left _ _ shorter

end

/-- The value that a text holds, with nothing but white space around it. -/
def ofTextWithin (limits : Limits) (s : String) : Except Fault Json := do
  let r ← value limits (skipWhite s.toList)
  match skipWhite r.rest with
  | [] => .ok r.value
  | rest => .error ⟨.extraData, rest.length⟩

def ofText (s : String) : Except Fault Json :=
  ofTextWithin .unlimited s

def Fault.offset (f : Fault) (s : String) : Nat :=
  s.length - f.left

end Json
end Reckoner
