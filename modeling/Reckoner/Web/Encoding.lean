/-!
The encodings that JSON is sent in: UTF-8, UTF-16 or UTF-32. Which one it is shows in the zero bytes
at the front, since JSON begins with an ASCII character.
-/

namespace Reckoner.Web

inductive Encoding where
  | utf8
  | utf16 (bigEndian : Bool)
  | utf32 (bigEndian : Bool)
deriving DecidableEq

namespace Encoding

def ofBytes : List Nat → Encoding
  | [a, b] => if a = 0 then .utf16 true else if b = 0 then .utf16 false else .utf8
  | a :: b :: c :: d :: _ =>
    if a = 0 then if b = 0 then .utf32 true else .utf16 true
    else if b = 0 then if c = 0 ∧ d = 0 then .utf32 false else .utf16 false
    else .utf8
  | _ => .utf8

def number (bigEndian : Bool) (bytes : List Nat) : Nat :=
  (if bigEndian then bytes else bytes.reverse).foldl (fun n b => n * 256 + b) 0

def units16? (bigEndian : Bool) : List Nat → Option (List Nat)
  | [] => some []
  | a :: b :: bytes => (units16? bigEndian bytes).map (number bigEndian [a, b] :: ·)
  | _ => none

def units32? (bigEndian : Bool) : List Nat → Option (List Nat)
  | [] => some []
  | a :: b :: c :: d :: bytes =>
    (units32? bigEndian bytes).map (number bigEndian [a, b, c, d] :: ·)
  | _ => none

/-- Half of a surrogate pair becomes the replacement character. -/
def char (n : Nat) : Char :=
  if n.isValidChar then Char.ofNat n else Char.ofNat 0xFFFD

def isHigh (n : Nat) : Bool :=
  0xD800 ≤ n && n < 0xDC00

def isLow (n : Nat) : Bool :=
  0xDC00 ≤ n && n < 0xE000

def ofUnits16 : List Nat → List Char
  | [] => []
  | [u] => [char u]
  | u :: v :: us =>
    if isHigh u && isLow v then
      char (0x10000 + (u - 0xD800) * 0x400 + (v - 0xDC00)) :: ofUnits16 us
    else char u :: ofUnits16 (v :: us)

def ofUnits32? (us : List Nat) : Option (List Char) :=
  if us.all (· < 0x110000) then some (us.map char) else none

end Encoding

/-- The text that the bytes of a body stand for. It is given as the text that they are in UTF-8. -/
def decodedBody? (body : String) : Option String :=
  let bytes := body.toUTF8.toList.map (·.toNat)
  match Encoding.ofBytes bytes with
  | .utf8 => some body
  | .utf16 big => (Encoding.units16? big bytes).map fun us => String.ofList (Encoding.ofUnits16 us)
  | .utf32 big => ((Encoding.units32? big bytes).bind Encoding.ofUnits32?).map String.ofList

end Reckoner.Web
