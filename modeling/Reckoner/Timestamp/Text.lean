import Reckoner.Timestamp.Basic

/-!
The ISO text of points in time: how it is written, and how the many forms that are accepted are
read.
-/

namespace Reckoner
open Text

namespace Timestamp

/-! Writing. -/

def clockText (hour minute second : Nat) : String :=
  padded 2 hour ++ ":" ++ padded 2 minute ++ ":" ++ padded 2 second

/-- Microseconds are left out where there are none. -/
def microText (micro : Nat) : String :=
  if micro = 0 then "" else "." ++ padded 6 micro

def localText (t : Timestamp) : String :=
  padded 4 t.year ++ "-" ++ padded 2 t.month ++ "-" ++ padded 2 t.day ++ "T" ++
    clockText t.hour t.minute t.second ++ microText t.micro

def minuteText (seconds : Nat) : String :=
  padded 2 (seconds / 3600) ++ ":" ++ padded 2 (seconds / 60 % 60)

def signText (n : Int) : String :=
  if n < 0 then "-" else "+"

/-- Hours and minutes, and what goes beyond them if there is anything. -/
def offsetText (offset : Int) : String :=
  let n := offset.natAbs
  signText offset ++ minuteText (n / 1000000) ++
    if n % 60000000 = 0 then ""
    else ":" ++ padded 2 (n / 1000000 % 60) ++ microText (n % 1000000)

def text (t : Timestamp) : String :=
  match t.offset with
  | none => t.localText
  | some o => t.localText ++ offsetText o

/-- The offset in hours and minutes alone, and a `Z` for universal time. A fraction of a second is
rounded down, and the seconds are left out. -/
def minuteOffsetText (offset : Int) : String :=
  let seconds := offset / 1000000
  if seconds = 0 then "Z" else signText seconds ++ minuteText seconds.natAbs

def zuluText (t : Timestamp) : String :=
  match t.offset with
  | none => t.localText
  | some o => t.localText ++ minuteOffsetText o

/-! Reading. -/

def number? (width : Nat) (cs : List Char) : Option (Nat × List Char) :=
  let ds := cs.take width
  if ds.length = width ∧ ds.all isDigit then some (ofDigits ds, cs.drop width) else none

def skip (mark : Char) : List Char → List Char
  | [] => []
  | c :: cs => if c == mark then cs else c :: cs

def monthDay? (hyphens : Bool) (cs : List Char) : Option ((Nat × Nat) × List Char) := do
  let (month, cs) ← number? 2 cs
  if (cs.head? == some '-') != hyphens then none
  let (day, cs) ← number? 2 (skip '-' cs)
  some ((month, day), cs)

/-- The day of a week behind its number; without one it is Monday. Any character may stand between
date and time: two digits behind a hyphen are taken for the hour. -/
def hyphenDay? : List Char → Option (Nat × List Char)
  | ['-'] => none
  | '-' :: c :: cs =>
    if (cs.head?.map isDigit).getD false then some (1, '-' :: c :: cs) else number? 1 (c :: cs)
  | cs => some (1, cs)

/-- The day of a week without a hyphen. The numbers of a clock have two digits each, and what
stands between date and time may be a digit as well: so an odd number of digits, unless it is one,
begins with what stands between. -/
def plainDay? (cs : List Char) : Option (Nat × List Char) :=
  let n := (cs.takeWhile isDigit).length
  if n = 1 ∨ 2 ≤ n ∧ n % 2 = 0 then number? 1 cs else some (1, cs)

def date? (cs : List Char) : Option ((Nat × Nat × Nat) × List Char) := do
  let (year, cs) ← number? 4 cs
  let hyphens := cs.head? == some '-'
  match skip '-' cs with
  | 'W' :: cs =>
    let (week, cs) ← number? 2 cs
    let (day, cs) ← if hyphens then hyphenDay? cs else plainDay? cs
    (ofWeek? year week day).map (·, cs)
  | cs =>
    let ((month, day), cs) ← monthDay? hyphens cs
    some ((year, month, day), cs)

structure Clock where
  numbers : List Nat
  micro : Nat

namespace Clock

def hour (c : Clock) : Nat := c.numbers.getD 0 0

def minute (c : Clock) : Nat := c.numbers.getD 1 0

def second (c : Clock) : Nat := c.numbers.getD 2 0

def seconds (c : Clock) : Nat := (c.hour * 60 + c.minute) * 60 + c.second

end Clock

/-- A text is over where a NUL stands, too. -/
def isOver (cs : List Char) : Bool :=
  (cs.head?.map (·.toNat == 0)).getD true

/-- Up to six digits as microseconds; further digits are cut off. Also tells whether the text is
over. -/
def fraction? (cs : List Char) : Option (Nat × Bool) :=
  let ds := cs.take 6
  if ds.all isDigit then
    some (ofDigits (ds ++ List.replicate (6 - ds.length) '0'),
      isOver ((cs.drop 6).dropWhile isDigit))
  else none

/-- Up to `k` numbers of two digits, and then a fraction. The first mark decides whether there are
colons between the numbers. A fraction stands behind a point or comma, or behind the last number.
One more ASCII character may end the text. -/
def clockFrom? (colons? : Option Bool) : Nat → List Char → Option (Clock × Bool)
  | 0, cs => (fraction? cs).map fun (micro, ended) => (⟨[], micro⟩, ended)
  | k + 1, cs => do
    let (n, cs) ← number? 2 cs
    match cs with
    | [] => some (⟨[n], 0⟩, true)
    | [c] => if c.toNat < 0x80 then some (⟨[n], 0⟩, isOver [c]) else none
    | c :: rest =>
      let colons := colons?.getD (c == ':')
      let (clock, ended) ←
        if colons && c == ':' then clockFrom? colons k rest
        else if c == '.' || c == ',' then clockFrom? colons 0 rest
        else if colons then none
        else clockFrom? colons k (c :: rest)
      some (⟨n :: clock.numbers, clock.micro⟩, ended)

def clock? (cs : List Char) : Option (Clock × Bool) :=
  clockFrom? none 3 cs

def isZoneMark (c : Char) : Bool :=
  c == '+' || c == '-' || c == 'Z'

/-- The offset that stands behind a sign. An offset of no full second is none at all. -/
def offset? (cs : List Char) : Option Int := do
  let (c, ended) ← clock? cs
  if !ended then none
  else if c.seconds = 0 then some 0
  else some (c.seconds * 1000000 + c.micro : Nat)

def time? (cs : List Char) : Option (Clock × Option Int) := do
  let (clock, ended) ← clock? (cs.takeWhile (!isZoneMark ·))
  match cs.dropWhile (!isZoneMark ·) with
  | [] => if ended then some (clock, none) else none
  | mark :: cs =>
    if mark == 'Z' then if isOver cs then some (clock, some 0) else none
    else
      let o ← offset? cs
      some (clock, some (if mark == '-' then -o else o))

def fields? (cs : List Char) : Option Fields := do
  let ((year, month, day), rest) ← date? cs
  match rest with
  | [] => some ⟨year, month, day, 0, 0, 0, 0, none⟩
  | _ :: cs =>
    let (clock, offset) ← time? cs
    some ⟨year, month, day, clock.hour, clock.minute, clock.second, clock.micro, offset⟩

def ofText (s : String) : Except Fault Timestamp :=
  match fields? s.toList with
  | some f => ofFields f
  | none => .error (.format s)

end Timestamp
end Reckoner
