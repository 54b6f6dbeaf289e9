import Reckoner.Binary64.Basic
import Reckoner.Timestamp.Basic

/-!
Points in universal time by the seconds since the start of 1970.
-/

namespace Reckoner
namespace Timestamp

/-- A number of seconds, exactly or in floating point. -/
inductive Seconds where
  | whole (n : Int)
  | real (x : Binary64)

/-- The point in universal time a number of microseconds after the start of 1970. The year is
counted from 1900 in 32 bits, and one that wraps around is reported as it comes out. -/
def ofMicros (micros : Int) : Except Fault Timestamp :=
  let seconds := micros / 1000000
  let (year, month, day) := civil (seconds / 86400)
  let clock := (seconds % 86400).toNat
  if year - 1900 ≠ Int.bmod (year - 1900) 0x100000000 then .error .beyondCalendar
  else if year < 1 ∨ 9999 < year then .error (.year (Int.bmod year 0x100000000))
  else
    ofFields ⟨year.toNat, month, day, clock / 3600, clock / 60 % 60, clock % 60,
      (micros % 1000000).toNat, some 0⟩

/-- Whole seconds and microseconds together. The clock counts seconds in 64 bits. -/
def clocked (seconds micros : Int) : Except Fault Int :=
  if seconds < -0x8000000000000000 ∨ 0x8000000000000000 ≤ seconds then .error .beyondClock
  else .ok (seconds * 1000000 + micros)

/-- A number of seconds in microseconds. A fraction is scaled in floating point and then rounded,
with ties to even. -/
def microsOf : Seconds → Except Fault Int
  | .whole n => clocked n 0
  | .real .nan => .error .notANumber
  | .real (.infinite _) => .error .beyondClock
  | .real (.finite negative code) =>
    let u := Binary64.units code
    let seconds : Int := u / Binary64.unitsPerOne
    let fraction : Int :=
      match Binary64.ofUnits false (u % Binary64.unitsPerOne * 1000000) 1 with
      | .finite _ c => Binary64.roundHalfEven (Binary64.units c) Binary64.unitsPerOne
      | _ => 0
    if negative then clocked (-seconds) (-fraction) else clocked seconds fraction

end Timestamp
end Reckoner
