import Reckoner.Log.Record

/-!
Log records for a reader at a terminal, with or without colours.
-/

namespace Reckoner.Log

namespace Colour

def sequence (code : String) : String :=
  String.ofList [Char.ofNat 0x1B, '['] ++ code ++ "m"

def reset : String := sequence "0"

def dim : String := sequence "2"

def component : String := sequence "34"

def level (l : Level) : String :=
  if l = Level.debug then sequence "36"
  else if l = Level.info then sequence "32"
  else if l = Level.warning then sequence "33"
  else if l = Level.error then sequence "31"
  else if l = Level.critical then sequence "35"
  else ""

end Colour

namespace Record

def heading (coloured : Bool) (clock origin : String) : String :=
  if coloured then
    Colour.dim ++ clock ++ Colour.reset ++ " " ++ Colour.component ++ "[" ++ origin ++ "]" ++
      Colour.reset
  else "[" ++ clock ++ "] [" ++ origin ++ "]"

def levelText (coloured : Bool) (l : Level) : String :=
  if l = Level.info then ""
  else if coloured then " " ++ Colour.level l ++ l.name ++ Colour.reset ++ ":"
  else " " ++ l.name ++ ":"

def exceptionText : Option Raised → String
  | none => ""
  | some .nothing => "\nNoneType: None"
  | some (.error kind args) =>
    let m := Raised.errorText kind args
    "\n" ++ Raised.qualifiedKind (Raised.className kind args) ++
      if m.isEmpty then "" else ": " ++ m

def consoleText (coloured : Bool) (r : Record) : Except Fault String := do
  let t ← r.wallTime
  let m ← r.message
  .ok (heading coloured (Timestamp.clockText t.hour t.minute t.second) r.origin ++
    levelText coloured r.level ++ " " ++ m ++ exceptionText r.raised)

end Record
end Reckoner.Log
