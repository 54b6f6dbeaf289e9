import Reckoner.Log.Record
import Reckoner.Json.Writer

/-!
Log records as lines of JSON.
-/

namespace Reckoner.Log.Record

def contextMember (r : Record) : List (String × Json) :=
  if r.context.isVoid then [] else [("context", r.context)]

/-- Warnings and above tell where they were written. -/
def sourceMember (r : Record) : List (String × Json) :=
  if r.level < Level.warning then []
  else [("source", .object [("file", .string r.file), ("line", .int r.line),
    ("function", .string r.function)])]

def exceptionMember (r : Record) : List (String × Json) :=
  match r.raised with
  | some (.error kind args) =>
    [("exception", .object [("type", .string (Raised.className kind args)),
      ("message", .string (Raised.errorText kind args))])]
  | _ => []

def json (r : Record) : Except Fault Json := do
  let t ← r.time
  let m ← r.message
  .ok (.object ([("timestamp", .string t.zuluText), ("level", .string r.level.name),
    ("component", .string r.origin), ("message", .string m)] ++
    r.contextMember ++ r.sourceMember ++ r.exceptionMember))

def jsonLine (r : Record) : Except Fault String :=
  r.json.map (·.text)

end Reckoner.Log.Record
