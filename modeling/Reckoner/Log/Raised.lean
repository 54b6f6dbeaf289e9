import Reckoner.Json.Datum

/-!
Exceptions in log records, and what they say.
-/

namespace Reckoner.Log
open Text

inductive Raised where
  | nothing
  | error (kind : String) (args : List Datum)

namespace Raised

/-! Errors of the operating system: a number, a reason, and perhaps one or two files. -/

def systemKinds : List (String × List Int) :=
  [("BlockingIOError", [11, 114, 115]), ("BrokenPipeError", [32, 108]), ("ChildProcessError", [10]),
    ("ConnectionAbortedError", [103]), ("ConnectionRefusedError", [111]),
    ("ConnectionResetError", [104]), ("FileExistsError", [17]), ("FileNotFoundError", [2]),
    ("InterruptedError", [4]), ("IsADirectoryError", [21]), ("NotADirectoryError", [20]),
    ("PermissionError", [1, 13]), ("ProcessLookupError", [3]), ("TimeoutError", [110]),
    ("ConnectionError", []), ("OSError", [])]

def isGeneral (kind : String) : Bool :=
  kind == "OSError" || kind == "IOError" || kind == "EnvironmentError"

def isSystem (kind : String) : Bool :=
  isGeneral kind || systemKinds.any (·.1 == kind)

/-- A number and a reason are there, and not too much behind them. -/
def isComplete (args : List Datum) : Bool :=
  2 ≤ args.length && args.length ≤ 5

/-- The class of an error: one of the general class belongs to the class of its number. -/
def className (kind : String) (args : List Datum) : String :=
  if isGeneral kind then
    match isComplete args, args.head?.bind (·.number?) with
    | true, some (.whole n) => ((systemKinds.find? (·.2.contains n)).map (·.1)).getD "OSError"
    | _, _ => "OSError"
  else kind

/-- A file that is named; a number of written characters is none. -/
def file? (kind : String) (args : List Datum) (i : Nat) : Option Datum :=
  match args[i]? with
  | some (.value .null) | none => none
  | some a =>
    match a.number? with
    | some (.whole _) => if kind = "BlockingIOError" then none else some a
    | _ => some a

def systemText (kind : String) (number reason : Datum) (args : List Datum) : String :=
  "[Errno " ++ number.display ++ "] " ++ reason.display ++
    match file? kind args 2, file? kind args 4 with
    | none, _ => ""
    | some f, none => ": " ++ f.inspect
    | some f, some g => ": " ++ f.inspect ++ " -> " ++ g.inspect

/-! All errors. -/

def argsText : List Datum → String
  | [] => ""
  | [v] => v.display
  | vs => "(" ++ ", ".intercalate (vs.map (·.inspect)) ++ ")"

/-- What an exception says. A missing key is quoted; the program's own exceptions add to, or
replace, what they were given. -/
def errorText (kind : String) (args : List Datum) : String :=
  match kind, args with
  | "InvalidExpressionError", detail :: _ => "Invalid expression: " ++ detail.display
  | "DivisionByZeroError", _ => "Division by zero"
  | "KeyError", [v] => v.inspect
  | kind, number :: reason :: rest =>
    if isSystem kind && isComplete args then
      systemText (className kind args) number reason (number :: reason :: rest)
    else argsText (number :: reason :: rest)
  | _, vs => argsText vs

def ownKinds : List String :=
  ["CalcError", "InvalidExpressionError", "DivisionByZeroError"]

/-- The class with the module that the program's own exceptions come from. -/
def qualifiedKind (kind : String) : String :=
  if ownKinds.contains kind then "calcapi.core.errors." ++ kind else kind

end Raised
end Reckoner.Log
