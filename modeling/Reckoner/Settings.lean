import Reckoner.Log.Entry
import Reckoner.Text.Path

/-!
Settings of the calculator service, taken from environment variables. Every variable counts for one
setting alone; one that cannot be used gives a warning and leaves the default.
-/

namespace Reckoner
open Text

abbrev Variables := List (String × String)

inductive Environment where
  | development
  | test
  | production
deriving DecidableEq

def Environment.name : Environment → String
  | .development => "development"
  | .test => "test"
  | .production => "production"

inductive Backend where
  | memory
  | database
deriving DecidableEq

def Backend.name : Backend → String
  | .memory => "memory"
  | .database => "sqlite"

namespace Settings

inductive Warning where
  | unknownEnvironment (value : String)
  | notAnInteger (name text : String) (used : Int)
  | tooSmall (name : String) (value : Int) (used : Int)
  | unknownBackend (value : String)
deriving DecidableEq

def Warning.message : Warning → String
  | .unknownEnvironment v =>
    "Unknown CALCAPI_ENV value '" ++ v ++
      "'. Valid values: development, test, production. Defaulting to development."
  | .notAnInteger name text used =>
    "Invalid integer for " ++ name ++ ": " ++ quote text ++ ", using " ++ intText used
  | .tooSmall name value used =>
    name ++ " must be >= 1, got " ++ intText value ++ "; using " ++ intText used
  | .unknownBackend v => "Unknown CALCAPI_HISTORY_BACKEND '" ++ v ++ "', using memory"

def Warning.entry (w : Warning) : Log.Entry :=
  ⟨"calcapi.config", Log.Level.warning, w.message, []⟩

def defaultPort : Int := 3000

def defaultMaxLength : Int := 1000

def defaultMaxDepth : Int := 100

end Settings

namespace Variables
open Settings

def word (vars : Variables) (name : String) : String :=
  strip (toLower ((vars.lookup name).getD ""))

def environment (vars : Variables) : Environment × List Warning :=
  let w := word vars "CALCAPI_ENV"
  if w = "production" ∨ w = "prod" then (.production, [])
  else if w = "test" ∨ w = "testing" then (.test, [])
  else if w = "development" ∨ w = "dev" ∨ w = "" then (.development, [])
  else (.development, [.unknownEnvironment w])

/-- A whole number of at least one. A blank variable counts as absent. -/
def positive (vars : Variables) (name : String) (default : Int) : Int × List Warning :=
  match vars.lookup name with
  | none => (default, [])
  | some s =>
    if (strip s).isEmpty then (default, [])
    else
      match integer? s with
      | none => (default, [.notAnInteger name s default])
      | some n => if n < 1 then (default, [.tooSmall name n default]) else (n, [])

/-- The program's own variable for the port goes before the common one, whatever it holds. -/
def portVariable (vars : Variables) : String :=
  if (vars.lookup "CALCAPI_PORT").isSome then "CALCAPI_PORT" else "PORT"

def port (vars : Variables) : Int × List Warning :=
  positive vars (portVariable vars) defaultPort

def backend (vars : Variables) : Backend × List Warning :=
  let w := word vars "CALCAPI_HISTORY_BACKEND"
  if w = "" ∨ w = "memory" then (.memory, [])
  else if w = "sqlite" then (.database, [])
  else (.memory, [.unknownBackend w])

def logFolder (vars : Variables) : Option String :=
  match vars.lookup "CALCAPI_LOG_DIR" with
  | none => none
  | some s => if s.isEmpty then none else some (normalPath s)

def maxLength (vars : Variables) : Int × List Warning :=
  positive vars "CALCAPI_MAX_EXPRESSION_LENGTH" defaultMaxLength

def maxDepth (vars : Variables) : Int × List Warning :=
  positive vars "CALCAPI_MAX_NESTING_DEPTH" defaultMaxDepth

end Variables

structure Settings where
  environment : Environment
  host : String
  port : Int
  logLevel : String
  logFolder : Option String
  backend : Backend
  databasePath : String
  maxLength : Int
  maxDepth : Int
deriving DecidableEq

namespace Settings

def ofVariables (vars : Variables) : Settings × List Warning :=
  let environment := vars.environment
  let port := vars.port
  let backend := vars.backend
  let maxLength := vars.maxLength
  let maxDepth := vars.maxDepth
  (⟨environment.1, (vars.lookup "CALCAPI_HOST").getD "127.0.0.1", port.1,
      toUpper ((vars.lookup "CALCAPI_LOG_LEVEL").getD "INFO"), vars.logFolder, backend.1,
      normalPath ((vars.lookup "CALCAPI_DATABASE_PATH").getD ".calcapi/history.db"),
      maxLength.1, maxDepth.1⟩,
    environment.2 ++ port.2 ++ backend.2 ++ maxLength.2 ++ maxDepth.2)

/-- The pages that describe the interface are not shown in production. -/
def docsEnabled (s : Settings) : Bool :=
  s.environment != .production

end Settings
end Reckoner
