import Reckoner.Files
import Reckoner.History.Store
import Reckoner.Log.Journal
import Reckoner.Terminal.Outcome

/-!
Starting the web interface: the settings, the log, and the file of the history.
-/

namespace Reckoner.Terminal
open Text

namespace Server

inductive Fault where
  | files (cause : Files.Fault)
  | cannotOpen
  | notADatabase
deriving DecidableEq

def Fault.message : Fault → String
  | .files f => f.message
  | .cannotOpen => "unable to open database file"
  | .notADatabase => "file is not a database"

def settings (vars : Variables) (host : Option String) (port : Option Int) :
    Settings × List Settings.Warning :=
  let (s, ws) := Settings.ofVariables vars
  ({ s with host := host.getD s.host, port := port.getD s.port }, ws)

def setup (s : Settings) : Log.Setup :=
  { Log.Setup.default with level := Log.Level.ofName s.logLevel, folder := s.logFolder }

def address (s : Settings) : String :=
  "http://" ++ s.host ++ ":" ++ intText s.port

def announcements (s : Settings) : List Log.Entry :=
  [⟨Log.rootName, Log.Level.info, "Calculator API running on " ++ address s, []⟩,
    ⟨Log.rootName, Log.Level.info, "  Health check: " ++ address s ++ "/health", []⟩]

def created (s : Settings) : Log.Entry :=
  ⟨"calcapi.api.app", Log.Level.debug, "Created app (env=" ++ s.environment.name ++ ", history=" ++
    Store.kindName s.backend ++ ")", []⟩

/-- The names and paths of databases leave room for the `-journal` of a transaction. -/
def journalBytes : Nat :=
  "-journal".length

def maxNameBytes : Nat :=
  Files.maxNameBytes - journalBytes

/-- How many bytes the path of a database may have, with 17 for the working folder in front of
it. -/
def maxPathBytes : Nat :=
  512 - journalBytes - 17

def nameBytes (p : Place) : Nat :=
  (String.ofList (p.names.headD [])).utf8ByteSize

/-- Opens a database at a path, or begins one. A file that is there has to be empty. -/
def openDatabase (isEmpty : Place → Bool) (path : String) (f : Files) : Except Fault Files := do
  let g ← (f.makeFolderAround path).mapError .files
  let place := Place.ofPath path
  if g.isFolder place || maxNameBytes < nameBytes place || maxPathBytes < path.utf8ByteSize then
    .error .cannotOpen
  else if g.isFile place && !isEmpty place then .error .notADatabase
  else .ok (g.addFile place)

def openHistory (s : Settings) (j : Log.Journal) (f : Files) : Except Fault Files :=
  if s.backend = .database ∧ s.databasePath ≠ ":memory:" then
    openDatabase (fun p => (j.archiveAt p).current.isEmpty) s.databasePath f
  else .ok f

/-- Starts the web interface; `record` makes log records of entries. Warnings about the settings
come before the log is set up, and are written plainly. -/
def start (record : Log.Entry → Log.Record) (vars : Variables) (host : Option String)
    (port : Option Int) (reload : Bool) : Except Fault Outcome := do
  let (s, ws) := settings vars host port
  let f ← ((setup s).prepare .empty).mapError .files
  let (j, announced) :=
    (Log.Journal.empty.configure (setup s)).writeAll ((announcements s).map record)
  let g ← if reload then .ok f else openHistory s j f
  let (_, more) := j.writeAll (if reload then [] else [record (created s)])
  .ok ⟨0, "", String.join (ws.map fun w => w.message ++ "\n") ++ announced ++ more, g.texts,
    some ⟨s, reload⟩⟩

end Server
end Reckoner.Terminal
