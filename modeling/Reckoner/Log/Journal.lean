import Reckoner.Files
import Reckoner.Log.Archive
import Reckoner.Log.Console
import Reckoner.Log.Line

/-!
The log of a program: records of sufficient level go to the console and, where a folder is set,
to a log file in it.
-/

namespace Reckoner.Log
open Text

def rootName : String := "calcapi"

def fileName : String := "calcapi.log"

structure Setup where
  level : Level
  folder : Option String
  rotation : Rotation

namespace Setup

def default : Setup :=
  ⟨Level.info, none, ⟨5 * 1024 * 1024, 3⟩⟩

def place? (s : Setup) : Option Place :=
  s.folder.map fun folder => (Place.ofPath folder).step fileName.toList

def prepare (s : Setup) (f : Files) : Except Files.Fault Files :=
  match s.folder, s.place? with
  | some folder, some place => do
    let g ← f.makeFolder folder
    if g.isFolder place then .error ⟨.aFolder, place.text⟩ else .ok (g.addFile place)
  | _, _ => .ok f

/-- Without a level, warnings and above count. -/
def threshold (s : Setup) : Level :=
  if s.level = 0 then Level.warning else s.level

end Setup

structure Journal where
  setup : Setup
  archives : List (Place × Archive)

namespace Journal

def empty : Journal :=
  ⟨Setup.default, []⟩

def archiveAt (j : Journal) (place : Place) : Archive :=
  (j.archives.lookup place).getD .empty

def withArchive (place : Place) (a : Archive) :
    List (Place × Archive) → List (Place × Archive)
  | [] => [(place, a)]
  | p :: ps => if p.1 == place then (place, a) :: ps else p :: withArchive place a ps

/-- Puts new settings in force. The log file is begun if it is not there yet. -/
def configure (s : Setup) (j : Journal) : Journal :=
  match s.place? with
  | none => ⟨s, j.archives⟩
  | some place => ⟨s, withArchive place (j.archiveAt place) j.archives⟩

/-- Whether a logger of that name belongs to the program. -/
def owns (logger : String) : Bool :=
  logger == rootName || (rootName ++ ".").toList.isPrefixOf logger.toList

/-- Records of level zero or below are never written. -/
def passes (s : Setup) (r : Record) : Bool :=
  0 < r.level && s.threshold ≤ r.level && s.level ≤ r.level

theorem passes_iff {s : Setup} {r : Record} :
    passes s r = true ↔ 0 < r.level ∧ s.threshold ≤ r.level := by
  simp only [passes, Bool.and_eq_true, decide_eq_true_eq]
  constructor
  · exact And.left
  · intro h
    refine ⟨h, ?_⟩
    have hlevel := h.2
    rw [Setup.threshold] at hlevel
    split at hlevel
    · next hzero =>
      rw [hzero]
      exact Int.le_of_lt h.1
    · exact hlevel

def store (line : String) (j : Journal) : Journal :=
  match j.setup.place? with
  | none => j
  | some place =>
    let a := (j.archiveAt place).append j.setup.rotation line
    ⟨j.setup, withArchive place a j.archives⟩

/-- A record of another program appears as its bare message, from warnings on. -/
def bareText (r : Record) : String :=
  if r.level < Level.warning then ""
  else match r.message with
    | .ok m => m ++ "\n"
    | .error _ => ""

/-- Writes a record, and tells what appears on the console. A record that cannot be put into words
is passed over. -/
def write (r : Record) (j : Journal) : Journal × String :=
  if !owns r.logger then (j, bareText r)
  else if passes j.setup r then
    let shown := match r.consoleText false with
      | .ok s => s ++ "\n"
      | .error _ => ""
    let kept := match r.jsonLine with
      | .ok line => j.store line
      | .error _ => j
    (kept, shown)
  else (j, "")

def writeAll (rs : List Record) (j : Journal) : Journal × String :=
  rs.foldl (fun (j, shown) r =>
    let (j, s) := j.write r
    (j, shown ++ s)) (j, "")

def files (j : Journal) : List (Place × String) :=
  j.archives.flatMap fun (place, a) => a.files place

end Journal
end Reckoner.Log
