import Reckoner.Text.Path
import Reckoner.Text.Quoted

/-!
Folders and files, seen from the working folder, which is empty at first.
-/

namespace Reckoner
open Text

/-- A place in the file system: the names that lead to it from the working folder, or from the root
if it is absolute, with the innermost one first. Steps up come before all other names. -/
structure Place where
  absolute : Bool
  names : List (List Char)
deriving DecidableEq

namespace Place

def up : List Char := ['.', '.']

/-- Nothing is around the root. -/
def step (p : Place) (name : List Char) : Place :=
  if name = up then
    match p.names with
    | [] => if p.absolute then p else ⟨false, [up]⟩
    | n :: ns => if n = up then ⟨p.absolute, up :: n :: ns⟩ else ⟨p.absolute, ns⟩
  else ⟨p.absolute, name :: p.names⟩

def start (absolute : Bool) : Place :=
  ⟨absolute, []⟩

def isAbsolute (path : String) : Bool :=
  path.toList.head? == some '/'

def ofPath (path : String) : Place :=
  (pathParts path.toList).foldl step (start (isAbsolute path))

def extended (ending : List Char) (p : Place) : Place :=
  match p.names with
  | [] => p
  | n :: ns => ⟨p.absolute, (n ++ ending) :: ns⟩

def isInside (p : Place) : Bool :=
  !p.absolute && p.names.all (· != up)

def text (p : Place) : String :=
  String.ofList ((if p.absolute then ['/'] else []) ++ ['/'].intercalate p.names.reverse)

end Place

structure Files where
  folders : List Place
  files : List Place

namespace Files

inductive Cause where
  | missing
  | exists
  | notAFolder
  | aFolder
  | tooLong
  | zeroByte
deriving DecidableEq

structure Fault where
  cause : Cause
  path : String
deriving DecidableEq

def Cause.message : Cause → String
  | .missing => "[Errno 2] No such file or directory: "
  | .exists => "[Errno 17] File exists: "
  | .notAFolder => "[Errno 20] Not a directory: "
  | .aFolder => "[Errno 21] Is a directory: "
  | .tooLong => "[Errno 36] File name too long: "
  | .zeroByte => "embedded null byte"

def Fault.message (f : Fault) : String :=
  f.cause.message ++ if f.cause = .zeroByte then "" else quote f.path

def empty : Files :=
  ⟨[], []⟩

/-- The working folder and those around it are there from the start. -/
def isFolder (f : Files) (p : Place) : Bool :=
  p.names.all (· == Place.up) || f.folders.contains p

def isFile (f : Files) (p : Place) : Bool :=
  f.files.contains p

def addFolder (f : Files) (p : Place) : Files :=
  { f with folders := f.folders ++ [p] }

def addFile (f : Files) (p : Place) : Files :=
  if f.isFile p then f else { f with files := f.files ++ [p] }

def maxNameBytes : Nat := 255

def maxPathBytes : Nat := 4095

/-- Goes from a place along names, all but the last of which have to be folders. -/
def walk (f : Files) (p : Place) : List (List Char) → Except Cause Place
  | [] => .ok p
  | name :: names =>
    if f.isFile p then .error .notAFolder
    else if !f.isFolder p then .error .missing
    else if maxNameBytes < (String.ofList name).utf8ByteSize then .error .tooLong
    else f.walk (p.step name) names

def pathOf (root : List Char) (names : List (List Char)) : String :=
  normalPath (String.ofList (root ++ ['/'].intercalate names.reverse))

def makeOne (f : Files) (root : List Char) (names : List (List Char)) : Except Fault Files :=
  match f.walk (Place.start !root.isEmpty) names.reverse with
  | .error c => .error ⟨c, pathOf root names⟩
  | .ok p =>
    if f.isFolder p then .ok f
    else if f.isFile p then .error ⟨.exists, pathOf root names⟩
    else .ok (f.addFolder p)

def makeAll (f : Files) (root : List Char) : List (List Char) → Except Fault Files
  | [] => .ok f
  | name :: outer =>
    match f.walk (Place.start !root.isEmpty) (name :: outer).reverse with
    | .error .missing => (makeAll f root outer).bind (·.makeOne root (name :: outer))
    | _ => f.makeOne root (name :: outer)

def makeAt (f : Files) (root : List Char) (names : List (List Char)) : Except Fault Files :=
  let path := pathOf root names
  if path.toList.any (·.toNat == 0) then .error ⟨.zeroByte, path⟩
  else if maxPathBytes < path.utf8ByteSize then .error ⟨.tooLong, path⟩
  else f.makeAll root names

def makeFolder (f : Files) (path : String) : Except Fault Files :=
  f.makeAt (pathRoot path.toList) (pathParts path.toList).reverse

def makeFolderAround (f : Files) (path : String) : Except Fault Files :=
  f.makeAt (pathRoot path.toList) (pathParts path.toList).reverse.tail

def texts (f : Files) : List String :=
  (f.files.filter (·.isInside)).map (·.text)

end Files
end Reckoner
