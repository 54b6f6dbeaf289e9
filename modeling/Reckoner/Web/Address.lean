import Reckoner.Text.Split
import Reckoner.Text.Whole
import Reckoner.Validation
import Reckoner.Web.Percent

/-!
Web addresses: paths and queries, and the whole numbers in queries.
-/

namespace Reckoner.Web
open Text

/-- A form field: a plus stands for a blank. -/
def fieldText (cs : List Char) : String :=
  String.ofList (percentDecoded (cs.map fun c => if c == '+' then ' ' else c))

structure Address where
  path : String
  query : List (String × String)

/-- A host in front of the path does not count, and neither do slashes at the front. -/
def withoutHost : List Char → List Char
  | '/' :: '/' :: cs => (cs.dropWhile (· != '/')).dropWhile (· == '/')
  | cs => cs.dropWhile (· == '/')

/-- Adds a segment to those of a path, which has the innermost one first. `.` stays in place and
`..` steps back. -/
def addSegment (path : List (List Char)) (s : List Char) : List (List Char) :=
  if s = ['.'] then path else if s = ['.', '.'] then path.tail else s :: path

def resolved (cs : List Char) : List Char :=
  '/' :: ['/'].intercalate (((splitAtEach '/' (withoutHost cs)).foldl addSegment []).reverse)

/-- The address that a request names. What follows a `#` does not count. A percent sign in the path
may be encoded itself, so the path is decoded twice. -/
def Address.ofText (target : String) : Address :=
  let (cs, _) := cutAt '#' target.toList
  let (path, query) := cutAt '?' cs
  ⟨String.ofList (percentDecoded (percentDecoded (resolved path))),
    ((splitAtEach '&' query).filter (!·.isEmpty)).map fun p =>
      let (name, value) := cutAt '=' p
      (fieldText name, fieldText value)⟩

def Address.value? (a : Address) (name : String) : Option String :=
  a.query.reverse.lookup name

def checkInteger (least : Int) (most : Option Int) (s : String) : Checked Int :=
  match Whole.ofText s with
  | .error .malformed => Checked.fail .intParsing
  | .error .tooLong => Checked.fail .intTooLong
  | .ok n =>
    if n < least then Checked.fail (.below least)
    else
      match most with
      | none => .ok n
      | some m => if m < n then Checked.fail (.above m) else .ok n

def Address.integer (a : Address) (name : String) (default least : Int) (most : Option Int) :
    Checked Int :=
  match a.value? name with
  | none => .ok default
  | some s => Checked.within "query" (Checked.within name (checkInteger least most s))

end Reckoner.Web
