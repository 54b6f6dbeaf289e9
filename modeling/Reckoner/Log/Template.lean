import Reckoner.Log.Template.Conversion

/-!
Message templates: marks with a percent sign stand for the arguments in turn, or for the members of
a single object by name, and `%%` for a percent sign.
-/

namespace Reckoner.Log
open Text

namespace Template

def members? : List Datum → Option (List (String × Json))
  | [.value (.object (m :: ms))] => some (m :: ms)
  | _ => none

/-- The arguments that are left once a name has been looked up: the member of that name alone. -/
def select (members : Option (List (String × Json))) (as : List Datum) :
    Option Key → Except Fault (List Datum)
  | none => .ok as
  | some key =>
    match members, key with
    | none, _ => .error .mappingNeeded
    | _, .unfinished => .error .incompleteKey
    | some ms, .name s =>
      match ms.lookup s with
      | some v => .ok [.value v]
      | none => .error (.missingKey s)

def next : List Datum → Except Fault (Datum × List Datum)
  | [] => .error .tooFew
  | a :: as => .ok (a, as)

def nextWhole (as : List Datum) : Except Fault (Int × List Datum) := do
  let (a, left) ← next as
  match a.number? with
  | some (.whole n) => .ok (n, left)
  | _ => .error .extentNotWhole

def maxWidth : Nat := 0x10000000

/-- A width, where a negative one means the left side. -/
def width (f : Flags) (as : List Datum) :
    Option Extent → Except Fault ((Flags × Nat) × List Datum)
  | none => .ok ((f, 0), as)
  | some (.given n) =>
    if 0x7FFFFFFFFFFFFFFF < n then .error .widthTooBig
    else if maxWidth < n then .error .memory
    else .ok ((f, n), as)
  | some .argument => do
    let (n, left) ← nextWhole as
    if n < -0x8000000000000000 ∨ 0x7FFFFFFFFFFFFFFF < n then .error (.extentTooLarge "ssize_t")
    else if maxWidth < n.natAbs then .error .memory
    else .ok ((if n < 0 then { f with left := true } else f, n.natAbs), left)

def precision (as : List Datum) :
    Option Extent → Except Fault (Option Nat × List Datum)
  | none => .ok (none, as)
  | some (.given n) =>
    if 0x7FFFFFFF < n then .error .precisionTooBig else .ok (some n, as)
  | some .argument => do
    let (n, left) ← nextWhole as
    if n < -0x80000000 ∨ 0x7FFFFFFF < n then .error (.extentTooLarge "int")
    else .ok (some n.toNat, left)

/-- The text for a mark whose conversion stands at the given offset, and the arguments left. -/
def expand (members : Option (List (String × Json))) (offset : Nat) (s : Spec)
    (as : List Datum) : Except Fault (List Char × List Datum) := do
  let as ← select members as s.key
  let ((flags, w), as) ← width s.flags as s.width
  let (p, as) ← precision as s.precision
  match s.conversion with
  | none => .error .incomplete
  | some c =>
    let (a, left) ← next as
    let l ← convert flags p c offset a
    .ok (l.text flags w, left)

/-- Fills the rest of a template, and tells which arguments are left. -/
def fillFrom (members : Option (List (String × Json))) (offset : Nat) (cs : List Char)
    (as : List Datum) : Except Fault (List Char × List Datum) :=
  match cs with
  | [] => .ok ([], as)
  | '%' :: '%' :: cs => do
    let (s, left) ← fillFrom members (offset + 2) cs as
    .ok ('%' :: s, left)
  | '%' :: cs => do
    let (spec, rest) := Spec.read cs
    let n := cs.length - rest.length
    let (t, as) ← expand members (offset + n) spec as
    let (s, left) ← fillFrom members (offset + 1 + n) (cs.drop n) as
    .ok (t ++ s, left)
  | c :: cs => do
    let (s, left) ← fillFrom members (offset + 1) cs as
    .ok (c :: s, left)
termination_by cs.length
decreasing_by all_goals simp only [List.length_cons, List.length_drop]; omega

/-- A template without arguments stands for itself. A single object may stay unused. -/
def fill (template : String) (as : List Datum) : Except Fault String :=
  if as.isEmpty then .ok template
  else do
    let (s, left) ← fillFrom (members? as) 0 template.toList as
    if left.isEmpty || (members? as).isSome then .ok (String.ofList s) else .error .tooMany

end Template
end Reckoner.Log
