import Reckoner.Json.Writer
import Reckoner.Timestamp.Text
import Reckoner.Validation

/-!
Records of calculations, and their forms as JSON.
-/

namespace Reckoner

mutual

def Json.replaceNonFinite (f : Binary64 → Json) : Json → Json
  | .float x => if x.isFinite then .float x else f x
  | .array items => .array (Json.replaceInItems f items)
  | .object members => .object (Json.replaceInMembers f members)
  | v => v

def Json.replaceInItems (f : Binary64 → Json) : List Json → List Json
  | [] => []
  | v :: vs => v.replaceNonFinite f :: Json.replaceInItems f vs

def Json.replaceInMembers (f : Binary64 → Json) : List (String × Json) → List (String × Json)
  | [] => []
  | (k, v) :: ms => (k, v.replaceNonFinite f) :: Json.replaceInMembers f ms

end

def Json.named (x : Binary64) : Json :=
  .string (Json.floatText x)

/-- The computation is the tree of the expression as a JSON object. -/
structure Item where
  id : String
  expression : String
  computation : List (String × Json)
  result : Binary64
  createdAt : Timestamp

namespace Item

def members (computation result : Json) (created : String) (i : Item) : List (String × Json) :=
  [("id", .string i.id), ("expression", .string i.expression), ("computation", computation),
    ("result", result), ("created_at", .string created)]

def json (i : Item) : Json :=
  .object (i.members (.object i.computation) (.float i.result) i.createdAt.text)

/-- The item in standard JSON: numbers that are not finite are given by name. -/
def portableJson (i : Item) : Json :=
  .object (i.members ((Json.object i.computation).replaceNonFinite Json.named)
    ((Json.float i.result).replaceNonFinite Json.named) i.createdAt.zuluText)

/-- The item as it is sent to clients: within the computation, numbers that are not finite are
missing. -/
def publicJson (i : Item) : Json :=
  .object (i.members ((Json.object i.computation).replaceNonFinite fun _ => .null)
    ((Json.float i.result).replaceNonFinite Json.named) i.createdAt.zuluText)

def checkId (id : String) (members : List (String × Json)) : Checked String :=
  match members.lookup "id" with
  | none => .ok id
  | some v => Checked.within "id" (Checked.string v)

def ofMembers (id : String) (createdAt : Timestamp) (members : List (String × Json)) :
    Checked Item :=
  (Checked.both (checkId id members)
    (Checked.both (Checked.field members "expression" fun v _ => Checked.string v)
      (Checked.both (Checked.field members "computation" fun v _ => Checked.members v)
        (Checked.field members "result" fun v _ => Checked.float v)))).map
    fun (id, expression, computation, result) => ⟨id, expression, computation, result, createdAt⟩

inductive Fault where
  | time (fault : Timestamp.Fault)
  | issues (issues : List Issue)

/-- Reads an item. The given id and time are used where the item has none. -/
def ofJson (id : String) (now : Timestamp) (v : Json) : Except Fault Item := do
  let createdAt ← match v.get? "created_at" with
    | some (.string s) => (Timestamp.ofText s).mapError Fault.time
    | _ => .ok now
  match v with
  | .object members => (ofMembers id createdAt members).mapError .issues
  | _ => .error (.issues [⟨.notAnObject, []⟩])

end Item
end Reckoner
