import Reckoner.Expression.Tree
import Reckoner.Validation

/-!
Expression trees as JSON: every node is an object whose `type` tells what it is. A tree is read
with all its faults reported.
-/

namespace Reckoner

namespace Json

theorem sizeOf_lookup_lt {members : List (String × Json)} {name : String} {v : Json}
    (h : members.lookup name = some v) : sizeOf v < sizeOf (Json.object members) := by
  induction members with
  | nil => simp at h
  | cons m ms ih =>
    obtain ⟨k, w⟩ := m
    rw [List.lookup_cons] at h
    split at h
    · cases h
      simp
      omega
    · have := ih h
      simp at this ⊢
      omega

end Json

namespace Expression

def members : Expression → List (String × Json)
  | .number x => [("type", .string "number"), ("value", .float x)]
  | .negation e =>
    [("type", .string "unary"), ("operator", .string "-"), ("operand", .object e.members)]
  | .operation op l r =>
    [("type", .string "binary"), ("operator", .string op.symbol), ("left", .object l.members),
      ("right", .object r.members)]

def json (e : Expression) : Json :=
  .object e.members

/-- The minus of a negation, which may be left out. -/
def checkMinus (members : List (String × Json)) : Checked Unit :=
  Checked.within "operator" <|
    match members.lookup "operator" with
    | none => .ok ()
    | some (.string "-") => .ok ()
    | some _ => Checked.fail (.choice "'-'")

def checkOperator : Json → Checked Operator
  | .string s =>
    match Operator.ofSymbol? s with
    | some op => .ok op
    | none => Checked.fail (.choice "'+', '-', '*' or '/'")
  | _ => Checked.fail (.choice "'+', '-', '*' or '/'")

/-- Reads a tree; fields that a node does not have are passed over. -/
def ofJson : Json → Checked Expression
  | .object members =>
    match members.lookup "type" with
    | none => Checked.fail .tagNotFound
    | some (.string "number") =>
      (Checked.field members "value" fun v _ => Checked.float v).map .number
        |> Checked.within "number"
    | some (.string "unary") =>
      (Checked.both (checkMinus members)
          (Checked.field members "operand" fun v _ => ofJson v)).map (.negation ·.2)
        |> Checked.within "unary"
    | some (.string "binary") =>
      (Checked.both (Checked.field members "operator" fun v _ => checkOperator v)
          (Checked.both (Checked.field members "left" fun v _ => ofJson v)
            (Checked.field members "right" fun v _ => ofJson v))).map
          (fun p => .operation p.1 p.2.1 p.2.2)
        |> Checked.within "binary"
    | some tag => Checked.fail (.tagInvalid tag.display)
  | _ => Checked.fail .notAnObject
termination_by v => sizeOf v
decreasing_by all_goals exact Json.sizeOf_lookup_lt (by assumption)

end Expression

end Reckoner
