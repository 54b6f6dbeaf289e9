import Reckoner.Expression.Json
import Reckoner.History.Store
import Reckoner.Proofs.Json.RoundTrip

/-!
The JSON of a tree is read as the tree again: as it stands, as it is kept in a table, and as part of
an item in standard JSON, where numbers that are not finite are given by name.
-/

namespace Reckoner

/-- A number in standard JSON. There are only names for those that are not finite. -/
def Binary64.portableJson : Binary64 → Json
  | .infinite false => .string "Infinity"
  | .infinite true => .string "-Infinity"
  | .nan => .string "NaN"
  | x => .float x

namespace Json

variable {f : Binary64 → Json}

theorem replaceInItems_eq (vs : List Json) :
    replaceInItems f vs = vs.map (·.replaceNonFinite f) := by
  induction vs with
  | nil => rfl
  | cons v vs ih => rw [replaceInItems, ih, List.map_cons]

theorem replaceInMembers_eq (ms : List (String × Json)) :
    replaceInMembers f ms = ms.map fun m => (m.1, m.2.replaceNonFinite f) := by
  induction ms with
  | nil => rfl
  | cons m ms ih => rw [replaceInMembers, ih, List.map_cons]

theorem replaceNonFinite_named (x : Binary64) :
    (Json.float x).replaceNonFinite named = x.portableJson := by
  cases x with
  | finite s code => rfl
  | infinite s => cases s <;> rfl
  | nan => rfl

theorem Distinct.replaceNonFinite (hf : ∀ x, (f x).Distinct) {v : Json} (h : v.Distinct) :
    (v.replaceNonFinite f).Distinct := by
  induction h with
  | float x =>
    rw [Json.replaceNonFinite]
    split
    · exact .float x
    · exact hf x
  | array h ih =>
    rw [Json.replaceNonFinite, replaceInItems_eq]
    exact .array (List.forall_mem_map.mpr ih)
  | object hn h ih =>
    rw [Json.replaceNonFinite, replaceInMembers_eq]
    refine .object ?_ (List.forall_mem_map.mpr ih)
    rwa [List.map_map]
  | null => exact .null
  | bool b => exact .bool b
  | int n => exact .int n
  | string s => exact .string s
  | unpaired => exact .unpaired

end Json

namespace Checked

variable {α β : Type} {name : String} {c : Checked α} {x : α}

theorem within_ok_iff : c.within name = .ok x ↔ c = .ok x := by
  cases c with
  | error is => exact ⟨nofun, nofun⟩
  | ok y => exact Iff.rfl

theorem both_ok_iff {d : Checked β} {y : β} : both c d = .ok (x, y) ↔ c = .ok x ∧ d = .ok y := by
  cases c <;> cases d <;> simp [both]

theorem field_ok_iff {members : List (String × Json)} {read : Json → Checked α} :
    field members name (fun v _ => read v) = .ok x ↔
      ∃ v, members.lookup name = some v ∧ read v = .ok x := by
  unfold field
  rw [within_ok_iff]
  split
  · next hnone => exact ⟨nofun, fun ⟨_, h, _⟩ => nomatch hnone.symm.trans h⟩
  · next v hv =>
    refine ⟨fun h => ⟨v, hv, h⟩, fun ⟨w, hw, h⟩ => ?_⟩
    cases hv.symm.trans hw
    exact h

theorem field_some {members : List (String × Json)} {v : Json} (read : Json → Checked α)
    (h : members.lookup name = some v) (hv : read v = .ok x) :
    field members name (fun v _ => read v) = .ok x :=
  field_ok_iff.mpr ⟨v, h, hv⟩

theorem float_string {s : String} {x : Binary64} (h : Binary64.ofLooseText? s = some x) :
    float (.string s) = .ok x := by
  unfold float
  dsimp only
  rw [h]

theorem float_portableJson (x : Binary64) : float x.portableJson = .ok x := by
  cases x with
  | finite s code => rfl
  | infinite s =>
    cases s with
    | false => exact float_string (s := "Infinity") (by decide +kernel)
    | true => exact float_string (s := "-Infinity") (by decide +kernel)
  | nan => exact float_string (s := "NaN") (by decide +kernel)

end Checked

namespace Expression

/-- The JSON of a tree with its literals in another form. -/
def jsonWith (f : Binary64 → Json) : Expression → Json
  | .number x => .object [("type", .string "number"), ("value", f x)]
  | .negation e =>
    .object [("type", .string "unary"), ("operator", .string "-"), ("operand", e.jsonWith f)]
  | .operation op l r =>
    .object [("type", .string "binary"), ("operator", .string op.symbol), ("left", l.jsonWith f),
      ("right", r.jsonWith f)]

theorem replaceNonFinite_json (f : Binary64 → Json) (e : Expression) :
    e.json.replaceNonFinite f = e.jsonWith fun x => (Json.float x).replaceNonFinite f := by
  induction e with
  | number x => rfl
  | negation e ih =>
    rw [jsonWith, ← ih]
    rfl
  | operation op l r ihl ihr =>
    rw [jsonWith, ← ihl, ← ihr]
    rfl

theorem json_eq (e : Expression) : e.json = e.jsonWith .float := by
  induction e with
  | number x => rfl
  | negation e ih =>
    rw [jsonWith, ← ih]
    rfl
  | operation op l r ihl ihr =>
    rw [jsonWith, ← ihl, ← ihr]
    rfl

theorem distinct_members (e : Expression) : (Json.object e.members).Distinct := by
  induction e with
  | number x =>
    refine .object (by simp [members]) ?_
    exact List.forall_mem_cons.mpr ⟨.string _, List.forall_mem_singleton.mpr (.float x)⟩
  | negation e ih =>
    refine .object (by simp [members]) ?_
    exact List.forall_mem_cons.mpr ⟨.string _,
      List.forall_mem_cons.mpr ⟨.string _, List.forall_mem_singleton.mpr ih⟩⟩
  | operation op l r ihl ihr =>
    refine .object (by simp [members]) ?_
    exact List.forall_mem_cons.mpr ⟨.string _, List.forall_mem_cons.mpr ⟨.string _,
      List.forall_mem_cons.mpr ⟨ihl, List.forall_mem_singleton.mpr ihr⟩⟩⟩

section Nodes

variable {ms : List (String × Json)} {e l r : Expression} {op : Operator} {x : Binary64}
  {v w : Json}

theorem ofJson_number (htag : ms.lookup "type" = some (.string "number"))
    (hvalue : ms.lookup "value" = some v) (hx : Checked.float v = .ok x) :
    ofJson (.object ms) = .ok (.number x) := by
  have hread := Checked.field_some Checked.float hvalue hx
  rw [ofJson, htag]
  simp only [hread]
  rfl

theorem ofJson_negation (htag : ms.lookup "type" = some (.string "unary"))
    (hop : ms.lookup "operator" = some (.string "-"))
    (hoperand : ms.lookup "operand" = some v) (he : ofJson v = .ok e) :
    ofJson (.object ms) = .ok (.negation e) := by
  have hminus : checkMinus ms = .ok () := by
    rw [checkMinus, hop]
    rfl
  have hread := Checked.field_some ofJson hoperand he
  rw [ofJson, htag]
  simp only [hminus, hread]
  rfl

theorem ofJson_operation (htag : ms.lookup "type" = some (.string "binary"))
    (hop : ms.lookup "operator" = some (.string op.symbol))
    (hleft : ms.lookup "left" = some v) (hl : ofJson v = .ok l)
    (hright : ms.lookup "right" = some w) (hr : ofJson w = .ok r) :
    ofJson (.object ms) = .ok (.operation op l r) := by
  have hcheck : checkOperator (.string op.symbol) = .ok op := by
    cases op <;> rfl
  have hread := Checked.field_some checkOperator hop hcheck
  have hreadLeft := Checked.field_some ofJson hleft hl
  have hreadRight := Checked.field_some ofJson hright hr
  rw [ofJson, htag]
  simp only [hread, hreadLeft, hreadRight]
  rfl

end Nodes

theorem ofJson_jsonWith {f : Binary64 → Json} (hf : ∀ x, Checked.float (f x) = .ok x)
    (e : Expression) : ofJson (e.jsonWith f) = .ok e := by
  induction e with
  | number x => exact ofJson_number rfl rfl (hf x)
  | negation e ih => exact ofJson_negation rfl rfl rfl ih
  | operation op l r ihl ihr => exact ofJson_operation rfl rfl rfl ihl rfl ihr

theorem ofJson_json (e : Expression) : ofJson e.json = .ok e := by
  rw [json_eq]
  exact ofJson_jsonWith (fun _ => rfl) e

end Expression

theorem Item.distinct_portableJson {i : Item} (h : (Json.object i.computation).Distinct) :
    i.portableJson.Distinct := by
  have hnamed : ∀ x, (Json.named x).Distinct := fun x => .string _
  refine .object (by simp [members]) ?_
  simp only [members, List.forall_mem_cons, List.not_mem_nil, false_imp_iff, implies_true, and_true]
  have hresult := (Json.Distinct.float i.result).replaceNonFinite hnamed
  exact ⟨.string _, .string _, h.replaceNonFinite hnamed, hresult, .string _⟩

theorem Item.computation_portableJson {i : Item} {e : Expression} (h : i.computation = e.members) :
    i.portableJson.get? "computation" = some (e.jsonWith Binary64.portableJson) := by
  have hjson := e.replaceNonFinite_json Json.named
  rw [funext Json.replaceNonFinite_named, Expression.json, ← h] at hjson
  exact congrArg some hjson

/-- A tree comes back from its JSON, from the text that a row keeps of it, and from the standard JSON
of an item. There its literals that are not finite are given by name. -/
theorem tree_reads_back (e : Expression) :
    Expression.ofJson e.json = .ok e ∧
    (∃ v, Json.ofText e.json.text = .ok v ∧ Expression.ofJson v = .ok e) ∧
    ∀ (id source : String) (x : Binary64) (now : Timestamp),
      let i : Item := ⟨id, source, e.members, x, now⟩
      (Row.ofItem i).computation = e.json.text ∧
      ∃ v, Json.ofText i.portableJson.text = .ok v ∧
        v.get? "computation" = some (e.jsonWith Binary64.portableJson) ∧
        Expression.ofJson (e.jsonWith Binary64.portableJson) = .ok e := by
  have htext : Json.ofText e.json.text = .ok e.json := Json.ofText_text e.distinct_members
  refine ⟨e.ofJson_json, ⟨_, htext, e.ofJson_json⟩, fun id source x now => ⟨rfl, ?_⟩⟩
  have hitem : (Item.mk id source e.members x now).portableJson.Distinct :=
    Item.distinct_portableJson e.distinct_members
  exact ⟨_, Json.ofText_text hitem, Item.computation_portableJson rfl,
    Expression.ofJson_jsonWith Checked.float_portableJson e⟩

end Reckoner
