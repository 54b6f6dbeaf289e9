import Reckoner.Proofs.Expression.Json
import Reckoner.Proofs.Expression.Rendering
import Reckoner.Proofs.Json.Standard

/-!
What clients are sent of an item: all of it, if its numbers are finite.
-/

namespace Reckoner

namespace Json

theorem Finite.replaceNonFinite {v : Json} (h : v.Finite) (f : Binary64 → Json) :
    v.replaceNonFinite f = v := by
  induction h with
  | float h => rw [Json.replaceNonFinite, if_pos h]
  | array h ih =>
    rw [Json.replaceNonFinite, replaceInItems_eq, List.map_congr_left ih, List.map_id']
  | @object members h ih =>
    have hmembers : ∀ m ∈ members, (m.1, m.2.replaceNonFinite f) = m :=
      fun m hm => congrArg (m.1, ·) (ih m hm)
    rw [Json.replaceNonFinite, replaceInMembers_eq, List.map_congr_left hmembers, List.map_id']
  | null => rfl
  | bool b => rfl
  | int n => rfl
  | string s => rfl
  | unpaired => rfl

end Json

theorem Expression.finite_json {e : Expression} (h : ∀ x ∈ e.literals, x.isFinite = true) :
    e.json.Finite := by
  induction e with
  | number x =>
    exact .object (List.forall_mem_cons.mpr
      ⟨.string _, List.forall_mem_singleton.mpr (.float (h x (List.mem_singleton_self x)))⟩)
  | negation e ih =>
    exact .object (List.forall_mem_cons.mpr ⟨.string _,
      List.forall_mem_cons.mpr ⟨.string _, List.forall_mem_singleton.mpr (ih h)⟩⟩)
  | operation op l r ihl ihr =>
    rw [literals, List.forall_mem_append] at h
    exact .object (List.forall_mem_cons.mpr ⟨.string _, List.forall_mem_cons.mpr ⟨.string _,
      List.forall_mem_cons.mpr ⟨ihl h.1, List.forall_mem_singleton.mpr (ihr h.2)⟩⟩⟩)

namespace Item

structure Finite (i : Item) : Prop where
  computation : (Json.object i.computation).Finite
  result : i.result.isFinite = true

theorem Finite.publicJson {i : Item} (h : i.Finite) :
    i.publicJson =
      .object (i.members (.object i.computation) (.float i.result) i.createdAt.zuluText) := by
  rw [Item.publicJson, h.computation.replaceNonFinite, (Json.Finite.float h.result).replaceNonFinite]

end Item
end Reckoner
