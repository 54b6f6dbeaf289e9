import Reckoner.Expression.Draft
import Reckoner.Expression.Evaluation
import Reckoner.Proofs.Binary64.SignedZero
import Reckoner.Proofs.Expression.Origin
import Reckoner.Proofs.Expression.Rendering

/-!
How an evaluation ends. It gives a number, or it stops at a division whose divisor is zero; a tree
that was read off a source gives nothing else even where its nodes are taken unchecked.
-/

namespace Reckoner

namespace Operator

@[simp]
theorem ofSymbol?_symbol (op : Operator) : ofSymbol? op.symbol = some op := by
  cases op <;> decide

theorem datum_apply (op : Operator) (x y : Binary64) :
    Datum.apply op (.value (.float x)) (.value (.float y)) =
      .ok (.value (.float (op.apply x y))) := by
  cases op <;> rfl

end Operator

namespace Expression

def subtrees : Expression → List Expression
  | .number x => [.number x]
  | .negation e => .negation e :: e.subtrees
  | .operation op l r => .operation op l r :: (l.subtrees ++ r.subtrees)

variable {op : Operator} {e l r : Expression} {x y z : Binary64} {d : DivisionByZero}

theorem evaluate_operation_left (hl : l.evaluate = .error d) :
    (operation op l r).evaluate = .error d := by
  rw [evaluate, hl]
  rfl

theorem evaluate_operation_right (hl : l.evaluate = .ok x) (hr : r.evaluate = .error d) :
    (operation op l r).evaluate = .error d := by
  rw [evaluate, hl, hr]
  rfl

theorem evaluate_operation (hl : l.evaluate = .ok x) (hr : r.evaluate = .ok y) :
    (operation op l r).evaluate =
      if op = .div ∧ y.isZero then .error ⟨r⟩ else .ok (op.apply x y) := by
  rw [evaluate, hl, hr]
  rfl

theorem evaluate_error (h : e.evaluate = .error d) :
    ∃ l s, operation .div l d.operand ∈ e.subtrees ∧ d.operand.evaluate = .ok (.zero s) := by
  induction e with
  | number x => cases h
  | negation e ih =>
    obtain ⟨l, s, hl, hd⟩ := ih (bind_ok_eq_error h)
    exact ⟨l, s, List.mem_cons_of_mem _ hl, hd⟩
  | operation op l r ihl ihr =>
    cases hl : l.evaluate with
    | error d' =>
      rw [evaluate_operation_left hl] at h
      cases h
      obtain ⟨l', s, hmem, hd⟩ := ihl hl
      exact ⟨l', s, List.mem_cons_of_mem _ (List.mem_append_left _ hmem), hd⟩
    | ok x =>
      cases hr : r.evaluate with
      | error d' =>
        rw [evaluate_operation_right hl hr] at h
        cases h
        obtain ⟨l', s, hmem, hd⟩ := ihr hr
        exact ⟨l', s, List.mem_cons_of_mem _ (List.mem_append_right _ hmem), hd⟩
      | ok y =>
        rw [evaluate_operation hl hr] at h
        split at h
        · next hzero =>
          cases h
          obtain ⟨rfl, hy⟩ := hzero
          obtain ⟨s, rfl⟩ := Binary64.eq_zero_of_isZero hy
          exact ⟨l, s, List.mem_cons_self, hr⟩
        · cases h

end Expression
end Reckoner
