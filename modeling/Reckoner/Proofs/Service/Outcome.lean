import Reckoner.Proofs.Expression.Evaluation
import Reckoner.Proofs.Expression.Progress
import Reckoner.Proofs.Service.Recording

/-!
How a calculation ends: with a number, at a division by zero, or with a refusal that names a place
within the source.
-/

namespace Reckoner
open Expression

namespace Expression

variable {limit : Option Int} {source : String} {e : Expression}

theorem evaluated_ok {x : Binary64} (h : evaluated limit source = .ok (e, x)) :
    ofText limit source = .ok e ∧ e.evaluate = .ok x := by
  obtain ⟨e', he, h⟩ := bind_eq_ok h
  split at h
  · next hx =>
    cases h
    exact ⟨he, hx⟩
  · cases h

theorem evaluated_error {f : Failure} (h : evaluated limit source = .error f) :
    (∃ e d, ofText limit source = .ok e ∧ e.evaluate = .error d ∧ f = .divisionByZero d) ∨
      ∃ i : Invalid, f = .invalid i ∧ i.Within source := by
  cases he : ofText limit source with
  | error g =>
    rw [evaluated, he] at h
    cases h
    exact .inr (ofText_blames he)
  | ok e =>
    rw [evaluated, he, ok_bind] at h
    split at h
    · cases h
    · next d hd =>
      cases h
      exact .inl ⟨e, d, rfl, hd, rfl⟩

end Expression

namespace Service

variable {s : Service} {source : String}

theorem evaluate_error {f : Failure} (h : s.evaluate source = .error f) :
    (s.maxLength < source.length ∧ f = .invalid (.tooLong s.maxLength)) ∨
      evaluated s.maxDepth source = .error f := by
  rw [evaluate] at h
  split at h
  · next hlen =>
    cases h
    exact .inl ⟨hlen, rfl⟩
  · exact .inr h

end Service

end Reckoner
