import Reckoner.Expression.Tree
import Reckoner.Proofs.Binary64.Shortest

/-!
Arithmetic up to the sign of zero. Operations on numbers that agree but for the signs of zeros give
numbers that agree so again, as long as nothing is divided by zero.
-/

namespace Reckoner

namespace Binary64

variable {x x' y y' z : Binary64}

theorem eq_zero_of_isZero (h : x.isZero = true) : ∃ s, x = .zero s := by
  cases x with
  | finite s code =>
    have hcode : code.val = 0 := eq_of_beq h
    exact ⟨s, congrArg (finite s) (Fin.ext hcode)⟩
  | infinite s => cases h
  | nan => cases h

/-- Equal, or zeros of any signs. -/
def Alike (x y : Binary64) : Prop :=
  x = y ∨ ∃ s t, x = zero s ∧ y = zero t

namespace Alike

theorem refl (x : Binary64) : x.Alike x :=
  .inl rfl

theorem zeros (s t : Bool) : (zero s).Alike (zero t) :=
  .inr ⟨s, t, rfl, rfl⟩

theorem trans (h : x.Alike y) (h' : y.Alike z) : x.Alike z := by
  rcases h with rfl | ⟨s, t, rfl, rfl⟩
  · exact h'
  rcases h' with rfl | ⟨-, u, -, rfl⟩
  · exact zeros s t
  · exact zeros s u

theorem isZero_eq (h : x.Alike y) : x.isZero = y.isZero := by
  rcases h with rfl | ⟨s, t, rfl, rfl⟩ <;> rfl

theorem congr {f : Binary64 → Binary64 → Binary64}
    (hleft : ∀ s t y, (f (zero s) y).Alike (f (zero t) y))
    (hright : ∀ s t x, (f x (zero s)).Alike (f x (zero t)))
    (hx : x.Alike x') (hy : y.Alike y') : (f x y).Alike (f x' y') := by
  have hfirst : (f x y).Alike (f x' y) := by
    rcases hx with rfl | ⟨s, t, rfl, rfl⟩
    · exact refl _
    · exact hleft s t y
  refine hfirst.trans ?_
  rcases hy with rfl | ⟨s, t, rfl, rfl⟩
  · exact refl _
  · exact hright s t x'

theorem neg (h : x.Alike y) : x.neg.Alike y.neg := by
  rcases h with rfl | ⟨s, t, rfl, rfl⟩
  · exact refl _
  · exact zeros (!s) (!t)

end Alike

theorem scaled_zero (s : Bool) : scaled s 0 = 0 := by
  cases s <;> rfl

theorem units_zero : units 0 = 0 := rfl

theorem add_zero_left (s t : Bool) (y : Binary64) : ((zero s).add y).Alike ((zero t).add y) := by
  cases y with
  | nan => exact .refl _
  | infinite u => exact .refl _
  | finite u b =>
    simp only [zero, add, scaled_zero, Int.zero_add]
    split
    · exact .zeros _ _
    · exact .refl _

theorem add_zero_right (s t : Bool) (x : Binary64) : (x.add (zero s)).Alike (x.add (zero t)) := by
  cases x with
  | nan => exact .refl _
  | infinite u => exact .refl _
  | finite u a =>
    simp only [zero, add, scaled_zero, Int.add_zero]
    split
    · exact .zeros _ _
    · exact .refl _

theorem mul_zero_left (s t : Bool) (y : Binary64) : ((zero s).mul y).Alike ((zero t).mul y) := by
  cases y with
  | nan => exact .refl _
  | infinite u => exact .refl _
  | finite u b =>
    simp only [zero, mul, units_zero, Nat.zero_mul, ofUnits_zero]
    exact .zeros _ _

theorem mul_zero_right (s t : Bool) (x : Binary64) : (x.mul (zero s)).Alike (x.mul (zero t)) := by
  cases x with
  | nan => exact .refl _
  | infinite u => exact .refl _
  | finite u a =>
    simp only [zero, mul, units_zero, Nat.mul_zero, ofUnits_zero]
    exact .zeros _ _

theorem div_zero_left (s t : Bool) (y : Binary64) : ((zero s).div y).Alike ((zero t).div y) := by
  cases y with
  | nan => exact .refl _
  | infinite u => exact .zeros _ _
  | finite u b =>
    simp only [zero, div, units_zero, Nat.zero_mul, ofUnits_zero]
    split
    · exact .refl _
    · exact .zeros _ _

theorem apply_alike (op : Operator) (hx : x.Alike x') (hy : y.Alike y')
    (hdiv : op = .div → y.isZero = false) : (op.apply x y).Alike (op.apply x' y') := by
  cases op with
  | add => exact hx.congr add_zero_left add_zero_right hy
  | sub =>
    have hadd : (x.add y.neg).Alike (x'.add y'.neg) :=
      hx.congr add_zero_left add_zero_right hy.neg
    exact hadd
  | mul => exact hx.congr mul_zero_left mul_zero_right hy
  | div =>
    rcases hy with rfl | ⟨s, t, rfl, -⟩
    · rcases hx with rfl | ⟨s, t, rfl, rfl⟩
      · exact .refl _
      · exact div_zero_left s t y
    · cases hdiv rfl

end Binary64
end Reckoner
