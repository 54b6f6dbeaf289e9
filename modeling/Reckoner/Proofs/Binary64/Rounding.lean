import Mathlib.Algebra.Group.Nat.Defs
import Reckoner.Binary64.Decimal

/-!
Rounding depends on the ratio alone and leaves every magnitude as it is.
-/

namespace Reckoner.Binary64

theorem roundHalfEven_mul {k : Nat} (hk : 0 < k) (n d : Nat) :
    roundHalfEven (k * n) (k * d) = roundHalfEven n d := by
  have hlt : 2 * (k * (n % d)) < k * d ↔ 2 * (n % d) < d := by
    rw [Nat.mul_left_comm, Nat.mul_lt_mul_left hk]
  have heq : 2 * (k * (n % d)) = k * d ↔ 2 * (n % d) = d := by
    rw [Nat.mul_left_comm, Nat.mul_right_inj (Nat.ne_of_gt hk)]
  simp only [roundHalfEven, Nat.mul_div_mul_left _ _ hk, Nat.mul_mod_mul_left, Bool.or_eq_true,
    Bool.and_eq_true, decide_eq_true_eq, beq_iff_eq, hlt, heq]

theorem roundHalfEven_exact {d : Nat} (hd : 0 < d) (m : Nat) : roundHalfEven (m * d) d = m := by
  simp [roundHalfEven, Nat.mul_div_cancel m hd, hd]

theorem nearest_mul {k : Nat} (hk : 0 < k) (n d : Nat) : nearest (k * n) (k * d) = nearest n d := by
  simp only [nearest, Nat.mul_div_mul_left _ _ hk, Nat.mul_assoc, roundHalfEven_mul hk]

theorem ofUnits_mul {k : Nat} (hk : 0 < k) (s : Bool) (n d : Nat) :
    ofUnits s (k * n) (k * d) = ofUnits s n d := by
  simp only [ofUnits, nearest_mul hk]

theorem ofUnits_congr {n d n' d' : Nat} (hd : 0 < d) (hd' : 0 < d') (h : n * d' = n' * d)
    (s : Bool) : ofUnits s n d = ofUnits s n' d' := by
  rw [← ofUnits_mul hd' s n d, ← ofUnits_mul hd s n' d', Nat.mul_comm d' n, h, Nat.mul_comm d n',
    Nat.mul_comm d' d]

theorem nearest_small {n : Nat} (h : n < 2 * binadeSize) : nearest n 1 = n := by
  have hlog : n.log2 - 52 = 0 := by
    by_cases hn : n = 0
    · simp [hn]
    · have : n.log2 < 53 := (Nat.log2_lt hn).mpr h
      omega
  have hr := roundHalfEven_exact Nat.one_pos n
  rw [Nat.mul_one] at hr
  simp [nearest, hlog, hr]

theorem nearest_large {m b : Nat} (hm : binadeSize ≤ m) (hm' : m < 2 * binadeSize) :
    nearest (m * 2 ^ b) 1 = m + b * binadeSize := by
  have hpos : m ≠ 0 := by
    intro h
    rw [h] at hm
    exact absurd hm (by decide)
  have hlog : (m * 2 ^ b).log2 = 52 + b := by
    have hne : m * 2 ^ b ≠ 0 := Nat.mul_ne_zero hpos (Nat.ne_of_gt (Nat.two_pow_pos b))
    rw [Nat.log2_eq_iff hne]
    constructor
    · rw [Nat.pow_add]
      exact Nat.mul_le_mul_right _ hm
    · rw [Nat.pow_add, Nat.pow_add, Nat.mul_right_comm]
      exact Nat.mul_lt_mul_of_pos_right hm' (Nat.two_pow_pos b)
  have hsub : 52 + b - 52 = b := by omega
  simp only [nearest, Nat.div_one, hlog, hsub, Nat.one_mul, Nat.pow_eq]
  rw [roundHalfEven_exact (Nat.two_pow_pos b)]

theorem nearest_units (c : Nat) : nearest (units c) 1 = c := by
  unfold units
  split
  · next h => exact nearest_small h
  · next h =>
    have hmod := Nat.mod_lt c (show 0 < binadeSize by decide)
    have hdiv := Nat.div_add_mod' c binadeSize
    have hb : 2 ≤ c / binadeSize := (Nat.le_div_iff_mul_le (by decide)).mpr (Nat.le_of_not_lt h)
    have hmul := Nat.mul_le_mul_right binadeSize hb
    rw [Nat.pow_eq, nearest_large (Nat.le_add_right _ _) (by omega), Nat.sub_mul, Nat.one_mul]
    omega

theorem ofUnits_units (s : Bool) (code : Fin magnitudeCount) :
    ofUnits s (units code) 1 = .finite s code := by
  have h : nearest (units code) 1 < magnitudeCount := by
    rw [nearest_units]
    exact code.isLt
  rw [ofUnits, dif_pos h]
  congr 1
  exact Fin.ext (nearest_units code)

end Reckoner.Binary64
