import Mathlib.Algebra.Order.Field.Basic
import Mathlib.Algebra.Order.Ring.Rat
import Mathlib.Tactic.FieldSimp
import Mathlib.Tactic.NormNum
import Mathlib.Tactic.Ring
import Reckoner.Proofs.Binary64.SignedZero

/-!
Numbers as exact rationals. An operation whose exact result is a number gives that number, and all
whole numbers of up to 53 bits are numbers.
-/

namespace Reckoner
namespace Binary64

variable {x y : Binary64} {p q : ℚ} {s t : Bool}

def value? : Binary64 → Option ℚ
  | .finite s code => some (scaled s code / unitsPerOne)
  | _ => none

def Representable (q : ℚ) : Prop :=
  ∃ x : Binary64, x.value? = some q

def signOne (s : Bool) : ℚ :=
  if s then -1 else 1

theorem signOne_not (s : Bool) : signOne (!s) = -signOne s := by
  cases s <;> simp [signOne]

theorem signOne_xor (s t : Bool) : signOne (s ^^ t) = signOne s * signOne t := by
  cases s <;> cases t <;> simp [signOne]

theorem signOne_mul_self (s : Bool) : signOne s * signOne s = 1 := by
  cases s <;> simp [signOne]

theorem abs_signOne (s : Bool) : |signOne s| = 1 := by
  cases s <;> simp [signOne]

theorem signOne_ne_zero (s : Bool) : signOne s ≠ 0 :=
  left_ne_zero_of_mul_eq_one (signOne_mul_self s)

theorem signOne_injective (h : signOne s = signOne t) : s = t := by
  cases s <;> cases t <;> first | rfl | exact absurd h (by norm_num [signOne])

theorem signOne_natAbs (n : Int) : signOne (n < 0) * (n.natAbs : ℚ) = n := by
  have habs : ((n.natAbs : Int) : ℚ) = (n.natAbs : ℚ) := rfl
  rw [← habs]
  by_cases h : n < 0
  · have hn : (n.natAbs : Int) = -n := by omega
    rw [hn]
    simp [signOne, h]
  · have hn : (n.natAbs : Int) = n := by omega
    rw [hn]
    simp [signOne, h]

theorem scaled_eq (s : Bool) (code : Nat) : (scaled s code : ℚ) = signOne s * units code := by
  cases s <;> simp [scaled, signOne]

theorem unitsPerOne_pos : 0 < unitsPerOne := by
  decide +kernel

theorem unitsPerOne_ne_zero : (unitsPerOne : ℚ) ≠ 0 :=
  Nat.cast_ne_zero.mpr (Nat.ne_of_gt unitsPerOne_pos)

theorem units_injective {a b : Nat} (h : units a = units b) : a = b := by
  rw [← nearest_units a, h, nearest_units]

theorem value?_finite (s : Bool) (code : Fin magnitudeCount) :
    (finite s code).value? = some (signOne s * units code / unitsPerOne) := by
  rw [value?, scaled_eq]

theorem exists_finite (h : x.value? = some q) :
    ∃ s code, x = finite s code ∧ q = signOne s * units code / unitsPerOne := by
  cases x with
  | finite s code =>
    rw [value?_finite] at h
    exact ⟨s, code, rfl, (Option.some.inj h).symm⟩
  | infinite s => cases h
  | nan => cases h

theorem value?_zero (s : Bool) : (zero s).value? = some 0 := by
  rw [zero, value?, scaled_zero, Int.cast_zero, zero_div]

theorem isZero_iff (h : x.value? = some q) : x.isZero = true ↔ q = 0 := by
  obtain ⟨s, code, rfl, rfl⟩ := exists_finite h
  have hunits : units code = 0 ↔ code.val = 0 :=
    ⟨fun h => units_injective (h.trans units_zero.symm), fun h => by rw [h, units_zero]⟩
  rw [div_eq_zero_iff, or_iff_left unitsPerOne_ne_zero, mul_eq_zero,
    or_iff_right (signOne_ne_zero s), Nat.cast_eq_zero, hunits]
  exact beq_iff_eq

theorem units_eq_of_signed {n d : Nat} {code : Nat} (hd : 0 < d)
    (h : signOne s * ((n : ℚ) / (d * unitsPerOne)) = signOne t * units code / unitsPerOne) :
    n = units code * d := by
  have hd' : (d : ℚ) ≠ 0 := Nat.cast_ne_zero.mpr (Nat.ne_of_gt hd)
  have hu := unitsPerOne_ne_zero
  have habs : (n : ℚ) / (d * unitsPerOne) = units code / unitsPerOne := by
    have := congrArg (|·|) h
    rwa [mul_div_assoc, abs_mul, abs_mul, abs_signOne, abs_signOne, one_mul, one_mul,
      abs_of_nonneg (div_nonneg (Nat.cast_nonneg _) (mul_nonneg (Nat.cast_nonneg _)
        (Nat.cast_nonneg _))), abs_of_nonneg (div_nonneg (Nat.cast_nonneg _) (Nat.cast_nonneg _))]
      at this
  rw [div_eq_div_iff (mul_ne_zero hd' hu) hu, ← mul_assoc] at habs
  exact_mod_cast mul_right_cancel₀ hu habs

theorem alike_of_value? (hx : x.value? = some q) (hy : y.value? = some q) : x.Alike y := by
  obtain ⟨s, a, rfl, rfl⟩ := exists_finite hx
  obtain ⟨t, b, rfl, hab⟩ := exists_finite hy
  have hcode : units a = units b * 1 := by
    refine units_eq_of_signed (s := s) (t := t) Nat.one_pos ?_
    rw [Nat.cast_one, one_mul, ← mul_div_assoc, hab]
  rw [Nat.mul_one] at hcode
  obtain rfl : a = b := Fin.ext (units_injective hcode)
  by_cases hzero : a.val = 0
  · obtain rfl : a = ⟨0, by decide⟩ := Fin.ext hzero
    exact .zeros s t
  · have hunits : (units a : ℚ) ≠ 0 := Nat.cast_ne_zero.mpr (Nat.ne_of_gt (units_pos hzero))
    rw [div_left_inj' unitsPerOne_ne_zero, mul_left_inj' hunits] at hab
    rw [signOne_injective hab]
    exact .refl _

theorem value?_neg (hx : x.value? = some q) : x.neg.value? = some (-q) := by
  obtain ⟨s, code, rfl, rfl⟩ := exists_finite hx
  rw [neg, value?_finite, signOne_not, neg_mul, neg_div]

theorem value?_ofUnits {n d : Nat} (hd : 0 < d)
    (hq : q = signOne s * (n / (d * unitsPerOne))) (hr : Representable q) :
    (ofUnits s n d).value? = some q := by
  obtain ⟨z, hz⟩ := hr
  obtain ⟨t, code, rfl, hcode⟩ := exists_finite hz
  have hd' : (d : ℚ) ≠ 0 := Nat.cast_ne_zero.mpr (Nat.ne_of_gt hd)
  have hn : n = units code * d := units_eq_of_signed hd (hq.symm.trans hcode)
  have hnum : n * 1 = units code * d := by rw [hn, Nat.mul_one]
  rw [ofUnits_congr hd Nat.one_pos hnum, ofUnits_units, value?_finite, hq, hn, Nat.cast_mul,
    mul_comm (d : ℚ), mul_div_mul_right _ _ hd', mul_div_assoc]

theorem value?_add (hx : x.value? = some p) (hy : y.value? = some q) (hr : Representable (p + q)) :
    (x.add y).value? = some (p + q) := by
  obtain ⟨s, a, rfl, rfl⟩ := exists_finite hx
  obtain ⟨t, b, rfl, rfl⟩ := exists_finite hy
  have hsum : signOne s * units a / unitsPerOne + signOne t * units b / unitsPerOne =
      ((scaled s a + scaled t b : Int) : ℚ) / unitsPerOne := by
    rw [Int.cast_add, scaled_eq, scaled_eq, add_div]
  rw [hsum] at hr ⊢
  rw [add]
  generalize scaled s a + scaled t b = sum at hr
  by_cases hzero : sum = 0
  · simp only [hzero, if_true, value?_zero, Int.cast_zero, zero_div]
  · simp only [hzero, if_false]
    refine value?_ofUnits Nat.one_pos ?_ hr
    rw [Nat.cast_one, one_mul, ← mul_div_assoc, signOne_natAbs]

theorem value?_sub (hx : x.value? = some p) (hy : y.value? = some q) (hr : Representable (p - q)) :
    (x.sub y).value? = some (p - q) := by
  rw [sub_eq_add_neg] at hr ⊢
  exact value?_add hx (value?_neg hy) hr

theorem value?_mul (hx : x.value? = some p) (hy : y.value? = some q) (hr : Representable (p * q)) :
    (x.mul y).value? = some (p * q) := by
  obtain ⟨s, a, rfl, rfl⟩ := exists_finite hx
  obtain ⟨t, b, rfl, rfl⟩ := exists_finite hy
  refine value?_ofUnits unitsPerOne_pos ?_ hr
  rw [signOne_xor]
  push_cast
  ring

theorem value?_div (hx : x.value? = some p) (hy : y.value? = some q) (hq : q ≠ 0)
    (hr : Representable (p / q)) : (x.div y).value? = some (p / q) := by
  obtain ⟨s, a, rfl, rfl⟩ := exists_finite hx
  obtain ⟨t, b, rfl, hb⟩ := exists_finite hy
  have hcode : b.val ≠ 0 := by
    intro h
    rw [h, units_zero, Nat.cast_zero, mul_zero, zero_div] at hb
    exact hq hb
  rw [div, if_neg hcode]
  refine value?_ofUnits (units_pos hcode) ?_ hr
  have hunits : (units b : ℚ) ≠ 0 := Nat.cast_ne_zero.mpr (Nat.ne_of_gt (units_pos hcode))
  rw [signOne_xor, hb, div_eq_iff (hb ▸ hq)]
  have hone := unitsPerOne_ne_zero
  push_cast
  generalize (unitsPerOne : ℚ) = one at hone
  field_simp
  rw [sq, mul_assoc, signOne_mul_self, mul_one]

/-! Whole numbers. -/

theorem toInt?_eq_some_iff {n : Int} : x.toInt? = some n ↔ x.value? = some (n : ℚ) := by
  cases x with
  | infinite s => simp [toInt?, value?]
  | nan => simp [toInt?, value?]
  | finite s code =>
    have hsigned : ∀ k : Nat, signOne s * (k : ℚ) = ((if s then -(k : Int) else k : Int) : ℚ) := by
      intro k
      cases s <;> simp [signOne]
    have hmultiple : ∀ k : Nat, units code = k * unitsPerOne →
        (finite s code).toInt? = some (if s then -(k : Int) else k) ∧
          (finite s code).value? = some ((if s then -(k : Int) else k : Int) : ℚ) := by
      intro k hk
      rw [toInt?, value?_finite, hk, if_pos (Nat.mul_mod_left _ _), ← Int.natCast_ediv,
        Nat.mul_div_cancel _ unitsPerOne_pos, Nat.cast_mul, ← mul_assoc,
        mul_div_cancel_right₀ _ unitsPerOne_ne_zero, hsigned]
      exact ⟨rfl, rfl⟩
    constructor
    · intro h
      have hmod : units code % unitsPerOne = 0 := by
        rw [toInt?] at h
        split at h
        · assumption
        · cases h
      obtain ⟨hint, hvalue⟩ := hmultiple _ (Nat.div_mul_cancel (Nat.dvd_of_mod_eq_zero hmod)).symm
      rw [hint] at h
      rw [hvalue, Option.some.inj h]
    · intro h
      have hunits : n.natAbs * unitsPerOne = units code * 1 := by
        refine units_eq_of_signed (s := n < 0) (t := s) Nat.one_pos ?_
        rw [Nat.cast_one, one_mul, Nat.cast_mul, mul_div_cancel_right₀ _ unitsPerOne_ne_zero,
          signOne_natAbs]
        exact (Option.some.inj ((value?_finite s code).symm.trans h)).symm
      obtain ⟨hint, hvalue⟩ := hmultiple n.natAbs (by rw [hunits, Nat.mul_one])
      rw [hvalue] at h
      rw [hint, Int.cast_injective (Option.some.inj h)]

theorem units_binade {m b : Nat} (hm : binadeSize ≤ m) (hm' : m < 2 * binadeSize) :
    units (m + b * binadeSize) = m * 2 ^ b := by
  cases b with
  | zero => simp [units, hm']
  | succ b =>
    have hpos : 0 < binadeSize := by decide
    have hone : m / binadeSize = 1 :=
      Nat.div_eq_of_lt_le (by rwa [Nat.one_mul]) hm'
    have hmod : binadeSize + m % binadeSize = m := by
      have := Nat.div_add_mod m binadeSize
      rwa [hone, Nat.mul_one] at this
    have hlarge : ¬ m + (b + 1) * binadeSize < 2 * binadeSize := by
      have : 1 * binadeSize ≤ (b + 1) * binadeSize := Nat.mul_le_mul_right _ (by omega)
      omega
    rw [units, if_neg hlarge, Nat.add_mul_div_right _ _ hpos, Nat.add_mul_mod_self_right, hone, hmod,
      Nat.add_sub_cancel_left]
    rfl

theorem exists_units {m : Nat} (hm : m ≤ 2 ^ 53) :
    ∃ code : Fin magnitudeCount, units code = m * unitsPerOne := by
  have hcode : ∀ k b : Nat, binadeSize ≤ k → k < 2 * binadeSize → b ≤ 1075 →
      m * unitsPerOne = k * 2 ^ b → ∃ code : Fin magnitudeCount, units code = m * unitsPerOne := by
    intro k b hk hk' hb hm
    have hlt : k + b * binadeSize < magnitudeCount := by
      unfold binadeSize magnitudeCount at *
      omega
    exact ⟨⟨k + b * binadeSize, hlt⟩, by rw [hm, ← units_binade hk hk']⟩
  have hone : unitsPerOne = 2 ^ 1074 := by decide +kernel
  rcases Nat.eq_zero_or_pos m with rfl | hpos
  · exact ⟨⟨0, by decide⟩, by rw [Nat.zero_mul]; rfl⟩
  rcases Nat.lt_or_eq_of_le hm with hlt | rfl
  -- The first digit is moved to the front of the 53, which is exact.
  · have hlog : m.log2 ≤ 52 := by
      have := (Nat.log2_lt (Nat.ne_of_gt hpos)).mpr hlt
      omega
    have hlow := Nat.log2_self_le (Nat.ne_of_gt hpos)
    have hhigh := Nat.lt_log2_self (n := m)
    have hsplit : binadeSize = 2 ^ m.log2 * 2 ^ (52 - m.log2) := by
      rw [← Nat.pow_add, Nat.add_sub_cancel' hlog]
    refine hcode (m * 2 ^ (52 - m.log2)) (1022 + m.log2) ?_ ?_ (by omega) ?_
    · rw [hsplit]
      exact Nat.mul_le_mul_right _ hlow
    · rw [hsplit, ← Nat.mul_assoc, ← Nat.pow_succ']
      exact Nat.mul_lt_mul_of_pos_right hhigh (Nat.two_pow_pos _)
    · have hexp : 52 - m.log2 + (1022 + m.log2) = 1074 := by omega
      rw [Nat.mul_assoc, ← Nat.pow_add, hexp, hone]
  · refine hcode binadeSize 1075 (Nat.le_refl _) (by decide) (Nat.le_refl _) ?_
    rw [hone]
    decide +kernel

theorem representable_int {n : Int} (hn : n.natAbs ≤ 2 ^ 53) : Representable (n : ℚ) := by
  obtain ⟨code, hcode⟩ := exists_units hn
  refine ⟨finite (n < 0) code, ?_⟩
  rw [value?_finite, hcode, Nat.cast_mul, ← mul_assoc, mul_div_cancel_right₀ _ unitsPerOne_ne_zero,
    signOne_natAbs]

theorem value?_ofInt {n : Int} (hn : n.natAbs ≤ 2 ^ 53) : (ofInt n).value? = some (n : ℚ) := by
  refine value?_ofUnits Nat.one_pos ?_ (representable_int hn)
  rw [Nat.cast_one, one_mul, Nat.cast_mul, mul_div_cancel_right₀ _ unitsPerOne_ne_zero,
    signOne_natAbs]

end Binary64
end Reckoner
