import Reckoner.Binary64.Shortest
import Reckoner.Proofs.Binary64.Rounding

/-!
The number that a decimal denotes depends on its value alone, and the shortest decimal of a magnitude
denotes that magnitude.
-/

namespace Reckoner

namespace Binary64

theorem nearest_tiny {n d : Nat} (h : 2 * n < d) : nearest n d = 0 := by
  have hd : n / d = 0 := Nat.div_eq_of_lt (by omega)
  have hm : n % d = n := Nat.mod_eq_of_lt (by omega)
  simp [nearest, roundHalfEven, hd, hm, h]

theorem units_pos {code : Nat} (h : code ≠ 0) : 0 < units code := by
  refine Nat.pos_of_ne_zero fun hzero => h ?_
  rw [← nearest_units code, hzero]
  exact nearest_tiny Nat.one_pos

theorem div_le_roundHalfEven (n d : Nat) : n / d ≤ roundHalfEven n d := by
  simp only [roundHalfEven]
  split
  · exact Nat.le_refl _
  · exact Nat.le_succ _

theorem magnitudeCount_le_nearest {k n : Nat} (hk : 2098 ≤ k) (hn : 2 ^ k ≤ n) :
    magnitudeCount ≤ nearest n 1 := by
  have hpos : n ≠ 0 := by
    have := Nat.two_pow_pos k
    omega
  obtain ⟨b, hb⟩ : ∃ b, n.log2 = 52 + b := ⟨n.log2 - 52, by
    have := (Nat.le_log2 hpos).mpr hn
    omega⟩
  have hlog : k ≤ 52 + b := hb ▸ (Nat.le_log2 hpos).mpr hn
  have hle : binadeSize * 2 ^ b ≤ n := by
    have := Nat.log2_self_le hpos
    rwa [hb, Nat.pow_add] at this
  have hdiv : binadeSize ≤ n / 2 ^ b := (Nat.le_div_iff_mul_le (Nat.two_pow_pos b)).mpr hle
  have hround := Nat.le_trans hdiv (div_le_roundHalfEven n (2 ^ b))
  have hsub : 52 + b - 52 = b := by omega
  have hbinades : 2046 * binadeSize ≤ b * binadeSize := Nat.mul_le_mul_right _ (by omega)
  have hcount : magnitudeCount = binadeSize + 2046 * binadeSize := by decide
  simp only [nearest, Nat.div_one, hb, hsub, Nat.one_mul, Nat.pow_eq, hcount]
  omega

theorem ofUnits_zero (s : Bool) (d : Nat) : ofUnits s 0 d = zero s := by
  have h : nearest 0 d = 0 := by
    cases d with
    | zero => rfl
    | succ d => exact nearest_tiny (Nat.succ_pos d)
  rw [ofUnits, dif_pos (by rw [h]; decide)]
  simp only [h]
  rfl

end Binary64

namespace Decimal
open Binary64

theorem unitRatio_eq (d : Decimal) :
    d.unitRatio = (d.digits * 10 ^ d.exponent.toNat * unitsPerOne, 10 ^ (-d.exponent).toNat) := by
  unfold unitRatio
  split
  · next h =>
    have : (-d.exponent).toNat = 0 := by omega
    simp [this]
  · next h =>
    have : d.exponent.toNat = 0 := by omega
    simp [this]

theorem nearest_below {m k : Nat} (h : m.log2 + 1 + 324 ≤ k) :
    nearest (m * unitsPerOne) (10 ^ k) = 0 := by
  apply nearest_tiny
  have hu : 2 * unitsPerOne < 10 ^ 324 := by decide +kernel
  have hm : m < 10 ^ (m.log2 + 1) :=
    Nat.lt_of_lt_of_le Nat.lt_log2_self (Nat.pow_le_pow_left (by decide) _)
  calc 2 * (m * unitsPerOne) = m * (2 * unitsPerOne) := by rw [Nat.mul_left_comm]
    _ < 10 ^ (m.log2 + 1) * 10 ^ 324 := Nat.mul_lt_mul'' hm hu
    _ = 10 ^ (m.log2 + 1 + 324) := (Nat.pow_add 10 (m.log2 + 1) 324).symm
    _ ≤ 10 ^ k := Nat.pow_le_pow_right (by decide) h

theorem magnitudeCount_le_above {m k : Nat} (hm : m ≠ 0) (h : 310 ≤ k) :
    magnitudeCount ≤ nearest (m * 10 ^ k * unitsPerOne) 1 := by
  have hu : 2 ^ 2098 ≤ 10 ^ 310 * unitsPerOne := by decide +kernel
  refine magnitudeCount_le_nearest (Nat.le_refl 2098) (Nat.le_trans hu ?_)
  apply Nat.mul_le_mul_right
  calc 10 ^ 310 ≤ 10 ^ k := Nat.pow_le_pow_right (by decide) h
    _ ≤ m * 10 ^ k := Nat.le_mul_of_pos_left _ (Nat.pos_of_ne_zero hm)

/-- The bounds on the exponent only save work. -/
theorem toBinary64_eq (d : Decimal) (s : Bool) :
    d.toBinary64 s = ofUnits s d.unitRatio.1 d.unitRatio.2 := by
  rw [unitRatio_eq, toBinary64]
  split
  · next h =>
    by_cases hm : d.digits = 0
    · simp [hm, ofUnits_zero]
    · have he : d.exponent + d.digits.log2 + 1 ≤ -324 := h.resolve_left hm
      have ht : d.exponent.toNat = 0 := by omega
      have hz : nearest (d.digits * unitsPerOne) (10 ^ (-d.exponent).toNat) = 0 :=
        nearest_below (by omega)
      simp only [ht, Nat.pow_zero, Nat.mul_one]
      rw [ofUnits, dif_pos (by rw [hz]; decide)]
      simp only [hz]
      rfl
  · next h =>
    split
    · next he =>
      have ht : (-d.exponent).toNat = 0 := by omega
      have hge := magnitudeCount_le_above (m := d.digits) (fun hm => h (.inl hm))
        (show 310 ≤ d.exponent.toNat by omega)
      simp only [ht, Nat.pow_zero]
      rw [ofUnits, dif_neg (Nat.not_lt.mpr hge)]
    · rw [unitRatio_eq]

theorem toBinary64_congr {d d' : Decimal}
    (h : d.digits * 10 ^ d.exponent.toNat * 10 ^ (-d'.exponent).toNat =
      d'.digits * 10 ^ d'.exponent.toNat * 10 ^ (-d.exponent).toNat) (s : Bool) :
    d.toBinary64 s = d'.toBinary64 s := by
  rw [toBinary64_eq, toBinary64_eq, unitRatio_eq, unitRatio_eq]
  apply ofUnits_congr (Nat.pow_pos (by decide)) (Nat.pow_pos (by decide))
  rw [Nat.mul_right_comm, h, Nat.mul_right_comm]

theorem toBinary64_zeros (m k : Nat) (e : Int) (s : Bool) :
    (⟨m * 10 ^ k, e⟩ : Decimal).toBinary64 s = (⟨m, e + k⟩ : Decimal).toBinary64 s := by
  apply toBinary64_congr
  have h : k + e.toNat + (-(e + k)).toNat = (e + k).toNat + (-e).toNat := by omega
  simp only [Nat.mul_assoc, ← Nat.pow_add]
  rw [← h, Nat.add_assoc]

theorem toBinary64_trimmed (d : Decimal) (s : Bool) : d.trimmed.toBinary64 s = d.toBinary64 s := by
  fun_induction trimmed d with
  | case1 d h ih =>
    have hd : d.digits / 10 * 10 ^ 1 = d.digits := by omega
    have hz := toBinary64_zeros (d.digits / 10) 1 d.exponent s
    rw [hd] at hz
    exact ih.trans hz.symm
  | case2 d h => rfl

end Decimal

namespace Binary64

theorem toBinary64_onGrid {code : Fin magnitudeCount} {e : Int} {d : Decimal}
    (h : onGrid? code e = some d) : d.toBinary64 false = .finite false code := by
  have hr : ∀ d, readsBack code d = true → d.toBinary64 false = .finite false code := by
    intro d hd
    exact eq_of_beq hd
  simp only [onGrid?] at h
  split at h
  · next hbelow habove =>
    split at h
    · cases h
      exact hr _ hbelow
    · cases h
      exact hr _ habove
  · next hbelow habove =>
    cases h
    exact hr _ hbelow
  · next hbelow habove =>
    cases h
    exact hr _ habove
  · cases h

/-- The units are a power of two, so that every magnitude is a decimal of as many places. -/
theorem toBinary64_places {k : Nat} (hk : unitsPerOne = 2 ^ k) {e : Int} (he : e = -(k : Int))
    (s : Bool) (u : Nat) : (⟨u * Nat.pow 5 k, e⟩ : Decimal).toBinary64 s = ofUnits s u 1 := by
  have hneg : e.toNat = 0 := by omega
  have hpos : (-e).toNat = k := by omega
  rw [Decimal.toBinary64_eq, Decimal.unitRatio_eq]
  simp only [hneg, hpos, hk, Nat.pow_zero, Nat.mul_one]
  apply ofUnits_congr (Nat.pow_pos (by decide)) Nat.one_pos
  rw [Nat.pow_eq, Nat.mul_one, Nat.mul_assoc, ← Nat.mul_pow]

theorem toBinary64_exactDecimal (code : Fin magnitudeCount) :
    (exactDecimal code).toBinary64 false = .finite false code := by
  have hk : unitsPerOne = 2 ^ 1074 := by decide +kernel
  have he : (-1074 : Int) = -((1074 : Nat) : Int) := rfl
  rw [exactDecimal, toBinary64_places hk he, ofUnits_units]

theorem toBinary64_shortest (code : Fin magnitudeCount) :
    (shortest code).toBinary64 false = .finite false code := by
  unfold shortest
  split
  · next h =>
    rw [Decimal.toBinary64_eq, Decimal.unitRatio_eq]
    simp only [Nat.zero_mul, ofUnits_zero]
    rw [zero]
    congr 1
    exact Fin.ext h.symm
  · next h =>
    rw [Decimal.toBinary64_trimmed]
    cases hf : (List.range 17).findSome? fun i =>
        onGrid? code (decimalBound (units code) - (i + 1 : Nat)) with
    | none => exact toBinary64_exactDecimal code
    | some d =>
      obtain ⟨i, -, hi⟩ := List.exists_of_findSome?_eq_some hf
      exact toBinary64_onGrid hi

end Binary64
end Reckoner
