import Mathlib.Algebra.Group.Nat.Defs
import Mathlib.Data.List.Basic
import Mathlib.Data.List.Induction
import Mathlib.Data.List.TakeWhile
import Reckoner.Text.Numeral

/-!
Decimal digits: what is written is read back. Texts without blanks, signs and underscores are read as
they stand.
-/

namespace Reckoner.Text

theorem isDigit_digitChar {d : Nat} (h : d < 10) : isDigit (digitChar d) = true := by
  have : ∀ d : Fin 10, isDigit (digitChar d) = true := by decide
  exact this ⟨d, h⟩

theorem digitValue_digitChar {d : Nat} (h : d < 10) : digitValue (digitChar d) = d := by
  have : ∀ d : Fin 10, digitValue (digitChar d) = d := by decide
  exact this ⟨d, h⟩

theorem toNat_of_isDigit {c : Char} (h : isDigit c = true) :
    digitValue c < 10 ∧ c.toNat = 0x30 + digitValue c := by
  simp only [isDigit, Bool.and_eq_true, decide_eq_true_eq, Char.le_def, UInt32.le_iff_toNat_le] at h
  have h0 : 0x30 ≤ c.toNat := h.1
  have h9 : c.toNat ≤ 0x39 := h.2
  unfold digitValue
  omega

theorem digitValue_lt {c : Char} (h : isDigit c = true) : digitValue c < 10 :=
  (toNat_of_isDigit h).1

theorem digitChar_digitValue {c : Char} (h : isDigit c = true) : digitChar (digitValue c) = c := by
  rw [digitChar, ← (toNat_of_isDigit h).2, Char.ofNat_toNat]

/-- A property of characters is decided over a list of them. -/
theorem forall_mem_of_all (P : Char → Prop) [DecidablePred P] {cs : List Char}
    (h : cs.all (P ·) = true) : ∀ c ∈ cs, P c :=
  fun c hc => of_decide_eq_true (List.all_eq_true.mp h c hc)

theorem ne_of_isDigit {c d : Char} (hc : isDigit c = true) (hd : isDigit d = false) : c ≠ d := by
  rintro rfl
  rw [hc] at hd
  cases hd

theorem digits_ne_nil (n : Nat) : digits n ≠ [] := by
  rw [digits]
  split
  · simp
  · simp

theorem isDigit_of_mem_digits {n : Nat} {c : Char} (h : c ∈ digits n) : isDigit c = true := by
  induction n using Nat.strongRecOn with
  | ind n ih =>
    rw [digits] at h
    split at h
    · next hn =>
      rw [List.mem_singleton.mp h]
      exact isDigit_digitChar hn
    · next hn =>
      cases List.mem_append.mp h with
      | inl h => exact ih (n / 10) (by omega) h
      | inr h =>
        rw [List.mem_singleton.mp h]
        exact isDigit_digitChar (Nat.mod_lt n (by decide))

def NoLeadingZero (ds : List Char) : Prop :=
  ds = ['0'] ∨ ds.head? ≠ some '0'

theorem digits_head_ne_zero {n : Nat} (h : 0 < n) : (digits n).head? ≠ some '0' := by
  induction n using Nat.strongRecOn with
  | ind n ih =>
    rw [digits]
    split
    · next hn =>
      have : ∀ d : Fin 10, 0 < d.val → [digitChar d].head? ≠ some '0' := by decide
      exact this ⟨n, hn⟩ h
    · next hn =>
      rw [List.head?_append_of_ne_nil _ (digits_ne_nil _)]
      exact ih (n / 10) (by omega) (by omega)

theorem noLeadingZero_digits (n : Nat) : NoLeadingZero (digits n) := by
  cases Nat.eq_zero_or_pos n with
  | inl h =>
    rw [h]
    exact .inl (by rw [digits]; rfl)
  | inr h => exact .inr (digits_head_ne_zero h)

theorem ofDigits_concat (ds : List Char) (c : Char) :
    ofDigits (ds ++ [c]) = 10 * ofDigits ds + digitValue c := by
  simp [ofDigits]

@[simp]
theorem ofDigits_digits (n : Nat) : ofDigits (digits n) = n := by
  induction n using Nat.strongRecOn with
  | ind n ih =>
    rw [digits]
    split
    · next hn => simp [ofDigits, digitValue_digitChar hn]
    · next hn =>
      rw [ofDigits_concat, ih (n / 10) (by omega), digitValue_digitChar (Nat.mod_lt n (by decide))]
      omega

theorem ofDigits_lt {ds : List Char} (hd : ∀ c ∈ ds, isDigit c = true) :
    ofDigits ds < 10 ^ ds.length := by
  induction ds using List.reverseRecOn with
  | nil => decide
  | append_singleton ds c ih =>
    rw [List.forall_mem_append, List.forall_mem_singleton] at hd
    have hds := ih hd.1
    have hc := digitValue_lt hd.2
    rw [ofDigits_concat, List.length_append, List.length_singleton, Nat.pow_succ]
    omega

theorem lt_length_digits {k n : Nat} (h : 10 ^ k ≤ n) : k < (digits n).length := by
  have hn := ofDigits_lt fun c (hc : c ∈ digits n) => isDigit_of_mem_digits hc
  rw [ofDigits_digits] at hn
  exact (Nat.pow_lt_pow_iff_right (by decide)).mp (Nat.lt_of_le_of_lt h hn)

theorem ofDigits_zeros_append (k : Nat) (ds : List Char) :
    ofDigits (List.replicate k '0' ++ ds) = ofDigits ds := by
  induction k with
  | zero => rfl
  | succ k ih =>
    rw [List.replicate_succ, List.cons_append]
    exact ih

theorem ofDigits_append_zeros (ds : List Char) (k : Nat) :
    ofDigits (ds ++ List.replicate k '0') = ofDigits ds * 10 ^ k := by
  induction k with
  | zero => simp
  | succ k ih =>
    have hz : digitValue '0' = 0 := rfl
    rw [List.replicate_succ', ← List.append_assoc, ofDigits_concat, ih, hz, Nat.pow_succ,
      Nat.add_zero, Nat.mul_comm 10, Nat.mul_assoc]

/-! Numbers of a fixed width. -/

section Padded

variable {width n : Nat}

theorem padded_toList (width n : Nat) :
    (padded width n).toList = List.replicate (width - (digits n).length) '0' ++ digits n := by
  rw [padded, String.toList_ofList]

theorem isDigit_of_mem_padded {c : Char} (h : c ∈ (padded width n).toList) : isDigit c = true := by
  rw [padded_toList] at h
  cases List.mem_append.mp h with
  | inl h =>
    rw [List.eq_of_mem_replicate h]
    decide
  | inr h => exact isDigit_of_mem_digits h

theorem padded_ne_nil : (padded width n).toList ≠ [] := by
  rw [padded_toList]
  exact List.append_ne_nil_of_right_ne_nil _ (digits_ne_nil n)

@[simp]
theorem ofDigits_padded : ofDigits (padded width n).toList = n := by
  rw [padded_toList, ofDigits_zeros_append, ofDigits_digits]

theorem length_digits_le (hw : 0 < width) (h : n < 10 ^ width) : (digits n).length ≤ width := by
  induction width generalizing n with
  | zero => cases hw
  | succ width ih =>
    rw [digits]
    split
    · exact hw
    · next hn =>
      have hdiv : n / 10 < 10 ^ width := by
        rw [Nat.pow_succ] at h
        omega
      have hw : 0 < width := by
        cases width with
        | zero => simp at hdiv; omega
        | succ width => exact Nat.succ_pos width
      rw [List.length_append]
      exact Nat.succ_le_succ (ih hw hdiv)

theorem length_padded (hw : 0 < width) (h : n < 10 ^ width) :
    (padded width n).toList.length = width := by
  have := length_digits_le hw h
  rw [padded_toList, List.length_append, List.length_replicate]
  omega

end Padded

section Bare

variable {p : Char → Bool} {cs : List Char}

theorem dropWhile_eq_self (h : ∀ c ∈ cs.head?, p c = false) : cs.dropWhile p = cs := by
  cases cs with
  | nil => rfl
  | cons c cs => exact List.dropWhile_cons_of_neg (by simp [h c rfl])

theorem trim_append {before after : List Char} (hb : ∀ c ∈ before, p c = true)
    (ha : ∀ c ∈ after, p c = true) (hne : cs ≠ []) (hhead : ∀ c ∈ cs.head?, p c = false)
    (hlast : ∀ c ∈ cs.getLast?, p c = false) : trim p (before ++ cs ++ after) = cs := by
  have hfront : (cs ++ after).dropWhile p = cs ++ after := by
    refine dropWhile_eq_self fun c hc => hhead c ?_
    rwa [List.head?_append_of_ne_nil _ hne] at hc
  have hback : cs.reverse.dropWhile p = cs.reverse := by
    refine dropWhile_eq_self fun c hc => hlast c ?_
    rwa [List.head?_reverse] at hc
  rw [trim, trimEnd, List.append_assoc, List.dropWhile_append_of_pos hb, hfront,
    List.reverse_append, List.dropWhile_append_of_pos fun c hc => ha c (List.mem_reverse.mp hc),
    hback, List.reverse_reverse]

theorem trim_eq_self (h : ∀ c ∈ cs, p c = false) : trim p cs = cs := by
  cases cs with
  | nil => rfl
  | cons c cs =>
    have htrim := trim_append (List.forall_mem_nil _) (List.forall_mem_nil _) (List.cons_ne_nil c cs)
      (fun d hd => h d (List.mem_of_mem_head? hd)) fun d hd => h d (List.mem_of_getLast? hd)
    rwa [List.nil_append, List.append_nil] at htrim

theorem dropUnderscores_eq_self (h : ∀ c ∈ cs, c ≠ '_') : dropUnderscores cs = some cs := by
  fun_induction dropUnderscores cs with
  | case1 => rfl
  | case2 cs => exact absurd rfl (h '_' List.mem_cons_self)
  | case3 c hc => rfl
  | case4 c d cs hc hd ih => exact absurd rfl (h '_' (by simp))
  | case5 c d cs hc hd => exact absurd rfl (h '_' (by simp))
  | case6 c d cs hc hd ih =>
    rw [ih fun e he => h e (List.mem_cons_of_mem c he)]
    rfl

theorem splitSign_cons {c : Char} (hm : c ≠ '-') (hp : c ≠ '+') :
    splitSign (c :: cs) = (false, c :: cs) := by
  unfold splitSign
  split
  · simp_all
  · simp_all
  · rfl

theorem splitSign_eq_self (hm : ∀ c ∈ cs, c ≠ '-') (hp : ∀ c ∈ cs, c ≠ '+') :
    splitSign cs = (false, cs) := by
  cases cs with
  | nil => rfl
  | cons c cs => exact splitSign_cons (hm c List.mem_cons_self) (hp c List.mem_cons_self)

end Bare

end Reckoner.Text
