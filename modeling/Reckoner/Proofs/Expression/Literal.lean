import Reckoner.Expression.Lexer
import Reckoner.Proofs.Binary64.Shortest
import Reckoner.Proofs.Text.Numeral

/-!
Numerals of the expression language: the runs that may be a token, the numbers they denote, and the
literals of the numbers that are not negative.
-/

namespace Reckoner
open Text

namespace Token

/-- Digits with at most one point among or around them. -/
inductive Numeral : List Char → Prop where
  | whole {ds : List Char} (hd : ∀ c ∈ ds, isDigit c = true) (hne : ds ≠ []) : Numeral ds
  | pointed {ds fs : List Char} (hd : ∀ c ∈ ds, isDigit c = true) (hf : ∀ c ∈ fs, isDigit c = true)
      (hne : ds ++ fs ≠ []) : Numeral (ds ++ '.' :: fs)

def numericChars : List Char :=
  ['.', '0', '1', '2', '3', '4', '5', '6', '7', '8', '9']

theorem mem_numericChars {c : Char} (h : isNumeric c = true) : c ∈ numericChars := by
  cases Bool.or_eq_true _ _ ▸ h with
  | inl h =>
    rw [← digitChar_digitValue h]
    have : ∀ d : Fin 10, digitChar d ∈ numericChars := by decide
    exact this ⟨digitValue c, digitValue_lt h⟩
  | inr h =>
    rw [eq_of_beq h]
    decide

theorem forall_numeric (P : Char → Prop) [DecidablePred P] (hP : numericChars.all (P ·) = true)
    {run : List Char} (h : ∀ c ∈ run, isNumeric c = true) : ∀ c ∈ run, P c :=
  fun c hc => forall_mem_of_all P hP c (mem_numericChars (h c hc))

theorem isNumeric_of_isDigit {c : Char} (h : isDigit c = true) : isNumeric c = true := by
  simp [isNumeric, h]

theorem isDigit_of_ne_point {c : Char} (h : isNumeric c = true) (hc : c ≠ '.') :
    isDigit c = true := by
  simpa [isNumeric, hc] using h

theorem ne_point_of_isDigit {c : Char} (h : isDigit c = true) : c ≠ '.' := by
  rintro rfl
  exact absurd h (by decide)

namespace Numeral

variable {run : List Char}

theorem ne_nil (h : Numeral run) : run ≠ [] := by
  cases h with
  | whole hd hne => exact hne
  | pointed hd hf hne => simp

theorem numeric (h : Numeral run) : ∀ c ∈ run, isNumeric c = true := by
  cases h with
  | whole hd hne => exact fun c hc => isNumeric_of_isDigit (hd c hc)
  | @pointed ds fs hd hf hne =>
    intro c hc
    rcases List.mem_append.mp hc with hc | hc
    · exact isNumeric_of_isDigit (hd c hc)
    · rcases List.mem_cons.mp hc with rfl | hc
      · decide
      · exact isNumeric_of_isDigit (hf c hc)

end Numeral

theorem takeWhile_digits {ds : List Char} (hd : ∀ c ∈ ds, isDigit c = true) (cs : List Char) :
    (ds ++ '.' :: cs).takeWhile (· != '.') = ds := by
  rw [List.takeWhile_append_of_pos]
  · simp
  · intro c hc
    simpa using ne_point_of_isDigit (hd c hc)

theorem misplacedPoint?_whole {ds : List Char} (hd : ∀ c ∈ ds, isDigit c = true) :
    misplacedPoint? ds = none := by
  have hne : ds ≠ ['.'] := by
    rintro rfl
    exact absurd (hd '.' List.mem_cons_self) (by decide)
  have hall : ds.takeWhile (· != '.') = ds :=
    List.takeWhile_eq_self_iff.mpr fun c hc => by simpa using ne_point_of_isDigit (hd c hc)
  have hdrop : ds.drop (ds.length + 1) = [] := List.drop_eq_nil_of_le (Nat.le_succ _)
  simp [misplacedPoint?, hne, hall, hdrop]

theorem misplacedPoint?_pointed {ds : List Char} (hd : ∀ c ∈ ds, isDigit c = true)
    (cs : List Char) : misplacedPoint? (ds ++ '.' :: cs) =
      if ds ++ cs = [] then some 0
      else (cs.findIdx? (· == '.')).map (ds.length + 1 + ·) := by
  have hlone : ds ++ '.' :: cs = ['.'] ↔ ds ++ cs = [] := by
    cases ds <;> simp
  have hdrop : (ds ++ '.' :: cs).drop (ds.length + 1) = cs := by
    rw [← List.drop_drop, List.drop_left]
    rfl
  simp only [misplacedPoint?, takeWhile_digits hd, hlone, hdrop]

theorem Numeral.misplacedPoint? {run : List Char} (h : Numeral run) : misplacedPoint? run = none := by
  cases h with
  | whole hd hne => exact misplacedPoint?_whole hd
  | pointed hd hf hne =>
    rw [misplacedPoint?_pointed hd, if_neg hne, Option.map_eq_none_iff, List.findIdx?_eq_none_iff]
    intro c hc
    simpa using ne_point_of_isDigit (hf c hc)

theorem numeral_iff {run : List Char} (hne : run ≠ []) (hrun : ∀ c ∈ run, isNumeric c = true) :
    Numeral run ↔ Token.misplacedPoint? run = none := by
  refine ⟨Numeral.misplacedPoint?, fun h => ?_⟩
  have hdigit : ∀ c ∈ run, c ≠ '.' → isDigit c = true := fun c hc => isDigit_of_ne_point (hrun c hc)
  by_cases hp : '.' ∈ run
  · obtain ⟨ds, cs, rfl, hds⟩ := List.eq_append_cons_of_mem hp
    have hd : ∀ c ∈ ds, isDigit c = true := by
      intro c hc
      exact hdigit c (List.mem_append_left _ hc) fun h => hds (h ▸ hc)
    rw [misplacedPoint?_pointed hd] at h
    split at h
    · cases h
    · next hlone =>
      have hcs : ∀ c ∈ cs, c ≠ '.' := by simpa using h
      exact .pointed hd (fun c hc => hdigit c (by simp [hc]) (hcs c hc)) hlone
  · exact .whole (fun c hc => hdigit c hc fun h => hp (h ▸ hc)) hne

end Token

namespace Decimal

variable {ds fs : List Char} (hd : ∀ c ∈ ds, isDigit c = true)

include hd

theorem ofFixed?_whole (hne : ds ≠ []) : ofFixed? ds = some ⟨ofDigits ds, 0⟩ := by
  simp [ofFixed?, List.takeWhile_eq_self_iff.mpr hd, List.dropWhile_eq_nil_iff.mpr hd, hne]

theorem ofFixed?_pointed (hf : ∀ c ∈ fs, isDigit c = true) (hne : ds ++ fs ≠ []) :
    ofFixed? (ds ++ '.' :: fs) = some ⟨ofDigits (ds ++ fs), -(fs.length : Int)⟩ := by
  have hpoint : isDigit '.' = false := by decide
  have htake : (ds ++ '.' :: fs).takeWhile isDigit = ds := by
    rw [List.takeWhile_append_of_pos hd]
    simp [hpoint]
  have hdrop : (ds ++ '.' :: fs).dropWhile isDigit = '.' :: fs := by
    rw [List.dropWhile_append_of_pos hd]
    simp [hpoint]
  have hall : fs.all isDigit = true := List.all_eq_true.mpr hf
  have hempty : ds = [] → fs ≠ [] := by
    rintro rfl
    exact hne
  simpa [ofFixed?, htake, hdrop, hall] using hempty

end Decimal

namespace Binary64

theorem ofText?_numeric {run : List Char} (h : ∀ c ∈ run, Token.isNumeric c = true) :
    ofText? (String.ofList run) = (Decimal.ofFixed? run).map (·.toBinary64 false) := by
  have hspace := Token.forall_numeric (isSpace · = false) rfl h
  have hplus := Token.forall_numeric (· ≠ '+') rfl h
  have hminus := Token.forall_numeric (· ≠ '-') rfl h
  have hscore := Token.forall_numeric (· ≠ '_') rfl h
  have hdigit := Token.forall_numeric (fun c => plainDigit c = c) rfl h
  have hlower := Token.forall_numeric (fun c => c.toLower = c) rfl h
  have hmark := Token.forall_numeric (fun c => (!Decimal.isExponentMark c) = true) rfl h
  have hmap : ∀ f : Char → Char, (∀ c ∈ run, f c = c) → run.map f = run :=
    fun f hf => (List.map_congr_left hf).trans (List.map_id' run)
  have hword : ∀ word : String, word.toList.all Token.isNumeric = false →
      String.ofList run ≠ word := by
    rintro word hw rfl
    rw [String.toList_ofList, List.all_eq_true.mpr h] at hw
    cases hw
  have hplain : plainNumeral (String.ofList run) = run := by
    rw [plainNumeral, String.toList_ofList, trim_eq_self hspace, hmap _ hdigit]
  rw [ofText?, hplain, dropUnderscores_eq_self hscore, Option.bind_some, ofNumeral?,
    splitSign_eq_self hminus hplus]
  simp only [hmap _ hlower]
  rw [if_neg (not_or.mpr ⟨hword _ (by decide), hword _ (by decide)⟩), if_neg (hword _ (by decide)),
    Decimal.ofNumeral?, List.takeWhile_eq_self_iff.mpr hmark,
    List.dropWhile_eq_nil_iff.mpr hmark]
  cases Decimal.ofFixed? run with
  | none => rfl
  | some d => simp [Decimal.exponent?]

theorem ofText?_numeral {run : List Char} (h : Token.Numeral run) :
    ∃ d : Decimal, ofText? (String.ofList run) = some (d.toBinary64 false) := by
  rw [ofText?_numeric h.numeric]
  cases h with
  | whole hd hne => exact ⟨_, by rw [Decimal.ofFixed?_whole hd hne]; rfl⟩
  | pointed hd hf hne => exact ⟨_, by rw [Decimal.ofFixed?_pointed hd hf hne]; rfl⟩

end Binary64

/-! The decimal notation without an exponent. -/

namespace Decimal

theorem plain_whole {d : Decimal} (h : 0 ≤ d.exponent) :
    d.plain.toList ≠ [] ∧ (∀ c ∈ d.plain.toList, isDigit c = true) ∧
      ofDigits d.plain.toList = d.digits * 10 ^ d.exponent.toNat := by
  have hp : d.plain.toList = Text.digits d.digits ++ List.replicate d.exponent.toNat '0' := by
    simp [plain, h, zerosText]
  rw [hp, ofDigits_append_zeros, ofDigits_digits]
  refine ⟨List.append_ne_nil_of_left_ne_nil (digits_ne_nil _) _, ?_, rfl⟩
  intro c hc
  rcases List.mem_append.mp hc with hc | hc
  · exact isDigit_of_mem_digits hc
  · rw [List.eq_of_mem_replicate hc]
    decide

theorem plain_pointed {d : Decimal} (h : d.exponent < 0) :
    ∃ ws fs : List Char, d.plain.toList = ws ++ '.' :: fs ∧ ws ≠ [] ∧ fs ≠ [] ∧
      (∀ c ∈ ws, isDigit c = true) ∧ (∀ c ∈ fs, isDigit c = true) ∧
      ofDigits (ws ++ fs) = d.digits ∧ -(fs.length : Int) = d.exponent := by
  have hne := digits_ne_nil d.digits
  have hvalue := ofDigits_digits d.digits
  have hdigit : ∀ c ∈ Text.digits d.digits, isDigit c = true := fun c => isDigit_of_mem_digits
  simp only [plain, if_neg (Int.not_le.mpr h)]
  generalize Text.digits d.digits = ds at *
  have hlen := List.length_pos_iff.mpr hne
  have hzero : isDigit '0' = true := by decide
  refine ⟨_, _, String.toList_ofList, ?_⟩
  by_cases hp : (-d.exponent).toNat < ds.length
  · have hk : (-d.exponent).toNat - ds.length = 0 := by omega
    simp only [if_pos hp, hk, List.replicate_zero, List.nil_append]
    refine ⟨?_, ?_, fun c hc => hdigit c (List.mem_of_mem_take hc),
      fun c hc => hdigit c (List.mem_of_mem_drop hc), by rw [List.take_append_drop, hvalue], ?_⟩
    · rw [← List.length_pos_iff, List.length_take]
      omega
    · rw [← List.length_pos_iff, List.length_drop]
      omega
    · rw [List.length_drop]
      omega
  · have hk : ds.length - (-d.exponent).toNat = 0 := by omega
    simp only [if_neg hp, hk, List.drop_zero]
    refine ⟨List.cons_ne_nil _ _, List.append_ne_nil_of_right_ne_nil _ hne, ?_, ?_, ?_, ?_⟩
    · intro c hc
      rwa [List.mem_singleton.mp hc]
    · intro c hc
      rcases List.mem_append.mp hc with hc | hc
      · rwa [List.eq_of_mem_replicate hc]
      · exact hdigit c hc
    · have hz := ofDigits_zeros_append ((-d.exponent).toNat - ds.length + 1) ds
      rwa [hvalue] at hz
    · rw [List.length_append, List.length_replicate]
      omega

theorem numeral_plain (d : Decimal) : Token.Numeral d.plain.toList := by
  by_cases h : 0 ≤ d.exponent
  · obtain ⟨hne, hd, -⟩ := plain_whole h
    exact .whole hd hne
  · obtain ⟨ws, fs, hp, hw, -, hws, hfs, -⟩ := plain_pointed (Int.not_le.mp h)
    rw [hp]
    exact .pointed hws hfs (List.append_ne_nil_of_left_ne_nil hw _)

theorem ofText?_plain (d : Decimal) : Binary64.ofText? d.plain = some (d.toBinary64 false) := by
  rw [← String.ofList_toList (s := d.plain), Binary64.ofText?_numeric d.numeral_plain.numeric]
  by_cases h : 0 ≤ d.exponent
  · obtain ⟨hne, hd, hv⟩ := plain_whole h
    have he : (0 : Int) + d.exponent.toNat = d.exponent := by omega
    rw [ofFixed?_whole hd hne, hv, Option.map_some, toBinary64_zeros, he]
  · obtain ⟨ws, fs, hp, hw, -, hws, hfs, hd, he⟩ := plain_pointed (Int.not_le.mp h)
    rw [hp, ofFixed?_pointed hws hfs (List.append_ne_nil_of_left_ne_nil hw _), hd, he]
    rfl

end Decimal

namespace Binary64

def Unsigned : Binary64 → Prop
  | .finite negative _ => negative = false
  | .infinite negative => negative = false
  | .nan => False

theorem Unsigned.eq_infinite {x : Binary64} (hx : x.Unsigned) (hf : x.isFinite = false) :
    x = .infinite false := by
  cases x with
  | finite negative code => cases hf
  | infinite negative =>
    cases hx
    rfl
  | nan => cases hx

theorem unsigned_toBinary64 (d : Decimal) : (d.toBinary64 false).Unsigned := by
  rw [Decimal.toBinary64_eq, ofUnits]
  split
  · rfl
  · rfl

theorem numeral_natText (n : Nat) : Token.Numeral (natText n).toList := by
  rw [natText, String.toList_ofList]
  exact .whole (fun c hc => isDigit_of_mem_digits hc) (digits_ne_nil n)

theorem ofText?_natText (n : Nat) : ofText? (natText n) = some (ofUnits false (n * unitsPerOne) 1) := by
  have hd : ∀ c ∈ digits n, isDigit c = true := fun c => isDigit_of_mem_digits
  rw [natText, ofText?_numeric fun c hc => Token.isNumeric_of_isDigit (hd c hc),
    Decimal.ofFixed?_whole hd (digits_ne_nil n), ofDigits_digits, Option.map_some,
    Decimal.toBinary64_eq, Decimal.unitRatio_eq]
  simp

theorem literal_cases (code : Fin magnitudeCount) :
    (∃ n, units code = n * unitsPerOne ∧ (finite false code).literal = natText n) ∨
      (finite false code).literal = (shortest code).plain := by
  by_cases h : units code % unitsPerOne = 0
  · refine .inl ⟨units code / unitsPerOne, (Nat.div_mul_cancel (Nat.dvd_of_mod_eq_zero h)).symm, ?_⟩
    have hi : (finite false code).toInt? = some (Int.ofNat (units code / unitsPerOne)) := by
      rw [toInt?, if_pos h]
      rfl
    unfold literal
    rw [hi]
    rfl
  · have hi : (finite false code).toInt? = none := by
      rw [toInt?, if_neg h]
    refine .inr ?_
    unfold literal
    rw [hi]
    rfl

theorem literal_numeral {x : Binary64} (hx : x.Unsigned) (hf : x.isFinite = true) :
    Token.Numeral x.literal.toList ∧ ofText? x.literal = some x := by
  cases x with
  | finite negative code =>
    cases hx
    rcases literal_cases code with ⟨n, hn, hl⟩ | hl
    · rw [hl, ofText?_natText, ← hn, ofUnits_units]
      exact ⟨numeral_natText n, rfl⟩
    · rw [hl, Decimal.ofText?_plain, toBinary64_shortest]
      exact ⟨Decimal.numeral_plain _, rfl⟩
  | infinite negative => cases hf
  | nan => cases hf

theorem literal_negativeZero : (zero true).literal = (zero false).literal := by
  decide +kernel

theorem literal_negative {code : Fin magnitudeCount} (h : code.val ≠ 0) :
    (finite true code).literal = "-" ++ (finite false code).literal := by
  by_cases hwhole : units code % unitsPerOne = 0
  · obtain ⟨n, hn⟩ : ∃ n, units code / unitsPerOne = n + 1 := by
      have hle := Nat.le_of_dvd (units_pos h) (Nat.dvd_of_mod_eq_zero hwhole)
      have hpos : 0 < unitsPerOne := by decide +kernel
      exact Nat.exists_eq_add_one_of_ne_zero (Nat.ne_of_gt (Nat.div_pos hle hpos))
    have hint : ∀ s, (finite s code).toInt? =
        some (if s then -((n + 1 : Nat) : Int) else ((n + 1 : Nat) : Int)) := by
      intro s
      rw [toInt?, if_pos hwhole, ← Int.natCast_ediv, hn]
    unfold literal
    rw [hint, hint]
    rfl
  · have hint : ∀ s, (finite s code).toInt? = none := by
      intro s
      rw [toInt?, if_neg hwhole]
    unfold literal
    rw [hint, hint]
    rfl

end Binary64
end Reckoner
