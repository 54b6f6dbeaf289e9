import Reckoner.Proofs.Expression.Literal

/-!
The shortest text of a number: its parts, and the decimal that they denote.
-/

namespace Reckoner
open Text

inductive FractionText : List Char → Prop where
  | none : FractionText []
  | digits {fs : List Char} (hf : ∀ c ∈ fs, isDigit c = true) (hne : fs ≠ []) :
      FractionText ('.' :: fs)

theorem FractionText.numeric {f : List Char} (h : FractionText f) :
    ∀ c ∈ f, Token.isNumeric c = true := by
  cases h with
  | none => simp
  | digits hf hne =>
    rw [List.forall_mem_cons]
    exact ⟨by decide, fun c hc => Token.isNumeric_of_isDigit (hf c hc)⟩

inductive ExponentText : List Char → Prop where
  | none : ExponentText []
  | digits {sign : Char} (hs : sign = '+' ∨ sign = '-') {es : List Char}
      (he : ∀ c ∈ es, isDigit c = true) (hne : es ≠ []) : ExponentText ('e' :: sign :: es)

/-- The parts of a number without its sign. -/
structure NumberText (whole fraction exponent : List Char) : Prop where
  wholeDigits : ∀ c ∈ whole, isDigit c = true
  wholeNonempty : whole ≠ []
  leading : NoLeadingZero whole
  fractionText : FractionText fraction
  exponentText : ExponentText exponent

namespace Decimal

variable {d : Decimal}

/-! Reading a numeral with an exponent and one without. -/

theorem isExponentMark_of_isNumeric {cs : List Char} (h : ∀ c ∈ cs, Token.isNumeric c = true) :
    ∀ c ∈ cs, (!isExponentMark c) = true :=
  Token.forall_numeric (fun c => (!isExponentMark c) = true) rfl h

theorem ofNumeral?_fixed {cs : List Char} (h : ∀ c ∈ cs, Token.isNumeric c = true) :
    ofNumeral? cs = ofFixed? cs := by
  have hm := isExponentMark_of_isNumeric h
  rw [ofNumeral?, List.takeWhile_eq_self_iff.mpr hm, List.dropWhile_eq_nil_iff.mpr hm]
  cases ofFixed? cs with
  | none => rfl
  | some d => simp [exponent?]

theorem ofNumeral?_exponent {cs es : List Char} (h : ∀ c ∈ cs, Token.isNumeric c = true)
    {k : Int} (hk : exponent? ('e' :: es) = some k) :
    ofNumeral? (cs ++ 'e' :: es) = (ofFixed? cs).map fun d => ⟨d.digits, d.exponent + k⟩ := by
  have hm := isExponentMark_of_isNumeric h
  have he : (!isExponentMark 'e') = false := rfl
  have htake : (cs ++ 'e' :: es).takeWhile (!isExponentMark ·) = cs := by
    rw [List.takeWhile_append_of_pos hm, List.takeWhile_cons, he]
    simp
  have hdrop : (cs ++ 'e' :: es).dropWhile (!isExponentMark ·) = 'e' :: es := by
    rw [List.dropWhile_append_of_pos hm, List.dropWhile_cons, he]
    simp
  rw [ofNumeral?, htake, hdrop, hk]
  cases ofFixed? cs with
  | none => rfl
  | some d => rfl

theorem exponent?_signed {es : List Char} (he : ∀ c ∈ es, isDigit c = true) (hne : es ≠ [])
    (negative : Bool) :
    exponent? ('e' :: (if negative then '-' else '+') :: es) =
      some (if negative then -(ofDigits es : Int) else ofDigits es) := by
  have hall : es.all isDigit = true := List.all_eq_true.mpr he
  cases negative with
  | false => simp [exponent?, splitSign, hne, hall]
  | true => simp [exponent?, splitSign, hne, hall]

/-! The three forms of the shortest text. -/

theorem noLeadingZero_take {ds : List Char} (h : NoLeadingZero ds) {k : Nat} (hk : 0 < k)
    (hlen : k < ds.length ∨ k = 1) : NoLeadingZero (ds.take k) := by
  cases ds with
  | nil => exact .inr (by simp)
  | cons c cs =>
    obtain ⟨n, rfl⟩ : ∃ n, k = n + 1 := ⟨k - 1, by omega⟩
    rw [List.take_succ_cons]
    cases h with
    | inr h => exact .inr h
    | inl h =>
      cases h
      refine .inl ?_
      simp

theorem plain_leading_whole (he : 0 ≤ d.exponent) (h : d.digits = 0 → d.exponent = 0) :
    NoLeadingZero d.plain.toList := by
  have hp : d.plain.toList = Text.digits d.digits ++ List.replicate d.exponent.toNat '0' := by
    simp [plain, he, zerosText]
  rw [hp]
  cases Nat.eq_zero_or_pos d.digits with
  | inl hz =>
    rw [h hz, hz, Text.digits]
    exact .inl rfl
  | inr hpos =>
    refine .inr ?_
    rw [List.head?_append_of_ne_nil _ (digits_ne_nil _)]
    exact digits_head_ne_zero hpos

theorem plain_leading_pointed (he : d.exponent < 0) {ws fs : List Char}
    (hp : d.plain.toList = ws ++ '.' :: fs) (hw : ∀ c ∈ ws, isDigit c = true) :
    NoLeadingZero ws := by
  have hws := Token.takeWhile_digits hw fs
  rw [← hp] at hws
  simp only [plain, if_neg (Int.not_le.mpr he), String.toList_ofList] at hws
  subst hws
  by_cases hk : (-d.exponent).toNat < (Text.digits d.digits).length
  · have hdigit : ∀ c ∈ (Text.digits d.digits).take ((Text.digits d.digits).length -
        (-d.exponent).toNat), isDigit c = true :=
      fun c hc => isDigit_of_mem_digits (List.mem_of_mem_take hc)
    rw [if_pos hk, Token.takeWhile_digits hdigit]
    exact noLeadingZero_take (noLeadingZero_digits _) (by omega) (.inl (by omega))
  · rw [if_neg hk, Token.takeWhile_digits (List.forall_mem_singleton.mpr rfl)]
    exact .inl rfl

theorem natural_whole (hl : -4 ≤ d.leading ∧ d.leading < 16) (he : 0 ≤ d.exponent) :
    d.natural.toList = d.plain.toList ++ ['.', '0'] := by
  rw [natural, if_pos hl, if_pos he, String.toList_append]
  rfl

theorem natural_pointed (hl : -4 ≤ d.leading ∧ d.leading < 16) (he : d.exponent < 0) :
    d.natural = d.plain := by
  rw [natural, if_pos hl, if_neg (Int.not_le.mpr he)]

theorem natural_scientific (hl : ¬ (-4 ≤ d.leading ∧ d.leading < 16)) :
    d.natural.toList = (Text.digits d.digits).take 1 ++
      ((if (Text.digits d.digits).length ≤ 1 then [] else '.' :: (Text.digits d.digits).drop 1) ++
        'e' :: (if decide (d.leading < 0) then '-' else '+') ::
          (padded 2 d.leading.natAbs).toList) := by
  rw [natural, if_neg hl, scientific]
  by_cases hneg : d.leading < 0
  · simp [hneg]
  · simp [hneg]

theorem fractionText_rest {ds : List Char} (h : ∀ c ∈ ds, isDigit c = true) :
    FractionText (if ds.length ≤ 1 then [] else '.' :: ds.drop 1) := by
  split
  · exact .none
  · next hlen =>
    refine .digits (fun c hc => h c (List.mem_of_mem_drop hc)) ?_
    rw [← List.length_pos_iff, List.length_drop]
    omega

theorem ofFixed?_scientific {ds : List Char} (h : ∀ c ∈ ds, isDigit c = true) (hne : ds ≠ []) :
    ofFixed? (ds.take 1 ++ if ds.length ≤ 1 then [] else '.' :: ds.drop 1) =
      some ⟨ofDigits ds, 1 - (ds.length : Int)⟩ := by
  have htake : ∀ c ∈ ds.take 1, isDigit c = true := fun c hc => h c (List.mem_of_mem_take hc)
  have hpos := List.length_pos_iff.mpr hne
  split
  · next hlen =>
    have hlen : ds.length = 1 := by omega
    rw [List.append_nil, List.take_of_length_le (Nat.le_of_eq hlen), ofFixed?_whole h hne, hlen]
    rfl
  · next hlen =>
    have hrest : ∀ c ∈ ds.drop 1, isDigit c = true := fun c hc => h c (List.mem_of_mem_drop hc)
    have hexp : -((ds.drop 1).length : Int) = 1 - ds.length := by
      rw [List.length_drop]
      omega
    rw [ofFixed?_pointed htake hrest (by rwa [List.take_append_drop]), List.take_append_drop, hexp]

/-- The text has the parts of a number that shows itself not to be whole, and it is read as the same
number as the decimal. -/
def SpelledBy (d : Decimal) (cs : List Char) : Prop :=
  (∃ w f e : List Char, cs = w ++ (f ++ e) ∧ NumberText w f e ∧ (f ≠ [] ∨ e ≠ [])) ∧
    ∃ d', ofNumeral? cs = some d' ∧ ∀ s, d'.toBinary64 s = d.toBinary64 s

theorem spelledBy_whole (he : 0 ≤ d.exponent) (h : d.digits = 0 → d.exponent = 0) :
    d.SpelledBy (d.plain.toList ++ ['.', '0']) := by
  obtain ⟨hw, hd, hv⟩ := plain_whole he
  have hzero : ∀ c ∈ ['0'], isDigit c = true := List.forall_mem_singleton.mpr rfl
  have hws : d.plain.toList ++ ['0'] ≠ [] := List.append_ne_nil_of_left_ne_nil hw _
  have hnumeric := (Token.Numeral.pointed hd hzero hws).numeric
  have hvalue : ofDigits (d.plain.toList ++ ['0']) = d.digits * 10 ^ (d.exponent.toNat + 1) := by
    have hz : digitValue '0' = 0 := rfl
    rw [ofDigits_concat, hv, hz, Nat.add_zero, Nat.mul_comm 10, Nat.mul_assoc, Nat.pow_succ]
  have htext : NumberText d.plain.toList ['.', '0'] [] :=
    ⟨hd, hw, plain_leading_whole he h, .digits hzero (List.cons_ne_nil _ _), .none⟩
  refine ⟨⟨_, _, _, rfl, htext, .inl (List.cons_ne_nil _ _)⟩,
    ⟨d.digits * 10 ^ (d.exponent.toNat + 1), -1⟩, ?_, fun s => ?_⟩
  · rw [ofNumeral?_fixed hnumeric, ofFixed?_pointed hd hzero hws, hvalue]
    rfl
  · have hexp : (-1 : Int) + (d.exponent.toNat + 1 : Nat) = d.exponent := by omega
    rw [toBinary64_zeros, hexp]

theorem spelledBy_pointed (he : d.exponent < 0) : d.SpelledBy d.plain.toList := by
  obtain ⟨ws, fs, hp, hw, hf, hws, hfs, hv, hexp⟩ := plain_pointed he
  have hne : ws ++ fs ≠ [] := List.append_ne_nil_of_left_ne_nil hw _
  have hnumeric := (Token.Numeral.pointed hws hfs hne).numeric
  have htext : NumberText ws ('.' :: fs) [] :=
    ⟨hws, hw, plain_leading_pointed he hp hws, .digits hfs hf, .none⟩
  refine ⟨⟨_, _, _, by rw [hp, List.append_nil], htext, .inl (List.cons_ne_nil _ _)⟩, d, ?_,
    fun s => rfl⟩
  rw [hp, ofNumeral?_fixed hnumeric, ofFixed?_pointed hws hfs hne, hv, hexp]

theorem spelledBy_scientific (hl : ¬ (-4 ≤ d.leading ∧ d.leading < 16)) :
    d.SpelledBy d.natural.toList := by
  have hdigit : ∀ c ∈ Text.digits d.digits, isDigit c = true := fun c => isDigit_of_mem_digits
  have hne := digits_ne_nil d.digits
  have hleading := noLeadingZero_digits d.digits
  have hvalue := ofDigits_digits d.digits
  have hexp : ∀ c ∈ (padded 2 d.leading.natAbs).toList, isDigit c = true :=
    fun c => isDigit_of_mem_padded
  have hsign : ∀ b : Bool, (if b then '-' else '+') = '+' ∨ (if b then '-' else '+') = '-' := by
    decide
  have hsum : 1 - ((Text.digits d.digits).length : Int) + (if decide (d.leading < 0) = true then
      -(d.leading.natAbs : Int) else d.leading.natAbs) = d.exponent := by
    rw [leading]
    split <;> simp only [decide_eq_true_eq] at * <;> omega
  rw [natural_scientific hl]
  generalize Text.digits d.digits = ds at *
  have htake : ∀ c ∈ ds.take 1, isDigit c = true := fun c hc => hdigit c (List.mem_of_mem_take hc)
  have hfraction := fractionText_rest hdigit
  have hnumeric : ∀ c ∈ ds.take 1 ++ (if ds.length ≤ 1 then [] else '.' :: ds.drop 1),
      Token.isNumeric c = true := by
    rw [List.forall_mem_append]
    exact ⟨fun c hc => Token.isNumeric_of_isDigit (htake c hc), hfraction.numeric⟩
  have hexponent := ExponentText.digits (hsign (decide (d.leading < 0))) hexp padded_ne_nil
  have htext := NumberText.mk htake (by simpa using hne)
    (noLeadingZero_take hleading Nat.one_pos (.inr rfl)) hfraction hexponent
  refine ⟨⟨_, _, _, rfl, htext, .inr (List.cons_ne_nil _ _)⟩, d, ?_, fun s => rfl⟩
  rw [← List.append_assoc, ofNumeral?_exponent hnumeric (exponent?_signed hexp padded_ne_nil _),
    ofFixed?_scientific hdigit hne, Option.map_some, hvalue, ofDigits_padded, hsum]

theorem spelledBy_natural (h : d.digits = 0 → d.exponent = 0) : d.SpelledBy d.natural.toList := by
  by_cases hl : -4 ≤ d.leading ∧ d.leading < 16
  · by_cases he : 0 ≤ d.exponent
    · rw [natural_whole hl he]
      exact spelledBy_whole he h
    · rw [natural_pointed hl (Int.not_le.mp he)]
      exact spelledBy_pointed (Int.not_le.mp he)
  · exact spelledBy_scientific hl

end Decimal

namespace Binary64

theorem toBinary64_sign {d : Decimal} {code : Fin magnitudeCount}
    (h : d.toBinary64 false = .finite false code) (s : Bool) : d.toBinary64 s = .finite s code := by
  rw [Decimal.toBinary64_eq, ofUnits] at h ⊢
  split at h
  · next hlt =>
    cases h
    rw [dif_pos hlt]
  · cases h

theorem shortest_digits {code : Fin magnitudeCount} (h : (shortest code).digits = 0) :
    (shortest code).exponent = 0 := by
  have hzero : code.val = 0 := by
    have hcode := toBinary64_shortest code
    rw [Decimal.toBinary64_eq, Decimal.unitRatio_eq, h] at hcode
    simp only [Nat.zero_mul, ofUnits_zero] at hcode
    injection hcode with _ hcode
    rw [← hcode]
  rw [shortest, if_pos hzero]

theorem natural_shortest (code : Fin magnitudeCount) :
    (∃ w f e : List Char, (shortest code).natural.toList = w ++ (f ++ e) ∧ NumberText w f e ∧
        (f ≠ [] ∨ e ≠ [])) ∧
      ∃ d, Decimal.ofNumeral? (shortest code).natural.toList = some d ∧
        ∀ s, d.toBinary64 s = .finite s code := by
  obtain ⟨hparts, d, hd, hs⟩ := Decimal.spelledBy_natural fun h => shortest_digits h
  exact ⟨hparts, d, hd, fun s => by rw [hs, toBinary64_sign (toBinary64_shortest code)]⟩

end Binary64
end Reckoner
