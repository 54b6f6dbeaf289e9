import Reckoner.Proofs.Binary64.Text
import Reckoner.Proofs.Json.Quoted

/-!
Numbers and words of JSON: what is written for one is read back, unless the text behind it goes on
with a number.
-/

namespace Reckoner
open Text

variable {rest : List Char}

def NoDigit (rest : List Char) : Prop :=
  ∀ c ∈ rest.head?, isDigit c = false

theorem takeWhile_digits_append {ds : List Char} (hd : ∀ c ∈ ds, isDigit c = true)
    (hrest : NoDigit rest) : (ds ++ rest).takeWhile isDigit = ds := by
  rw [List.takeWhile_append_of_pos hd]
  cases rest with
  | nil => simp
  | cons c cs => simp [hrest c rfl]

theorem FractionText.noDigit {f : List Char} (h : FractionText f) (hrest : NoDigit rest) :
    NoDigit (f ++ rest) := by
  cases h with
  | none => exact hrest
  | digits hf hne => exact fun c hc => by cases hc; rfl

theorem ExponentText.noDigit {e : List Char} (h : ExponentText e) (hrest : NoDigit rest) :
    NoDigit (e ++ rest) := by
  cases h with
  | none => exact hrest
  | digits hs he hne => exact fun c hc => by cases hc; rfl

namespace Json

variable {limits : Limits}

def EndsNumber (rest : List Char) : Prop :=
  ∀ c ∈ rest.head?, isDigit c = false ∧ c ≠ '.' ∧ Decimal.isExponentMark c = false

theorem EndsNumber.noDigit (h : EndsNumber rest) : NoDigit rest :=
  fun c hc => (h c hc).1

theorem wholePart_append {ds : List Char} (hd : ∀ c ∈ ds, isDigit c = true) (hne : ds ≠ [])
    (hl : NoLeadingZero ds) (hrest : NoDigit rest) : wholePart (ds ++ rest) = ds := by
  cases hl with
  | inl h =>
    rw [h]
    rfl
  | inr h =>
    cases ds with
    | nil => exact absurd rfl hne
    | cons c cs =>
      have hc : c ≠ '0' := fun hc => h (by rw [hc]; rfl)
      rw [List.cons_append, wholePart, ← List.cons_append]
      · exact takeWhile_digits_append hd hrest
      · exact fun _ h => hc (List.cons.inj h).1

theorem fractionPart_append {f : List Char} (h : FractionText f) (hd : NoDigit rest)
    (hp : ∀ c ∈ rest.head?, c ≠ '.') : fractionPart (f ++ rest) = f := by
  cases h with
  | none =>
    cases rest with
    | nil => rfl
    | cons c cs =>
      have hc := hp c rfl
      rw [List.nil_append, fractionPart]
      exact fun _ h => hc (List.cons.inj h).1
  | @digits fs hf hne =>
    rw [List.cons_append, fractionPart, takeWhile_digits_append hf hd, if_neg]
    simpa using hne

theorem exponentPart_append {e : List Char} (h : ExponentText e) (hrest : EndsNumber rest) :
    exponentPart (e ++ rest) = e := by
  cases h with
  | none =>
    cases rest with
    | nil => rfl
    | cons c cs => simp [exponentPart, (hrest c rfl).2.2]
  | @digits sign hs es he hne =>
    have hsign : exponentSign (sign :: (es ++ rest)) = [sign] := by
      rcases hs with rfl | rfl <;> rfl
    simp only [List.cons_append, exponentPart, hsign, List.length_singleton, List.drop_succ_cons,
      List.drop_zero, takeWhile_digits_append he hrest.noDigit]
    have hmark : Decimal.isExponentMark 'e' = true := rfl
    simp [hmark, hne]

theorem numeralParts_append {w f e : List Char} (h : NumberText w f e) (hrest : EndsNumber rest) :
    numeralParts (w ++ (f ++ (e ++ rest))) = (w, f, e) := by
  have he := h.exponentText.noDigit hrest.noDigit
  have hf := h.fractionText.noDigit he
  have hp : ∀ c ∈ (e ++ rest).head?, c ≠ '.' := by
    cases h.exponentText with
    | none => exact fun c hc => (hrest c hc).2.1
    | digits hs he hne =>
      intro c hc
      cases hc
      decide
  rw [numeralParts, wholePart_append h.wholeDigits h.wholeNonempty h.leading hf]
  simp only [List.drop_left, fractionPart_append h.fractionText he hp,
    exponentPart_append h.exponentText hrest]

def sign (negative : Bool) : List Char :=
  if negative then ['-'] else []

theorem minusSign_append {w : List Char} (hd : ∀ c ∈ w, isDigit c = true) (hne : w ≠ [])
    (negative : Bool) (cs : List Char) :
    minusSign (sign negative ++ (w ++ cs)) = sign negative := by
  cases negative with
  | true => rfl
  | false =>
    obtain ⟨c, ds, rfl⟩ := List.exists_cons_of_ne_nil hne
    have hc : c ≠ '-' := by
      rintro rfl
      exact absurd (hd '-' List.mem_cons_self) (by decide)
    change minusSign (c :: (ds ++ cs)) = []
    rw [minusSign]
    exact fun _ h => hc (List.cons.inj h).1

theorem number_append {w f e : List Char} (h : NumberText w f e)
    (hl : f = [] → e = [] → limits.admits w.length = true) (hrest : EndsNumber rest)
    (negative : Bool) :
    number limits (sign negative ++ (w ++ (f ++ (e ++ rest)))) =
      .ok (numberValue negative w f e, rest) := by
  have hempty : w.isEmpty = false := by simpa using h.wholeNonempty
  have hsign : (!(sign negative).isEmpty) = negative := by
    cases negative <;> rfl
  have hdrop : (w ++ (f ++ (e ++ rest))).drop (w.length + f.length + e.length) = rest := by
    rw [← List.drop_drop, ← List.drop_drop, List.drop_left, List.drop_left, List.drop_left]
  have hadmits : (f.isEmpty && e.isEmpty && !limits.admits w.length) = false := by
    rw [Bool.and_eq_false_iff, Bool.not_eq_false', Bool.and_eq_false_iff]
    by_cases hf : f = []
    · by_cases he : e = []
      · exact .inr (hl hf he)
      · exact .inl (.inr (by simpa using he))
    · exact .inl (.inl (by simpa using hf))
  simp only [number, minusSign_append h.wholeDigits h.wholeNonempty, List.drop_left,
    numeralParts_append h hrest, hempty, hadmits, hsign, hdrop]
  rfl

/-! What `value` makes of a scalar, which starts neither a string nor an array nor an object. -/

theorem word?_of_digit {c : Char} (hc : isDigit c = true) (cs : List Char) :
    word? (c :: cs) = none ∧ word? ('-' :: c :: cs) = none := by
  have hne : ∀ d : Char, isDigit d = false → d ≠ c := by
    rintro d hd rfl
    rw [hc] at hd
    cases hd
  have hn := hne 'n' rfl
  have ht := hne 't' rfl
  have hf := hne 'f' rfl
  have hN := hne 'N' rfl
  have hI := hne 'I' rfl
  have hm := hne '-' rfl
  simp [word?, words, hn, ht, hf, hN, hI, hm]

theorem word?_append {word : List Char} {v : Json} (h : (word, v) ∈ words) :
    word? (word ++ rest) = some (v, rest) := by
  simp only [words, List.mem_cons, Prod.mk.injEq, List.not_mem_nil, or_false] at h
  rcases h with ⟨rfl, rfl⟩ | ⟨rfl, rfl⟩ | ⟨rfl, rfl⟩ | ⟨rfl, rfl⟩ | ⟨rfl, rfl⟩ | ⟨rfl, rfl⟩ <;> rfl

theorem scalar_reads {cs : List Char} {v : Json}
    (h : wordOrNumber limits cs = .ok (v, rest)) (hlt : rest.length < cs.length) :
    Reads (scalar limits cs) v rest := by
  refine ⟨hlt, ?_⟩
  rw [scalar, h]
  exact dif_pos hlt

theorem value_eq_scalar {c : Char} (hc : c ∉ ['"', '[', '\x7b']) (cs : List Char) :
    value limits (c :: cs) = scalar limits (c :: cs) := by
  simp only [List.mem_cons, List.not_mem_nil, or_false, not_or] at hc
  rw [value]
  simp [hc]

theorem words_head : ∀ w ∈ words, ∃ c cs, w.1 = c :: cs ∧ c ∉ ['"', '[', '\x7b'] := by
  simp [words]

theorem value_word {word : List Char} {v : Json} (h : (word, v) ∈ words) (rest : List Char) :
    Reads (value limits (word ++ rest)) v rest := by
  have hword : word? (word ++ rest) = some (v, rest) := word?_append h
  obtain ⟨c, cs, hcs, hc⟩ := words_head _ h
  dsimp only at hcs
  subst hcs
  change Reads (value limits (c :: (cs ++ rest))) v rest
  rw [value_eq_scalar hc]
  refine scalar_reads ?_ ?_
  · rw [wordOrNumber, ← List.cons_append, hword]
  · simp only [List.length_cons, List.length_append]
    omega

theorem value_numeral (limits : Limits) {w : List Char} (hd : ∀ c ∈ w, isDigit c = true)
    (hne : w ≠ []) (negative : Bool) (cs : List Char) :
    value limits (sign negative ++ (w ++ cs)) = scalar limits (sign negative ++ (w ++ cs)) ∧
    wordOrNumber limits (sign negative ++ (w ++ cs)) =
      number limits (sign negative ++ (w ++ cs)) := by
  obtain ⟨c, ds, rfl⟩ := List.exists_cons_of_ne_nil hne
  have hdigit := hd c List.mem_cons_self
  have hword := word?_of_digit hdigit (ds ++ cs)
  have hc : c ∉ ['"', '[', '\x7b'] := by
    intro hc
    simp only [List.mem_cons, List.not_mem_nil, or_false] at hc
    rcases hc with rfl | rfl | rfl <;> cases hdigit
  cases negative with
  | false =>
    change value limits (c :: (ds ++ cs)) = scalar limits (c :: (ds ++ cs)) ∧
      wordOrNumber limits (c :: (ds ++ cs)) = number limits (c :: (ds ++ cs))
    exact ⟨value_eq_scalar hc _, by rw [wordOrNumber, hword.1]⟩
  | true =>
    change value limits ('-' :: c :: (ds ++ cs)) = scalar limits ('-' :: c :: (ds ++ cs)) ∧
      wordOrNumber limits ('-' :: c :: (ds ++ cs)) = number limits ('-' :: c :: (ds ++ cs))
    exact ⟨value_eq_scalar (by decide) _, by rw [wordOrNumber, hword.2]⟩

theorem value_number {w f e : List Char} (h : NumberText w f e)
    (hl : f = [] → e = [] → limits.admits w.length = true) (hrest : EndsNumber rest)
    (negative : Bool) :
    Reads (value limits (sign negative ++ (w ++ (f ++ (e ++ rest)))))
      (numberValue negative w f e) rest := by
  obtain ⟨hvalue, hword⟩ :=
    value_numeral limits h.wholeDigits h.wholeNonempty negative (f ++ (e ++ rest))
  have hlength := List.length_pos_of_ne_nil h.wholeNonempty
  rw [hvalue]
  refine scalar_reads (hword.trans (number_append h hl hrest negative)) ?_
  simp only [List.length_append]
  omega

theorem value_tooLong {w : List Char} (h : NumberText w [] [])
    (hl : limits.admits w.length = false) (hrest : EndsNumber rest) (negative : Bool) :
    ∃ n, value limits (sign negative ++ (w ++ rest)) = .error ⟨.tooLong, n⟩ := by
  have hempty : w.isEmpty = false := by simpa using h.wholeNonempty
  have hnumber : number limits (sign negative ++ (w ++ rest)) = .error .tooLong := by
    have hparts : numeralParts (w ++ rest) = (w, [], []) := numeralParts_append h hrest
    simp only [number, minusSign_append h.wholeDigits h.wholeNonempty, List.drop_left, hparts,
      hempty, hl]
    rfl
  obtain ⟨hvalue, hword⟩ :=
    value_numeral limits h.wholeDigits h.wholeNonempty negative rest
  exact ⟨_, by rw [hvalue, scalar, hword, hnumber]⟩

theorem chars_int (n : Int) : chars (.int n) = sign (decide (n < 0)) ++ digits n.natAbs := by
  cases n with
  | ofNat n => simp [chars, intText, natText, sign]
  | negSucc n => simp [chars, intText, natText, sign]

theorem numberText_digits (n : Nat) : NumberText (digits n) [] [] :=
  ⟨fun _ => isDigit_of_mem_digits, digits_ne_nil n, noLeadingZero_digits n, .none, .none⟩

theorem value_int {n : Int} (hl : limits.admits (digits n.natAbs).length = true)
    (hrest : EndsNumber rest) : Reads (value limits (chars (.int n) ++ rest)) (.int n) rest := by
  have hvalue : numberValue (decide (n < 0)) (digits n.natAbs) [] [] = .int n := by
    have hn : (if n < 0 then -(n.natAbs : Int) else n.natAbs) = n := by
      split <;> omega
    simp only [numberValue, ofDigits_digits, decide_eq_true_eq, hn]
    rfl
  rw [chars_int, List.append_assoc, ← hvalue]
  exact value_number (numberText_digits _) (fun _ _ => hl) hrest _

theorem chars_finite (s : Bool) (code : Fin magnitudeCount) :
    chars (.float (.finite s code)) = sign s ++ (Binary64.shortest code).natural.toList := by
  cases s <;> simp [chars, floatText, Binary64.text, Binary64.signed, sign]

theorem value_float (x : Binary64) (hrest : EndsNumber rest) :
    Reads (value limits (chars (.float x) ++ rest)) (.float x) rest := by
  cases x with
  | nan => exact value_word (by simp [words, chars, floatText]) rest
  | infinite s =>
    cases s <;> exact value_word (by simp [words, chars, floatText, Binary64.signed]) rest
  | finite s code =>
    obtain ⟨⟨w, f, e, hparts, htext, hpoint⟩, d, hd, hs⟩ := Binary64.natural_shortest code
    -- A point or an exponent keeps the number from being read as a whole one.
    have hvalue : numberValue s w f e = .float (.finite s code) := by
      rw [hparts] at hd
      have hfloat : (f.isEmpty && e.isEmpty) = false := by
        rw [Bool.and_eq_false_iff]
        simpa using hpoint
      rw [numberValue, hfloat, List.append_assoc, hd]
      simp [hs]
    rw [chars_finite, hparts, List.append_assoc, List.append_assoc, List.append_assoc, ← hvalue]
    exact value_number htext (fun hf he => (hpoint.elim (· hf) (· he)).elim) hrest s

end Json
end Reckoner
