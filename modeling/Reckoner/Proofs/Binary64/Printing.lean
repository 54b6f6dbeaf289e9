import Reckoner.Proofs.Binary64.Exact
import Reckoner.Proofs.Binary64.Text
import Reckoner.Proofs.Expression.Source

/-!
The two texts of a number, the literal and the result, are read as the number again. The literal is
what the expression language takes for one number, with at most a minus in front.
-/

namespace Reckoner
open Text

/-- Digits, and behind them nothing or a point with digits of its own. -/
inductive PlainText : List Char → Prop where
  | mk {ws fs : List Char} (hd : ∀ c ∈ ws, isDigit c = true) (hne : ws ≠ []) (hf : FractionText fs) :
      PlainText (ws ++ fs)

namespace PlainText

variable {cs : List Char}

theorem whole (hd : ∀ c ∈ cs, isDigit c = true) (hne : cs ≠ []) : PlainText cs := by
  have h := PlainText.mk hd hne .none
  rwa [List.append_nil] at h

theorem start (h : PlainText cs) : ∃ c ∈ cs.head?, isDigit c = true := by
  obtain ⟨hd, hne, -⟩ := h
  rw [List.head?_append_of_ne_nil _ hne, List.head?_eq_some_head hne]
  exact ⟨_, rfl, hd _ (List.head_mem _)⟩

theorem of_plain (d : Decimal) : PlainText d.plain.toList := by
  by_cases h : 0 ≤ d.exponent
  · obtain ⟨hne, hd, -⟩ := Decimal.plain_whole h
    exact whole hd hne
  · obtain ⟨ws, fs, hp, hw, hf, hws, hfs, -⟩ := Decimal.plain_pointed (Int.not_le.mp h)
    rw [hp]
    exact .mk hws hw (.digits hfs hf)

end PlainText

theorem Token.scan_numeral {s : String} (h : Token.Numeral s.toList) :
    Token.scan s = .ok [⟨.number, s, 0⟩, ⟨.eof, "", s.length⟩] := by
  have hscan : Token.scanFrom 0 (s.toList ++ []) = _ :=
    Token.scanFrom_numeral h Token.endsNumber_nil
  rw [List.append_nil, Token.scanFrom_nil, map_ok, String.ofList_toList, Nat.zero_add,
    String.length_toList] at hscan
  exact hscan

namespace Binary64

/-! Reading a number behind its sign. -/

def numberChars : List Char :=
  ['-', '+', 'e'] ++ Token.numericChars

variable {code : Fin magnitudeCount} {cs : List Char}

theorem mem_numberChars (h : ∀ c ∈ cs, Token.isNumeric c = true) : ∀ c ∈ cs, c ∈ numberChars :=
  fun c hc => List.mem_append_right _ (Token.mem_numericChars (h c hc))

theorem ofText?_number (h : ∀ c ∈ cs, c ∈ numberChars) :
    ofText? (String.ofList cs) = ofNumeral? cs := by
  have hspace : ∀ c ∈ numberChars, isSpace c = false := forall_mem_of_all _ rfl
  have hscore : ∀ c ∈ numberChars, c ≠ '_' := forall_mem_of_all _ rfl
  have hdigit : ∀ c ∈ numberChars, plainDigit c = c := forall_mem_of_all _ rfl
  have hmap : cs.map plainDigit = cs :=
    (List.map_congr_left fun c hc => hdigit c (h c hc)).trans (List.map_id' cs)
  rw [ofText?, plainNumeral, String.toList_ofList, trim_eq_self fun c hc => hspace c (h c hc), hmap,
    dropUnderscores_eq_self fun c hc => hscore c (h c hc), Option.bind_some]

theorem ofNumeral?_signed {c : Char} (hc : isDigit c = true) (s : Bool) :
    ofNumeral? ((signed s "").toList ++ c :: cs) =
      (Decimal.ofNumeral? (c :: cs)).map (·.toBinary64 s) := by
  have hword : ∀ word : String, word.toList.head?.any isDigit = false →
      String.ofList ((c :: cs).map Char.toLower) ≠ word := by
    rintro word hw rfl
    have hlower : ∀ d : Fin 10, isDigit (digitChar d).toLower = true := by decide
    have hc' := hlower ⟨digitValue c, digitValue_lt hc⟩
    rw [digitChar_digitValue hc] at hc'
    rw [String.toList_ofList, List.map_cons, List.head?_cons, Option.any_some, hc'] at hw
    cases hw
  have hsplit : splitSign ((signed s "").toList ++ c :: cs) = (s, c :: cs) := by
    cases s with
    | true => rfl
    | false => exact splitSign_cons (ne_of_isDigit hc (by decide)) (ne_of_isDigit hc (by decide))
  rw [ofNumeral?, hsplit]
  simp only
  rw [if_neg (not_or.mpr ⟨hword _ (by decide), hword _ (by decide)⟩), if_neg (hword _ (by decide))]

theorem ofText?_signed {t : String} (hstart : ∃ c ∈ t.toList.head?, isDigit c = true)
    (ht : ∀ c ∈ t.toList, c ∈ numberChars) {d : Decimal} (hd : Decimal.ofNumeral? t.toList = some d)
    (s : Bool) : ofText? (signed s t) = some (d.toBinary64 s) := by
  obtain ⟨c, hhead, hc⟩ := hstart
  obtain ⟨cs, hcs⟩ : ∃ cs, t.toList = c :: cs := List.head?_eq_some_iff.mp hhead
  have hsplit : (signed s t).toList = (signed s "").toList ++ c :: cs := by
    cases s with
    | true => exact String.toList_append.trans (congrArg _ hcs)
    | false => exact hcs
  have hchars : ∀ e ∈ (signed s t).toList, e ∈ numberChars := by
    have hsign : ∀ s : Bool, (signed s "").toList.all (· ∈ numberChars) = true := by decide
    rw [hsplit, ← hcs, List.forall_mem_append]
    exact ⟨forall_mem_of_all (· ∈ numberChars) (hsign s), ht⟩
  rw [← String.ofList_toList (s := signed s t), ofText?_number hchars, hsplit,
    ofNumeral?_signed hc, ← hcs, hd, Option.map_some]

end Binary64

theorem NumberText.numberChars {w f e : List Char} (h : NumberText w f e) :
    ∀ c ∈ w ++ (f ++ e), c ∈ Binary64.numberChars := by
  have hdigits : ∀ cs : List Char, (∀ c ∈ cs, isDigit c = true) →
      ∀ c ∈ cs, c ∈ Binary64.numberChars :=
    fun cs hd => Binary64.mem_numberChars fun c hc => Token.isNumeric_of_isDigit (hd c hc)
  rw [List.forall_mem_append, List.forall_mem_append]
  refine ⟨hdigits w h.wholeDigits, Binary64.mem_numberChars h.fractionText.numeric, ?_⟩
  cases h.exponentText with
  | none => exact List.forall_mem_nil _
  | digits hs he hne =>
    rw [List.forall_mem_cons, List.forall_mem_cons]
    refine ⟨by decide, ?_, hdigits _ he⟩
    rcases hs with rfl | rfl <;> decide

namespace Binary64

variable {code : Fin magnitudeCount}

theorem ofText?_text (s : Bool) (code : Fin magnitudeCount) :
    ofText? (finite s code).text = some (finite s code) := by
  obtain ⟨⟨w, f, e, hparts, htext, -⟩, d, hd, hs⟩ := natural_shortest code
  have hstart : ∃ c ∈ (shortest code).natural.toList.head?, isDigit c = true := by
    rw [hparts, List.head?_append_of_ne_nil _ htext.wholeNonempty,
      List.head?_eq_some_head htext.wholeNonempty]
    exact ⟨_, rfl, htext.wholeDigits _ (List.head_mem _)⟩
  rw [text, ofText?_signed hstart (hparts ▸ htext.numberChars) hd, hs]

theorem ofText?_text_infinite (s : Bool) : ofText? (infinite s).text = some (infinite s) := by
  cases s <;> decide +kernel

/-! Literals. -/

theorem literal_zero (s : Bool) : (zero s).literal = "0" := by
  cases s <;> decide +kernel

theorem plainText_literal (code : Fin magnitudeCount) :
    PlainText (finite false code).literal.toList := by
  rcases literal_cases code with ⟨n, -, hl⟩ | hl
  · rw [hl, natText, String.toList_ofList]
    exact .whole (fun c => isDigit_of_mem_digits) (digits_ne_nil n)
  · rw [hl]
    exact .of_plain _

theorem literal_eq_signed (s : Bool) (code : Fin magnitudeCount) :
    ∃ t, (finite s code).literal = signed t (finite false code).literal ∧
      (finite t code).same (finite s code) = true := by
  cases s with
  | false => exact ⟨false, rfl, by simp [same]⟩
  | true =>
    by_cases hcode : code.val = 0
    · have hzero : ∀ s, finite s code = zero s := fun s => congrArg (finite s) (Fin.ext hcode)
      refine ⟨false, ?_, by simp [same, hcode]⟩
      rw [hzero, hzero, literal_zero, literal_zero]
      rfl
    · exact ⟨true, literal_negative hcode, by simp [same]⟩

theorem ofText?_signed_literal (s : Bool) (code : Fin magnitudeCount) :
    ofText? (signed s (finite false code).literal) = some (finite s code) := by
  obtain ⟨hnumeral, hread⟩ := literal_numeral (x := finite false code) rfl rfl
  rw [← String.ofList_toList (s := (finite false code).literal), ofText?_numeric hnumeral.numeric,
    Option.map_eq_some_iff] at hread
  obtain ⟨d, hd, hcode⟩ := hread
  rw [← Decimal.ofNumeral?_fixed hnumeral.numeric] at hd
  rw [ofText?_signed (plainText_literal code).start (mem_numberChars hnumeral.numeric) hd,
    toBinary64_sign hcode]

theorem same_self {x : Binary64} (h : x ≠ nan) : x.same x = true := by
  cases x with
  | finite s code => simp [same]
  | infinite s => simp [same]
  | nan => exact absurd rfl h

theorem literal_eq_resultText {x : Binary64} (h : x.toInt?.isSome ∨ x.isFinite = false) :
    x.literal = x.resultText := by
  cases hint : x.toInt? with
  | some n =>
    unfold literal resultText
    rw [hint]
  | none =>
    rw [hint] at h
    cases x with
    | finite s code => simp [isFinite] at h
    | infinite s => rfl
    | nan => rfl

/-- The literal of a finite number is a sign and a text that is scanned as one number, and a zero of
either sign has the literal `0`. Literals of finite numbers and texts of results are read as the
number, and they are the same where the number is whole or not finite. -/
theorem literal_resultText_faithful (x : Binary64) :
    (x.isFinite = true → ∃ s magnitude, x.literal = signed s magnitude ∧
      PlainText magnitude.toList ∧
      Token.scan magnitude = .ok [⟨.number, magnitude, 0⟩, ⟨.eof, "", magnitude.length⟩] ∧
      ∃ y, ofText? x.literal = some y ∧ y.same x = true) ∧
    (x.value? = some 0 → x.literal = "0") ∧
    (x ≠ .nan → ∃ y, ofText? x.resultText = some y ∧ y.same x = true) ∧
    ((∃ n : Int, x.value? = some (n : ℚ)) ∨ x.isFinite = false → x.literal = x.resultText) := by
  have hliteral : ∀ s code, ∃ t, (finite s code).literal = signed t (finite false code).literal ∧
      ∃ y, ofText? (finite s code).literal = some y ∧ y.same (finite s code) = true := by
    intro s code
    obtain ⟨t, hl, hsame⟩ := literal_eq_signed s code
    exact ⟨t, hl, _, hl ▸ ofText?_signed_literal t code, hsame⟩
  refine ⟨fun hfinite => ?_, fun hzero => ?_, fun hnan => ?_, ?_⟩
  · cases x with
    | finite s code =>
      obtain ⟨t, hl, hread⟩ := hliteral s code
      have hnumeral := (literal_numeral (x := finite false code) rfl rfl).1
      exact ⟨t, _, hl, plainText_literal code, Token.scan_numeral hnumeral, hread⟩
    | infinite s => cases hfinite
    | nan => cases hfinite
  · obtain ⟨s, rfl⟩ := eq_zero_of_isZero ((isZero_iff hzero).mpr rfl)
    exact literal_zero s
  · cases hint : x.toInt? with
    | some n =>
      rw [← literal_eq_resultText (.inl (by rw [hint]; rfl))]
      cases x with
      | finite s code => exact (hliteral s code).choose_spec.2
      | infinite s => cases hint
      | nan => cases hint
    | none =>
      refine ⟨x, ?_, same_self hnan⟩
      rw [resultText, hint]
      cases x with
      | finite s code => exact ofText?_text s code
      | infinite s => exact ofText?_text_infinite s
      | nan => exact absurd rfl hnan
  · rintro (⟨n, hn⟩ | hfinite)
    · exact literal_eq_resultText (.inl (by rw [toInt?_eq_some_iff.mpr hn]; rfl))
    · exact literal_eq_resultText (.inr hfinite)

theorem smallFraction_faithful :
    let x : Binary64 := .finite true ⟨0x3E8421F5F40D8376, by decide⟩
    x.literal = "-0.00000015" ∧ x.resultText = "-1.5e-07" ∧
      (∃ y, ofText? "-0.00000015" = some y ∧ y.same x = true) ∧
      ∃ y, ofText? "-1.5e-07" = some y ∧ y.same x = true := by
  intro x
  have hliteral : x.literal = "-0.00000015" := by decide +kernel
  have hresult : x.resultText = "-1.5e-07" := by decide +kernel
  obtain ⟨hfinite, -, hread, -⟩ := literal_resultText_faithful x
  obtain ⟨-, -, -, -, -, h⟩ := hfinite rfl
  exact ⟨hliteral, hresult, hliteral ▸ h, hresult ▸ hread (by decide)⟩

end Binary64
end Reckoner
