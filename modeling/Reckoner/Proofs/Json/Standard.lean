import Reckoner.Proofs.Json.Scalar

/-!
Standard JSON as a grammar of its own, which has no word for a number that is not finite. The text
of a value is standard just when all numbers in the value are finite.
-/

namespace Reckoner
open Text

namespace Json

inductive Finite : Json → Prop where
  | null : Finite .null
  | bool (b : Bool) : Finite (.bool b)
  | int (n : Int) : Finite (.int n)
  | float {x : Binary64} (h : x.isFinite = true) : Finite (.float x)
  | string (s : String) : Finite (.string s)
  | unpaired : Finite .unpaired
  | array {items : List Json} (h : ∀ v ∈ items, Finite v) : Finite (.array items)
  | object {members : List (String × Json)} (h : ∀ m ∈ members, Finite m.2) :
      Finite (.object members)

inductive StandardChars : List Char → Prop where
  | nil : StandardChars []
  | plain {c : Char} {cs : List Char} (hq : c ≠ '"') (hb : c ≠ '\\') (hc : 0x20 ≤ c.toNat)
      (h : StandardChars cs) : StandardChars (c :: cs)
  | escape {c : Char} {cs : List Char} (hc : c ∈ ['"', '\\', '/', 'b', 'f', 'n', 'r', 't'])
      (h : StandardChars cs) : StandardChars ('\\' :: c :: cs)
  | unit {ds cs : List Char} (hlen : ds.length = 4) (hd : ∀ d ∈ ds, (hexValue? d).isSome)
      (h : StandardChars cs) : StandardChars ('\\' :: 'u' :: (ds ++ cs))

inductive StandardExponent : List Char → Prop where
  | none : StandardExponent []
  | digits {mark : Char} (hm : mark = 'e' ∨ mark = 'E') {sign : List Char}
      (hs : sign ∈ [[], ['+'], ['-']]) {es : List Char} (he : ∀ c ∈ es, isDigit c = true)
      (hne : es ≠ []) : StandardExponent (mark :: (sign ++ es))

inductive StandardNumber : List Char → Prop where
  | parts (negative : Bool) {whole fraction exponent : List Char}
      (hw : ∀ c ∈ whole, isDigit c = true) (hne : whole ≠ []) (hl : NoLeadingZero whole)
      (hf : FractionText fraction) (he : StandardExponent exponent) :
      StandardNumber (sign negative ++ (whole ++ (fraction ++ exponent)))

def White (cs : List Char) : Prop :=
  ∀ c ∈ cs, isWhite c = true

/-- The phrases of the grammar. A text is a value with white space around it, and a list has commas
between its parts. -/
inductive Part where
  | value
  | text
  | member
  | list (part : Part)

inductive Standard : Part → List Char → Prop where
  | word {cs : List Char} (h : cs ∈ ["null".toList, "true".toList, "false".toList]) :
      Standard .value cs
  | number {cs : List Char} (h : StandardNumber cs) : Standard .value cs
  | string {cs : List Char} (h : StandardChars cs) : Standard .value ('"' :: (cs ++ ['"']))
  | emptyArray {w : List Char} (hw : White w) : Standard .value ('[' :: (w ++ [']']))
  | array {cs : List Char} (h : Standard (.list .text) cs) : Standard .value ('[' :: (cs ++ [']']))
  | emptyObject {w : List Char} (hw : White w) : Standard .value ('\x7b' :: (w ++ ['\x7d']))
  | object {cs : List Char} (h : Standard (.list .member) cs) :
      Standard .value ('\x7b' :: (cs ++ ['\x7d']))
  | text {w cs w' : List Char} (hw : White w) (h : Standard .value cs) (hw' : White w') :
      Standard .text (w ++ (cs ++ w'))
  | member {w name w' cs : List Char} (hw : White w) (hname : StandardChars name) (hw' : White w')
      (h : Standard .text cs) : Standard .member (w ++ '"' :: (name ++ '"' :: (w' ++ ':' :: cs)))
  | one {part : Part} {cs : List Char} (h : Standard part cs) : Standard (.list part) cs
  | more {part : Part} {cs rest : List Char} (h : Standard part cs)
      (hrest : Standard (.list part) rest) : Standard (.list part) (cs ++ ',' :: rest)

/-! The text of a value with finite numbers is standard. -/

theorem hexValue?_of_mem_hex {width n : Nat} {c : Char} (h : c ∈ hex width n) :
    (hexValue? c).isSome := by
  induction width generalizing n with
  | zero => cases h
  | succ width ih =>
    cases List.mem_append.mp h with
    | inl h => exact ih h
    | inr h =>
      rw [List.mem_singleton.mp h, hexValue?_hexDigit]
      rfl

namespace StandardChars

variable {cs : List Char}

theorem unitEscape (n : Nat) (h : StandardChars cs) : StandardChars (unitEscape n ++ cs) := by
  have hlen : (hex 4 n).length = 4 := rfl
  exact .unit hlen (fun _ => hexValue?_of_mem_hex) h

theorem charText (c : Char) (h : StandardChars cs) : StandardChars (charText c ++ cs) := by
  rcases charText_cases c with ⟨e, he, hd⟩ | ⟨he, hq, hb, hc⟩ | ⟨he, -⟩ | ⟨he, -⟩ <;> rw [he]
  · refine .escape ?_ h
    unfold escaped? at hd
    split at hd <;> first | decide | cases hd
  · exact .plain hq hb hc h
  · exact .unitEscape _ h
  · rw [List.append_assoc]
    exact .unitEscape _ (.unitEscape _ h)

theorem flatMap_charText (cs : List Char) : StandardChars (cs.flatMap Json.charText) := by
  induction cs with
  | nil => exact .nil
  | cons c cs ih => exact .charText c ih

end StandardChars

theorem StandardExponent.of_exponentText {e : List Char} (h : ExponentText e) :
    StandardExponent e := by
  cases h with
  | none => exact .none
  | @digits mark hs es he hne =>
    have hsign : [mark] ∈ [[], ['+'], ['-']] := by rcases hs with rfl | rfl <;> decide
    exact .digits (.inl rfl) hsign he hne

theorem StandardNumber.of_numberText {w f e : List Char} (h : NumberText w f e) (negative : Bool) :
    StandardNumber (sign negative ++ (w ++ (f ++ e))) :=
  .parts negative h.wholeDigits h.wholeNonempty h.leading h.fractionText
    (.of_exponentText h.exponentText)

theorem standard_int (n : Int) : Standard .value (chars (.int n)) := by
  have h := StandardNumber.of_numberText (numberText_digits n.natAbs) (decide (n < 0))
  rw [List.append_nil, List.append_nil, ← chars_int] at h
  exact .number h

theorem standard_finite (s : Bool) (code : Fin magnitudeCount) :
    Standard .value (chars (.float (.finite s code))) := by
  obtain ⟨⟨w, f, e, hparts, htext, -⟩, -⟩ := Binary64.natural_shortest code
  rw [chars_finite, hparts]
  exact .number (.of_numberText htext s)

namespace Standard

variable {part : Part} {cs : List Char} {c : Char}

theorem white_nil : White [] :=
  List.forall_mem_nil _

theorem value_text (h : Standard .value cs) : Standard .text cs := by
  have htext := Standard.text white_nil h white_nil
  rwa [List.nil_append, List.append_nil] at htext

theorem white_cons {w : List Char} (hc : isWhite c = true) (hw : White w) : White (c :: w) :=
  List.forall_mem_cons.mpr ⟨hc, hw⟩

theorem text_cons (hc : isWhite c = true) (h : Standard .text cs) :
    Standard .text (c :: cs) := by
  cases h with
  | text hw h hw' => exact .text (white_cons hc hw) h hw'

theorem member_cons (hc : isWhite c = true) (h : Standard .member cs) :
    Standard .member (c :: cs) := by
  cases h with
  | member hw hname hw' h => exact .member (white_cons hc hw) hname hw' h

theorem list_cons (hpart : ∀ {cs}, Standard part cs → Standard part (c :: cs))
    (h : Standard (.list part) cs) : Standard (.list part) (c :: cs) := by
  cases h with
  | one h => exact .one (hpart h)
  | more h hrest => exact .more (hpart h) hrest

end Standard

theorem standard_itemChars {vs : List Json} (hne : vs ≠ [])
    (h : ∀ v ∈ vs, Standard .value (chars v)) : Standard (.list .text) (itemChars vs) := by
  induction vs with
  | nil => exact absurd rfl hne
  | cons v vs ih =>
    rw [List.forall_mem_cons] at h
    cases vs with
    | nil => exact .one h.1.value_text
    | cons w ws =>
      rw [itemChars]
      · exact .more h.1.value_text
          ((ih (List.cons_ne_nil w ws) h.2).list_cons (Standard.text_cons rfl))
      · exact List.cons_ne_nil w ws

theorem standard_memberText (name : String) {cs : List Char} (h : Standard .value cs) :
    Standard .member (stringText name ++ ':' :: ' ' :: cs) := by
  have hmember := Standard.member Standard.white_nil (.flatMap_charText name.toList)
    Standard.white_nil (h.value_text.text_cons (c := ' ') rfl)
  simpa [stringText] using hmember

theorem standard_memberChars {ms : List (String × Json)} (hne : ms ≠ [])
    (h : ∀ m ∈ ms, Standard .value (chars m.2)) : Standard (.list .member) (memberChars ms) := by
  induction ms with
  | nil => exact absurd rfl hne
  | cons m ms ih =>
    obtain ⟨name, v⟩ := m
    rw [List.forall_mem_cons] at h
    have hm := standard_memberText name h.1
    cases ms with
    | nil => exact .one hm
    | cons w ws =>
      have hrest := (ih (List.cons_ne_nil w ws) h.2).list_cons (Standard.member_cons (c := ' ') rfl)
      rw [memberChars]
      · simpa using Standard.more hm hrest
      · exact List.cons_ne_nil w ws

theorem Finite.standard {v : Json} (h : v.Finite) : Standard .value (chars v) := by
  induction h with
  | null => exact .word (by simp [chars])
  | bool b => cases b <;> exact .word (by simp [chars])
  | int n => exact standard_int n
  | @float x h =>
    cases x with
    | finite s code => exact standard_finite s code
    | infinite s => cases h
    | nan => cases h
  | string s =>
    rw [chars]
    exact .string (.flatMap_charText s.toList)
  | unpaired => exact .string (by simpa using StandardChars.nil.unitEscape 0xD800)
  | @array items h ih =>
    rw [chars]
    by_cases hne : items = []
    · subst hne
      exact .emptyArray Standard.white_nil
    · exact .array (standard_itemChars hne ih)
  | @object members h ih =>
    rw [chars]
    by_cases hne : members = []
    · subst hne
      exact .emptyObject Standard.white_nil
    · exact .object (standard_memberChars hne ih)

/-! Outside of its strings a text tells whether a number in it is not finite. -/

mutual

def unquoted : List Char → List Char
  | [] => []
  | '"' :: cs => unquotedBehind cs
  | c :: cs => c :: unquoted cs

def unquotedBehind : List Char → List Char
  | [] => []
  | '"' :: cs => unquoted cs
  | '\\' :: _ :: cs => unquotedBehind cs
  | _ :: cs => unquotedBehind cs

end

theorem unquotedBehind_digits {ds : List Char} (h : ∀ d ∈ ds, (hexValue? d).isSome)
    (rest : List Char) : unquotedBehind (ds ++ rest) = unquotedBehind rest := by
  induction ds with
  | nil => rfl
  | cons d ds ih =>
    rw [List.forall_mem_cons] at h
    rw [List.cons_append, unquotedBehind]
    · exact ih h.2
    · rintro rfl
      exact absurd h.1 (by decide)
    · rintro _ _ rfl
      exact absurd h.1 (by decide)

theorem unquotedBehind_chars {cs : List Char} (h : StandardChars cs) (rest : List Char) :
    unquotedBehind (cs ++ '"' :: rest) = unquoted rest := by
  induction h with
  | nil => rfl
  | @plain c cs hq hb hc h ih =>
    rw [List.cons_append, unquotedBehind]
    · exact ih
    · exact hq
    · exact fun _ _ hc _ => hb hc
  | escape hc h ih => exact ih
  | @unit ds cs hlen hd h ih =>
    change unquotedBehind (ds ++ cs ++ '"' :: rest) = _
    rw [List.append_assoc, unquotedBehind_digits hd, ih]

/-- The text tells whether the condition holds: if not, a word for a number that is not finite
starts outside of the strings. -/
def Tells (cs : List Char) (p : Prop) : Prop :=
  ∃ out, (∀ rest, unquoted (cs ++ rest) = out ++ unquoted rest) ∧
    ((∀ c ∈ out, c ∉ ['N', 'I']) ↔ p)

namespace Tells

variable {cs ds : List Char} {c d : Char} {p q : Prop}

theorem congr (h : Tells cs p) (hpq : p ↔ q) : Tells cs q := by
  obtain ⟨out, hout, hp⟩ := h
  exact ⟨out, hout, hp.trans hpq⟩

theorem append (h : Tells cs p) (h' : Tells ds q) : Tells (cs ++ ds) (p ∧ q) := by
  obtain ⟨out, hout, hp⟩ := h
  obtain ⟨out', hout', hq⟩ := h'
  refine ⟨out ++ out', fun rest => ?_, ?_⟩
  · rw [List.append_assoc, hout, hout', List.append_assoc]
  · rw [List.forall_mem_append, hp, hq]

theorem plain (h : '"' ∉ cs) : Tells cs (∀ c ∈ cs, c ∉ ['N', 'I']) := by
  refine ⟨cs, fun rest => ?_, Iff.rfl⟩
  induction cs with
  | nil => rfl
  | cons c cs ih =>
    rw [List.mem_cons, not_or] at h
    rw [List.cons_append, unquoted, ih h.2, List.cons_append]
    exact Ne.symm h.1

theorem mild (h : ∀ c ∈ cs, c ∉ ['"', 'N', 'I']) : Tells cs True := by
  refine (plain fun hq => h '"' hq List.mem_cons_self).congr (iff_true_intro ?_)
  exact fun c hc hmem => h c hc (List.mem_cons_of_mem '"' hmem)

theorem nil : Tells [] True :=
  mild (List.forall_mem_nil _)

theorem cons (hc : c ∉ ['"', 'N', 'I']) (h : Tells cs p) : Tells (c :: cs) p :=
  ((mild (List.forall_mem_singleton.mpr hc)).append h).congr (Iff.of_eq (true_and p))

theorem next (h : Tells cs p) : Tells (',' :: ' ' :: cs) p :=
  (h.cons (by decide)).cons (by decide)

theorem enclosed (hc : c ∉ ['"', 'N', 'I']) (hd : d ∉ ['"', 'N', 'I']) (h : Tells cs p) :
    Tells (c :: (cs ++ [d])) p :=
  cons hc ((h.append (mild (List.forall_mem_singleton.mpr hd))).congr (Iff.of_eq (and_true p)))

theorem string (h : StandardChars cs) : Tells ('"' :: (cs ++ ['"'])) True := by
  refine ⟨[], fun rest => ?_, iff_true_intro (List.forall_mem_nil _)⟩
  rw [List.cons_append, List.append_assoc]
  exact unquotedBehind_chars h rest

theorem unique (h : Tells cs p) (h' : Tells cs q) : p ↔ q := by
  obtain ⟨out, hout, hp⟩ := h
  obtain ⟨out', hout', hq⟩ := h'
  have heq : out ++ unquoted [] = out' ++ unquoted [] := (hout []).symm.trans (hout' [])
  rw [← hp, ← hq, List.append_cancel_right heq]

theorem silent (h : Tells cs True) (h' : Tells ds True) : Tells (cs ++ ds) True :=
  (h.append h').congr (Iff.of_eq (and_true True))

theorem white (h : White cs) : Tells cs True := by
  refine mild fun c hc hmem => ?_
  have hw := h c hc
  simp only [List.mem_cons, List.not_mem_nil, or_false] at hmem
  rcases hmem with rfl | rfl | rfl <;> cases hw

theorem digits (h : ∀ c ∈ cs, isDigit c = true) : Tells cs True := by
  refine mild fun c hc hmem => ?_
  have hd := h c hc
  simp only [List.mem_cons, List.not_mem_nil, or_false] at hmem
  rcases hmem with rfl | rfl | rfl <;> cases hd

theorem number (h : StandardNumber cs) : Tells cs True := by
  cases h with
  | parts negative hw hne hl hf he =>
    have hsign : Tells (sign negative) True := by
      cases negative <;> exact mild (by simp [sign])
    refine hsign.silent ((digits hw).silent (silent ?_ ?_))
    · cases hf with
      | none => exact nil
      | digits hf hne => exact (digits hf).cons (by decide)
    · cases he with
      | none => exact nil
      | @digits mark hm sign hs es he hne =>
        have hmark : mark ∉ ['"', 'N', 'I'] := by rcases hm with rfl | rfl <;> decide
        have hsign : ∀ s ∈ [[], ['+'], ['-']], ∀ c ∈ s, c ∉ ['"', 'N', 'I'] := by simp
        exact ((mild (hsign sign hs)).silent (digits he)).cons hmark

end Tells

theorem Standard.tells {part : Part} {cs : List Char} (h : Standard part cs) : Tells cs True := by
  induction h with
  | word h =>
    simp only [List.mem_cons, List.not_mem_nil, or_false] at h
    rcases h with rfl | rfl | rfl <;> exact .mild (by simp)
  | number h => exact .number h
  | string h => exact .string h
  | emptyArray hw => exact (Tells.white hw).enclosed (by decide) (by decide)
  | array h ih => exact ih.enclosed (by decide) (by decide)
  | emptyObject hw => exact (Tells.white hw).enclosed (by decide) (by decide)
  | object h ih => exact ih.enclosed (by decide) (by decide)
  | text hw h hw' ih => exact (Tells.white hw).silent (ih.silent (Tells.white hw'))
  | @member w name w' cs hw hname hw' h ih =>
    have hvalue := (Tells.white hw').silent (ih.cons (c := ':') (by decide))
    simpa using (Tells.white hw).silent ((Tells.string hname).silent hvalue)
  | one h ih => exact ih
  | more h hrest ih ihrest => exact ih.silent (ihrest.cons (by decide))

theorem Finite.tells {v : Json} (h : v.Finite) : Tells (chars v) v.Finite :=
  h.standard.tells.congr (iff_of_true trivial h)

theorem tells_float (x : Binary64) : Tells (chars (.float x)) (Json.float x).Finite := by
  have hno : x.isFinite = false → ¬ (Json.float x).Finite := by
    rintro hx ⟨⟩
    simp_all
  cases x with
  | finite s code => exact (Finite.float rfl).tells
  | infinite s =>
    have hquote : '"' ∉ chars (.float (.infinite s)) := by cases s <;> decide
    have hmark : 'I' ∈ chars (.float (.infinite s)) := by cases s <;> decide
    exact (Tells.plain hquote).congr (iff_of_false (fun h => h 'I' hmark (by decide)) (hno rfl))
  | nan =>
    have hquote : '"' ∉ chars (.float .nan) := by decide
    have hmark : 'N' ∈ chars (.float .nan) := by decide
    exact (Tells.plain hquote).congr (iff_of_false (fun h => h 'N' hmark (by decide)) (hno rfl))

theorem tells_member (name : String) {cs : List Char} {p : Prop} (h : Tells cs p) :
    Tells (stringText name ++ ':' :: ' ' :: cs) p :=
  ((Tells.string (.flatMap_charText name.toList)).append
    ((h.cons (by decide)).cons (by decide))).congr (Iff.of_eq (true_and p))

mutual

theorem tells_chars (v : Json) : Tells (chars v) v.Finite := by
  match v with
  | .null => exact Finite.null.tells
  | .bool b => exact (Finite.bool b).tells
  | .int n => exact (Finite.int n).tells
  | .float x => exact tells_float x
  | .string s => exact (Finite.string s).tells
  | .unpaired => exact Finite.unpaired.tells
  | .array items =>
    rw [chars]
    refine ((tells_itemChars items).enclosed (by decide) (by decide)).congr ⟨.array, ?_⟩
    intro h
    cases h with
    | array h => exact h
  | .object members =>
    rw [chars]
    refine ((tells_memberChars members).enclosed (by decide) (by decide)).congr ⟨.object, ?_⟩
    intro h
    cases h with
    | object h => exact h

theorem tells_itemChars (vs : List Json) : Tells (itemChars vs) (∀ v ∈ vs, v.Finite) := by
  match vs with
  | [] => exact Tells.nil.congr (iff_of_true trivial (List.forall_mem_nil _))
  | [v] => exact (tells_chars v).congr (by simp)
  | v :: w :: vs =>
    rw [itemChars, List.forall_mem_cons]
    · exact (tells_chars v).append (tells_itemChars (w :: vs)).next
    · exact List.cons_ne_nil w vs

theorem tells_memberChars (ms : List (String × Json)) :
    Tells (memberChars ms) (∀ m ∈ ms, m.2.Finite) := by
  match ms with
  | [] => exact Tells.nil.congr (iff_of_true trivial (List.forall_mem_nil _))
  | [(k, v)] => exact (tells_member k (tells_chars v)).congr (by simp)
  | (k, v) :: m :: ms =>
    rw [memberChars, List.forall_mem_cons]
    · exact tells_member k ((tells_chars v).append (tells_memberChars (m :: ms)).next)
    · exact List.cons_ne_nil m ms

end

/-- The text of a value is standard if and only if every number in it is finite. -/
theorem standard_text_iff (v : Json) : Standard .text v.text.toList ↔ v.Finite := by
  rw [text, String.toList_ofList]
  constructor
  · intro h
    exact (h.tells.unique (tells_chars v)).mp trivial
  · intro h
    exact h.standard.value_text

end Json
end Reckoner
