import Mathlib.Data.Nat.Digits.Defs
import Reckoner.Proofs.Text.Blank
import Reckoner.Proofs.Text.Numeral

/-!
What a text denotes as a whole number, without the reader: blanks, a sign, and decimal digits of any
script with single underscores between them. The reader accepts these texts and gives their value.
-/

namespace Reckoner.Text

def DigitOf (c : Char) (v : Nat) : Prop :=
  v < 10 ∧ ∃ z ∈ zeros, c.toNat = z + v

/-- Digits, with at most one underscore between two of them, and their values. -/
inductive Grouped : List Char → List Nat → Prop where
  | last {c : Char} {v : Nat} (h : DigitOf c v) : Grouped [c] [v]
  | digit {c : Char} {v : Nat} {cs : List Char} {vs : List Nat} (h : DigitOf c v)
    (rest : Grouped cs vs) : Grouped (c :: cs) (v :: vs)
  | score {c : Char} {v : Nat} {cs : List Char} {vs : List Nat} (h : DigitOf c v)
    (rest : Grouped cs vs) : Grouped (c :: '_' :: cs) (v :: vs)

inductive Signed : List Char → Nat → Int → Prop where
  | bare (m : Nat) : Signed [] m m
  | plus (m : Nat) : Signed ['+'] m m
  | minus (m : Nat) : Signed ['-'] m (-m)

/-- A text denotes a whole number. One of too many digits denotes none. -/
def Denotes (cs : List Char) (n : Int) : Prop :=
  ∃ before sign body after vs, cs = before ++ (sign ++ body) ++ after ∧
    (∀ c ∈ before, isSpace c = true) ∧ (∀ c ∈ after, isSpace c = true) ∧
    Grouped body vs ∧ vs.length ≤ maxDigits ∧ Signed sign (Nat.ofDigits 10 vs.reverse) n

variable {c : Char} {cs ds body sign before after : List Char} {v m : Nat} {vs : List Nat} {n : Int}

/-! Digits of any script. -/

theorem digitOf_of_isDigit (h : isDigit (plainDigit c) = true) :
    DigitOf c (digitValue (plainDigit c)) := by
  unfold plainDigit at h ⊢
  split at h
  · next z hz =>
    have hrange := List.find?_some hz
    simp only [Bool.and_eq_true, decide_eq_true_eq] at hrange
    have hv : c.toNat - z < 10 := by omega
    rw [digitValue_digitChar hv]
    exact ⟨hv, z, List.mem_of_find?_eq_some hz, by omega⟩
  · obtain ⟨hlt, hc⟩ := toNat_of_isDigit h
    exact ⟨hlt, 0x30, by decide, hc⟩

theorem plainDigit_eq_iff {d : Char} (hd : isDigit d = false) (hp : plainDigit d = d) :
    plainDigit c = d ↔ c = d := by
  constructor
  · unfold plainDigit
    split
    · next z hz =>
      have hrange := List.find?_some hz
      simp only [Bool.and_eq_true, decide_eq_true_eq] at hrange
      have hv : c.toNat - z < 10 := by omega
      exact fun h => absurd h (ne_of_isDigit (isDigit_digitChar hv) hd)
    · exact id
  · rintro rfl
    exact hp

theorem plainDigit_eq_underscore : plainDigit c = '_' ↔ c = '_' :=
  plainDigit_eq_iff (by decide) (by decide)

theorem plainDigit_eq_minus : plainDigit c = '-' ↔ c = '-' :=
  plainDigit_eq_iff (by decide) (by decide)

theorem plainDigit_eq_plus : plainDigit c = '+' ↔ c = '+' :=
  plainDigit_eq_iff (by decide) (by decide)

theorem zeros_apart : ∀ z ∈ zeros, ∀ w ∈ zeros, z = w ∨ z + 10 ≤ w ∨ w + 10 ≤ z := by
  decide +kernel

namespace DigitOf

theorem plainDigit_eq (h : DigitOf c v) : plainDigit c = digitChar v := by
  obtain ⟨hv, z, hz, hc⟩ := h
  unfold plainDigit
  split
  · next w hw =>
    have hrange := List.find?_some hw
    simp only [Bool.and_eq_true, decide_eq_true_eq] at hrange
    have hzw : z = w := by
      have := zeros_apart z hz w (List.mem_of_find?_eq_some hw)
      omega
    rw [hc, hzw, Nat.add_sub_cancel_left]
  · next hnone =>
    have := List.find?_eq_none.mp hnone z hz
    simp only [Bool.and_eq_true, decide_eq_true_eq, not_and] at this
    omega

theorem isSpace_eq_false (h : DigitOf c v) : isSpace c = false := by
  have all : ∀ z ∈ zeros, ∀ d : Fin 10, isSpace (Char.ofNat (z + d)) = false := by decide +kernel
  obtain ⟨hv, z, hz, hc⟩ := h
  have hd := all z hz ⟨v, hv⟩
  rwa [← hc, Char.ofNat_toNat] at hd

theorem isDigit_plainDigit (h : DigitOf c v) : isDigit (plainDigit c) = true := by
  rw [h.plainDigit_eq]
  exact isDigit_digitChar h.1

theorem ne {d : Char} (h : DigitOf c v) (hd : isDigit d = false) (hp : plainDigit d = d) :
    c ≠ d := by
  rintro rfl
  have hdigit := h.isDigit_plainDigit
  rw [hp, hd] at hdigit
  cases hdigit

end DigitOf

/-! Digits with underscores between them. -/

namespace Grouped

theorem exists_cons (h : Grouped body vs) :
    ∃ c v cs ws, body = c :: cs ∧ vs = v :: ws ∧ DigitOf c v := by
  cases h with
  | last h => exact ⟨_, _, _, _, rfl, rfl, h⟩
  | digit h rest => exact ⟨_, _, _, _, rfl, rfl, h⟩
  | score h rest => exact ⟨_, _, _, _, rfl, rfl, h⟩

theorem exists_concat (h : Grouped body vs) : ∃ cs c v, body = cs ++ [c] ∧ DigitOf c v := by
  induction h with
  | last h => exact ⟨[], _, _, rfl, h⟩
  | digit h rest ih =>
    obtain ⟨cs, c, v, rfl, hc⟩ := ih
    exact ⟨_ :: cs, c, v, rfl, hc⟩
  | score h rest ih =>
    obtain ⟨cs, c, v, rfl, hc⟩ := ih
    exact ⟨_ :: '_' :: cs, c, v, rfl, hc⟩

theorem lt_ten (h : Grouped body vs) : ∀ v ∈ vs, v < 10 := by
  induction h with
  | last h => exact List.forall_mem_singleton.mpr h.1
  | digit h rest ih => exact List.forall_mem_cons.mpr ⟨h.1, ih⟩
  | score h rest ih => exact List.forall_mem_cons.mpr ⟨h.1, ih⟩

end Grouped

theorem dropUnderscores_digit {d : Char} (hd : isDigit d = true) (hc : isDigit c = true) :
    dropUnderscores (c :: d :: cs) = (dropUnderscores (d :: cs)).map (c :: ·) := by
  have hcu : c ≠ '_' := ne_of_isDigit hc (by decide)
  have hdu : d ≠ '_' := ne_of_isDigit hd (by decide)
  rw [dropUnderscores]
  · exact hcu
  · exact fun _ _ h _ => hdu h

theorem dropUnderscores_score {d : Char} (hd : isDigit d = true) (hc : isDigit c = true) :
    dropUnderscores (c :: '_' :: d :: cs) = (dropUnderscores (d :: cs)).map (c :: ·) := by
  have hcu : c ≠ '_' := ne_of_isDigit hc (by decide)
  rw [dropUnderscores, hc, hd]
  · rfl
  · exact hcu

theorem dropUnderscores_grouped (h : Grouped body vs) :
    dropUnderscores (body.map plainDigit) = some (vs.map digitChar) := by
  induction h with
  | @last c v h =>
    refine (dropUnderscores_eq_self ?_).trans (by simp [h.plainDigit_eq])
    simpa using ne_of_isDigit h.isDigit_plainDigit (by decide)
  | digit h rest ih =>
    obtain ⟨d, w, cs, ws, rfl, rfl, hd⟩ := rest.exists_cons
    rw [List.map_cons, List.map_cons,
      dropUnderscores_digit hd.isDigit_plainDigit h.isDigit_plainDigit, ← List.map_cons, ih,
      h.plainDigit_eq]
    rfl
  | score h rest ih =>
    obtain ⟨d, w, cs, ws, rfl, rfl, hd⟩ := rest.exists_cons
    have hu : plainDigit '_' = '_' := by decide
    rw [List.map_cons, List.map_cons, List.map_cons, hu,
      dropUnderscores_score hd.isDigit_plainDigit h.isDigit_plainDigit, ← List.map_cons, ih,
      h.plainDigit_eq]
    rfl

theorem exists_grouped (h : dropUnderscores (body.map plainDigit) = some ds) (hne : body ≠ [])
    (hd : ∀ d ∈ ds, isDigit d = true) : ∃ vs, Grouped body vs ∧ ds = vs.map digitChar := by
  generalize hcs : body.map plainDigit = cs at h
  fun_induction dropUnderscores cs generalizing body ds with
  | case1 => exact absurd (List.map_eq_nil_iff.mp hcs) hne
  | case2 cs => cases h
  | case3 c hc =>
    cases h
    obtain ⟨b, rfl, rfl⟩ := List.map_eq_singleton_iff.mp hcs
    have hb := hd _ List.mem_cons_self
    exact ⟨[_], .last (digitOf_of_isDigit hb), by simp [digitChar_digitValue hb]⟩
  | case4 c d cs hc hdigits ih =>
    obtain ⟨ds, hds, rfl⟩ := Option.map_eq_some_iff.mp h
    obtain ⟨b, rest, rfl, rfl, hrest⟩ := List.map_eq_cons_iff.mp hcs
    obtain ⟨u, rest, rfl, hu, hrest⟩ := List.map_eq_cons_iff.mp hrest
    have hb := hd _ List.mem_cons_self
    have hne : rest ≠ [] := by
      rintro rfl
      cases hrest
    obtain ⟨vs, hvs, rfl⟩ := ih hne (fun d h => hd d (List.mem_cons_of_mem _ h)) hrest hds
    rw [plainDigit_eq_underscore.mp hu]
    exact ⟨_ :: vs, .score (digitOf_of_isDigit hb) hvs, by simp [digitChar_digitValue hb]⟩
  | case5 c d cs hc hdigits => cases h
  | case6 c d cs hc hscore ih =>
    obtain ⟨ds, hds, rfl⟩ := Option.map_eq_some_iff.mp h
    obtain ⟨b, rest, rfl, rfl, hrest⟩ := List.map_eq_cons_iff.mp hcs
    have hb := hd _ List.mem_cons_self
    have hne : rest ≠ [] := by
      rintro rfl
      cases hrest
    obtain ⟨vs, hvs, rfl⟩ := ih hne (fun d h => hd d (List.mem_cons_of_mem _ h)) hrest hds
    exact ⟨_ :: vs, .digit (digitOf_of_isDigit hb) hvs, by simp [digitChar_digitValue hb]⟩

theorem ofDigits_map_digitChar (h : ∀ v ∈ vs, v < 10) :
    ofDigits (vs.map digitChar) = Nat.ofDigits 10 vs.reverse := by
  induction vs using List.reverseRecOn with
  | nil => rfl
  | append_singleton vs v ih =>
    rw [List.forall_mem_append, List.forall_mem_singleton] at h
    rw [List.map_append, List.map_singleton, ofDigits_concat, ih h.1, digitValue_digitChar h.2,
      List.reverse_concat, Nat.ofDigits_cons, Nat.add_comm]

/-! The sign. -/

theorem splitSign_map_plainDigit (cs : List Char) :
    splitSign (cs.map plainDigit) = ((splitSign cs).1, (splitSign cs).2.map plainDigit) := by
  cases cs with
  | nil => rfl
  | cons c cs =>
    by_cases hm : c = '-'
    · rw [hm, List.map_cons, plainDigit_eq_minus.mpr rfl]
      rfl
    by_cases hp : c = '+'
    · rw [hp, List.map_cons, plainDigit_eq_plus.mpr rfl]
      rfl
    rw [splitSign_cons hm hp, List.map_cons,
      splitSign_cons (plainDigit_eq_minus.not.mpr hm) (plainDigit_eq_plus.not.mpr hp)]

theorem exists_signed (cs : List Char) :
    ∃ sign, cs = sign ++ (splitSign cs).2 ∧
      ∀ m, Signed sign m (if (splitSign cs).1 then -m else m) := by
  unfold splitSign
  split
  · exact ⟨['-'], rfl, .minus⟩
  · exact ⟨['+'], rfl, .plus⟩
  · exact ⟨[], rfl, .bare⟩

theorem splitSign_signed (hs : Signed sign m n) (hb : Grouped body vs) :
    (splitSign (sign ++ body)).2 = body ∧
      n = if (splitSign (sign ++ body)).1 then -(m : Int) else m := by
  cases hs with
  | bare =>
    obtain ⟨c, v, cs, ws, rfl, rfl, hc⟩ := hb.exists_cons
    rw [List.nil_append, splitSign_cons (hc.ne (by decide) (by decide))
      (hc.ne (by decide) (by decide))]
    exact ⟨rfl, rfl⟩
  | plus => exact ⟨rfl, rfl⟩
  | minus => exact ⟨rfl, rfl⟩

/-! The whole text. -/

theorem isSpace_head?_signed (hs : Signed sign m n) (hb : Grouped body vs) :
    ∀ c ∈ (sign ++ body).head?, isSpace c = false := by
  cases hs with
  | bare =>
    obtain ⟨c, v, cs, ws, rfl, rfl, hc⟩ := hb.exists_cons
    rintro _ ⟨⟩
    exact hc.isSpace_eq_false
  | plus =>
    rintro _ ⟨⟩
    decide
  | minus =>
    rintro _ ⟨⟩
    decide

theorem isSpace_getLast?_grouped (hb : Grouped body vs) (sign : List Char) :
    ∀ c ∈ (sign ++ body).getLast?, isSpace c = false := by
  obtain ⟨cs, c, v, rfl, hc⟩ := hb.exists_concat
  rw [← List.append_assoc, List.getLast?_concat]
  rintro _ ⟨⟩
  exact hc.isSpace_eq_false

theorem integer?_of_denotes {s : String} (h : Denotes s.toList n) : integer? s = some n := by
  obtain ⟨before, sign, body, after, vs, hs, hbefore, hafter, hbody, hlength, hsign⟩ := h
  obtain ⟨c, v, cs, ws, hc, hv, -⟩ := hbody.exists_cons
  have htrim : trim isSpace s.toList = sign ++ body := by
    rw [hs]
    exact trim_append hbefore hafter (by simp [hc]) (isSpace_head?_signed hsign hbody)
      (isSpace_getLast?_grouped hbody sign)
  obtain ⟨hrest, hn⟩ := splitSign_signed hsign hbody
  have hdigits : (vs.map digitChar).all isDigit = true := by
    rw [List.all_map, List.all_eq_true]
    exact fun v hv => isDigit_digitChar (hbody.lt_ten v hv)
  unfold integer?
  rw [plainNumeral, htrim, splitSign_map_plainDigit, hrest]
  simp only [dropUnderscores_grouped hbody, hdigits, ofDigits_map_digitChar hbody.lt_ten,
    List.length_map, Nat.not_lt.mpr hlength, hn]
  simp [hv]

theorem denotes_of_integer? {s : String} (h : integer? s = some n) : Denotes s.toList n := by
  obtain ⟨before, after, hs, hbefore, hafter⟩ := exists_trim isSpace s.toList
  obtain ⟨sign, hsign, hsigned⟩ := exists_signed (trim isSpace s.toList)
  unfold integer? at h
  rw [plainNumeral, splitSign_map_plainDigit] at h
  generalize splitSign (trim isSpace s.toList) = split at h hsign hsigned
  obtain ⟨negative, body⟩ := split
  simp only at h
  split at h
  · cases h
  next ds hds =>
  split at h
  · cases h
  next hok =>
  simp only [Bool.or_eq_true, not_or, Bool.not_eq_true, Bool.not_eq_false', List.all_eq_true,
    decide_eq_true_eq] at hok
  obtain ⟨⟨hne, hd⟩, hlength⟩ := hok
  have hbody : body ≠ [] := by
    rintro rfl
    cases hds
    cases hne
  obtain ⟨vs, hvs, rfl⟩ := exists_grouped hds hbody hd
  rw [ofDigits_map_digitChar hvs.lt_ten] at h
  cases h
  rw [List.length_map] at hlength
  exact ⟨before, sign, body, after, vs, hsign ▸ hs, hbefore, hafter, hvs, Nat.not_lt.mp hlength,
    hsigned _⟩

theorem integer?_eq_some_iff {s : String} : integer? s = some n ↔ Denotes s.toList n :=
  ⟨denotes_of_integer?, integer?_of_denotes⟩

end Reckoner.Text
