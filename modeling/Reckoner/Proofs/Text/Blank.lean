import Mathlib.Data.List.DropRight
import Reckoner.Text.Blank
import Reckoner.Text.Case

/-!
Texts without the blanks around them. What is removed is blank, what is left has no blank at either
end, and a text is left empty just when it is blank. Lower case keeps blanks and makes no new ones.
-/

namespace Reckoner.Text

section Trim

variable {p : Char → Bool} {cs : List Char}

theorem exists_trim (p : Char → Bool) (cs : List Char) :
    ∃ before after, cs = before ++ trim p cs ++ after ∧
      (∀ c ∈ before, p c = true) ∧ ∀ c ∈ after, p c = true := by
  let rest := cs.dropWhile p
  have hrest : trim p cs ++ rest.rtakeWhile p = rest := List.rdropWhile_append_rtakeWhile
  have hcs : cs.takeWhile p ++ rest = cs := List.takeWhile_append_dropWhile
  refine ⟨cs.takeWhile p, rest.rtakeWhile p, ?_, ?_, ?_⟩
  · rw [List.append_assoc, hrest, hcs]
  · exact fun c hc => List.mem_takeWhile_imp hc
  · exact fun c hc => List.mem_rtakeWhile_imp hc

theorem trim_eq_nil_iff : trim p cs = [] ↔ ∀ c ∈ cs, p c = true := by
  constructor
  · intro h
    obtain ⟨before, after, hcs, hb, ha⟩ := exists_trim p cs
    rw [h, List.append_nil] at hcs
    rw [hcs, List.forall_mem_append]
    exact ⟨hb, ha⟩
  · intro h
    rw [trim, List.dropWhile_eq_nil_iff.mpr h]
    rfl

end Trim

def Blank (s : String) : Prop :=
  ∀ c ∈ s.toList, isBlank c = true

instance (s : String) : Decidable (Blank s) :=
  decidable_of_iff (s.toList.all isBlank = true) List.all_eq_true

theorem strip_eq_empty_iff {s : String} : strip s = "" ↔ Blank s := by
  rw [strip, String.ofList_eq_empty_iff, trim_eq_nil_iff]
  rfl

/-! Lower case. -/

def blankCodes : List Nat := [
  0x09, 0x0A, 0x0B, 0x0C, 0x0D, 0x1C, 0x1D, 0x1E, 0x1F, 0x20, 0x85, 0xA0, 0x1680, 0x2000, 0x2001,
  0x2002, 0x2003, 0x2004, 0x2005, 0x2006, 0x2007, 0x2008, 0x2009, 0x200A, 0x2028, 0x2029, 0x202F,
  0x205F, 0x3000]

theorem isBlank_iff {c : Char} : isBlank c = true ↔ c.toNat ∈ blankCodes := by
  simp only [isBlank, isSpace, blankCodes, Bool.or_eq_true, Bool.and_eq_true, decide_eq_true_eq,
    beq_iff_eq, List.mem_cons, List.not_mem_nil, or_false]
  omega

theorem mem_blankCodes_of_ofNat {n : Nat} (h : isBlank (Char.ofNat n) = true) : n ∈ blankCodes := by
  rw [isBlank_iff] at h
  by_cases hn : n.isValidChar
  · rwa [Char.ofNat, dif_pos hn] at h
  · rw [Char.ofNat, dif_neg hn] at h
    exact absurd h (by decide)

theorem lowerRuns_blankCodes : ∀ r ∈ lowerRuns, ∀ b ∈ blankCodes,
    r.covers b = false ∧ r.covers (b - r.offset).toNat = false := by
  decide +kernel

theorem isBlank_shifted (c : Char) : isBlank (shifted lowerRuns c) = isBlank c := by
  unfold shifted
  split
  · next r hr =>
    have hmem := List.mem_of_find?_eq_some hr
    have hcovers := List.find?_some hr
    have hfrom : ¬isBlank c = true := by
      intro hb
      rw [(lowerRuns_blankCodes r hmem _ (isBlank_iff.mp hb)).1] at hcovers
      cases hcovers
    have hto : ¬isBlank (Char.ofNat (c.toNat + r.offset).toNat) = true := by
      intro hb
      have hcode := mem_blankCodes_of_ofNat hb
      have hpos : ∀ b ∈ blankCodes, 0 < b := by decide
      have hback : (((c.toNat + r.offset).toNat : Int) - r.offset).toNat = c.toNat := by
        have := hpos _ hcode
        omega
      have hto := (lowerRuns_blankCodes r hmem _ hcode).2
      rw [hback, hcovers] at hto
      cases hto
    rw [Bool.eq_false_iff.mpr hfrom, Bool.eq_false_iff.mpr hto]
  · rfl

theorem all_isBlank_lowerChars (before after : List Char) (c : Char) :
    (lowerChars before after c).all isBlank = isBlank c := by
  unfold lowerChars
  split
  · next h =>
    rw [eq_of_beq h]
    split <;> decide
  split
  · next h =>
    rw [eq_of_beq h]
    decide
  · rw [List.all_cons, List.all_nil, Bool.and_true, isBlank_shifted]

theorem all_isBlank_lowerFrom (before cs : List Char) :
    (lowerFrom before cs).all isBlank = cs.all isBlank := by
  induction cs generalizing before with
  | nil => rfl
  | cons c cs ih => rw [lowerFrom, List.all_append, all_isBlank_lowerChars, ih, List.all_cons]

theorem blank_toLower_iff {s : String} : Blank (toLower s) ↔ Blank s := by
  rw [Blank, Blank, toLower, String.toList_ofList, ← List.all_eq_true, all_isBlank_lowerFrom,
    List.all_eq_true]

end Reckoner.Text
