import Mathlib.Data.String.Basic
import Reckoner.Proofs.Json.Scalar

/-!
JSON is written in blanks and visible ASCII characters, each of them one byte. So a value stays on
one line.
-/

namespace Reckoner
open Text

namespace Text

/-- An ASCII character, but for the control characters. -/
def Visible (c : Char) : Prop :=
  0x20 ≤ c.toNat ∧ c.toNat < 0x7F

instance (c : Char) : Decidable (Visible c) :=
  inferInstanceAs (Decidable (_ ∧ _))

variable {c : Char}

theorem forall_visible {cs : List Char} (h : (cs.all fun c => decide (Visible c)) = true) :
    ∀ c ∈ cs, Visible c :=
  forall_mem_of_all Visible h

theorem visible_of_isDigit (h : isDigit c = true) : Visible c := by
  have hdigit : ∀ d : Fin 10, Visible (digitChar d) := by decide
  rw [← digitChar_digitValue h]
  exact hdigit ⟨digitValue c, digitValue_lt h⟩

theorem visible_of_mem_hex {width n : Nat} (h : c ∈ hex width n) : Visible c := by
  have hdigit : ∀ d : Fin 16, Visible (hexDigit d) := by decide
  induction width generalizing n with
  | zero => cases h
  | succ width ih =>
    cases List.mem_append.mp h with
    | inl h => exact ih h
    | inr h =>
      rw [List.mem_singleton.mp h]
      exact hdigit ⟨n % 16, Nat.mod_lt n (by decide)⟩

theorem Visible.ne_newline (h : Visible c) : c ≠ '\n' := by
  rintro rfl
  exact absurd h (by decide)

theorem Visible.utf8Size (h : Visible c) : c.utf8Size = 1 := by
  have hsize : c.val.toNat ≤ 127 := Nat.le_of_lt h.2
  exact Char.utf8Size_eq_one_iff.mpr hsize

theorem utf8ByteSize_of_visible {s : String} (h : ∀ c ∈ s.toList, Visible c) :
    s.utf8ByteSize = s.length := by
  rw [← String.ofList_toList (s := s), String.utf8ByteSize_ofList, String.length_ofList]
  generalize s.toList = cs at h
  induction cs with
  | nil => rfl
  | cons c cs ih =>
    rw [List.forall_mem_cons] at h
    rw [String.utf8Len_cons, ih h.2, h.1.utf8Size, List.length_cons]

end Text

section Numbers

variable {c : Char}

theorem visible_of_mem_intText {n : Int} (h : c ∈ (intText n).toList) : Visible c := by
  cases n with
  | ofNat n =>
    rw [intText, natText, String.toList_ofList] at h
    exact visible_of_isDigit (isDigit_of_mem_digits h)
  | negSucc n =>
    rw [intText, natText, String.toList_append, String.toList_ofList (l := digits (n + 1))] at h
    cases List.mem_append.mp h with
    | inl h =>
      rw [List.mem_singleton.mp h]
      decide
    | inr h => exact visible_of_isDigit (isDigit_of_mem_digits h)

theorem NumberText.visible {w f e : List Char} (h : NumberText w f e) :
    ∀ c ∈ w ++ (f ++ e), Visible c := by
  have hdigits : ∀ {ds : List Char}, (∀ c ∈ ds, isDigit c = true) → ∀ c ∈ ds, Visible c :=
    fun hd c hc => visible_of_isDigit (hd c hc)
  have hfraction : ∀ c ∈ f, Visible c := by
    cases h.fractionText with
    | none => exact nofun
    | digits hf _ => exact List.forall_mem_cons.mpr ⟨by decide, hdigits hf⟩
  have hexponent : ∀ c ∈ e, Visible c := by
    cases h.exponentText with
    | none => exact nofun
    | digits hs he _ =>
      refine List.forall_mem_cons.mpr ⟨by decide, List.forall_mem_cons.mpr ⟨?_, hdigits he⟩⟩
      rcases hs with rfl | rfl <;> decide
  simp only [List.forall_mem_append]
  exact ⟨hdigits h.wholeDigits, hfraction, hexponent⟩

end Numbers

namespace Json

theorem visible_unitEscape (n : Nat) : ∀ c ∈ unitEscape n, Visible c :=
  List.forall_mem_cons.mpr ⟨by decide,
    List.forall_mem_cons.mpr ⟨by decide, fun _ hc => visible_of_mem_hex hc⟩⟩

theorem visible_charText (c : Char) : ∀ d ∈ charText c, Visible d := by
  have hescape : ∀ e : Char, Visible e → ∀ d ∈ ['\\', e], Visible d :=
    fun e he => List.forall_mem_cons.mpr ⟨by decide, List.forall_mem_singleton.mpr he⟩
  unfold charText
  split
  · next hc =>
    refine hescape c ?_
    rcases Bool.or_eq_true _ _ ▸ hc with hc | hc <;> rw [eq_of_beq hc] <;> decide
  split
  · next hc => exact List.forall_mem_singleton.mpr ⟨hc.1, Nat.lt_succ_of_le hc.2⟩
  split
  · exact hescape 'n' (by decide)
  split
  · exact hescape 'r' (by decide)
  split
  · exact hescape 't' (by decide)
  split
  · exact hescape 'b' (by decide)
  split
  · exact hescape 'f' (by decide)
  split
  · exact visible_unitEscape _
  · exact List.forall_mem_append.mpr ⟨visible_unitEscape _, visible_unitEscape _⟩

theorem visible_stringText (s : String) : ∀ c ∈ stringText s, Visible c := by
  refine List.forall_mem_cons.mpr ⟨by decide, List.forall_mem_append.mpr ⟨?_, forall_visible rfl⟩⟩
  intro d hd
  obtain ⟨c, -, hc⟩ := List.mem_flatMap.mp hd
  exact visible_charText c d hc

theorem visible_float (x : Binary64) : ∀ c ∈ chars (.float x), Visible c := by
  cases x with
  | nan => exact forall_visible rfl
  | infinite s => cases s <;> exact forall_visible rfl
  | finite s code =>
    obtain ⟨⟨w, f, e, hparts, htext, -⟩, -⟩ := Binary64.natural_shortest code
    rw [chars_finite, hparts, List.forall_mem_append]
    exact ⟨by cases s <;> exact forall_visible rfl, htext.visible⟩

mutual

theorem visible_chars (v : Json) : ∀ c ∈ chars v, Visible c := by
  match v with
  | .null => exact forall_visible rfl
  | .bool b => cases b <;> exact forall_visible rfl
  | .int n =>
    rw [chars]
    exact fun c hc => visible_of_mem_intText hc
  | .float x => exact visible_float x
  | .string s =>
    rw [chars]
    exact visible_stringText s
  | .unpaired => exact forall_visible rfl
  | .array items =>
    rw [chars, List.forall_mem_cons, List.forall_mem_append]
    exact ⟨by decide, visible_itemChars items, forall_visible rfl⟩
  | .object members =>
    rw [chars, List.forall_mem_cons, List.forall_mem_append]
    exact ⟨by decide, visible_memberChars members, forall_visible rfl⟩

theorem visible_itemChars (vs : List Json) : ∀ c ∈ itemChars vs, Visible c := by
  match vs with
  | [] => exact nofun
  | [v] => exact visible_chars v
  | v :: w :: vs =>
    rw [itemChars, List.forall_mem_append, List.forall_mem_cons, List.forall_mem_cons]
    · exact ⟨visible_chars v, by decide, by decide, visible_itemChars (w :: vs)⟩
    · exact List.cons_ne_nil w vs

theorem visible_memberChars (ms : List (String × Json)) : ∀ c ∈ memberChars ms, Visible c := by
  match ms with
  | [] => exact nofun
  | [(k, v)] =>
    rw [memberChars, List.forall_mem_append, List.forall_mem_cons, List.forall_mem_cons]
    exact ⟨visible_stringText k, by decide, by decide, visible_chars v⟩
  | (k, v) :: m :: ms =>
    rw [memberChars]
    · simp only [List.forall_mem_append, List.forall_mem_cons]
      exact ⟨visible_stringText k, by decide, by decide, visible_chars v, by decide, by decide,
        visible_memberChars (m :: ms)⟩
    · exact List.cons_ne_nil m ms

end

theorem visible_text (v : Json) : ∀ c ∈ v.text.toList, Visible c := by
  rw [text, String.toList_ofList]
  exact visible_chars v

end Json
end Reckoner
