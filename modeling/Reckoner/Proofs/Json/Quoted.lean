import Reckoner.Json.Reader
import Reckoner.Json.Writer
import Reckoner.Proofs.Outcome

/-!
Strings of JSON: every character is read back from the way it is written, whatever stands behind it.
-/

namespace Reckoner
open Text

namespace Text

theorem hexValue?_hexDigit (n : Nat) : hexValue? (hexDigit (n % 16)) = some (n % 16) := by
  have : ∀ d : Fin 16, hexValue? (hexDigit d) = some d.val := by decide
  exact this ⟨n % 16, Nat.mod_lt n (by decide)⟩

end Text

namespace Json

/-- The reader takes the value off the front of a text, and this is the rest. -/
def Reads {α : Type} {cs : List Char} (x : Except Fault (Read α cs)) (a : α)
    (rest : List Char) : Prop :=
  ∃ h : rest.length < cs.length, x = .ok ⟨a, rest, h⟩

variable {opening : Nat} {cs rest : List Char} {s : List (Option Char)} {c d : Char}

theorem unit?_hex {n : Nat} (hn : n < 0x10000) (hcs : cs ≠ []) :
    unit? (hex 4 n ++ cs) = some (n, cs) := by
  obtain ⟨e, rest, rfl⟩ := List.exists_cons_of_ne_nil hcs
  have hhex : hex 4 n ++ e :: rest = hexDigit (n / 16 / 16 / 16 % 16) ::
      hexDigit (n / 16 / 16 % 16) :: hexDigit (n / 16 % 16) :: hexDigit (n % 16) :: e :: rest := rfl
  have hvalue : ((n / 16 / 16 / 16 % 16 * 16 + n / 16 / 16 % 16) * 16 + n / 16 % 16) * 16 +
      n % 16 = n := by omega
  simp only [hhex, unit?, hexValue?_hexDigit, hvalue]

theorem stringFrom_quote : Reads (stringFrom opening ('"' :: rest)) [] rest := by
  rw [stringFrom]
  exact ⟨_, rfl⟩

theorem stringFrom_plain (hq : c ≠ '"') (hb : c ≠ '\\') (hc : 0x20 ≤ c.toNat)
    (h : Reads (stringFrom opening cs) s rest) :
    Reads (stringFrom opening (c :: cs)) (some c :: s) rest := by
  obtain ⟨hlt, h⟩ := h
  rw [stringFrom, if_neg (Nat.not_lt.mpr hc), h]
  · exact ⟨Nat.lt_succ_of_lt hlt, rfl⟩
  · exact hq
  · exact fun hc _ => hb hc
  · exact fun _ hc _ => hb hc
  · exact fun _ _ hc _ => hb hc

theorem stringFrom_escape (hd : escaped? c = some d) (h : Reads (stringFrom opening cs) s rest) :
    Reads (stringFrom opening ('\\' :: c :: cs)) (some d :: s) rest := by
  obtain ⟨hlt, h⟩ := h
  have hu : c ≠ 'u' := by
    rintro rfl
    cases hd
  rw [stringFrom, hd]
  · dsimp only
    rw [h]
    exact ⟨Nat.lt_succ_of_lt (Nat.lt_succ_of_lt hlt), rfl⟩
  · exact hu

theorem stringFrom_unit {n : Nat} {o : Option Char} {after next : List Char}
    (hu : unit? cs = some (n, after)) (hc : unitChar n after = (o, next))
    (h : Reads (stringFrom opening next) s rest) :
    Reads (stringFrom opening ('\\' :: 'u' :: cs)) (o :: s) rest := by
  have ho : (unitChar n after).1 = o := by rw [hc]
  have hnext : (unitChar n after).2 = next := by rw [hc]
  subst ho hnext
  obtain ⟨hlt, h⟩ := h
  have := length_of_unit? hu
  have := length_unitChar_le n after
  rw [stringFrom]
  split
  · next hnone =>
    rw [hu] at hnone
    cases hnone
  · next m after' hsome =>
    rw [hu] at hsome
    cases hsome
    rw [h]
    exact ⟨by simp only [List.length_cons]; omega, rfl⟩

theorem unitChar_plain {n : Nat} (h : n < 0xD800 ∨ 0xE000 ≤ n) (cs : List Char) :
    unitChar n cs = (some (Char.ofNat n), cs) := by
  have hchar : char? n = some (Char.ofNat n) := if_neg (by omega)
  unfold unitChar
  split
  · rw [if_neg (by omega), hchar]
  · rw [hchar]

theorem unitChar_pair {high low : Nat} (hhigh : high < 0x400) (hlow : low < 0x400) (hcs : cs ≠ []) :
    unitChar (0xD800 + high) ('\\' :: 'u' :: (hex 4 (0xDC00 + low) ++ cs)) =
      (some (Char.ofNat (0x10000 + high * 0x400 + low)), cs) := by
  have hunit : lowUnit? ('\\' :: 'u' :: (hex 4 (0xDC00 + low) ++ cs)) =
      some (0xDC00 + low, cs) := by
    rw [lowUnit?, unit?_hex (by omega) hcs, Option.filter_some]
    exact if_pos (by simp; omega)
  have hsub : 0xD800 + high - 0xD800 = high ∧ 0xDC00 + low - 0xDC00 = low := by omega
  simp only [unitChar, hunit, hsub]
  exact if_pos (by omega)

theorem charText_cases (c : Char) :
    (∃ e, charText c = ['\\', e] ∧ escaped? e = some c) ∨
      (charText c = [c] ∧ c ≠ '"' ∧ c ≠ '\\' ∧ 0x20 ≤ c.toNat) ∨
      (charText c = unitEscape c.toNat ∧ c.toNat < 0x10000) ∨
      (charText c = unitEscape (0xD800 + (c.toNat - 0x10000) / 0x400) ++
        unitEscape (0xDC00 + (c.toNat - 0x10000) % 0x400) ∧ 0x10000 ≤ c.toNat) := by
  have hcode : ∀ n, n.isValidChar → c.toNat = n → c = Char.ofNat n := by
    rintro n - rfl
    exact (Char.ofNat_toNat c).symm
  unfold charText
  split
  · next hc =>
    refine .inl ⟨c, rfl, ?_⟩
    rcases Bool.or_eq_true _ _ ▸ hc with hc | hc
    · rw [eq_of_beq hc]
      rfl
    · rw [eq_of_beq hc]
      rfl
  · next hmark =>
    simp only [Bool.or_eq_true, beq_iff_eq, not_or] at hmark
    split
    · next hc => exact .inr (.inl ⟨rfl, hmark.1, hmark.2, hc.1⟩)
    split
    · next hc => exact .inl ⟨'n', rfl, by rw [eq_of_beq hc]; rfl⟩
    split
    · next hc => exact .inl ⟨'r', rfl, by rw [eq_of_beq hc]; rfl⟩
    split
    · next hc => exact .inl ⟨'t', rfl, by rw [eq_of_beq hc]; rfl⟩
    split
    · next hc => exact .inl ⟨'b', rfl, by rw [hcode 8 (by decide) (eq_of_beq hc)]; rfl⟩
    split
    · next hc => exact .inl ⟨'f', rfl, by rw [hcode 12 (by decide) (eq_of_beq hc)]; rfl⟩
    split
    · next hc => exact .inr (.inr (.inl ⟨rfl, hc⟩))
    · next hc => exact .inr (.inr (.inr ⟨rfl, Nat.not_lt.mp hc⟩))

theorem stringFrom_char (c : Char) (hcs : cs ≠ []) (h : Reads (stringFrom opening cs) s rest) :
    Reads (stringFrom opening (charText c ++ cs)) (some c :: s) rest := by
  have hvalid : c.toNat < 0xD800 ∨ 0xDFFF < c.toNat ∧ c.toNat < 0x110000 := c.valid
  rcases charText_cases c with ⟨e, he, hd⟩ | ⟨he, hq, hb, hc⟩ | ⟨he, hc⟩ | ⟨he, hc⟩
  · rw [he]
    exact stringFrom_escape hd h
  · rw [he]
    exact stringFrom_plain hq hb hc h
  · have hchar : unitChar c.toNat cs = (some c, cs) := by
      rw [unitChar_plain (by omega), Char.ofNat_toNat]
    rw [he]
    exact stringFrom_unit (unit?_hex hc hcs) hchar h
  -- The second unit is never read alone: the first one takes it along.
  · have hhigh : (c.toNat - 0x10000) / 0x400 < 0x400 := by omega
    have hlow : (c.toNat - 0x10000) % 0x400 < 0x400 := Nat.mod_lt _ (by decide)
    have hsum : 0x10000 + (c.toNat - 0x10000) / 0x400 * 0x400 + (c.toNat - 0x10000) % 0x400 =
        c.toNat := by omega
    have hchar := unitChar_pair hhigh hlow hcs
    rw [hsum, Char.ofNat_toNat] at hchar
    rw [he, List.append_assoc]
    exact stringFrom_unit (unit?_hex (by omega) (List.cons_ne_nil _ _)) hchar h

theorem stringFrom_text (opening : Nat) (cs rest : List Char) :
    Reads (stringFrom opening (cs.flatMap charText ++ '"' :: rest)) (cs.map some) rest := by
  induction cs with
  | nil => exact stringFrom_quote
  | cons c cs ih =>
    rw [List.flatMap_cons, List.append_assoc]
    exact stringFrom_char c (by simp) ih

theorem ofString_some (cs : List Char) : ofString (cs.map some) = .string (String.ofList cs) := by
  have hall : (cs.map some).all (·.isSome) = true := by simp
  have hmap : (cs.map some).filterMap id = cs := by simp
  rw [ofString, if_pos hall, hmap]

theorem nameOf_some (cs : List Char) : nameOf (cs.map some) = String.ofList cs := by
  have hmap : (cs.map some).map (·.getD (Char.ofNat 0xFFFD)) = cs := by
    rw [List.map_map]
    exact List.map_id' cs
  rw [nameOf, hmap]

end Json
end Reckoner
