import Reckoner.Proofs.Json.RoundTrip
import Reckoner.Proofs.Json.Visible
import Reckoner.Web.Body

/-!
Asking for the value of an expression: the body that a client writes is read as that expression.
-/

namespace Reckoner.Web
open Text

theorem toList_loop (bytes : ByteArray) (i : Nat) (acc : List UInt8) :
    ByteArray.toList.loop bytes i acc = acc.reverse ++ bytes.data.toList.drop i := by
  fun_induction ByteArray.toList.loop bytes i acc with
  | case1 i acc h ih =>
    have hi : i < bytes.data.toList.length := by simpa using h
    rw [ih, List.drop_eq_getElem_cons hi]
    simp [ByteArray.get!, h]
  | case2 i acc h =>
    rw [List.drop_eq_nil_of_le (by simpa using Nat.le_of_not_lt h)]
    simp

theorem utf8_toList (cs : List Char) :
    (String.ofList cs).toUTF8.toList = cs.flatMap String.utf8EncodeChar := by
  rw [String.toUTF8_eq_toByteArray, String.toByteArray_ofList, ByteArray.toList, toList_loop]
  simp [List.utf8Encode]

theorem ofBytes_utf8 {bytes : List Nat} (h : ∀ b ∈ bytes, b ≠ 0) :
    Encoding.ofBytes bytes = .utf8 := by
  unfold Encoding.ofBytes
  split
  · next a b =>
    simp only [List.forall_mem_cons] at h
    rw [if_neg h.1, if_neg h.2.1]
  · next a b c d bytes =>
    simp only [List.forall_mem_cons] at h
    rw [if_neg h.1, if_neg h.2.1]
  · rfl

theorem ne_zero_of_visible {c : Char} (h : Visible c) :
    ∀ b ∈ String.utf8EncodeChar c, b.toNat ≠ 0 := by
  rw [String.utf8EncodeChar_eq_singleton h.utf8Size, List.forall_mem_singleton]
  have hlow := h.1
  have hhigh := h.2
  change c.val.toNat % 256 ≠ 0
  change 32 ≤ c.val.toNat at hlow
  change c.val.toNat < 127 at hhigh
  omega

theorem decodedBody?_visible {s : String} (h : ∀ c ∈ s.toList, Visible c) :
    decodedBody? s = some s := by
  have hbytes : ∀ b ∈ s.toUTF8.toList.map UInt8.toNat, b ≠ 0 := by
    rw [← String.ofList_toList (s := s), utf8_toList, List.forall_mem_map]
    intro b hb
    obtain ⟨c, hc, hb⟩ := List.mem_flatMap.mp hb
    exact ne_zero_of_visible (h c hc) b hb
  rw [decodedBody?, ofBytes_utf8 hbytes]

theorem unmarked_visible {s : String} (h : ∀ c ∈ s.toList, Visible c) : unmarked s = s := by
  unfold unmarked
  split
  · next c cs hcs =>
    have hc : c.toNat ≠ 0xFEFF := by
      have := (h c (by rw [hcs]; exact List.mem_cons_self)).2
      omega
    rw [if_neg (by simpa using hc)]
  · rfl

theorem jsonBody_text {limits : Json.Limits} {v : Json} (h : v.Distinct) (hw : v.Within limits) :
    jsonBody limits v.text = .ok v := by
  rw [jsonBody, decodedBody?_visible v.visible_text]
  dsimp only
  rw [unmarked_visible v.visible_text, Json.ofTextWithin_ok h hw]
  rfl

def bodyFor (source : String) : String :=
  (Json.object [("expression", .string source)]).text

theorem bodyValue_bodyFor {limits inner : Json.Limits} (hl : limits.inner? = some inner)
    (method target source : String) :
    bodyValue limits ⟨method, target, some "application/json", bodyFor source⟩ =
      .ok (.object [("expression", .string source)]) := by
  have hempty : (bodyFor source).isEmpty = false := by
    simp [bodyFor, Json.text, Json.chars]
  have hjson : isJson "application/json" = true := by decide +kernel
  have hdistinct : (Json.object [("expression", .string source)]).Distinct :=
    .object (by simp) (List.forall_mem_singleton.mpr (.string source))
  have hwithin : (Json.object [("expression", .string source)]).Within limits :=
    .object hl (List.forall_mem_singleton.mpr (.string _ source))
  have hbody : jsonBody limits (bodyFor source) = .ok (.object [("expression", .string source)]) :=
    jsonBody_text hdistinct hwithin
  simp [bodyValue, hempty, hjson, hbody]

theorem requestedExpression_bodyFor {limits inner : Json.Limits} (hl : limits.inner? = some inner)
    {source : String} (h : source ≠ "") (method target : String) :
    requestedExpression limits ⟨method, target, some "application/json", bodyFor source⟩ =
      .ok source := by
  have hcheck : checkExpression (.string source) = .ok source := by
    simp [checkExpression, Checked.string, Except.bind, h]
  have hexpression : expressionOf (.object [("expression", .string source)]) = .ok source := by
    change Checked.within "expression" (checkExpression (.string source)) = .ok source
    rw [hcheck]
    rfl
  rw [requestedExpression, bodyValue_bodyFor hl]
  simp only [Except.bind, hexpression]
  rfl

end Reckoner.Web
