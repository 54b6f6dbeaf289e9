import Reckoner.Proofs.Expression.Source

/-!
Reading renderings back: the derivation that a rendering spells, and the literal at which a rendering
is refused.
-/

namespace Reckoner
open Text

namespace Operator

def kind : Operator → TokenKind
  | .add => .plus
  | .sub => .minus
  | .mul => .star
  | .div => .slash

theorem symbol_char (op : Operator) :
    ∃ c : Char, op.symbol = c.toString ∧ TokenKind.ofChar? c = some op.kind := by
  cases op with
  | add => exact ⟨'+', rfl, rfl⟩
  | sub => exact ⟨'-', rfl, rfl⟩
  | mul => exact ⟨'*', rfl, rfl⟩
  | div => exact ⟨'/', rfl, rfl⟩

end Operator

namespace Derivation

def joined (left : Derivation .factor) (t : Token) (op : Operator) (ht : t.kind = op.kind)
    (right : Derivation .factor) : Sentence :=
  match op, ht with
  | .add, ht => .link (.single (.single left)) t .add (by rw [ht]; rfl) (.single right)
  | .sub, ht => .link (.single (.single left)) t .sub (by rw [ht]; rfl) (.single right)
  | .mul, ht => .single (.link (.single left) t .mul (by rw [ht]; rfl) right)
  | .div, ht => .single (.link (.single left) t .div (by rw [ht]; rfl) right)

variable (left right : Derivation .factor) {t : Token} {op : Operator} (ht : t.kind = op.kind)

theorem joined_tokens : (left.joined t op ht right).tokens = left.tokens ++ t :: right.tokens := by
  cases op <;> rfl

theorem joined_tree : (left.joined t op ht right).tree =
    left.tree >>= fun l => right.tree >>= fun r => .ok (.operation op l r) := by
  cases op <;> rfl

end Derivation

namespace Expression

def literals : Expression → List Binary64
  | .number x => [x]
  | .negation e => e.literals
  | .operation _ l r => l.literals ++ r.literals

/-- The literals from left to right, each with the place of its text in a rendering that starts at
the given position. -/
def literalsFrom (position : Nat) : Expression → List (Nat × Binary64)
  | .number x => [(position, x)]
  | .negation e => e.literalsFrom (position + 1)
  | .operation _ l r =>
    l.literalsFrom (position + 1) ++ r.literalsFrom (position + l.render.length + 4)

def firstInfinite? (position : Nat) (e : Expression) : Option (Nat × Binary64) :=
  (e.literalsFrom position).find? (!·.2.isFinite)

def derivation (position : Nat) : Expression → Derivation .factor
  | .number x => .number ⟨.number, x.literal, position⟩ rfl
  | .negation e => .minus ⟨.minus, "-", position⟩ rfl (e.derivation (position + 1))
  | .operation op l r =>
    .parens ⟨.lparen, "(", position⟩ rfl
      ((l.derivation (position + 1)).joined
        ⟨op.kind, op.symbol, (position + l.render.length + 2 : Nat)⟩ op rfl
        (r.derivation (position + l.render.length + 4)))
      ⟨.rparen, ")", (position + l.render.length + r.render.length + 4 : Nat)⟩ rfl

theorem map_literalsFrom (e : Expression) (position : Nat) :
    (e.literalsFrom position).map Prod.snd = e.literals := by
  induction e generalizing position with
  | number x => rfl
  | negation e ih => exact ih (position + 1)
  | operation op l r ihl ihr => rw [literalsFrom, List.map_append, ihl, ihr, literals]

theorem length_render_negation (e : Expression) :
    (negation e).render.length = e.render.length + 1 := by
  rw [render, String.length_append, Nat.add_comm]
  rfl

theorem toList_render_operation (op : Operator) (l r : Expression) {c : Char}
    (hc : op.symbol = c.toString) : (operation op l r).render.toList =
      '(' :: (l.render.toList ++ ' ' :: c :: ' ' :: (r.render.toList ++ [')'])) := by
  simp [render, hc]

theorem length_render_operation (op : Operator) (l r : Expression) :
    (operation op l r).render.length = l.render.length + r.render.length + 5 := by
  obtain ⟨c, hc, -⟩ := op.symbol_char
  rw [← String.length_toList, toList_render_operation op l r hc]
  simp only [List.length_cons, List.length_append, List.length_nil, String.length_toList]
  omega

theorem derivation_tree {e : Expression} (h : ∀ x ∈ e.literals, x.Unsigned ∧ x.isFinite = true)
    (position : Nat) : (e.derivation position).tree = .ok e := by
  induction e generalizing position with
  | number x =>
    obtain ⟨hx, hf⟩ := h x (by simp [literals])
    simp [derivation, Derivation.tree, (Binary64.literal_numeral hx hf).2]
  | negation e ih =>
    rw [derivation, Derivation.tree, ih h]
    rfl
  | operation op l r ihl ihr =>
    have hl : ∀ x ∈ l.literals, _ := fun x hx => h x (by simp [literals, hx])
    have hr : ∀ x ∈ r.literals, _ := fun x hx => h x (by simp [literals, hx])
    rw [derivation, Derivation.tree, Derivation.joined_tree, ihl hl, ihr hr]
    rfl

theorem firstInfinite?_operation (op : Operator) (l r : Expression) (position : Nat) :
    (operation op l r).firstInfinite? position =
      (l.firstInfinite? (position + 1)).or
        (r.firstInfinite? (position + l.render.length + 4)) := by
  rw [firstInfinite?, literalsFrom, List.find?_append]
  rfl

theorem scanFrom_operator {op : Operator} {c : Char} (hc : op.symbol = c.toString)
    (hk : TokenKind.ofChar? c = some op.kind) (position : Nat) (cs : List Char) :
    Token.scanFrom position (' ' :: c :: ' ' :: cs) =
      (⟨op.kind, op.symbol, (position + 1 : Nat)⟩ :: ·) <$> Token.scanFrom (position + 3) cs := by
  have hb : isBlank ' ' = true := by decide
  rw [Token.scanFrom_blank hb, Token.scanFrom_symbol hk, Token.scanFrom_blank hb, hc]

/-- A rendering is split into the tokens of its derivation, up to the first literal that is not
finite. The text behind it must not go on with a number. -/
theorem scanFrom_render {e : Expression} (he : ∀ x ∈ e.literals, x.Unsigned) (position : Nat)
    (rest : List Char) (hrest : Token.EndsNumber rest) :
    Token.scanFrom position (e.render.toList ++ rest) =
      match e.firstInfinite? position with
      | some (p, _) => .error (.character 'i' p)
      | none => ((e.derivation position).tokens ++ ·) <$>
          Token.scanFrom (position + e.render.length) rest := by
  -- In an operation the left side is read with all of the right side as the text behind it.
  induction e generalizing position rest with
  | number x =>
    have hx := he x (by simp [literals])
    by_cases hf : x.isFinite = true
    · have hn : (number x).firstInfinite? position = none := by
        simp [firstInfinite?, literalsFrom, hf]
      rw [hn, render, Token.scanFrom_numeral (Binary64.literal_numeral hx hf).1 hrest,
        String.ofList_toList, String.length_toList]
      rfl
    · rw [hx.eq_infinite (Bool.eq_false_iff.mpr hf)]
      exact Token.scanFrom_fault (by decide) (by decide) rfl
  | negation e ih =>
    have hr : (negation e).render.toList ++ rest = '-' :: (e.render.toList ++ rest) := by
      simp [render]
    have hf : (negation e).firstInfinite? position = e.firstInfinite? (position + 1) := rfl
    rw [hr, hf, Token.scanFrom_symbol rfl, ih he (position + 1) rest hrest, length_render_negation,
      Nat.add_right_comm position 1, Nat.add_assoc position]
    cases e.firstInfinite? (position + 1) with
    | some l => rfl
    | none => exact Functor.map_map _ _ _
  | operation op l r ihl ihr =>
    have hl : ∀ x ∈ l.literals, x.Unsigned := fun x hx => he x (by simp [literals, hx])
    have hr : ∀ x ∈ r.literals, x.Unsigned := fun x hx => he x (by simp [literals, hx])
    obtain ⟨c, hc, hk⟩ := op.symbol_char
    have htext : (operation op l r).render.toList ++ rest =
        '(' :: (l.render.toList ++ ' ' :: c :: ' ' :: (r.render.toList ++ ')' :: rest)) := by
      simp [toList_render_operation op l r hc]
    have hleft := ihl hl (position + 1) (' ' :: c :: ' ' :: (r.render.toList ++ ')' :: rest))
      (Token.endsNumber_cons (by decide))
    have hright := ihr hr (position + l.render.length + 4) (')' :: rest)
      (Token.endsNumber_cons (by decide))
    rw [htext, Token.scanFrom_symbol rfl, hleft, firstInfinite?_operation, length_render_operation]
    cases l.firstInfinite? (position + 1) with
    | some x => rfl
    | none =>
      have hmid : position + 1 + l.render.length = position + l.render.length + 1 := by omega
      rw [hmid, scanFrom_operator hc hk, hright]
      cases r.firstInfinite? (position + l.render.length + 4) with
      | some x => rfl
      | none =>
        have hend : position + l.render.length + 4 + r.render.length =
            position + l.render.length + r.render.length + 4 := by omega
        have hall : position + l.render.length + r.render.length + 4 + 1 =
            position + (l.render.length + r.render.length + 5) := by omega
        simp only [Option.none_or, hend, Token.scanFrom_symbol (c := ')') rfl, hall, Functor.map_map]
        congr 1
        funext ts
        simp [derivation, Derivation.tokens, Derivation.joined_tokens, Int.add_assoc]

theorem scan_render {e : Expression} (he : ∀ x ∈ e.literals, x.Unsigned) :
    Token.scan e.render =
      match e.firstInfinite? 0 with
      | some (p, _) => .error (.character 'i' p)
      | none => .ok ((e.derivation 0).tokens ++ [⟨.eof, "", e.render.length⟩]) := by
  have h := scanFrom_render he 0 [] Token.endsNumber_nil
  rw [List.append_nil, Nat.zero_add, Token.scanFrom_nil] at h
  exact h

theorem firstInfinite?_none {e : Expression} (h : ∀ x ∈ e.literals, x.isFinite = true)
    (position : Nat) : e.firstInfinite? position = none := by
  rw [firstInfinite?, List.find?_eq_none]
  intro l hl
  rw [← map_literalsFrom e position] at h
  simp [h l.2 (List.mem_map_of_mem hl)]

theorem literalsFrom_text {e : Expression} {position p : Nat} {x : Binary64}
    (h : (p, x) ∈ e.literalsFrom position) :
    ∃ pre post, e.render.toList = pre ++ x.literal.toList ++ post ∧ p = position + pre.length := by
  induction e generalizing position with
  | number y =>
    cases List.mem_singleton.mp h
    exact ⟨[], [], by simp [render], rfl⟩
  | negation e ih =>
    obtain ⟨pre, post, he, hp⟩ := ih h
    exact ⟨'-' :: pre, post, by simp [render, he], by simp [hp]; omega⟩
  | operation op l r ihl ihr =>
    obtain ⟨c, hc, -⟩ := op.symbol_char
    rw [toList_render_operation op l r hc]
    rcases List.mem_append.mp h with h | h
    · obtain ⟨pre, post, he, hp⟩ := ihl h
      exact ⟨'(' :: pre, post ++ ' ' :: c :: ' ' :: (r.render.toList ++ [')']), by simp [he],
        by rw [hp, List.length_cons]; omega⟩
    · obtain ⟨pre, post, he, hp⟩ := ihr h
      exact ⟨'(' :: (l.render.toList ++ ' ' :: c :: ' ' :: pre), post ++ [')'], by simp [he],
        by simp only [hp, List.length_cons, List.length_append, String.length_toList]; omega⟩

def sentence (e : Expression) : Sentence :=
  .single (.single (e.derivation 0))

theorem ofText_render {limit : Option Int} {e : Expression}
    (h : ∀ x ∈ e.literals, x.Unsigned ∧ x.isFinite = true) :
    ofText limit e.render =
      ofTokens limit (e.sentence.tokens ++ [⟨.eof, "", e.render.length⟩]) := by
  rw [ofText, scan_render fun x hx => (h x hx).1, firstInfinite?_none fun x hx => (h x hx).2]
  rfl

end Expression

namespace Derivation

theorem unsigned_literals {p : Phrase} (d : Derivation p)
    (h : ∀ t ∈ d.tokens, t.kind = .number → Token.Numeral t.lexeme.toList) {e : Expression}
    (he : d.tree = .ok e) : ∀ x ∈ e.literals, x.Unsigned := by
  induction d generalizing e with
  | number t ht =>
    obtain ⟨n, hn⟩ := Binary64.ofText?_numeral (h t (by simp [tokens]) ht)
    rw [String.ofList_toList] at hn
    rw [tree, hn] at he
    cases he
    simpa [Expression.literals] using Binary64.unsigned_toBinary64 n
  | minus t ht inner ih =>
    obtain ⟨a, ha, he⟩ := bind_eq_ok he
    cases he
    exact fun x hx => ih (fun u hu => h u (by simp [tokens, hu])) ha x hx
  | parens t ht inner u hu ih => exact ih (fun v hv => h v (by simp [tokens, hv])) he
  | single inner ih => exact ih h he
  | link left t op ht right ihl ihr =>
    obtain ⟨a, ha, he⟩ := bind_eq_ok he
    obtain ⟨b, hb, he⟩ := bind_eq_ok he
    cases he
    intro x hx
    rcases List.mem_append.mp hx with hx | hx
    · exact ihl (fun u hu => h u (by simp [tokens, hu])) ha x hx
    · exact ihr (fun u hu => h u (by simp [tokens, hu])) hb x hx

end Derivation

open Expression

theorem Expression.unsigned_of_ofText {limit : Option Int} {source : String} {e : Expression}
    (h : ofText limit source = .ok e) : ∀ x ∈ e.literals, x.Unsigned := by
  obtain ⟨d, hd, he, -⟩ := ofText_iff_fits.mp h
  exact d.unsigned_literals (Token.scan_numerals hd) he

/-- A tree that was read off a text is read again off its rendering, unless a literal is beyond the
finite numbers. Then the rendering is refused where the text of the first such literal starts. -/
theorem render_reads_back {source : String} {e : Expression} (h : ofText none source = .ok e) :
    ((∀ x ∈ e.literals, x.isFinite = true) → ofText none e.render = .ok e) ∧
      ((∃ x ∈ e.literals, x.isFinite = false) → ∃ pre post,
        e.render.toList = pre ++ (Binary64.infinite false).literal.toList ++ post ∧
          e.firstInfinite? 0 = some (pre.length, .infinite false) ∧
          Token.scan e.render = .error (.character 'i' pre.length)) := by
  obtain ⟨d, hd, he⟩ := ofText_iff.mp h
  have hu := d.unsigned_literals (Token.scan_numerals hd) he
  constructor
  · intro hf
    have hall : ∀ x ∈ e.literals, x.Unsigned ∧ x.isFinite = true :=
      fun x hx => ⟨hu x hx, hf x hx⟩
    have htree : e.sentence.tree = .ok e := derivation_tree hall 0
    rw [ofText_render hall, ofTokens_sentence rfl rfl, htree]
    rfl
  · rintro ⟨x, hx, hf⟩
    have hscan := scan_render hu
    cases hfirst : e.firstInfinite? 0 with
    | none =>
      obtain ⟨l, hl, rfl⟩ := List.mem_map.mp (e.map_literalsFrom 0 ▸ hx)
      have := List.find?_eq_none.mp hfirst l hl
      simp [hf] at this
    | some l =>
      obtain ⟨p, y⟩ := l
      have hmem := List.mem_of_find?_eq_some hfirst
      have hy : y ∈ e.literals := e.map_literalsFrom 0 ▸ List.mem_map_of_mem hmem
      have hinf : y = .infinite false :=
        (hu y hy).eq_infinite (by simpa using List.find?_some hfirst)
      obtain ⟨pre, post, htext, hp⟩ := literalsFrom_text hmem
      rw [Nat.zero_add] at hp
      rw [hfirst] at hscan
      subst hinf hp
      exact ⟨pre, post, htext, rfl, hscan⟩

theorem negatedGroup_reads_back :
    ofText none "(-(1 + 2) * 3)" = .ok (.operation .mul
      (.negation (.operation .add (.number (.ofInt 1)) (.number (.ofInt 2))))
      (.number (.ofInt 3))) ∧
    Token.scan "-inf" = .error (.character 'i' 1) := by
  constructor
  · have hscan : Token.scan "-(1 + 2) * 3" =
        .ok (Derivation.negatedGroup.tokens ++ [⟨.eof, "", 12⟩]) :=
      ok_of_toOption (by decide +kernel)
    have h := render_reads_back (ofText_iff.mpr ⟨_, hscan, Derivation.negatedGroup_tree⟩)
    have hr := h.1 (by decide +kernel)
    have htext : (operation .mul
        (.negation (.operation .add (.number (.ofInt 1)) (.number (.ofInt 2))))
        (.number (.ofInt 3))).render = "(-(1 + 2) * 3)" := by decide +kernel
    rwa [htext] at hr
  · obtain ⟨run, hrun, hinf⟩ : ∃ run, Token.Numeral run ∧
        Binary64.ofText? (String.ofList run) = some (.infinite false) := by
      have hne : ['1'] ++ List.replicate 309 '0' ≠ [] := List.cons_ne_nil _ _
      have hd : ∀ c ∈ ['1'] ++ List.replicate 309 '0', isDigit c = true := by
        intro c hc
        rcases List.mem_append.mp hc with hc | hc
        · rw [List.mem_singleton.mp hc]
          decide
        · rw [List.eq_of_mem_replicate hc]
          decide
      have hbig : (⟨ofDigits ['1'] * 10 ^ 309, 0⟩ : Decimal).toBinary64 false = .infinite false := by
        decide +kernel
      refine ⟨_, .whole hd hne, ?_⟩
      rw [Binary64.ofText?_numeric (Token.Numeral.whole hd hne).numeric,
        Decimal.ofFixed?_whole hd hne, ofDigits_append_zeros, Option.map_some, hbig]
    let d : Sentence :=
      .single (.single (.minus ⟨.minus, "-", 0⟩ rfl (.number ⟨.number, String.ofList run, 1⟩ rfl)))
    have hscan : Token.scan (String.ofList ('-' :: run)) =
        .ok (d.tokens ++ [⟨.eof, "", (String.ofList ('-' :: run)).length⟩]) := by
      have hnumber : Token.scanFrom (0 + 1) (run ++ []) = _ :=
        Token.scanFrom_numeral hrun Token.endsNumber_nil
      rw [List.append_nil, Token.scanFrom_nil] at hnumber
      rw [Token.scan, String.toList_ofList, Token.scanFrom_symbol rfl, hnumber, String.length_ofList,
        List.length_cons, Nat.zero_add, Nat.add_comm 1]
      rfl
    have htree : d.tree = .ok (.negation (.number (.infinite false))) := by
      simp [d, Derivation.tree, hinf]
    have h := render_reads_back (ofText_iff.mpr ⟨d, hscan, htree⟩)
    obtain ⟨pre, post, -, hfirst, hr⟩ := h.2 ⟨.infinite false, List.mem_cons_self, rfl⟩
    have hlen : 1 = pre.length := congrArg Prod.fst (Option.some.inj hfirst)
    rw [← hlen] at hr
    exact hr

end Reckoner
