import Reckoner.Proofs.Expression.Acceptance
import Reckoner.Proofs.Expression.Literal

/-!
Sources: how a text is split into tokens piece by piece, what the tokens of a text are like, and which
texts are read.
-/

namespace Reckoner
open Text

namespace Token

variable {c : Char} {cs rest : List Char} {position : Nat}

def EndsNumber (rest : List Char) : Prop :=
  ∀ c ∈ rest.head?, isNumeric c = false

theorem endsNumber_nil : EndsNumber [] := by
  simp [EndsNumber]

theorem endsNumber_cons (h : isNumeric c = false) : EndsNumber (c :: cs) := by
  simpa [EndsNumber] using h

theorem isBlank_of_isNumeric (h : isNumeric c = true) : isBlank c = false := by
  have hall : ∀ d ∈ [c], isNumeric d = true := by simpa using h
  exact forall_numeric (isBlank · = false) rfl hall c List.mem_cons_self

theorem isNumeric_of_isBlank (h : isBlank c = true) : isNumeric c = false := by
  cases hn : isNumeric c with
  | false => rfl
  | true =>
    rw [isBlank_of_isNumeric hn] at h
    cases h

section Run

variable (hn : isNumeric c = true)

include hn

theorem numeric_run : ∀ d ∈ c :: cs.takeWhile isNumeric, isNumeric d = true := by
  rw [List.forall_mem_cons]
  exact ⟨hn, List.all_eq_true.mp List.all_takeWhile⟩

theorem numeral_run (h : misplacedPoint? (c :: cs.takeWhile isNumeric) = none) :
    Numeral (c :: cs.takeWhile isNumeric) :=
  (numeral_iff (List.cons_ne_nil _ _) (numeric_run hn)).mpr h

end Run

theorem run_append_rest (c : Char) (cs : List Char) :
    c :: cs = (c :: cs.takeWhile isNumeric) ++ cs.dropWhile isNumeric := by
  rw [List.cons_append, List.takeWhile_append_dropWhile]

section Symbol

variable {kind : TokenKind} (h : TokenKind.ofChar? c = some kind)

include h

theorem ofChar?_kind : kind ≠ .eof ∧ kind ≠ .number := by
  unfold TokenKind.ofChar? at h
  split at h <;> cases h <;> decide

theorem isBlank_of_ofChar? : isBlank c = false := by
  unfold TokenKind.ofChar? at h
  split at h <;> first | rfl | cases h

theorem isNumeric_of_ofChar? : isNumeric c = false := by
  unfold TokenKind.ofChar? at h
  split at h <;> first | rfl | cases h

end Symbol

theorem scanFrom_nil : scanFrom position [] = .ok [⟨.eof, "", position⟩] := by
  rw [scanFrom.eq_def]

theorem scanFrom_blank (h : isBlank c = true) :
    scanFrom position (c :: cs) = scanFrom (position + 1) cs := by
  rw [scanFrom.eq_def]
  exact if_pos h

theorem scanFrom_fault (hb : isBlank c = false) (hn : isNumeric c = false)
    (hk : TokenKind.ofChar? c = none) :
    scanFrom position (c :: cs) = .error (.character c position) := by
  rw [scanFrom.eq_def]
  simp only [hb, hn, hk, Bool.false_eq_true, if_false]

theorem scanFrom_symbol {kind : TokenKind} (h : TokenKind.ofChar? c = some kind) :
    scanFrom position (c :: cs) =
      (⟨kind, c.toString, position⟩ :: ·) <$> scanFrom (position + 1) cs := by
  have hb := isBlank_of_ofChar? h
  have hn := isNumeric_of_ofChar? h
  rw [scanFrom.eq_def]
  simp only [hb, hn, h, Bool.false_eq_true, if_false]
  cases scanFrom (position + 1) cs <;> rfl

theorem scanFrom_numeral {run : List Char} (h : Numeral run) (hrest : EndsNumber rest) :
    scanFrom position (run ++ rest) =
      (⟨.number, String.ofList run, position⟩ :: ·) <$> scanFrom (position + run.length) rest := by
  cases run with
  | nil => exact absurd rfl h.ne_nil
  | cons c cs =>
    have hc := h.numeric c List.mem_cons_self
    have hcs : ∀ d ∈ cs, isNumeric d = true := fun d hd => h.numeric d (List.mem_cons_of_mem c hd)
    have htake : (cs ++ rest).takeWhile isNumeric = cs := by
      rw [List.takeWhile_append_of_pos hcs]
      cases rest with
      | nil => simp
      | cons d ds => simp [hrest d rfl]
    have hdrop : (cs ++ rest).dropWhile isNumeric = rest := by
      rw [List.dropWhile_append_of_pos hcs]
      cases rest with
      | nil => simp
      | cons d ds => simp [hrest d rfl]
    have hp := h.misplacedPoint?
    rw [List.cons_append, scanFrom.eq_def]
    simp only [isBlank_of_isNumeric hc, hc, htake, hdrop, hp, Bool.false_eq_true, if_false, if_true]
    cases scanFrom (position + (c :: cs).length) rest <;> rfl

theorem scanFrom_ok {ts : List Token} (h : scanFrom position cs = .ok ts) :
    ∃ body, ts = body ++ [⟨.eof, "", (position + cs.length : Nat)⟩] ∧
      ∀ t ∈ body, t.kind ≠ .eof ∧ (t.kind = .number → Numeral t.lexeme.toList) := by
  fun_induction scanFrom position cs generalizing ts
  case case1 position =>
    cases h
    exact ⟨[], rfl, by simp⟩
  case case2 position c cs hb ih =>
    rw [List.length_cons, Nat.add_comm cs.length, ← Nat.add_assoc]
    exact ih h
  case case3 => cases h
  case case4 position c cs hb hn run hi ih =>
    obtain ⟨us, hus, h⟩ := bind_eq_ok h
    cases h
    obtain ⟨body, rfl, hbody⟩ := ih hus
    have hlen : position + run.length + (cs.dropWhile isNumeric).length =
        position + (c :: cs).length := by
      rw [run_append_rest c cs, List.length_append, Nat.add_assoc]
    refine ⟨⟨.number, String.ofList run, position⟩ :: body, by rw [hlen]; rfl, ?_⟩
    rw [List.forall_mem_cons]
    refine ⟨⟨by simp, fun _ => ?_⟩, hbody⟩
    rw [String.toList_ofList]
    exact numeral_run hn hi
  case case5 => cases h
  case case6 position c cs hb hn kind hk ih =>
    obtain ⟨us, hus, h⟩ := bind_eq_ok h
    cases h
    obtain ⟨body, rfl, hbody⟩ := ih hus
    refine ⟨⟨kind, c.toString, position⟩ :: body, ?_, ?_⟩
    · rw [List.length_cons, Nat.add_comm cs.length, ← Nat.add_assoc]
      rfl
    · obtain ⟨he, hn⟩ := ofChar?_kind hk
      rw [List.forall_mem_cons]
      exact ⟨⟨he, fun h => absurd h hn⟩, hbody⟩

theorem scan_ok {source : String} {ts : List Token} (h : scan source = .ok ts) :
    ∃ body, ts = body ++ [⟨.eof, "", source.length⟩] ∧
      ∀ t ∈ body, t.kind ≠ .eof ∧ (t.kind = .number → Numeral t.lexeme.toList) := by
  have := scanFrom_ok h
  rwa [Nat.zero_add, String.length_toList] at this

theorem scan_numerals {source : String} {body : List Token} {last : Token}
    (h : scan source = .ok (body ++ [last])) :
    ∀ t ∈ body, t.kind = .number → Numeral t.lexeme.toList := by
  obtain ⟨body', hts, hbody⟩ := scan_ok h
  obtain ⟨rfl, -⟩ := List.append_inj' hts rfl
  exact fun t ht => (hbody t ht).2

theorem readable_of_numeral {t : Token} (h : t.kind = .number → Numeral t.lexeme.toList) :
    t.Readable := by
  intro hk
  obtain ⟨d, hd⟩ := Binary64.ofText?_numeral (h hk)
  rw [String.ofList_toList] at hd
  rw [hd]
  rfl

end Token

theorem ofText_iff_fits {limit : Option Int} {source : String} {e : Expression} :
    Expression.ofText limit source = .ok e ↔
      ∃ d : Sentence, Token.scan source = .ok (d.tokens ++ [⟨.eof, "", source.length⟩]) ∧
        d.tree = .ok e ∧ Fits limit d.height ∧ Fits limit d.nesting := by
  have hlast : (Token.mk .eof "" source.length).kind = .eof := rfl
  constructor
  · intro h
    unfold Expression.ofText at h
    split at h
    · cases h
    · next ts hts =>
      obtain ⟨body, rfl, hbody⟩ := Token.scan_ok hts
      have hread : ∀ t ∈ body, t.Readable := fun t ht => Token.readable_of_numeral (hbody t ht).2
      rcases sentence_or_blocked hlast fun t ht => (hbody t ht).1 with
        ⟨d, rfl⟩ | ⟨pre, post, i, rfl, hb⟩
      · obtain ⟨e', he⟩ := d.exists_tree hread
        obtain ⟨rfl, hfits⟩ := (d.ofTokens_ok_iff hlast he).mp h
        exact ⟨d, hts, he, hfits⟩
      · have hfail : FailsFor limit i (Expression.ofTokens limit (pre ++ post ++ [_])) :=
          hb.ofTokens hlast fun t ht => hread t (List.mem_append_left post ht)
        rcases hfail with ho | ⟨m, t, -, ho⟩ <;> rw [h] at ho <;> cases ho
  · rintro ⟨d, hscan, he, hfits⟩
    rw [Expression.ofText, hscan]
    exact (d.ofTokens_ok_iff hlast he).mpr ⟨rfl, hfits⟩

theorem ofText_iff {source : String} {e : Expression} :
    Expression.ofText none source = .ok e ↔
      ∃ d : Sentence, Token.scan source = .ok (d.tokens ++ [⟨.eof, "", source.length⟩]) ∧
        d.tree = .ok e := by
  simp [ofText_iff_fits, fits_none]

end Reckoner
