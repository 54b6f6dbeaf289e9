import Reckoner.Proofs.Expression.Parsing
import Reckoner.Proofs.Expression.Unambiguity

/-!
Which lists of tokens are expressions. Without a limit the sentences of the grammar are read, each as
its tree, and every other list is refused at the first token that no sentence can have there. A limit
refuses the sentences whose height or nesting exceeds it, and no others.
-/

namespace Reckoner
open Expression

variable {limit : Option Int} {body : List Token} {last : Token}

namespace Derivation

theorem ofTokens_tokens (d : Sentence) (hlast : last.kind = .eof) (hh : Fits limit d.height)
    (hn : Fits limit d.nesting) :
    ofTokens limit (d.tokens ++ [last]) = d.tree.mapError .unreadable := by
  have he : (Phrase.chain .sum).Ended (([] : List Token).headD last).kind := by
    rw [List.headD_nil, hlast]
    exact Phrase.ended_eof _
  have hr := d.read_tokens 0 [] he.allows hh (by rwa [Nat.zero_add])
  rw [List.append_nil] at hr
  rw [ofTokens_append limit hlast, hr]
  cases d.tree with
  | error u => rfl
  | ok e =>
    change (Phrase.resume limit last 0 (.chain .sum) ⟨e, d.height, []⟩ >>= _) = _
    rw [Phrase.resume_ended he, ok_bind]
    exact if_pos hlast

theorem tooDeep_ofTokens (d : Sentence) (hlast : last.kind = .eof) {e : Expression}
    (he : d.tree = .ok e) (h : ¬ (Fits limit d.height ∧ Fits limit d.nesting)) :
    TooDeep limit (ofTokens limit (d.tokens ++ [last])) := by
  have hl : (Phrase.chain .sum).Ended (([] : List Token).headD last).kind := by
    rw [List.headD_nil, hlast]
    exact Phrase.ended_eof _
  have hr := d.tooDeep_tokens he 0 [] hl.allows (fits_zero limit) (by rwa [Nat.zero_add])
  rw [List.append_nil] at hr
  rw [ofTokens_append limit hlast]
  exact hr.bind _

theorem ofTokens_ok_iff (d : Sentence) (hlast : last.kind = .eof) {e : Expression}
    (he : d.tree = .ok e) {e' : Expression} :
    ofTokens limit (d.tokens ++ [last]) = .ok e' ↔
      e' = e ∧ Fits limit d.height ∧ Fits limit d.nesting := by
  by_cases hf : Fits limit d.height ∧ Fits limit d.nesting
  · rw [d.ofTokens_tokens hlast hf.1 hf.2, he]
    constructor
    · intro h
      cases h
      exact ⟨rfl, hf⟩
    · rintro ⟨rfl, -⟩
      rfl
  · constructor
    · intro h
      obtain ⟨m, t, -, ht⟩ := d.tooDeep_ofTokens hlast he hf
      rw [h] at ht
      cases ht
    · rintro ⟨-, h⟩
      exact absurd h hf

end Derivation

theorem Blocked.ofTokens {pre post : List Token} {i : Invalid}
    (h : Blocked pre (post.headD last) i) (hlast : last.kind = .eof)
    (hpre : ∀ t ∈ pre, t.Readable) :
    FailsFor limit i (ofTokens limit (pre ++ post ++ [last])) := by
  rw [ofTokens_append limit hlast]
  generalize ht : post.headD last = t at h
  cases h with
  | inside h => exact (h.read hpre 0 ht (fits_zero limit)).bind _
  | behind d hd hk =>
    obtain ⟨e, he⟩ := d.exists_tree hpre
    rw [← ht] at hd
    by_cases hf : Fits limit d.height ∧ Fits limit d.nesting
    · have hn : Fits limit (0 + d.nesting) := by
        rw [Nat.zero_add]
        exact hf.2
      rw [d.read_tree he 0 post hd.allows hf.1 hn, Phrase.resume_ended hd, ok_bind]
      refine .inl ?_
      rw [ht]
      exact if_neg hk
    · rw [← Nat.zero_add d.nesting] at hf
      exact .inr ((d.tooDeep_tokens he 0 post hd.allows (fits_zero limit) hf).bind _)

theorem split_of_prefix {pre ts : List Token} {t stop : Token} (h : pre ++ [t] <+: ts ++ [stop]) :
    ∃ post, ts = pre ++ post ∧ post.headD stop = t := by
  obtain ⟨post, h⟩ := h
  rcases List.eq_nil_or_concat post with rfl | ⟨post, u, rfl⟩
  · obtain ⟨rfl, ht⟩ := List.append_inj' ((List.append_nil _).symm.trans h) rfl
    cases ht
    exact ⟨[], by simp, rfl⟩
  · rw [List.concat_eq_append, ← List.append_assoc] at h
    obtain ⟨h, -⟩ := List.append_inj' h rfl
    exact ⟨t :: post, by simp [← h], rfl⟩

theorem Blocked.hopeless {pre : List Token} {t : Token} {i : Invalid} (h : Blocked pre t i)
    (hpre : ∀ u ∈ pre, u.Readable) (d : Sentence) {stop : Token} (hstop : stop.kind = .eof) :
    ¬ pre ++ [t] <+: d.tokens ++ [stop] := by
  intro hp
  obtain ⟨post, hd, rfl⟩ := split_of_prefix hp
  have hf := (h.ofTokens hstop hpre).none
  have ho := d.ofTokens_tokens hstop (fits_none _) (fits_none _)
  rw [hd, hf] at ho
  cases ht : d.tree with
  | error u =>
    rw [ht] at ho
    cases ho
  | ok e =>
    rw [ht] at ho
    cases ho

section Unlimited

variable (hlast : last.kind = .eof) (hbody : ∀ t ∈ body, t.kind ≠ .eof)
  (hread : ∀ t ∈ body, t.Readable)

include hlast

theorem ofTokens_sentence {d : Sentence} (hd : d.tokens = body) :
    ofTokens none (body ++ [last]) = d.tree.mapError .unreadable := by
  rw [← hd]
  exact d.ofTokens_tokens hlast (fits_none _) (fits_none _)

include hbody hread

theorem ofTokens_cases :
    (∃ d : Sentence, ∃ e, d.tokens = body ∧ d.tree = .ok e ∧
        ofTokens none (body ++ [last]) = .ok e) ∨
      ∃ pre post i, body = pre ++ post ∧ Blocked pre (post.headD last) i ∧
        ofTokens none (body ++ [last]) = .error (.invalid i) := by
  rcases sentence_or_blocked hlast hbody with ⟨d, hd⟩ | ⟨pre, post, i, rfl, h⟩
  · obtain ⟨e, he⟩ := d.exists_tree fun t ht => hread t (hd ▸ ht)
    refine .inl ⟨d, e, hd, he, ?_⟩
    rw [ofTokens_sentence hlast hd, he]
    rfl
  · have hpre : ∀ t ∈ pre, t.Readable := fun t ht => hread t (List.mem_append_left post ht)
    exact .inr ⟨pre, post, i, rfl, h, (h.ofTokens hlast hpre).none⟩

end Unlimited

/-- Tokens are an expression just when the grammar derives them, and then it is the tree of the
derivation. There is at most one derivation, and without one the tokens are refused. -/
theorem ofTokens_iff_sentence (hlast : last.kind = .eof) (hbody : ∀ t ∈ body, t.kind ≠ .eof)
    (hread : ∀ t ∈ body, t.Readable) :
    (∀ e, ofTokens none (body ++ [last]) = .ok e ↔
        ∃ d : Sentence, d.tokens = body ∧ d.tree = .ok e) ∧
      (∀ d d' : Sentence, d.tokens = body → d'.tokens = body → d = d') ∧
      ((¬ ∃ d : Sentence, d.tokens = body) →
        ∃ i, ofTokens none (body ++ [last]) = .error (.invalid i)) := by
  refine ⟨?_, ?_, ?_⟩
  · intro e
    constructor
    · intro h
      rcases ofTokens_cases hlast hbody hread with ⟨d, e', hd, he, ho⟩ | ⟨_, _, _, _, _, ho⟩
      · rw [h] at ho
        cases ho
        exact ⟨d, hd, he⟩
      · rw [h] at ho
        cases ho
    · rintro ⟨d, hd, he⟩
      rw [ofTokens_sentence hlast hd, he]
      rfl
  · intro d d' hd hd'
    exact Derivation.tokens_injective (hd.trans hd'.symm)
  · intro hno
    rcases ofTokens_cases hlast hbody hread with ⟨d, _, hd, _⟩ | ⟨_, _, i, _, _, ho⟩
    · exact absurd ⟨d, hd⟩ hno
    · exact ⟨i, ho⟩

theorem ofTokens_negatedGroup :
    ofTokens none (Derivation.negatedGroup.tokens ++ [⟨.eof, "", 12⟩]) =
      .ok (.operation .mul
        (.negation (.operation .add (.number (.ofInt 1)) (.number (.ofInt 2))))
        (.number (.ofInt 3))) := by
  have hlast : (Token.mk .eof "" 12).kind = .eof := rfl
  have hbody : ∀ t ∈ Derivation.negatedGroup.tokens, t.kind ≠ .eof := by decide
  have hread : ∀ t ∈ Derivation.negatedGroup.tokens, t.Readable := by decide +kernel
  have h := (ofTokens_iff_sentence hlast hbody hread).1
  exact (h _).mpr ⟨.negatedGroup, rfl, Derivation.negatedGroup_tree⟩

/-- A refusal blames the first token that no sentence can have there: what stands before it starts a
sentence, and together with it starts none. -/
theorem refused_at_first_fault (hlast : last.kind = .eof) (hbody : ∀ t ∈ body, t.kind ≠ .eof)
    (hread : ∀ t ∈ body, t.Readable) {i : Invalid}
    (h : ofTokens none (body ++ [last]) = .error (.invalid i)) :
    ∃ k t, (body ++ [last])[k]? = some t ∧ i.position = t.position ∧
      (∃ d : Sentence, (body ++ [last]).take k <+: d.tokens) ∧
      ∀ (d : Sentence) (stop : Token), stop.kind = .eof →
        ¬ (body ++ [last]).take (k + 1) <+: d.tokens ++ [stop] := by
  rcases ofTokens_cases hlast hbody hread with ⟨_, _, _, _, ho⟩ | ⟨pre, post, j, rfl, hb, ho⟩
  · rw [h] at ho
    cases ho
  · rw [h] at ho
    cases ho
    have hpre : ∀ t ∈ pre, t.Readable := fun t ht => hread t (List.mem_append_left post ht)
    obtain ⟨more, hs⟩ : ∃ more, post ++ [last] = post.headD last :: more := by
      cases post with
      | nil => exact ⟨[], rfl⟩
      | cons t ts => exact ⟨ts ++ [last], rfl⟩
    refine ⟨pre.length, post.headD last, ?_, hb.position_eq, ?_, ?_⟩
    · rw [List.append_assoc, hs]
      simp
    · rw [List.append_assoc, List.take_left]
      exact hb.completed
    · intro d stop hstop
      rw [List.append_assoc, hs, List.take_length_add_append]
      exact hb.hopeless hpre d hstop

theorem lone_parenthesis_blamed :
    let ts : List Token := [⟨.number, "1", 0⟩, ⟨.plus, "+", 2⟩, ⟨.rparen, ")", 4⟩, ⟨.eof, "", 5⟩]
    ∃ k t, ts[k]? = some t ∧ (4 : Int) = t.position ∧
      (∃ d : Sentence, ts.take k <+: d.tokens) ∧
      ∀ (d : Sentence) (stop : Token), stop.kind = .eof →
        ¬ ts.take (k + 1) <+: d.tokens ++ [stop] := by
  intro ts
  have hlast : (Token.mk .eof "" 5).kind = .eof := rfl
  let body : List Token := [⟨.number, "1", 0⟩, ⟨.plus, "+", 2⟩, ⟨.rparen, ")", 4⟩]
  have hbody : ∀ t ∈ body, t.kind ≠ .eof := by decide
  have hread : ∀ t ∈ body, t.Readable := by decide +kernel
  let one : Sentence := .single (.single (.number ⟨.number, "1", 0⟩ rfl))
  have hb : Blocked [⟨.number, "1", 0⟩, ⟨.plus, "+", 2⟩] ⟨.rparen, ")", 4⟩
      (.expectedOperand ⟨.rparen, ")", 4⟩) :=
    .inside (.link one ⟨.plus, "+", 2⟩ .add rfl
      (.single (.operand (by decide) (by decide) (by decide))))
  have h : FailsFor none _ (ofTokens none
      ([⟨.number, "1", 0⟩, ⟨.plus, "+", 2⟩] ++ [⟨.rparen, ")", 4⟩] ++ [⟨.eof, "", 5⟩])) :=
    hb.ofTokens hlast (by decide +kernel)
  exact refused_at_first_fault hlast hbody hread h.none

end Reckoner
