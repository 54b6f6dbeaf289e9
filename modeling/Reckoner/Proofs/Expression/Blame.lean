import Reckoner.Proofs.Expression.Grammar

/-!
Where reading comes to a halt. `Stuck` says so in terms of the grammar alone: what has been read can be
completed, and the next token cannot stand behind it. Every list of tokens starts with a derivation
that cannot go on, or is stuck.
-/

namespace Reckoner

/-- Reading a phrase is stuck: the tokens `pre` have been read, and `t` is blamed for the cause. -/
inductive Stuck : Phrase → List Token → Token → Invalid → Prop where
  | operand {t : Token} (hn : t.kind ≠ .number) (hm : t.kind ≠ .minus) (hl : t.kind ≠ .lparen) :
      Stuck .factor [] t (.expectedOperand t)
  | minus {pre : List Token} {t : Token} {i : Invalid} (m : Token) (hm : m.kind = .minus)
      (h : Stuck .factor pre t i) : Stuck .factor (m :: pre) t i
  | inner {pre : List Token} {t : Token} {i : Invalid} (o : Token) (ho : o.kind = .lparen)
      (h : Stuck (.chain .sum) pre t i) : Stuck .factor (o :: pre) t i
  | closing {t : Token} (o : Token) (ho : o.kind = .lparen) (d : Sentence)
      (hd : (Phrase.chain .sum).Ended t.kind) (ht : t.kind ≠ .rparen) :
      Stuck .factor (o :: d.tokens) t (.expectedClosing t)
  | single {rank : Rank} {pre : List Token} {t : Token} {i : Invalid}
      (h : Stuck rank.part pre t i) : Stuck (.chain rank) pre t i
  | link {rank : Rank} {pre : List Token} {t : Token} {i : Invalid} (d : Derivation (.chain rank))
      (m : Token) (op : Operator) (hm : rank.operator? m.kind = some op)
      (h : Stuck rank.part pre t i) : Stuck (.chain rank) (d.tokens ++ m :: pre) t i

def Derivation.zero : Derivation .factor :=
  .number ⟨.number, "0", 0⟩ rfl

namespace Stuck

variable {p : Phrase} {pre : List Token} {t : Token} {i : Invalid}

theorem position_eq (h : Stuck p pre t i) : i.position = t.position := by
  induction h with
  | operand hn hm hl => rfl
  | minus m hm h ih => exact ih
  | inner o ho h ih => exact ih
  | closing o ho d hd ht => rfl
  | single h ih => exact ih
  | link d m op hm h ih => exact ih

theorem completed (h : Stuck p pre t i) : ∃ d : Derivation p, pre <+: d.tokens := by
  induction h with
  | operand hn hm hl => exact ⟨.zero, List.nil_prefix⟩
  | minus m hm h ih =>
    obtain ⟨d, hd⟩ := ih
    exact ⟨.minus m hm d, List.cons_prefix_cons.mpr ⟨rfl, hd⟩⟩
  | inner o ho h ih =>
    obtain ⟨d, hd⟩ := ih
    refine ⟨.parens o ho d ⟨.rparen, ")", 0⟩ rfl, List.cons_prefix_cons.mpr ⟨rfl, ?_⟩⟩
    exact hd.trans (List.prefix_append _ _)
  | closing o ho d hd ht =>
    refine ⟨.parens o ho d ⟨.rparen, ")", 0⟩ rfl, List.cons_prefix_cons.mpr ⟨rfl, ?_⟩⟩
    exact List.prefix_append _ _
  | single h ih =>
    obtain ⟨d, hd⟩ := ih
    exact ⟨.single d, hd⟩
  | link d m op hm h ih =>
    obtain ⟨d', hd'⟩ := ih
    refine ⟨.link d m op hm d', ?_⟩
    rw [Derivation.tokens, List.prefix_append_right_inj]
    exact List.cons_prefix_cons.mpr ⟨rfl, hd'⟩

end Stuck

/-- The tokens start with a derivation that cannot go on, or they are stuck; `last` stands behind
them. -/
def Settled (last : Token) (p : Phrase) (ts : List Token) : Prop :=
  (∃ d : Derivation p, ∃ rest, ts = d.tokens ++ rest ∧ p.Ended (rest.headD last).kind) ∨
    ∃ pre post i, ts = pre ++ post ∧ Stuck p pre (post.headD last) i

section Settled

variable {last : Token} (hlast : last.kind = .eof)

include hlast

theorem settled_factor (ts : List Token)
    (ih : ∀ p us, us.length < ts.length → Settled last p us) : Settled last .factor ts := by
  cases ts with
  | nil => exact .inr ⟨[], [], _, rfl, .operand (by simp [hlast]) (by simp [hlast]) (by simp [hlast])⟩
  | cons t ts =>
    by_cases hn : t.kind = .number
    · exact .inl ⟨.number t hn, ts, rfl, trivial⟩
    by_cases hm : t.kind = .minus
    · rcases ih .factor ts (Nat.lt_succ_self _) with ⟨d, rest, rfl, -⟩ | ⟨pre, post, i, rfl, h⟩
      · exact .inl ⟨.minus t hm d, rest, rfl, trivial⟩
      · exact .inr ⟨t :: pre, post, i, rfl, .minus t hm h⟩
    by_cases hl : t.kind = .lparen
    · rcases ih (.chain .sum) ts (Nat.lt_succ_self _) with
        ⟨d, rest, rfl, hd⟩ | ⟨pre, post, i, rfl, h⟩
      · by_cases hr : (rest.headD last).kind = .rparen
        · cases rest with
          | nil => simp [hlast] at hr
          | cons u rest =>
            refine .inl ⟨.parens t hl d u hr, rest, ?_, trivial⟩
            simp [Derivation.tokens]
        · exact .inr ⟨t :: d.tokens, rest, _, rfl, .closing t hl d hd hr⟩
      · exact .inr ⟨t :: pre, post, i, rfl, .inner t hl h⟩
    · exact .inr ⟨[], t :: ts, _, rfl, .operand hn hm hl⟩

theorem settled_links {rank : Rank} {n : Nat}
    (hpart : ∀ us, us.length < n → Settled last rank.part us) (left : Derivation (.chain rank))
    {ts : List Token} (hn : ts.length ≤ n) (hts : rank.part.Ended (ts.headD last).kind) :
    Settled last (.chain rank) (left.tokens ++ ts) := by
  -- Each round moves one link from the tokens into the chain that has been read.
  induction n generalizing left ts with
  | zero =>
    cases List.length_eq_zero_iff.mp (Nat.le_zero.mp hn)
    exact .inl ⟨left, [], rfl, Phrase.ended_chain.mpr ⟨by simp [hlast], hts⟩⟩
  | succ n ih =>
    cases ho : rank.operator? (ts.headD last).kind with
    | none => exact .inl ⟨left, ts, rfl, Phrase.ended_chain.mpr ⟨ho, hts⟩⟩
    | some op =>
      cases ts with
      | nil => simp [hlast] at ho
      | cons t ts =>
        have hlt : ts.length < n + 1 := hn
        rcases hpart ts hlt with ⟨d, rest, rfl, hd⟩ | ⟨pre, post, i, rfl, h⟩
        · have hr : rest.length ≤ n := by
            have := List.length_append ▸ hlt
            omega
          have hs := ih (fun us hu => hpart us (Nat.lt_succ_of_lt hu)) (.link left t op ho d) hr hd
          have ht : (left.link t op ho d).tokens ++ rest = left.tokens ++ t :: (d.tokens ++ rest) := by
            simp [Derivation.tokens]
          rwa [ht] at hs
        · refine .inr ⟨left.tokens ++ t :: pre, post, i, ?_, .link left t op ho h⟩
          simp

theorem settled_chain (rank : Rank) (ts : List Token)
    (hpart : ∀ us, us.length ≤ ts.length → Settled last rank.part us) :
    Settled last (.chain rank) ts := by
  rcases hpart ts (Nat.le_refl _) with ⟨d, rest, rfl, hd⟩ | ⟨pre, post, i, rfl, h⟩
  · have hr : rest.length ≤ (d.tokens ++ rest).length := by
      rw [List.length_append]
      exact Nat.le_add_left _ _
    exact settled_links hlast (fun us hu => hpart us (Nat.le_of_lt hu)) (.single d) hr hd
  · exact .inr ⟨pre, post, i, rfl, .single h⟩

theorem settled (p : Phrase) (ts : List Token) : Settled last p ts :=
  Phrase.induct_tokens (settled_factor hlast) (settled_chain hlast) p ts

end Settled

/-- Tokens that are no sentence: reading is stuck, or `t` stands behind a sentence. -/
inductive Blocked : List Token → Token → Invalid → Prop where
  | inside {pre : List Token} {t : Token} {i : Invalid} (h : Stuck (.chain .sum) pre t i) :
      Blocked pre t i
  | behind {t : Token} (d : Sentence) (hd : (Phrase.chain .sum).Ended t.kind) (ht : t.kind ≠ .eof) :
      Blocked d.tokens t (.trailing t)

namespace Blocked

variable {pre : List Token} {t : Token} {i : Invalid}

theorem position_eq (h : Blocked pre t i) : i.position = t.position := by
  cases h with
  | inside h => exact h.position_eq
  | behind d hd ht => rfl

theorem completed (h : Blocked pre t i) : ∃ d : Sentence, pre <+: d.tokens := by
  cases h with
  | inside h => exact h.completed
  | behind d hd ht => exact ⟨d, List.prefix_rfl⟩

end Blocked

theorem sentence_or_blocked {last : Token} (hlast : last.kind = .eof) {body : List Token}
    (hbody : ∀ t ∈ body, t.kind ≠ .eof) :
    (∃ d : Sentence, d.tokens = body) ∨
      ∃ pre post i, body = pre ++ post ∧ Blocked pre (post.headD last) i := by
  rcases settled hlast (.chain .sum) body with ⟨d, rest, rfl, hd⟩ | ⟨pre, post, i, rfl, h⟩
  · cases rest with
    | nil => exact .inl ⟨d, by simp⟩
    | cons t ts => exact .inr ⟨d.tokens, t :: ts, _, rfl, .behind d hd (hbody t (by simp))⟩
  · exact .inr ⟨pre, post, i, rfl, .inside h⟩

end Reckoner
