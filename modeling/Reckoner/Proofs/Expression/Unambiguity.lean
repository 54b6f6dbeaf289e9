import Reckoner.Proofs.Expression.Grammar

/-!
The grammar is unambiguous. Chains group to the left, so they are compared as a first part with a list
of links behind it.
-/

namespace Reckoner

inductive Links (rank : Rank) where
  | nil
  | cons (t : Token) (op : Operator) (ht : rank.operator? t.kind = some op)
      (right : Derivation rank.part) (more : Links rank)

namespace Links

variable {rank : Rank}

def tokens : Links rank → List Token
  | nil => []
  | cons t _ _ right more => t :: (right.tokens ++ more.tokens)

def attach (left : Derivation (.chain rank)) : Links rank → Derivation (.chain rank)
  | nil => left
  | cons t op ht right more => more.attach (.link left t op ht right)

def snoc (t : Token) (op : Operator) (ht : rank.operator? t.kind = some op)
    (right : Derivation rank.part) : Links rank → Links rank
  | nil => cons t op ht right nil
  | cons u op' hu d more => cons u op' hu d (more.snoc t op ht right)

theorem tokens_attach (left : Derivation (.chain rank)) (ls : Links rank) :
    (ls.attach left).tokens = left.tokens ++ ls.tokens := by
  induction ls generalizing left with
  | nil => simp [attach, tokens]
  | cons t op ht right more ih => simp [attach, ih, tokens, Derivation.tokens]

theorem attach_snoc (left : Derivation (.chain rank)) (ls : Links rank) (t : Token) (op : Operator)
    (ht : rank.operator? t.kind = some op) (right : Derivation rank.part) :
    (ls.snoc t op ht right).attach left = .link (ls.attach left) t op ht right := by
  induction ls generalizing left with
  | nil => rfl
  | cons u op' hu d more ih => exact ih _

end Links

namespace Derivation

theorem eq_attach {rank : Rank} : (d : Derivation (.chain rank)) →
    ∃ (first : Derivation rank.part) (ls : Links rank), d = ls.attach (.single first)
  | single inner => ⟨inner, .nil, rfl⟩
  | link left t op ht right => by
    obtain ⟨first, ls, h⟩ := left.eq_attach
    exact ⟨first, ls.snoc t op ht right, by rw [Links.attach_snoc, ← h]⟩

end Derivation

def Phrase.EndedBefore (p : Phrase) (ts : List Token) : Prop :=
  ∀ t ∈ ts.head?, p.Ended t.kind

/-- Derivations with something behind them that does not go on are told apart by their tokens. -/
def Phrase.Determined (p : Phrase) (n : Nat) : Prop :=
  ∀ (d d' : Derivation p) (rest rest' : List Token), (d.tokens ++ rest).length ≤ n →
    d.tokens ++ rest = d'.tokens ++ rest' → p.EndedBefore rest → p.EndedBefore rest' →
      d = d' ∧ rest = rest'

theorem Links.endedBefore {rank : Rank} (ls : Links rank) {rest : List Token}
    (h : (Phrase.chain rank).EndedBefore rest) : rank.part.EndedBefore (ls.tokens ++ rest) := by
  cases ls with
  | nil =>
    intro t ht
    exact (Phrase.ended_chain.mp (h t ht)).2
  | cons u op hu right more =>
    intro t ht
    cases ht
    exact Phrase.ended_part hu

theorem Links.determined {rank : Rank} {n : Nat} (hpart : rank.part.Determined n)
    (ls ls' : Links rank) {rest rest' : List Token} (hn : (ls.tokens ++ rest).length ≤ n)
    (h : ls.tokens ++ rest = ls'.tokens ++ rest') (hr : (Phrase.chain rank).EndedBefore rest)
    (hr' : (Phrase.chain rank).EndedBefore rest') : ls = ls' ∧ rest = rest' := by
  induction ls generalizing ls' with
  | nil =>
    cases ls' with
    | nil => exact ⟨rfl, h⟩
    | cons t op ht right more =>
      rw [tokens, List.nil_append] at h
      subst h
      have hk := (Phrase.ended_chain.mp (hr t rfl)).1
      rw [ht] at hk
      cases hk
  | cons t op ht right more ih =>
    cases ls' with
    | nil =>
      rw [tokens, List.nil_append] at h
      subst h
      have hk := (Phrase.ended_chain.mp (hr' t rfl)).1
      rw [ht] at hk
      cases hk
    | cons t' op' ht' right' more' =>
      simp only [tokens, List.cons_append, List.append_assoc, List.cons.injEq] at h hn
      obtain ⟨rfl, h⟩ := h
      cases ht.symm.trans ht'
      have hlen : (right.tokens ++ (more.tokens ++ rest)).length ≤ n := Nat.le_of_succ_le hn
      obtain ⟨rfl, hm⟩ := hpart right right' _ _ hlen h (more.endedBefore hr) (more'.endedBefore hr')
      have hmore : (more.tokens ++ rest).length ≤ n := by
        rw [List.length_append] at hlen
        omega
      obtain ⟨rfl, rfl⟩ := ih more' hmore hm
      exact ⟨rfl, rfl⟩

namespace Phrase

theorem head_kind {t t' : Token} {ts ts' : List Token} (h : t :: ts = t' :: ts') :
    t.kind = t'.kind := by
  cases h
  rfl

theorem endedBefore_rparen {t : Token} {ts : List Token} (h : t.kind = .rparen) :
    (chain .sum).EndedBefore (t :: ts) := by
  intro u hu
  cases hu
  simp [Ended, Rank.operator?, h]

theorem determined_chain (rank : Rank) (n : Nat) (hpart : rank.part.Determined n) :
    (chain rank).Determined n := by
  intro d d' rest rest' hn h hr hr'
  obtain ⟨first, ls, rfl⟩ := d.eq_attach
  obtain ⟨first', ls', rfl⟩ := d'.eq_attach
  simp only [Links.tokens_attach, Derivation.tokens, List.append_assoc] at h hn
  -- The first parts end where no operator of a lower chain follows, so they agree.
  obtain ⟨rfl, hl⟩ := hpart first first' _ _ hn h (ls.endedBefore hr) (ls'.endedBefore hr')
  have hls : (ls.tokens ++ rest).length ≤ n := by
    rw [List.length_append] at hn
    omega
  obtain ⟨rfl, rfl⟩ := ls.determined hpart ls' hls hl hr hr'
  exact ⟨rfl, rfl⟩

theorem determined_factor (n : Nat) (ih : ∀ p, ∀ m < n, Phrase.Determined p m) :
    factor.Determined n := by
  intro d d' rest rest' hn h hr hr'
  cases d with
  | number t ht =>
    cases d' with
    | number t' ht' =>
      cases h
      exact ⟨rfl, rfl⟩
    | minus t' ht' inner' => exact absurd (head_kind h) (by simp [ht, ht'])
    | parens t' ht' inner' u' hu' => exact absurd (head_kind h) (by simp [ht, ht'])
  | minus t ht inner =>
    cases d' with
    | number t' ht' => exact absurd (head_kind h) (by simp [ht, ht'])
    | minus t' ht' inner' =>
      obtain ⟨rfl, hi⟩ := List.cons.inj h
      obtain ⟨rfl, rfl⟩ := ih .factor _ hn inner inner' _ _ (Nat.le_refl _) hi hr hr'
      exact ⟨rfl, rfl⟩
    | parens t' ht' inner' u' hu' => exact absurd (head_kind h) (by simp [ht, ht'])
  | parens t ht inner u hu =>
    cases d' with
    | number t' ht' => exact absurd (head_kind h) (by simp [ht, ht'])
    | minus t' ht' inner' => exact absurd (head_kind h) (by simp [ht, ht'])
    | parens t' ht' inner' u' hu' =>
      simp only [Derivation.tokens, List.cons_append, List.append_assoc, List.nil_append,
        List.cons.injEq] at h hn
      obtain ⟨rfl, hi⟩ := h
      obtain ⟨rfl, hr⟩ := ih (.chain .sum) _ hn inner inner' (u :: rest) (u' :: rest')
        (Nat.le_refl _) hi (endedBefore_rparen hu) (endedBefore_rparen hu')
      cases hr
      exact ⟨rfl, rfl⟩

theorem determined (p : Phrase) (n : Nat) : p.Determined n :=
  induct determined_factor determined_chain p n

end Phrase

theorem Derivation.tokens_injective {d d' : Sentence} (h : d.tokens = d'.tokens) : d = d' := by
  have hn : (Phrase.chain .sum).EndedBefore [] := by simp [Phrase.EndedBefore]
  have hd := Phrase.determined (.chain .sum) (d.tokens ++ []).length
  exact (hd d d' [] [] (Nat.le_refl _) (by rw [h]) hn hn).1

end Reckoner
