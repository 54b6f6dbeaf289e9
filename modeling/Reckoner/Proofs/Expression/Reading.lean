import Reckoner.Proofs.Expression.Grammar

/-!
The rules of the parser as equations on plain lists of tokens, without the proofs that the lists get
shorter.
-/

namespace Reckoner

structure Reading where
  tree : Expression
  height : Nat
  rest : List Token

def Expression.Parsed.reading {bound : Nat} (p : Expression.Parsed bound) : Reading :=
  ⟨p.tree, p.height, p.rest⟩

namespace Phrase
open Expression

variable (limit : Option Int) (last : Token) (depth : Nat)

def read : Phrase → List Token → Except Failure Reading
  | factor, ts => (·.reading) <$> Expression.factor limit last depth ts
  | chain rank, ts => (·.reading) <$> Expression.chain limit last depth rank ts

def resume : Phrase → Reading → Except Failure Reading
  | factor, r => .ok r
  | chain rank, r => (·.reading) <$> links limit last depth rank r.tree r.height r.rest

def close (r : Reading) : Except Failure Reading :=
  match r.rest with
  | [] => .error (.invalid (.expectedClosing last))
  | t :: ts =>
    if t.kind = .rparen then .ok { r with rest := ts }
    else .error (.invalid (.expectedClosing t))

theorem read_part (rank : Rank) (ts : List Token) :
    rank.part.read limit last depth ts =
      (·.reading) <$> operand limit last depth rank ts := by
  cases rank with
  | product => rw [operand]; rfl
  | sum => rw [operand]; rfl

theorem read_chain (rank : Rank) (ts : List Token) :
    (chain rank).read limit last depth ts =
      rank.part.read limit last depth ts >>= (chain rank).resume limit last depth := by
  rw [read_part, read, Expression.chain]
  cases operand limit last depth rank ts with
  | error f => rfl
  | ok first =>
    rw [ok_bind, map_ok, ok_bind]
    change _ = (·.reading) <$> links limit last depth rank first.tree first.height first.rest
    cases links limit last depth rank first.tree first.height first.rest with
    | error f => rfl
    | ok all => rfl

theorem resume_nil (rank : Rank) (e : Expression) (n : Nat) :
    (chain rank).resume limit last depth ⟨e, n, []⟩ = .ok ⟨e, n, []⟩ := by
  rw [resume, links]
  rfl

theorem resume_stop {rank : Rank} {e : Expression} {n : Nat} {t : Token} {ts : List Token}
    (ht : rank.operator? t.kind = none) :
    (chain rank).resume limit last depth ⟨e, n, t :: ts⟩ = .ok ⟨e, n, t :: ts⟩ := by
  rw [resume, links, ht]
  rfl

theorem resume_link {rank : Rank} {e : Expression} {n : Nat} {t : Token} {ts : List Token}
    {op : Operator} (ht : rank.operator? t.kind = some op) :
    (chain rank).resume limit last depth ⟨e, n, t :: ts⟩ =
      (rank.part.read limit last depth ts >>= fun r => do
        withinLimit limit (max n r.height + 1) t
        (chain rank).resume limit last depth
          ⟨.operation op e r.tree, max n r.height + 1, r.rest⟩) := by
  rw [read_part, resume, links]
  simp only [ht]
  cases operand limit last depth rank ts with
  | error f => rfl
  | ok r =>
    rw [ok_bind, map_ok, ok_bind]
    change _ = (withinLimit limit (max n r.height + 1) t >>= fun _ => (·.reading) <$>
      links limit last depth rank (.operation op e r.tree) (max n r.height + 1) r.rest)
    cases withinLimit limit (max n r.height + 1) t with
    | error f => rfl
    | ok u =>
      rw [ok_bind, ok_bind]
      cases links limit last depth rank (.operation op e r.tree) (max n r.height + 1) r.rest with
      | error f => rfl
      | ok all => rfl

theorem reading_closing {bound : Nat} (p : Parsed bound) :
    (·.reading) <$> closing last p = close last p.reading := by
  obtain ⟨e, n, rest, h⟩ := p
  cases rest with
  | nil => rfl
  | cons t ts =>
    by_cases ht : t.kind = .rparen
    · simp [closing, close, Parsed.reading, ht]
    · simp [closing, close, Parsed.reading, ht]

theorem read_number {t : Token} {ts : List Token} (ht : t.kind = .number) :
    factor.read limit last depth (t :: ts) =
      match Binary64.ofText? t.lexeme with
      | some x => .ok ⟨.number x, 0, ts⟩
      | none => .error (.unreadable ⟨t.lexeme⟩) := by
  rw [read, Expression.factor]
  simp only [ht]
  cases Binary64.ofText? t.lexeme with
  | none => rfl
  | some x => rfl

theorem read_minus {t : Token} {ts : List Token} (ht : t.kind = .minus) :
    factor.read limit last depth (t :: ts) =
      (withinLimit limit (depth + 1) t >>= fun _ => do
        let r ← factor.read limit last (depth + 1) ts
        withinLimit limit (r.height + 1) t
        .ok ⟨.negation r.tree, r.height + 1, r.rest⟩) := by
  rw [read, read, Expression.factor]
  simp only [ht]
  cases withinLimit limit (depth + 1) t with
  | error f => rfl
  | ok u =>
    cases Expression.factor limit last (depth + 1) ts with
    | error f => rfl
    | ok r =>
      simp only [ok_bind, map_ok]
      change _ = (withinLimit limit (r.height + 1) t >>= _)
      cases withinLimit limit (r.height + 1) t with
      | error f => rfl
      | ok u => rfl

theorem read_parens {t : Token} {ts : List Token} (ht : t.kind = .lparen) :
    factor.read limit last depth (t :: ts) =
      (withinLimit limit (depth + 1) t >>= fun _ =>
        (chain .sum).read limit last (depth + 1) ts >>= close last) := by
  rw [read, read, Expression.factor]
  simp only [ht]
  cases withinLimit limit (depth + 1) t with
  | error f => rfl
  | ok u =>
    cases Expression.chain limit last (depth + 1) .sum ts with
    | error f => rfl
    | ok r =>
      rw [ok_bind, ok_bind, ok_bind, map_ok, ok_bind, ← reading_closing]
      cases closing last r with
      | error f => rfl
      | ok all => rfl

theorem read_factor_nil :
    factor.read limit last depth [] = .error (.invalid (.expectedOperand last)) := by
  rw [read, Expression.factor]
  rfl

theorem read_other {t : Token} {ts : List Token} (hn : t.kind ≠ .number) (hm : t.kind ≠ .minus)
    (hl : t.kind ≠ .lparen) :
    factor.read limit last depth (t :: ts) = .error (.invalid (.expectedOperand t)) := by
  rw [read, Expression.factor]
  cases hk : t.kind <;> simp_all

theorem read_blocked {ts : List Token} (hn : (ts.headD last).kind ≠ .number)
    (hm : (ts.headD last).kind ≠ .minus) (hl : (ts.headD last).kind ≠ .lparen) :
    factor.read limit last depth ts =
      .error (.invalid (.expectedOperand (ts.headD last))) := by
  cases ts with
  | nil => exact read_factor_nil limit last depth
  | cons t ts => exact read_other limit last depth hn hm hl

end Phrase

theorem Expression.ofTokens_append (limit : Option Int) {last : Token} (hlast : last.kind = .eof)
    (body : List Token) :
    ofTokens limit (body ++ [last]) =
      (Phrase.chain .sum).read limit last 0 body >>= fun r =>
        if (r.rest.headD last).kind = .eof then .ok r.tree
        else .error (.invalid (.trailing (r.rest.headD last))) := by
  have h : ofTokens limit (body ++ [last]) =
      (Phrase.chain .sum).read limit last 0 (body ++ [last]).dropLast >>= fun r =>
        if (r.rest.headD last).kind = .eof then .ok r.tree
        else .error (.invalid (.trailing (r.rest.headD last))) := by
    rw [ofTokens, Phrase.read]
    simp only [List.getLast?_append, List.getLast?_singleton, Option.some_or, hlast, if_true]
    cases chain limit last 0 .sum (body ++ [last]).dropLast with
    | error f => rfl
    | ok all => rfl
  rw [h, List.dropLast_concat]

end Reckoner
