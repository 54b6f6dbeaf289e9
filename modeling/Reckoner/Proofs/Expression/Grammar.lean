import Reckoner.Expression.Parser
import Reckoner.Proofs.Outcome

/-!
The grammar of expressions on its own: derivations over tokens, what they spell, the tree they stand
for and how deep they nest. No parsing function is mentioned.
-/

namespace Reckoner

/-- The phrases of the grammar: a sum is a chain of products, a product a chain of factors. -/
inductive Phrase where
  | factor
  | chain (rank : Rank)

namespace Rank

def part : Rank → Phrase
  | .sum => .chain .product
  | .product => .factor

@[simp]
theorem operator?_eof (rank : Rank) : rank.operator? .eof = none := by
  cases rank <;> rfl

end Rank

namespace Phrase

def Ended : Phrase → TokenKind → Prop
  | .factor, _ => True
  | .chain .product, k => Rank.product.operator? k = none
  | .chain .sum, k => Rank.sum.operator? k = none ∧ Rank.product.operator? k = none

theorem ended_chain {rank : Rank} {k : TokenKind} :
    (chain rank).Ended k ↔ rank.operator? k = none ∧ rank.part.Ended k := by
  cases rank <;> simp [Ended, Rank.part]

theorem ended_part {rank : Rank} {k : TokenKind} {op : Operator}
    (h : rank.operator? k = some op) : rank.part.Ended k := by
  cases rank with
  | product => trivial
  | sum => cases k <;> simp_all [Rank.operator?, Rank.part, Ended]

theorem ended_eof (p : Phrase) : p.Ended .eof := by
  cases p with
  | factor => trivial
  | chain rank => cases rank <;> simp [Ended]

/-- A factor takes tokens of its own before it calls on another phrase, a chain hands its tokens on to
its part. -/
theorem induct {motive : Phrase → Nat → Prop}
    (factor : ∀ n, (∀ p, ∀ m < n, motive p m) → motive .factor n)
    (chain : ∀ rank n, motive rank.part n → motive (.chain rank) n) (p : Phrase) (n : Nat) :
    motive p n := by
  induction n using Nat.strongRecOn generalizing p with
  | ind n ih =>
    have hfactor := factor n fun p m hm => ih m hm p
    have hproduct : motive (.chain .product) n := chain .product n hfactor
    cases p with
    | factor => exact hfactor
    | chain rank =>
      cases rank with
      | product => exact hproduct
      | sum => exact chain .sum n hproduct

theorem induct_tokens {motive : Phrase → List Token → Prop}
    (factor : ∀ ts, (∀ p us, us.length < ts.length → motive p us) → motive .factor ts)
    (chain : ∀ rank ts, (∀ us, us.length ≤ ts.length → motive rank.part us) →
      motive (.chain rank) ts) (p : Phrase) (ts : List Token) : motive p ts := by
  refine induct (motive := fun p n => ∀ us, us.length ≤ n → motive p us) ?_ ?_ p ts.length ts
    (Nat.le_refl _)
  · intro n ih us hus
    exact factor us fun q vs hvs =>
      ih q vs.length (Nat.lt_of_lt_of_le hvs hus) vs (Nat.le_refl _)
  · intro rank n hpart us hus
    exact chain rank us fun vs hvs => hpart vs (Nat.le_trans hvs hus)

end Phrase

/-- A chain is one part, or a chain, an operator of its rank and one more part. A factor is a negated
factor, a sum in parentheses or a number. -/
inductive Derivation : Phrase → Type where
  | number (t : Token) (ht : t.kind = .number) : Derivation .factor
  | minus (t : Token) (ht : t.kind = .minus) (inner : Derivation .factor) : Derivation .factor
  | parens (t : Token) (ht : t.kind = .lparen) (inner : Derivation (.chain .sum)) (u : Token)
      (hu : u.kind = .rparen) : Derivation .factor
  | single {rank : Rank} (inner : Derivation rank.part) : Derivation (.chain rank)
  | link {rank : Rank} (left : Derivation (.chain rank)) (t : Token) (op : Operator)
      (ht : rank.operator? t.kind = some op) (right : Derivation rank.part) :
      Derivation (.chain rank)

abbrev Sentence : Type := Derivation (.chain .sum)

def Token.Readable (t : Token) : Prop :=
  t.kind = .number → (Binary64.ofText? t.lexeme).isSome

instance (t : Token) : Decidable t.Readable :=
  inferInstanceAs (Decidable (t.kind = .number → _))

namespace Derivation

variable {p : Phrase}

def negatedGroup : Sentence :=
  .single (.link
    (.single (.minus ⟨.minus, "-", 0⟩ rfl (.parens ⟨.lparen, "(", 1⟩ rfl
      (.link (.single (.single (.number ⟨.number, "1", 2⟩ rfl))) ⟨.plus, "+", 4⟩ .add rfl
        (.single (.number ⟨.number, "2", 6⟩ rfl)))
      ⟨.rparen, ")", 7⟩ rfl)))
    ⟨.star, "*", 9⟩ .mul rfl (.number ⟨.number, "3", 11⟩ rfl))

def tokens {p : Phrase} : Derivation p → List Token
  | number t _ => [t]
  | minus t _ inner => t :: inner.tokens
  | parens t _ inner u _ => t :: (inner.tokens ++ [u])
  | single inner => inner.tokens
  | link left t _ _ right => left.tokens ++ t :: right.tokens

/-- Chains fold to the left, minuses nest to the right, and parentheses leave no node. The first
lexeme that denotes no number leaves the derivation without a tree. -/
def tree {p : Phrase} : Derivation p → Except Unreadable Expression
  | number t _ =>
    match Binary64.ofText? t.lexeme with
    | some x => .ok (.number x)
    | none => .error ⟨t.lexeme⟩
  | minus _ _ inner => do
    let e ← inner.tree
    .ok (.negation e)
  | parens _ _ inner _ _ => inner.tree
  | single inner => inner.tree
  | link left _ op _ right => do
    let l ← left.tree
    let r ← right.tree
    .ok (.operation op l r)

def height {p : Phrase} : Derivation p → Nat
  | number _ _ => 0
  | minus _ _ inner => inner.height + 1
  | parens _ _ inner _ _ => inner.height
  | single inner => inner.height
  | link left _ _ _ right => max left.height right.height + 1

/-- The greatest number of minuses and pairs of parentheses on a path. -/
def nesting {p : Phrase} : Derivation p → Nat
  | number _ _ => 0
  | minus _ _ inner => inner.nesting + 1
  | parens _ _ inner _ _ => inner.nesting + 1
  | single inner => inner.nesting
  | link left _ _ _ right => max left.nesting right.nesting

theorem tree_height (d : Derivation p) {e : Expression} (h : d.tree = .ok e) :
    e.height = d.height := by
  induction d generalizing e with
  | number t ht =>
    rw [tree] at h
    split at h
    · cases h
      rfl
    · cases h
  | minus t ht inner ih =>
    obtain ⟨a, ha, he⟩ := bind_eq_ok h
    cases he
    rw [Expression.height, height, ih ha]
  | parens t ht inner u hu ih => exact ih h
  | single inner ih => exact ih h
  | link left t op ht right ihl ihr =>
    obtain ⟨a, ha, h⟩ := bind_eq_ok h
    obtain ⟨b, hb, he⟩ := bind_eq_ok h
    cases he
    rw [Expression.height, height, ihl ha, ihr hb]

theorem negatedGroup_tree :
    negatedGroup.tree = .ok (.operation .mul
      (.negation (.operation .add (.number (.ofInt 1)) (.number (.ofInt 2))))
      (.number (.ofInt 3))) := by
  have h1 : Binary64.ofText? "1" = some (.ofInt 1) := by decide +kernel
  have h2 : Binary64.ofText? "2" = some (.ofInt 2) := by decide +kernel
  have h3 : Binary64.ofText? "3" = some (.ofInt 3) := by decide +kernel
  simp [negatedGroup, tree, h1, h2, h3]

theorem exists_tree (d : Derivation p) (h : ∀ t ∈ d.tokens, t.Readable) : ∃ e, d.tree = .ok e := by
  induction d with
  | number t ht =>
    obtain ⟨x, hx⟩ := Option.isSome_iff_exists.mp (h t (by simp [tokens]) ht)
    exact ⟨.number x, by simp [tree, hx]⟩
  | minus t ht inner ih =>
    obtain ⟨e, he⟩ := ih fun u hu => h u (by simp [tokens, hu])
    exact ⟨.negation e, by rw [tree, he]; rfl⟩
  | parens t ht inner u hu ih => exact ih fun v hv => h v (by simp [tokens, hv])
  | single inner ih => exact ih h
  | link left t op ht right ihl ihr =>
    obtain ⟨a, ha⟩ := ihl fun u hu => h u (by simp [tokens, hu])
    obtain ⟨b, hb⟩ := ihr fun u hu => h u (by simp [tokens, hu])
    exact ⟨.operation op a b, by rw [tree, ha, hb]; rfl⟩

end Derivation
end Reckoner
