import Reckoner.Proofs.Binary64.SignedZero
import Reckoner.Proofs.Expression.Evaluation

/-!
Renderings as canonical text. A rendering has as many open constructs at a place as the tree has
levels above it, so that a limit on it is a limit on the height of the tree. A tree with negative
literals is read again with minuses in their places: its rendering stays the same, and so does its
value up to the sign of zero.
-/

namespace Reckoner
open Text

namespace Derivation

theorem joined_nesting (left right : Derivation .factor) {t : Token} {op : Operator}
    (ht : t.kind = op.kind) :
    (left.joined t op ht right).nesting = max left.nesting right.nesting := by
  cases op <;> rfl

end Derivation

namespace Expression

variable {e : Expression} {limit : Option Int}

/-- Every operation has its parentheses, so a rendering nests as deep as the tree is high. -/
theorem derivation_nesting (e : Expression) (position : Nat) :
    (e.derivation position).nesting = e.height := by
  induction e generalizing position with
  | number x => rfl
  | negation e ih => rw [derivation, Derivation.nesting, ih, height]
  | operation op l r ihl ihr =>
    rw [derivation, Derivation.nesting, Derivation.joined_nesting, ihl, ihr, height]

section Canonical

variable (h : ∀ x ∈ e.literals, x.Unsigned ∧ x.isFinite = true)

include h

theorem ofText_render_fits (hfits : Fits limit e.height) : ofText limit e.render = .ok e := by
  have htree : e.sentence.tree = .ok e := derivation_tree h 0
  have hheight : Fits limit e.sentence.height := by rwa [← e.sentence.tree_height htree]
  have hnesting : Fits limit e.sentence.nesting := by rwa [← derivation_nesting e 0] at hfits
  rw [ofText_render h, e.sentence.ofTokens_tokens rfl hheight hnesting, htree]
  rfl

theorem tooDeep_render (hfits : ¬ Fits limit e.height) : TooDeep limit (ofText limit e.render) := by
  have htree : e.sentence.tree = .ok e := derivation_tree h 0
  rw [ofText_render h]
  refine e.sentence.tooDeep_ofTokens rfl htree fun hboth => hfits ?_
  rw [e.sentence.tree_height htree]
  exact hboth.1

end Canonical

/-- A limit on the rendering of a tree is a limit on its height, and a tree that was accepted within
a limit is accepted again in its rendering. -/
theorem render_limited_by_height (n : Nat) :
    (∀ e : Expression, (∀ x ∈ e.literals, x.Unsigned ∧ x.isFinite = true) →
      (e.height ≤ n → ofText (some n) e.render = .ok e) ∧
        (n < e.height → ∃ t, ofText (some n) e.render = .error (.invalid (.tooDeep n t)))) ∧
      ∀ source e, ofText (some n) source = .ok e → (∀ x ∈ e.literals, x.isFinite = true) →
        ofText (some n) e.render = .ok e := by
  have hfits : ∀ k : Nat, Fits (some (n : Int)) k ↔ k ≤ n := by
    intro k
    rw [fits_some]
    omega
  refine ⟨fun e h => ⟨fun hle => ?_, fun hlt => ?_⟩, fun source e hsource hfinite => ?_⟩
  · exact ofText_render_fits h ((hfits _).mpr hle)
  · have hnot : ¬ Fits (some (n : Int)) e.height := by
      rw [hfits]
      omega
    obtain ⟨m, t, hm, ht⟩ := tooDeep_render h hnot
    cases hm
    exact ⟨t, ht⟩
  · obtain ⟨d, -, htree, hheight, -⟩ := ofText_iff_fits.mp hsource
    rw [← d.tree_height htree] at hheight
    exact ofText_render_fits
      (fun x hx => ⟨unsigned_of_ofText hsource x hx, hfinite x hx⟩) hheight

theorem negatedGroup_render_limits :
    let e : Expression := .operation .mul
      (.negation (.operation .add (.number (.ofInt 1)) (.number (.ofInt 2)))) (.number (.ofInt 3))
    ofText (some 3) e.render = .ok e ∧
      ∃ t, ofText (some 2) e.render = .error (.invalid (.tooDeep 2 t)) := by
  intro e
  have hscan : Token.scan "-(1 + 2) * 3" =
      .ok (Derivation.negatedGroup.tokens ++ [⟨.eof, "", 12⟩]) := by decide +kernel
  have hsource : ofText none "-(1 + 2) * 3" = .ok e :=
    ofText_iff.mpr ⟨_, hscan, Derivation.negatedGroup_tree⟩
  have hfinite : ∀ x ∈ e.literals, x.isFinite = true := by decide +kernel
  have h : ∀ x ∈ e.literals, x.Unsigned ∧ x.isFinite = true :=
    fun x hx => ⟨unsigned_of_ofText hsource x hx, hfinite x hx⟩
  exact ⟨((render_limited_by_height 3).1 e h).1 (by decide),
    ((render_limited_by_height 2).1 e h).2 (by decide)⟩

/-! Trees with literals of either sign. -/

/-- What the literal of a number is read as: a negative number behind a minus, and a zero without a
sign. -/
def ofLiteral : Binary64 → Expression
  | .finite true code =>
    if code.val = 0 then .number (.zero false) else .negation (.number (.finite false code))
  | x => .number x

def canonical : Expression → Expression
  | .number x => ofLiteral x
  | .negation e => .negation e.canonical
  | .operation op l r => .operation op l.canonical r.canonical

theorem ofLiteral_cases (x : Binary64) :
    (ofLiteral x = .number x ∧ (x.isFinite = true → x.Unsigned)) ∨
      (x = .zero true ∧ ofLiteral x = .number (.zero false)) ∨
      ∃ code : Fin magnitudeCount, code.val ≠ 0 ∧ x = .finite true code ∧
        ofLiteral x = .negation (.number (.finite false code)) := by
  cases x with
  | infinite s => exact .inl ⟨rfl, nofun⟩
  | nan => exact .inl ⟨rfl, nofun⟩
  | finite s code =>
    cases s with
    | false => exact .inl ⟨rfl, fun _ => rfl⟩
    | true =>
      by_cases hcode : code.val = 0
      · exact .inr (.inl ⟨congrArg (Binary64.finite true) (Fin.ext hcode), if_pos hcode⟩)
      · exact .inr (.inr ⟨code, hcode, rfl, if_neg hcode⟩)

theorem unsigned_ofLiteral {x : Binary64} (hx : x.isFinite = true) :
    ∀ y ∈ (ofLiteral x).literals, y.Unsigned ∧ y.isFinite = true := by
  intro y hy
  rcases ofLiteral_cases x with ⟨ho, hu⟩ | ⟨rfl, ho⟩ | ⟨code, -, rfl, ho⟩ <;> rw [ho] at hy <;>
    rw [List.mem_singleton.mp hy]
  · exact ⟨hu hx, hx⟩
  · exact ⟨rfl, rfl⟩
  · exact ⟨rfl, rfl⟩

theorem render_ofLiteral (x : Binary64) : (ofLiteral x).render = x.literal := by
  rcases ofLiteral_cases x with ⟨ho, -⟩ | ⟨rfl, ho⟩ | ⟨code, hcode, rfl, ho⟩ <;> rw [ho]
  · rfl
  · exact Binary64.literal_negativeZero.symm
  · exact (Binary64.literal_negative hcode).symm

theorem evaluate_ofLiteral (x : Binary64) : ∃ y, (ofLiteral x).evaluate = .ok y ∧ x.Alike y := by
  rcases ofLiteral_cases x with ⟨ho, -⟩ | ⟨rfl, ho⟩ | ⟨code, -, rfl, ho⟩ <;> rw [ho]
  · exact ⟨x, rfl, .refl x⟩
  · exact ⟨_, rfl, .zeros true false⟩
  · exact ⟨_, rfl, .refl _⟩

theorem unsigned_canonical (h : ∀ x ∈ e.literals, x.isFinite = true) :
    ∀ x ∈ e.canonical.literals, x.Unsigned ∧ x.isFinite = true := by
  induction e with
  | number x => exact unsigned_ofLiteral (h x List.mem_cons_self)
  | negation e ih => exact ih h
  | operation op l r ihl ihr =>
    intro x hx
    rcases List.mem_append.mp hx with hx | hx
    · exact ihl (fun y hy => h y (List.mem_append_left _ hy)) x hx
    · exact ihr (fun y hy => h y (List.mem_append_right _ hy)) x hx

theorem render_canonical (e : Expression) : e.canonical.render = e.render := by
  induction e with
  | number x => exact render_ofLiteral x
  | negation e ih => rw [canonical, render, render, ih]
  | operation op l r ihl ihr => rw [canonical, render, render, ihl, ihr]

/-- Two evaluations end alike: with numbers that agree but for the signs of zeros, or at divisors of
one text. -/
inductive SameOutcome : Except DivisionByZero Binary64 → Except DivisionByZero Binary64 → Prop where
  | number {x y : Binary64} (h : x.Alike y) : SameOutcome (.ok x) (.ok y)
  | divisionByZero {d d' : DivisionByZero} (h : d.operand.render = d'.operand.render) :
      SameOutcome (.error d) (.error d')

theorem SameOutcome.bind {a b : Except DivisionByZero Binary64} (h : SameOutcome a b)
    {f g : Binary64 → Except DivisionByZero Binary64}
    (hfg : ∀ x y, x.Alike y → SameOutcome (f x) (g y)) : SameOutcome (a >>= f) (b >>= g) := by
  cases h with
  | number h => exact hfg _ _ h
  | divisionByZero h => exact .divisionByZero h

theorem evaluate_canonical (e : Expression) : SameOutcome e.evaluate e.canonical.evaluate := by
  induction e with
  | number x =>
    obtain ⟨y, hy, halike⟩ := evaluate_ofLiteral x
    rw [canonical, hy]
    exact .number halike
  | negation e ih => exact ih.bind fun x y h => .number h.neg
  | operation op l r ihl ihr =>
    refine ihl.bind fun x x' hx => ihr.bind fun y y' hy => ?_
    -- The divisors are zero together, because only signs of zeros differ.
    rw [← hy.isZero_eq]
    by_cases hzero : op = .div ∧ y.isZero = true
    · rw [if_pos hzero, if_pos hzero]
      exact .divisionByZero (render_canonical r).symm
    · rw [if_neg hzero, if_neg hzero]
      refine .number (Binary64.apply_alike op hx hy fun hop => ?_)
      exact Bool.eq_false_iff.mpr fun hy => hzero ⟨hop, hy⟩

/-- A tree is read again off its rendering, up to the signs of its literals: the rendering stays the
same, and so does the outcome. -/
theorem render_keeps_meaning (e : Expression) (h : ∀ x ∈ e.literals, x.isFinite = true) :
    ∃ e', ofText none e.render = .ok e' ∧ e'.render = e.render ∧
      SameOutcome e.evaluate e'.evaluate := by
  have hread := ofText_render_fits (unsigned_canonical h) (fits_none _)
  rw [render_canonical] at hread
  exact ⟨e.canonical, hread, render_canonical e, evaluate_canonical e⟩

/-- The rendering `(-5 / 0)` of a division by a negative zero is read as a tree of another shape,
which divides by zero just so. -/
theorem negative_quotient_keeps_meaning :
    let e : Expression := .operation .div (.number (.ofInt (-5))) (.number (.zero true))
    (∀ x ∈ e.literals, x.isFinite = true) ∧ e.evaluate = .error ⟨.number (.zero true)⟩ ∧
      ∃ e', ofText none "(-5 / 0)" = .ok e' ∧ e'.render = "(-5 / 0)" ∧
        ∃ d, e'.evaluate = .error d ∧ d.operand.render = "0" := by
  intro e
  have hfinite : ∀ x ∈ e.literals, x.isFinite = true := by decide +kernel
  have htext : e.render = "(-5 / 0)" := by decide +kernel
  have hvalue : e.evaluate = .error ⟨.number (.zero true)⟩ := rfl
  have hzero : (number (.zero true)).render = "0" := by decide +kernel
  obtain ⟨e', hread, hrender, houtcome⟩ := render_keeps_meaning e hfinite
  rw [htext] at hread hrender
  rw [hvalue] at houtcome
  refine ⟨hfinite, hvalue, e', hread, hrender, ?_⟩
  cases hd : e'.evaluate <;> rw [hd] at houtcome <;> cases houtcome
  case divisionByZero d h => exact ⟨d, rfl, by rw [← h, hzero]⟩

end Expression
end Reckoner
