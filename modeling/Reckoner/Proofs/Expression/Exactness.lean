import Reckoner.Proofs.Binary64.Exact
import Reckoner.Proofs.Expression.Evaluation

/-!
Where evaluation is exact. As long as the exact values of the nodes are floating-point numbers, in
the order in which they are computed, nothing is rounded, and a division fails just where its divisor
is exactly zero.
-/

namespace Reckoner

def Operator.rational? : Operator → ℚ → ℚ → Option ℚ
  | .add, p, q => some (p + q)
  | .sub, p, q => some (p - q)
  | .mul, p, q => some (p * q)
  | .div, p, q => if q = 0 then none else some (p / q)

def Operator.whole? : Operator → Int → Int → Option Int
  | .add, m, n => some (m + n)
  | .sub, m, n => some (m - n)
  | .mul, m, n => some (m * n)
  | .div, _, _ => none

namespace Expression
open Binary64

def rational? : Expression → Option ℚ
  | .number x => x.value?
  | .negation e => e.rational?.map (- ·)
  | .operation op l r => do op.rational? (← l.rational?) (← r.rational?)

def whole? : Expression → Option Int
  | .number x => x.toInt?
  | .negation e => e.whole?.map (- ·)
  | .operation op l r => do op.whole? (← l.whole?) (← r.whole?)

/-- All nodes in the order in which they are computed. -/
def postorder : Expression → List Expression
  | .number x => [.number x]
  | .negation e => e.postorder ++ [.negation e]
  | .operation op l r => l.postorder ++ (r.postorder ++ [.operation op l r])

/-- The exact value is a floating-point number. -/
def Exact (e : Expression) : Prop :=
  ∃ q, e.rational? = some q ∧ Representable q

variable {e l r : Expression} {op : Operator} {x y : Binary64} {p q : ℚ}

theorem mem_postorder_self (e : Expression) : e ∈ e.postorder := by
  cases e <;> simp [postorder]

theorem rational?_operation {z : ℚ} :
    (operation op l r).rational? = some z ↔
      ∃ p q, l.rational? = some p ∧ r.rational? = some q ∧ op.rational? p q = some z := by
  simp only [rational?, Option.bind_eq_bind, Option.bind_eq_some_iff]
  constructor
  · rintro ⟨p, hp, q, hq, hz⟩
    exact ⟨p, q, hp, hq, hz⟩
  · rintro ⟨p, q, hp, hq, hz⟩
    exact ⟨p, hp, q, hq, hz⟩

theorem value?_apply (hx : x.value? = some p) (hy : y.value? = some q) {z : ℚ}
    (hz : op.rational? p q = some z) (hrep : Representable z) : (op.apply x y).value? = some z := by
  cases op with
  | add =>
    cases hz
    exact value?_add hx hy hrep
  | sub =>
    cases hz
    exact value?_sub hx hy hrep
  | mul =>
    cases hz
    exact value?_mul hx hy hrep
  | div =>
    rw [Operator.rational?] at hz
    split at hz
    · cases hz
    · next hq =>
      cases hz
      exact value?_div hx hy hq hrep

theorem evaluate_exact (h : ∀ t ∈ e.postorder, t.Exact) :
    ∃ x q, e.rational? = some q ∧ e.evaluate = .ok x ∧ x.value? = some q := by
  induction e with
  | number x =>
    obtain ⟨q, hq, -⟩ := h _ (List.mem_singleton_self _)
    exact ⟨x, q, hq, rfl, hq⟩
  | negation e ih =>
    rw [postorder, List.forall_mem_append] at h
    obtain ⟨x, q, hq, hx, hvalue⟩ := ih h.1
    refine ⟨x.neg, -q, by rw [rational?, hq, Option.map_some], ?_, value?_neg hvalue⟩
    rw [evaluate, hx]
    rfl
  | operation op l r ihl ihr =>
    rw [postorder, List.forall_mem_append, List.forall_mem_append, List.forall_mem_singleton] at h
    obtain ⟨hl, hr, z, hz, hrep⟩ := h
    obtain ⟨x, p, hp, hx, hxp⟩ := ihl hl
    obtain ⟨y, q, hq, hy, hyq⟩ := ihr hr
    obtain ⟨p', q', hp', hq', hop⟩ := rational?_operation.mp hz
    obtain rfl : p = p' := Option.some.inj (hp.symm.trans hp')
    obtain rfl : q = q' := Option.some.inj (hq.symm.trans hq')
    have hdivisor : ¬ (op = .div ∧ y.isZero = true) := by
      rintro ⟨rfl, hzero⟩
      rw [Operator.rational?, if_pos ((isZero_iff hyq).mp hzero)] at hop
      cases hop
    refine ⟨op.apply x y, z, hz, ?_, value?_apply hxp hyq hop hrep⟩
    rw [evaluate_operation hx hy, if_neg hdivisor]

theorem append_eq_split {α : Type*} {e : α} {xs ys before after : List α}
    (h : xs ++ ys = before ++ e :: after) :
    (∃ rest, xs = before ++ e :: rest) ∨ ∃ more, before = xs ++ more ∧ ys = more ++ e :: after := by
  rcases List.append_eq_append_iff.mp h with ⟨more, hbefore, hys⟩ | ⟨more, hxs, hafter⟩
  · exact .inr ⟨more, hbefore, hys⟩
  · cases more with
    | nil => exact .inr ⟨[], by simpa using hxs.symm, by simpa using hafter.symm⟩
    | cons t rest =>
      injection hafter with ht hrest
      exact .inl ⟨rest, by rw [hxs, ht]⟩

theorem eq_of_singleton_split {d : Expression} {before after : List Expression}
    (h : [d] = before ++ e :: after) : before = [] ∧ d = e := by
  cases before with
  | nil => simp_all
  | cons t before => simp at h

theorem evaluate_zeroDivisor {d : Expression} {before after : List Expression}
    (h : e.postorder = before ++ operation .div l d :: after) (hzero : d.rational? = some 0)
    (hbefore : ∀ t ∈ before, t.Exact) : e.evaluate = .error ⟨d⟩ := by
  induction e generalizing before after with
  | number x => cases (eq_of_singleton_split h).2
  | negation e ih =>
    rcases append_eq_split h with ⟨rest, hrest⟩ | ⟨more, -, hmore⟩
    · rw [evaluate, ih hrest hbefore]
      rfl
    · cases (eq_of_singleton_split hmore).2
  | operation op a b iha ihb =>
    rcases append_eq_split h with ⟨rest, hrest⟩ | ⟨more, rfl, hmore⟩
    · exact evaluate_operation_left (iha hrest hbefore)
    rw [List.forall_mem_append] at hbefore
    obtain ⟨x, p, -, hx, -⟩ := evaluate_exact hbefore.1
    rcases append_eq_split hmore with ⟨rest, hrest⟩ | ⟨last, rfl, hlast⟩
    · exact evaluate_operation_right hx (ihb hrest hbefore.2)
    · obtain ⟨rfl, hself⟩ := eq_of_singleton_split hlast
      cases hself
      rw [List.append_nil] at hbefore
      obtain ⟨y, q, hq, hy, hvalue⟩ := evaluate_exact hbefore.2
      rw [hzero] at hq
      cases hq
      rw [evaluate_operation hx hy, if_pos ⟨rfl, (isZero_iff hvalue).mpr rfl⟩]

/-! Whole numbers. -/

theorem rational?_whole {m n k : Int} (h : op.whole? m n = some k) :
    op.rational? (m : ℚ) (n : ℚ) = some (k : ℚ) := by
  cases op with
  | add =>
    cases h
    rw [Operator.rational?, Int.cast_add]
  | sub =>
    cases h
    rw [Operator.rational?, Int.cast_sub]
  | mul =>
    cases h
    rw [Operator.rational?, Int.cast_mul]
  | div => cases h

theorem exact_of_whole {n : Int} (h : e.whole? = some n)
    (hbound : ∀ op l r m, operation op l r ∈ e.postorder →
      (operation op l r).whole? = some m → m.natAbs ≤ 2 ^ 53) :
    e.rational? = some (n : ℚ) ∧ ∀ t ∈ e.postorder, t.Exact := by
  induction e generalizing n with
  | number x =>
    have hx := toInt?_eq_some_iff.mp h
    exact ⟨hx, List.forall_mem_singleton.mpr ⟨n, hx, x, hx⟩⟩
  | negation e ih =>
    obtain ⟨m, hm, rfl⟩ := Option.map_eq_some_iff.mp h
    obtain ⟨he, hexact⟩ := ih hm fun op l r k hk => hbound op l r k (List.mem_append_left _ hk)
    have hneg : (negation e).rational? = some ((-m : Int) : ℚ) := by
      rw [rational?, he, Option.map_some, Int.cast_neg]
    obtain ⟨q, hq, x, hx⟩ := hexact e (mem_postorder_self e)
    rw [he] at hq
    cases hq
    refine ⟨hneg, List.forall_mem_append.mpr ⟨hexact, List.forall_mem_singleton.mpr ⟨_, hneg, ?_⟩⟩⟩
    exact ⟨x.neg, by rw [value?_neg hx, Int.cast_neg]⟩
  | operation op l r ihl ihr =>
    have hself := hbound op l r n (mem_postorder_self _) h
    simp only [whole?, Option.bind_eq_bind, Option.bind_eq_some_iff] at h
    obtain ⟨a, ha, b, hb, hop⟩ := h
    obtain ⟨hl, hexactLeft⟩ :=
      ihl ha fun op l r k hk => hbound op l r k (List.mem_append_left _ hk)
    obtain ⟨hr, hexactRight⟩ := ihr hb fun op l r k hk =>
      hbound op l r k (List.mem_append_right _ (List.mem_append_left _ hk))
    have hexact : (operation op l r).rational? = some (n : ℚ) :=
      rational?_operation.mpr ⟨a, b, hl, hr, rational?_whole hop⟩
    refine ⟨hexact, List.forall_mem_append.mpr ⟨hexactLeft, List.forall_mem_append.mpr
      ⟨hexactRight, List.forall_mem_singleton.mpr ⟨n, hexact, representable_int hself⟩⟩⟩⟩

/-- Nothing is rounded where nothing needs to be. If the exact values of all nodes are floating-point
numbers, the evaluation gives the number of the root's value, which is unique but for the sign of
zero. If the divisor of a division is exactly zero and the nodes before it are exact, the evaluation
fails with that divisor. Sums, differences and products of whole numbers that stay within 53 bits are
exact, and their digits are printed. -/
theorem evaluation_exact (e : Expression) :
    ((∀ t ∈ e.postorder, t.Exact) → ∃ x q, e.rational? = some q ∧ e.evaluate = .ok x ∧
      x.value? = some q ∧ ∀ y : Binary64, y.value? = some q → x.Alike y) ∧
    (∀ before l r after, e.postorder = before ++ operation .div l r :: after →
      r.rational? = some 0 → (∀ t ∈ before, t.Exact) → e.evaluate = .error ⟨r⟩) ∧
    (∀ n : Int, e.whole? = some n →
      (∀ op l r m, operation op l r ∈ e.postorder → (operation op l r).whole? = some m →
        m.natAbs ≤ 2 ^ 53) →
      ∃ x, e.evaluate = .ok x ∧ x.value? = some (n : ℚ) ∧ x.resultText = Text.intText n) := by
  refine ⟨fun h => ?_, fun before l r after => evaluate_zeroDivisor, fun n h hbound => ?_⟩
  · obtain ⟨x, q, hq, hx, hvalue⟩ := evaluate_exact h
    exact ⟨x, q, hq, hx, hvalue, fun y hy => alike_of_value? hvalue hy⟩
  · obtain ⟨hn, hexact⟩ := exact_of_whole h hbound
    obtain ⟨x, q, hq, hx, hvalue⟩ := evaluate_exact hexact
    rw [hn] at hq
    cases hq
    refine ⟨x, hx, hvalue, ?_⟩
    rw [resultText, toInt?_eq_some_iff.mpr hvalue]

/-- A quarter is exact, also in front of a division by `2 - 2`, and so are whole numbers up to two
to the power of 53. -/
theorem quarter_exact :
    let whole : Int → Expression := fun n => .number (.ofInt n)
    let quarter : Expression := .operation .div (whole 1) (whole 4)
    let nothing : Expression := .operation .sub (whole 2) (whole 2)
    (∃ x, quarter.evaluate = .ok x ∧ x.value? = some (1 / 4)) ∧
      (operation .add quarter (.operation .div (whole 3) nothing)).evaluate = .error ⟨nothing⟩ ∧
      ∃ x, (operation .sub (whole (2 ^ 53)) (whole 3)).evaluate = .ok x ∧
        x.resultText = "9007199254740989" := by
  intro whole quarter nothing
  have hwhole : ∀ n : Int, n.natAbs ≤ 2 ^ 53 → (whole n).rational? = some (n : ℚ) :=
    fun n hn => value?_ofInt hn
  have hnumber : ∀ n : Int, n.natAbs ≤ 2 ^ 53 → (whole n).Exact :=
    fun n hn => ⟨n, hwhole n hn, representable_int hn⟩
  have hquarter : quarter.rational? = some (1 / 4) :=
    rational?_operation.mpr ⟨_, _, hwhole 1 (by decide), hwhole 4 (by decide), by
      simp [Operator.rational?]⟩
  have hrep : Representable (1 / 4) :=
    ⟨.finite false ⟨0x3FD0000000000000, by decide⟩, by decide +kernel⟩
  have hnothing : nothing.rational? = some 0 :=
    rational?_operation.mpr ⟨_, _, hwhole 2 (by decide), hwhole 2 (by decide), by
      simp [Operator.rational?]⟩
  have hdifference :
      (operation .sub (whole (2 ^ 53)) (whole 3)).whole? = some 9007199254740989 := by
    have hint : ∀ n : Int, n.natAbs ≤ 2 ^ 53 → (whole n).whole? = some n :=
      fun n hn => toInt?_eq_some_iff.mpr (value?_ofInt hn)
    rw [whole?, hint _ (by decide), hint _ (by decide)]
    rfl
  have hbound : ∀ op l r m, operation op l r ∈
      (operation .sub (whole (2 ^ 53)) (whole 3)).postorder →
      (operation op l r).whole? = some m → m.natAbs ≤ 2 ^ 53 := by
    intro op l r m hmem hm
    have hmem : op = .sub ∧ l = whole (2 ^ 53) ∧ r = whole 3 := by
      simpa [postorder, whole] using hmem
    obtain ⟨rfl, rfl, rfl⟩ := hmem
    rw [hdifference] at hm
    cases hm
    decide
  have hnodes : ∀ t ∈ quarter.postorder, t.Exact := by
    intro t ht
    have ht : t = whole 1 ∨ t = whole 4 ∨ t = quarter := by
      simpa [quarter, postorder, whole] using ht
    rcases ht with rfl | rfl | rfl
    · exact hnumber 1 (by decide)
    · exact hnumber 4 (by decide)
    · exact ⟨_, hquarter, hrep⟩
  have hbefore : ∀ t ∈ quarter.postorder ++ ([whole 3] ++ nothing.postorder), t.Exact := by
    rw [List.forall_mem_append]
    refine ⟨hnodes, fun t ht => ?_⟩
    have ht : t = whole 3 ∨ t = whole 2 ∨ t = nothing := by
      simpa [nothing, postorder, whole] using ht
    rcases ht with rfl | rfl | rfl
    · exact hnumber 3 (by decide)
    · exact hnumber 2 (by decide)
    · exact ⟨0, hnothing, by simpa using representable_int (n := 0) (by decide)⟩
  refine ⟨?_, ?_, ?_⟩
  · obtain ⟨x, q, hq, hx, hvalue, -⟩ := (evaluation_exact quarter).1 hnodes
    exact ⟨x, hx, hvalue.trans (hq.symm.trans hquarter)⟩
  · exact (evaluation_exact _).2.1 _ (whole 3) nothing
      [operation .add quarter (.operation .div (whole 3) nothing)] rfl hnothing hbefore
  · obtain ⟨x, hx, -, htext⟩ := (evaluation_exact _).2.2 9007199254740989 hdifference hbound
    exact ⟨x, hx, htext.trans (by decide +kernel)⟩

end Expression
end Reckoner
