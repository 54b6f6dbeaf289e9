import Reckoner.Proofs.Expression.Evaluation

/-!
Evaluating a tree that nobody has checked. Its nodes are visited in post-order, and the first one
that is faulty decides how the evaluation fails. Without a faulty node the operations give a number,
from the leaves up.
-/

namespace Reckoner.Draft

/-- All literals are floating-point numbers. -/
inductive Floating : Draft → Prop where
  | number (x : Binary64) : Floating (.number (.value (.float x)))
  | unary (op : String) {d : Draft} (hd : d.Floating) : Floating (.unary op d)
  | binary (op : String) {l r : Draft} (hl : l.Floating) (hr : r.Floating) :
      Floating (.binary op l r)
  | foreign (kind : String) : Floating (.foreign kind)

/-- All nodes, the operands of a node before it and from left to right. -/
def postorder : Draft → List Draft
  | .number v => [.number v]
  | .unary op d => d.postorder ++ [.unary op d]
  | .binary op l r => l.postorder ++ (r.postorder ++ [.binary op l r])
  | .foreign kind => [.foreign kind]

def vanishes (d : Draft) : Bool :=
  match d.evaluate with
  | .ok (.value (.float x)) => x.isZero
  | _ => false

/-- What is wrong with a node itself: something else stands in its place, its operator is unknown,
or it divides by zero. -/
def fault? : Draft → Option Fault
  | .number _ => none
  | .unary op _ => if op = "-" then none else some (.unaryOperator op)
  | .binary op _ r =>
    if op ∉ ["+", "-", "*", "/"] then some (.binaryOperator op)
    else if op = "/" ∧ r.vanishes then some (.divisionByZero r)
    else none
  | .foreign kind => some (.foreign kind)

/-- The operations carried out from the leaves up give the number. -/
inductive Computes : Draft → Binary64 → Prop where
  | number (x : Binary64) : Computes (.number (.value (.float x))) x
  | negation {d : Draft} {x : Binary64} (hd : d.Computes x) : Computes (.unary "-" d) x.neg
  | operation (op : Operator) {l r : Draft} {x y : Binary64} (hl : l.Computes x)
      (hr : r.Computes y) : Computes (.binary op.symbol l r) (op.apply x y)

def Fault.subject? : Fault → Option String
  | .foreign kind => some kind
  | .unaryOperator op | .binaryOperator op => some op
  | .divisionByZero _ | .operation _ => none

theorem Fault.message_subject {f : Fault} {name : String} (h : f.subject? = some name) :
    ∃ before, f.message = before ++ name := by
  cases f <;> cases h <;> exact ⟨_, rfl⟩

variable {op : String} {d l r : Draft} {x y : Binary64} {f : Fault}

theorem symbol_mem (o : Operator) : o.symbol ∈ ["+", "-", "*", "/"] := by
  cases o <;> decide

theorem symbol_eq_div {o : Operator} : o.symbol = "/" ↔ o = .div := by
  cases o <;> decide

theorem symbol_or_unknown (op : String) :
    (∃ o : Operator, op = o.symbol) ∨
      (op ∉ ["+", "-", "*", "/"] ∧ Operator.ofSymbol? op = none) := by
  by_cases h : op ∈ ["+", "-", "*", "/"]
  · left
    simp only [List.mem_cons, List.not_mem_nil, or_false] at h
    rcases h with rfl | rfl | rfl | rfl
    · exact ⟨.add, rfl⟩
    · exact ⟨.sub, rfl⟩
    · exact ⟨.mul, rfl⟩
    · exact ⟨.div, rfl⟩
  · refine .inr ⟨h, List.find?_eq_none.mpr fun o _ ho => h ?_⟩
    rw [← eq_of_beq ho]
    exact symbol_mem o

theorem vanishes_eq (h : d.evaluate = .ok (.value (.float x))) : d.vanishes = x.isZero := by
  rw [vanishes, h]

/-- An evaluation that fails with the given fault, or computes a number where there is none. -/
inductive Settles (d : Draft) : Option Fault → Prop where
  | fails {f : Fault} (he : d.evaluate = .error f) : Settles d (some f)
  | computes {x : Binary64} (hx : d.Computes x) (he : d.evaluate = .ok (.value (.float x))) :
      Settles d none

theorem Settles.error_iff {o : Option Fault} (h : d.Settles o) :
    d.evaluate = .error f ↔ o = some f := by
  cases h with
  | fails he => rw [he, Except.error.injEq, Option.some.injEq]
  | computes hx he => simp [he]

theorem settles_unary (hx : d.Computes x) (hd : d.evaluate = .ok (.value (.float x))) :
    (unary op d).Settles (unary op d).fault? := by
  rw [fault?]
  by_cases hop : op = "-"
  · subst hop
    rw [if_pos rfl]
    exact .computes (.negation hx) (by rw [evaluate, hd]; rfl)
  · rw [if_neg hop]
    refine .fails ?_
    rw [evaluate, hd, ok_bind, if_neg hop]

theorem settles_binary (hx : l.Computes x) (hl : l.evaluate = .ok (.value (.float x)))
    (hy : r.Computes y) (hr : r.evaluate = .ok (.value (.float y))) :
    (binary op l r).Settles (binary op l r).fault? := by
  rw [fault?, vanishes_eq hr]
  rcases symbol_or_unknown op with ⟨o, rfl⟩ | ⟨hop, hnone⟩
  · have hvalue : (binary o.symbol l r).evaluate =
        if o = .div ∧ y.isZero = true then .error (.divisionByZero r)
        else .ok (.value (.float (o.apply x y))) := by
      have hzero : Datum.isZero (.value (.float y)) = y.isZero := rfl
      rw [evaluate, hl, hr]
      simp only [ok_bind, Operator.ofSymbol?_symbol, Operator.datum_apply, hzero]
      rfl
    simp only [symbol_mem, not_true, if_false, symbol_eq_div]
    by_cases h : o = .div ∧ y.isZero = true
    · rw [if_pos h] at hvalue ⊢
      exact .fails hvalue
    · rw [if_neg h] at hvalue ⊢
      exact .computes (.operation o hx hy) hvalue
  · rw [if_pos hop]
    refine .fails ?_
    rw [evaluate, hl, hr, ok_bind, ok_bind, hnone]

theorem settles_postorder (h : d.Floating) : d.Settles (d.postorder.findSome? fault?) := by
  induction h with
  | number x => exact .computes (.number x) rfl
  | foreign kind => exact .fails rfl
  | @unary op d hd ih =>
    rw [postorder, List.findSome?_append]
    cases hf : d.postorder.findSome? fault? <;> rw [hf] at ih <;> cases ih
    case none.computes x hx he =>
      rw [Option.none_or, List.findSome?_singleton]
      exact settles_unary hx he
    case some.fails f he => exact .fails (by rw [evaluate, he]; rfl)
  | @binary op l r hl hr ihl ihr =>
    rw [postorder, List.findSome?_append, List.findSome?_append]
    cases hfl : l.postorder.findSome? fault? <;> rw [hfl] at ihl <;> cases ihl
    case none.computes x hx hex =>
      rw [Option.none_or]
      cases hfr : r.postorder.findSome? fault? <;> rw [hfr] at ihr <;> cases ihr
      case none.computes y hy hey =>
        rw [Option.none_or, List.findSome?_singleton]
        exact settles_binary hx hex hy hey
      case some.fails f he => exact .fails (by rw [evaluate, hex, he]; rfl)
    case some.fails f he => exact .fails (by rw [evaluate, he]; rfl)

theorem floating_draft (e : Expression) : e.draft.Floating := by
  induction e with
  | number x => exact .number x
  | negation e ih => exact .unary "-" ih
  | operation op l r ihl ihr => exact .binary op.symbol ihl ihr

theorem exists_draft {e : Expression} {n : Draft} (h : n ∈ e.draft.postorder) :
    ∃ e' : Expression, n = e'.draft := by
  induction e with
  | number x => exact ⟨.number x, List.mem_singleton.mp h⟩
  | negation e ih =>
    rcases List.mem_append.mp h with h | h
    · exact ih h
    · exact ⟨.negation e, List.mem_singleton.mp h⟩
  | operation op l r ihl ihr =>
    rcases List.mem_append.mp h with h | h
    · exact ihl h
    rcases List.mem_append.mp h with h | h
    · exact ihr h
    · exact ⟨.operation op l r, List.mem_singleton.mp h⟩

theorem fault?_draft {e : Expression} (h : e.draft.fault? = some f) :
    ∃ l r, e = .operation .div l r ∧ f = .divisionByZero r.draft := by
  cases e with
  | number x => cases h
  | negation e =>
    rw [Expression.draft, fault?, if_pos rfl] at h
    cases h
  | operation op l r =>
    simp only [Expression.draft, fault?, symbol_mem, not_true, if_false, symbol_eq_div] at h
    split at h
    · next hdiv =>
      cases h
      exact ⟨l, r, by rw [hdiv.1], rfl⟩
    · cases h

/-- The first faulty node in post-order decides: the evaluation fails if there is one, and with its
fault, and otherwise computes a number. The nodes of a checked tree can only divide by zero. -/
theorem evaluate_first_fault (d : Draft) (hd : d.Floating) :
    ((∃ f, d.evaluate = .error f) ↔ ∃ n ∈ d.postorder, n.fault?.isSome) ∧
      (∀ f, d.evaluate = .error f ↔ ∃ before n after, d.postorder = before ++ n :: after ∧
        n.fault? = some f ∧ ∀ m ∈ before, m.fault? = none) ∧
      (∀ f name, d.evaluate = .error f → f.subject? = some name →
        ∃ before, f.message = before ++ name) ∧
      ((∀ n ∈ d.postorder, n.fault? = none) →
        ∃ x, d.Computes x ∧ d.evaluate = .ok (.value (.float x))) ∧
      ∀ e : Expression, e.draft.Floating ∧ ∀ n ∈ e.draft.postorder, ∀ f, n.fault? = some f →
        ∃ l r, n = (Expression.operation .div l r).draft ∧ f = .divisionByZero r.draft := by
  have hs := settles_postorder hd
  have herror : ∀ f, d.evaluate = .error f ↔ d.postorder.findSome? fault? = some f :=
    fun f => hs.error_iff
  refine ⟨?_, ?_, ?_, ?_, ?_⟩
  · simp only [herror, ← Option.isSome_iff_exists, List.findSome?_isSome_iff]
  · intro f
    rw [herror, List.findSome?_eq_some_iff]
  · exact fun f name _ => Fault.message_subject
  · intro h
    rw [List.findSome?_eq_none_iff.mpr h] at hs
    cases hs with
    | computes hx he => exact ⟨_, hx, he⟩
  · refine fun e => ⟨floating_draft e, fun n hn f hf => ?_⟩
    obtain ⟨e', rfl⟩ := exists_draft hn
    obtain ⟨l, r, rfl, hfault⟩ := fault?_draft hf
    exact ⟨l, r, rfl, hfault⟩

/-- In a tree for `(1 / -0) % x` where `x` is no node, the division fails before anything else. -/
theorem threefold_fault :
    let zero : Draft := .unary "-" (.number (.value (.float (.zero false))))
    let d : Draft := .binary "%" (.binary "/" (.number (.value (.float (.ofInt 1)))) zero)
      (.foreign "str")
    d.Floating ∧ d.evaluate = .error (.divisionByZero zero) := by
  intro zero d
  have hzero : zero.Floating := .unary "-" (.number (.zero false))
  have hd : d.Floating := .binary "%" (.binary "/" (.number (.ofInt 1)) hzero) (.foreign "str")
  have hfirst := (evaluate_first_fault d hd).2.1 (.divisionByZero zero)
  refine ⟨hd, hfirst.mpr
    ⟨.number (.value (.float (.ofInt 1))) :: zero.postorder, _, _, rfl, rfl, ?_⟩⟩
  intro m hm
  rcases List.mem_cons.mp hm with rfl | hm
  · rfl
  rcases List.mem_cons.mp hm with rfl | hm
  · rfl
  · rw [List.mem_singleton.mp hm]
    rfl

end Reckoner.Draft
