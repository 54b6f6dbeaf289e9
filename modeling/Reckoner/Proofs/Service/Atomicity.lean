import Mathlib.Data.List.DropRight
import Reckoner.Proofs.Service.Outcome

/-!
A calculation is stored and logged as a whole, or it changes nothing. So the history has as many
items as requests have added since it was emptied last.
-/

namespace Reckoner
open Expression

def Failure.kind? : Failure → Option String
  | .invalid _ => some "InvalidExpressionError"
  | .divisionByZero _ => some "DivisionByZeroError"
  | .unreadable _ => none

namespace Store

theorem save_error_iff {s : Store} {i : Item} :
    (∃ f, s.save i = .error f) ↔
      s.backend = .database ∧ (i.result = .nan ∨ i.id ∈ s.ids) := by
  constructor
  · rintro ⟨f, hf⟩
    cases s with
    | memory items => cases hf
    | database rows =>
      refine ⟨rfl, ?_⟩
      by_contra h
      rw [not_or] at h
      obtain ⟨s', hs⟩ := save_new h.2 (.inr h.1)
      rw [hf] at hs
      cases hs
  · rintro ⟨hbackend, h⟩
    cases s with
    | memory items => cases hbackend
    | database rows =>
      by_cases hnan : i.result = .nan
      · exact ⟨_, if_pos hnan⟩
      · obtain ⟨r, hr, hid⟩ := List.mem_map.mp (h.resolve_left hnan)
        have hany : rows.any (·.id == i.id) = true :=
          List.any_eq_true.mpr ⟨r, hr, beq_iff_eq.mpr hid⟩
        rw [save, if_neg hnan, if_pos hany]
        exact ⟨_, rfl⟩

end Store

namespace Service

variable {s : Service} {id source : String} {now : Timestamp} {rs : List Request}

/-- A calculation adds its item to the items before it and is logged with the result, or it leaves
the service as it is. Then a refusal is logged with its reason, and a fault of the store is not. -/
structure AllOrNothing (s : Service) (before : List Item) (step : Step Item) : Prop where
  added : ∀ i, step.answer = .ok i →
    step.after.store.contents = .ok (before ++ [s.store.backend.kept i]) ∧
      step.log = [⟨loggerName, Log.Level.debug, "Evaluated expression",
        [("id", .string i.id), ("result", .float i.result)]⟩]
  refused : ∀ f, step.answer = .error (.failure f) →
    step.after = s ∧ ∃ kind, f.kind? = some kind ∧
      step.log = [⟨loggerName, Log.Level.info, "Expression rejected",
        [("error", .string kind), ("detail", .string f.message)]⟩]
  unsaved : ∀ f, step.answer = .error (.store f) → step.after = s ∧ step.log = []

theorem kind?_of_evaluate {f : Failure} (h : s.evaluate source = .error f) :
    ∃ kind, f.kind? = some kind := by
  rcases evaluate_error h with ⟨-, rfl⟩ | h
  · exact ⟨_, rfl⟩
  · rcases evaluated_error h with ⟨e, d, -, -, rfl⟩ | ⟨i, rfl, -⟩ <;> exact ⟨_, rfl⟩

theorem rejections_eq {f : Failure} {kind : String} (h : f.kind? = some kind) :
    rejections f = [rejected kind f.message] := by
  cases f <;> cases h <;> rfl

theorem calculate_allOrNothing {items : List Item} (hs : s.store.Holds items) :
    s.AllOrNothing (items.map s.store.backend.kept) (s.calculate id now source) := by
  rcases calculate_cases s id now source with
    ⟨f, hf, hstep⟩ | ⟨e, x, f, -, -, hstep⟩ | ⟨e, x, store, -, hsave, hstep⟩ <;> rw [hstep]
  · obtain ⟨kind, hkind⟩ := kind?_of_evaluate hf
    constructor
    · rintro _ ⟨⟩
    · rintro _ ⟨⟩
      exact ⟨rfl, kind, hkind, rejections_eq hkind⟩
    · rintro _ ⟨⟩
  · constructor
    · rintro _ ⟨⟩
    · rintro _ ⟨⟩
    · exact fun _ _ => ⟨rfl, rfl⟩
  · have hholds := (hs.save (item_distinct id now source e x) hsave).contents
    rw [(Store.save_ok hsave).1, List.map_append, List.map_singleton] at hholds
    constructor
    · rintro _ ⟨⟩
      exact ⟨hholds, rfl⟩
    · rintro _ ⟨⟩
    · rintro _ ⟨⟩

theorem count_after (s : Service) (r : Request) :
    (r.after s).store.count =
      if r.empties s then 0 else s.store.count + (r.adds s).toNat := by
  rcases r.after_cases s with ⟨i, store, -, hs, hr, hadds, hempties⟩ | ⟨hr, hempties⟩ |
    ⟨hr, hadds, hempties⟩
  · rw [hr, hempties, hadds]
    exact (Store.save_ok hs).2
  · rw [hr, hempties]
    cases s.store.backend <;> rfl
  · rw [hr, hempties, hadds]
    rfl

/-- The requests of a run since the history was emptied last, each with the service that it came
to. -/
def sinceEmptied (s : Service) (rs : List Request) : List (Service × Request) :=
  (s.trace rs).rtakeWhile fun p => !p.2.empties p.1

theorem count_performed (hs : s.store.count = 0) (rs : List Request) :
    (s.performed rs).store.count = (s.sinceEmptied rs).countP fun p => p.2.adds p.1 := by
  -- From the back: the last request tells whether those before it still count.
  induction rs using List.reverseRecOn with
  | nil => exact hs
  | append_singleton rs r ih =>
    rw [performed_concat, count_after, sinceEmptied, trace_concat, List.rtakeWhile_concat]
    cases hempties : r.empties (s.performed rs) with
    | true => simp
    | false =>
      cases hadds : r.adds (s.performed rs) <;> simp [ih, sinceEmptied, hadds]

/-- Behind any run, a calculation is stored and logged as a whole or changes nothing, a save that
the store refuses changes nothing, and the history has as many items as requests have added since it
was emptied. -/
theorem requests_all_or_nothing (b : Backend) (maxLength : Int) (maxDepth : Option Int)
    {rs : List Request} (hrs : ∀ r ∈ rs, r.Proper) :
    let s₀ := fresh b maxLength maxDepth
    let s := s₀.performed rs
    s.store.count = (s₀.sinceEmptied rs).countP (fun p => p.2.adds p.1) ∧
    (∃ before, s.store.contents = .ok before ∧
      (∀ take : Int, s.store.count ≤ take → take < 2 ^ 63 → s.store.find take 0 = .ok before) ∧
      ∀ (id : String) (now : Timestamp) (source : String),
        s.AllOrNothing before (s.calculate id now source)) ∧
    ∀ i : Item,
      ((∃ f, s.store.save i = .error f) ↔ b = .database ∧ (i.result = .nan ∨ i.id ∈ s.store.ids)) ∧
      ∀ f, s.store.save i = .error f → (Request.operation (.save i)).after s = s := by
  intro s₀ s
  have hb : s.store.backend = b := fresh_performed_backend b maxLength maxDepth rs
  have hcount : s₀.store.count = 0 := by
    cases b <;> rfl
  obtain ⟨items, hitems, -⟩ := performed_holds (P := fun _ => True)
    (fun r hr => ⟨hrs r hr, fun _ _ => trivial⟩) (fresh_holds b maxLength maxDepth _)
  refine ⟨count_performed hcount rs, ⟨_, hitems.contents, ?_, ?_⟩, fun i => ⟨?_, ?_⟩⟩
  · exact fun take hlen htake => Store.find_all hitems.contents hlen htake
  · exact fun id now source => calculate_allOrNothing hitems
  · rw [Store.save_error_iff, hb]
  · intro f hf
    rw [Request.after, Store.Operation.after, hf]
    rfl

def interrupted : List Request :=
  [.operation (.save (Store.sample "a" (.zero true))), .operation .clear,
    .operation (.save (Store.sample "a" (.zero true))),
    .operation (.save (Store.sample "a" (.infinite true))),
    .operation (.save (Store.sample "b" .nan)), .calculate "b" noon "1/-0", .history 20 0]

theorem interrupted_adds :
    (∀ r ∈ interrupted, r.Proper) ∧
    let s := (fresh .database 3 (some 100)).performed interrupted
    s.store.count = 1 ∧
    ∃ before i, s.store.contents = .ok before ∧ (s.calculate "b" noon "-0").answer = .ok i ∧
      (s.calculate "b" noon "-0").after.store.contents = .ok (before ++ [i.unsignedZero]) := by
  have hproper : ∀ r ∈ interrupted, r.Proper := by
    simp [interrupted, Request.Proper, Store.sample_distinct]
  refine ⟨hproper, ?_⟩
  intro s
  obtain ⟨hcount, ⟨before, hbefore, -, hstep⟩, -⟩ :=
    requests_all_or_nothing .database 3 (some 100) hproper
  have he : s.evaluate "-0" = .ok (.negation (.number (.zero false)), .zero true) :=
    evaluate_within (by decide) evaluated_negativeZero
  have hid : "b" ∉ s.store.ids := by decide +kernel
  let i := item "b" noon "-0" (.negation (.number (.zero false))) (.zero true)
  obtain ⟨store, hsave⟩ : ∃ store, s.store.save i = .ok store :=
    Store.save_new hid (.inr (by decide))
  have hanswer : (s.calculate "b" noon "-0").answer = .ok i := by
    simp only [calculate, he, hsave, i]
  have hadded := ((hstep "b" noon "-0").added _ hanswer).1
  exact ⟨hcount.trans (by decide +kernel), before, _, hbefore, hanswer, hadded⟩

end Service
end Reckoner
