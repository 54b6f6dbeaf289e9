import Reckoner.Proofs.Service.Recording
import Reckoner.Proofs.Web.Body
import Reckoner.Web.App

/-!
The history behind the web interface: after any requests it holds the items that were answered to
calculations, in their order.
-/

namespace Reckoner

/-- What a value tells of an item: all but the numbers in its computation that are not finite. -/
structure Item.ToldBy (i : Item) (v : Json) : Prop where
  id : v.get? "id" = some (.string i.id)
  expression : v.get? "expression" = some (.string i.expression)
  computation : v.get? "computation" =
    some ((Json.object i.computation).replaceNonFinite fun _ => .null)
  result : v.get? "result" = some i.result.portableJson
  createdAt : v.get? "created_at" = some (.string i.createdAt.zuluText)

theorem Item.told_publicJson (i : Item) : i.ToldBy i.publicJson :=
  ⟨rfl, rfl, rfl, congrArg some (Json.replaceNonFinite_named i.result), rfl⟩

namespace Web
open Text

def Request.isCalculation (r : Request) : Bool :=
  toUpper r.method == "POST" && App.withoutLineEnd (Address.ofText r.target).path == "/calculator"

/-- A request, and what the program adds to it: how much of a body it can read, a new id and the
time. -/
structure Visit where
  limits : Json.Limits
  id : String
  now : Timestamp
  request : Request

namespace App

def withItems (a : App) (items : List Item) : App :=
  a.withService { a.service with store := .memory items }

def fresh (documented : Bool) (maxLength : Int) (maxDepth : Option Int) : App :=
  ⟨documented, ⟨.empty .memory, maxLength, maxDepth⟩⟩

def respond (v : Visit) (a : App) : Response :=
  (a.handleWithin v.limits v.id v.now v.request).1

def after (v : Visit) (a : App) : App :=
  (a.handleWithin v.limits v.id v.now v.request).2

def visited (a : App) (vs : List Visit) : App :=
  vs.foldl (fun a v => a.after v) a

def exchanges (a : App) : List Visit → List (Request × Response)
  | [] => []
  | v :: vs => (v.request, a.respond v) :: exchanges (a.after v) vs

/-- What was answered to calculations that succeeded. -/
def returned (xs : List (Request × Response)) : List Content :=
  (xs.filter fun x => x.1.isCalculation && x.2.status == 200).map (·.2.content)

section Step

variable {a : App} {v : Visit} {items : List Item} {source : String} {e : Expression} {x : Binary64}

theorem route?_calculator {path : String} (h : withoutLineEnd path = "/calculator") :
    a.route? path = some .calculator := by
  simp [route?, h]

theorem route?_eq_calculator {path : String} (h : a.route? path = some .calculator) :
    withoutLineEnd path = "/calculator" := by
  refine Classical.byContradiction fun hne => ?_
  simp only [route?, if_neg hne] at h
  split at h
  · cases h
  split at h
  · cases h
  split at h
  · cases h
  · cases h

theorem answer_calculation {limits : Json.Limits} {id : String} {now : Timestamp} {r : Request}
    (h : a.route? (Address.ofText r.target).path = some .calculator) :
    a.answer limits id now "POST" r = a.calculate limits id now r := by
  unfold answer
  dsimp only
  rw [h]
  rfl

theorem handle_calculation (h : v.request.isCalculation = true) :
    a.handleWithin v.limits v.id v.now v.request =
      a.calculate v.limits v.id v.now v.request := by
  simp only [Request.isCalculation, Bool.and_eq_true, beq_iff_eq] at h
  have hhead : "POST" ≠ "HEAD" := by decide
  rw [handleWithin, h.1, answer_calculation (route?_calculator h.2)]
  exact congrArg (·, _) (if_neg hhead)

theorem answer_other {limits : Json.Limits} {id method : String} {now : Timestamp} {r : Request}
    (h : a.route? (Address.ofText r.target).path = some .calculator → method ≠ "POST") :
    (a.answer limits id now method r).2 = a := by
  unfold answer
  dsimp only
  split
  · rfl
  · rfl
  · rfl
  · next hroute => exact absurd rfl (h hroute)
  all_goals rfl

theorem after_other (h : v.request.isCalculation = false) : a.after v = a := by
  have hother : a.route? (Address.ofText v.request.target).path = some .calculator →
      toUpper v.request.method ≠ "POST" := by
    intro hroute hpost
    rw [Request.isCalculation, hpost, route?_eq_calculator hroute] at h
    cases h
  rw [after, handleWithin]
  exact answer_other hother

theorem status_failure (f : Failure) : (failureResponse f).status ≠ 200 := by
  have h400 : 400 ≠ 200 := by decide
  have h422 : 422 ≠ 200 := by decide
  have h500 : 500 ≠ 200 := by decide
  cases f with
  | invalid i => exact h400
  | divisionByZero d => exact h422
  | unreadable u => exact h500

theorem status_body (f : BodyFault) : (bodyResponse f).status ≠ 200 := by
  have h400 : 400 ≠ 200 := by decide
  cases f <;> exact h400

theorem calculation_succeeds (hv : v.request.isCalculation = true)
    (hsource : requestedExpression v.limits v.request = .ok source)
    (he : a.service.evaluate source = .ok (e, x)) :
    (a.withItems items).respond v =
        ⟨200, .json (Item.mk v.id source e.members x v.now).publicJson⟩ ∧
      (a.withItems items).after v =
        a.withItems (items ++ [⟨v.id, source, e.members, x, v.now⟩]) := by
  have he : (a.withItems items).service.evaluate source = .ok (e, x) := he
  unfold respond after
  rw [handle_calculation hv]
  simp only [calculate, hsource, Service.calculate, he]
  exact ⟨rfl, rfl⟩

theorem calculation_fails (hv : v.request.isCalculation = true)
    (hfail : ∀ source, requestedExpression v.limits v.request = .ok source →
      ∃ f, a.service.evaluate source = .error f) :
    (a.respond v).status ≠ 200 ∧ a.after v = a := by
  unfold respond after
  rw [handle_calculation hv]
  cases hsource : requestedExpression v.limits v.request with
  | error f =>
    simp only [calculate, hsource]
    exact ⟨status_body f, trivial⟩
  | ok source =>
    obtain ⟨f, hf⟩ := hfail source hsource
    simp only [calculate, hsource, Service.calculate, hf, calculationResponse]
    exact ⟨status_failure f, rfl⟩

theorem visit_cases (a : App) (items : List Item) (v : Visit) :
    (∃ i : Item, v.request.isCalculation = true ∧
        (a.withItems items).respond v = ⟨200, .json i.publicJson⟩ ∧
        (a.withItems items).after v = a.withItems (items ++ [i])) ∨
      (v.request.isCalculation = true → ((a.withItems items).respond v).status ≠ 200) ∧
        (a.withItems items).after v = a.withItems items := by
  cases hv : v.request.isCalculation with
  | false => exact .inr ⟨nofun, after_other hv⟩
  | true =>
    by_cases hok : ∃ source p, requestedExpression v.limits v.request = .ok source ∧
        a.service.evaluate source = .ok p
    · obtain ⟨source, ⟨e, x⟩, hsource, he⟩ := hok
      exact .inl ⟨_, rfl, calculation_succeeds hv hsource he⟩
    · have hfail : ∀ source, requestedExpression v.limits v.request = .ok source →
          ∃ f, (a.withItems items).service.evaluate source = .error f := by
        intro source hsource
        cases he : (a.withItems items).service.evaluate source with
        | error f => exact ⟨f, rfl⟩
        | ok p => exact absurd ⟨source, p, hsource, he⟩ hok
      have hcase := calculation_fails hv hfail
      exact .inr ⟨fun _ => hcase.1, hcase.2⟩

end Step

/-! Whole runs. -/

theorem returned_cons (r : Request) (response : Response) (xs : List (Request × Response)) :
    returned ((r, response) :: xs) =
      (if r.isCalculation && response.status == 200 then [response.content] else []) ++
        returned xs := by
  unfold returned
  rw [List.filter_cons]
  split <;> rfl

theorem visited_history (a : App) (items : List Item) (vs : List Visit) :
    ∃ new : List Item, (a.withItems items).visited vs = a.withItems (items ++ new) ∧
      new.map (fun i => .json i.publicJson) = returned ((a.withItems items).exchanges vs) := by
  -- The items from before are generalized: the first request may already have added one.
  induction vs generalizing items with
  | nil => exact ⟨[], by rw [List.append_nil]; rfl, rfl⟩
  | cons v vs ih =>
    rw [visited, List.foldl_cons, ← visited, exchanges, returned_cons]
    cases visit_cases a items v with
    | inl hcase =>
      obtain ⟨i, hv, hresponse, hafter⟩ := hcase
      obtain ⟨new, hnew, hreturned⟩ := ih (items ++ [i])
      refine ⟨i :: new, ?_, ?_⟩
      · rw [hafter, hnew, List.append_assoc]
        rfl
      · rw [hafter, ← hreturned, hv, hresponse]
        rfl
    | inr hcase =>
      obtain ⟨hstatus, hafter⟩ := hcase
      obtain ⟨new, hnew, hreturned⟩ := ih items
      refine ⟨new, by rw [hafter, hnew], ?_⟩
      rw [hafter, ← hreturned, if_neg]
      · rfl
      · simpa using hstatus

/-- After any requests the history holds what was returned to the calculations among them, in order,
and what is returned tells of the item. The next request leaves it alone unless it is answered with
status 200, and a calculation that has a value within the limits is answered so. -/
theorem history_is_returned (documented : Bool) (maxLength : Int) (maxDepth : Option Int)
    (vs : List Visit) :
    let a := (fresh documented maxLength maxDepth).visited vs
    ∃ items : List Item, a.service.store = .memory items ∧
      items.map (fun i => .json i.publicJson) =
        returned ((fresh documented maxLength maxDepth).exchanges vs) ∧
      (∀ i : Item, i.ToldBy i.publicJson) ∧
      ∀ v : Visit,
        ((a.respond v).status ≠ 200 → (a.after v).service.store = .memory items) ∧
        ∀ source e x, v.request.isCalculation = true →
          requestedExpression v.limits v.request = .ok source → (source.length : Int) ≤ maxLength →
          Expression.evaluated maxDepth source = .ok (e, x) →
          a.respond v = ⟨200, .json (Item.mk v.id source e.members x v.now).publicJson⟩ ∧
            (a.after v).service.store =
              .memory (items ++ [⟨v.id, source, e.members, x, v.now⟩]) := by
  intro a
  obtain ⟨items, hvisited, hreturned⟩ :=
    visited_history (fresh documented maxLength maxDepth) [] vs
  have ha : a = (fresh documented maxLength maxDepth).withItems items := hvisited
  rw [ha]
  refine ⟨items, rfl, hreturned, Item.told_publicJson, fun v => ⟨fun hstatus => ?_, ?_⟩⟩
  · cases visit_cases (fresh documented maxLength maxDepth) items v with
    | inl hcase =>
      obtain ⟨i, -, hresponse, -⟩ := hcase
      rw [hresponse] at hstatus
      exact absurd rfl hstatus
    | inr hcase =>
      rw [hcase.2]
      rfl
  · intro source e x hv hsource hlen hx
    have he : (fresh documented maxLength maxDepth).service.evaluate source = .ok (e, x) :=
      Service.evaluate_within hlen hx
    obtain ⟨hresponse, hafter⟩ := calculation_succeeds hv hsource he
    rw [hafter]
    exact ⟨hresponse, rfl⟩

def overflowingVisit : Visit :=
  ⟨usualLimits, "a", Service.noon,
    ⟨"POST", "/calculator", some "application/json", bodyFor Service.overflowing⟩⟩

theorem overflowing_returned :
    requestedExpression overflowingVisit.limits overflowingVisit.request = .ok Service.overflowing ∧
      ∃ e, Expression.evaluated (some 100) Service.overflowing = .ok (e, .nan) ∧
        (fresh true 1000 (some 100)).respond overflowingVisit =
          ⟨200, .json (Item.mk "a" Service.overflowing e.members .nan Service.noon).publicJson⟩ ∧
        ((fresh true 1000 (some 100)).after overflowingVisit).service.store =
          .memory [⟨"a", Service.overflowing, e.members, .nan, Service.noon⟩] := by
  have hne : Service.overflowing ≠ "" := by
    intro h
    have hlen := Service.length_overflowing
    rw [h] at hlen
    cases hlen
  have hinner : usualLimits.inner? = some _ := rfl
  have hsource := requestedExpression_bodyFor hinner hne "POST" "/calculator"
  have hlen : (Service.overflowing.length : Int) ≤ 1000 := by
    rw [Service.length_overflowing]
    decide
  obtain ⟨items, hitems, -, -, hnext⟩ := history_is_returned true 1000 (some 100) []
  cases hitems
  obtain ⟨-, hvalue⟩ := hnext overflowingVisit
  exact ⟨hsource, _, Service.evaluated_overflowing, hvalue _ _ _ (by decide +kernel) hsource hlen
    Service.evaluated_overflowing⟩

end App
end Web
end Reckoner
