import Reckoner.Proofs.Json.Limits
import Reckoner.Proofs.Service.Outcome
import Reckoner.Proofs.Web.History
import Reckoner.Proofs.Web.Sent

/-!
How a calculation is answered. The body decides first, then the length of the source, its tokens and
its tree, and then the divisors. What passes all of them is answered with the item.
-/

namespace Reckoner.Web
open Text Expression

/-- The expression that a body asks for: a string of an object under that name, but the empty one. -/
def asked? (body : Json) : Option String :=
  match body.get? "expression" with
  | some (.string s) => if s = "" then none else some s
  | _ => none

namespace Visit

def asked? (v : Visit) : Option String :=
  (jsonBody v.limits v.request.body).toOption.bind Web.asked?

/-- The body is in the encoding that its first bytes announce, and reading it comes to no limit. -/
def Readable (v : Visit) : Prop :=
  ∃ text, decodedBody? v.request.body = some text ∧
    ∀ f, Json.ofTextWithin v.limits (unmarked text) = .error f → ¬ f.problem.OfLimit

end Visit

namespace Response

def kind? (r : Response) : Option String :=
  match r.content with
  | .json v =>
    match v.get? "type" with
    | some (.string kind) => some kind
    | _ => none
  | _ => none

structure Is (r : Response) (status : Nat) (kind : String) : Prop where
  status_eq : r.status = status
  kind_eq : r.kind? = some kind

variable {status : Nat} {text kind : String} {more : List (String × Json)}

theorem failure_is : (failure status text kind more).Is status kind :=
  ⟨rfl, rfl⟩

theorem failure_is_iff {status' : Nat} {kind' : String} :
    (failure status text kind more).Is status' kind' ↔ status = status' ∧ kind = kind' :=
  ⟨fun h => ⟨h.status_eq, Option.some.inj h.kind_eq⟩, by rintro ⟨rfl, rfl⟩; exact failure_is⟩

end Response

section Body

variable {v : Visit} {w : Json} {body source : String}

theorem checkExpression_ok_iff : checkExpression w = .ok source ↔
    w = .string source ∧ source ≠ "" := by
  cases w with
  | string s =>
    by_cases hs : s = ""
    · subst hs
      constructor
      · intro h
        cases h
      · rintro ⟨⟨⟩, h⟩
        exact absurd rfl h
    · have hcheck : checkExpression (.string s) = .ok s := by
        simp [checkExpression, Checked.string, Except.bind, hs]
      rw [hcheck]
      exact ⟨by rintro ⟨⟩; exact ⟨rfl, hs⟩, by rintro ⟨⟨⟩, -⟩; rfl⟩
  | _ =>
    constructor
    · intro h
      cases h
    · rintro ⟨⟨⟩, -⟩

theorem asked?_eq_some_iff : asked? w = some source ↔
    w.get? "expression" = some (.string source) ∧ source ≠ "" := by
  unfold asked?
  split
  · next s hs =>
    rw [hs]
    split
    · next hempty =>
      subst hempty
      constructor
      · intro h
        cases h
      · rintro ⟨⟨⟩, h⟩
        exact absurd rfl h
    · next hne => exact ⟨by rintro ⟨⟩; exact ⟨rfl, hne⟩, by rintro ⟨⟨⟩, -⟩; rfl⟩
  · next hother =>
    constructor
    · intro h
      cases h
    · exact fun h => absurd h.1 (hother source)

theorem expressionOf_ok_iff : expressionOf w = .ok source ↔ asked? w = some source := by
  rw [asked?_eq_some_iff]
  cases w with
  | object members =>
    rw [expressionOf, Checked.field_ok_iff]
    simp only [checkExpression_ok_iff]
    constructor
    · rintro ⟨_, h, rfl, hne⟩
      exact ⟨h, hne⟩
    · rintro ⟨h, hne⟩
      exact ⟨_, h, rfl, hne⟩
  | _ =>
    constructor
    · intro h
      cases h
    · rintro ⟨⟨⟩, -⟩

theorem faultOf_unreadable_iff {text : String} {f : Json.Fault} :
    faultOf text f = .unreadable ↔ f.problem.OfLimit := by
  unfold faultOf Json.Problem.OfLimit
  cases f.problem <;> simp

theorem jsonBody_unreadable_iff :
    jsonBody v.limits v.request.body = .error .unreadable ↔ ¬ v.Readable := by
  unfold jsonBody Visit.Readable
  cases decodedBody? v.request.body with
  | none => simp
  | some text =>
    cases h : Json.ofTextWithin v.limits (unmarked text) with
    | ok w => simp [h, Except.mapError]
    | error f => simp [h, Except.mapError, faultOf_unreadable_iff]

theorem readable_text (h : w.Distinct) (hr : v.request.body = w.text) :
    (v.Readable ↔ w.Within v.limits) ∧ (v.Readable → v.asked? = Web.asked? w) := by
  have hread : w.Within v.limits → jsonBody v.limits v.request.body = .ok w := by
    intro hw
    rw [hr]
    exact jsonBody_text h hw
  have hreadable : v.Readable ↔ w.Within v.limits := by
    constructor
    · intro hreadable
      by_contra hw
      obtain ⟨f, hf, hlimit⟩ := Json.ofTextWithin_error h hw
      obtain ⟨text, htext, hno⟩ := hreadable
      rw [hr, decodedBody?_visible w.visible_text] at htext
      cases htext
      rw [unmarked_visible w.visible_text] at hno
      exact hno f hf hlimit
    · intro hw
      by_contra hreadable
      have hbody := jsonBody_unreadable_iff.mpr hreadable
      rw [hread hw] at hbody
      cases hbody
  refine ⟨hreadable, fun h => ?_⟩
  rw [Visit.asked?, hread (hreadable.mp h)]
  rfl

theorem jsonBody_empty (limits : Json.Limits) :
    ∃ is, jsonBody limits "" = .error (.issues is) := by
  have hvisible : ∀ c ∈ "".toList, Visible c := by simp
  have hvalue : Json.value limits (Json.skipWhite "".toList) = .error ⟨.expectedValue, 0⟩ := by
    change Json.value limits [] = _
    rw [Json.value]
    rfl
  rw [jsonBody, decodedBody?_visible hvisible]
  dsimp only
  rw [unmarked_visible hvisible, Json.ofTextWithin, hvalue]
  exact ⟨_, rfl⟩

theorem requestedExpression_cases (hjson : v.request.contentType.map isJson = some true) :
    (¬ v.Readable ∧ requestedExpression v.limits v.request = .error .unreadable) ∨
    (v.Readable ∧ v.asked? = none ∧
      ∃ is, requestedExpression v.limits v.request = .error (.issues is)) ∨
    ∃ source, v.Readable ∧ v.asked? = some source ∧
      requestedExpression v.limits v.request = .ok source := by
  have hreadable : ∀ {x}, jsonBody v.limits v.request.body = x → x ≠ .error .unreadable →
      v.Readable := by
    intro x hx hne
    by_contra hr
    exact hne (hx.symm.trans (jsonBody_unreadable_iff.mpr hr))
  rw [requestedExpression, bodyValue, hjson, Visit.asked?]
  by_cases hempty : v.request.body.isEmpty = true
  · obtain ⟨is, hbody⟩ := jsonBody_empty v.limits
    rw [← String.isEmpty_iff.mp hempty] at hbody
    have hr := hreadable hbody (by simp)
    rw [if_pos hempty, hbody]
    exact .inr (.inl ⟨hr, rfl, _, rfl⟩)
  · rw [if_neg hempty]
    cases hb : jsonBody v.limits v.request.body with
    | error f =>
      cases f with
      | unreadable => exact .inl ⟨jsonBody_unreadable_iff.mp hb, rfl⟩
      | issues is => exact .inr (.inl ⟨hreadable hb (by simp), rfl, _, rfl⟩)
    | ok w =>
      have hr := hreadable hb (by simp)
      cases he : expressionOf w with
      | error is =>
        have hasked : Web.asked? w = none := Option.eq_none_iff_forall_ne_some.mpr fun source h => by
          rw [expressionOf_ok_iff.mpr h] at he
          cases he
        refine .inr (.inl ⟨hr, hasked, is.map (·.within "body"), ?_⟩)
        simp [Except.bind, Except.mapError, he, BodyFault.within]
      | ok source =>
        refine .inr (.inr ⟨source, hr, expressionOf_ok_iff.mp he, ?_⟩)
        simp [Except.bind, Except.mapError, he]

end Body

namespace App

variable {a : App} {v : Visit} {source : String} {e : Expression} {x : Binary64}

theorem respond_body (hv : v.request.isCalculation = true) {f : BodyFault}
    (h : requestedExpression v.limits v.request = .error f) : a.respond v = bodyResponse f := by
  rw [respond, handle_calculation hv]
  simp only [calculate, h]

theorem respond_source (hv : v.request.isCalculation = true)
    (h : requestedExpression v.limits v.request = .ok source) :
    a.respond v = calculationResponse (a.service.calculate v.id v.now source).answer := by
  rw [respond, handle_calculation hv]
  simp only [calculate, h]

theorem respond_refused (hv : v.request.isCalculation = true)
    (h : requestedExpression v.limits v.request = .ok source) {f : Failure}
    (hf : a.service.evaluate source = .error f) : a.respond v = failureResponse f := by
  rw [respond_source hv h, Service.calculate, hf]
  rfl

theorem respond_invalid (hv : v.request.isCalculation = true)
    (h : requestedExpression v.limits v.request = .ok source)
    (hlen : source.length ≤ a.service.maxLength) {i : Invalid}
    (hi : ofText a.service.maxDepth source = .error (.invalid i)) :
    a.respond v = invalidResponse i := by
  have hevaluate : a.service.evaluate source = .error (.invalid i) := by
    rw [Service.evaluate, if_neg (Int.not_lt.mpr hlen), evaluated, hi]
    rfl
  exact respond_refused hv h hevaluate

theorem status_of_value (hv : v.request.isCalculation = true)
    (h : requestedExpression v.limits v.request = .ok source)
    (he : a.service.evaluate source = .ok (e, x)) {status : Nat} {kind : String}
    (his : (a.respond v).Is status kind) : status ∈ [200, 500] := by
  rw [← his.status_eq, respond_source hv h]
  rcases a.service.calculate_cases v.id v.now source with
    ⟨f, hf, -⟩ | ⟨_, _, f, -, -, hstep⟩ | ⟨_, _, store, -, -, hstep⟩
  · rw [hf] at he
    cases he
  · rw [hstep]
    exact List.mem_cons_of_mem 200 List.mem_cons_self
  · rw [hstep]
    exact List.mem_cons_self

theorem respond_item (hv : v.request.isCalculation = true)
    (h : requestedExpression v.limits v.request = .ok source)
    (he : a.service.evaluate source = .ok (e, x)) (hx : x.isFinite = true)
    (hliterals : ∀ y ∈ e.literals, y.isFinite = true) (hid : v.id ∉ a.service.store.ids) :
    a.respond v = ⟨200, .json (.object [("id", .string v.id), ("expression", .string source),
      ("computation", e.json), ("result", .float x),
      ("created_at", .string v.now.zuluText)])⟩ := by
  have hnan : x ≠ .nan := by
    rintro rfl
    cases hx
  obtain ⟨store, hsave⟩ : ∃ store, a.service.store.save (Service.item v.id v.now source e x) =
      .ok store := Store.save_new hid (.inr hnan)
  have hfinite : (Service.item v.id v.now source e x).Finite :=
    ⟨Expression.finite_json hliterals, hx⟩
  rw [respond_source hv h, Service.calculate, he]
  simp only [hsave, calculationResponse, hfinite.publicJson]
  rfl

theorem respond_cases (hv : v.request.isCalculation = true)
    (h : requestedExpression v.limits v.request = .ok source) :
    (a.service.maxLength < source.length ∧
      a.respond v = invalidResponse (.tooLong a.service.maxLength)) ∨
    (source.length ≤ a.service.maxLength ∧
      ∃ i, ofText a.service.maxDepth source = .error (.invalid i) ∧
        a.respond v = invalidResponse i) ∨
    (source.length ≤ a.service.maxLength ∧
      ∃ e d, ofText a.service.maxDepth source = .ok e ∧ e.evaluate = .error d ∧
        a.respond v = failureResponse (.divisionByZero d)) ∨
    (source.length ≤ a.service.maxLength ∧
      ∃ e x, ofText a.service.maxDepth source = .ok e ∧ e.evaluate = .ok x ∧
        a.service.evaluate source = .ok (e, x)) := by
  by_cases hlen : a.service.maxLength < source.length
  · exact .inl ⟨hlen, respond_refused hv h (if_pos hlen)⟩
  have hevaluate : a.service.evaluate source = evaluated a.service.maxDepth source := if_neg hlen
  have hlen := Int.not_lt.mp hlen
  cases htext : ofText a.service.maxDepth source with
  | error f =>
    obtain ⟨i, rfl, -⟩ := ofText_blames htext
    exact .inr (.inl ⟨hlen, i, rfl, respond_invalid hv h hlen htext⟩)
  | ok e =>
    rw [evaluated, htext, ok_bind] at hevaluate
    cases hx : e.evaluate with
    | error d =>
      rw [hx] at hevaluate
      exact .inr (.inr (.inl ⟨hlen, e, d, rfl, hx, respond_refused hv h hevaluate⟩))
    | ok x =>
      rw [hx] at hevaluate
      exact .inr (.inr (.inr ⟨hlen, e, x, rfl, hx, hevaluate⟩))

theorem invalid_iff (hv : v.request.isCalculation = true)
    (h : requestedExpression v.limits v.request = .ok source) :
    (a.respond v).Is 400 "invalid_expression" ↔
      a.service.maxLength < source.length ∨ ∃ f, ofText a.service.maxDepth source = .error f := by
  rcases respond_cases (a := a) hv h with ⟨hlen, hr⟩ | ⟨hlen, i, htext, hr⟩ |
    ⟨hlen, e, d, htext, hd, hr⟩ | ⟨hlen, e, x, htext, hx, he⟩
  · rw [hr]
    exact iff_of_true Response.failure_is (.inl hlen)
  · rw [hr]
    exact iff_of_true Response.failure_is (.inr ⟨_, htext⟩)
  · rw [hr, htext]
    refine iff_of_false (fun h => absurd (Response.failure_is_iff.mp h).1 (by decide)) ?_
    rintro (hlong | ⟨f, ⟨⟩⟩)
    omega
  · rw [htext]
    refine iff_of_false (fun his => absurd (status_of_value hv h he his) (by decide)) ?_
    rintro (hlong | ⟨f, ⟨⟩⟩)
    omega

theorem divisionByZero_iff (hv : v.request.isCalculation = true)
    (h : requestedExpression v.limits v.request = .ok source)
    (hlen : source.length ≤ a.service.maxLength)
    (htree : ofText a.service.maxDepth source = .ok e) :
    (a.respond v).Is 422 "division_by_zero" ↔ ∃ d, e.evaluate = .error d := by
  rcases respond_cases (a := a) hv h with ⟨hlong, -⟩ | ⟨-, i, htext, -⟩ |
    ⟨-, e', d, htext, hd, hr⟩ | ⟨-, e', x, htext, hx, he⟩
  · omega
  · rw [htext] at htree
    cases htree
  · rw [htext] at htree
    cases htree
    rw [hr]
    exact iff_of_true Response.failure_is ⟨d, hd⟩
  · rw [htext] at htree
    cases htree
    rw [hx]
    exact iff_of_false (fun his => absurd (status_of_value hv h he his) (by decide)) (by simp)

theorem not_validation (hv : v.request.isCalculation = true)
    (h : requestedExpression v.limits v.request = .ok source) :
    ¬ (a.respond v).Is 400 "validation_error" := by
  intro hkind
  rcases respond_cases (a := a) hv h with ⟨-, hr⟩ | ⟨-, i, -, hr⟩ | ⟨-, e, d, -, -, hr⟩ |
    ⟨-, e, x, -, -, he⟩
  · rw [hr] at hkind
    exact absurd (Response.failure_is_iff.mp hkind).2 (by decide)
  · rw [hr] at hkind
    exact absurd (Response.failure_is_iff.mp hkind).2 (by decide)
  · rw [hr] at hkind
    exact absurd (Response.failure_is_iff.mp hkind).1 (by decide)
  · exact absurd (status_of_value hv h he hkind) (by decide)

theorem respond_unreadable (hv : v.request.isCalculation = true)
    (hjson : v.request.contentType.map isJson = some true) (hr : ¬ v.Readable) :
    a.respond v = .detail 400 "There was an error parsing the body" [] := by
  rcases requestedExpression_cases hjson with ⟨-, h⟩ | ⟨hread, -⟩ | ⟨_, hread, -⟩
  · exact respond_body hv h
  · exact absurd hread hr
  · exact absurd hread hr

/-- A calculation that is sent as JSON is answered by the first of these that holds. The body cannot
be read; it asks for no expression; the expression is too long; it is no expression within the depth,
for the reason and at the place that are given; it divides by zero; it has a value, and where all
numbers are finite the answer is the item. -/
theorem calculation_answered (hv : v.request.isCalculation = true)
    (hjson : v.request.contentType.map isJson = some true) :
    (∀ w : Json, w.Distinct → v.request.body = w.text →
      (v.Readable ↔ w.Within v.limits) ∧ (v.Readable → v.asked? = asked? w)) ∧
    (¬ v.Readable → (a.respond v).status = 400) ∧
    (v.Readable → ((a.respond v).Is 400 "validation_error" ↔ v.asked? = none)) ∧
    ∀ source, v.Readable → v.asked? = some source →
      let limit := a.service.maxLength
      let tree := ofText a.service.maxDepth source
      ((a.respond v).Is 400 "invalid_expression" ↔
        limit < source.length ∨ ∃ f, tree = .error f) ∧
      (limit < source.length → a.respond v =
        .failure 400 (Invalid.tooLong limit).message "invalid_expression"
          [("position", .int limit)]) ∧
      (source.length ≤ limit →
        (∀ f, tree = .error f → ∃ i, f = .invalid i ∧ a.respond v =
          .failure 400 i.message "invalid_expression" [("position", .int i.position)]) ∧
        ∀ e, tree = .ok e →
          ((a.respond v).Is 422 "division_by_zero" ↔ ∃ d, e.evaluate = .error d) ∧
          ∀ x, e.evaluate = .ok x → x.isFinite = true → (∀ y ∈ e.literals, y.isFinite = true) →
            v.id ∉ a.service.store.ids →
            a.respond v = ⟨200, .json (.object [("id", .string v.id),
              ("expression", .string source), ("computation", e.json), ("result", .float x),
              ("created_at", .string v.now.zuluText)])⟩) := by
  refine ⟨fun w hw hbody => readable_text hw hbody, fun hr => ?_, fun hr => ?_, ?_⟩
  · rw [respond_unreadable hv hjson hr]
    rfl
  · rcases requestedExpression_cases hjson with ⟨hread, -⟩ | ⟨-, hnone, is, h⟩ | ⟨_, -, hsome, h⟩
    · exact absurd hr hread
    · rw [respond_body hv h]
      exact iff_of_true Response.failure_is hnone
    · rw [hsome]
      exact iff_of_false (not_validation hv h) nofun
  · intro source hr hasked limit tree
    obtain h : requestedExpression v.limits v.request = .ok source := by
      rcases requestedExpression_cases hjson with ⟨hread, -⟩ | ⟨-, hnone, -⟩ | ⟨_, -, hsome, h⟩
      · exact absurd hr hread
      · rw [hnone] at hasked
        cases hasked
      · rw [hsome] at hasked
        cases hasked
        exact h
    refine ⟨invalid_iff hv h, fun hlen => respond_refused hv h (if_pos hlen), fun hlen => ⟨?_, ?_⟩⟩
    · intro f hf
      obtain ⟨i, rfl, -⟩ := ofText_blames hf
      exact ⟨i, rfl, respond_invalid hv h hlen hf⟩
    · intro e he
      refine ⟨divisionByZero_iff hv h hlen he, fun x hx hfinite hliterals hid => ?_⟩
      have hevaluated : evaluated a.service.maxDepth source = .ok (e, x) := by
        have htext : ofText a.service.maxDepth source = .ok e := he
        rw [evaluated, htext, ok_bind, hx]
      exact respond_item hv h (Service.evaluate_within hlen hevaluated) hfinite hliterals hid

def sending (w : Json) : Visit :=
  ⟨usualLimits, "b", Service.noon,
    ⟨"POST", "/calculator", some "application/json", w.text⟩⟩

theorem sending_isCalculation (w : Json) : (sending w).request.isCalculation = true :=
  show Request.isCalculation ⟨"POST", "/calculator", none, ""⟩ = true by decide +kernel

theorem sending_isJson (w : Json) : (sending w).request.contentType.map isJson = some true :=
  show (some "application/json").map isJson = some true by decide +kernel

/-- The expression may stand among other members, and half of a surrogate pair in one of those. -/
def negativeZero : Json :=
  .object [("a", .array [.null, .unpaired]), ("expression", .string "-0")]

theorem negativeZero_answered :
    (sending negativeZero).request.isCalculation = true ∧
    (sending negativeZero).request.contentType.map isJson = some true ∧
    (sending negativeZero).Readable ∧
    (sending negativeZero).asked? = some "-0" ∧
    (App.mk true Service.begun).respond (sending negativeZero) =
      ⟨200, .json (.object [("id", .string "b"), ("expression", .string "-0"),
        ("computation", (Expression.negation (.number (.zero false))).json),
        ("result", .float (.zero true)), ("created_at", .string Service.noon.zuluText)])⟩ := by
  have hdistinct : negativeZero.Distinct :=
    .object (by simp) (List.forall_mem_cons.mpr
      ⟨.array (List.forall_mem_cons.mpr ⟨.null, List.forall_mem_singleton.mpr .unpaired⟩),
        List.forall_mem_singleton.mpr (.string "-0")⟩)
  have hwithin : negativeZero.Within usualLimits :=
    .object rfl (List.forall_mem_cons.mpr
      ⟨.array rfl (List.forall_mem_cons.mpr ⟨.null _, List.forall_mem_singleton.mpr (.unpaired _)⟩),
        List.forall_mem_singleton.mpr (.string _ "-0")⟩)
  obtain ⟨hbody, -, -, hsource⟩ := calculation_answered (a := ⟨true, Service.begun⟩)
    (sending_isCalculation negativeZero) (sending_isJson negativeZero)
  obtain ⟨hreadable, hasked⟩ := hbody negativeZero hdistinct rfl
  have hr := hreadable.mpr hwithin
  have hasked : (sending negativeZero).asked? = some "-0" := hasked hr
  obtain ⟨htree, hx⟩ := evaluated_ok Service.evaluated_negativeZero
  obtain ⟨-, -, hshort⟩ := hsource "-0" hr hasked
  have hid : "b" ∉ Service.begun.store.ids := by decide +kernel
  exact ⟨sending_isCalculation _, sending_isJson _, hr, hasked,
    ((hshort (by decide)).2 _ htree).2 _ hx rfl (by decide) hid⟩

def manyDigits : Json :=
  .object [("expression", .string "1"), ("a", .int (10 ^ maxDigits))]

theorem manyDigits_refused :
    (sending manyDigits).request.isCalculation = true ∧
    (sending manyDigits).request.contentType.map isJson = some true ∧
    asked? manyDigits = some "1" ∧
    (∃ e x, evaluated (some 100) "1" = .ok (e, x) ∧ x.isFinite = true) ∧
    (fresh true 1000 (some 100)).respond (sending manyDigits) =
      .detail 400 "There was an error parsing the body" [] := by
  have hdistinct : manyDigits.Distinct :=
    .object (by simp) (List.forall_mem_cons.mpr
      ⟨.string "1", List.forall_mem_singleton.mpr (.int _)⟩)
  have hwithin : ¬ manyDigits.Within usualLimits := by
    intro h
    cases h with
    | object hl h =>
      cases hl
      cases h _ (List.mem_cons_of_mem _ List.mem_cons_self) with
      | int hadmits =>
        have hlen : ∀ k : Nat, k < (digits (10 ^ k : Int).natAbs).length :=
          fun k => lt_length_digits (Int.natAbs_pow 10 k).ge
        exact absurd (of_decide_eq_true hadmits) (Nat.not_le.mpr (hlen maxDigits))
  have hone : evaluated (some 100) "1" = .ok (.number (.ofInt 1), .ofInt 1) := by
    let d : Sentence := .single (.single (.number ⟨.number, "1", 0⟩ rfl))
    have hscan : Token.scan "1" = .ok (d.tokens ++ [⟨.eof, "", 1⟩]) :=
      ok_of_toOption (by decide +kernel)
    have htree : d.tree = .ok (.number (.ofInt 1)) := ok_of_toOption (by decide +kernel)
    exact evaluated_of_scan hscan htree (fits_some.mpr (by decide)) (fits_some.mpr (by decide)) rfl
  have hr : ¬ (sending manyDigits).Readable :=
    fun hr => hwithin ((readable_text hdistinct rfl).1.mp hr)
  exact ⟨sending_isCalculation _, sending_isJson _, rfl, ⟨_, _, hone, by decide +kernel⟩,
    respond_unreadable (sending_isCalculation _) (sending_isJson _) hr⟩

end App
end Reckoner.Web
