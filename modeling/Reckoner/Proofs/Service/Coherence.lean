import Reckoner.Proofs.Service.Outcome

/-!
The text, the tree and the result of every item in a history belong together, in memory and in a
database.
-/

namespace Reckoner
open Expression

theorem Expression.unlimited_of_ofText {limit : Option Int} {source : String} {e : Expression}
    (h : ofText limit source = .ok e) : ofText none source = .ok e ∧ Fits limit e.height := by
  obtain ⟨d, hscan, htree, hheight, -⟩ := ofText_iff_fits.mp h
  rw [← d.tree_height htree] at hheight
  exact ⟨ofText_iff.mpr ⟨d, hscan, htree⟩, hheight⟩

def Backend.keptResult : Backend → Binary64 → Binary64
  | .memory => id
  | .database => Row.column

/-- The item is one of the tree: its text is read as the tree and so is its computation, and its
result is the value of the tree. Text and tree are within the limits. -/
structure Item.Coherent (b : Backend) (maxLength : Int) (maxDepth : Option Int) (e : Expression)
    (i : Item) : Prop where
  length : i.expression.length ≤ maxLength
  expression : ofText none i.expression = .ok e
  computation : Expression.ofJson (.object i.computation) = .ok e
  height : Fits maxDepth e.height
  result : ∃ x, e.evaluate = .ok x ∧ i.result = b.keptResult x

theorem Item.Coherent.kept {maxLength : Int} {maxDepth : Option Int} {e : Expression} {i : Item}
    (h : i.Coherent .memory maxLength maxDepth e) (b : Backend) :
    (b.kept i).Coherent b maxLength maxDepth e := by
  cases b with
  | memory => exact h
  | database =>
    obtain ⟨x, hx, hresult⟩ := h.result
    have hcolumn : (Backend.database.kept i).result = Row.column i.result :=
      (Row.column_eq i.result).symm
    exact ⟨h.length, h.expression, h.computation, h.height, x, hx, by rw [hcolumn, hresult]; rfl⟩

namespace Service

variable {s : Service} {source : String} {e : Expression} {x : Binary64}

theorem evaluate_ok (h : s.evaluate source = .ok (e, x)) :
    source.length ≤ s.maxLength ∧ evaluated s.maxDepth source = .ok (e, x) := by
  rw [evaluate] at h
  split at h
  · cases h
  · next hlen => exact ⟨Int.not_lt.mp hlen, h⟩

theorem coherent_of_evaluate (id : String) (now : Timestamp) (h : s.evaluate source = .ok (e, x)) :
    (item id now source e x).Coherent .memory s.maxLength s.maxDepth e := by
  obtain ⟨hlen, h⟩ := evaluate_ok h
  obtain ⟨htext, hx⟩ := evaluated_ok h
  obtain ⟨hsource, hheight⟩ := unlimited_of_ofText htext
  exact ⟨hlen, hsource, e.ofJson_json, hheight, x, hx, rfl⟩

/-- Nothing is stored but by a calculation. -/
def Request.Calculates : Request → Prop
  | operation (.save _) => False
  | _ => True

theorem Request.Calculates.proper {r : Request} (hr : r.Calculates) : r.Proper := by
  cases r with
  | operation op =>
    cases op with
    | save i => exact hr.elim
    | _ => exact hr
  | _ => exact hr

theorem Request.Calculates.coherent {r : Request} (hr : r.Calculates) {i : Item}
    (hi : r.item? s = some i) : ∃ e, i.Coherent .memory s.maxLength s.maxDepth e := by
  cases r with
  | calculate id now source =>
    rw [item?] at hi
    split at hi
    · next e x h =>
      cases hi
      exact ⟨e, coherent_of_evaluate id now h⟩
    · cases hi
  | history take skip => cases hi
  | operation op =>
    cases op with
    | save j => exact hr.elim
    | _ => cases hi

/-- The items of a history that calculations have made are coherent, all of them and those on any
page. -/
theorem history_coherent (b : Backend) (maxLength : Int) (maxDepth : Option Int) {rs : List Request}
    (hrs : ∀ r ∈ rs, r.Calculates) :
    let s := (fresh b maxLength maxDepth).performed rs
    (∃ items, s.store.contents = .ok items ∧ items.length = s.store.count ∧
      ∀ i ∈ items, ∃ e, i.Coherent b maxLength maxDepth e) ∧
    ∀ take skip page, s.history take skip = .ok page →
      ∀ i ∈ page.items, ∃ e, i.Coherent b maxLength maxDepth e := by
  intro s
  have hb : s.store.backend = b := fresh_performed_backend b maxLength maxDepth rs
  -- The items are followed as they were given. A database changes a zero in their results and maybe
  -- their times, which coherence says nothing about.
  obtain ⟨items, hitems, hall⟩ := performed_holds
    (fun r hr => ⟨(hrs r hr).proper, fun i hi => (hrs r hr).coherent hi⟩)
    (fresh_holds b maxLength maxDepth fun i => ∃ e, i.Coherent .memory maxLength maxDepth e)
  have hkept : ∀ i ∈ items, ∃ e, (b.kept i).Coherent b maxLength maxDepth e := by
    intro i hi
    obtain ⟨e, he⟩ := hall i hi
    exact ⟨e, he.kept b⟩
  have hcontents := hitems.contents
  rw [hb] at hcontents
  refine ⟨⟨_, hcontents, ?_, List.forall_mem_map.mpr hkept⟩, ?_⟩
  · rw [List.length_map, hitems.count]
  · intro take skip page hpage j hj
    obtain ⟨listed, hfind, hpage⟩ := bind_eq_ok hpage
    cases hpage
    obtain ⟨i, hi, rfl⟩ := hitems.of_find hfind j hj
    rw [hb]
    exact hkept i hi

def reopened : List Request :=
  [.calculate "a" noon "-0", .operation .reopen, .operation .count]

theorem reopened_coherent :
    (∀ r ∈ reopened, r.Calculates) ∧
    let s := (fresh .database 1000 (some 100)).performed reopened
    ∃ i, s.store.contents = .ok [i] ∧ s.history 20 0 = .ok ⟨[i], 20, 0⟩ ∧
      ∃ e, i.Coherent .database 1000 (some 100) e := by
  have hcalculates : ∀ r ∈ reopened, r.Calculates := by
    simp [reopened, Request.Calculates]
  refine ⟨hcalculates, ?_⟩
  intro s
  obtain ⟨⟨items, hitems, hlen, -⟩, hpages⟩ :=
    history_coherent .database 1000 (some 100) hcalculates
  have he : (fresh .database 1000 (some 100)).evaluate "-0" =
      .ok (.negation (.number (.zero false)), .zero true) :=
    evaluate_within (by decide) evaluated_negativeZero
  obtain ⟨row, hrow⟩ : ∃ row, (Request.calculate "a" noon "-0").after
      (fresh .database 1000 (some 100)) = ⟨.database [row], 1000, some 100⟩ := by
    rw [Request.after, calculate, he]
    exact ⟨_, rfl⟩
  have hs : s = ⟨.database [row], 1000, some 100⟩ :=
    congrArg (performed · [.operation .reopen, .operation .count]) hrow
  have hcount : s.store.count = 1 := by
    rw [hs]
    rfl
  obtain ⟨i, rfl⟩ := List.length_eq_one_iff.mp (hlen.trans hcount)
  have hpage : s.history 20 0 = .ok ⟨[i], 20, 0⟩ := by
    rw [history, Store.find_all hitems (by rw [hcount]; decide) (by decide)]
    rfl
  exact ⟨i, hitems, hpage, hpages 20 0 _ hpage i List.mem_cons_self⟩

end Service
end Reckoner
