import Mathlib.Algebra.Group.Int.Defs
import Reckoner.History.Store
import Reckoner.Proofs.Json.RoundTrip
import Reckoner.Proofs.Timestamp.RoundTrip

/-!
A database gives the same history as memory, whenever it is opened again. Of a result only the sign
of a zero is lost, and of a time only an offset of less than a second.
-/

namespace Reckoner

namespace Item

def unsignedZero (i : Item) : Item :=
  { i with result := if i.result = .zero true then .zero false else i.result }

/-- The item as a table gives it back: the zeros are one, and the time is read from its text. -/
def readBack (i : Item) : Item :=
  { i.unsignedZero with createdAt := i.createdAt.readBack }

/-- No object in the computation has a name twice, as members are kept by their names. -/
def Distinct (i : Item) : Prop :=
  (Json.object i.computation).Distinct

end Item

namespace Row

theorem column_eq (x : Binary64) : column x = if x = .zero true then .zero false else x := by
  cases x with
  | infinite s => rfl
  | nan => rfl
  | finite s code =>
    by_cases hc : code = ⟨0, by decide⟩
    · rw [hc]
      cases s <;> rfl
    · have hzero : Binary64.isZero (.finite s code) = false :=
        beq_false_of_ne fun h => hc (Fin.ext h)
      have hne : Binary64.finite s code ≠ .zero true := by
        intro h
        injection h with _ h
        exact hc h
      rw [column, hzero, if_neg hne]
      rfl

theorem item_ofItem {i : Item} (h : i.Distinct) : (ofItem i).item = .ok i.readBack := by
  have hc := Json.ofText_text h
  simp only [item, ofItem, hc, i.createdAt.ofText_text, column_eq]
  rfl

theorem mapM_item {items : List Item} (h : ∀ i ∈ items, i.Distinct) :
    (items.map ofItem).mapM item = .ok (items.map Item.readBack) := by
  induction items with
  | nil => rfl
  | cons i is ih =>
    rw [List.forall_mem_cons] at h
    rw [List.map_cons, List.mapM_cons, item_ofItem h.1, ih h.2]
    rfl

end Row

namespace Store

section Pages

variable {α β : Type} {take skip : Int}

theorem page_map (f : α → β) (take skip : Int) (items : List α) :
    page take skip (items.map f) = (page take skip items).map f := by
  unfold page
  split <;> simp only [List.map_drop, List.map_take]

theorem mem_of_mem_page {a : α} {items : List α} (h : a ∈ page take skip items) : a ∈ items := by
  unfold page at h
  split at h
  · exact List.mem_of_mem_drop h
  · exact List.mem_of_mem_drop (List.mem_of_mem_take h)

theorem slice_eq_page (ht : 0 ≤ take) (hs : 0 ≤ skip) (items : List α) :
    slice skip (skip + take) items = page take skip items := by
  have hplace : ∀ k : Int, 0 ≤ k → place items.length k = min k.toNat items.length := by
    intro k hk
    exact if_neg (by omega)
  have hsum : (skip + take).toNat = skip.toNat + take.toNat := Int.toNat_add hs ht
  rw [slice, page, if_neg (by omega), hplace skip hs, hplace (skip + take) (by omega), hsum]
  by_cases hlen : skip.toNat ≤ items.length
  · rw [Nat.min_eq_left hlen, List.take_eq_take_iff, List.length_drop]
    omega
  · have hmin : min skip.toNat items.length = items.length := Nat.min_eq_right (by omega)
    rw [hmin, List.drop_eq_nil_of_le (Nat.le_refl _), List.drop_eq_nil_of_le (by omega)]
    simp

end Pages

/-! Sequences of operations. -/

inductive Operation where
  | save (item : Item)
  | find (take skip : Int)
  | count
  | clear
  | reopen

inductive Answer where
  | done
  | items (items : List Item)
  | number (n : Nat)

namespace Operation

def answer? (s : Store) : Operation → Option (Except StoreFault Answer)
  | save i => some ((s.save i).map fun _ => .done)
  | find take skip => some ((s.find take skip).map .items)
  | count => some (.ok (.number s.count))
  | clear => some (.ok .done)
  | reopen => none

/-- An item that is refused leaves the store as it is. -/
def after (s : Store) : Operation → Store
  | save i => (s.save i).toOption.getD s
  | clear => s.clear
  | reopen => s.reopen
  | find _ _ | count => s

def isReopen : Operation → Bool
  | reopen => true
  | _ => false

def recorded (stored : List Item) : Operation → List Item
  | save i => stored ++ [i]
  | clear => []
  | _ => stored

/-- The result of a new item is a number and its id is the id of no stored one. Bounds of a page are
not negative and have 64 bits. -/
def Allowed (stored : List Item) : Operation → Prop
  | save i => i.result ≠ .nan ∧ (∀ j ∈ stored, j.id ≠ i.id) ∧ i.Distinct
  | find take skip => (0 ≤ take ∧ take < 2 ^ 63) ∧ 0 ≤ skip ∧ skip < 2 ^ 63
  | _ => True

end Operation

def answers (s : Store) : List Operation → List (Except StoreFault Answer)
  | [] => []
  | op :: ops => (op.answer? s).toList ++ answers (op.after s) ops

def Admissible (stored : List Item) : List Operation → Prop
  | [] => True
  | op :: ops => op.Allowed stored ∧ Admissible (op.recorded stored) ops

def Answer.readBack : Answer → Answer
  | .items is => .items (is.map Item.readBack)
  | a => a

def tableOf (stored : List Item) : Store :=
  .database (stored.map Row.ofItem)

section Step

variable {stored : List Item} {op : Operation}

theorem save_tableOf {i : Item} (h : (Operation.save i).Allowed stored) :
    (tableOf stored).save i = .ok (tableOf (stored ++ [i])) := by
  obtain ⟨hnan, hnew, _⟩ := h
  have hany : (stored.map Row.ofItem).any (·.id == i.id) = false := by
    simpa [Row.ofItem] using hnew
  rw [tableOf, save, if_neg hnan, hany]
  simp [tableOf]

theorem find_tableOf {take skip : Int} (hs : ∀ i ∈ stored, i.Distinct)
    (h : (Operation.find take skip).Allowed stored) :
    (tableOf stored).find take skip =
      .ok ((slice skip (skip + take) stored).map Item.readBack) := by
  obtain ⟨⟨ht, ht'⟩, hk, hk'⟩ := h
  have hfits : (fits take && fits skip) = true := by
    simp [fits]
    omega
  rw [tableOf, find, if_pos hfits, page_map, slice_eq_page ht hk,
    Row.mapM_item fun i hi => hs i (mem_of_mem_page hi)]

theorem recorded_distinct (hs : ∀ i ∈ stored, i.Distinct) (h : op.Allowed stored) :
    ∀ i ∈ op.recorded stored, i.Distinct := by
  cases op with
  | save i =>
    intro j hj
    cases List.mem_append.mp hj with
    | inl hj => exact hs j hj
    | inr hj =>
      rw [List.mem_singleton.mp hj]
      exact h.2.2
  | clear => exact fun i hi => nomatch hi
  | find take skip => exact hs
  | count => exact hs
  | reopen => exact hs

theorem after_tableOf (h : op.Allowed stored) :
    op.after (tableOf stored) = tableOf (op.recorded stored) := by
  cases op with
  | save i =>
    rw [Operation.after, save_tableOf h]
    rfl
  | clear => rfl
  | find take skip => rfl
  | count => rfl
  | reopen => rfl

theorem after_memory (h : op.isReopen = false) :
    op.after (.memory stored) = .memory (op.recorded stored) := by
  cases op with
  | reopen => cases h
  | _ => rfl

theorem answer?_tableOf (hs : ∀ i ∈ stored, i.Distinct) (h : op.Allowed stored)
    (hr : op.isReopen = false) :
    ∃ a, op.answer? (.memory stored) = some (.ok a) ∧
      op.answer? (tableOf stored) = some (.ok a.readBack) := by
  cases op with
  | save i =>
    refine ⟨.done, rfl, ?_⟩
    rw [Operation.answer?, save_tableOf h]
    rfl
  | find take skip =>
    refine ⟨.items (slice skip (skip + take) stored), rfl, ?_⟩
    rw [Operation.answer?, find_tableOf hs h]
    rfl
  | count =>
    refine ⟨.number stored.length, rfl, ?_⟩
    rw [Operation.answer?, tableOf, count, List.length_map]
    rfl
  | clear => exact ⟨.done, rfl, rfl⟩
  | reopen => cases hr

end Step

theorem answers_tableOf {ops : List Operation} {stored : List Item}
    (hs : ∀ i ∈ stored, i.Distinct) (h : Admissible stored ops) :
    ∃ as : List Answer,
      answers (.memory stored) (ops.filter (!·.isReopen)) = as.map .ok ∧
        answers (tableOf stored) ops = as.map fun a => .ok a.readBack := by
  induction ops generalizing stored with
  | nil => exact ⟨[], rfl, rfl⟩
  | cons op ops ih =>
    obtain ⟨hop, hops⟩ := h
    obtain ⟨as, hmemory, htable⟩ := ih (recorded_distinct hs hop) hops
    cases hr : op.isReopen with
    -- Opening a table again gives no answer and leaves the rows, so the rest of the run decides.
    | true =>
      cases op with
      | reopen => exact ⟨as, hmemory, htable⟩
      | _ => cases hr
    | false =>
      obtain ⟨a, ha, hta⟩ := answer?_tableOf hs hop hr
      refine ⟨a :: as, ?_, ?_⟩
      · rw [List.filter_cons, hr]
        simp [answers, ha, after_memory hr, hmemory]
      · rw [answers, hta, after_tableOf hop, htable]
        rfl

/-- A database, opened again at any points, gives the answers that the memory gives without being
opened again, except that every zero in a result is the positive one and that an offset of less than
a second is zero. -/
theorem database_refines_memory (ops : List Operation) (h : Admissible [] ops) :
    ∃ as : List Answer,
      answers (empty .memory) (ops.filter (!·.isReopen)) = as.map .ok ∧
        answers (empty .database) ops = as.map fun a => .ok a.readBack :=
  answers_tableOf (fun _ hi => nomatch hi) h

def sample (id : String) (result : Binary64) : Item where
  id := id
  expression := "0 * -1"
  computation := [("values", .array [.float (.infinite true), .float .nan,
    .object [("text", .unpaired)]])]
  result := result
  createdAt := ⟨⟨2024, 1, 15, 10, 30, 45, 123456, some 3600000000⟩, by decide⟩

theorem sample_distinct (id : String) (result : Binary64) : (sample id result).Distinct := by
  refine .object (by simp [sample]) ?_
  intro m hm
  rw [List.mem_singleton.mp hm]
  refine .array fun v hv => ?_
  simp only [List.mem_cons, List.not_mem_nil, or_false] at hv
  rcases hv with rfl | rfl | rfl
  · exact .float _
  · exact .float _
  · refine .object (by simp) fun m hm => ?_
    rw [List.mem_singleton.mp hm]
    exact .unpaired

def mixedRun : List Operation :=
  [.save (sample "a" (.zero true)), .reopen, .save (sample "b" (.infinite false)), .find 10 1,
    .clear, .save (sample "a" (.zero true)), .reopen, .find 1 0, .count]

theorem mixedRun_refines :
    Admissible [] mixedRun ∧
      answers (empty .database) mixedRun =
        [.ok .done, .ok .done, .ok (.items [sample "b" (.infinite false)]), .ok .done, .ok .done,
          .ok (.items [sample "a" (.zero false)]), .ok (.number 1)] := by
  have hadmissible : Admissible [] mixedRun := by
    refine ⟨⟨?_, ?_, sample_distinct _ _⟩, trivial, ⟨?_, ?_, sample_distinct _ _⟩, ?_, trivial,
      ⟨?_, ?_, sample_distinct _ _⟩, trivial, ?_, trivial, trivial⟩ <;>
      simp [sample, Operation.recorded, Operation.Allowed, Binary64.zero]
  refine ⟨hadmissible, ?_⟩
  obtain ⟨as, hmemory, htable⟩ := database_refines_memory mixedRun hadmissible
  have hgiven : [.done, .done, .items [sample "b" (.infinite false)], .done, .done,
      .items [sample "a" (.zero true)], .number 1] = as := by
    exact (List.map_inj_right fun _ _ => Except.ok.inj).mp hmemory
  rw [htable, ← hgiven]
  rfl

/-- An item made where the clock is half a second ahead of universal time. -/
def halfAhead : Item :=
  { sample "a" (.infinite false) with
    createdAt := ⟨⟨2024, 1, 15, 10, 30, 45, 0, some 500000⟩, by decide⟩ }

/-- The memory gives the item as it was saved, and a database gives another time of it. -/
theorem halfAhead_lost :
    let ops : List Operation := [.save halfAhead, .find 10 0]
    Admissible [] ops ∧ answers (empty .memory) ops = [.ok .done, .ok (.items [halfAhead])] ∧
      ∃ i : Item, answers (empty .database) ops = [.ok .done, .ok (.items [i])] ∧
        i.createdAt ≠ halfAhead.createdAt := by
  intro ops
  have hdistinct : halfAhead.Distinct := sample_distinct "a" (.infinite false)
  have hstored : ∀ i ∈ ([] : List Item), i.Distinct := fun _ hi => nomatch hi
  have hadmissible : Admissible [] ops := by
    refine ⟨⟨by decide, ?_, hdistinct⟩, ?_, trivial⟩ <;> simp [Operation.Allowed]
  obtain ⟨as, hmemory, htable⟩ := answers_tableOf hstored hadmissible
  have hgiven : [.done, .items [halfAhead]] = as :=
    (List.map_inj_right fun _ _ => Except.ok.inj).mp hmemory
  rw [← hgiven] at htable
  exact ⟨hadmissible, rfl, _, htable, by decide⟩

end Store
end Reckoner
