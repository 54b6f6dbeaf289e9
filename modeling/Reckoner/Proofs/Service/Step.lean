import Reckoner.Proofs.Expression.Json
import Reckoner.Proofs.History.Holding
import Reckoner.Service

/-!
What a step of the service can do, and what a run of requests comes to. A calculation fails before
anything is saved, is refused by the store, or adds its item; there is no fourth case.
-/

namespace Reckoner

namespace Service

variable {s : Service} {id source : String} {now : Timestamp}

theorem item_distinct (id : String) (now : Timestamp) (source : String) (e : Expression)
    (x : Binary64) : (item id now source e x).Distinct :=
  e.distinct_members

theorem calculate_cases (s : Service) (id : String) (now : Timestamp) (source : String) :
    (∃ f, s.evaluate source = .error f ∧
      s.calculate id now source = ⟨.error (.failure f), s, rejections f⟩) ∨
    (∃ e x f, s.evaluate source = .ok (e, x) ∧
      s.store.save (item id now source e x) = .error f ∧
      s.calculate id now source = ⟨.error (.store f), s, []⟩) ∨
    ∃ e x store, s.evaluate source = .ok (e, x) ∧
      s.store.save (item id now source e x) = .ok store ∧
      s.calculate id now source =
        ⟨.ok (item id now source e x), { s with store }, [recorded (item id now source e x)]⟩ := by
  cases he : s.evaluate source with
  | error f => exact .inl ⟨f, rfl, by simp only [calculate, he]⟩
  | ok p =>
    obtain ⟨e, x⟩ := p
    cases hs : s.store.save (item id now source e x) with
    | error f => exact .inr (.inl ⟨e, x, f, rfl, hs, by simp only [calculate, he, hs]⟩)
    | ok store => exact .inr (.inr ⟨e, x, store, rfl, hs, by simp only [calculate, he, hs]⟩)

inductive Request where
  | calculate (id : String) (now : Timestamp) (source : String)
  | history (take skip : Int)
  | operation (op : Store.Operation)

namespace Request

/-- No object in the computation of an item that is given to be saved has a name twice. -/
def Proper : Request → Prop
  | operation (.save i) => i.Distinct
  | _ => True

def after (s : Service) : Request → Service
  | calculate id now source => (s.calculate id now source).after
  | history _ _ => s
  | operation op => { s with store := op.after s.store }

/-- The item that the request would store. -/
def item? (s : Service) : Request → Option Item
  | calculate id now source =>
    match s.evaluate source with
    | .ok (e, x) => some (item id now source e x)
    | .error _ => none
  | operation (.save i) => some i
  | _ => none

/-- The request succeeds in storing an item. -/
def adds (s : Service) : Request → Bool
  | calculate id now source => (s.calculate id now source).answer.isOk
  | operation (.save i) => (s.store.save i).isOk
  | _ => false

/-- The request leaves nothing stored. A store in memory is lost when it is opened again. -/
def empties (s : Service) : Request → Bool
  | operation .clear => true
  | operation .reopen => s.store.backend == .memory
  | _ => false

end Request

def fresh (b : Backend) (maxLength : Int) (maxDepth : Option Int) : Service :=
  ⟨.empty b, maxLength, maxDepth⟩

def performed (s : Service) (rs : List Request) : Service :=
  rs.foldl (fun s r => r.after s) s

def trace (s : Service) : List Request → List (Service × Request)
  | [] => []
  | r :: rs => (s, r) :: trace (r.after s) rs

theorem performed_concat (s : Service) (rs : List Request) (r : Request) :
    s.performed (rs ++ [r]) = r.after (s.performed rs) := by
  rw [performed, List.foldl_append]
  rfl

theorem trace_concat (s : Service) (rs : List Request) (r : Request) :
    s.trace (rs ++ [r]) = s.trace rs ++ [(s.performed rs, r)] := by
  induction rs generalizing s with
  | nil => rfl
  | cons q rs ih =>
    rw [List.cons_append, trace, ih]
    rfl

namespace Request

variable {r : Request} {i : Item}

/-- A request adds its item, leaves nothing stored, or changes nothing. -/
theorem after_cases (s : Service) (r : Request) :
    (∃ i store, r.item? s = some i ∧ s.store.save i = .ok store ∧
      r.after s = { s with store } ∧ r.adds s = true ∧ r.empties s = false) ∨
    (r.after s = { s with store := .empty s.store.backend } ∧ r.empties s = true) ∨
    (r.after s = s ∧ r.adds s = false ∧ r.empties s = false) := by
  cases r with
  | calculate id now source =>
    rcases calculate_cases s id now source with
      ⟨f, -, hstep⟩ | ⟨e, x, f, -, -, hstep⟩ | ⟨e, x, store, he, hs, hstep⟩
    · exact .inr (.inr ⟨by rw [after, hstep], by rw [adds, hstep]; rfl, rfl⟩)
    · exact .inr (.inr ⟨by rw [after, hstep], by rw [adds, hstep]; rfl, rfl⟩)
    · exact .inl ⟨_, store, by rw [item?, he], hs, by rw [after, hstep], by rw [adds, hstep]; rfl,
        rfl⟩
  | history take skip => exact .inr (.inr ⟨rfl, rfl, rfl⟩)
  | operation op =>
    cases op with
    | save i =>
      cases hs : s.store.save i with
      | error f =>
        exact .inr (.inr ⟨by rw [after, Store.Operation.after, hs]; rfl, by rw [adds, hs]; rfl, rfl⟩)
      | ok store =>
        exact .inl ⟨i, store, rfl, hs, by rw [after, Store.Operation.after, hs]; rfl,
          by rw [adds, hs]; rfl, rfl⟩
    | find take skip => exact .inr (.inr ⟨rfl, rfl, rfl⟩)
    | count => exact .inr (.inr ⟨rfl, rfl, rfl⟩)
    | clear => exact .inr (.inl ⟨rfl, rfl⟩)
    | reopen =>
      obtain ⟨store, maxLength, maxDepth⟩ := s
      cases store with
      | memory items => exact .inr (.inl ⟨rfl, rfl⟩)
      | database rows => exact .inr (.inr ⟨rfl, rfl, rfl⟩)

theorem after_kept (s : Service) (r : Request) :
    (r.after s).maxLength = s.maxLength ∧ (r.after s).maxDepth = s.maxDepth ∧
      (r.after s).store.backend = s.store.backend := by
  rcases after_cases s r with ⟨i, store, -, hs, hr, -⟩ | ⟨hr, -⟩ | ⟨hr, -⟩
  · rw [hr]
    exact ⟨rfl, rfl, (Store.save_ok hs).1⟩
  · rw [hr]
    cases s.store.backend <;> exact ⟨rfl, rfl, rfl⟩
  · rw [hr]
    exact ⟨rfl, rfl, rfl⟩

theorem item?_after (s : Service) (q r : Request) : r.item? (q.after s) = r.item? s := by
  obtain ⟨hlength, hdepth, -⟩ := q.after_kept s
  cases r with
  | calculate id now source => simp only [item?, Service.evaluate, hlength, hdepth]
  | history take skip => rfl
  | operation op => cases op <;> rfl

theorem distinct_of_item? (hr : r.Proper) (hi : r.item? s = some i) : i.Distinct := by
  cases r with
  | calculate id now source =>
    rw [item?] at hi
    split at hi
    · next e x _ =>
      cases hi
      exact item_distinct id now source e x
    · cases hi
  | history take skip => cases hi
  | operation op =>
    cases op with
    | save j =>
      cases hi
      exact hr
    | _ => cases hi

theorem after_holds {P : Item → Prop} (hr : r.Proper) (hP : ∀ i, r.item? s = some i → P i)
    (hs : ∃ items, s.store.Holds items ∧ ∀ i ∈ items, P i) :
    ∃ items, (r.after s).store.Holds items ∧ ∀ i ∈ items, P i := by
  obtain ⟨items, hitems, hall⟩ := hs
  rcases after_cases s r with ⟨i, store, hi, hs, hr', -⟩ | ⟨hr', -⟩ | ⟨hr', -⟩
  · refine ⟨items ++ [i], ?_, ?_⟩
    · rw [hr']
      exact hitems.save (distinct_of_item? hr hi) hs
    · rw [List.forall_mem_append, List.forall_mem_singleton]
      exact ⟨hall, hP i hi⟩
  · refine ⟨[], ?_, fun _ hi => nomatch hi⟩
    rw [hr']
    exact Store.holds_empty _
  · exact ⟨items, by rwa [hr'], hall⟩

end Request

theorem performed_kept (s : Service) (rs : List Request) :
    (s.performed rs).maxLength = s.maxLength ∧ (s.performed rs).maxDepth = s.maxDepth ∧
      (s.performed rs).store.backend = s.store.backend := by
  induction rs generalizing s with
  | nil => exact ⟨rfl, rfl, rfl⟩
  | cons r rs ih =>
    obtain ⟨hlength, hdepth, hbackend⟩ := r.after_kept s
    rw [performed, List.foldl_cons, ← performed, ← hlength, ← hdepth, ← hbackend]
    exact ih (r.after s)

theorem performed_holds {P : Item → Prop} {rs : List Request}
    (hrs : ∀ r ∈ rs, r.Proper ∧ ∀ i, r.item? s = some i → P i)
    (hs : ∃ items, s.store.Holds items ∧ ∀ i ∈ items, P i) :
    ∃ items, (s.performed rs).store.Holds items ∧ ∀ i ∈ items, P i := by
  -- The service that the run starts from varies, but not what the requests would store.
  induction rs generalizing s with
  | nil => exact hs
  | cons r rs ih =>
    obtain ⟨⟨hr, hP⟩, hrs⟩ := List.forall_mem_cons.mp hrs
    rw [performed, List.foldl_cons, ← performed]
    refine ih (fun q hq => ⟨(hrs q hq).1, ?_⟩) (r.after_holds hr hP hs)
    rw [Request.item?_after]
    exact (hrs q hq).2

theorem fresh_performed_backend (b : Backend) (maxLength : Int) (maxDepth : Option Int)
    (rs : List Request) : ((fresh b maxLength maxDepth).performed rs).store.backend = b := by
  rw [(performed_kept (fresh b maxLength maxDepth) rs).2.2]
  cases b <;> rfl

theorem fresh_holds (b : Backend) (maxLength : Int) (maxDepth : Option Int) (P : Item → Prop) :
    ∃ items, (fresh b maxLength maxDepth).store.Holds items ∧ ∀ i ∈ items, P i :=
  ⟨[], Store.holds_empty b, fun _ hi => nomatch hi⟩

/-- Requests lead from a new service to this one. -/
def Reachable (s : Service) : Prop :=
  ∃ b maxLength maxDepth rs, (∀ r ∈ rs, Request.Proper r) ∧
    s = (fresh b maxLength maxDepth).performed rs

theorem Reachable.holds (h : s.Reachable) : ∃ items, s.store.Holds items := by
  obtain ⟨b, maxLength, maxDepth, rs, hrs, rfl⟩ := h
  obtain ⟨items, hitems, -⟩ := performed_holds (P := fun _ => True)
    (fun r hr => ⟨hrs r hr, fun _ _ => trivial⟩) (fresh_holds b maxLength maxDepth _)
  exact ⟨items, hitems⟩

end Service
end Reckoner
