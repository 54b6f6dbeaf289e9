import Reckoner.Proofs.Service.Recording

/-!
Reading a history page by page while it grows. The client asks for the items behind those it has
received; what it has received is the start of the history at every moment, and a page that is not
full ends with the newest item.
-/

namespace Reckoner

namespace Service

variable {s : Service} {r : Request} {items : List Item}

theorem history_of_contents {take skip : Int} (h : s.store.contents = .ok items) (ht : 0 ≤ take)
    (hk : 0 ≤ skip) (hs : s.store.Takes take skip) :
    s.history take skip = .ok ⟨(items.drop skip.toNat).take take.toNat, take, skip⟩ := by
  rw [history, Store.find_of_contents h ht hk hs, Store.page_eq_take ht]
  rfl

def Request.Inserts : Request → Prop
  | calculate _ _ _ => True
  | operation (.save _) => True
  | _ => False

theorem Request.Inserts.empties (h : r.Inserts) (s : Service) : r.empties s = false := by
  cases r with
  | operation op =>
    cases op with
    | save i => rfl
    | _ => exact h.elim
  | _ => rfl

/-- The items that the requests add, in their order. -/
def additions (s : Service) (rs : List Request) : List Item :=
  (s.trace rs).filterMap fun p => if p.2.adds p.1 then p.2.item? p.1 else none

theorem additions_singleton (s : Service) (r : Request) :
    s.additions [r] = (if r.adds s then r.item? s else none).toList := by
  rw [additions, trace, List.filterMap_cons]
  cases (if r.adds s then r.item? s else none) <;> rfl

theorem additions_cons (s : Service) (r : Request) (rs : List Request) :
    s.additions (r :: rs) = s.additions [r] ++ (r.after s).additions rs :=
  List.filterMap_append (l := [(s, r)])

theorem inserted_holds {rs : List Request} (hrs : ∀ r ∈ rs, r.Inserts ∧ r.Proper)
    (hs : s.store.Holds items) : (s.performed rs).store.Holds (items ++ s.additions rs) := by
  induction rs generalizing s items with
  | nil => rwa [additions, trace, List.filterMap_nil, List.append_nil]
  | cons r rs ih =>
    obtain ⟨⟨hinserts, hr⟩, hrs⟩ := List.forall_mem_cons.mp hrs
    rw [performed, List.foldl_cons, ← performed, additions_cons, ← List.append_assoc]
    refine ih hrs ?_
    rw [additions_singleton]
    rcases r.after_cases s with ⟨i, store, hi, hsave, hafter, hadds, -⟩ | ⟨-, hempties⟩ |
      ⟨hafter, hadds, -⟩
    · rw [hafter, hadds, if_pos rfl, hi]
      exact hs.save (Request.distinct_of_item? hr hi) hsave
    · rw [hinserts.empties] at hempties
      cases hempties
    · rw [hafter, hadds, if_neg Bool.false_ne_true, Option.toList_none, List.append_nil]
      exact hs

/-! A client that reads. -/

/-- An insertion by anyone, or the next page of the client, which asks for so many items. -/
inductive Move where
  | insert (r : Request)
  | read (take : Int)

structure Reading where
  service : Service
  received : List Item

namespace Move

def after (p : Reading) : Move → Reading
  | insert r => { p with service := r.after p.service }
  | read take =>
    match p.service.history take p.received.length with
    | .ok page => { p with received := p.received ++ page.items }
    | .error _ => p

def Proper : Move → Prop
  | insert r => r.Inserts ∧ r.Proper
  | read take => 1 ≤ take

def insertion? : Move → Option Request
  | insert r => some r
  | read _ => none

def insertions (ms : List Move) : List Request :=
  ms.filterMap insertion?

@[simp]
theorem insertions_nil : insertions [] = [] := rfl

@[simp]
theorem insertions_insert (r : Request) (ms : List Move) :
    insertions (insert r :: ms) = r :: insertions ms := rfl

@[simp]
theorem insertions_read (take : Int) (ms : List Move) :
    insertions (read take :: ms) = insertions ms := rfl

theorem proper_of_mem_insertions {ms : List Move} (hms : ∀ m ∈ ms, m.Proper) {r : Request}
    (hr : r ∈ insertions ms) : r.Inserts ∧ r.Proper := by
  obtain ⟨m, hm, hmr⟩ := List.mem_filterMap.mp hr
  cases m with
  | insert q =>
    cases hmr
    exact hms _ hm
  | read take => cases hmr

end Move

namespace Reading

variable {p : Reading} {ms : List Move} {take : Int}

def moved (p : Reading) (ms : List Move) : Reading :=
  ms.foldl (fun p m => m.after p) p

theorem read_service (p : Reading) (take : Int) : ((Move.read take).after p).service = p.service := by
  rw [Move.after]
  split <;> rfl

theorem moved_service (p : Reading) (ms : List Move) :
    (p.moved ms).service = p.service.performed (Move.insertions ms) := by
  induction ms generalizing p with
  | nil => rfl
  | cons m ms ih =>
    rw [moved, List.foldl_cons, ← moved, ih]
    cases m with
    | insert r => rfl
    | read take =>
      rw [read_service]
      rfl

theorem history_of_received (h : p.service.store.contents = .ok items) (ht : 1 ≤ take)
    (hs : p.service.store.Takes take p.received.length) :
    p.service.history take p.received.length =
      .ok ⟨(items.drop p.received.length).take take.toNat, take, p.received.length⟩ := by
  rw [history_of_contents h (by omega) (by omega) hs, Int.toNat_natCast]

theorem append_next_prefix {received : List Item} (h : received <+: items) (n : Nat) :
    received ++ (items.drop received.length).take n <+: items := by
  obtain ⟨rest, rfl⟩ := h
  rw [List.drop_left, List.prefix_append_right_inj]
  exact List.take_prefix n rest

theorem append_next_eq {received : List Item} (h : received <+: items) {n : Nat}
    (hlen : ((items.drop received.length).take n).length < n) :
    received ++ (items.drop received.length).take n = items := by
  obtain ⟨rest, rfl⟩ := h
  rw [List.drop_left, List.length_take] at hlen
  rw [List.drop_left, List.take_of_length_le (by omega)]

theorem read_prefix (h : p.service.store.contents = .ok items) (hp : p.received <+: items)
    (ht : 1 ≤ take) : ((Move.read take).after p).received <+: items := by
  rw [Move.after]
  by_cases hs : p.service.store.Takes take p.received.length
  · rw [history_of_received h ht hs]
    exact append_next_prefix hp _
  · rw [history, Store.find_outOfRange (by omega) (by omega) hs]
    exact hp

theorem moved_prefix (hms : ∀ m ∈ ms, m.Proper) (hs : p.service.store.Holds items)
    (hp : p.received <+: items.map p.service.store.backend.kept) :
    (p.moved ms).received <+:
      (items ++ p.service.additions (Move.insertions ms)).map
        p.service.store.backend.kept := by
  -- The items from before are generalized: the first move may already have added one.
  induction ms generalizing p items with
  | nil => rwa [Move.insertions_nil, additions, trace, List.filterMap_nil, List.append_nil]
  | cons m ms ih =>
    rw [List.forall_mem_cons] at hms
    rw [moved, List.foldl_cons, ← moved]
    cases m with
    | insert r =>
      have hholds := inserted_holds (List.forall_mem_singleton.mpr hms.1) hs
      have hbackend : ((Move.insert r).after p).service.store.backend = p.service.store.backend :=
        (r.after_kept p.service).2.2
      have hlonger := hp.trans (List.prefix_append _
        ((p.service.additions [r]).map p.service.store.backend.kept))
      rw [← List.map_append, ← hbackend] at hlonger
      have hrest := ih (p := (Move.insert r).after p) hms.2 hholds hlonger
      rw [hbackend] at hrest
      rwa [Move.insertions_insert, additions_cons, ← List.append_assoc]
    | read take =>
      have hservice := read_service p take
      have hread := read_prefix hs.contents hp hms.1
      rw [← hservice] at hs hread
      have hrest := ih hms.2 hs hread
      rw [hservice] at hrest
      rwa [Move.insertions_read]

end Reading

/-- Insertions by anyone add to the history at its end, and what a client has received that reads
from the start is a start of the history, without a gap or a repetition. The next page is answered
with what follows. If it is not full, the client has the whole history. -/
theorem pages_lossless (hs : s.Reachable) {ms : List Move} (hms : ∀ m ∈ ms, m.Proper) :
    let p := Reading.moved ⟨s, []⟩ ms
    ∃ before, s.store.contents = .ok before ∧
      let history := before ++
        (s.additions (Move.insertions ms)).map s.store.backend.kept
      p.service.store.contents = .ok history ∧ p.received <+: history ∧
      ∀ take : Int, 1 ≤ take →
        (s.store.backend = .memory ∨ take < 2 ^ 63 ∧ p.received.length + take < 2 ^ 63) →
        ∃ page, p.service.history take p.received.length = .ok page ∧
          page.items.length ≤ take ∧ p.received ++ page.items <+: history ∧
          (page.items.length < take → p.received ++ page.items = history) := by
  intro p
  obtain ⟨items, hitems⟩ := hs.holds
  have hbackend : p.service.store.backend = s.store.backend := by
    rw [Reading.moved_service]
    exact (performed_kept s _).2.2
  have hcontents := (inserted_holds (fun r => Move.proper_of_mem_insertions hms) hitems).contents
  have hprefix := Reading.moved_prefix (p := ⟨s, []⟩) hms hitems List.nil_prefix
  rw [← Reading.moved_service ⟨s, []⟩, hbackend, List.map_append] at hcontents
  rw [List.map_append] at hprefix
  refine ⟨_, hitems.contents, hcontents, hprefix, ?_⟩
  intro take ht hbounds
  have htakes : p.service.store.Takes take p.received.length := by
    rw [Store.Takes, hbackend]
    exact hbounds.imp_right fun h => ⟨h.1, by omega⟩
  refine ⟨_, Reading.history_of_received hcontents ht htakes, ?_,
    Reading.append_next_prefix hprefix _, fun hlen => Reading.append_next_eq hprefix ?_⟩
  · dsimp only
    rw [List.length_take]
    omega
  · exact Int.lt_toNat.mpr hlen

/-- Two insertions between two pages; the database refuses the second one. -/
def growing : List Move :=
  [.read 1, .insert (.calculate "b" noon "-0"), .insert (.operation (.save (Store.sample "c" .nan))),
    .read 1]

theorem growing_pages :
    begun.Reachable ∧ (∀ m ∈ growing, m.Proper) ∧
    let p := Reading.moved ⟨begun, []⟩ growing
    p.service.store.count = 2 ∧
    ∃ page, p.service.history 3 p.received.length = .ok page ∧
      p.service.store.contents = .ok (p.received ++ page.items) := by
  have hproper : ∀ m ∈ growing, m.Proper := by
    simp [growing, Move.Proper, Request.Inserts, Request.Proper, Store.sample_distinct]
  refine ⟨begun_reachable, hproper, ?_⟩
  intro p
  have hcount : p.service.store.count = 2 := by
    have he : begun.evaluate "-0" = .ok (.negation (.number (.zero false)), .zero true) :=
      evaluate_within (by decide) evaluated_negativeZero
    obtain ⟨row, row', hafter⟩ : ∃ row row', (Request.calculate "b" noon "-0").after begun =
        ⟨.database [row, row'], 1000, some 100⟩ := by
      rw [Request.after, calculate, he]
      exact ⟨_, _, rfl⟩
    have hservice : p.service = begun.performed (Move.insertions growing) :=
      Reading.moved_service _ _
    rw [hservice]
    exact congrArg (fun s : Service => (s.performed (Move.insertions growing).tail).store.count) hafter
  obtain ⟨before, -, hcontents, hprefix, hread⟩ := pages_lossless begun_reachable hproper
  have hlen := Store.length_contents hcontents
  rw [hcount] at hlen
  have hreceived := hprefix.length_le
  rw [hlen] at hreceived
  obtain ⟨page, hpage, -, hmore, hlast⟩ := hread 3 (by decide) (.inr ⟨by decide, by omega⟩)
  have hall := hmore.length_le
  rw [hlen, List.length_append] at hall
  exact ⟨hcount, page, hpage, by rw [hlast (by omega)]; exact hcontents⟩

end Service
end Reckoner
