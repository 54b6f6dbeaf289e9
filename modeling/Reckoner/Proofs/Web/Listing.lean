import Reckoner.Proofs.Service.Paging
import Reckoner.Proofs.Web.History
import Reckoner.Proofs.Web.Sent

/-!
Pages of the history in the web interface. A query with usable bounds is answered with the items
between them, but for a number of items to skip that a database cannot take.
-/

namespace Reckoner.Web
open Text

def Request.isListing (r : Request) : Bool :=
  toUpper r.method == "GET" && App.withoutLineEnd (Address.ofText r.target).path == "/calculator"

namespace Address

/-- The whole number that the query gives under a name, or the default where it has no such name. -/
def number? (a : Address) (name : String) (default : Int) : Option Int :=
  match a.value? name with
  | none => some default
  | some s => (Whole.ofText s).toOption

/-- The query asks for so many items behind so many others. -/
structure Asks (a : Address) (take skip : Int) : Prop where
  taken : a.number? "take" 20 = some take
  takenRange : 1 ≤ take ∧ take ≤ 1000
  skipped : a.number? "skip" 0 = some skip
  skippedRange : 0 ≤ skip

end Address

section Bounds

variable {name s : String} {n default least : Int} {most : Option Int} {a : Address}

theorem checkInteger_ok_iff :
    checkInteger least most s = .ok n ↔
      (Whole.ofText s).toOption = some n ∧ least ≤ n ∧ ∀ m ∈ most, n ≤ m := by
  unfold checkInteger
  cases hs : Whole.ofText s with
  | error f => cases f <;> exact ⟨nofun, fun h => nomatch h.1⟩
  | ok k =>
    by_cases hleast : k < least
    · simp only [if_pos hleast]
      exact ⟨nofun, by rintro ⟨⟨⟩, h, -⟩; omega⟩
    · simp only [if_neg hleast]
      cases most with
      | none => exact ⟨by rintro ⟨⟩; exact ⟨rfl, by omega, nofun⟩, by rintro ⟨⟨⟩, -⟩; rfl⟩
      | some m =>
        dsimp only
        by_cases hmost : m < k
        · rw [if_pos hmost]
          exact ⟨nofun, by rintro ⟨⟨⟩, -, h⟩; have := h m rfl; omega⟩
        · rw [if_neg hmost]
          exact ⟨by rintro ⟨⟩; exact ⟨rfl, by omega, by rintro _ ⟨⟩; omega⟩, by rintro ⟨⟨⟩, -⟩; rfl⟩

theorem integer_ok_iff (hdefault : least ≤ default ∧ ∀ m ∈ most, default ≤ m) :
    a.integer name default least most = .ok n ↔
      a.number? name default = some n ∧ least ≤ n ∧ ∀ m ∈ most, n ≤ m := by
  unfold Address.integer Address.number?
  cases a.value? name with
  | none => exact ⟨by rintro ⟨⟩; exact ⟨rfl, hdefault⟩, by rintro ⟨⟨⟩, -⟩; rfl⟩
  | some s =>
    dsimp only
    rw [Checked.within_ok_iff, Checked.within_ok_iff, checkInteger_ok_iff]

theorem pageBounds_ok_iff {take skip : Int} :
    App.pageBounds a = .ok (take, skip) ↔ a.Asks take skip := by
  rw [App.pageBounds, Checked.both_ok_iff, integer_ok_iff (by decide), integer_ok_iff (by decide)]
  constructor
  · rintro ⟨⟨htake, hleast, hmost⟩, hskip, hzero, -⟩
    exact ⟨htake, ⟨hleast, hmost 1000 rfl⟩, hskip, hzero⟩
  · rintro ⟨htake, ⟨hleast, hmost⟩, hskip, hzero⟩
    exact ⟨⟨htake, hleast, by rintro _ ⟨⟩; exact hmost⟩, hskip, hzero, nofun⟩

end Bounds

namespace App

variable {a : App} {v : Visit} {items : List Item} {take skip : Int}

theorem handle_listing (h : v.request.isListing = true) :
    a.handleWithin v.limits v.id v.now v.request =
      (a.history (Address.ofText v.request.target), a) := by
  simp only [Request.isListing, Bool.and_eq_true, beq_iff_eq] at h
  have hanswer : a.answer v.limits v.id v.now "GET" v.request =
      (a.history (Address.ofText v.request.target), a) := by
    unfold answer
    dsimp only
    rw [route?_calculator h.2]
    rfl
  have hhead : "GET" ≠ "HEAD" := by decide
  rw [handleWithin, h.1, hanswer]
  exact congrArg (·, _) (if_neg hhead)

theorem respond_listing (h : v.request.isListing = true) :
    a.respond v = a.history (Address.ofText v.request.target) :=
  congrArg Prod.fst (handle_listing h)

def pageJson (items : List Item) (take skip : Int) : Json :=
  .object [("items", .array (((items.drop skip.toNat).take take.toNat).map (·.publicJson))),
    ("take", .int take), ("skip", .int skip)]

theorem history_page (h : a.service.store.contents = .ok items) {address : Address}
    (hq : address.Asks take skip) (hs : a.service.store.backend = .memory ∨ skip < 2 ^ 63) :
    a.history address = ⟨200, .json (pageJson items take skip)⟩ := by
  have ht : 0 ≤ take ∧ take < 2 ^ 63 := by
    have := hq.takenRange
    omega
  have hpage := Service.history_of_contents h ht.1 hq.skippedRange
    (hs.imp_right fun h => ⟨ht.2, h⟩)
  rw [App.history, pageBounds_ok_iff.mpr hq]
  simp only [hpage]
  rfl

theorem history_outOfRange {address : Address} (hq : address.Asks take skip)
    (hs : a.service.store.backend = .database) (hskip : 2 ^ 63 ≤ skip) :
    a.history address = .internal := by
  have htakes : ¬ a.service.store.Takes take skip := by
    rw [Store.Takes, hs]
    rintro (⟨⟨⟩⟩ | h)
    omega
  have hfind := Store.find_outOfRange (by have := hq.takenRange; omega) hq.skippedRange htakes
  rw [App.history, pageBounds_ok_iff.mpr hq]
  simp only [Service.history, hfind]
  rfl

theorem history_refused {address : Address} (hq : ∀ take skip, ¬ address.Asks take skip) :
    ∃ is, a.history address = .invalid is := by
  cases hp : pageBounds address with
  | error is => exact ⟨is, by rw [App.history, hp]⟩
  | ok p => exact absurd (pageBounds_ok_iff.mp hp) (hq p.1 p.2)

/-- A query of a page is answered with the items of the history from `skip` on, at most `take` of
them, as they are where their numbers are finite. Only a database does not answer where it would have
to skip more items than 63 bits count. Any other query is refused. Nothing changes. -/
theorem listing_answered (ha : a.service.Reachable) (hv : v.request.isListing = true) :
    a.after v = a ∧
    ∃ items, a.service.store.contents = .ok items ∧
      (∀ i ∈ items, i.Finite → i.publicJson =
        .object (i.members (.object i.computation) (.float i.result) i.createdAt.zuluText)) ∧
      let address := Address.ofText v.request.target
      (∀ take skip, address.Asks take skip →
        (a.service.store.backend = .memory ∨ skip < 2 ^ 63 →
          a.respond v = ⟨200, .json (pageJson items take skip)⟩) ∧
        (a.service.store.backend = .database → 2 ^ 63 ≤ skip → a.respond v = .internal)) ∧
      ((∀ take skip, ¬ address.Asks take skip) → ∃ is, a.respond v = .invalid is) := by
  obtain ⟨items, hitems⟩ := ha.holds
  have hcontents := hitems.contents
  rw [respond_listing hv]
  exact ⟨congrArg Prod.snd (handle_listing hv), _, hcontents, fun i _ hi => hi.publicJson,
    fun take skip hq => ⟨history_page hcontents hq, history_outOfRange hq⟩, history_refused⟩

def listing (target : String) : Visit :=
  ⟨usualLimits, "b", Service.noon, ⟨"get", target, none, ""⟩⟩

/-- Of a repeated name the last value counts, and a plus is a blank. -/
def firstItems : Visit :=
  listing "/calculator?skip=9&take=%32&skip=+0.0"

theorem firstItems_answered :
    Service.begun.Reachable ∧ firstItems.request.isListing = true ∧
    (Address.ofText firstItems.request.target).Asks 2 0 ∧
    ∃ i : Item, Service.begun.store.contents = .ok [i] ∧
      (App.mk true Service.begun).respond firstItems =
        ⟨200, .json (.object [("items", .array [i.publicJson]), ("take", .int 2),
          ("skip", .int 0)])⟩ := by
  have hlisting : firstItems.request.isListing = true := by decide +kernel
  have hasks : (Address.ofText firstItems.request.target).Asks 2 0 :=
    ⟨by decide +kernel, by decide, by decide +kernel, by decide⟩
  refine ⟨Service.begun_reachable, hlisting, hasks, ?_⟩
  obtain ⟨-, items, hcontents, -, hpage, -⟩ :=
    listing_answered (a := ⟨true, Service.begun⟩) Service.begun_reachable hlisting
  obtain ⟨i, rfl⟩ := List.length_eq_one_iff.mp (Store.length_contents hcontents)
  exact ⟨i, hcontents, (hpage 2 0 hasks).1 (.inr (by decide))⟩

def beyondCount : Visit :=
  listing "/calculator?skip=9223372036854775808"

/-- A database with no items gives no page that starts behind so many. -/
theorem beyondCount_unanswered :
    let a := App.mk true (Service.fresh .database 1000 (some 100))
    beyondCount.request.isListing = true ∧
    (Address.ofText beyondCount.request.target).Asks 20 (2 ^ 63) ∧
    a.service.store.contents = .ok [] ∧ a.respond beyondCount = .internal := by
  have hlisting : beyondCount.request.isListing = true := by decide +kernel
  have hasks : (Address.ofText beyondCount.request.target).Asks 20 (2 ^ 63) :=
    ⟨by decide +kernel, by decide, by decide +kernel, by decide⟩
  refine ⟨hlisting, hasks, rfl, ?_⟩
  rw [respond_listing hlisting]
  exact history_outOfRange hasks rfl (by decide)

end App
end Reckoner.Web
