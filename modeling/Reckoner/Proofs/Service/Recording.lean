import Reckoner.Proofs.Expression.Source
import Reckoner.Proofs.Service.Step

/-!
What a calculation leaves in the history. Its item becomes the last one, but for a result that is
not a number: a database refuses that.
-/

namespace Reckoner
open Text

namespace Expression

theorem evaluated_of_scan {limit : Option Int} {source : String} {d : Sentence} {e : Expression}
    {x : Binary64} (hscan : Token.scan source = .ok (d.tokens ++ [⟨.eof, "", source.length⟩]))
    (htree : d.tree = .ok e) (hh : Fits limit d.height) (hn : Fits limit d.nesting)
    (hx : e.evaluate = .ok x) : evaluated limit source = .ok (e, x) := by
  have htext : ofText limit source = .ok e := ofText_iff_fits.mpr ⟨d, hscan, htree, hh, hn⟩
  rw [evaluated, htext, ok_bind, hx]

end Expression

namespace Service

/-- The item is answered, and the step makes it the last one of the history. The sign of a zero may
be lost there. -/
structure Records (s : Service) (i : Item) (step : Step Item) : Prop where
  answer : step.answer = .ok i
  count : step.after.store.count = s.store.count + 1
  last : ∀ take skip : Int, 0 ≤ take ∧ take < 2 ^ 63 → 0 ≤ skip ∧ skip < 2 ^ 63 →
    skip ≤ s.store.count → s.store.count < skip + take →
    ∃ listed j, step.after.store.find take skip = .ok (listed ++ [j]) ∧
      j.unsignedZero = i.unsignedZero

variable {s : Service} {id source : String} {now : Timestamp} {e : Expression} {x : Binary64}

theorem evaluate_within (hlen : (source.length : Int) ≤ s.maxLength)
    (hx : Expression.evaluated s.maxDepth source = .ok (e, x)) :
    s.evaluate source = .ok (e, x) := by
  rw [evaluate, if_neg (Int.not_lt.mpr hlen), hx]

theorem records_of_save {items : List Item} (h : s.store.Holds items) (hnow : now.Expressible)
    (he : s.evaluate source = .ok (e, x)) {store : Store}
    (hs : s.store.save (item id now source e x) = .ok store) :
    s.Records (item id now source e x) (s.calculate id now source) := by
  have hstep : s.calculate id now source =
      ⟨.ok (item id now source e x), { s with store }, [recorded (item id now source e x)]⟩ := by
    simp only [calculate, he, hs]
  have hholds := h.save (item_distinct id now source e x) hs
  rw [hstep]
  refine ⟨rfl, (Store.save_ok hs).2, ?_⟩
  intro take skip ht hk hlen hend
  rw [h.count] at hlen hend
  have hfind := hholds.find ht hk
  rw [Store.page_append_last hk.1 hlen hend, List.map_append, List.map_singleton] at hfind
  exact ⟨_, _, hfind, store.backend.unsignedZero_kept hnow⟩

/-- A calculation of a new id becomes the last item of the history, unless its result is not a number
and the history is in a database. Then it is refused and nothing changes. -/
theorem calculate_records_unless_nan (hs : s.Reachable) (hid : id ∉ s.store.ids)
    (hnow : now.Expressible) (hlen : (source.length : Int) ≤ s.maxLength)
    (hx : Expression.evaluated s.maxDepth source = .ok (e, x)) :
    ((s.store.backend = .memory ∨ x ≠ .nan) →
        s.Records ⟨id, source, e.members, x, now⟩ (s.calculate id now source)) ∧
      (s.store.backend = .database → x = .nan →
        (s.calculate id now source).answer = .error (.store .nullResult) ∧
          (s.calculate id now source).after = s) := by
  have he := evaluate_within hlen hx
  obtain ⟨items, hitems⟩ := hs.holds
  constructor
  · intro hnan
    obtain ⟨store, hsave⟩ := Store.save_new (i := item id now source e x) hid hnan
    exact records_of_save hitems hnow he hsave
  · rintro hdatabase rfl
    have hsave : s.store.save (item id now source e .nan) = .error .nullResult := by
      cases hstore : s.store with
      | memory items =>
        rw [hstore] at hdatabase
        cases hdatabase
      | database rows => rfl
    simp only [calculate, he, hsave]
    exact ⟨trivial, trivial⟩

def noon : Timestamp :=
  ⟨⟨2024, 1, 15, 12, 0, 0, 0, some 0⟩, by decide⟩

theorem noon_expressible : noon.Expressible :=
  Timestamp.expressible_iff.mpr rfl

def begun : Service :=
  ⟨(Store.Operation.save (Store.sample "a" (.infinite true))).after (.empty .database), 1000,
    some 100⟩

theorem begun_reachable : begun.Reachable :=
  ⟨.database, 1000, some 100, [.operation (.save (Store.sample "a" (.infinite true)))],
    List.forall_mem_singleton.mpr (Store.sample_distinct _ _), rfl⟩

def beyondDigits : List Char := '1' :: List.replicate 309 '0'

theorem isDigit_of_mem_beyondDigits : ∀ c ∈ beyondDigits, isDigit c = true := by
  rw [beyondDigits, List.forall_mem_cons]
  refine ⟨rfl, fun c hc => ?_⟩
  rw [List.eq_of_mem_replicate hc]
  rfl

theorem length_beyondDigits : beyondDigits.length = 310 := by
  rw [beyondDigits, List.length_cons, List.length_replicate]

theorem ofText?_beyondDigits :
    Binary64.ofText? (String.ofList beyondDigits) = some (.infinite false) := by
  have hnumeral := Token.Numeral.whole isDigit_of_mem_beyondDigits (List.cons_ne_nil _ _)
  have hdigits : ofDigits beyondDigits = ofDigits ['1'] * 10 ^ 309 :=
    ofDigits_append_zeros ['1'] 309
  have hbeyond : (⟨ofDigits ['1'] * 10 ^ 309, 0⟩ : Decimal).toBinary64 false = .infinite false := by
    decide +kernel
  rw [Binary64.ofText?_numeric hnumeral.numeric,
    Decimal.ofFixed?_whole isDigit_of_mem_beyondDigits (List.cons_ne_nil _ _), hdigits,
    Option.map_some, hbeyond]

theorem evaluated_zeroTimes {run : List Char} (hrun : Token.Numeral run)
    (hbeyond : Binary64.ofText? (String.ofList run) = some (.infinite false)) :
    Expression.evaluated (some 100) (String.ofList ('0' :: '*' :: run)) =
      .ok (.operation .mul (.number (.zero false)) (.number (.infinite false)), .nan) := by
  let d : Sentence :=
    .single (.link (.single (.number ⟨.number, "0", 0⟩ rfl)) ⟨.star, "*", 1⟩ .mul rfl
      (.number ⟨.number, String.ofList run, 2⟩ rfl))
  have hscan : Token.scan (String.ofList ('0' :: '*' :: run)) =
      .ok (d.tokens ++ [⟨.eof, "", (String.ofList ('0' :: '*' :: run)).length⟩]) := by
    have hzero : Token.Numeral ['0'] :=
      .whole (List.forall_mem_singleton.mpr rfl) (List.cons_ne_nil _ _)
    have hlast : Token.scanFrom 2 (run ++ []) = _ :=
      Token.scanFrom_numeral hrun Token.endsNumber_nil
    have hfirst : Token.scanFrom 0 (['0'] ++ '*' :: run) = _ :=
      Token.scanFrom_numeral hzero (Token.endsNumber_cons rfl)
    rw [List.append_nil, Token.scanFrom_nil, Nat.add_comm] at hlast
    rw [Token.scanFrom_symbol rfl, List.length_singleton, hlast] at hfirst
    rw [Token.scan, String.toList_ofList, String.length_ofList]
    exact hfirst
  have htree : d.tree =
      .ok (.operation .mul (.number (.zero false)) (.number (.infinite false))) := by
    have hzero : Binary64.ofText? "0" = some (.zero false) := by decide +kernel
    simp [d, Derivation.tree, hzero, hbeyond]
  have hheight : Fits (some 100) 1 := fits_some.mpr (by decide)
  exact Expression.evaluated_of_scan hscan htree hheight (fits_zero _) rfl

def overflowing : String := String.ofList ('0' :: '*' :: beyondDigits)

theorem length_overflowing : overflowing.length = 312 := by
  rw [overflowing, String.length_ofList, List.length_cons, List.length_cons, length_beyondDigits]

theorem evaluated_overflowing :
    Expression.evaluated (some 100) overflowing =
      .ok (.operation .mul (.number (.zero false)) (.number (.infinite false)), .nan) :=
  evaluated_zeroTimes (.whole isDigit_of_mem_beyondDigits (List.cons_ne_nil _ _))
    ofText?_beyondDigits

theorem evaluated_negativeZero :
    Expression.evaluated (some 100) "-0" = .ok (.negation (.number (.zero false)), .zero true) := by
  let d : Sentence :=
    .single (.single (.minus ⟨.minus, "-", 0⟩ rfl (.number ⟨.number, "0", 1⟩ rfl)))
  have hscan : Token.scan "-0" = .ok (d.tokens ++ [⟨.eof, "", 2⟩]) :=
    ok_of_toOption (by decide +kernel)
  have htree : d.tree = .ok (.negation (.number (.zero false))) :=
    ok_of_toOption (by decide +kernel)
  exact Expression.evaluated_of_scan hscan htree (fits_some.mpr (by decide))
    (fits_some.mpr (by decide)) rfl

theorem begun_records_negativeZero :
    "b" ∉ begun.store.ids ∧ begun.store.backend = .database ∧
      (Expression.evaluated begun.maxDepth "-0" =
          .ok (.negation (.number (.zero false)), .zero true) ∧
        begun.Records
          ⟨"b", "-0", (Expression.negation (.number (.zero false))).members, .zero true, noon⟩
          (begun.calculate "b" noon "-0")) ∧
      (∃ e, Expression.evaluated begun.maxDepth overflowing = .ok (e, .nan)) ∧
        (begun.calculate "b" noon overflowing).answer = .error (.store .nullResult) ∧
        (begun.calculate "b" noon overflowing).after = begun := by
  have hid : "b" ∉ begun.store.ids := by decide +kernel
  have hx : Expression.evaluated begun.maxDepth "-0" =
      .ok (.negation (.number (.zero false)), .zero true) := evaluated_negativeZero
  have hzero := calculate_records_unless_nan begun_reachable hid noon_expressible (by decide) hx
  have hnan := calculate_records_unless_nan begun_reachable hid noon_expressible
    (by rw [length_overflowing]; decide) evaluated_overflowing
  exact ⟨hid, rfl, ⟨hx, hzero.1 (.inr (by decide))⟩, ⟨_, evaluated_overflowing⟩, hnan.2 rfl rfl⟩

/-- A new service does not record what is not a number in its database. -/
theorem overflowing_refused :
    (Service.mk (.empty .database) 1000 (some 100)).Reachable ∧
      overflowing.length ≤ 1000 ∧
      (∃ e, Expression.evaluated (some 100) overflowing = .ok (e, .nan)) ∧
      ((Service.mk (.empty .database) 1000 (some 100)).calculate "a" noon overflowing).answer =
        .error (.store .nullResult) ∧
      ((Service.mk (.empty .database) 1000 (some 100)).calculate "a" noon
        overflowing).after.store.count = 0 := by
  have hlen : overflowing.length ≤ 1000 := by
    rw [length_overflowing]
    decide
  refine ⟨⟨.database, 1000, some 100, [], List.forall_mem_nil _, rfl⟩, hlen,
    ⟨_, evaluated_overflowing⟩, ?_⟩
  have he : (Service.mk (.empty .database) 1000 (some 100)).evaluate overflowing =
      .ok (.operation .mul (.number (.zero false)) (.number (.infinite false)), .nan) :=
    evaluate_within (Int.ofNat_le.mpr hlen) evaluated_overflowing
  rw [calculate, he]
  exact ⟨rfl, rfl⟩

end Service
end Reckoner
