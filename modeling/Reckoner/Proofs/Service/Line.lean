import Reckoner.Proofs.Json.Standard
import Reckoner.Proofs.Log.Rotation
import Reckoner.Proofs.Service.Atomicity

/-!
Lines of the log about calculations. Whatever the source, a line tells how its calculation ended, and
it is standard JSON unless the result is not finite.
-/

namespace Reckoner
open Text

namespace Service

def lineJson (t : Timestamp) (level message : String) (context : List (String × Json)) : Json :=
  .object [("timestamp", .string t.zuluText), ("level", .string level),
    ("component", .string "service"), ("message", .string message), ("context", .object context)]

variable {t : Timestamp} {level message : String} {context : List (String × Json)}

theorem distinct_lineJson (hn : (context.map Prod.fst).Nodup)
    (h : ∀ m ∈ context, m.2.Distinct) : (lineJson t level message context).Distinct := by
  refine .object (by simp) ?_
  simp only [List.forall_mem_cons]
  exact ⟨.string _, .string _, .string _, .string _, .object hn h, List.forall_mem_nil _⟩

theorem finite_lineJson_iff :
    (lineJson t level message context).Finite ↔ ∀ m ∈ context, m.2.Finite := by
  constructor
  · intro h
    cases h with
    | object h =>
      cases h ("context", .object context) (by simp) with
      | object h => exact h
  · intro h
    refine .object ?_
    simp only [List.forall_mem_cons]
    exact ⟨.string _, .string _, .string _, .string _, .object h, List.forall_mem_nil _⟩

variable {c : Log.Call}

theorem jsonLine_eq {l : Log.Level} (hc : c.entry = ⟨loggerName, l, message, context⟩)
    (hl : l < Log.Level.warning) (hne : context ≠ []) (ht : c.record.time = .ok t) :
    c.record.jsonLine = .ok (lineJson t l.name message context).text := by
  obtain ⟨entry, file, line, function, created⟩ := c
  obtain rfl : entry = _ := hc
  let r : Log.Record :=
    (Log.Entry.mk loggerName l message context).record file line function created
  have hmessage : r.message = .ok message := rfl
  have horigin : r.origin = "service" := by
    change Log.Record.lastPart loggerName = "service"
    decide
  have hcontext : r.contextMember = [("context", .object context)] :=
    if_neg (by simpa [r, Log.Entry.record, Json.isVoid] using hne)
  have hsource : r.sourceMember = [] := if_pos hl
  have htime : r.time = .ok t := ht
  change r.jsonLine = _
  rw [Log.Record.jsonLine, Log.Record.json, htime, hmessage, horigin, hcontext, hsource]
  rfl

theorem exists_line {l : Log.Level} (hc : c.entry = ⟨loggerName, l, message, context⟩)
    (hl : l < Log.Level.warning) (hne : context ≠ []) (hn : (context.map Prod.fst).Nodup)
    (hd : ∀ m ∈ context, m.2.Distinct) (ht : c.record.time = .ok t) :
    ∃ line, c.record.jsonLine = .ok line ∧ (∀ d ∈ line.toList, Visible d) ∧
      Json.ofText line = .ok (lineJson t l.name message context) ∧
      (Json.Standard .text line.toList ↔ ∀ m ∈ context, m.2.Finite) := by
  refine ⟨_, jsonLine_eq hc hl hne ht, Json.visible_text _, ?_, ?_⟩
  · exact Json.ofText_text (distinct_lineJson hn hd)
  · rw [Json.standard_text_iff, finite_lineJson_iff]

theorem line_recorded {i : Item} (hc : c.entry = recorded i) (ht : c.record.time = .ok t) :
    ∃ line, c.record.jsonLine = .ok line ∧ (∀ d ∈ line.toList, Visible d) ∧
      Json.ofText line = .ok (lineJson t "DEBUG" "Evaluated expression"
        [("id", .string i.id), ("result", .float i.result)]) ∧
      (Json.Standard .text line.toList ↔ i.result.isFinite = true) := by
  have hd : ∀ m ∈ [("id", Json.string i.id), ("result", .float i.result)], m.2.Distinct :=
    List.forall_mem_cons.mpr ⟨.string _, List.forall_mem_singleton.mpr (.float _)⟩
  obtain ⟨line, hline, hvisible, hread, hstandard⟩ :=
    exists_line hc (by decide) (List.cons_ne_nil _ _) (by simp) hd ht
  refine ⟨line, hline, hvisible, hread, hstandard.trans ?_⟩
  rw [List.forall_mem_cons, List.forall_mem_singleton]
  constructor
  · rintro ⟨-, ⟨⟩⟩
    assumption
  · exact fun h => ⟨.string _, .float h⟩

theorem line_rejected {kind detail : String} (hc : c.entry = rejected kind detail)
    (ht : c.record.time = .ok t) :
    ∃ line, c.record.jsonLine = .ok line ∧ (∀ d ∈ line.toList, Visible d) ∧
      Json.ofText line = .ok (lineJson t "INFO" "Expression rejected"
        [("error", .string kind), ("detail", .string detail)]) ∧
      Json.Standard .text line.toList := by
  have hd : ∀ m ∈ [("error", Json.string kind), ("detail", .string detail)], m.2.Distinct :=
    List.forall_mem_cons.mpr ⟨.string _, List.forall_mem_singleton.mpr (.string _)⟩
  obtain ⟨line, hline, hvisible, hread, hstandard⟩ :=
    exists_line hc (by decide) (List.cons_ne_nil _ _) (by simp) hd ht
  refine ⟨line, hline, hvisible, hread, hstandard.mpr ?_⟩
  exact List.forall_mem_cons.mpr ⟨.string _, List.forall_mem_singleton.mpr (.string _)⟩

theorem log_cases (s : Service) (id : String) (now : Timestamp) (source : String) :
    (∃ i, (s.calculate id now source).answer = .ok i ∧
      (s.calculate id now source).log = [recorded i]) ∨
    (∃ f kind, (s.calculate id now source).answer = .error (.failure f) ∧ f.kind? = some kind ∧
      (s.calculate id now source).log = [rejected kind f.message]) ∨
    ∃ f, (s.calculate id now source).answer = .error (.store f) ∧
      (s.calculate id now source).log = [] := by
  rcases calculate_cases s id now source with
    ⟨f, hf, hstep⟩ | ⟨e, x, f, -, -, hstep⟩ | ⟨e, x, store, -, -, hstep⟩ <;> rw [hstep]
  · obtain ⟨kind, hkind⟩ := kind?_of_evaluate hf
    exact .inr (.inl ⟨f, kind, rfl, hkind, rejections_eq hkind⟩)
  · exact .inr (.inr ⟨f, rfl, rfl⟩)
  · exact .inl ⟨_, rfl, rfl⟩

/-- A calculation that the store does not fail makes one record. Its line consists of visible
characters, it is read as what the record tells of the item or of the refusal, and it is standard
JSON unless the result of the item is not finite. -/
theorem calculation_line (s : Service) (id : String) (now : Timestamp) (source : String) :
    ((∀ f, (s.calculate id now source).answer ≠ .error (.store f)) →
      (s.calculate id now source).log.length = 1) ∧
    ∀ (c : Log.Call) (t : Timestamp), c.entry ∈ (s.calculate id now source).log →
      c.record.time = .ok t →
      ∃ line, c.record.jsonLine = .ok line ∧ (∀ d ∈ line.toList, Visible d) ∧
        ((∃ i, (s.calculate id now source).answer = .ok i ∧
          Json.ofText line = .ok (lineJson t "DEBUG" "Evaluated expression"
            [("id", .string i.id), ("result", .float i.result)]) ∧
          (Json.Standard .text line.toList ↔ i.result.isFinite = true)) ∨
        ∃ f kind, (s.calculate id now source).answer = .error (.failure f) ∧
          f.kind? = some kind ∧
          Json.ofText line = .ok (lineJson t "INFO" "Expression rejected"
            [("error", .string kind), ("detail", .string f.message)]) ∧
          Json.Standard .text line.toList) := by
  rcases log_cases s id now source with ⟨i, ha, hlog⟩ | ⟨f, kind, ha, hkind, hlog⟩ | ⟨f, ha, hlog⟩
  · refine ⟨fun _ => by rw [hlog]; rfl, fun c t hc ht => ?_⟩
    rw [hlog, List.mem_singleton] at hc
    obtain ⟨line, hline, hvisible, htold⟩ := line_recorded hc ht
    exact ⟨line, hline, hvisible, .inl ⟨i, ha, htold⟩⟩
  · refine ⟨fun _ => by rw [hlog]; rfl, fun c t hc ht => ?_⟩
    rw [hlog, List.mem_singleton] at hc
    obtain ⟨line, hline, hvisible, htold⟩ := line_rejected hc ht
    exact ⟨line, hline, hvisible, .inr ⟨f, kind, ha, hkind, htold⟩⟩
  · refine ⟨fun h => absurd ha (h f), fun c t hc _ => ?_⟩
    rw [hlog] at hc
    cases hc

/-- A backslash is escaped in the reason of the refusal, and again in the line. -/
theorem backslash_line :
    let s : Service := .fresh .memory 1000 (some 100)
    let c : Log.Call := ⟨rejected "InvalidExpressionError" (Invalid.character '\\' 0).message,
      "app.py", 1, "run", .whole 0⟩
    ∃ t line, c.entry ∈ (s.calculate "a" noon "\\").log ∧ c.record.time = .ok t ∧
      c.record.jsonLine = .ok line ∧ (∀ d ∈ line.toList, Visible d) ∧
      Json.ofText line = .ok (lineJson t "INFO" "Expression rejected"
        [("error", .string "InvalidExpressionError"),
          ("detail", .string "Invalid expression: unexpected character '\\\\' at position 0")]) ∧
      Json.Standard .text line.toList := by
  intro s c
  have hscan : Token.scan "\\" = .error (.character '\\' 0) :=
    Token.scanFrom_fault (by decide) (by decide) rfl
  have heval : s.evaluate "\\" = .error (.invalid (.character '\\' 0)) := by
    rw [evaluate, if_neg (by decide), Expression.evaluated, Expression.ofText, hscan]
    rfl
  have hstep : s.calculate "a" noon "\\" =
      ⟨.error (.failure (.invalid (.character '\\' 0))), s, [c.entry]⟩ := by
    simp only [calculate, heval]
    rfl
  obtain ⟨t, ht⟩ : ∃ t, c.record.time = .ok t := ⟨_, ok_of_toOption rfl⟩
  have hc : c.entry ∈ (s.calculate "a" noon "\\").log := by
    rw [hstep]
    exact List.mem_singleton_self _
  obtain ⟨line, hline, hvisible, ⟨i, hi, -⟩ | ⟨f, kind, hf, hkind, hread, hstandard⟩⟩ :=
    (calculation_line s "a" noon "\\").2 c t hc ht
  · rw [hstep] at hi
    cases hi
  · rw [hstep] at hf
    cases hf
    cases hkind
    have hmessage : (Invalid.character '\\' 0).message =
        "Invalid expression: unexpected character '\\\\' at position 0" := by decide +kernel
    exact ⟨t, line, hc, ht, hline, hvisible, hmessage ▸ hread, hstandard⟩

theorem evaluated_numeral {limit : Option Int} {run : List Char} (hrun : Token.Numeral run)
    {x : Binary64} (hx : Binary64.ofText? (String.ofList run) = some x) :
    Expression.evaluated limit (String.ofList run) = .ok (.number x, x) := by
  let d : Sentence := .single (.single (.number ⟨.number, String.ofList run, 0⟩ rfl))
  have hscan : Token.scan (String.ofList run) =
      .ok (d.tokens ++ [⟨.eof, "", (String.ofList run).length⟩]) := by
    have hnumber : Token.scanFrom 0 (run ++ []) = _ :=
      Token.scanFrom_numeral hrun Token.endsNumber_nil
    rw [List.append_nil, Token.scanFrom_nil, Nat.zero_add] at hnumber
    rw [Token.scan, String.toList_ofList, String.length_ofList]
    exact hnumber
  have htree : d.tree = .ok (.number x) := by simp [d, Derivation.tree, hx]
  exact Expression.evaluated_of_scan hscan htree (fits_zero limit) (fits_zero limit) rfl

theorem log_of_memory (id : String) (now : Timestamp) {maxLength : Int} {maxDepth : Option Int}
    {source : String} {e : Expression} {x : Binary64}
    (h : (fresh .memory maxLength maxDepth).evaluate source = .ok (e, x)) :
    ((fresh .memory maxLength maxDepth).calculate id now source).log =
      [recorded (item id now source e x)] := by
  simp only [calculate, h]
  rfl

/-- The line on a result beyond the finite numbers is no standard JSON. -/
theorem infinite_line_not_standard :
    ∃ (c : Log.Call) (line : String),
      c.entry ∈ ((fresh .memory 1000 (some 100)).calculate "a" noon (String.ofList beyondDigits)).log ∧
        c.record.jsonLine = .ok line ∧ ¬ Json.Standard .text line.toList := by
  have hnumeral : Token.Numeral beyondDigits :=
    .whole isDigit_of_mem_beyondDigits (List.cons_ne_nil _ _)
  have hlen : ((String.ofList beyondDigits).length : Int) ≤ 1000 := by
    rw [String.length_ofList, length_beyondDigits]
    decide
  have heval : (fresh .memory 1000 (some 100)).evaluate (String.ofList beyondDigits) = .ok (_, _) :=
    evaluate_within hlen (evaluated_numeral hnumeral ofText?_beyondDigits)
  have hlog := log_of_memory "a" noon heval
  generalize String.ofList beyondDigits = source at hlog ⊢
  let c : Log.Call :=
    ⟨recorded (item "a" noon source (.number (.infinite false)) (.infinite false)), "app.py", 1, "run",
      .whole 0⟩
  obtain ⟨t, ht⟩ : ∃ t, c.record.time = .ok t := ⟨_, ok_of_toOption rfl⟩
  have hentry : c.entry = recorded _ := rfl
  obtain ⟨line, hline, -, -, hstandard⟩ := line_recorded hentry ht
  refine ⟨c, line, ?_, hline, fun h => ?_⟩
  · rw [hlog]
    exact List.mem_singleton_self _
  · cases hstandard.mp h

end Service
end Reckoner
