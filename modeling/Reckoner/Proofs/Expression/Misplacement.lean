import Reckoner.Proofs.Expression.Tiling

/-!
The characters that make a text no list of tokens: those that no token has, and the points that no
number has. They are told by their places in the text alone, and the scan blames the first of them.
-/

namespace Reckoner
open Text

structure Invalid.Quotes (i : Invalid) (p : Nat) (c : Char) : Prop where
  position : i.position = p
  message : i.message = "Invalid expression: " ++
    ((if c = '.' then "unexpected " else "unexpected character ") ++ quote c.toString ++ place p)

theorem Invalid.quotes_point (p : Nat) : (point p).Quotes p '.' := by
  have hquote : "unexpected '.'" = "unexpected " ++ quote '.'.toString := by decide +kernel
  refine ⟨rfl, ?_⟩
  rw [if_pos rfl]
  exact congrArg (fun what => "Invalid expression: " ++ (what ++ place p)) hquote

theorem Invalid.quotes_character {c : Char} (hc : c ≠ '.') (p : Nat) :
    (character c p).Quotes p c := by
  refine ⟨rfl, ?_⟩
  rw [if_neg hc]
  rfl

namespace Token

/-- A run of digits and points in a text that cannot be made longer on either side. -/
structure MaximalRun (cs : List Char) (start : Nat) (run rest : List Char) : Prop where
  text : cs.drop start = run ++ rest
  numeric : ∀ c ∈ run, isNumeric c = true
  before : ∀ q, q + 1 = start → ∀ c ∈ cs[q]?, isNumeric c = false
  after : EndsNumber rest

/-- A point behind another one, or without a digit. -/
def SurplusPoint (run : List Char) (k : Nat) : Prop :=
  run[k]? = some '.' ∧ ('.' ∈ run.take k ∨ run = ['.'])

/-- The character at the place can be part of no token. -/
inductive Misplaced (cs : List Char) : Nat → Prop where
  | character {p : Nat} {c : Char} (hc : cs[p]? = some c) (hb : isBlank c = false)
      (hn : isNumeric c = false) (hk : c ∉ ['+', '-', '*', '/', '(', ')']) : Misplaced cs p
  | point {start k : Nat} {run rest : List Char} (hrun : MaximalRun cs start run rest)
      (hk : SurplusPoint run k) : Misplaced cs (start + k)

variable {cs run rest run' rest' : List Char} {start start' p k : Nat} {c : Char}

/-! Points within a run. -/

theorem surplusPoint_pointed {ds fs : List Char} (hds : '.' ∉ ds) :
    SurplusPoint (ds ++ '.' :: fs) k ↔
      (ds ++ fs = [] ∧ k = 0) ∨ ∃ j, fs[j]? = some '.' ∧ k = ds.length + 1 + j := by
  constructor
  · rintro ⟨hk, hbefore | hlone⟩
    · right
      have hlt : ds.length < k := by
        refine Nat.lt_of_not_le fun hle => hds ?_
        rw [List.take_append_of_le_length hle] at hbefore
        exact List.mem_of_mem_take hbefore
      obtain ⟨j, rfl⟩ := Nat.exists_eq_add_of_lt hlt
      have hj : ds.length + j + 1 - ds.length = j + 1 := by omega
      rw [List.getElem?_append_right (by omega), hj, List.getElem?_cons_succ] at hk
      exact ⟨j, hk, by omega⟩
    · left
      cases ds with
      | nil =>
        obtain rfl : fs = [] := by simpa using hlone
        refine ⟨rfl, ?_⟩
        cases k with
        | zero => rfl
        | succ k => cases hk
      | cons d ds => simp at hlone
  · rintro (⟨hnil, rfl⟩ | ⟨j, hj, rfl⟩)
    · obtain ⟨rfl, rfl⟩ := List.append_eq_nil_iff.mp hnil
      exact ⟨rfl, .inr rfl⟩
    · have hsub : ds.length + 1 + j - ds.length = j + 1 := by omega
      refine ⟨?_, .inl ?_⟩
      · rw [List.getElem?_append_right (by omega), hsub, List.getElem?_cons_succ, hj]
      · rw [List.take_append, hsub]
        simp

theorem Numeral.not_surplusPoint (h : Numeral run) (k : Nat) : ¬ SurplusPoint run k := by
  cases h with
  | whole hd hne => exact fun hk => ne_point_of_isDigit (hd '.' (List.mem_of_getElem? hk.1)) rfl
  | @pointed ds fs hd hf hne =>
    rw [surplusPoint_pointed fun h => ne_point_of_isDigit (hd '.' h) rfl]
    rintro (⟨hnil, -⟩ | ⟨j, hj, -⟩)
    · exact hne hnil
    · exact ne_point_of_isDigit (hf '.' (List.mem_of_getElem? hj)) rfl

theorem surplusPoint_of_misplacedPoint? (hrun : ∀ c ∈ run, isNumeric c = true)
    (h : misplacedPoint? run = some k) :
    SurplusPoint run k ∧ ∀ j < k, ¬ SurplusPoint run j := by
  have hdigit : ∀ c ∈ run, c ≠ '.' → isDigit c = true := fun c hc => isDigit_of_ne_point (hrun c hc)
  by_cases hp : '.' ∈ run
  · obtain ⟨ds, fs, rfl, hds⟩ := List.eq_append_cons_of_mem hp
    have hd : ∀ c ∈ ds, isDigit c = true := by
      intro c hc
      exact hdigit c (List.mem_append_left _ hc) fun h => hds (h ▸ hc)
    simp only [surplusPoint_pointed hds]
    rw [misplacedPoint?_pointed hd] at h
    split at h
    · next hnil =>
      cases h
      exact ⟨.inl ⟨hnil, rfl⟩, fun j hj => absurd hj (Nat.not_lt_zero j)⟩
    · next hne =>
      obtain ⟨j, hj, rfl⟩ := Option.map_eq_some_iff.mp h
      obtain ⟨hlt, hpoint, hfirst⟩ := List.findIdx?_eq_some_iff_getElem.mp hj
      refine ⟨.inr ⟨j, by rw [List.getElem?_eq_getElem hlt, eq_of_beq hpoint], rfl⟩, ?_⟩
      rintro i hi (⟨hnil, -⟩ | ⟨j', hj', rfl⟩)
      · exact hne hnil
      · obtain ⟨hlt', hpoint'⟩ := List.getElem?_eq_some_iff.mp hj'
        exact hfirst j' (by omega) (by rw [hpoint']; rfl)
  · rw [misplacedPoint?_whole fun c hc => hdigit c hc fun h => hp (h ▸ hc)] at h
    cases h

/-! Runs within a text. -/

namespace MaximalRun

theorem getElem?_add (h : MaximalRun cs start run rest) (hk : k < run.length) :
    cs[start + k]? = run[k]? := by
  rw [← List.getElem?_drop, h.text, List.getElem?_append_left hk]

theorem numeric_at (h : MaximalRun cs start run rest) (hle : start ≤ p)
    (hlt : p < start + run.length) : ∃ c, cs[p]? = some c ∧ isNumeric c = true := by
  obtain ⟨k, rfl⟩ := Nat.exists_eq_add_of_le hle
  have hk : k < run.length := by omega
  exact ⟨run[k], by rw [h.getElem?_add hk, List.getElem?_eq_getElem hk],
    h.numeric run[k] (List.getElem_mem hk)⟩

theorem start_le (h : MaximalRun cs start run rest) (h' : MaximalRun cs start' run' rest')
    (hlt : p < start + run.length) (hle' : start' ≤ p) : start' ≤ start := by
  refine Nat.le_of_not_lt fun hstart => ?_
  obtain ⟨q, rfl⟩ : ∃ q, start' = q + 1 := ⟨start' - 1, by omega⟩
  obtain ⟨c, hc, hn⟩ := h.numeric_at (p := q) (by omega) (by omega)
  have := h'.before q rfl c hc
  rw [hn] at this
  cases this

theorem eq_takeWhile (h : MaximalRun cs start run rest) :
    run = (cs.drop start).takeWhile isNumeric := by
  rw [h.text, List.takeWhile_append_of_pos h.numeric]
  cases rest with
  | nil => simp
  | cons c cs => simp [h.after c rfl]

theorem unique (h : MaximalRun cs start run rest) (h' : MaximalRun cs start' run' rest')
    (hle : start ≤ p) (hlt : p < start + run.length) (hle' : start' ≤ p)
    (hlt' : p < start' + run'.length) : start = start' ∧ run = run' := by
  obtain rfl : start = start' := Nat.le_antisymm (h'.start_le h hlt' hle) (h.start_le h' hlt hle')
  exact ⟨rfl, h.eq_takeWhile.trans h'.eq_takeWhile.symm⟩

end MaximalRun

theorem SurplusPoint.lt_length (h : SurplusPoint run k) : k < run.length :=
  (List.getElem?_eq_some_iff.mp h.1).1

theorem misplaced_run (h : MaximalRun cs start run rest) (hk : k < run.length) :
    Misplaced cs (start + k) ↔ SurplusPoint run k := by
  refine ⟨fun hm => ?_, .point h⟩
  obtain ⟨c, hc, hn⟩ := h.numeric_at (p := start + k) (by omega) (by omega)
  generalize hp : start + k = p at hm hc
  cases hm with
  | character hc' hb hn' hsymbol =>
    rw [hc] at hc'
    cases hc'
    rw [hn] at hn'
    cases hn'
  | @point start' j run' rest' h' hj =>
    have hlt := hj.lt_length
    obtain ⟨rfl, rfl⟩ := h.unique h' (p := start' + j) (by omega) (by omega) (by omega) (by omega)
    obtain rfl : k = j := by omega
    exact hj

theorem misplaced_character (hc : cs[p]? = some c) (hn : isNumeric c = false) :
    Misplaced cs p ↔ isBlank c = false ∧ c ∉ ['+', '-', '*', '/', '(', ')'] := by
  refine ⟨fun hm => ?_, fun h => .character hc h.1 hn h.2⟩
  cases hm with
  | character hc' hb hn' hsymbol =>
    rw [hc] at hc'
    cases hc'
    exact ⟨hb, hsymbol⟩
  | @point start k run rest h hk =>
    have hlt := hk.lt_length
    obtain ⟨d, hd, hnd⟩ := h.numeric_at (p := start + k) (by omega) (by omega)
    rw [hc] at hd
    cases hd
    rw [hn] at hnd
    cases hnd

theorem ofChar?_eq_none_iff : TokenKind.ofChar? c = none ↔ c ∉ ['+', '-', '*', '/', '(', ')'] := by
  unfold TokenKind.ofChar?
  split <;> simp_all

/-! The scan. -/

/-- What a scan from `start` on tells of the text behind: nothing is misplaced, or what comes
first. -/
def Reports (cs : List Char) (start : Nat) : Except Invalid (List Token) → Prop
  | .ok _ => ∀ p, start ≤ p → ¬ Misplaced cs p
  | .error i => ∃ p c, start ≤ p ∧ cs[p]? = some c ∧ Misplaced cs p ∧ i.Quotes p c ∧
      ∀ q, start ≤ q → q < p → ¬ Misplaced cs q

theorem Reports.mono {next : Nat} {x : Except Invalid (List Token)} (h : Reports cs next x)
    (hle : start ≤ next) (hclear : ∀ p, start ≤ p → p < next → ¬ Misplaced cs p) :
    Reports cs start x := by
  cases x with
  | ok ts =>
    intro p hp
    by_cases hlt : p < next
    · exact hclear p hp hlt
    · exact h p (Nat.le_of_not_lt hlt)
  | error i =>
    obtain ⟨p, c, hp, hc, hm, hi, hfirst⟩ := h
    refine ⟨p, c, Nat.le_trans hle hp, hc, hm, hi, fun q hq hlt => ?_⟩
    by_cases hnext : q < next
    · exact hclear q hq hnext
    · exact hfirst q (Nat.le_of_not_lt hnext) hlt

theorem Reports.cons {x : Except Invalid (List Token)} (h : Reports cs start x) (t : Token) :
    Reports cs start (x >>= fun ts => .ok (t :: ts)) := by
  cases x <;> exact h

theorem Misplaced.exists_char (h : Misplaced cs p) : ∃ c, cs[p]? = some c := by
  cases h with
  | character hc => exact ⟨_, hc⟩
  | point hrun hk =>
    have hlt := hk.lt_length
    obtain ⟨c, hc, -⟩ := hrun.numeric_at (Nat.le_add_right _ _) (Nat.add_lt_add_left hlt _)
    exact ⟨c, hc⟩

theorem Misplaced.not_blank (h : Misplaced cs p) (hc : cs[p]? = some c) : isBlank c = false := by
  cases hn : isNumeric c with
  | true => exact isBlank_of_isNumeric hn
  | false => exact ((misplaced_character hc hn).mp h).1

def Apart (cs : List Char) (start : Nat) : Prop :=
  ∀ q, q + 1 = start → ∀ c ∈ cs[q]?, ∀ d ∈ cs[start]?, isNumeric c = true → isNumeric d = false

theorem apart_of_char (hc : cs[start]? = some c) (hn : isNumeric c = false) :
    Apart cs (start + 1) := by
  intro q hq d hd _ _ hnd
  obtain rfl : q = start := by omega
  rw [hc] at hd
  cases hd
  rw [hn] at hnd
  cases hnd

theorem apart_of_endsNumber (h : EndsNumber (cs.drop start)) : Apart cs start := by
  intro _ _ _ _ d hd _
  exact h d (by rwa [List.head?_drop])

theorem reports_character (hd : cs.drop start = c :: rest) (hn : isNumeric c = false)
    (hclear : isBlank c = true ∨ c ∈ ['+', '-', '*', '/', '(', ')'])
    {x : Except Invalid (List Token)} (h : Reports cs (start + 1) x) : Reports cs start x := by
  refine h.mono (Nat.le_succ start) fun p hp hlt hm => ?_
  obtain rfl : p = start := by omega
  obtain ⟨hb, hsymbol⟩ := (misplaced_character (getElem?_of_drop hd) hn).mp hm
  rcases hclear with hclear | hclear
  · rw [hb] at hclear
    cases hclear
  · exact hsymbol hclear

theorem maximalRun_takeWhile (hd : cs.drop start = c :: rest) (hn : isNumeric c = true)
    (hapart : Apart cs start) :
    MaximalRun cs start (c :: rest.takeWhile isNumeric) (rest.dropWhile isNumeric) := by
  refine ⟨hd.trans (run_append_rest c rest), numeric_run hn, ?_, endsNumber_dropWhile rest⟩
  intro q hq d hdq
  cases hnd : isNumeric d with
  | false => rfl
  | true =>
    have := hapart q hq d hdq c (getElem?_of_drop hd) hnd
    rw [hn] at this
    cases this

theorem reports_scanFrom (hd : cs.drop start = rest) (hapart : Apart cs start) :
    Reports cs start (scanFrom start rest) := by
  -- A run is taken as a whole, so that the scan never stands inside one.
  fun_induction scanFrom start rest
  case case1 start =>
    intro p hp hm
    obtain ⟨c, hc⟩ := hm.exists_char
    have hlen := List.drop_eq_nil_iff.mp hd
    rw [List.getElem?_eq_none (Nat.le_trans hlen hp)] at hc
    cases hc
  case case2 start c rest hb ih =>
    have hn := isNumeric_of_isBlank hb
    have hnext := ih (tail_of_drop hd) (apart_of_char (getElem?_of_drop hd) hn)
    exact reports_character hd hn (.inl hb) hnext
  case case3 start c rest hb hn run k hk =>
    have hrun : MaximalRun cs start run _ := maximalRun_takeWhile hd hn hapart
    obtain ⟨hsurplus, hfirst⟩ := surplusPoint_of_misplacedPoint? hrun.numeric hk
    have hlt := hsurplus.lt_length
    refine ⟨start + k, '.', Nat.le_add_right _ _, by rw [hrun.getElem?_add hlt, hsurplus.1],
      .point hrun hsurplus, Invalid.quotes_point _, fun q hle hq => ?_⟩
    obtain ⟨j, rfl⟩ := Nat.exists_eq_add_of_le hle
    rw [misplaced_run hrun (by omega)]
    exact hfirst j (by omega)
  case case4 start c rest hb hn run hi ih =>
    have hrun : MaximalRun cs start run _ := maximalRun_takeWhile hd hn hapart
    have hrest := drop_of_drop hrun.text
    have hnext := ih hrest (apart_of_endsNumber (by rw [hrest]; exact hrun.after))
    refine (hnext.mono (Nat.le_add_right _ _) fun q hle hq => ?_).cons _
    obtain ⟨j, rfl⟩ := Nat.exists_eq_add_of_le hle
    rw [misplaced_run hrun (by omega)]
    exact (numeral_run hn hi).not_surplusPoint j
  case case5 start c rest hb hn hk =>
    have hc := getElem?_of_drop hd
    have hpoint : c ≠ '.' := by
      rintro rfl
      exact hn rfl
    exact ⟨start, c, Nat.le_refl start, hc,
      .character hc (Bool.eq_false_iff.mpr hb) (Bool.eq_false_iff.mpr hn)
        (ofChar?_eq_none_iff.mp hk),
      Invalid.quotes_character hpoint start, fun q hle hq => absurd hq (Nat.not_lt.mpr hle)⟩
  case case6 start c rest hb hn kind hk ih =>
    have hn' := Bool.eq_false_iff.mpr hn
    have hsymbol : c ∈ ['+', '-', '*', '/', '(', ')'] := by
      refine Classical.byContradiction fun h => ?_
      rw [ofChar?_eq_none_iff.mpr h] at hk
      cases hk
    have hnext := ih (tail_of_drop hd) (apart_of_char (getElem?_of_drop hd) hn')
    exact (reports_character hd hn' (.inr hsymbol) hnext).cons _

theorem reports_scan (source : String) : Reports source.toList 0 (scan source) :=
  reports_scanFrom rfl nofun

/-- A text is refused just when a character of it is misplaced. The first such character is blamed
and quoted. -/
theorem scan_refuses_first_misplaced (source : String) :
    ((∃ i, scan source = .error i) ↔ ∃ p, Misplaced source.toList p) ∧
      ∀ i, scan source = .error i → ∃ (p : Nat) (c : Char), source.toList[p]? = some c ∧
        Misplaced source.toList p ∧ (∀ q < p, ¬ Misplaced source.toList q) ∧ i.Quotes p c := by
  have h := reports_scan source
  constructor
  · constructor
    · rintro ⟨i, hi⟩
      rw [hi] at h
      obtain ⟨p, c, -, -, hm, -⟩ := h
      exact ⟨p, hm⟩
    · rintro ⟨p, hm⟩
      cases hs : scan source with
      | error i => exact ⟨i, rfl⟩
      | ok ts =>
        rw [hs] at h
        exact absurd hm (h p (Nat.zero_le p))
  · intro i hi
    rw [hi] at h
    obtain ⟨p, c, -, hc, hm, hquotes, hfirst⟩ := h
    exact ⟨p, c, hc, hm, fun q hq => hfirst q (Nat.zero_le q) hq, hquotes⟩

theorem second_point_blamed :
    scan "1.2.3 + $" = .error (.point 3) ∧ Misplaced "1.2.3 + $".toList 3 ∧
      ∀ q < 3, ¬ Misplaced "1.2.3 + $".toList q := by
  have hscan : scan "1.2.3 + $" = .error (.point 3) := by decide +kernel
  obtain ⟨p, c, -, hm, hfirst, hquotes⟩ :=
    (scan_refuses_first_misplaced "1.2.3 + $").2 (.point 3) hscan
  have hp : ((3 : Nat) : Int) = p := hquotes.position
  obtain rfl : 3 = p := Int.ofNat.inj hp
  exact ⟨hscan, hm, hfirst⟩

end Token
end Reckoner
