import Reckoner.Proofs.Expression.Source

/-!
The tokens of a text by their places alone. They lie in the text one behind the other, a number is as
long as it can be, and whatever they leave uncovered is blank. No scan is mentioned in the definition;
`scan_iff_tiling` says that the scan finds exactly these tokens.
-/

namespace Reckoner
open Text

namespace Token

/-- How the tokens of a kind are spelled. Nothing spells the end of input. -/
inductive Spelled : TokenKind → List Char → Prop where
  | plus : Spelled .plus ['+']
  | minus : Spelled .minus ['-']
  | star : Spelled .star ['*']
  | slash : Spelled .slash ['/']
  | lparen : Spelled .lparen ['(']
  | rparen : Spelled .rparen [')']
  | number {run : List Char} (h : Numeral run) : Spelled .number run

def stop (t : Token) : Int :=
  t.position + (t.lexeme.length : Int)

/-- The tokens that the text `cs` consists of from the place `start` on. -/
structure Tiling (cs : List Char) (start : Nat) (ts : List Token) : Prop where
  ordered : ts.Pairwise fun t u => t.position < u.position ∧ t.stop ≤ u.position
  spelled : ∀ t ∈ ts, Spelled t.kind t.lexeme.toList
  placed : ∀ t ∈ ts, ∃ p : Nat, start ≤ p ∧ t.position = p ∧
    (cs.drop p).take t.lexeme.length = t.lexeme.toList
  before : ∀ t ∈ ts, t.kind = .number → ∀ p : Nat, start ≤ p → t.position = p + 1 →
    ∀ c ∈ cs[p]?, isNumeric c = false
  after : ∀ t ∈ ts, t.kind = .number → ∀ p : Nat, t.stop = p → ∀ c ∈ cs[p]?, isNumeric c = false
  blank : ∀ (p : Nat), start ≤ p → (∀ t ∈ ts, ¬ (t.position ≤ p ∧ (p : Int) < t.stop)) →
    ∀ c ∈ cs[p]?, isBlank c = true

variable {cs rest piece : List Char} {start : Nat} {ts body : List Token} {t : Token} {c : Char}

theorem spelled_ofChar? {kind : TokenKind} (h : TokenKind.ofChar? c = some kind) :
    Spelled kind [c] := by
  unfold TokenKind.ofChar? at h
  split at h <;> cases h <;> constructor

namespace Spelled

variable {kind : TokenKind}

theorem number_or_symbol (h : Spelled kind piece) :
    (kind = .number ∧ Numeral piece) ∨ ∃ c, piece = [c] ∧ TokenKind.ofChar? c = some kind := by
  cases h with
  | number h => exact .inl ⟨rfl, h⟩
  | _ => exact .inr ⟨_, rfl, rfl⟩

theorem ne_nil (h : Spelled kind piece) : piece ≠ [] := by
  rcases h.number_or_symbol with ⟨-, h⟩ | ⟨c, rfl, -⟩
  · exact h.ne_nil
  · exact List.cons_ne_nil c []

theorem numeric (h : Spelled .number piece) : ∀ c ∈ piece, isNumeric c = true := by
  cases h with
  | number h => exact h.numeric

theorem ne_eof (h : Spelled kind piece) : kind ≠ .eof := by
  cases h <;> decide

theorem not_blank (h : Spelled kind piece) (hc : c ∈ piece) : isBlank c = false := by
  rcases h.number_or_symbol with ⟨-, h⟩ | ⟨d, rfl, hd⟩
  · exact isBlank_of_isNumeric (h.numeric c hc)
  · rw [List.mem_singleton.mp hc]
    exact isBlank_of_ofChar? hd

end Spelled

theorem toList_toString (c : Char) : c.toString.toList = [c] :=
  String.toList_singleton c

theorem endsNumber_dropWhile (cs : List Char) : EndsNumber (cs.dropWhile isNumeric) := by
  intro c hc
  have := List.head?_dropWhile_not isNumeric cs
  rw [hc] at this
  exact this

theorem getElem?_of_drop (h : cs.drop start = c :: rest) : cs[start]? = some c := by
  have h0 : (cs.drop start)[0]? = cs[start + 0]? := List.getElem?_drop
  rw [h] at h0
  exact h0.symm

theorem drop_of_drop (h : cs.drop start = piece ++ rest) :
    cs.drop (start + piece.length) = rest := by
  rw [← List.drop_drop, h, List.drop_left]

theorem tail_of_drop (h : cs.drop start = c :: rest) : cs.drop (start + 1) = rest := by
  rw [← List.drop_drop, h, List.drop_one, List.tail_cons]

theorem stop_eq (hpos : t.position = start) : t.stop = (start + t.lexeme.length : Nat) := by
  rw [stop, hpos]
  rfl

theorem scanFrom_token (ht : Spelled t.kind t.lexeme.toList) (hpos : t.position = start)
    (hend : t.kind = .number → EndsNumber rest) :
    scanFrom start (t.lexeme.toList ++ rest) =
      (t :: ·) <$> scanFrom (start + t.lexeme.length) rest := by
  obtain ⟨kind, lexeme, position⟩ := t
  obtain rfl : position = start := hpos
  rcases ht.number_or_symbol with ⟨rfl, hrun⟩ | ⟨c, hc, hk⟩
  · have hscan : scanFrom start (lexeme.toList ++ rest) = _ := scanFrom_numeral hrun (hend rfl)
    rwa [String.ofList_toList, String.length_toList] at hscan
  · obtain rfl : lexeme = c.toString := by rw [← String.toList_inj, hc, toList_toString]
    have hlen : c.toString.length = 1 := by rw [← String.length_toList, hc, List.length_singleton]
    dsimp only
    rw [hc, hlen]
    exact scanFrom_symbol hk

namespace Tiling

theorem start_le (h : Tiling cs start ts) (ht : t ∈ ts) : (start : Int) ≤ t.position := by
  obtain ⟨p, hp, hpos, -⟩ := h.placed t ht
  omega

theorem first_char (h : Tiling cs start ts) (ht : t ∈ ts) :
    ∃ (p : Nat) (c : Char), t.position = p ∧ cs[p]? = some c ∧ c ∈ t.lexeme.toList := by
  obtain ⟨p, -, hpos, hslice⟩ := h.placed t ht
  obtain ⟨c, ds, hds⟩ := List.exists_cons_of_ne_nil (h.spelled t ht).ne_nil
  have hlen : t.lexeme.length = ds.length + 1 := by
    rw [← String.length_toList, hds, List.length_cons]
  refine ⟨p, c, hpos, ?_, by rw [hds]; exact List.mem_cons_self⟩
  rw [hds, hlen] at hslice
  have hd : cs.drop p = c :: (cs.drop p).drop 1 := by
    cases hcs : cs.drop p with
    | nil => simp [hcs] at hslice
    | cons d rest =>
      rw [hcs, List.take_succ_cons, List.cons.injEq] at hslice
      rw [hslice.1]
      rfl
  exact getElem?_of_drop hd

theorem head (h : Tiling cs start ts) (hd : cs.drop start = c :: rest) (hc : isBlank c = false) :
    ∃ t body tail, ts = t :: body ∧ t.position = start ∧ c :: rest = t.lexeme.toList ++ tail ∧
      (t.kind = .number → EndsNumber tail) := by
  obtain ⟨t, ht, hle, hlt⟩ : ∃ t ∈ ts, t.position ≤ start ∧ (start : Int) < t.stop := by
    refine Classical.byContradiction fun hno => ?_
    have hb := h.blank start (Nat.le_refl start) (fun t ht hp => hno ⟨t, ht, hp⟩) c
      (getElem?_of_drop hd)
    rw [hc] at hb
    cases hb
  have hpos : t.position = start := Int.le_antisymm hle (h.start_le ht)
  obtain ⟨u, body, rfl⟩ := List.exists_cons_of_ne_nil (List.ne_nil_of_mem ht)
  have hut : t = u := by
    rcases List.mem_cons.mp ht with hu | hu
    · exact hu
    · have := ((List.pairwise_cons.mp h.ordered).1 t hu).1
      have := h.start_le (List.mem_cons_self (a := u) (l := body))
      omega
  subst hut
  obtain ⟨p, -, hp, hslice⟩ := h.placed t ht
  have hstart : p = start := by omega
  rw [hstart, hd] at hslice
  have htail : c :: rest = t.lexeme.toList ++ (c :: rest).drop t.lexeme.length := by
    rw [← hslice, List.take_append_drop]
  refine ⟨t, body, _, rfl, hpos, htail, fun hk d hdtail => ?_⟩
  rw [← hd, List.head?_drop, List.getElem?_drop] at hdtail
  exact h.after t ht hk _ (stop_eq hpos) d hdtail

theorem nil_iff (hd : cs.drop start = []) : Tiling cs start ts ↔ ts = [] := by
  have hlen := List.drop_eq_nil_iff.mp hd
  constructor
  · intro h
    cases ts with
    | nil => rfl
    | cons t body =>
      obtain ⟨p, hp, -, hslice⟩ := h.placed t List.mem_cons_self
      rw [List.drop_eq_nil_of_le (Nat.le_trans hlen hp), List.take_nil] at hslice
      exact absurd hslice.symm (h.spelled t List.mem_cons_self).ne_nil
  · rintro rfl
    refine ⟨List.Pairwise.nil, by simp, by simp, by simp, by simp, ?_⟩
    intro p hp _ c hc
    rw [List.getElem?_eq_none (Nat.le_trans hlen hp)] at hc
    cases hc

theorem blank_iff (hd : cs.drop start = c :: rest) (hc : isBlank c = true) :
    Tiling cs start ts ↔ Tiling cs (start + 1) ts := by
  have hat : ∀ d ∈ cs[start]?, d = c := by
    intro d hdp
    rw [getElem?_of_drop hd] at hdp
    exact (Option.some.inj hdp).symm
  have hn := isNumeric_of_isBlank hc
  constructor
  · intro h
    refine ⟨h.ordered, h.spelled, ?_, fun t ht hk p hp => h.before t ht hk p (Nat.le_of_succ_le hp),
      h.after, fun p hp => h.blank p (Nat.le_of_succ_le hp)⟩
    intro t ht
    obtain ⟨p, hp, hpos, hslice⟩ := h.placed t ht
    refine ⟨p, Nat.lt_of_le_of_ne hp ?_, hpos, hslice⟩
    rintro rfl
    obtain ⟨q, d, hq, hdq, hmem⟩ := h.first_char ht
    have hqp : q = start := by omega
    have hb := (h.spelled t ht).not_blank hmem
    rw [hat d (hqp ▸ hdq), hc] at hb
    cases hb
  · intro h
    refine ⟨h.ordered, h.spelled, ?_, ?_, h.after, ?_⟩
    · intro t ht
      obtain ⟨p, hp, hslice⟩ := h.placed t ht
      exact ⟨p, Nat.le_of_succ_le hp, hslice⟩
    · intro t ht hk p hp hpos d hdp
      rcases Nat.eq_or_lt_of_le hp with rfl | hlt
      · rw [hat d hdp, hn]
      · exact h.before t ht hk p hlt hpos d hdp
    · intro p hp hfree d hdp
      rcases Nat.eq_or_lt_of_le hp with rfl | hlt
      · rw [hat d hdp, hc]
      · exact h.blank p hlt hfree d hdp

theorem tail (h : Tiling cs start (t :: body)) (hpos : t.position = start) :
    Tiling cs (start + t.lexeme.length) body := by
  have hstop := stop_eq hpos
  have hnext := (List.pairwise_cons.mp h.ordered).1
  refine ⟨(List.pairwise_cons.mp h.ordered).2, fun u hu => h.spelled u (List.mem_cons_of_mem t hu),
    ?_, fun u hu hk p hp => h.before u (List.mem_cons_of_mem t hu) hk p (by omega),
    fun u hu => h.after u (List.mem_cons_of_mem t hu), ?_⟩
  · intro u hu
    obtain ⟨p, -, hpu, hslice⟩ := h.placed u (List.mem_cons_of_mem t hu)
    exact ⟨p, by have := (hnext u hu).2; omega, hpu, hslice⟩
  · intro p hp hfree
    refine h.blank p (by omega) fun u hu => ?_
    rcases List.mem_cons.mp hu with rfl | hu
    · omega
    · exact hfree u hu

theorem symbol_of_number_next {p : Nat} {u : Token} (ht : Spelled t.kind piece)
    (h : Tiling cs p body) (hend : t.kind = .number → EndsNumber (cs.drop p)) (hu : u ∈ body)
    (hk : u.kind = .number) (hpos : u.position = p) :
    ∃ e, piece = [e] ∧ TokenKind.ofChar? e = some t.kind := by
  rcases ht.number_or_symbol with ⟨hnumber, -⟩ | hsymbol
  · obtain ⟨q, e, hq, he, hmem⟩ := h.first_char hu
    obtain rfl : q = p := by omega
    have hnot : isNumeric e = false := hend hnumber e (by rwa [List.head?_drop])
    have hspelled := h.spelled u hu
    rw [hk] at hspelled
    rw [hspelled.numeric e hmem] at hnot
    cases hnot
  · exact hsymbol

theorem cons (ht : Spelled t.kind t.lexeme.toList) (hpos : t.position = start)
    (hd : cs.drop start = t.lexeme.toList ++ rest) (hend : t.kind = .number → EndsNumber rest)
    (h : Tiling cs (start + t.lexeme.length) body) : Tiling cs start (t :: body) := by
  have hstop := stop_eq hpos
  have hrest := drop_of_drop hd
  have hlen : t.lexeme.toList.length = t.lexeme.length := String.length_toList
  have hpos' := List.length_pos_iff.mpr ht.ne_nil
  rw [hlen] at hrest hpos'
  rw [← hrest] at hend
  refine ⟨List.pairwise_cons.mpr ⟨?_, h.ordered⟩, ?_, ?_, ?_, ?_, ?_⟩
  · intro u hu
    have := h.start_le hu
    omega
  · rw [List.forall_mem_cons]
    exact ⟨ht, h.spelled⟩
  · rw [List.forall_mem_cons]
    refine ⟨⟨start, Nat.le_refl start, hpos, by rw [hd, ← hlen, List.take_left]⟩, ?_⟩
    intro u hu
    obtain ⟨p, hp, hslice⟩ := h.placed u hu
    exact ⟨p, by omega, hslice⟩
  · rw [List.forall_mem_cons]
    refine ⟨fun _ p hp hp' => by omega, ?_⟩
    intro u hu hk p hp hpu d hdp
    by_cases hlt : start + t.lexeme.length ≤ p
    · exact h.before u hu hk p hlt hpu d hdp
    -- The number `u` follows directly behind `t`, whose only character is the one before `u`.
    · have hle := h.start_le hu
      obtain ⟨e, he, hsymbol⟩ := symbol_of_number_next ht h hend hu hk (by omega)
      have hone : t.lexeme.length = 1 := by
        rw [← hlen, he]
        rfl
      obtain rfl : p = start := by omega
      rw [he, List.singleton_append] at hd
      rw [getElem?_of_drop hd] at hdp
      cases hdp
      exact isNumeric_of_ofChar? hsymbol
  · rw [List.forall_mem_cons]
    refine ⟨?_, h.after⟩
    intro hk p hp d hdp
    obtain rfl : p = start + t.lexeme.length := by omega
    exact hend hk d (by rwa [List.head?_drop])
  · intro p hp hfree
    rw [List.forall_mem_cons] at hfree
    exact h.blank p (by have := hfree.1; omega) hfree.2

theorem cons_number {run : List Char} (h : Numeral run) (hd : cs.drop start = run ++ rest)
    (hend : EndsNumber rest) (htail : Tiling cs (start + run.length) body) :
    Tiling cs start (⟨.number, String.ofList run, start⟩ :: body) := by
  have ht : Spelled .number (String.ofList run).toList := by
    rw [String.toList_ofList]
    exact .number h
  refine cons ht rfl (by rwa [String.toList_ofList]) (fun _ => hend) ?_
  rwa [String.length_ofList]

theorem cons_symbol {kind : TokenKind} (h : TokenKind.ofChar? c = some kind)
    (hd : cs.drop start = c :: rest) (htail : Tiling cs (start + 1) body) :
    Tiling cs start (⟨kind, c.toString, start⟩ :: body) := by
  have hc : c.toString.toList = [c] := toList_toString c
  have ht : Spelled kind c.toString.toList := by
    rw [hc]
    exact spelled_ofChar? h
  refine cons ht rfl (by rwa [hc]) (fun hn => absurd hn (ofChar?_kind h).2) ?_
  rwa [← String.length_toList, hc]

theorem of_scanFrom {us : List Token} (hd : cs.drop start = rest)
    (h : scanFrom start rest = .ok us) :
    ∃ body, us = body ++ [⟨.eof, "", (start + rest.length : Nat)⟩] ∧ Tiling cs start body := by
  fun_induction scanFrom start rest generalizing us
  case case1 start =>
    cases h
    exact ⟨[], rfl, (nil_iff hd).mpr rfl⟩
  case case2 start c rest hb ih =>
    obtain ⟨body, rfl, hbody⟩ := ih (tail_of_drop hd) h
    refine ⟨body, ?_, (blank_iff hd hb).mpr hbody⟩
    rw [List.length_cons, Nat.add_comm rest.length, ← Nat.add_assoc]
  case case3 => cases h
  case case4 start c rest hb hn run hi ih =>
    obtain ⟨vs, hvs, h⟩ := bind_eq_ok h
    cases h
    have hsplit : c :: rest = run ++ rest.dropWhile isNumeric := run_append_rest c rest
    rw [hsplit] at hd
    obtain ⟨body, rfl, hbody⟩ := ih (drop_of_drop hd) hvs
    refine ⟨⟨.number, String.ofList run, start⟩ :: body, ?_, ?_⟩
    · rw [hsplit, List.length_append, ← Nat.add_assoc]
      rfl
    · exact cons_number (numeral_run hn hi) hd (endsNumber_dropWhile rest) hbody
  case case5 => cases h
  case case6 start c rest hb hn kind hk ih =>
    obtain ⟨vs, hvs, h⟩ := bind_eq_ok h
    cases h
    obtain ⟨body, rfl, hbody⟩ := ih (tail_of_drop hd) hvs
    refine ⟨⟨kind, c.toString, start⟩ :: body, ?_, cons_symbol hk hd hbody⟩
    rw [List.length_cons, Nat.add_comm rest.length, ← Nat.add_assoc]
    rfl

theorem scanFrom_eq (h : Tiling cs start body) (hd : cs.drop start = rest) :
    scanFrom start rest = .ok (body ++ [⟨.eof, "", (start + rest.length : Nat)⟩]) := by
  -- A token takes several characters at once, so the induction is on the length of the text.
  induction hn : rest.length using Nat.strongRecOn generalizing start rest body with
  | ind n ih =>
    subst hn
    cases rest with
    | nil =>
      rw [(nil_iff hd).mp h, scanFrom_nil]
      rfl
    | cons c rest =>
      by_cases hb : isBlank c = true
      · have hnext := (blank_iff hd hb).mp h
        rw [scanFrom_blank hb, ih rest.length (Nat.lt_succ_self _) hnext
          (tail_of_drop hd) rfl, List.length_cons, Nat.add_right_comm, Nat.add_assoc]
      · obtain ⟨t, body, tail, rfl, hpos, hsplit, hend⟩ := h.head hd (Bool.eq_false_iff.mpr hb)
        have ht := h.spelled t List.mem_cons_self
        have hlen : (c :: rest).length = t.lexeme.length + tail.length := by
          rw [hsplit, List.length_append, String.length_toList]
        have hlt : tail.length < (c :: rest).length := by
          rw [hsplit, List.length_append]
          exact Nat.lt_add_of_pos_left (List.length_pos_iff.mpr ht.ne_nil)
        have hrest : cs.drop (start + t.lexeme.length) = tail := by
          rw [← String.length_toList]
          exact drop_of_drop (hd.trans hsplit)
        rw [hlen, hsplit, scanFrom_token ht hpos hend, ih _ hlt (h.tail hpos) hrest rfl,
          ← Nat.add_assoc]
        rfl

end Tiling

/-- The tokens of a text are the only ones that tile it, with the end of input behind them. -/
theorem scan_iff_tiling (source : String) (ts : List Token) :
    scan source = .ok ts ↔
      ∃ body, ts = body ++ [⟨.eof, "", source.length⟩] ∧ (∀ t ∈ body, t.kind ≠ .eof) ∧
        Tiling source.toList 0 body := by
  have hd : source.toList.drop 0 = source.toList := rfl
  constructor
  · intro h
    obtain ⟨body, hts, hbody⟩ := Tiling.of_scanFrom hd h
    rw [Nat.zero_add, String.length_toList] at hts
    exact ⟨body, hts, fun t ht => (hbody.spelled t ht).ne_eof, hbody⟩
  · rintro ⟨body, rfl, -, hbody⟩
    have h := hbody.scanFrom_eq hd
    rwa [Nat.zero_add, String.length_toList] at h

end Token
end Reckoner
