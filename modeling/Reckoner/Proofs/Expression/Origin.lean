import Reckoner.Proofs.Expression.Misplacement

/-!
What a refused source is blamed on. The rules blame one of the tokens that they are given, the scan
blames a character; so a fault lies where the source has something to show, or at its end.
-/

namespace Reckoner
open Text Expression

def Invalid.token? : Invalid → Option Token
  | .expectedOperand t | .expectedClosing t | .trailing t | .tooDeep _ t => some t
  | .character _ _ | .point _ | .unterminated _ | .tooLong _ => none

theorem Invalid.position_eq_of_token? {i : Invalid} {t : Token} (h : i.token? = some t) :
    i.position = t.position := by
  cases i <;> cases h <;> rfl

inductive Failure.Blames (ts : List Token) : Failure → Prop where
  | token {t : Token} {i : Invalid} (ht : t ∈ ts) (hi : i.token? = some t) : Blames ts (.invalid i)
  | lexeme {t : Token} (ht : t ∈ ts) (hr : ¬ t.Readable) : Blames ts (.unreadable ⟨t.lexeme⟩)

theorem Failure.Blames.mono {ts us : List Token} (h : us ⊆ ts) {f : Failure} (hf : f.Blames us) :
    f.Blames ts := by
  cases hf with
  | token ht hi => exact .token (h ht) hi
  | lexeme ht hr => exact .lexeme (h ht) hr

/-! The rules. -/

/-- Reading the tokens `ts` leaves an end of them, or fails for one of them or the one behind. -/
def Traced (last : Token) (ts : List Token) : Except Failure Reading → Prop
  | .ok r => r.rest <:+ ts
  | .error f => f.Blames (ts ++ [last])

namespace Traced

variable {last t : Token} {ts us : List Token} {x : Except Failure Reading} {limit : Option Int}
  {n : Nat}

theorem mono (h : us <:+ ts) (hx : Traced last us x) : Traced last ts x := by
  cases x with
  | ok r => exact List.IsSuffix.trans hx h
  | error f =>
    have hus : us ++ [last] ⊆ ts ++ [last] :=
      List.append_subset.mpr ⟨List.subset_append_of_subset_left [last] h.subset,
        List.subset_append_right ts [last]⟩
    exact Failure.Blames.mono hus hx

theorem bind {f : Reading → Except Failure Reading} (h : us <:+ ts) (hx : Traced last us x)
    (hf : ∀ r : Reading, r.rest <:+ us → Traced last ts (f r)) : Traced last ts (x >>= f) := by
  cases x with
  | ok r => exact hf r hx
  | error e => exact hx.mono h

theorem within {next : Unit → Except Failure Reading} (ht : t ∈ ts)
    (hx : Traced last ts (next ())) : Traced last ts (withinLimit limit n t >>= next) := by
  cases limit with
  | none => exact hx
  | some m =>
    by_cases hm : m < n
    · rw [withinLimit, if_pos hm]
      exact .token (List.mem_append_left [last] ht) rfl
    · rw [withinLimit, if_neg hm]
      exact hx

theorem close (r : Reading) : Traced last r.rest (Phrase.close last r) := by
  obtain ⟨e, k, ts⟩ := r
  cases ts with
  | nil => exact .token (List.mem_singleton_self last) rfl
  | cons t ts =>
    by_cases ht : t.kind = .rparen
    · have hclose : Phrase.close last ⟨e, k, t :: ts⟩ = .ok ⟨e, k, ts⟩ := if_pos ht
      rw [hclose]
      exact List.suffix_cons t ts
    · rw [Phrase.close_error (t := t) rfl ht]
      exact .token List.mem_cons_self rfl

end Traced

section Rules

variable (limit : Option Int) (last : Token)

def Phrase.TracedOn (p : Phrase) (ts : List Token) : Prop :=
  ∀ depth, Traced last ts (p.read limit last depth ts)

variable {limit last}

theorem traced_factor (ts : List Token)
    (ih : ∀ p us, us.length < ts.length → Phrase.TracedOn limit last p us) :
    Phrase.factor.TracedOn limit last ts := by
  intro depth
  cases ts with
  | nil =>
    rw [Phrase.read_factor_nil]
    exact .token (List.mem_singleton_self last) rfl
  | cons t ts =>
    have ht : t ∈ t :: ts := List.mem_cons_self
    have hts : ts <:+ t :: ts := List.suffix_cons t ts
    have hlt : ts.length < (t :: ts).length := Nat.lt_succ_self _
    by_cases hn : t.kind = .number
    · rw [Phrase.read_number limit last depth hn]
      cases hx : Binary64.ofText? t.lexeme with
      | some x => exact hts
      | none =>
        have hr : ¬ t.Readable := fun h => by simpa [hx] using h hn
        exact .lexeme (List.mem_append_left [last] ht) hr
    by_cases hm : t.kind = .minus
    · rw [Phrase.read_minus limit last depth hm]
      refine Traced.within ht ((ih .factor ts hlt (depth + 1)).bind hts fun r hr => ?_)
      exact Traced.within ht (List.IsSuffix.trans hr hts)
    by_cases hl : t.kind = .lparen
    · rw [Phrase.read_parens limit last depth hl]
      refine Traced.within ht ((ih (.chain .sum) ts hlt (depth + 1)).bind hts fun r hr => ?_)
      exact (Traced.close r).mono (hr.trans hts)
    · rw [Phrase.read_other limit last depth hn hm hl]
      exact .token (List.mem_append_left [last] ht) rfl

theorem traced_resume {rank : Rank} {n depth : Nat}
    (hpart : ∀ us, us.length < n → rank.part.TracedOn limit last us) (r : Reading)
    (hn : r.rest.length ≤ n) :
    Traced last r.rest ((Phrase.chain rank).resume limit last depth r) := by
  induction n generalizing r with
  | zero =>
    obtain ⟨e, k, ts⟩ := r
    cases List.length_eq_zero_iff.mp (Nat.le_zero.mp hn)
    rw [Phrase.resume_nil]
    exact List.suffix_rfl
  | succ n ih =>
    obtain ⟨e, k, ts⟩ := r
    cases ts with
    | nil =>
      rw [Phrase.resume_nil]
      exact List.suffix_rfl
    | cons t ts =>
      cases ho : rank.operator? t.kind with
      | none =>
        rw [Phrase.resume_stop limit last depth ho]
        exact List.suffix_rfl
      | some op =>
        have hlt : ts.length < n + 1 := hn
        have hts : ts <:+ t :: ts := List.suffix_cons t ts
        rw [Phrase.resume_link limit last depth ho]
        refine (hpart ts hlt depth).bind hts fun r hr => Traced.within List.mem_cons_self ?_
        have hr' : r.rest.length ≤ n := Nat.le_trans hr.length_le (Nat.le_of_lt_succ hlt)
        have hmore := ih (fun us hu => hpart us (Nat.lt_succ_of_lt hu))
          ⟨.operation op e r.tree, max k r.height + 1, r.rest⟩ hr'
        exact hmore.mono (hr.trans hts)

theorem traced_chain (rank : Rank) (ts : List Token)
    (hpart : ∀ us, us.length ≤ ts.length → rank.part.TracedOn limit last us) :
    (Phrase.chain rank).TracedOn limit last ts := by
  intro depth
  rw [Phrase.read_chain]
  refine (hpart ts (Nat.le_refl _) depth).bind List.suffix_rfl fun r hr => ?_
  exact (traced_resume (fun us hu => hpart us (Nat.le_of_lt hu)) r hr.length_le).mono hr

theorem traced (p : Phrase) (ts : List Token) : p.TracedOn limit last ts :=
  Phrase.induct_tokens traced_factor traced_chain p ts

theorem ofTokens_blames {body : List Token} (hlast : last.kind = .eof) {f : Failure}
    (h : ofTokens limit (body ++ [last]) = .error f) : f.Blames (body ++ [last]) := by
  have hread : Traced last body ((Phrase.chain .sum).read limit last 0 body) :=
    traced (.chain .sum) body 0
  rw [ofTokens_append limit hlast] at h
  cases hr : (Phrase.chain .sum).read limit last 0 body with
  | error g =>
    rw [hr] at hread h
    cases h
    exact hread
  | ok r =>
    rw [hr] at hread
    rw [hr, ok_bind] at h
    split at h
    · cases h
    · cases h
      refine .token ?_ rfl
      cases hrest : r.rest with
      | nil => exact List.mem_append_right body (List.mem_singleton_self last)
      | cons t ts =>
        have ht : t ∈ r.rest := by
          rw [hrest]
          exact List.mem_cons_self
        exact List.mem_append_left [last] (List.IsSuffix.subset hread ht)

end Rules

/-! The scan. -/

namespace Token

theorem Spelled.readable {t : Token} (h : Spelled t.kind t.lexeme.toList) : t.Readable := by
  refine readable_of_numeral fun hk => ?_
  rw [hk] at h
  cases h with
  | number h => exact h

theorem scan_blames {source : String} {i : Invalid} (h : scan source = .error i) :
    ∃ (p : Nat) (c : Char), i.position = p ∧ source.toList[p]? = some c ∧ isBlank c = false := by
  have hreports := reports_scan source
  rw [h] at hreports
  obtain ⟨p, c, -, hc, hm, hquotes, -⟩ := hreports
  exact ⟨p, c, hquotes.position, hc, hm.not_blank hc⟩

end Token

/-! Sources. -/

def Invalid.ArisesFrom (source : String) (i : Invalid) : Prop :=
  Token.scan source = .error i ∨ ∃ ts t, Token.scan source = .ok ts ∧ t ∈ ts ∧ i.token? = some t

/-- The fault lies within the source, at a character that is not blank, or at the end of the source
where the end of input is blamed. -/
structure Invalid.Within (source : String) (i : Invalid) : Prop where
  nonneg : 0 ≤ i.position
  le_length : i.position ≤ source.length
  visible : ∀ p : Nat, i.position = p → ∀ c ∈ source.toList[p]?, isBlank c = false
  at_end : i.position = source.length → ∃ t ∈ i.token?, t.kind = .eof
  arises : i.ArisesFrom source

variable {limit : Option Int} {source : String} {i : Invalid}

theorem Invalid.within_of_char {p : Nat} {c : Char} (hp : i.position = p)
    (hc : source.toList[p]? = some c) (hb : isBlank c = false) (hi : i.ArisesFrom source) :
    i.Within source := by
  obtain ⟨hlt, -⟩ := List.getElem?_eq_some_iff.mp hc
  rw [String.length_toList] at hlt
  refine ⟨by omega, by omega, ?_, by omega, hi⟩
  intro q hq d hd
  obtain rfl : q = p := by omega
  rw [hc] at hd
  cases hd
  exact hb

theorem Invalid.within_of_eof {t : Token} (ht : i.token? = some t) (hk : t.kind = .eof)
    (hp : i.position = source.length) (hi : i.ArisesFrom source) : i.Within source := by
  refine ⟨by omega, by omega, ?_, fun _ => ⟨t, ht, hk⟩, hi⟩
  intro p hp' c hc
  have hlen : source.toList.length ≤ p := by
    rw [String.length_toList]
    omega
  rw [List.getElem?_eq_none hlen] at hc
  cases hc

theorem ofText_blames {f : Failure} (h : ofText limit source = .error f) :
    ∃ i : Invalid, f = .invalid i ∧ i.Within source := by
  have hd : source.toList.drop 0 = source.toList := rfl
  unfold ofText at h
  split at h
  · next j hj =>
    cases h
    obtain ⟨p, c, hp, hc, hb⟩ := Token.scan_blames hj
    exact ⟨j, rfl, Invalid.within_of_char hp hc hb (.inl hj)⟩
  · next ts hts =>
    obtain ⟨body, rfl, hbody⟩ := Token.Tiling.of_scanFrom hd hts
    rw [Nat.zero_add, String.length_toList] at h hts
    cases ofTokens_blames rfl h with
    | @token t j ht hj =>
      have harises : j.ArisesFrom source := .inr ⟨_, t, hts, ht, hj⟩
      have hpos := Invalid.position_eq_of_token? hj
      refine ⟨j, rfl, ?_⟩
      rcases List.mem_append.mp ht with ht | ht
      · obtain ⟨p, c, hp, hc, hmem⟩ := hbody.first_char ht
        have hvisible := (hbody.spelled t ht).not_blank hmem
        exact Invalid.within_of_char (hpos.trans hp) hc hvisible harises
      · rw [List.mem_singleton.mp ht] at hpos hj
        exact Invalid.within_of_eof hj rfl hpos harises
    | @lexeme t ht hr =>
      rcases List.mem_append.mp ht with ht | ht
      · exact absurd (hbody.spelled t ht).readable hr
      · rw [List.mem_singleton.mp ht] at hr
        exact absurd (nofun : Token.Readable ⟨.eof, "", source.length⟩) hr

end Reckoner
