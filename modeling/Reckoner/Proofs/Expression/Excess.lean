import Reckoner.Proofs.Expression.Evaluation

/-!
What reading makes of any tokens at all, be they an expression or not. Where it succeeds, it has taken
a derivation within the limit off their front. Where it fails at the limit, it blames the first token
that passes it.
-/

namespace Reckoner
open Expression

namespace Expression

def operands : Expression → List Expression
  | .number _ => []
  | .negation e => [e]
  | .operation _ l r => [l, r]

/-- No part of the expression is higher than that. -/
def Low (n : Nat) (e : Expression) : Prop :=
  ∀ a ∈ e.subtrees, a.height ≤ n

theorem low_of_height_le {n : Nat} {e : Expression} (h : e.height ≤ n) : e.Low n := by
  induction e with
  | number x => exact List.forall_mem_singleton.mpr h
  | negation e ih => exact List.forall_mem_cons.mpr ⟨h, ih (Nat.le_of_succ_le h)⟩
  | operation op l r ihl ihr =>
    have hmax := Nat.max_le.mp (Nat.le_of_succ_le h)
    exact List.forall_mem_cons.mpr ⟨h, List.forall_mem_append.mpr ⟨ihl hmax.1, ihr hmax.2⟩⟩

end Expression

/-! What has been read of a phrase. -/

/-- The way from a phrase down to a part of it that is about to be read. All that stands before the
part has been read. -/
inductive Path : Phrase → Phrase → Type where
  | here {p : Phrase} : Path p p
  | minus {q : Phrase} (t : Token) (ht : t.kind = .minus) (inner : Path .factor q) : Path .factor q
  | parens {q : Phrase} (t : Token) (ht : t.kind = .lparen) (inner : Path (.chain .sum) q) :
      Path .factor q
  | single {rank : Rank} {q : Phrase} (inner : Path rank.part q) : Path (.chain rank) q
  | link {rank : Rank} {q : Phrase} (left : Derivation (.chain rank)) (t : Token) (op : Operator)
      (ht : rank.operator? t.kind = some op) (inner : Path rank.part q) : Path (.chain rank) q

namespace Path

def tokens {p q : Phrase} : Path p q → List Token
  | here => []
  | minus t _ inner => t :: inner.tokens
  | parens t _ inner => t :: inner.tokens
  | single inner => inner.tokens
  | link left t _ _ inner => left.tokens ++ t :: inner.tokens

def level {p q : Phrase} : Path p q → Nat
  | here => 0
  | minus _ _ inner => inner.level + 1
  | parens _ _ inner => inner.level + 1
  | single inner => inner.level
  | link _ _ _ _ inner => inner.level

def completed {p q : Phrase} : Path p q → List (Except Unreadable Expression)
  | here => []
  | minus _ _ inner => inner.completed
  | parens _ _ inner => inner.completed
  | single inner => inner.completed
  | link left _ _ _ inner => left.tree :: inner.completed

end Path

def Derivation.operator? {p : Phrase} : Derivation p → Option Token
  | minus t _ _ => some t
  | link _ t _ _ _ => some t
  | _ => none

/-- The first tokens of a phrase, with `level` constructs open around it, make `t` pass a limit of `n`
levels: it opens one construct more, or it is the operator of the first expression that is higher. -/
inductive Passes (n level : Nat) (t : Token) : Phrase → List Token → Prop where
  | opening (ht : t.kind = .minus ∨ t.kind = .lparen) (hlevel : level + 1 = n + 1) :
      Passes n level t .factor [t]
  | operator {p : Phrase} (d : Derivation p) {e : Expression} (ht : d.operator? = some t)
      (he : d.tree = .ok e) (hheight : e.height = n + 1) (hlow : ∀ a ∈ e.operands, a.Low n) :
      Passes n level t p d.tokens

/-- Tokens that lead to one that passes the limit, and nothing before it does. -/
def Excess (n : Nat) (p : Phrase) (level : Nat) (ts : List Token) (t : Token) : Prop :=
  ∃ (q : Phrase) (path : Path p q) (piece : List Token), path.tokens ++ piece <+: ts ∧
    Passes n (level + path.level) t q piece ∧ ∀ x ∈ path.completed, ∃ e, x = .ok e ∧ e.Low n

structure Derivation.Front {p : Phrase} (d : Derivation p) (ts : List Token) (r : Reading) :
    Prop where
  tokens : d.tokens ++ r.rest = ts
  tree : d.tree = .ok r.tree
  height : d.height = r.height

namespace Derivation.Front

variable {p : Phrase} {rank : Rank} {ts us : List Token} {t u : Token} {r s : Reading}

theorem tree_height {d : Derivation p} (h : d.Front ts r) : r.tree.height = r.height :=
  (d.tree_height h.tree).trans h.height

theorem length_rest {d : Derivation p} (h : d.Front ts r) : r.rest.length ≤ ts.length := by
  rw [← h.tokens, List.length_append]
  exact Nat.le_add_left _ _

theorem minus {d : Derivation .factor} (h : d.Front ts r) (ht : t.kind = .minus) :
    (d.minus t ht).Front (t :: ts) ⟨.negation r.tree, r.height + 1, r.rest⟩ := by
  refine ⟨congrArg (t :: ·) h.tokens, ?_, congrArg (· + 1) h.height⟩
  rw [Derivation.tree, h.tree]
  rfl

theorem parens {d : Sentence} (h : d.Front ts r) (ht : t.kind = .lparen) (hrest : r.rest = u :: us)
    (hu : u.kind = .rparen) :
    (d.parens t ht u hu).Front (t :: ts) ⟨r.tree, r.height, us⟩ := by
  refine ⟨?_, h.tree, h.height⟩
  rw [Derivation.tokens, ← h.tokens, hrest]
  simp

theorem link {d : Derivation (.chain rank)} (h : d.Front ts r) (hrest : r.rest = t :: us)
    {op : Operator} (ht : rank.operator? t.kind = some op) {c : Derivation rank.part}
    (hc : c.Front us s) :
    (d.link t op ht c).Front ts
      ⟨.operation op r.tree s.tree, max r.height s.height + 1, s.rest⟩ := by
  refine ⟨?_, ?_, ?_⟩
  · rw [Derivation.tokens, List.append_assoc, List.cons_append, hc.tokens, ← hrest, h.tokens]
  · rw [Derivation.tree, h.tree, hc.tree]
    rfl
  · rw [Derivation.height, h.height, hc.height]

end Derivation.Front

namespace Excess

variable {n level : Nat} {p : Phrase} {rank : Rank} {ts : List Token} {t u : Token} {r : Reading}

theorem here {piece : List Token} (h : Passes n level t p piece) (hts : piece <+: ts) :
    Excess n p level ts t :=
  ⟨p, .here, piece, hts, h, List.forall_mem_nil _⟩

theorem operator {d : Derivation p} (h : d.Front ts r) (ht : d.operator? = some t)
    (hheight : r.height = n + 1) (hlow : ∀ a ∈ r.tree.operands, a.height ≤ n) :
    Excess n p level ts t :=
  here (.operator d ht h.tree (h.tree_height.trans hheight) fun a ha => low_of_height_le (hlow a ha))
    ⟨r.rest, h.tokens⟩

theorem minus (hu : u.kind = .minus) (h : Excess n .factor (level + 1) ts t) :
    Excess n .factor level (u :: ts) t := by
  obtain ⟨q, path, piece, hts, hpasses, hlow⟩ := h
  refine ⟨q, .minus u hu path, piece, List.cons_prefix_cons.mpr ⟨rfl, hts⟩, ?_, hlow⟩
  rwa [Path.level, Nat.add_comm path.level, ← Nat.add_assoc]

theorem parens (hu : u.kind = .lparen) (h : Excess n (.chain .sum) (level + 1) ts t) :
    Excess n .factor level (u :: ts) t := by
  obtain ⟨q, path, piece, hts, hpasses, hlow⟩ := h
  refine ⟨q, .parens u hu path, piece, List.cons_prefix_cons.mpr ⟨rfl, hts⟩, ?_, hlow⟩
  rwa [Path.level, Nat.add_comm path.level, ← Nat.add_assoc]

theorem single (h : Excess n rank.part level ts t) : Excess n (.chain rank) level ts t := by
  obtain ⟨q, path, piece, hts, hpasses, hlow⟩ := h
  exact ⟨q, .single path, piece, hts, hpasses, hlow⟩

theorem link {d : Derivation (.chain rank)} {us : List Token} (hd : d.Front us r)
    (hrest : r.rest = u :: ts) (hheight : r.height ≤ n) {op : Operator}
    (hu : rank.operator? u.kind = some op) (h : Excess n rank.part level ts t) :
    Excess n (.chain rank) level us t := by
  obtain ⟨q, path, piece, hts, hpasses, hlow⟩ := h
  have hleft : r.tree.Low n := low_of_height_le (hd.tree_height ▸ hheight)
  refine ⟨q, .link d u op hu path, piece, ?_, hpasses,
    List.forall_mem_cons.mpr ⟨⟨r.tree, hd.tree, hleft⟩, hlow⟩⟩
  rw [Path.tokens, ← hd.tokens, hrest, List.append_assoc, List.prefix_append_right_inj]
  exact List.cons_prefix_cons.mpr ⟨rfl, hts⟩

end Excess

/-! The rules. -/

theorem fits_iff_toNat {m : Int} {n : Nat} : Fits (some m) n ↔ n ≤ m.toNat := by
  rw [fits_some]
  omega

section Rules

variable (limit : Option Int)

/-- A reading that succeeds is of a derivation within the limit, and one that fails at the limit blames
what passes it. -/
def Surveyed (p : Phrase) (level : Nat) (ts : List Token) : Except Failure Reading → Prop
  | .ok r => ∃ d : Derivation p, d.Front ts r ∧ Fits limit r.height ∧ Fits limit (level + d.nesting)
  | .error f => ∀ m t, f = .invalid (.tooDeep m t) → limit = some m ∧ Excess m.toNat p level ts t

variable {limit} {last t : Token} {p q : Phrase} {level inner n : Nat} {ts us : List Token}

namespace Surveyed

theorem error {f : Failure} (h : ∀ m t, f ≠ .invalid (.tooDeep m t)) :
    Surveyed limit p level ts (.error f) :=
  fun m t hf => absurd hf (h m t)

theorem bind {x : Except Failure Reading} {f : Reading → Except Failure Reading}
    (hx : Surveyed limit q inner us x)
    (herror : ∀ m t, limit = some m → Excess m.toNat q inner us t → Excess m.toNat p level ts t)
    (hok : ∀ (d : Derivation q) (r : Reading), d.Front us r → Fits limit r.height →
      Fits limit (inner + d.nesting) → Surveyed limit p level ts (f r)) :
    Surveyed limit p level ts (x >>= f) := by
  cases x with
  | ok r =>
    obtain ⟨d, hd, hlow, hshallow⟩ := hx
    exact hok d r hd hlow hshallow
  | error e =>
    intro m t he
    obtain ⟨hm, hexcess⟩ := hx m t he
    exact ⟨hm, herror m t hm hexcess⟩

theorem within {next : Unit → Except Failure Reading}
    (herror : ∀ m, limit = some m → m.toNat < n + 1 → Excess m.toNat p level ts t)
    (hok : Fits limit (n + 1) → Surveyed limit p level ts (next ())) :
    Surveyed limit p level ts (withinLimit limit (n + 1) t >>= next) := by
  by_cases hn : Fits limit (n + 1)
  · rw [withinLimit_of_fits hn]
    exact hok hn
  · obtain ⟨m, rfl, hx⟩ := withinLimit_of_not_fits hn t
    rw [hx]
    intro k u hk
    cases hk
    rw [fits_iff_toNat, Nat.not_le] at hn
    exact ⟨rfl, herror m rfl hn⟩

theorem close {r : Reading} (h : ∀ u us, r.rest = u :: us → u.kind = .rparen →
      Surveyed limit p level ts (.ok ⟨r.tree, r.height, us⟩)) :
    Surveyed limit p level ts (Phrase.close last r) := by
  obtain ⟨e, k, us⟩ := r
  cases us with
  | nil => exact .error (by rintro _ _ ⟨⟩)
  | cons u us =>
    by_cases hu : u.kind = .rparen
    · have hclose : Phrase.close last ⟨e, k, u :: us⟩ = .ok ⟨e, k, us⟩ := if_pos hu
      rw [hclose]
      exact h u us rfl hu
    · rw [Phrase.close_error (t := u) rfl hu]
      exact .error (by rintro _ _ ⟨⟩)

theorem opening {next : Unit → Except Failure Reading} (ht : t.kind = .minus ∨ t.kind = .lparen)
    (hlevel : Fits limit level)
    (hok : Fits limit (level + 1) → Surveyed limit .factor level (t :: ts) (next ())) :
    Surveyed limit .factor level (t :: ts) (withinLimit limit (level + 1) t >>= next) := by
  refine .within (fun m hm hlt => ?_) hok
  subst hm
  rw [fits_iff_toNat] at hlevel
  exact .here (.opening ht (by omega)) (List.prefix_append [t] ts)

end Surveyed

variable (limit last) in
def Phrase.SurveyedOn (p : Phrase) (ts : List Token) : Prop :=
  ∀ level, Fits limit level → Surveyed limit p level ts (p.read limit last level ts)

theorem surveyed_minus (ih : Phrase.factor.SurveyedOn limit last ts) (ht : t.kind = .minus)
    (hlevel : Fits limit level) :
    Surveyed limit .factor level (t :: ts) (Phrase.factor.read limit last level (t :: ts)) := by
  rw [Phrase.read_minus limit last level ht]
  refine .opening (.inl ht) hlevel fun hopen => ?_
  refine (ih (level + 1) hopen).bind (fun m u _ => .minus ht) fun d r hd hlow hshallow => ?_
  refine .within (fun m hm hlt => ?_) fun hhigh => ?_
  · subst hm
    have hinner := fits_iff_toNat.mp hlow
    refine .operator (hd.minus ht) rfl (by dsimp only; omega) ?_
    exact List.forall_mem_singleton.mpr (hd.tree_height.trans_le hinner)
  · refine ⟨d.minus t ht, hd.minus ht, hhigh, ?_⟩
    rwa [Nat.add_assoc, Nat.add_comm 1] at hshallow

theorem surveyed_parens (ih : (Phrase.chain .sum).SurveyedOn limit last ts) (ht : t.kind = .lparen)
    (hlevel : Fits limit level) :
    Surveyed limit .factor level (t :: ts) (Phrase.factor.read limit last level (t :: ts)) := by
  rw [Phrase.read_parens limit last level ht]
  refine .opening (.inr ht) hlevel fun hopen => ?_
  refine (ih (level + 1) hopen).bind (fun m u _ => .parens ht) fun d r hd hlow hshallow => ?_
  refine .close fun u us hrest hu => ⟨d.parens t ht u hu, hd.parens ht hrest hu, hlow, ?_⟩
  rwa [Nat.add_assoc, Nat.add_comm 1] at hshallow

theorem surveyed_factor (ts : List Token)
    (ih : ∀ p us, us.length < ts.length → Phrase.SurveyedOn limit last p us) :
    Phrase.factor.SurveyedOn limit last ts := by
  intro level hlevel
  cases ts with
  | nil =>
    rw [Phrase.read_factor_nil]
    exact .error (by rintro _ _ ⟨⟩)
  | cons t ts =>
    by_cases hn : t.kind = .number
    · rw [Phrase.read_number limit last level hn]
      cases hx : Binary64.ofText? t.lexeme with
      | none => exact .error (by rintro _ _ ⟨⟩)
      | some x =>
        have htree : (Derivation.number t hn).tree = .ok (.number x) := by
          simp [Derivation.tree, hx]
        exact ⟨.number t hn, ⟨rfl, htree, rfl⟩, fits_zero limit, hlevel⟩
    by_cases hm : t.kind = .minus
    · exact surveyed_minus (ih .factor ts (Nat.lt_succ_self _)) hm hlevel
    by_cases hl : t.kind = .lparen
    · exact surveyed_parens (ih (.chain .sum) ts (Nat.lt_succ_self _)) hl hlevel
    · rw [Phrase.read_other limit last level hn hm hl]
      exact .error (by rintro _ _ ⟨⟩)

theorem surveyed_resume {rank : Rank}
    (hpart : ∀ us, us.length < n → rank.part.SurveyedOn limit last us) (hlevel : Fits limit level)
    {d : Derivation (.chain rank)} {r : Reading} (hd : d.Front ts r) (hlow : Fits limit r.height)
    (hshallow : Fits limit (level + d.nesting)) (hn : r.rest.length ≤ n) :
    Surveyed limit (.chain rank) level ts ((Phrase.chain rank).resume limit last level r) := by
  -- Each round moves one link from the rest into the derivation.
  induction hk : r.rest.length using Nat.strongRecOn generalizing d r with
  | ind k more =>
    obtain ⟨e, height, rest⟩ := r
    cases rest with
    | nil =>
      rw [Phrase.resume_nil]
      exact ⟨d, hd, hlow, hshallow⟩
    | cons t us =>
      cases ho : rank.operator? t.kind with
      | none =>
        rw [Phrase.resume_stop limit last level ho]
        exact ⟨d, hd, hlow, hshallow⟩
      | some op =>
        rw [Phrase.resume_link limit last level ho]
        refine (hpart us hn level hlevel).bind (fun m u hm h => ?_)
          fun c s hc hlowRight hshallowRight => ?_
        · subst hm
          exact h.link hd rfl (fits_iff_toNat.mp hlow) ho
        have hlink := hd.link rfl ho hc
        refine .within (fun m hm hlt => ?_) fun hhigh => ?_
        · subst hm
          have hleft : height ≤ m.toNat := fits_iff_toNat.mp hlow
          have hright := fits_iff_toNat.mp hlowRight
          refine .operator hlink rfl (by dsimp only; omega) ?_
          exact List.forall_mem_cons.mpr ⟨hd.tree_height.trans_le hleft,
            List.forall_mem_singleton.mpr (hc.tree_height.trans_le hright)⟩
        · have hshorter : s.rest.length < k := hk ▸ Nat.lt_succ_of_le hc.length_rest
          refine more s.rest.length hshorter hlink hhigh ?_ (by dsimp only; omega) rfl
          rw [Derivation.nesting, ← Nat.add_max_add_left]
          exact fits_max.mpr ⟨hshallow, hshallowRight⟩

theorem surveyed_chain (rank : Rank) (ts : List Token)
    (hpart : ∀ us, us.length ≤ ts.length → rank.part.SurveyedOn limit last us) :
    (Phrase.chain rank).SurveyedOn limit last ts := by
  intro level hlevel
  rw [Phrase.read_chain]
  refine (hpart ts (Nat.le_refl _) level hlevel).bind (fun m u _ => .single)
    fun d r hd hlow hshallow => ?_
  have hsingle : (Derivation.single d).Front ts r := ⟨hd.tokens, hd.tree, hd.height⟩
  exact surveyed_resume (fun us hu => hpart us (Nat.le_of_lt hu)) hlevel hsingle hlow hshallow
    hd.length_rest

theorem surveyed_read (p : Phrase) (ts : List Token) (hlevel : Fits limit level) :
    Surveyed limit p level ts (p.read limit last level ts) :=
  Phrase.induct_tokens surveyed_factor surveyed_chain p ts level hlevel

end Rules

theorem ofTokens_ended_or_unterminated (limit : Option Int) (ts : List Token) :
    (∃ body last, ts = body ++ [last] ∧ last.kind = .eof) ∨
      ∃ p, ofTokens limit ts = .error (.invalid (.unterminated p)) := by
  rcases List.eq_nil_or_concat ts with rfl | ⟨body, last, rfl⟩
  · exact .inr ⟨0, rfl⟩
  · rw [List.concat_eq_append]
    by_cases hlast : last.kind = .eof
    · exact .inl ⟨body, last, rfl, hlast⟩
    · refine .inr ⟨last.position + last.lexeme.length, ?_⟩
      rw [ofTokens, List.getLast?_concat]
      exact if_neg hlast

/-- A failure at a limit of `n` levels blames a construct that is exactly one level too deep: `n + 1`
minuses and parentheses are open with it, or it is the operator of an expression of height `n + 1`
with lower operands. Nothing that has been completed before is higher than `n`. -/
theorem tooDeep_blames_first_excess {n : Nat} {ts : List Token} {m : Int} {t : Token}
    (h : ofTokens (some n) ts = .error (.invalid (.tooDeep m t))) :
    m = n ∧ ∃ (q : Phrase) (path : Path (.chain .sum) q) (piece : List Token),
      path.tokens ++ piece <+: ts ∧ Passes n path.level t q piece ∧
        ∀ x ∈ path.completed, ∃ e, x = .ok e ∧ e.Low n := by
  rcases ofTokens_ended_or_unterminated (some (n : Int)) ts with
    ⟨body, last, rfl, hlast⟩ | ⟨p, hp⟩
  · have hread : Surveyed (some (n : Int)) (.chain .sum) 0 body
        ((Phrase.chain .sum).read (some n) last 0 body) := surveyed_read _ body (fits_zero _)
    rw [ofTokens_append _ hlast] at h
    cases hr : (Phrase.chain .sum).read (some n) last 0 body with
    | error f =>
      rw [hr] at hread h
      cases h
      obtain ⟨hm, q, path, piece, hbody, hpasses, hlow⟩ := hread m t rfl
      cases hm
      rw [Nat.zero_add] at hpasses
      exact ⟨rfl, q, path, piece, hbody.trans (List.prefix_append body [last]), hpasses, hlow⟩
    | ok r =>
      rw [hr, ok_bind] at h
      split at h <;> cases h
  · rw [h] at hp
    cases hp

/-- Under a limit of one level the parenthesis is blamed, which stands within a minus. Under a limit
of two both may be open, but there is still a construct too many. -/
theorem negatedGroup_excess :
    let ts := Derivation.negatedGroup.tokens ++ [⟨.eof, "", 12⟩]
    (∃ path : Path (.chain .sum) .factor, path.tokens ++ [⟨.lparen, "(", 1⟩] <+: ts ∧
        path.level = 1) ∧
      ∃ (t : Token) (q : Phrase) (path : Path (.chain .sum) q) (piece : List Token),
        path.tokens ++ piece <+: ts ∧ Passes 2 path.level t q piece := by
  intro ts
  have hlast : (Token.mk .eof "" 12).kind = .eof := rfl
  have hparens (us : List Token) :
      Phrase.factor.read (some 1) ⟨.eof, "", 12⟩ 1 (⟨.lparen, "(", 1⟩ :: us) =
        .error (.invalid (.tooDeep 1 ⟨.lparen, "(", 1⟩)) := by
    rw [Phrase.read_parens _ _ _ rfl]
    rfl
  have hfactor : Phrase.factor.read (some 1) ⟨.eof, "", 12⟩ 0 Derivation.negatedGroup.tokens =
      .error (.invalid (.tooDeep 1 ⟨.lparen, "(", 1⟩)) := by
    change Phrase.factor.read _ _ _ (⟨.minus, "-", 0⟩ :: ⟨.lparen, "(", 1⟩ :: _) = _
    rw [Phrase.read_minus _ _ _ rfl, hparens]
    rfl
  have hopening : ofTokens (some 1) ts = .error (.invalid (.tooDeep 1 ⟨.lparen, "(", 1⟩)) := by
    rw [ofTokens_append (some 1) hlast, Phrase.read_chain, Rank.part, Phrase.read_chain, Rank.part,
      hfactor]
    rfl
  obtain ⟨-, q, path, piece, hts, hpasses, -⟩ := tooDeep_blames_first_excess (n := 1) hopening
  have hbeyond : ¬ (Fits (some 2) Derivation.negatedGroup.height ∧
      Fits (some 2) Derivation.negatedGroup.nesting) := by
    rw [fits_some, fits_some]
    decide
  obtain ⟨m, t, hm, hdeep⟩ :=
    Derivation.negatedGroup.tooDeep_ofTokens hlast Derivation.negatedGroup_tree hbeyond
  obtain ⟨-, q', path', piece', hts', hpasses', -⟩ := tooDeep_blames_first_excess (n := 2) hdeep
  refine ⟨?_, t, q', path', piece', hts', hpasses'⟩
  cases hpasses with
  | opening ht hlevel => exact ⟨path, hts, Nat.succ.inj hlevel⟩
  | operator d ht =>
    cases d with
    | minus u hu =>
      cases ht
      cases hu
    | @link rank left u op hu right =>
      cases ht
      cases rank <;> cases hu
    | _ => cases ht

end Reckoner
