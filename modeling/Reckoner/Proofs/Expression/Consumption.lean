import Reckoner.Proofs.Expression.Excess

/-!
How much of a list of tokens makes up the tree that is read off it, where an end of input may stand
anywhere in the list. Reading stops at the first one, and only one at the end of the list is asked for.
-/

namespace Reckoner
open Expression

theorem Derivation.kind_ne_eof {p : Phrase} (d : Derivation p) : ∀ t ∈ d.tokens, t.kind ≠ .eof := by
  have hne : ∀ {t : Token} {k : TokenKind}, t.kind = k → k ≠ .eof → t.kind ≠ .eof :=
    fun ht hk => ht ▸ hk
  induction d with
  | number t ht => exact List.forall_mem_singleton.mpr (hne ht (by decide))
  | minus t ht inner ih => exact List.forall_mem_cons.mpr ⟨hne ht (by decide), ih⟩
  | parens t ht inner u hu ih =>
    refine List.forall_mem_cons.mpr ⟨hne ht (by decide), List.forall_mem_append.mpr ⟨ih, ?_⟩⟩
    exact List.forall_mem_singleton.mpr (hne hu (by decide))
  | single inner ih => exact ih
  | link left t op ht right ihl ihr =>
    refine List.forall_mem_append.mpr ⟨ihl, List.forall_mem_cons.mpr ⟨fun hk => ?_, ihr⟩⟩
    rw [hk, Rank.operator?_eof] at ht
    cases ht

/-- The tokens in front of the first end of input. -/
def beforeEnd (ts : List Token) : List Token :=
  ts.takeWhile (·.kind != .eof)

variable {limit : Option Int} {ts pre post body : List Token} {last : Token}

theorem beforeEnd_eq (hpre : ∀ t ∈ pre, t.kind ≠ .eof) (hpost : (post.headD last).kind = .eof) :
    beforeEnd (pre ++ post ++ [last]) = pre := by
  have hall : ∀ t ∈ pre, (t.kind != .eof) = true := fun t ht => bne_iff_ne.mpr (hpre t ht)
  rw [beforeEnd, List.append_assoc, List.takeWhile_append_of_pos hall]
  cases post with
  | nil =>
    have hlast : last.kind = .eof := hpost
    simp [hlast]
  | cons t post =>
    have ht : t.kind = .eof := hpost
    simp [ht]

theorem exists_behind_beforeEnd (hlast : last.kind = .eof) (body : List Token) :
    ∃ post, body = beforeEnd (body ++ [last]) ++ post ∧ (post.headD last).kind = .eof := by
  induction body with
  | nil => exact ⟨[], by simp [beforeEnd, hlast], hlast⟩
  | cons t body ih =>
    by_cases ht : t.kind = .eof
    · exact ⟨t :: body, by simp [beforeEnd, ht], ht⟩
    · obtain ⟨post, hbody, hpost⟩ := ih
      refine ⟨post, ?_, hpost⟩
      have hbefore : beforeEnd (t :: body ++ [last]) = t :: beforeEnd (body ++ [last]) := by
        simp [beforeEnd, ht]
      rw [hbefore, List.cons_append, ← hbody]

theorem ofTokens_ok_iff_beforeEnd {e : Expression} :
    ofTokens limit ts = .ok e ↔
      (∃ last ∈ ts.getLast?, last.kind = .eof) ∧
        ∃ d : Sentence, d.tokens = beforeEnd ts ∧ d.tree = .ok e ∧ Fits limit d.height ∧
          Fits limit d.nesting := by
  constructor
  · intro h
    rcases ofTokens_ended_or_unterminated limit ts with ⟨body, last, rfl, hlast⟩ | ⟨p, hp⟩
    · refine ⟨⟨last, List.getLast?_concat, hlast⟩, ?_⟩
      rw [ofTokens_append limit hlast] at h
      obtain ⟨r, hr, h⟩ := bind_eq_ok h
      have hread : Surveyed limit (.chain .sum) 0 body
          ((Phrase.chain .sum).read limit last 0 body) := surveyed_read _ body (fits_zero _)
      rw [hr] at hread
      obtain ⟨d, hd, hlow, hshallow⟩ := hread
      rw [Nat.zero_add] at hshallow
      split at h
      · next hend =>
        cases h
        refine ⟨d, ?_, hd.tree, hd.height ▸ hlow, hshallow⟩
        rw [← hd.tokens, beforeEnd_eq d.kind_ne_eof hend]
      · cases h
    · rw [h] at hp
      cases hp
  · rintro ⟨⟨last, hmem, hlast⟩, d, hd, he, hlow, hshallow⟩
    obtain ⟨body, rfl⟩ : ∃ body, ts = body ++ [last] := List.getLast?_eq_some_iff.mp hmem
    obtain ⟨post, hbody, hend⟩ := exists_behind_beforeEnd hlast body
    rw [← hd] at hbody
    have hended : (Phrase.chain .sum).Ended (post.headD last).kind := by
      rw [hend]
      exact Phrase.ended_eof _
    rw [← Nat.zero_add d.nesting] at hshallow
    rw [ofTokens_append limit hlast, hbody, d.read_tree he 0 post hended.allows hlow hshallow,
      Phrase.resume_ended hended, ok_bind]
    exact if_pos hend

theorem beforeEnd_eq_dropLast (hlast : ∃ last ∈ ts.getLast?, last.kind = .eof)
    (hinner : ∀ t ∈ ts.dropLast, t.kind ≠ .eof) : beforeEnd ts = ts.dropLast := by
  obtain ⟨last, hmem, hlast⟩ := hlast
  obtain ⟨body, rfl⟩ : ∃ body, ts = body ++ [last] := List.getLast?_eq_some_iff.mp hmem
  rw [List.dropLast_concat] at hinner ⊢
  have hbefore : beforeEnd (body ++ [] ++ [last]) = body := beforeEnd_eq hinner hlast
  rwa [List.append_nil] at hbefore

/-- What is read off any tokens is the tree of a sentence that ends at the first end of input. If that
is the last token, no token before it is left out. -/
theorem ofTokens_consumes_beforeEnd (limit : Option Int) (ts : List Token) :
    (∀ e, ofTokens limit ts = .ok e ↔
      (∃ last ∈ ts.getLast?, last.kind = .eof) ∧
        ∃ d : Sentence, d.tokens = beforeEnd ts ∧ d.tree = .ok e ∧ Fits limit d.height ∧
          Fits limit d.nesting) ∧
      ((∀ t ∈ ts.dropLast, t.kind ≠ .eof) → ∀ e, ofTokens limit ts = .ok e →
        ∃ d : Sentence, d.tokens = ts.dropLast ∧ d.tree = .ok e) := by
  refine ⟨fun e => ofTokens_ok_iff_beforeEnd, fun hinner e h => ?_⟩
  obtain ⟨hlast, d, hd, he, -⟩ := ofTokens_ok_iff_beforeEnd.mp h
  exact ⟨d, hd.trans (beforeEnd_eq_dropLast hlast hinner), he⟩

theorem negatedGroup_consumed :
    let ts := Derivation.negatedGroup.tokens ++ [⟨.eof, "", 12⟩]
    (∀ t ∈ ts.dropLast, t.kind ≠ .eof) ∧
      ∃ e, ofTokens (some 3) ts = .ok e ∧ ∃ d : Sentence, d.tokens = ts.dropLast ∧ d.tree = .ok e := by
  intro ts
  have hinner : ∀ t ∈ ts.dropLast, t.kind ≠ .eof := by decide
  have hlast : (Token.mk .eof "" 12).kind = .eof := rfl
  have hread := (Derivation.negatedGroup.ofTokens_ok_iff hlast Derivation.negatedGroup_tree).mpr
    ⟨rfl, (fits_some (m := 3)).mpr (by decide), fits_some.mpr (by decide)⟩
  exact ⟨hinner, _, hread, (ofTokens_consumes_beforeEnd (some 3) ts).2 hinner _ hread⟩

/-- An end of input between two numbers hides the second one. -/
theorem inner_end_hides_number :
    ofTokens none [⟨.number, "1", 0⟩, ⟨.eof, "", 1⟩, ⟨.number, "2", 2⟩, ⟨.eof, "", 3⟩] =
        .ok (.number (.ofInt 1)) ∧
      ¬ ∃ d : Sentence, d.tokens = [⟨.number, "1", 0⟩, ⟨.eof, "", 1⟩, ⟨.number, "2", 2⟩] := by
  have hone : Binary64.ofText? "1" = some (.ofInt 1) := by decide +kernel
  let one : Sentence := .single (.single (.number ⟨.number, "1", 0⟩ rfl))
  have htree : one.tree = .ok (.number (.ofInt 1)) := by simp [one, Derivation.tree, hone]
  refine ⟨?_, ?_⟩
  · exact ofTokens_ok_iff_beforeEnd.mpr
      ⟨⟨_, rfl, rfl⟩, one, rfl, htree, fits_none _, fits_none _⟩
  rintro ⟨d, hd⟩
  have hne := d.kind_ne_eof
  rw [hd] at hne
  exact hne ⟨.eof, "", 1⟩ (by simp) rfl

end Reckoner
